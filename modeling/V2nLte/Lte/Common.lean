import Mathlib.Data.Fin.Basic
import V2nLte.Machine.Word

/-!
# Names that all layers share

LTE nodes are known to each other by their MAC node id, an unsigned 16-bit number; the kind of a
node can be read off its id.  A connection is known by the node and a logical channel of it.
-/

namespace V2nLte

/-! ### Nodes -/

/-- `MacNodeId`, an `unsigned short`. -/
abbrev MacNodeId := Fin 65536

/-- `LogicalCid`, an `unsigned short`. -/
abbrev LogicalCid := Fin 65536

/-- Ids are compared by their numbers. -/
instance (priority := 2000) lawfulBEq_macNodeId : LawfulBEq MacNodeId := inferInstance

/-- The kinds of nodes. -/
inductive LteNodeType where
  | ENODEB
  | RELAY
  | UE
  | UNKNOWN_NODE_TYPE
  deriving DecidableEq

/-- The first id of an eNB. -/
def ENB_MIN_ID : MacNodeId := 1
/-- The last id of an eNB. -/
def ENB_MAX_ID : MacNodeId := 255
/-- The first id of a relay. -/
def RELAY_MIN_ID : MacNodeId := 257
/-- The last id of a relay. -/
def RELAY_MAX_ID : MacNodeId := 1023
/-- The first id of a UE. -/
def UE_MIN_ID : MacNodeId := 1025
/-- The last id of a UE. -/
def UE_MAX_ID : MacNodeId := 65535

/-- The kind of the node with this id. -/
def getNodeTypeById (id : MacNodeId) : LteNodeType :=
  if ENB_MIN_ID ≤ id ∧ id ≤ ENB_MAX_ID then .ENODEB
  else if RELAY_MIN_ID ≤ id ∧ id ≤ RELAY_MAX_ID then .RELAY
  else if UE_MIN_ID ≤ id ∧ id ≤ UE_MAX_ID then .UE
  else .UNKNOWN_NODE_TYPE

/-! ### Connections -/

/-- A connection; the upper 16 bits are the node. -/
abbrev MacCid := ℕ

/-- The node of a connection. -/
def MacCidToNodeId (cid : MacCid) : MacNodeId := Fin.ofNat 65536 (cid / 65536)

/-- `MacCidToLcid`. -/
def MacCidToLcid (cid : MacCid) : ℕ := cid % 65536

/-- `idToMacCid`. -/
def idToMacCid (nodeId : MacNodeId) (lcid : LogicalCid) : MacCid := (nodeId : ℕ) <<< 16 ||| lcid

/-- `LteTrafficClass`. -/
inductive LteTrafficClass where
  | CONVERSATIONAL
  | STREAMING
  | INTERACTIVE
  | BACKGROUND
  | UNKNOWN_TRAFFIC_TYPE
  deriving DecidableEq

/-! ### Directions -/

/-- The directions in which a UE is attached. -/
inductive Direction where
  | UL
  | DL
  deriving DecidableEq

/-- The direction of a connection or of a grant. -/
inductive FlowDirection where
  | DL
  | UL
  | D2D
  | D2D_MULTI
  deriving DecidableEq

/-- Whether two UEs talk to each other directly. -/
inductive LteD2DMode where
  | IM
  | DM
  deriving DecidableEq

/-! ### The MAC and the air -/

/-- `MAC_HEADER`, in bytes. -/
def MAC_HEADER : ℕ := 2

/-- `MAX_CODEWORDS`. -/
def MAX_CODEWORDS : ℕ := 2

/-- `SHORT_BSR`. -/
def SHORT_BSR : LogicalCid := 0

/-- A logical band. -/
abbrev Band := ℕ

/-- The antenna of the eNB itself; remote antennas have the numbers after it. -/
def MACRO : ℕ := 0

end V2nLte
