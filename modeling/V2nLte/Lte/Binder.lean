import V2nLte.Lte.Common
import V2nLte.Lte.Ip2lte

/-!
# The binder

`LteBinder` is the directory of the LTE network: it gives out node ids, maps them to simulation
modules, knows the master of every node (`nextHop`) and, the other way round, the nodes of every
master (`dMap`), the address of every UE and which UEs are in a handover.

`nextHop` is a vector indexed by node id that grows as needed; the maps are functions, with
`none` for a missing key.
-/

namespace V2nLte

/-- The id of a simulation module; `0` is no module. -/
abbrev OmnetId := ℕ

/-- The binder. -/
structure LteBinder where
  /-- The next id of an eNB. -/
  enbCounter : MacNodeId := ENB_MIN_ID
  /-- The next id of a relay. -/
  relayCounter : MacNodeId := RELAY_MIN_ID
  /-- The next id of a UE. -/
  ueCounter : MacNodeId := UE_MIN_ID
  /-- The modules of the nodes. -/
  nodeIds : MacNodeId → Option OmnetId := fun _ => none
  /-- The masters, by the id of the slave. -/
  nextHop : List MacNodeId := []
  /-- `dMap master slave` : the slave is deployed at the master. -/
  dMap : MacNodeId → MacNodeId → Option Bool := fun _ _ => none
  /-- The UEs that are in a handover. -/
  ueHandoverTriggered : MacNodeId → Bool := fun _ => false
  /-- The nodes, by their address. -/
  macNodeIdToIPAddress : Ipv4Address → Option MacNodeId := fun _ => none

namespace LteBinder

variable (b : LteBinder)

/-- The id for a new node of this type, and the binder with the counter moved on. -/
def newId : LteNodeType → LteBinder × MacNodeId
  | .UE => ({ b with ueCounter := b.ueCounter + 1 }, b.ueCounter)
  | .RELAY => ({ b with relayCounter := b.relayCounter + 1 }, b.relayCounter)
  | .ENODEB => ({ b with enbCounter := b.enbCounter + 1 }, b.enbCounter)
  | .UNKNOWN_NODE_TYPE => (b, 65535)

/-- Enter a value into the table `dMap`. -/
def setDMap (masterId slaveId : MacNodeId) (v : Bool) :
    MacNodeId → MacNodeId → Option Bool :=
  Function.update b.dMap masterId (Function.update (b.dMap masterId) slaveId (some v))

/-- Make `masterId` the master of `slaveId`. -/
def registerNextHop (masterId slaveId : MacNodeId) : LteBinder :=
  { b with
    dMap := if masterId ≠ slaveId then b.setDMap masterId slaveId true else b.dMap
    nextHop :=
      (b.nextHop ++ List.replicate ((slaveId : ℕ) + 1 - b.nextHop.length) 0).set slaveId masterId }

/-- `slaveId` has no master any more. -/
def unregisterNextHop (masterId slaveId : MacNodeId) : LteBinder :=
  { b with
    dMap := b.setDMap masterId slaveId false
    nextHop := b.nextHop.set slaveId 0 }

/-- The master of a node; it throws for an id that is out of range. -/
def getNextHop (slaveId : MacNodeId) : Option MacNodeId := b.nextHop[(slaveId : ℕ)]?

/-- The module of a node, `0` if there is none. -/
def getOmnetId (nodeId : MacNodeId) : OmnetId := (b.nodeIds nodeId).getD 0

/-- The node with this address, `0` if there is none. -/
def getMacNodeId (address : Ipv4Address) : MacNodeId := (b.macNodeIdToIPAddress address).getD 0

/-- Enter a module as a new node. -/
def registerNode (omnetId : OmnetId) (type : LteNodeType) (masterId : MacNodeId) :
    LteBinder × MacNodeId :=
  let (b, macNodeId) := b.newId type
  let b := { b with nodeIds := Function.update b.nodeIds macNodeId (some omnetId) }
  match type with
  | .RELAY | .UE => (b.registerNextHop masterId macNodeId, macNodeId)
  | .ENODEB => (b.registerNextHop macNodeId macNodeId, macNodeId)
  | .UNKNOWN_NODE_TYPE => (b, macNodeId)

/-- Enter the address of a node. -/
def setMacNodeId (address : Ipv4Address) (nodeId : MacNodeId) : LteBinder :=
  { b with macNodeIdToIPAddress := Function.update b.macNodeIdToIPAddress address (some nodeId) }

/-- A UE starts a handover. -/
def addUeHandoverTriggered (nodeId : MacNodeId) : LteBinder :=
  { b with ueHandoverTriggered := Function.update b.ueHandoverTriggered nodeId true }

/-- A UE ends a handover. -/
def removeUeHandoverTriggered (nodeId : MacNodeId) : LteBinder :=
  { b with ueHandoverTriggered := Function.update b.ueHandoverTriggered nodeId false }

/-- What an eNB looks up in the binder. -/
def view : BinderView where
  getMacNodeId := b.getMacNodeId
  getNextHop := b.getNextHop

/-! ### Looking up what was entered -/

variable {b} {m u x v : MacNodeId}

theorem getNextHop_registerNextHop_self : (b.registerNextHop m u).getNextHop u = some m := by
  simp only [registerNextHop, getNextHop]
  rw [List.getElem?_set_self]
  simp only [List.length_append, List.length_replicate]
  omega

theorem getNextHop_registerNextHop_of_ne (hv : v ≠ u) (h : b.getNextHop v = some x) :
    (b.registerNextHop m u).getNextHop v = some x := by
  have hne : (u : ℕ) ≠ v := fun heq => hv (Fin.ext heq).symm
  simp only [registerNextHop, getNextHop]
  have hlen : (v : ℕ) < b.nextHop.length := (List.getElem?_eq_some_iff.1 h).1
  rw [List.getElem?_set_ne hne, List.getElem?_append_left hlen]
  exact h

theorem getNextHop_unregisterNextHop_of_ne (hv : v ≠ u) :
    (b.unregisterNextHop m u).getNextHop v = b.getNextHop v := by
  have hne : (u : ℕ) ≠ v := fun heq => hv (Fin.ext heq).symm
  simp only [unregisterNextHop, getNextHop]
  rw [List.getElem?_set_ne hne]

/-- A node without a master has the next hop `0` or none at all. -/
theorem getNextHop_unregisterNextHop_self (h : (b.unregisterNextHop m u).getNextHop u = some x) :
    x = 0 := by
  simp only [unregisterNextHop, getNextHop, List.getElem?_set_self'] at h
  obtain ⟨y, -, rfl⟩ := Option.map_eq_some_iff.1 h
  rfl

theorem getNextHop_unregisterNextHop_of_some (h : b.getNextHop u = some x) :
    (b.unregisterNextHop m u).getNextHop u = some 0 := by
  simp only [unregisterNextHop, getNextHop, List.getElem?_set_self'] at h ⊢
  rw [h]
  rfl

@[simp] theorem getNextHop_removeUeHandoverTriggered :
    (b.removeUeHandoverTriggered u).getNextHop v = b.getNextHop v := rfl

theorem nodeIds_registerNode {omnetId : OmnetId} {t : LteNodeType} :
    (b.registerNode omnetId t m).1.nodeIds =
      Function.update b.nodeIds (b.newId t).2 (some omnetId) := by
  cases t <;> rfl

theorem getOmnetId_registerNode {omnetId : OmnetId} {t : LteNodeType} :
    (b.registerNode omnetId t m).1.getOmnetId x =
      if x = (b.newId t).2 then omnetId else b.getOmnetId x := by
  unfold getOmnetId
  rw [nodeIds_registerNode]
  by_cases hx : x = (b.newId t).2
  · simp [hx]
  · simp [hx]

theorem setDMap_apply {w : Bool} :
    b.setDMap m u w x v = if x = m ∧ v = u then some w else b.dMap x v := by
  by_cases hx : x = m
  · subst hx
    by_cases hv : v = u
    · subst hv; simp [setDMap]
    · simp [setDMap, hv]
  · simp [setDMap, hx]

end LteBinder

end V2nLte
