import V2nLte.Pdcp.ConnectionsTable
import V2nLte.Rlc.UmLayer

/-!
# The user plane

PDCP and RLC UM of all the nodes, with PDUs on their way that can be lost, doubled and reordered,
and UEs that go from one eNB to another.  PDCP gives the flow of a packet an LCID and the packet a
number; RLC has an entity for the connection at either end; PHY of a UE deletes what does not come
from its master, PHY of an eNB what does not come from a UE that the binder has for it.

A handover deletes the entities of the UE at both ends.  It gives PHY of the UE another master, but
the binder only takes the UE out of its table: from then on PDCP sends what the UE has, and what an
eNB has for it, to the node 0, and no eNB takes a frame of it.  The numbers of PDCP go on over a
handover, those of RLC start again.

* `Cells.doHandover` : what a handover does to the masters.
* `not_hears_doHandover` : what is in the air to or from the UE is deleted on arrival.
* `takenOf`, `upOf`, `logOf` : what has happened on a connection.
* `Routed.conn_eq_of_source`, `Routed.conn_eq_of_dest` : the keys of the maps, which have only one
  end of a connection in them, tell the connections of a node apart.

All packets are of class UM.  The MAC only asks for PDUs of a connection that has an entity.
-/

namespace V2nLte

/-! ### PDCP -/

/-- A packet as PDCP hands it to RLC. -/
structure PdcpPacket where
  /-- The address of the sender. -/
  srcAddr : Ipv4Address
  /-- The address of the receiver. -/
  dstAddr : Ipv4Address
  /-- The port of the sender. -/
  srcPort : UInt16
  /-- The port of the receiver. -/
  dstPort : UInt16
  /-- The traffic class. -/
  traffic : ℕ
  /-- Its length in bytes, the header of PDCP included. -/
  length : ℕ
  /-- It is not empty. -/
  pos : 0 < length
  /-- Lengths are `int`s. -/
  lt : length < 2147483648

/-- The flow of a packet. -/
def PdcpPacket.flow (pkt : PdcpPacket) : Flow where
  srcAddr := pkt.srcAddr
  dstAddr := pkt.dstAddr
  srcPort := pkt.srcPort
  dstPort := pkt.dstPort
  dir := none

/-- The RLC SDU of a packet with its number; the `LteRlcSdu` has one byte. -/
def PdcpPacket.sdu (pkt : PdcpPacket) (sno : ℕ) : RlcSdu :=
  ⟨sno, pkt.length, pkt.length + 1, pkt.pos, pkt.lt⟩

/-- `LtePdcpRrcBase` with its entities. -/
structure PdcpLayer where
  /-- The connections. -/
  rrc : LtePdcpRrc := {}
  /-- `entities_` : the next number for a packet with this LCID. -/
  entities : LogicalCid → ℕ := fun _ => 0

/-- `LtePdcpRrcBase::fromDataPort` : the LCID and the number of a packet. -/
def PdcpLayer.fromDataPort (n : ℕ) (s : PdcpLayer) (pkt : PdcpPacket) :
    Option (PdcpLayer × LogicalCid × ℕ) :=
  match s.rrc.identify n pkt.flow with
  | some (rrc, [lcid]) =>
    let sno := s.entities lcid
    some ({ rrc, entities := Function.update s.entities lcid (u32 (sno + 1)) }, lcid, sno)
  | _ => none

/-! ### The nodes -/

/-- Who serves whom: the table of the binder, and what PHY of the UEs has. -/
structure Cells where
  /-- `nextHop_` of the binder. -/
  nextHop : MacNodeId → MacNodeId
  /-- `masterId_` of PHY of a UE. -/
  masterId : MacNodeId → MacNodeId
  /-- An eNB is registered as its own master. -/
  self : ∀ n, getNodeTypeById n = .ENODEB → nextHop n = n
  /-- A UE is registered with its master, or with no one. -/
  slave : ∀ n, getNodeTypeById n = .UE → nextHop n = masterId n ∨ nextHop n = 0
  /-- The master of a UE is an eNB. -/
  master : ∀ n, getNodeTypeById n = .UE → getNodeTypeById (masterId n) = .ENODEB
  /-- No UE is a master. -/
  noUe : ∀ n, getNodeTypeById (nextHop n) ≠ .UE

/-- `LtePhyUe::doHandover` : the binder forgets the old master of the UE, and PHY has the new one.
No one registers the new master with the binder. -/
def Cells.doHandover (cells : Cells) (ue candidateMasterId : MacNodeId)
    (hue : getNodeTypeById ue = .UE) (henb : getNodeTypeById candidateMasterId = .ENODEB) :
    Cells where
  -- `unregisterNextHop`
  nextHop := Function.update cells.nextHop ue 0
  masterId := Function.update cells.masterId ue candidateMasterId
  self n hn := by
    have hne : n ≠ ue := fun heq => by
      rw [heq, hue] at hn
      cases hn
    rw [Function.update_of_ne hne]
    exact cells.self n hn
  slave n hn := by
    by_cases hne : n = ue
    · subst hne
      exact .inr (Function.update_self ..)
    · rw [Function.update_of_ne hne, Function.update_of_ne hne]
      exact cells.slave n hn
  master n hn := by
    rw [Function.update_apply]
    split
    · exact henb
    · exact cells.master n hn
  noUe n := by
    rw [Function.update_apply]
    split
    · decide
    · exact cells.noUe n

/-- The parameters of the nodes. -/
structure UserPlaneParams where
  /-- Those of RLC UM. -/
  um : UmParams
  /-- How many iterations a loop of the table of connections can take. -/
  steps : ℕ
  /-- The table of the binder from addresses to nodes. -/
  getMacNodeId : Ipv4Address → MacNodeId

/-- All the nodes, and what is in the air. -/
structure UserPlane where
  /-- Who is in which cell. -/
  cells : Cells
  /-- `LtePdcpRrc` of each node. -/
  pdcp : MacNodeId → PdcpLayer := fun _ => {}
  /-- `LteRlcUm` of each node. -/
  rlc : MacNodeId → LteRlcUm := fun _ => {}
  /-- The PDUs that have been sent. -/
  air : List (ConnectionInfo × UmDataPdu) := []

namespace UserPlane

variable (P : UserPlaneParams) (s : UserPlane)

/-- What can happen. -/
inductive Event where
  /-- A packet comes from IP. -/
  | fromDataPort (nodeId : MacNodeId) (pkt : PdcpPacket)
  /-- The MAC asks for a PDU. -/
  | sduRequest (nodeId : MacNodeId) (cid : MacCid) (size : ℤ)
  /-- A PDU arrives; it may have arrived before. -/
  | arrive (frame : ConnectionInfo × UmDataPdu)
  /-- t-reordering of a connection expires. -/
  | timer (nodeId : MacNodeId) (cid : MacCid)
  /-- `doHandover` of a UE, whose candidate is another eNB. -/
  | handover (ue candidateMasterId : MacNodeId)

/-- What can be seen. -/
inductive Out where
  /-- RLC has put a packet of a flow into its queue. -/
  | taken (info : ConnectionInfo) (flow : Flow) (sdu : RlcSdu)
  /-- The queue is full. -/
  | dropped (info : ConnectionInfo) (flow : Flow) (sdu : RlcSdu)
  /-- A PDU is sent. -/
  | sent (info : ConnectionInfo) (pdu : UmDataPdu)
  /-- RLC is handed a PDU. -/
  | arrived (info : ConnectionInfo) (pdu : UmDataPdu)
  /-- PDCP is handed a packet. -/
  | up (info : ConnectionInfo) (sdu : RlcSdu)
  /-- The entities of a UE are deleted. -/
  | deleted (ue : MacNodeId)

/-- `getDestId` of a UE and of an eNB. -/
def getDestId (nodeId : MacNodeId) (pkt : PdcpPacket) : MacNodeId :=
  if getNodeTypeById nodeId = .UE then s.cells.nextHop nodeId
  else
    let destId := P.getMacNodeId pkt.dstAddr
    let master := s.cells.nextHop destId
    -- 0 for a UE that has been handed over
    if master ≠ nodeId then master else destId

/-- The direction of what a node sends. -/
def getDirection (nodeId : MacNodeId) : FlowDirection :=
  if getNodeTypeById nodeId = .UE then .UL else .DL

/-- The control info that PDCP sets. -/
def controlInfo (nodeId : MacNodeId) (pkt : PdcpPacket) (lcid : LogicalCid) : ConnectionInfo where
  sourceId := nodeId
  destId := getDestId P s nodeId pkt
  lcid := lcid
  direction := some (getDirection nodeId)
  traffic := pkt.traffic
  rlcType := .UM

/-- `handleAirFrame` of the destination does not delete the frame: a UE takes what is from its
master, an eNB what is from a node that the binder has for it, and no one hears itself.  The MAC of
a UE sends to its master whatever PDCP has set, but only where the two are the same does the eNB
take the frame. -/
def hears (cells : Cells) (info : ConnectionInfo) : Bool :=
  decide (info.sourceId ≠ info.destId) &&
    match getNodeTypeById info.destId with
    | .UE => decide (cells.masterId info.destId = info.sourceId)
    | .ENODEB => decide (cells.nextHop info.sourceId = info.destId)
    | _ => false

/-- Replace the UM layer of a node. -/
def setRlc (nodeId : MacNodeId) (r : LteRlcUm) : UserPlane :=
  { s with rlc := Function.update s.rlc nodeId r }

/-- A packet goes through PDCP into RLC. -/
def fromDataPort (nodeId : MacNodeId) (pkt : PdcpPacket) : Option (UserPlane × List Out) :=
  match (s.pdcp nodeId).fromDataPort P.steps pkt with
  | none => none
  | some (pdcp, lcid, sno) =>
    let info := controlInfo P s nodeId pkt lcid
    let sdu := pkt.sdu sno
    match (s.rlc nodeId).handleUpperMessage P.um info sdu with
    | none => none
    | some (rlc, taken) =>
      some ({ s.setRlc nodeId rlc with pdcp := Function.update s.pdcp nodeId pdcp },
        [if taken then .taken info pkt.flow sdu else .dropped info pkt.flow sdu])

/-- The MAC asks for a PDU of a connection. -/
def sduRequest (nodeId : MacNodeId) (cid : MacCid) (size : ℤ) : Option (UserPlane × List Out) :=
  match (s.rlc nodeId).txEntities.find cid with
  | none => none
  | some (info, _) =>
    match (s.rlc nodeId).handleSduRequest P.um info size with
    | none => none
    | some (rlc, pdu) =>
      some ({ s.setRlc nodeId rlc with air := s.air ++ pdu.toList },
        pdu.toList.map fun frame => .sent frame.1 frame.2)

/-- A PDU arrives at its destination. -/
def arrive (frame : ConnectionInfo × UmDataPdu) : Option (UserPlane × List Out) :=
  if hears s.cells frame.1 then
    match (s.rlc frame.1.destId).handlePdu P.um frame.1 frame.2 with
    | none => none
    | some (rlc, sdus) =>
      some (s.setRlc frame.1.destId rlc, .arrived frame.1 frame.2 :: sdus.map (.up frame.1))
  else some (s, [])

/-- The timer of a connection expires. -/
def timer (nodeId : MacNodeId) (cid : MacCid) : Option (UserPlane × List Out) :=
  match (s.rlc nodeId).handleTimer cid with
  | none => none
  | some (rlc, info, sdus) => some (s.setRlc nodeId rlc, sdus.map (.up info))

/-- `deleteOldBuffers` : RLC of the UE and of its master. -/
def deleteOldBuffers (ue : MacNodeId) : UserPlane :=
  { s with
    rlc := fun n =>
      if n = ue then (s.rlc n).deleteQueues .UE ue
      else if n = s.cells.masterId ue then (s.rlc n).deleteQueues .ENODEB ue
      else s.rlc n }

/-- `doHandover`.  What is in the air to or from the UE arrives within a TTI, when it is deleted
(`not_hears_doHandover`), so it is gone. -/
def doHandover (ue candidateMasterId : MacNodeId) (hue : getNodeTypeById ue = .UE)
    (henb : getNodeTypeById candidateMasterId = .ENODEB) : UserPlane :=
  { deleteOldBuffers s ue with
    cells := s.cells.doHandover ue candidateMasterId hue henb
    air := s.air.filter fun frame => frame.1.sourceId ≠ ue ∧ frame.1.destId ≠ ue }

/-- The event can happen now. -/
def Event.Enabled (s : UserPlane) : Event → Prop
  | .fromDataPort nodeId _ => getNodeTypeById nodeId = .UE ∨ getNodeTypeById nodeId = .ENODEB
  | .sduRequest nodeId cid _ => ((s.rlc nodeId).txEntities.find cid).isSome
  | .arrive frame => frame ∈ s.air
  | .timer nodeId cid => ∃ e ∈ (s.rlc nodeId).rxEntities.find cid, e.2.tReordering = true
  | .handover ue candidateMasterId => getNodeTypeById ue = .UE ∧
    getNodeTypeById candidateMasterId = .ENODEB ∧ s.cells.masterId ue ≠ candidateMasterId

instance (s : UserPlane) (e : Event) : Decidable (e.Enabled s) := by
  cases e <;> unfold Event.Enabled <;> infer_instance

/-- The user plane as a machine. -/
def machine : Machine UserPlane Event Out where
  step s e :=
    if he : e.Enabled s then
      match e, he with
      | .fromDataPort nodeId pkt, _ => fromDataPort P s nodeId pkt
      | .sduRequest nodeId cid size, _ => sduRequest P s nodeId cid size
      | .arrive frame, _ => arrive P s frame
      | .timer nodeId cid, _ => timer s nodeId cid
      | .handover ue candidateMasterId, h =>
        some (doHandover s ue candidateMasterId h.1 h.2.1, [.deleted ue])
    else none

/-- The numbers suffice, and no PDU is too far ahead of its receiver. -/
def Event.Ok (s : UserPlane) : Event → Prop
  | .fromDataPort nodeId pkt => (s.pdcp nodeId).rrc.lcid ≤ TABLE_SIZE ∧
    ∀ r ∈ (s.pdcp nodeId).fromDataPort P.steps pkt, r.2.2 + 1 < 4294967296
  | .sduRequest nodeId cid _ => ∀ e ∈ (s.rlc nodeId).txEntities.find cid, e.2.sno + 1 < 4294967296
  | .arrive frame => hears s.cells frame.1 = true →
    ((s.rlc frame.1.destId).rxEntities.getEntity (LteRlcUm.rxCid frame.1) frame.1
      (P.um.newRx frame.1)).2.Admissible frame.2.pduSequenceNumber
  | .timer _ _ => True
  | .handover _ _ => True

instance (s : UserPlane) (e : Event) : Decidable (e.Ok P s) := by
  cases e <;> unfold Event.Ok <;> infer_instance

/-! ### What has happened on a connection -/

/-- The SDUs of a connection that the queue has taken. -/
def takenOf (c : UmConnection) (os : List Out) : List RlcSdu :=
  os.filterMap fun
    | .taken info _ sdu => if info.conn = c then some sdu else none
    | _ => none

/-- The SDUs of a connection that have gone up. -/
def upOf (c : UmConnection) (os : List Out) : List RlcSdu :=
  os.filterMap fun
    | .up info sdu => if info.conn = c then some sdu else none
    | _ => none

/-- What has happened on a connection since its entities were deleted. -/
structure Log where
  /-- The SDUs that the sender has taken. -/
  taken : List RlcSdu := []
  /-- The PDUs it has made. -/
  sent : List UmDataPdu := []
  /-- The PDUs that have arrived. -/
  arrived : List UmDataPdu := []
  /-- The SDUs that have been handed up. -/
  up : List RlcSdu := []

/-- Write an output into the log of a connection. -/
def Log.add (c : UmConnection) (l : Log) : Out → Log
  | .taken info _ sdu => if info.conn = c then { l with taken := l.taken ++ [sdu] } else l
  | .dropped _ _ _ => l
  | .sent info pdu => if info.conn = c then { l with sent := l.sent ++ [pdu] } else l
  | .arrived info pdu => if info.conn = c then { l with arrived := l.arrived ++ [pdu] } else l
  | .up info sdu => if info.conn = c then { l with up := l.up ++ [sdu] } else l
  | .deleted ue => if c.source = ue ∨ c.dest = ue then {} else l

/-- The log of a connection. -/
def logOf (c : UmConnection) (os : List Out) : Log := os.foldl (Log.add c) {}

/-- The output is about the connection. -/
def Out.About (c : UmConnection) : Out → Prop
  | .taken info _ _ => info.conn = c
  | .dropped _ _ _ => False
  | .sent info _ => info.conn = c
  | .arrived info _ => info.conn = c
  | .up info _ => info.conn = c
  | .deleted ue => c.source = ue ∨ c.dest = ue

section Logs

variable {c : UmConnection} {os o : List Out} {info : ConnectionInfo}

theorem takenOf_append (os o : List Out) : takenOf c (os ++ o) = takenOf c os ++ takenOf c o :=
  List.filterMap_append

theorem upOf_append (os o : List Out) : upOf c (os ++ o) = upOf c os ++ upOf c o :=
  List.filterMap_append

theorem logOf_append (os o : List Out) :
    logOf c (os ++ o) = o.foldl (Log.add c) (logOf c os) :=
  List.foldl_append

theorem takenOf_of_not_about (h : ∀ x ∈ o, ¬x.About c) : takenOf c o = [] := by
  refine List.filterMap_eq_nil_iff.2 fun x hx => ?_
  cases x with
  | taken info flow sdu => exact if_neg (h _ hx)
  | _ => rfl

theorem upOf_of_not_about (h : ∀ x ∈ o, ¬x.About c) : upOf c o = [] := by
  refine List.filterMap_eq_nil_iff.2 fun x hx => ?_
  cases x with
  | up info sdu => exact if_neg (h _ hx)
  | _ => rfl

theorem foldl_add_of_not_about (h : ∀ x ∈ o, ¬x.About c) (l : Log) :
    o.foldl (Log.add c) l = l := by
  induction o with
  | nil => rfl
  | cons x o ih =>
    have hx : Log.add c l x = l := by
      have hnot := h x List.mem_cons_self
      cases x with
      | dropped => rfl
      | _ => exact if_neg hnot
    rw [List.foldl_cons, hx]
    exact ih fun y hy => h y (List.mem_cons_of_mem x hy)

theorem takenOf_map_up (sdus : List RlcSdu) : takenOf c (sdus.map (.up info)) = [] := by
  simp [takenOf, List.filterMap_map]

theorem upOf_map_up (sdus : List RlcSdu) : upOf info.conn (sdus.map (.up info)) = sdus := by
  simp [upOf, List.filterMap_map]

theorem foldl_add_map_arrived (pdus : List UmDataPdu) (l : Log) :
    (pdus.map (Out.arrived info)).foldl (Log.add info.conn) l =
      { l with arrived := l.arrived ++ pdus } := by
  induction pdus generalizing l with
  | nil => simp
  | cons pdu pdus ih =>
    rw [List.map_cons, List.foldl_cons, ih, Log.add, if_pos rfl]
    simp

theorem foldl_add_map_up (sdus : List RlcSdu) (l : Log) :
    (sdus.map (Out.up info)).foldl (Log.add info.conn) l = { l with up := l.up ++ sdus } := by
  induction sdus generalizing l with
  | nil => simp
  | cons sdu sdus ih =>
    rw [List.map_cons, List.foldl_cons, ih, Log.add, if_pos rfl]
    simp

end Logs

/-! ### Connections and keys -/

/-- The key of a connection at both its ends. -/
def cidOf (c : UmConnection) : MacCid :=
  idToMacCid (if getNodeTypeById c.source = .UE then c.source else c.dest) c.lcid

/-- A connection that has a UE at one end has at the other what the binder has for it. -/
def Current (cells : Cells) (c : UmConnection) : Prop :=
  (getNodeTypeById c.source = .UE → cells.nextHop c.source = c.dest) ∧
    (getNodeTypeById c.dest = .UE → cells.nextHop c.dest = c.source)

/-- The control info is one that PDCP sets. -/
structure Routed (cells : Cells) (info : ConnectionInfo) : Prop where
  node : getNodeTypeById info.sourceId = .UE ∨ getNodeTypeById info.sourceId = .ENODEB
  direction : info.direction = some (getDirection info.sourceId)
  current : Current cells info.conn

section Keys

variable {P : UserPlaneParams} {cells : Cells} {info info' : ConnectionInfo}

theorem idToMacCid_eq_iff {n n' : MacNodeId} {l l' : LogicalCid} :
    idToMacCid n l = idToMacCid n' l' ↔ n = n' ∧ l = l' := by
  refine ⟨fun h => ⟨?_, Fin.ext ?_⟩, fun ⟨hn, hl⟩ => by rw [hn, hl]⟩
  · rw [← MacCidToNodeId_idToMacCid n l, h, MacCidToNodeId_idToMacCid]
  · rw [← MacCidToLcid_idToMacCid n l, h, MacCidToLcid_idToMacCid]

/-- The node 0 is none. -/
theorem getNodeTypeById_zero : getNodeTypeById 0 = .UNKNOWN_NODE_TYPE := by decide

theorem cidOf_conn (info : ConnectionInfo) : cidOf info.conn = idToMacCid
    (if getNodeTypeById info.sourceId = .UE then info.sourceId else info.destId) info.lcid := rfl

theorem Routed.txCid_eq (h : Routed cells info) (hmap : P.um.mapAllLcidsToSingleBearer = false) :
    LteRlcUm.txCid P.um info = some (cidOf info.conn) := by
  rw [LteRlcUm.txCid, hmap, ConnectionInfo.ctrlInfoToUeId, h.direction, getDirection, cidOf_conn]
  by_cases hue : getNodeTypeById info.sourceId = .UE <;> simp [hue]

theorem Routed.rxCid_eq (h : Routed cells info) : LteRlcUm.rxCid info = cidOf info.conn := by
  rw [LteRlcUm.rxCid, h.direction, getDirection, cidOf_conn]
  by_cases hue : getNodeTypeById info.sourceId = .UE <;> simp [hue]

theorem Routed.next_of_source (h : Routed cells info) (hue : getNodeTypeById info.sourceId = .UE) :
    cells.nextHop info.sourceId = info.destId := h.current.1 hue

theorem Routed.next_of_dest (h : Routed cells info) (hue : getNodeTypeById info.destId = .UE) :
    cells.nextHop info.destId = info.sourceId := h.current.2 hue

/-- No two connections of a sender have the same key. -/
theorem Routed.conn_eq_of_source (h : Routed cells info) (h' : Routed cells info')
    (hsource : info.sourceId = info'.sourceId) (hcid : cidOf info.conn = cidOf info'.conn) :
    info.conn = info'.conn := by
  rw [cidOf_conn, cidOf_conn, hsource] at hcid
  obtain ⟨hnode, hlcid⟩ := idToMacCid_eq_iff.1 hcid
  refine ConnectionInfo.conn_eq_iff.2 ⟨hsource, ?_, hlcid⟩
  by_cases hue : getNodeTypeById info'.sourceId = .UE
  · rw [← h.next_of_source (hsource ▸ hue), ← h'.next_of_source hue, hsource]
  · rwa [if_neg hue, if_neg hue] at hnode

/-- At the other end of a connection of a UE is its master, or no one. -/
theorem Routed.ends {ue : MacNodeId} (hr : Routed cells info) (hue : getNodeTypeById ue = .UE)
    (h : info.sourceId = ue ∨ info.destId = ue) :
    info.sourceId = ue ∧ (info.destId = cells.masterId ue ∨ info.destId = 0) ∨
      info.sourceId = cells.masterId ue ∧ info.destId = ue := by
  rcases h with rfl | rfl
  · left
    rw [← hr.next_of_source hue]
    exact ⟨rfl, cells.slave _ hue⟩
  · right
    refine ⟨?_, rfl⟩
    rcases cells.slave _ hue with hslave | hslave
    · rw [← hr.next_of_dest hue, hslave]
    · -- the node 0 sends nothing
      have hzero := (hr.next_of_dest hue).symm.trans hslave
      have hnode := hr.node
      rw [hzero, getNodeTypeById_zero] at hnode
      rcases hnode with hnode | hnode <;> cases hnode

/-- What is heard goes between a UE and an eNB. -/
theorem Routed.hears_iff (h : Routed cells info) : hears cells info = true ↔
    getNodeTypeById info.sourceId = .ENODEB ∧ getNodeTypeById info.destId = .UE ∨
      getNodeTypeById info.sourceId = .UE ∧ getNodeTypeById info.destId = .ENODEB := by
  have hne : ∀ {t t' : LteNodeType}, getNodeTypeById info.sourceId = t →
      getNodeTypeById info.destId = t' → t ≠ t' → info.sourceId ≠ info.destId := by
    rintro _ _ rfl rfl hne heq
    exact hne (congrArg getNodeTypeById heq)
  rw [hears]
  cases hdest : getNodeTypeById info.destId with
  | UE =>
    have hmaster : info.sourceId = info.destId ∨ cells.masterId info.destId = info.sourceId := by
      rcases h.ends hdest (.inr rfl) with ⟨hs, -⟩ | ⟨hs, -⟩
      · exact .inl hs
      · exact .inr hs.symm
    rcases h.node with hs | hs
    · -- a UE is no master
      have hself : info.sourceId = info.destId := by
        refine hmaster.resolve_right fun hm => ?_
        have henb := cells.master _ hdest
        rw [hm, hs] at henb
        cases henb
      simp [hself, hdest]
    · have hother := hne hs hdest (by decide)
      simp [hs, hother, hmaster.resolve_left hother]
  | ENODEB =>
    rcases h.node with hs | hs
    · simp [hs, h.next_of_source hs, hne hs hdest (by decide)]
    · simp [hs, cells.self _ hs] -- an eNB is its own master
  | RELAY => simp
  | UNKNOWN_NODE_TYPE => simp

/-- No two connections of a receiver have the same key. -/
theorem Routed.conn_eq_of_dest (h : Routed cells info) (h' : Routed cells info')
    (hhears : hears cells info = true) (hhears' : hears cells info' = true)
    (hdest : info.destId = info'.destId) (hcid : cidOf info.conn = cidOf info'.conn) :
    info.conn = info'.conn := by
  rw [cidOf_conn, cidOf_conn] at hcid
  obtain ⟨hnode, hlcid⟩ := idToMacCid_eq_iff.1 hcid
  refine ConnectionInfo.conn_eq_iff.2 ⟨?_, hdest, hlcid⟩
  rcases h.hears_iff.1 hhears with ⟨hs, hd⟩ | ⟨hs, hd⟩ <;>
    rcases h'.hears_iff.1 hhears' with ⟨hs', hd'⟩ | ⟨hs', hd'⟩
  · rw [← h.next_of_dest hd, ← h'.next_of_dest hd', hdest]
  · rw [hdest, hd'] at hd
    cases hd
  · rw [hdest, hd'] at hd
    cases hd
  · rwa [if_pos hs, if_pos hs'] at hnode

/-- After a handover PHY takes nothing that has been sent to or from the UE before. -/
theorem not_hears_doHandover {ue candidateMasterId : MacNodeId} {hue : getNodeTypeById ue = .UE}
    {henb : getNodeTypeById candidateMasterId = .ENODEB} (hr : Routed cells info)
    (hne : cells.masterId ue ≠ candidateMasterId) (h : info.sourceId = ue ∨ info.destId = ue) :
    hears (cells.doHandover ue candidateMasterId hue henb) info = false := by
  have hnext : (cells.doHandover ue candidateMasterId hue henb).nextHop ue = 0 :=
    Function.update_self ..
  have hmaster : (cells.doHandover ue candidateMasterId hue henb).masterId ue =
      candidateMasterId := Function.update_self ..
  rw [hears]
  rcases hr.ends hue h with ⟨hs, hd⟩ | ⟨hs, hd⟩
  · rw [hs]
    cases hdest : getNodeTypeById info.destId with
    | UE =>
      rcases hd with hd | hd
      · rw [hd, cells.master ue hue] at hdest
        cases hdest
      · rw [hd, getNodeTypeById_zero] at hdest
        cases hdest
    | ENODEB =>
      have hzero : (0 : MacNodeId) ≠ info.destId := fun heq => by
        rw [← heq, getNodeTypeById_zero] at hdest
        cases hdest
      simp [hnext, hzero]
    | RELAY => simp
    | UNKNOWN_NODE_TYPE => simp
  · rw [hd, hs, hue]
    simp [hmaster, hne.symm]

end Keys

end UserPlane

end V2nLte
