import V2nLte.Mac.UeTables
import V2nLte.Rlc.UmLink

/-!
# The UM layer of a node

`LteRlcUm` has a `UmTxEntity` or a `UmRxEntity` for each connection, in two maps.  The key is a
`MacCid`, the id of the UE at one end of the connection and the LCID; the eNB at the other end is
not in it.  An entity is made when it is first asked for, and a handover deletes the entities of
the UE at both ends.

`EntityMap.entityOf` is what the map has for a connection, where an entity that has not been made
yet counts as a new one.

The statistics are left out, and so is what `LteRlcUmD2D` adds.
-/

namespace V2nLte

/-! ### Connections -/

/-- The two ends of a connection and its LCID. -/
structure UmConnection where
  /-- The sender. -/
  source : MacNodeId
  /-- The receiver. -/
  dest : MacNodeId
  /-- The LCID. -/
  lcid : LogicalCid
  deriving DecidableEq

namespace ConnectionInfo

variable (info : ConnectionInfo)

/-- The connection of a packet. -/
def conn : UmConnection := ⟨info.sourceId, info.destId, info.lcid⟩

@[simp] theorem conn_source : info.conn.source = info.sourceId := rfl

@[simp] theorem conn_dest : info.conn.dest = info.destId := rfl

@[simp] theorem conn_lcid : info.conn.lcid = info.lcid := rfl

theorem conn_eq_iff {info info' : ConnectionInfo} : info.conn = info'.conn ↔
    info.sourceId = info'.sourceId ∧ info.destId = info'.destId ∧ info.lcid = info'.lcid := by
  rw [conn, conn, UmConnection.mk.injEq]

/-- `ctrlInfoToUeId`; `none` where it throws. -/
def ctrlInfoToUeId : Option MacNodeId :=
  match info.direction with
  | some .DL | some .D2D => some info.destId
  | some .UL | some .D2D_MULTI => some info.sourceId
  | none => none

end ConnectionInfo

/-! ### Maps of entities -/

/-- Entities, each with the `FlowControlInfo` it was made for. -/
abbrev EntityMap (α : Type) := OrderedMap MacCid (ConnectionInfo × α)

namespace EntityMap

variable {α : Type} (m : EntityMap α)

/-- The entity with this key, a new one if there is none. -/
def getEntity (cid : MacCid) (info : ConnectionInfo) (new : α) : ConnectionInfo × α :=
  (m.find cid).getD (info, new)

/-- The loops of `deleteQueues`: a UE deletes everything, an eNB what belongs to a UE. -/
def deleteQueues (nodeType : LteNodeType) (nodeId : MacNodeId) : EntityMap α :=
  m.filter fun p => !(nodeType = .UE ∨ nodeType = .ENODEB ∧ MacCidToNodeId p.1 = nodeId : Bool)

/-- The entity of a connection, a new one if there is none. -/
def entityOf (cid : MacCid) (c : UmConnection) (new : α) : α :=
  match m.find cid with
  | none => new
  | some (info, a) => if info.conn = c then a else new

variable {m} {cid cid' : MacCid} {info : ConnectionInfo} {c : UmConnection} {a new : α}

theorem entityOf_of_find (h : m.find cid = some (info, a)) :
    m.entityOf cid info.conn new = a := by
  rw [entityOf, h]
  exact if_pos rfl

/-- What `getEntity` answers, if the entity with this key is of the connection. -/
theorem getEntity_eq (new : α) (h : ∀ i b, m.find cid = some (i, b) → i.conn = info.conn) :
    ∃ i, m.getEntity cid info new = (i, m.entityOf cid info.conn new) ∧ i.conn = info.conn ∧
      (m.find cid = none ∧ i = info ∨ m.find cid = some (i, m.entityOf cid info.conn new)) := by
  rw [getEntity, entityOf]
  cases hfind : m.find cid with
  | none => exact ⟨info, rfl, rfl, .inl ⟨rfl, rfl⟩⟩
  | some p =>
    obtain ⟨i, b⟩ := p
    have hconn := h i b hfind
    refine ⟨i, ?_, hconn, .inr ?_⟩
    · simp only [Option.getD_some, if_pos hconn]
    · simp only [if_pos hconn]

theorem entityOf_put_self (i : ConnectionInfo) :
    EntityMap.entityOf (OrderedMap.put m cid (i, a)) cid i.conn new = a := by
  rw [entityOf, OrderedMap.find_put, if_pos rfl]
  exact if_pos rfl

/-- The entities of the other connections stay, where at most one connection at a time has the
key. -/
theorem entityOf_put_of_ne {i : ConnectionInfo} (hc : i.conn ≠ c)
    (h : ∀ j b, m.find cid = some (j, b) → j.conn = i.conn) :
    EntityMap.entityOf (OrderedMap.put m cid (i, a)) cid' c new = m.entityOf cid' c new := by
  rw [entityOf, entityOf, OrderedMap.find_put]
  by_cases hcid : cid' = cid
  · subst hcid
    rw [if_pos rfl]
    simp only [if_neg hc]
    cases hfind : m.find cid' with
    | none => rfl
    | some p =>
      obtain ⟨j, b⟩ := p
      simp only [h j b hfind, if_neg hc]
  · rw [if_neg hcid]

theorem entityOf_eq_new (h : ∀ i a, m.find cid = some (i, a) → i.conn ≠ c) :
    m.entityOf cid c new = new := by
  rw [entityOf]
  cases hfind : m.find cid with
  | none => rfl
  | some p => exact if_neg (h p.1 p.2 hfind)

theorem entityOf_congr {m' : EntityMap α}
    (h : ∀ i a, i.conn = c → (m'.find cid = some (i, a) ↔ m.find cid = some (i, a))) :
    m'.entityOf cid c new = m.entityOf cid c new := by
  by_cases hown : ∃ i a, i.conn = c ∧ m.find cid = some (i, a)
  · obtain ⟨i, a, rfl, hfind⟩ := hown
    rw [entityOf_of_find hfind, entityOf_of_find ((h i a rfl).2 hfind)]
  · rw [entityOf_eq_new fun i a hfind hi => hown ⟨i, a, hi, hfind⟩,
      entityOf_eq_new fun i a hfind hi => hown ⟨i, a, hi, (h i a hi).1 hfind⟩]

/-- What an eNB or a UE has after `deleteQueues`. -/
theorem find_deleteQueues (nodeType : LteNodeType) (nodeId : MacNodeId) (cid : MacCid) :
    (m.deleteQueues nodeType nodeId).find cid =
      if nodeType = .UE ∨ nodeType = .ENODEB ∧ MacCidToNodeId cid = nodeId then none
      else m.find cid := by
  refine (OrderedMap.find_filter (fun cid => !decide (nodeType = .UE ∨ nodeType = .ENODEB ∧
    MacCidToNodeId cid = nodeId)) m cid).trans ?_
  by_cases h : nodeType = .UE ∨ nodeType = .ENODEB ∧ MacCidToNodeId cid = nodeId <;> simp [h]

end EntityMap

/-! ### The layer -/

/-- The parameters of the entities. -/
structure UmParams where
  /-- The limit of the queue of a sender in bytes, `0` for none. -/
  queueSize : ℕ := 0
  /-- The number of PDUs in the window of a receiver. -/
  rxWindowSize : ℕ
  /-- There is a PDU in it. -/
  pos : 1 ≤ rxWindowSize
  /-- It is not above `INT_MAX`. -/
  lt : rxWindowSize < 2147483648
  /-- All the LCIDs of a UE share one sender. -/
  mapAllLcidsToSingleBearer : Bool := false

/-- A sender that has just been made. -/
def UmParams.newTx (P : UmParams) : UmTxEntity := { queueSize := P.queueSize }

/-- A receiver that has just been made. -/
def UmParams.newRx (P : UmParams) (info : ConnectionInfo) : UmRxEntity :=
  UmRxEntity.initial P.rxWindowSize P.lt (info.direction = some .D2D_MULTI)

/-- `LteRlcUm`. -/
structure LteRlcUm where
  /-- The senders. -/
  txEntities : EntityMap UmTxEntity := []
  /-- The receivers. -/
  rxEntities : EntityMap UmRxEntity := []

namespace LteRlcUm

variable (P : UmParams) (r : LteRlcUm)

/-- The key in `getTxBuffer`. -/
def txCid (info : ConnectionInfo) : Option MacCid :=
  info.ctrlInfoToUeId.map fun nodeId =>
    idToMacCid nodeId (if P.mapAllLcidsToSingleBearer then 1 else info.lcid)

/-- The key in `getRxBuffer`. -/
def rxCid (info : ConnectionInfo) : MacCid :=
  idToMacCid (if info.direction = some .DL then info.destId else info.sourceId) info.lcid

/-- `handleUpperMessage`, and whether the queue has taken the SDU. -/
def handleUpperMessage (info : ConnectionInfo) (pkt : RlcSdu) : Option (LteRlcUm × Bool) :=
  match txCid P info with
  | none => none
  | some cid =>
    let (stored, txbuf) := r.txEntities.getEntity cid info P.newTx
    let (txbuf, taken) := txbuf.enque pkt
    some ({ r with txEntities := r.txEntities.put cid (stored, txbuf) }, taken)

/-- `handleLowerMessage` for a `LteMacSduRequest`.  The PDU has the tag of the entity. -/
def handleSduRequest (info : ConnectionInfo) (size : ℤ) :
    Option (LteRlcUm × Option (ConnectionInfo × UmDataPdu)) :=
  match txCid P info with
  | none => none
  | some cid =>
    let (stored, txbuf) := r.txEntities.getEntity cid info P.newTx
    match txbuf.rlcPduMake size with
    | none => none
    | some (txbuf, pdu) =>
      some ({ r with txEntities := r.txEntities.put cid (stored, txbuf) }, pdu.map (stored, ·))

/-- `handleLowerMessage` for a PDU, and what goes up to PDCP. -/
def handlePdu (info : ConnectionInfo) (pdu : UmDataPdu) : Option (LteRlcUm × List RlcSdu) :=
  let (stored, rxbuf) := r.rxEntities.getEntity (rxCid info) info (P.newRx info)
  match rxbuf.enque pdu with
  | .error _ => none
  | .ok (rxbuf, sdus) =>
    some ({ r with rxEntities := r.rxEntities.put (rxCid info) (stored, rxbuf) }, sdus)

/-- The timer of a receiver expires; what goes up to PDCP, and for which connection. -/
def handleTimer (cid : MacCid) : Option (LteRlcUm × ConnectionInfo × List RlcSdu) :=
  match r.rxEntities.find cid with
  | none => none
  | some (stored, rxbuf) =>
    match rxbuf.handleTimer with
    | .error _ => none
    | .ok (rxbuf, sdus) =>
      some ({ r with rxEntities := r.rxEntities.put cid (stored, rxbuf) }, stored, sdus)

/-- `deleteQueues`. -/
def deleteQueues (nodeType : LteNodeType) (nodeId : MacNodeId) : LteRlcUm where
  txEntities := r.txEntities.deleteQueues nodeType nodeId
  rxEntities := r.rxEntities.deleteQueues nodeType nodeId

/-! ### What the handlers do to the maps -/

variable {P r} {cid : MacCid} {info : ConnectionInfo}

/-- An SDU goes into the queue of its connection. -/
theorem handleUpperMessage_eq (hcid : txCid P info = some cid)
    (h : ∀ i b, r.txEntities.find cid = some (i, b) → i.conn = info.conn) (pkt : RlcSdu) :
    ∃ i, i.conn = info.conn ∧ (i = info ∨ ∃ b, r.txEntities.find cid = some (i, b)) ∧
      r.handleUpperMessage P info pkt =
        some ({ r with txEntities :=
            r.txEntities.put cid (i, ((r.txEntities.entityOf cid info.conn P.newTx).enque pkt).1) },
          ((r.txEntities.entityOf cid info.conn P.newTx).enque pkt).2) := by
  obtain ⟨i, hget, hconn, hfrom⟩ := EntityMap.getEntity_eq P.newTx h
  refine ⟨i, hconn, ?_, ?_⟩
  · rcases hfrom with ⟨-, rfl⟩ | hfind
    · exact .inl rfl
    · exact .inr ⟨_, hfind⟩
  · rw [handleUpperMessage, hcid]
    simp only [hget]

/-- A PDU is made of the queue of a connection that has an entity. -/
theorem handleSduRequest_eq {t : UmTxEntity} (hcid : txCid P info = some cid)
    (hfind : r.txEntities.find cid = some (info, t)) (size : ℤ) :
    r.handleSduRequest P info size = (t.rlcPduMake size).map fun x =>
      ({ r with txEntities := r.txEntities.put cid (info, x.1) }, x.2.map (info, ·)) := by
  rw [handleSduRequest, hcid]
  simp only [EntityMap.getEntity, hfind, Option.getD_some]
  cases t.rlcPduMake size <;> rfl

/-- A PDU goes to the receiver of its connection. -/
theorem handlePdu_eq (h : ∀ i b, r.rxEntities.find (rxCid info) = some (i, b) → i.conn = info.conn)
    (pdu : UmDataPdu) :
    ∃ i, i.conn = info.conn ∧ (i = info ∨ ∃ b, r.rxEntities.find (rxCid info) = some (i, b)) ∧
      (r.rxEntities.getEntity (rxCid info) info (P.newRx info)).2 =
        r.rxEntities.entityOf (rxCid info) info.conn (P.newRx info) ∧
      r.handlePdu P info pdu =
        ((r.rxEntities.entityOf (rxCid info) info.conn (P.newRx info)).enque pdu).toOption.map
          fun x => ({ r with rxEntities := r.rxEntities.put (rxCid info) (i, x.1) }, x.2) := by
  obtain ⟨i, hget, hconn, hfrom⟩ := EntityMap.getEntity_eq (P.newRx info) h
  refine ⟨i, hconn, ?_, by rw [hget], ?_⟩
  · rcases hfrom with ⟨-, rfl⟩ | hfind
    · exact .inl rfl
    · exact .inr ⟨_, hfind⟩
  · rw [handlePdu, hget]
    dsimp only
    cases (r.rxEntities.entityOf (rxCid info) info.conn (P.newRx info)).enque pdu <;> rfl

/-- The timer of a receiver that has an entity. -/
theorem handleTimer_eq {t : UmRxEntity} (hfind : r.rxEntities.find cid = some (info, t)) :
    r.handleTimer cid = t.handleTimer.toOption.map fun x =>
      ({ r with rxEntities := r.rxEntities.put cid (info, x.1) }, info, x.2) := by
  rw [handleTimer, hfind]
  dsimp only
  cases t.handleTimer <;> rfl

end LteRlcUm

end V2nLte
