import V2nLte.Lte.NodeIds
import V2nLte.Mac.UeUplink
import V2nLte.Machine.Heap
import V2nLte.Machine.OrderedMap
import V2nLte.Machine.Word

/-!
# The connection tables of the UE MAC

`LteMacUe` keeps the virtual buffer of a connection twice: in `macBuffers_`, by the connection, and
in `lcgMap_`, by the traffic class, for `LcgScheduler::schedule`.  Both hold a pointer.  The buffer
is made when the connection announces its first data, and deleted at a handover or when the peers
of a D2D connection change their mode.

The buckets of the scheduler decide nothing and are left out, as are the H-ARQ buffers and the
receiving side of a mode switch, which use none of these tables.

* `UeTables.Consistent` : the two copies agree and every connection has a descriptor.
* `UeTables.tables_consistent` : this is so after every run, and `schedule` always finds the
  buffer and the descriptor of a connection, and serves it once.
-/

namespace V2nLte

/-- `RLC_HEADER_AM`, in bytes. -/
def RLC_HEADER_AM : ℕ := 2

/-- `LteRlcType`. -/
inductive LteRlcType where
  | TM
  | UM
  | AM
  | UNKNOWN_RLC_TYPE
  deriving DecidableEq

/-- What the tables use of the `FlowControlInfo` of a packet. -/
structure ConnectionInfo where
  /-- The sender. -/
  sourceId : MacNodeId
  /-- The receiver. -/
  destId : MacNodeId
  /-- The logical channel. -/
  lcid : LogicalCid
  /-- The direction, `none` if the number is not one of a direction. -/
  direction : Option FlowDirection
  /-- The number of the traffic class. -/
  traffic : ℕ
  /-- The RLC mode. -/
  rlcType : LteRlcType
  /-- The receiver of a direct transmission, `0` for none. -/
  d2dRxPeerId : MacNodeId := 0
  deriving DecidableEq

/-- A packet from RLC. -/
structure PacketFromRlc where
  /-- The length. -/
  bitLength : ℕ
  /-- Its `FlowControlInfo`. -/
  lteInfo : ConnectionInfo
  /-- The length that a `LteRlcPduNewData` announces; `none` for a MAC SDU. -/
  lengthMainPacket : Option ℕ
  /-- Whether the queue of the connection takes it. -/
  isEnqueueable : Bool := true

/-- A `D2DModeSwitchNotification`. -/
structure D2DModeSwitch where
  /-- Whether it is for the sender of the link. -/
  txSide : Bool
  /-- The other UE. -/
  peerId : MacNodeId
  /-- The mode until now. -/
  oldMode : LteD2DMode
  /-- The mode from now on. -/
  newMode : LteD2DMode
  /-- Whether the RLC throws away what it has. -/
  clearRlcBuffer : Bool

/-- A notification to RLC: whether it is for the connection of the old mode, and which one. -/
abbrev SwitchIndication := Bool × ConnectionInfo

/-- How a handler can fail. -/
inductive UeFault where
  /-- A buffer is used after it has been deleted. -/
  | deletedBuffer
  /-- `connDesc_.at` of a connection that is not there. -/
  | missingDescriptor
  /-- "Packet queue empty". -/
  | emptyQueue
  /-- "unknown direction". -/
  | unknownDirection
  deriving DecidableEq

/-- The packets in a virtual buffer, by their lengths, which are `int`s. -/
abbrev VirtualBuffer := List ℤ

/-- An entry of `lcgMap_`. -/
structure LcgPair where
  /-- The number of the traffic class. -/
  tClass : ℕ
  /-- The connection. -/
  cid : MacCid
  /-- The address of its virtual buffer. -/
  buffer : ℕ
  deriving DecidableEq

/-- The tables of a `LteMacUe`. -/
structure UeTables where
  /-- The virtual buffers, by address. -/
  heap : Heap VirtualBuffer := Heap.empty
  /-- The addresses of the buffers of the connections. -/
  macBuffers : OrderedMap MacCid ℕ := []
  /-- The entries in the order in which they have come. -/
  lcgMap : List LcgPair := []
  /-- What is known about the connections. -/
  connDesc : OrderedMap MacCid ConnectionInfo := []
  /-- The number of SDUs in each queue. -/
  mbuf : OrderedMap MacCid ℕ := []

/-- `ctrlInfoToMacCid`. -/
def ConnectionInfo.ctrlInfoToMacCid (info : ConnectionInfo) : Except UeFault MacCid :=
  match info.direction with
  | some .DL | some .D2D => .ok (idToMacCid info.destId info.lcid)
  | some .UL | some .D2D_MULTI => .ok (idToMacCid info.sourceId info.lcid)
  | none => .error .unknownDirection

namespace VirtualBuffer

/-- `queueOccupancy_`, an `unsigned int`. -/
def queueOccupancy (q : VirtualBuffer) : ℕ := ofInt32 q.sum

/-- Take `alloc` bytes from the front. -/
def consume : VirtualBuffer → ℤ → Except UeFault VirtualBuffer
  | q, alloc =>
    if alloc ≤ 0 then .ok q
    else match q with
      | [] => .error .emptyQueue
      | size :: q =>
        if alloc < size then .ok ((size - alloc) :: q)
        else consume q (i32 (ofInt32 (alloc - size)))

end VirtualBuffer

/-- An access through a pointer to a buffer. -/
def Heap.deref (heap : Heap VirtualBuffer) (p : ℕ) : Except UeFault VirtualBuffer :=
  match heap.cells p with
  | some q => .ok q
  | none => .error .deletedBuffer

/-- Empty a buffer and delete it. -/
def Heap.deleteBuffer (heap : Heap VirtualBuffer) (p : ℕ) :
    Except UeFault (Heap VirtualBuffer) := do
  let _ ← heap.deref p
  return heap.free p

namespace UeTables

variable (s : UeTables)

/-! ### Packets from RLC -/

/-- A packet that announces new data. -/
def bufferizeNewData (cid : MacCid) (info : ConnectionInfo) (length : ℕ) :
    Except UeFault UeTables :=
  match s.macBuffers.find cid with
  | none =>
    .ok { s with
      heap := s.heap.alloc [i32 length]
      macBuffers := s.macBuffers.put cid s.heap.next
      connDesc := s.connDesc.put cid info
      lcgMap := s.lcgMap ++ [⟨info.traffic, cid, s.heap.next⟩] }
  | some vqueue => do
    let q ← s.heap.deref vqueue
    return { s with heap := s.heap.write vqueue (q ++ [i32 length]) }

/-- A MAC SDU.  The answer of the queue is not looked at if it is a new one. -/
def bufferizeSdu (cid : MacCid) (isEnqueueable : Bool) : UeTables × Bool :=
  match s.mbuf.find cid with
  | none => ({ s with mbuf := s.mbuf.put cid (if isEnqueueable then 1 else 0) }, true)
  | some n =>
    if isEnqueueable then ({ s with mbuf := s.mbuf.put cid (n + 1) }, true) else (s, false)

/-- `LteMacUe::bufferizePacket`, with its answer. -/
def bufferizePacket (pkt : PacketFromRlc) : Except UeFault (UeTables × Bool) :=
  if pkt.bitLength ≤ 1 then .ok (s, false)
  else do
    let cid ← pkt.lteInfo.ctrlInfoToMacCid
    match pkt.lengthMainPacket with
    | some length => return (← s.bufferizeNewData cid pkt.lteInfo length, true)
    | none => return s.bufferizeSdu cid pkt.isEnqueueable

/-! ### Buffers are deleted -/

/-- `LteMacUe::deleteQueues`. -/
def deleteQueues : Except UeFault UeTables := do
  let heap ← s.macBuffers.foldlM (fun heap e => heap.deleteBuffer e.2) s.heap
  return { heap := heap }

/-- The connection `cid` loses its buffers and its entry of `lcgMap_`. -/
def clearConnection (cid : MacCid) : Except UeFault UeTables := do
  let heap ← match s.macBuffers.find cid with
    | some p => s.heap.deleteBuffer p
    | none => pure s.heap
  return { s with
    heap := heap
    macBuffers := s.macBuffers.erase cid
    mbuf := s.mbuf.erase cid
    lcgMap := s.lcgMap.filter fun e => e.cid ≠ cid }

end UeTables

namespace D2DModeSwitch

variable (n : D2DModeSwitch)

/-- The direction of a connection in a mode, at the sender. -/
def txDirection (mode : LteD2DMode) : FlowDirection := if mode = .DM then .D2D else .UL

/-- Whether the directions of the two modes differ. -/
def changes : Bool := txDirection n.oldMode ≠ txDirection n.newMode

/-- Whether a connection is that of the old mode. -/
def isOld (info : ConnectionInfo) : Bool :=
  info.d2dRxPeerId == n.peerId && info.direction == some (txDirection n.oldMode)

/-- Whether a connection is that of the new mode. -/
def isNew (info : ConnectionInfo) : Bool :=
  info.d2dRxPeerId == n.peerId && info.direction == some (txDirection n.newMode)

/-- The mode switch for one connection of `connDesc_`. -/
def handle (r : UeTables × List SwitchIndication) (e : MacCid × ConnectionInfo) :
    Except UeFault (UeTables × List SwitchIndication) :=
  if n.isOld e.2 then do
    let s ← if n.changes && n.clearRlcBuffer then r.1.clearConnection e.1 else pure r.1
    return (s, r.2 ++ [(true, e.2)])
  else if n.isNew e.2 && n.changes then .ok (r.1, r.2 ++ [(false, e.2)])
  else .ok r

end D2DModeSwitch

namespace UeTables

variable (s : UeTables)

/-- `LteMacUeD2D::macHandleD2DModeSwitch`, with what is sent to RLC by the sender. -/
def macHandleD2DModeSwitch (n : D2DModeSwitch) :
    Except UeFault (UeTables × List SwitchIndication) :=
  if n.txSide then s.connDesc.foldlM n.handle (s, []) else .ok (s, [])

/-! ### The scheduler -/

/-- The bytes of the RLC header. -/
def rlcHeader : LteRlcType → ℕ
  | .UM => RLC_HEADER_UM
  | .AM => RLC_HEADER_AM
  | _ => 0

/-- A `StatusElem`. -/
structure StatusElem where
  /-- The bytes of the connection. -/
  occupancy : ℕ
  /-- The bytes that it may send. -/
  sentData : ℕ
  /-- The SDUs that it may send. -/
  sentSdus : ℕ

/-- The state of the loops of `LcgScheduler::schedule`. -/
structure LcgLoop where
  /-- The virtual buffers. -/
  heap : Heap VirtualBuffer
  /-- The bytes that are left of the grant. -/
  availableBytes : ℕ
  /-- The MAC header has not been paid for yet. -/
  firstSdu : Bool := true
  /-- What each connection has got. -/
  statusMap : OrderedMap MacCid StatusElem := []
  /-- The numbers of SDUs. -/
  scheduleList : OrderedMap MacCid ℕ := []
  /-- The bytes. -/
  scheduledBytesList : OrderedMap MacCid ℕ := []
  /-- The connections that have been served, one after the other. -/
  served : List MacCid := []

/-- `connDesc_.at`. -/
def connDescAt (connDesc : OrderedMap MacCid ConnectionInfo) (cid : MacCid) :
    Except UeFault ConnectionInfo :=
  match connDesc.find cid with
  | some info => .ok info
  | none => .error .missingDescriptor

namespace LcgLoop

variable (r : LcgLoop)

/-- What is left of `bytes` for SDUs, as an `int`. -/
def payload (info : ConnectionInfo) (bytes : ℕ) : ℤ :=
  i32 (sub32 (sub32 bytes (UeUplink.macHeader r.firstSdu)) (rlcHeader info.rlcType))

/-- The whole buffer is served. -/
def serveAll (e : LcgPair) (info : ConnectionInfo) (elem : StatusElem) (toServe : ℕ) :
    VirtualBuffer → Except UeFault LcgLoop
  | [] => .error .emptyQueue
  | _ :: left =>
    .ok { r with
      heap := r.heap.write e.buffer []
      availableBytes := r.availableBytes - toServe
      firstSdu := false
      statusMap := r.statusMap.put e.cid
        { occupancy := VirtualBuffer.queueOccupancy left
          sentData := u32 (elem.sentData + toServe)
          sentSdus := if 0 < r.payload info toServe then elem.sentSdus + 1 else elem.sentSdus } }

/-- The rest of the grant is used for the buffer. -/
def servePart (e : LcgPair) (info : ConnectionInfo) (elem : StatusElem) (q : VirtualBuffer) :
    Except UeFault LcgLoop := do
  let alloc := r.payload info r.availableBytes
  let left ← q.consume alloc
  return { r with
    heap := r.heap.write e.buffer left
    availableBytes := 0
    firstSdu := false
    statusMap := r.statusMap.put e.cid
      { occupancy := VirtualBuffer.queueOccupancy q
        sentData := u32 (elem.sentData + r.availableBytes)
        sentSdus := if 0 < alloc then elem.sentSdus + 1 else elem.sentSdus } }

/-- The service of a connection is noted. -/
def record (cid : MacCid) (elem : StatusElem) : LcgLoop :=
  { r with
    scheduleList := match r.scheduleList.find cid with
      | none => r.scheduleList.put cid elem.sentSdus
      | some _ => r.scheduleList
    scheduledBytesList := match r.scheduledBytesList.find cid with
      | none => r.scheduledBytesList.put cid elem.sentData
      | some bytes => r.scheduledBytesList.put cid (u32 (bytes + elem.sentData))
    served := r.served ++ [cid] }

/-- The element of a connection in `statusMap_`. -/
def elem (cid : MacCid) (q : VirtualBuffer) : StatusElem :=
  (r.statusMap.find cid).getD ⟨q.length, 0, 0⟩

/-- The bytes of a backlogged connection that the grant has room for. -/
def transmit (e : LcgPair) (info : ConnectionInfo) (q : VirtualBuffer) : Except UeFault LcgLoop :=
  let toServe := u32 (q.queueOccupancy + rlcHeader info.rlcType + UeUplink.macHeader r.firstSdu)
  let elem := r.elem e.cid q
  if 0 < r.availableBytes ∧ 0 < toServe then
    if toServe ≤ r.availableBytes then r.serveAll e info elem toServe q
    else r.servePart e info elem q
  else .ok { r with statusMap := r.statusMap.put e.cid elem }

/-- One connection of a traffic class.  Its buffer is read before its descriptor is looked up. -/
def serve (connDesc : OrderedMap MacCid ConnectionInfo) (grantDir : Option FlowDirection)
    (r : LcgLoop) (e : LcgPair) : Except UeFault LcgLoop := do
  let q ← r.heap.deref e.buffer
  let info ← connDescAt connDesc e.cid
  if info.direction ≠ grantDir ∨ q.queueOccupancy = 0 then return r
  else do
    let r' ← r.transmit e info q
    return r'.record e.cid (r'.elem e.cid q)

end LcgLoop

/-- `equal_range` of a traffic class. -/
def equalRange (tClass : ℕ) : List LcgPair := s.lcgMap.filter fun e => e.tClass = tClass

/-- `UNKNOWN_TRAFFIC_TYPE`: the classes below are gone through. -/
def UNKNOWN_TRAFFIC_TYPE : ℕ := 4

/-- The connections in the order in which the loops come to them.  The second phase of the
scheduler is never started: its condition is inside the inner loop, and needs that one to have
ended. -/
def servingOrder : List LcgPair := (List.range UNKNOWN_TRAFFIC_TYPE).flatMap s.equalRange

/-- `LcgScheduler::schedule`. -/
def schedule (availableBytes : ℕ) (grantDir : Option FlowDirection) :
    Except UeFault (UeTables × LcgLoop) := do
  let r ← s.servingOrder.foldlM (LcgLoop.serve s.connDesc grantDir)
    { heap := s.heap, availableBytes := availableBytes }
  return ({ s with heap := r.heap }, r)

/-! ### Runs -/

/-- What can happen to the tables. -/
inductive TableEvent where
  | bufferizePacket (pkt : PacketFromRlc)
  | schedule (availableBytes : ℕ) (grantDir : Option FlowDirection)
  | deleteQueues
  | macHandleD2DModeSwitch (n : D2DModeSwitch)

/-- The handler of an event. -/
def handle : TableEvent → Except UeFault UeTables
  | .bufferizePacket pkt => Prod.fst <$> s.bufferizePacket pkt
  | .schedule availableBytes grantDir => Prod.fst <$> s.schedule availableBytes grantDir
  | .deleteQueues => s.deleteQueues
  | .macHandleD2DModeSwitch n => Prod.fst <$> s.macHandleD2DModeSwitch n

/-- The tables as a machine. -/
def machine : Machine UeTables TableEvent Empty where
  step s e :=
    match s.handle e with
    | .ok s' => some (s', [])
    | .error _ => none

/-- The two copies of the buffers agree, and every connection has a descriptor. -/
structure Consistent : Prop where
  /-- An entry of `lcgMap_` refers to the buffer that `macBuffers_` holds. -/
  entry : ∀ e ∈ s.lcgMap, s.macBuffers.find e.cid = some e.buffer
  /-- A buffer has one entry. -/
  once : ∀ cid p, s.macBuffers.find cid = some p → (s.lcgMap.map LcgPair.cid).count cid = 1
  /-- And it has a descriptor. -/
  desc : ∀ cid p, s.macBuffers.find cid = some p → ∃ info, s.connDesc.find cid = some info

/-- What every handler keeps. -/
structure Inv : Prop where
  sorted : OrderedMap.Sorted s.macBuffers
  alive : ∀ {cid p}, s.macBuffers.find cid = some p → s.heap.Alive p
  /-- No two connections share a buffer. -/
  inj : ∀ {cid cid' p}, s.macBuffers.find cid = some p → s.macBuffers.find cid' = some p →
    cid = cid'
  entry : ∀ e ∈ s.lcgMap, s.macBuffers.find e.cid = some e.buffer
  nodup : (s.lcgMap.map LcgPair.cid).Nodup
  mem : ∀ {cid p}, s.macBuffers.find cid = some p → cid ∈ s.lcgMap.map LcgPair.cid
  desc : ∀ {cid p}, s.macBuffers.find cid = some p → ∃ info, s.connDesc.find cid = some info

variable {s}

theorem Inv.consistent (h : s.Inv) : s.Consistent where
  entry := h.entry
  once _ _ hp := List.count_eq_one_of_mem h.nodup (h.mem hp)
  desc _ _ hp := h.desc hp

/-- Without connections there is nothing to keep. -/
theorem inv_of_empty (heap : Heap VirtualBuffer) : Inv { heap := heap } where
  sorted := OrderedMap.sorted_nil
  alive := nofun
  inj := nofun
  entry := nofun
  nodup := List.nodup_nil
  mem := nofun
  desc := nofun

/-- The buffers may change as long as none is deleted. -/
theorem Inv.heap (h : s.Inv) {heap : Heap VirtualBuffer} {mbuf : OrderedMap MacCid ℕ}
    (halive : ∀ p, s.heap.Alive p → heap.Alive p) : Inv { s with heap := heap, mbuf := mbuf } where
  sorted := h.sorted
  alive hp := halive _ (h.alive hp)
  inj := h.inj
  entry := h.entry
  nodup := h.nodup
  mem := h.mem
  desc := h.desc

/-! ### Packets from RLC -/

theorem deref_of_alive {heap : Heap VirtualBuffer} {p : ℕ} (h : heap.Alive p) :
    ∃ q, heap.deref p = .ok q ∧ heap.cells p = some q := by
  obtain ⟨q, hq⟩ := Option.isSome_iff_exists.1 h
  exact ⟨q, by rw [Heap.deref, hq], hq⟩

theorem deleteBuffer_of_alive {heap : Heap VirtualBuffer} {p : ℕ} (h : heap.Alive p) :
    heap.deleteBuffer p = .ok (heap.free p) := by
  obtain ⟨q, hq, -⟩ := deref_of_alive h
  rw [Heap.deleteBuffer, hq]
  rfl

/-- A connection that is new gets a buffer, a descriptor and an entry. -/
theorem Inv.insert (h : s.Inv) {cid : MacCid} (hnew : s.macBuffers.find cid = none)
    (info : ConnectionInfo) (q : VirtualBuffer) (tClass : ℕ) :
    Inv { s with
      heap := s.heap.alloc q
      macBuffers := s.macBuffers.put cid s.heap.next
      connDesc := s.connDesc.put cid info
      lcgMap := s.lcgMap ++ [⟨tClass, cid, s.heap.next⟩] } := by
  have hold : ∀ {i p}, s.macBuffers.find i = some p → i ≠ cid := by
    rintro i p hi rfl
    rw [hnew] at hi
    cases hi
  refine ⟨h.sorted.put _ _, ?_, ?_, ?_, ?_, ?_, ?_⟩
  · intro i p hi
    rw [OrderedMap.find_put] at hi
    split at hi
    · obtain rfl := Option.some.inj hi
      exact Heap.alive_alloc_next
    · exact (h.alive hi).alloc
  · intro i j p hi hj
    rw [OrderedMap.find_put] at hi hj
    -- the new pointer is not one of the old ones
    split at hi <;> split at hj <;> rename_i hic hjc
    · rw [hic, hjc]
    · exact absurd (Option.some.inj hi).symm (h.alive hj).ne_next
    · exact absurd (Option.some.inj hj).symm (h.alive hi).ne_next
    · exact h.inj hi hj
  · intro e he
    rw [OrderedMap.find_put]
    rcases List.mem_append.1 he with he | he
    · rw [if_neg (hold (h.entry e he)), h.entry e he]
    · obtain rfl := List.mem_singleton.1 he
      exact if_pos rfl
  · rw [List.map_append, List.map_singleton]
    refine List.nodup_append.2 ⟨h.nodup, List.nodup_singleton _, ?_⟩
    intro i hi j hj
    obtain rfl := List.mem_singleton.1 hj
    obtain ⟨e, he, rfl⟩ := List.mem_map.1 hi
    exact hold (h.entry e he)
  · intro i p hi
    rw [OrderedMap.find_put] at hi
    rw [List.map_append, List.mem_append]
    split at hi <;> rename_i hic
    · exact .inr (List.mem_singleton.2 hic)
    · exact .inl (h.mem hi)
  · intro i p hi
    rw [OrderedMap.find_put] at hi ⊢
    split at hi <;> rename_i hic
    · exact ⟨info, if_pos hic⟩
    · rw [if_neg hic]
      exact h.desc hi

/-- The faults that are not one of the tables: only the packets themselves can cause them. -/
def Harmless (f : UeFault) : Prop := f = .emptyQueue ∨ f = .unknownDirection

theorem Inv.bufferizeNewData (h : s.Inv) (cid : MacCid) (info : ConnectionInfo) (length : ℕ) :
    Ensures Harmless Inv (s.bufferizeNewData cid info length) := by
  unfold UeTables.bufferizeNewData
  split
  · rename_i hnew
    exact h.insert hnew info _ _
  · rename_i p hp
    obtain ⟨q, hq, -⟩ := deref_of_alive (h.alive hp)
    rw [hq]
    exact h.heap fun p' hp' => Heap.alive_write.2 hp'

theorem Inv.bufferizeSdu (h : s.Inv) (cid : MacCid) (isEnqueueable : Bool) :
    (s.bufferizeSdu cid isEnqueueable).1.Inv := by
  unfold UeTables.bufferizeSdu
  split
  · exact h.heap fun _ hp => hp
  · split
    · exact h.heap fun _ hp => hp
    · exact h

theorem ctrlInfoToMacCid_harmless (info : ConnectionInfo) :
    Ensures Harmless (fun _ => True) info.ctrlInfoToMacCid := by
  unfold ConnectionInfo.ctrlInfoToMacCid
  split
  · trivial
  · trivial
  · trivial
  · trivial
  · exact .inr rfl

theorem Inv.bufferizePacket (h : s.Inv) (pkt : PacketFromRlc) :
    Ensures Harmless (fun r => r.1.Inv) (s.bufferizePacket pkt) := by
  unfold UeTables.bufferizePacket
  split
  · exact h
  · refine (ctrlInfoToMacCid_harmless pkt.lteInfo).bind fun cid _ => ?_
    split
    · exact (h.bufferizeNewData cid _ _).bind fun s' hs' => hs'
    · exact h.bufferizeSdu cid _

/-! ### Buffers are deleted -/

/-- Pointers that differ can be deleted one after the other. -/
theorem deleteBuffers_ok {m : OrderedMap MacCid ℕ} {heap : Heap VirtualBuffer}
    (halive : ∀ e ∈ m, heap.Alive e.2) (hne : m.Pairwise fun e e' => e.2 ≠ e'.2) :
    ∃ heap', m.foldlM (fun heap e => heap.deleteBuffer e.2) heap =
      (.ok heap' : Except UeFault _) := by
  induction m generalizing heap with
  | nil => exact ⟨heap, rfl⟩
  | cons e m ih =>
    obtain ⟨hd, hm⟩ := List.pairwise_cons.1 hne
    rw [List.foldlM_cons, deleteBuffer_of_alive (halive e List.mem_cons_self)]
    refine ih (fun e' he' => ?_) hm
    exact (halive e' (List.mem_cons_of_mem e he')).free (hd e' he').symm

theorem Inv.deleteQueues (h : s.Inv) : Ensures Harmless Inv s.deleteQueues := by
  have hfind : ∀ e ∈ s.macBuffers, s.macBuffers.find e.1 = some e.2 := fun _ he =>
    h.sorted.find_of_mem he
  have hne : s.macBuffers.Pairwise fun e e' => e.2 ≠ e'.2 := by
    refine List.Pairwise.imp_of_mem ?_ (List.pairwise_map.1 h.sorted)
    intro e e' he he' hlt heq
    exact ne_of_lt hlt (h.inj (hfind e he) (heq ▸ hfind e' he'))
  obtain ⟨heap, hheap⟩ := deleteBuffers_ok (fun e he => h.alive (hfind e he)) hne
  rw [UeTables.deleteQueues, hheap]
  exact inv_of_empty heap

theorem Inv.clearConnection (h : s.Inv) (cid : MacCid) :
    Ensures Harmless Inv (s.clearConnection cid) := by
  have hold : ∀ {i p}, (s.macBuffers.erase cid).find i = some p →
      i ≠ cid ∧ s.macBuffers.find i = some p := by
    intro i p hi
    rw [OrderedMap.find_erase] at hi
    split at hi
    · cases hi
    · exact ⟨‹_›, hi⟩
  have hcleared : ∀ {heap mbuf}, (∀ i p, i ≠ cid → s.macBuffers.find i = some p →
      heap.Alive p) → Inv { s with
        heap := heap
        macBuffers := s.macBuffers.erase cid
        mbuf := mbuf
        lcgMap := s.lcgMap.filter fun e => e.cid ≠ cid } := by
    intro heap mbuf halive
    refine ⟨h.sorted.erase cid, ?_, ?_, ?_, ?_, ?_, ?_⟩
    · intro i p hi
      exact halive i p (hold hi).1 (hold hi).2
    · intro i j p hi hj
      exact h.inj (hold hi).2 (hold hj).2
    · intro e he
      obtain ⟨he, hne⟩ := List.mem_filter.1 he
      rw [OrderedMap.find_erase, if_neg (of_decide_eq_true hne), h.entry e he]
    · exact h.nodup.sublist (List.filter_sublist.map _)
    · intro i p hi
      obtain ⟨hne, hp⟩ := hold hi
      obtain ⟨e, he, rfl⟩ := List.mem_map.1 (h.mem hp)
      exact List.mem_map_of_mem (List.mem_filter.2 ⟨he, decide_eq_true hne⟩)
    · intro i p hi
      exact h.desc (hold hi).2
  unfold UeTables.clearConnection
  split
  · rename_i p hp
    rw [deleteBuffer_of_alive (h.alive hp)]
    -- no other connection has this buffer
    exact hcleared fun i p' hne hi => (h.alive hi).free fun heq => hne (h.inj hi (heq ▸ hp))
  · exact hcleared fun i p _ hi => h.alive hi

theorem Inv.macHandleD2DModeSwitch (h : s.Inv) (n : D2DModeSwitch) :
    Ensures Harmless (fun r => r.1.Inv) (s.macHandleD2DModeSwitch n) := by
  unfold UeTables.macHandleD2DModeSwitch
  split
  · refine Ensures.foldlM (I := fun r : UeTables × List SwitchIndication => r.1.Inv) h
      fun r e hr => ?_
    unfold D2DModeSwitch.handle
    split
    · split
      · exact (Inv.clearConnection hr e.1).bind fun s' hs' => hs'
      · exact hr
    · split
      · exact hr
      · exact hr
  · exact h

/-! ### The scheduler -/

theorem consume_harmless (q : VirtualBuffer) (alloc : ℤ) :
    Ensures Harmless (fun _ => True) (q.consume alloc) := by
  induction q generalizing alloc with
  | nil =>
    unfold VirtualBuffer.consume
    split
    · trivial
    · exact .inl rfl
  | cons size q ih =>
    unfold VirtualBuffer.consume
    split
    · trivial
    · dsimp only
      split
      · trivial
      · exact ih _

/-- What the loop keeps while it goes over `cids`: no buffer is deleted, and each connection has
been served at most once. -/
structure LcgLoop.Keeps (s : UeTables) (cids : List MacCid) (r : LcgLoop) : Prop where
  alive : ∀ p, s.heap.Alive p → r.heap.Alive p
  served : r.served.Sublist cids

/-- A service changes the contents of one buffer only. -/
theorem LcgLoop.transmit_spec (r : LcgLoop) (e : LcgPair) (info : ConnectionInfo)
    (q : VirtualBuffer) :
    Ensures Harmless (fun r' => (∀ p, r.heap.Alive p → r'.heap.Alive p) ∧ r'.served = r.served)
      (r.transmit e info q) := by
  unfold LcgLoop.transmit
  dsimp only
  split
  · split
    · cases q with
      | nil => exact .inl rfl
      | cons size q => exact ⟨fun p hp => Heap.alive_write.2 hp, rfl⟩
    · exact (consume_harmless q _).bind fun _ _ => ⟨fun _ hp => Heap.alive_write.2 hp, rfl⟩
  · exact ⟨fun _ hp => hp, rfl⟩

theorem LcgLoop.Keeps.serve (h : s.Inv) {cids : List MacCid} {r : LcgLoop} (hr : r.Keeps s cids)
    {e : LcgPair} (he : e ∈ s.lcgMap) (grantDir : Option FlowDirection) :
    Ensures Harmless (LcgLoop.Keeps s (cids ++ [e.cid]))
      (LcgLoop.serve s.connDesc grantDir r e) := by
  obtain ⟨q, hq, -⟩ := deref_of_alive (hr.alive _ (h.alive (h.entry e he)))
  obtain ⟨info, hinfo⟩ := h.desc (h.entry e he)
  have hat : connDescAt s.connDesc e.cid = .ok info := by rw [connDescAt, hinfo]
  rw [LcgLoop.serve, hq]
  refine Ensures.bind (P := fun q' => q' = q) rfl fun q' hq' => ?_
  rw [hat, hq']
  refine Ensures.bind (P := fun info' => info' = info) rfl fun info' hinfo' => ?_
  split
  · exact ⟨hr.alive, hr.served.trans (List.sublist_append_left _ _)⟩
  · refine (LcgLoop.transmit_spec r e info' q).bind fun r' hr' => ?_
    obtain ⟨halive, hserved⟩ := hr'
    refine ⟨fun p hp => halive p (hr.alive p hp), ?_⟩
    rw [LcgLoop.record, hserved]
    exact hr.served.append (List.Sublist.refl _)

theorem mem_servingOrder {e : LcgPair} (he : e ∈ s.servingOrder) : e ∈ s.lcgMap := by
  obtain ⟨i, -, he⟩ := List.mem_flatMap.1 he
  exact (List.mem_filter.1 he).1

/-- The loops come to a connection once: it has one entry, which is of one class. -/
theorem servingOrder_nodup (h : (s.lcgMap.map LcgPair.cid).Nodup) :
    (s.servingOrder.map LcgPair.cid).Nodup := by
  rw [servingOrder, List.map_flatMap, List.nodup_flatMap]
  constructor
  · intro i _
    exact h.sublist (List.filter_sublist.map _)
  · refine (List.nodup_range (n := UNKNOWN_TRAFFIC_TYPE)).imp fun {i j} hij => ?_
    intro cid hi hj
    obtain ⟨e, he, rfl⟩ := List.mem_map.1 hi
    obtain ⟨e', he', heq⟩ := List.mem_map.1 hj
    obtain ⟨hmem, hclass⟩ := List.mem_filter.1 he
    obtain ⟨hmem', hclass'⟩ := List.mem_filter.1 he'
    obtain rfl := List.inj_on_of_nodup_map h hmem' hmem heq
    exact hij ((of_decide_eq_true hclass).symm.trans (of_decide_eq_true hclass'))

theorem Inv.schedule (h : s.Inv) (availableBytes : ℕ) (grantDir : Option FlowDirection) :
    Ensures Harmless (fun r => r.1.Inv ∧ r.2.served.Nodup)
      (s.schedule availableBytes grantDir) := by
  unfold UeTables.schedule
  refine Ensures.bind (P := fun r => LcgLoop.Keeps s (s.servingOrder.map LcgPair.cid) r)
    (Ensures.foldlM_prefix (I := fun done r => LcgLoop.Keeps s (done.map LcgPair.cid) r)
      ⟨fun _ hp => hp, List.Sublist.refl _⟩ fun pre e post r hxs hr => ?_) fun r hr => ?_
  · have he : e ∈ s.servingOrder := hxs ▸ List.mem_append_right pre List.mem_cons_self
    rw [List.map_append, List.map_singleton]
    exact hr.serve h (mem_servingOrder he) grantDir
  · exact ⟨h.heap hr.alive, (servingOrder_nodup h.nodup).sublist hr.served⟩

/-! ### Runs -/

theorem Inv.handle (h : s.Inv) (e : TableEvent) : Ensures Harmless Inv (s.handle e) := by
  cases e with
  | bufferizePacket pkt => exact Ensures.map (h.bufferizePacket pkt)
  | schedule bytes dir => exact Ensures.map ((h.schedule bytes dir).mono fun r hr => hr.1)
  | deleteQueues => exact h.deleteQueues
  | macHandleD2DModeSwitch n => exact Ensures.map (h.macHandleD2DModeSwitch n)

theorem inv_exec {es : List TableEvent} {os : List Empty} (h : machine.exec {} es = some (s, os)) :
    s.Inv := by
  refine Machine.exec_invariant (I := Inv) (inv_of_empty Heap.empty) (fun s e s' o hs hst => ?_) h
  have hok := hs.handle e
  dsimp only [machine] at hst
  split at hst <;> rename_i heq
  · obtain ⟨rfl, -⟩ := Prod.mk.inj (Option.some.inj hst)
    rw [heq] at hok
    exact hok
  · cases hst

/-- **The tables stay consistent.**  After every run the two copies of the buffers agree, no
handler comes upon a deleted buffer or a missing descriptor, and the scheduler serves no connection
twice. -/
theorem tables_consistent {es : List TableEvent} {os : List Empty}
    (h : machine.exec {} es = some (s, os)) :
    s.Consistent ∧
      (∀ e f, s.handle e = .error f → f ≠ .deletedBuffer ∧ f ≠ .missingDescriptor) ∧
      ∀ bytes dir s' r, s.schedule bytes dir = .ok (s', r) → r.served.Nodup := by
  have hinv := inv_exec h
  refine ⟨hinv.consistent, fun e f hf => ?_, fun bytes dir s' r hr => ?_⟩
  · have hok := hinv.handle e
    rw [hf] at hok
    rcases hok with rfl | rfl
    · exact ⟨by decide, by decide⟩
    · exact ⟨by decide, by decide⟩
  · have hok := hinv.schedule bytes dir
    rw [hr] at hok
    exact hok.2

/-- New data of a connection to `dst`, in direct mode or not. -/
def newData (dst lcid : Fin 65536) (direction : FlowDirection) : TableEvent :=
  .bufferizePacket
    { bitLength := 800
      lteInfo :=
        { sourceId := 1025, destId := dst, lcid := lcid, direction := some direction
          traffic := 3, rlcType := .UM, d2dRxPeerId := 1026 }
      lengthMainPacket := some 100 }

/-- An uplink connection and a direct one are served, the direct one is switched to the uplink and
a handover takes place. -/
def switchRun : List TableEvent :=
  [newData 1 1 .UL, newData 1026 2 .D2D, newData 1 1 .UL, .schedule 80 (some .UL),
    .macHandleD2DModeSwitch ⟨true, 1026, .DM, .IM, true⟩, newData 1026 2 .D2D, .deleteQueues,
    newData 1 1 .UL]

theorem tables_consistent_switch :
    ∃ s os, machine.exec {} switchRun = some (s, os) ∧ s.lcgMap.map LcgPair.cid = [67174401] ∧
      s.Consistent := by
  have hrun : (machine.exec {} switchRun).map (fun r => r.1.lcgMap.map LcgPair.cid) =
      some [67174401] := by decide
  obtain ⟨⟨s, os⟩, hex, hcids⟩ := Option.map_eq_some_iff.1 hrun
  exact ⟨s, os, hex, hcids, (tables_consistent hex).1⟩

end UeTables

end V2nLte
