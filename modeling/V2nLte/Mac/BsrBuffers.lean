import V2nLte.Mac.BestFit
import V2nLte.Mac.ConflictGraph
import V2nLte.Mac.Grant
import Mathlib.Data.Finset.Filter

/-!
# The reports that best fit schedules

An eNB keeps the buffer status reports of each connection in a `LteMacBuffer`, which counts its
entries and their bytes.  In a round of `LteAllocatorBestFit` each connection in the score queue
asks for the blocks of its first report.  If it gets them all, the report is taken out; if it gets
some of them, the bytes are subtracted from the entry itself, and the counter of the bytes is not
told.

* `BestFitRound.serve_fine` : what one connection gets.
* `BestFitEnb.wellFormed_iff` : exactly when the buffers stay well formed in a run.
-/

namespace V2nLte

/-! ### The buffers -/

/-- How scheduling can fail. -/
inductive BestFitError where
  /-- "Packet queue empty". -/
  | packetQueueEmpty
  /-- The first element of an empty list. -/
  | emptyList
  /-- `std::out_of_range`. -/
  | outOfRange
  deriving DecidableEq

/-- A `LteMacBuffer` of reports, with its counters. -/
structure BsrBuffer where
  /-- The bytes, an `unsigned int`. -/
  queueOccupancy : ℕ := 0
  /-- The number of reports. -/
  queueLength : ℤ := 0
  /-- The sizes of the reports. -/
  queue : List ℤ := []
  deriving DecidableEq

namespace BsrBuffer

variable (b : BsrBuffer)

/-- `isEmpty`. -/
def isEmpty : Bool := b.queueLength = 0

/-- `pushBack`. -/
def pushBack (size : ℤ) : BsrBuffer where
  queueOccupancy := u32 (b.queueOccupancy + ofInt32 size)
  queueLength := b.queueLength + 1
  queue := b.queue ++ [size]

/-- `popFront`, without the entry that it returns. -/
def popFront : Except BestFitError BsrBuffer :=
  if b.queueLength ≤ 0 then .error .packetQueueEmpty
  else
    match b.queue with
    | [] => .error .emptyList
    | p :: queue => .ok ⟨sub32 b.queueOccupancy (ofInt32 p), b.queueLength - 1, queue⟩

/-- `front`. -/
def front : Except BestFitError ℤ :=
  if b.queueLength ≤ 0 then .error .packetQueueEmpty
  else
    match b.queue with
    | [] => .error .emptyList
    | p :: _ => .ok p

/-- Write to the entry that `front` refers to. -/
def setFront (size : ℤ) : BsrBuffer := { b with queue := size :: b.queue.tail }

end BsrBuffer

/-- A `MacBsr`; its size is an `int`. -/
structure MacBsr where
  /-- The bytes that are reported. -/
  size : ℤ
  /-- It is not below `INT_MIN`. -/
  le_size : -2147483648 ≤ size
  /-- It is not above `INT_MAX`. -/
  size_lt : size < 2147483648

/-- The reports of an eNB and its `LteAllocatorBestFit`. -/
structure BestFitEnb where
  /-- The reports of each connection. -/
  bsrbuf : MacCid → Option BsrBuffer := fun _ => none
  /-- The connections to be served. -/
  activeConnectionSet : Finset MacCid := ∅

namespace BestFitEnb

variable (s : BestFitEnb)

/-- Set the buffer of a connection. -/
def setBuffer (cid : MacCid) (b : BsrBuffer) : BestFitEnb :=
  { s with bsrbuf := Function.update s.bsrbuf cid (some b) }

/-- `backlog`. -/
def backlog (cid : MacCid) : BestFitEnb :=
  if cid = 1 then s else { s with activeConnectionSet := insert cid s.activeConnectionSet }

/-- `LteMacEnb::bufferizeBsr`. -/
def bufferizeBsr (bsr : MacBsr) (cid : MacCid) : Except BestFitError BestFitEnb :=
  match s.bsrbuf cid with
  | none =>
    -- an empty report is not stored
    if 0 < bsr.size then
      .ok ((s.setBuffer cid (BsrBuffer.pushBack {} bsr.size)).backlog cid)
    else .ok s
  | some bsrqueue => do
    let bsrqueue ← if bsrqueue.isEmpty then .ok bsrqueue else bsrqueue.popFront
    if 0 < bsr.size then
      return (s.setBuffer cid (bsrqueue.pushBack bsr.size)).backlog cid
    else return s.setBuffer cid bsrqueue

end BestFitEnb

/-! ### A round -/

/-- `setAllocationType`. -/
def Subframe.setAllocationType (f : Subframe) (bookedBands : List ℕ) (type : AllocationUeType)
    (nodeId : MacNodeId) : Subframe :=
  { f with
    bandStatusMap := fun band =>
      if band ∈ bookedBands then (type, (f.bandStatusMap band).2.insert nodeId)
      else f.bandStatusMap band }

/-- What a round of `LteAllocatorBestFit` reads of the rest of the eNB. -/
structure BestFitRound where
  /-- The direction of the scheduler. -/
  direction : Direction := .UL
  /-- Bands are shared among D2D links. -/
  reuseD2D : Bool := false
  /-- Bands are shared among D2D multicasts. -/
  reuseD2DMulti : Bool := false
  /-- Who may not share a band with whom, if there is a graph. -/
  conflictGraph : Option CGMatrix := none
  /-- The number of bands. -/
  numBands : ℕ
  /-- The bands occupied by RAC and retransmissions. -/
  occupiedBands : List ℕ := []
  /-- The UE of a connection has a CQI and a free codeword. -/
  eligible : MacCid → Bool := fun _ => true
  /-- The bytes of one block. -/
  req_Bytes1RB : MacCid → ℕ
  /-- A block holds something. -/
  bytes_pos : ∀ cid, 1 ≤ req_Bytes1RB cid
  /-- The bytes are an `unsigned int`. -/
  bytes_lt : ∀ cid, req_Bytes1RB cid < 4294967296
  /-- The score queue, the top first. -/
  score : List MacCid

/-- The state of the loop over the score queue. -/
structure BestFitTurn where
  /-- The reports of each connection. -/
  bsrbuf : MacCid → Option BsrBuffer
  /-- The bands so far. -/
  subframe : Subframe

/-- A connection that has been served, with its buffer before and after. -/
structure ServedConnection where
  /-- The connection. -/
  cid : MacCid
  /-- Its reports before its turn. -/
  before : BsrBuffer
  /-- Its reports after its turn. -/
  after : BsrBuffer

namespace BestFitRound

variable (r : BestFitRound) (cid : MacCid)

/-- The direction of the connection. -/
def dir : FlowDirection :=
  match r.direction with
  | .DL => .DL
  | .UL =>
    if MacCidToLcid cid = D2D_SHORT_BSR then .D2D
    else if MacCidToLcid cid = D2D_MULTI_SHORT_BSR then .D2D_MULTI
    else .UL

/-- `enableFrequencyReuse`. -/
def enableFrequencyReuse : Bool :=
  r.reuseD2D && r.dir cid = .D2D || r.reuseD2DMulti && r.dir cid = .D2D_MULTI

/-- The nodes that must not be on one band with the connection. -/
def conflict (allocatedNodeId : MacNodeId) : Bool :=
  r.conflictGraph.any fun cgMatrix => checkConflict cgMatrix (MacCidToNodeId cid) allocatedNodeId

/-- The blocks that a report asks for. -/
def req_RBs (size : ℤ) : ℕ :=
  let vQueueFrontSize := u32 (ofInt32 size + MAC_HEADER)
  u32 (vQueueFrontSize + r.req_Bytes1RB cid - 1) / r.req_Bytes1RB cid

/-- The bands that are booked for a report. -/
def bookedBands (f : Subframe) (size : ℤ) : List ℕ :=
  f.bookedBands (r.enableFrequencyReuse cid) (r.conflict cid) (r.req_RBs cid size)

/-- What is left of a report of which some blocks have been served. -/
def served (size : ℤ) (blocks : ℕ) : ℤ :=
  i32 (sub32 (ofInt32 size)
    (sub32 (sub32 (u32 (blocks * r.req_Bytes1RB cid)) MAC_HEADER) RLC_HEADER_UM))

/-- One connection of the score queue. -/
def serve (t : BestFitTurn) : Except BestFitError (BestFitTurn × List ServedConnection) :=
  match t.bsrbuf cid with
  | none => .error .outOfRange
  | some conn => do
    let vpkt ← conn.front
    let bookedBands := r.bookedBands cid t.subframe vpkt
    let blocks := bookedBands.length
    if blocks ≤ r.req_RBs cid vpkt ∧ blocks ≠ 0 then
      let type := if r.enableFrequencyReuse cid then .SHARED else .EXCLUSIVE
      let conn' ← if blocks = r.req_RBs cid vpkt then conn.popFront
        else .ok (conn.setFront (r.served cid vpkt blocks))
      return ({
        bsrbuf := Function.update t.bsrbuf cid (some conn')
        subframe := t.subframe.setAllocationType bookedBands type (MacCidToNodeId cid) },
        [⟨cid, conn, conn'⟩])
    else return (t, [])

/-- The loop over the score queue. -/
def loop : Machine BestFitTurn MacCid ServedConnection where
  step t cid := (r.serve cid t).toOption

/-- The state in which the loop begins. -/
def start (bsrbuf : MacCid → Option BsrBuffer) : BestFitTurn where
  bsrbuf := bsrbuf
  subframe := .initAndReset r.numBands r.occupiedBands

end BestFitRound

namespace BestFitEnb

/-- The connections that are active and have a report. -/
def backlogged (s : BestFitEnb) : Finset MacCid :=
  s.activeConnectionSet.filter fun cid => (s.bsrbuf cid).any fun conn => !conn.isEmpty

/-- `schedule`: `prepareSchedule` and `commitSchedule`.  It fails without a conflict graph that is
needed, and for an active connection without a buffer; every connection with a score is in the score
queue once. -/
def schedule (s : BestFitEnb) (r : BestFitRound) : Option (BestFitEnb × List ServedConnection) :=
  if (r.reuseD2D || r.reuseD2DMulti) && r.conflictGraph.isNone then none
  else if ∃ cid ∈ s.activeConnectionSet, (s.bsrbuf cid).isNone then none
  else if r.score.Nodup ∧ r.score.toFinset = s.backlogged.filter fun cid => r.eligible cid then
    (r.loop.exec (r.start s.bsrbuf) r.score).map fun p => (⟨p.1.bsrbuf, s.backlogged⟩, p.2)
  else none

/-- What happens at the eNB. -/
inductive Event where
  | bufferizeBsr (bsr : MacBsr) (cid : MacCid)
  | schedule (r : BestFitRound)

/-- The eNB as a machine. -/
def machine : Machine BestFitEnb Event ServedConnection where
  step s
    | .bufferizeBsr bsr cid => (s.bufferizeBsr bsr cid).toOption.map fun s' => (s', [])
    | .schedule r => s.schedule r

end BestFitEnb

/-! ### What is asked of the buffers -/

/-- The counters are right. -/
structure BsrBuffer.WellFormed (b : BsrBuffer) : Prop where
  occupancy : (b.queueOccupancy : ℤ) = b.queue.sum
  length : b.queueLength = b.queue.length

/-- Right after a connection has been served its counters are right, and its first report is gone
or smaller. -/
structure ServedConnection.Fine (x : ServedConnection) : Prop where
  wellFormed : x.after.WellFormed
  decreases : x.after.queue = x.before.queue.tail ∨
    ∃ p p' rest, x.before.queue = p :: rest ∧ x.after.queue = p' :: rest ∧ 0 ≤ p' ∧ p' < p

/-- One of the holes that the search comes to has room for the whole request, or none of them has
any room. -/
def Subframe.Room (f : Subframe) (reuse : Bool) (conflict : MacNodeId → Bool) (req : ℕ) : Prop :=
  (∃ i len, f.Scanned reuse conflict i len ∧ req ≤ usable reuse i len) ∨
    ∀ i len, f.Scanned reuse conflict i len → usable reuse i len = 0

/-- There is room for the first report of a connection, or there is none at all. -/
def BestFitRound.Room (r : BestFitRound) (t : BestFitTurn) (cid : MacCid) : Prop :=
  ∀ conn p, t.bsrbuf cid = some conn → conn.front = .ok p →
    t.subframe.Room (r.enableFrequencyReuse cid) (r.conflict cid) (r.req_RBs cid p)

/-- In a round there is room whenever a connection has its turn. -/
def BestFitEnb.HasRoom (s : BestFitEnb) : Event → Prop
  | .bufferizeBsr _ _ => True
  | .schedule r => r.loop.Meets r.Room (r.start s.bsrbuf) r.score

/-- The buffers stay well formed in a run, and each connection that is served gets something. -/
structure BestFitEnb.StaysWellFormed (es : List Event) (os : List ServedConnection) : Prop where
  /-- Every buffer of a state of the run is well formed. -/
  buffers : ∀ s, machine.Visits {} es s →
    ∀ cid conn, s.bsrbuf cid = some conn → conn.WellFormed
  /-- Every connection that is served gets something. -/
  served : ∀ x ∈ os, x.Fine

/-! ### What is kept -/

/-- A buffer with at most one report in it, and right counters. -/
def BsrBuffer.Reported (b : BsrBuffer) : Prop :=
  b = {} ∨ ∃ p : ℤ, 0 < p ∧ p < 2147483648 ∧ b = ⟨p.toNat, 1, [p]⟩

/-- All buffers are like that. -/
def AllReported (bsrbuf : MacCid → Option BsrBuffer) : Prop :=
  ∀ cid conn, bsrbuf cid = some conn → conn.Reported

theorem AllReported.update {bsrbuf : MacCid → Option BsrBuffer} (h : AllReported bsrbuf)
    (cid : MacCid) {b : BsrBuffer} (hb : b.Reported) :
    AllReported (Function.update bsrbuf cid (some b)) := by
  intro cid' conn hconn
  by_cases hcid : cid' = cid
  · rw [hcid, Function.update_self] at hconn
    rwa [← Option.some.inj hconn]
  · rw [Function.update_of_ne hcid] at hconn
    exact h cid' conn hconn

namespace BsrBuffer

variable {b : BsrBuffer} {p : ℤ}

theorem ofInt32_of_pos (h : 0 ≤ p) (h' : p < 2147483648) : ofInt32 p = p.toNat := by
  rw [ofInt32, Int.emod_eq_of_lt h (by omega)]

theorem reported_pushBack (h : 0 < p) (h' : p < 2147483648) : (pushBack {} p).Reported := by
  refine .inr ⟨p, h, h', ?_⟩
  rw [pushBack, ofInt32_of_pos h.le h', u32_of_lt (by dsimp only; omega)]
  dsimp only
  rw [Nat.zero_add]
  rfl

/-- The only report is taken out. -/
theorem popFront_eq (h : 0 ≤ p) (h' : p < 2147483648) :
    popFront ⟨p.toNat, 1, [p]⟩ = .ok {} := by
  rw [popFront, if_neg (show ¬(1 : ℤ) ≤ 0 by decide)]
  dsimp only
  rw [ofInt32_of_pos h h', sub32_of_le (Nat.le_refl _) (by omega), Nat.sub_self]
  rfl

theorem Reported.wellFormed (h : b.Reported) : b.WellFormed := by
  rcases h with rfl | ⟨p, hpos, -, rfl⟩
  · exact ⟨rfl, rfl⟩
  · refine ⟨?_, rfl⟩
    rw [List.sum_singleton]
    exact Int.toNat_of_nonneg hpos.le

end BsrBuffer

/-- There is room iff the request is booked as a whole, or nothing is taken. -/
theorem Subframe.room_iff (f : Subframe) (reuse : Bool) (conflict : MacNodeId → Bool) (req : ℕ) :
    f.Room reuse conflict req ↔
      ¬((f.bookedBands reuse conflict req).length ≤ req ∧
          (f.bookedBands reuse conflict req).length ≠ 0) ∨
        (f.bookedBands reuse conflict req).length = req := by
  rcases Nat.eq_zero_or_pos req with rfl | hreq
  · refine iff_of_true ?_ (.inl fun h => h.2 (Nat.le_zero.1 h.1))
    by_cases hsome : ∃ i len, f.Scanned reuse conflict i len
    · obtain ⟨i, len, h⟩ := hsome
      exact .inl ⟨i, len, h, Nat.zero_le _⟩
    · exact .inr fun i len h => absurd ⟨i, len, h⟩ hsome
  · obtain ⟨hle, hall, hnone⟩ := f.length_bookedBands reuse conflict hreq
    rw [Room, ← hall, ← hnone, or_comm]
    refine or_congr_left ⟨fun h h' => h'.2 h, fun h => ?_⟩
    by_contra hne
    exact h ⟨hle, hne⟩

namespace BestFitRound

variable {r : BestFitRound} {cid : MacCid} {t t' : BestFitTurn} {o : List ServedConnection}

/-- A connection that is served in part is not served well: its counter of the bytes is still what
its report was. -/
theorem not_fine_setFront {p p' : ℤ} (hp : 0 < p) :
    ¬ServedConnection.Fine ⟨cid, ⟨p.toNat, 1, [p]⟩, BsrBuffer.setFront ⟨p.toNat, 1, [p]⟩ p'⟩ := by
  rintro ⟨⟨hoccupancy, -⟩, hnil | ⟨q, q', rest, hbefore, hafter, -, hlt⟩⟩
  · cases hnil
  · obtain ⟨rfl, rfl⟩ := List.cons.inj hbefore
    obtain ⟨rfl, -⟩ := List.cons.inj hafter
    have hoccupancy : (p.toNat : ℤ) = [p'].sum := hoccupancy
    rw [List.sum_singleton, Int.toNat_of_nonneg hp.le] at hoccupancy
    omega

/-- A connection whose report is taken out is served well. -/
theorem fine_popFront (p : ℤ) : ServedConnection.Fine ⟨cid, ⟨p.toNat, 1, [p]⟩, {}⟩ :=
  ⟨⟨rfl, rfl⟩, .inl rfl⟩

/-- **What one connection gets.** -/
theorem serve_fine (ht : AllReported t.bsrbuf)
    (hserve : r.serve cid t = .ok (t', o)) :
    ((∀ x ∈ o, x.Fine) ↔ r.Room t cid) ∧
      (r.Room t cid → AllReported t'.bsrbuf) := by
  rw [serve] at hserve
  split at hserve
  · cases hserve
  · rename_i conn hconn
    obtain ⟨p, hfront, hserve⟩ := bind_eq_ok.1 hserve
    -- a buffer is empty or holds one report
    rcases ht cid conn hconn with rfl | ⟨q, hpos, hlt, rfl⟩
    · cases hfront
    · obtain rfl : q = p := Except.ok.inj hfront
      have hroom : r.Room t cid ↔ t.subframe.Room (r.enableFrequencyReuse cid) (r.conflict cid)
          (r.req_RBs cid q) := by
        refine ⟨fun h => h _ q hconn hfront, fun h conn' p' hconn' hfront' => ?_⟩
        obtain rfl := Option.some.inj (hconn.symm.trans hconn')
        obtain rfl : q = p' := Except.ok.inj hfront'
        exact h
      rw [hroom, Subframe.room_iff]
      change ((∀ x ∈ o, x.Fine) ↔ ¬((r.bookedBands cid t.subframe q).length ≤ r.req_RBs cid q ∧
        (r.bookedBands cid t.subframe q).length ≠ 0) ∨
          (r.bookedBands cid t.subframe q).length = r.req_RBs cid q) ∧ (_ → _)
      dsimp only at hserve
      split at hserve <;> rename_i htaken
      · split at hserve <;> rename_i hall
        · -- the whole report is served
          rw [BsrBuffer.popFront_eq hpos.le hlt] at hserve
          cases hserve
          refine ⟨iff_of_true (fun x hx => ?_) (.inr hall), fun _ cid' conn' hconn' => ?_⟩
          · rw [List.mem_singleton.1 hx]
            exact fine_popFront q
          · exact ht.update cid (.inl rfl) cid' conn' hconn'
        · -- a part of the report stays in front, with a wrong count
          cases hserve
          have hnot : ¬(¬((r.bookedBands cid t.subframe q).length ≤ r.req_RBs cid q ∧
              (r.bookedBands cid t.subframe q).length ≠ 0) ∨
                (r.bookedBands cid t.subframe q).length = r.req_RBs cid q) := fun h =>
            h.elim (fun h => h htaken) hall
          refine ⟨iff_of_false (fun h => ?_) hnot, fun h => absurd h hnot⟩
          exact not_fine_setFront hpos (h _ List.mem_cons_self)
      · -- nothing is taken
        cases hserve
        exact ⟨iff_of_true nofun (.inl htaken), fun _ => ht⟩

end BestFitRound

namespace BestFitEnb

variable {s s' : BestFitEnb} {e : Event} {es : List Event} {o os : List ServedConnection}

theorem bufferizeBsr_reported (hs : AllReported s.bsrbuf) {bsr : MacBsr} {cid : MacCid}
    (h : s.bufferizeBsr bsr cid = .ok s') : AllReported s'.bsrbuf := by
  have hbacklog : ∀ s : BestFitEnb, (s.backlog cid).bsrbuf = s.bsrbuf := by
    intro s
    unfold backlog
    split
    · rfl
    · rfl
  rw [bufferizeBsr] at h
  split at h
  · split at h <;> rename_i hpos
    · cases h
      rw [hbacklog]
      exact hs.update cid (BsrBuffer.reported_pushBack hpos bsr.size_lt)
    · cases h
      exact hs
  · rename_i conn hconn
    -- what is left of the old report
    have hempty : (if conn.isEmpty then .ok conn else conn.popFront) = .ok ({} : BsrBuffer) := by
      rcases hs cid conn hconn with rfl | ⟨p, hpos, hlt, rfl⟩
      · rfl
      · exact BsrBuffer.popFront_eq hpos.le hlt
    have hstore : (if 0 < bsr.size then
        .ok ((s.setBuffer cid (BsrBuffer.pushBack {} bsr.size)).backlog cid)
        else .ok (s.setBuffer cid {}) : Except BestFitError BestFitEnb) = .ok s' := by
      dsimp only at h
      split at h <;> rename_i hconn'
      · rw [if_pos hconn'] at hempty
        rwa [hempty] at h
      · rw [if_neg hconn'] at hempty
        rwa [hempty] at h
    split at hstore <;> rename_i hpos
    · cases hstore
      rw [hbacklog]
      exact hs.update cid (BsrBuffer.reported_pushBack hpos bsr.size_lt)
    · cases hstore
      exact hs.update cid (.inl rfl)

/-- **What one step does.** -/
theorem step_fine (hs : AllReported s.bsrbuf) (hst : machine.step s e = some (s', o)) :
    ((∀ x ∈ o, x.Fine) ↔ s.HasRoom e) ∧ (s.HasRoom e → AllReported s'.bsrbuf) := by
  cases e with
  | bufferizeBsr bsr cid =>
    obtain ⟨s₁, h, heq⟩ := Option.map_eq_some_iff.1 hst
    obtain ⟨rfl, rfl⟩ := Prod.mk.inj heq
    exact ⟨iff_of_true nofun trivial, fun _ => bufferizeBsr_reported hs (toOption_eq_some.1 h)⟩
  | schedule r =>
    change s.schedule r = some (s', o) at hst
    rw [schedule] at hst
    split_ifs at hst
    obtain ⟨⟨t, os⟩, hexec, heq⟩ := Option.map_eq_some_iff.1 hst
    obtain ⟨rfl, rfl⟩ := Prod.mk.inj heq
    refine Machine.exec_fine_iff (I := fun t => AllReported t.bsrbuf) ?_ hs hexec
    intro t cid t' o ht hst
    exact BestFitRound.serve_fine ht (toOption_eq_some.1 hst)

/-- **The buffers stay well formed** in a run, and each connection that is served gets something,
iff there is room whenever a connection has its turn. -/
theorem wellFormed_iff (h : machine.exec {} es = some (s, os)) :
    StaysWellFormed es os ↔ machine.Meets HasRoom {} es := by
  have hinit : AllReported ({} : BestFitEnb).bsrbuf := nofun
  have hrun := Machine.exec_fine_iff (I := fun s : BestFitEnb => AllReported s.bsrbuf)
    (F := ServedConnection.Fine) (C := HasRoom) (fun s e s' o => step_fine) hinit h
  constructor
  · intro hfine
    exact hrun.1.1 hfine.served
  · intro hroom
    refine ⟨fun s' hvisits cid conn hconn => ?_, hrun.1.2 hroom⟩
    have hs' : AllReported s'.bsrbuf := hvisits.invariant hinit fun s e s' o htakes hs =>
      (step_fine hs (htakes.split h).1).2 (hroom.takes htakes)
    exact (hs' cid conn hconn).wellFormed

/-- A round for the UE 1025, in which `numBands` blocks of `bytes` bytes are free. -/
def oneConnection (numBands bytes : ℕ) (hpos : 1 ≤ bytes) (hlt : bytes < 4294967296) :
    BestFitRound where
  numBands := numBands
  req_Bytes1RB := fun _ => bytes
  bytes_pos := fun _ => hpos
  bytes_lt := fun _ => hlt
  score := [67174400]

/-- The UE reports 100 bytes, which are scheduled. -/
def report100 (numBands bytes : ℕ) (hpos : 1 ≤ bytes) (hlt : bytes < 4294967296) : List Event :=
  [.bufferizeBsr ⟨100, by decide, by decide⟩ 67174400,
    .schedule (oneConnection numBands bytes hpos hlt)]

theorem wellFormed_report100 : ∃ s os,
    machine.exec {} (report100 6 60 (by decide) (by decide)) = some (s, os) ∧
      StaysWellFormed (report100 6 60 (by decide) (by decide)) os := by
  obtain ⟨⟨s, os⟩, hexec⟩ := Option.isSome_iff_exists.1 (show (machine.exec {}
    (report100 6 60 (by decide) (by decide))).isSome = true by decide)
  refine ⟨s, os, hexec, (wellFormed_iff hexec).2 ?_⟩
  rw [report100, Machine.Meets]
  split
  · trivial
  · rename_i s₁ o hst
    obtain rfl : _ = s₁ := congrArg Prod.fst (Option.some.inj hst)
    refine ⟨trivial, ?_⟩
    rw [Machine.Meets]
    split
    · trivial
    · refine ⟨?_, trivial⟩
      rw [HasRoom, oneConnection, Machine.Meets]
      split
      · trivial
      · refine ⟨fun conn p hconn hfront => ?_, trivial⟩
        obtain rfl := Option.some.inj hconn
        obtain rfl := Except.ok.inj hfront
        exact (Subframe.room_iff _ _ _ _).2 (.inr (by decide))

/-- Five of eleven blocks are served, and the counter of the bytes still says 100.  One block of one
byte is served, and the report grows to 103 bytes. -/
theorem partial_service_drifts :
    (∃ s os, machine.exec {} (report100 6 10 (by decide) (by decide)) = some (s, os) ∧
      ¬StaysWellFormed (report100 6 10 (by decide) (by decide)) os) ∧
    ∃ s os, machine.exec {} (report100 2 1 (by decide) (by decide)) = some (s, os) ∧
      ¬StaysWellFormed (report100 2 1 (by decide) (by decide)) os := by
  have hdrift : ∀ (es : List Event) (conn : BsrBuffer),
      ((machine.exec {} es).map fun p => p.2.map ServedConnection.after) = some [conn] →
        (conn.queueOccupancy : ℤ) ≠ conn.queue.sum → ∃ s os, machine.exec {} es = some (s, os) ∧
          ¬StaysWellFormed es os := by
    intro es conn hexec hne
    obtain ⟨⟨s, os⟩, hexec, hos⟩ := Option.map_eq_some_iff.1 hexec
    refine ⟨s, os, hexec, fun h => ?_⟩
    obtain ⟨x, hx, rfl⟩ := List.mem_map.1 (hos ▸ List.mem_cons_self : conn ∈ _)
    exact hne (h.served x hx).wellFormed.occupancy
  exact ⟨hdrift _ ⟨100, 1, [54]⟩ (by decide +kernel) (by decide),
    hdrift _ ⟨100, 1, [103]⟩ (by decide +kernel) (by decide)⟩

end BestFitEnb

end V2nLte
