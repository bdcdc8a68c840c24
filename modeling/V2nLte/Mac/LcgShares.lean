import V2nLte.Mac.UeTables

/-!
# How a UE shares out a grant

`LcgScheduler::schedule` goes over the connections, class by class.  A backlogged connection asks
for its backlog and the headers; it is served as a whole if the grant has so much left, and gets
the rest of the grant otherwise.  What is left of the grant when the loops come to a connection
depends on the connections before it only: `leftAt`.

The sums are `unsigned int`s, and the bytes that a connection may take out of its buffer if it gets
the rest of the grant are an `int`.  `SharesFit` says that neither matters.

* `LcgLoop.serve_spec` : what the loop does with a connection.
* `schedule_spec` : the scheduler returns, and gives each connection its share.
* `distributed_iff` : a grant is distributed as it should be iff the numbers are large enough.
-/

namespace V2nLte

/-! ### Shares -/

/-- What is left of a grant. -/
structure LcgLeft where
  /-- The bytes that are left. -/
  availableBytes : ℕ
  /-- The MAC header has not been paid for yet. -/
  firstSdu : Bool := true
  deriving DecidableEq

/-- What a scheduler reads of a connection. -/
structure LcgBacklog where
  /-- Whether it has the direction of the grant. -/
  direction : LcgPair → Bool
  /-- The bytes in its buffer. -/
  bytes : LcgPair → ℕ
  /-- The header that the RLC adds. -/
  rlcHeader : LcgPair → ℕ

namespace LcgBacklog

variable (B : LcgBacklog)

/-- `queueOccupancy_`. -/
def occupancy (e : LcgPair) : ℕ := u32 (B.bytes e)

/-- The connection takes part. -/
def TakesPart (e : LcgPair) : Prop := B.direction e = true ∧ B.occupancy e ≠ 0

instance : DecidablePred B.TakesPart := fun _ => inferInstanceAs (Decidable (_ ∧ _))

/-- The headers that are charged to a connection. -/
def headers (l : LcgLeft) (e : LcgPair) : ℕ := B.rlcHeader e + UeUplink.macHeader l.firstSdu

/-- What a connection asks for. -/
def toServe (l : LcgLeft) (e : LcgPair) : ℕ := u32 (B.occupancy e + B.headers l e)

/-- What a connection gets. -/
def share (l : LcgLeft) (e : LcgPair) : ℕ :=
  if B.TakesPart e then min l.availableBytes (B.toServe l e) else 0

/-- What is left after a connection. -/
def after (l : LcgLeft) (e : LcgPair) : LcgLeft where
  availableBytes := l.availableBytes - B.share l e
  firstSdu := l.firstSdu && B.share l e == 0

/-- What is left after some connections. -/
def leftAfter (l : LcgLeft) (es : List LcgPair) : LcgLeft := es.foldl B.after l

/-- The bytes that a connection may take out of its buffer if it gets the rest of the grant, an
`int`. -/
def payload (l : LcgLeft) (e : LcgPair) : ℤ :=
  i32 (sub32 (sub32 l.availableBytes (UeUplink.macHeader l.firstSdu)) (B.rlcHeader e))

/-- The bytes that stay in the buffer of a connection. -/
def bytesAfter (l : LcgLeft) (e : LcgPair) : ℕ :=
  if B.share l e = 0 then B.bytes e
  else if B.toServe l e ≤ l.availableBytes then 0
  else B.bytes e - (B.payload l e).toNat

/-- A connection's share does not run over the numbers: if it is served as a whole, its occupancy
with the headers is an `unsigned int`, and if it gets the rest of the grant, the bytes it takes are
an `int`. -/
def ShareFits (l : LcgLeft) (e : LcgPair) : Prop :=
  0 < B.share l e →
    if B.toServe l e ≤ l.availableBytes then B.occupancy e + B.headers l e < 4294967296
    else l.availableBytes - B.headers l e < 2147483648

/-- A connection with bytes asks for nothing: the sum of its bytes, or of its occupancy and the
headers, is a multiple of `2 ^ 32`. -/
def PassedOver (l : LcgLeft) (e : LcgPair) : Prop :=
  B.direction e = true ∧ B.bytes e ≠ 0 ∧ (B.occupancy e = 0 ∨ B.toServe l e = 0)

variable {B} {l : LcgLeft} {e e' : LcgPair} {es : List LcgPair}

theorem share_le : B.share l e ≤ l.availableBytes := by
  rw [share]
  split
  · exact Nat.min_le_left _ _
  · exact Nat.zero_le _

theorem leftAfter_append (l : LcgLeft) (es es' : List LcgPair) :
    B.leftAfter l (es ++ es') = B.leftAfter (B.leftAfter l es) es' := List.foldl_append

theorem leftAfter_concat (l : LcgLeft) (es : List LcgPair) (e : LcgPair) :
    B.leftAfter l (es ++ [e]) = B.after (B.leftAfter l es) e := leftAfter_append l es [e]

theorem leftAfter_le (l : LcgLeft) (es : List LcgPair) :
    (B.leftAfter l es).availableBytes ≤ l.availableBytes := by
  induction es generalizing l with
  | nil => exact Nat.le_refl _
  | cons e es ih => exact (ih (B.after l e)).trans (Nat.sub_le _ _)

/-- The MAC header is charged to the first connection that gets something. -/
theorem firstSdu_leftAfter (l : LcgLeft) (es : List LcgPair) :
    (B.leftAfter l es).firstSdu = true ↔ l.firstSdu = true ∧
      ∀ pre e post, es = pre ++ e :: post → B.share (B.leftAfter l pre) e = 0 := by
  induction es generalizing l with
  | nil => exact ⟨fun h => ⟨h, fun pre e post hes => by cases pre <;> cases hes⟩, And.left⟩
  | cons e es ih =>
    have hafter : (B.after l e).firstSdu = true ↔ l.firstSdu = true ∧ B.share l e = 0 := by
      rw [after, Bool.and_eq_true, beq_iff_eq]
    rw [show B.leftAfter l (e :: es) = B.leftAfter (B.after l e) es from rfl, ih, hafter]
    constructor
    · rintro ⟨⟨hfirst, hzero⟩, hrest⟩
      refine ⟨hfirst, fun pre e' post hes => ?_⟩
      cases pre with
      | nil =>
        obtain ⟨rfl, -⟩ := List.cons.inj hes
        exact hzero
      | cons x pre =>
        obtain ⟨rfl, hes'⟩ := List.cons.inj hes
        exact hrest pre e' post hes'
    · rintro ⟨hfirst, hall⟩
      refine ⟨⟨hfirst, hall [] e es rfl⟩, fun pre e' post hes => ?_⟩
      exact hall (e :: pre) e' post (by rw [hes]; rfl)

theorem macHeader_le (b : Bool) : UeUplink.macHeader b ≤ 2 := by
  cases b <;> decide

/-- The bytes that are taken out are those of the share without the headers, if they are an
`int`. -/
theorem payload_toNat (hrlc : B.rlcHeader e ≤ 2) (hl : l.availableBytes < 4294967296) :
    (B.payload l e).toNat =
      if l.availableBytes - B.headers l e < 2147483648 then l.availableBytes - B.headers l e
      else 0 := by
  have hmac := macHeader_le l.firstSdu
  rw [payload, headers]
  generalize UeUplink.macHeader l.firstSdu = mac at hmac ⊢
  by_cases hle : B.rlcHeader e + mac ≤ l.availableBytes
  · rw [sub32_of_le (by omega) hl, sub32_of_le (by omega) (by omega), Nat.sub_sub, Nat.add_comm mac]
    split <;> rename_i hlt
    · rw [i32_of_lt hlt, Int.toNat_natCast]
    · have hneg := i32_neg (Nat.le_of_not_lt hlt) (by omega)
      exact Int.toNat_of_nonpos (le_of_lt hneg)
  · -- the grant does not even hold the headers
    have hbig : 2147483648 ≤ sub32 (sub32 l.availableBytes mac) (B.rlcHeader e) := by
      unfold sub32 u32
      omega
    rw [Int.toNat_of_nonpos (le_of_lt (i32_neg hbig (u32_lt _))), if_pos (by omega)]
    omega

theorem payload_le (hrlc : B.rlcHeader e ≤ 2) (hl : l.availableBytes < 4294967296)
    (hpart : l.availableBytes < B.toServe l e) : (B.payload l e).toNat ≤ B.occupancy e := by
  rw [payload_toNat hrlc hl]
  have hasks : B.toServe l e ≤ B.occupancy e + B.headers l e := Nat.mod_le _ _
  split
  · omega
  · exact Nat.zero_le _

/-- **The occupancy decreases by the share without the headers** iff the share fits. -/
theorem charged_iff (hrlc : B.rlcHeader e ≤ 2) (hl : l.availableBytes < 4294967296) :
    B.occupancy e = u32 (B.bytesAfter l e) + (B.share l e - B.headers l e) ↔ B.ShareFits l e := by
  have hmac := macHeader_le l.firstSdu
  have hheaders : B.headers l e ≤ 4 := Nat.add_le_add hrlc hmac
  rw [bytesAfter, ShareFits]
  rcases Nat.eq_zero_or_pos (B.share l e) with hzero | hpos
  · rw [if_pos hzero, hzero, Nat.zero_sub, Nat.add_zero]
    exact ⟨fun _ h => absurd h (Nat.lt_irrefl 0), fun _ => rfl⟩
  have hpart : B.TakesPart e := by
    by_contra hpart
    rw [share, if_neg hpart] at hpos
    exact absurd hpos (Nat.lt_irrefl 0)
  have hocc : B.occupancy e ≠ 0 := hpart.2
  rw [if_neg (Nat.ne_of_gt hpos), forall_prop_of_true hpos]
  rw [share, if_pos hpart] at hpos ⊢
  by_cases hall : B.toServe l e ≤ l.availableBytes
  · rw [if_pos hall, if_pos hall, Nat.min_eq_right hall]
    have hlt : B.occupancy e < 4294967296 := u32_lt _
    rw [Nat.min_eq_right hall] at hpos
    simp only [toServe, u32] at hpos ⊢
    omega
  · have hle := payload_le hrlc hl (Nat.lt_of_not_le hall)
    rw [if_neg hall, if_neg hall, Nat.min_eq_left (Nat.le_of_not_le hall)]
    rw [payload_toNat hrlc hl] at hle ⊢
    simp only [occupancy, u32] at hle hocc ⊢
    split at hle <;> rename_i hlt
    · rw [if_pos hlt]
      omega
    · rw [if_neg hlt]
      omega

theorem after_of_pos (h : 0 < B.share l e) :
    B.after l e = ⟨l.availableBytes - B.share l e, false⟩ := by
  rw [after, beq_eq_false_iff_ne.2 (Nat.ne_of_gt h), Bool.and_false]

theorem share_of_not_takesPart (h : ¬B.TakesPart e) : B.share l e = 0 := if_neg h

theorem PassedOver.share_eq_zero (h : B.PassedOver l e) : B.share l e = 0 := by
  obtain ⟨-, -, hocc | hasks⟩ := h
  · exact share_of_not_takesPart fun hpart => hpart.2 hocc
  · rw [share, hasks, Nat.min_zero, ite_self]

/-- If something stays in the buffer of a connection that is not passed over, then nothing is left
of the grant. -/
theorem nothing_left (hdir : B.direction e = true) (hpassed : ¬B.PassedOver l e)
    (hbytes : B.bytesAfter l e ≠ 0) : (B.after l e).availableBytes = 0 := by
  have hbytes' : B.bytes e ≠ 0 := by
    intro hzero
    refine hbytes ?_
    rw [bytesAfter, hzero, Nat.zero_sub, ite_self, ite_self]
  obtain ⟨hocc, hasks⟩ := not_or.1 fun h => hpassed ⟨hdir, hbytes', h⟩
  have hshare : B.share l e = min l.availableBytes (B.toServe l e) := if_pos ⟨hdir, hocc⟩
  have hmore : l.availableBytes < B.toServe l e := by
    by_contra hall
    have hall := Nat.le_of_not_lt hall
    rw [Nat.min_eq_right hall] at hshare
    rw [bytesAfter, if_neg (hshare ▸ hasks), if_pos hall] at hbytes
    exact hbytes rfl
  rw [after, hshare, Nat.min_eq_left (Nat.le_of_lt hmore), Nat.sub_self]

end LcgBacklog

/-! ### Buffers -/

namespace VirtualBuffer

/-- No packet has a negative length. -/
def Nonneg (q : VirtualBuffer) : Prop := ∀ size ∈ q, 0 ≤ size

instance (q : VirtualBuffer) : Decidable q.Nonneg :=
  inferInstanceAs (Decidable (∀ size ∈ q, 0 ≤ size))

variable {q : VirtualBuffer}

theorem Nonneg.sum_nonneg (hq : q.Nonneg) : 0 ≤ q.sum := List.sum_nonneg hq

theorem queueOccupancy_eq (hq : q.Nonneg) : q.queueOccupancy = u32 q.sum.toNat := by
  have hsum := hq.sum_nonneg
  unfold queueOccupancy ofInt32 u32
  omega

/-- A buffer that has as many bytes as are taken from it is not popped when it is empty. -/
theorem consume_spec (hq : q.Nonneg) {alloc : ℤ} (hle : alloc ≤ q.sum)
    (hlt : alloc < 2147483648) :
    ∃ left, q.consume alloc = .ok left ∧ left.Nonneg ∧
      left.sum.toNat = q.sum.toNat - alloc.toNat := by
  induction q generalizing alloc with
  | nil =>
    have hnone : alloc ≤ 0 := hle
    rw [consume, if_pos hnone, Int.toNat_of_nonpos hnone]
    exact ⟨[], rfl, hq, rfl⟩
  | cons size q ih =>
    obtain ⟨hsize, hq'⟩ := List.forall_mem_cons.1 hq
    have hsum := Nonneg.sum_nonneg hq'
    rw [List.sum_cons] at hle
    rw [consume]
    split
    · rename_i hnone
      rw [Int.toNat_of_nonpos hnone]
      exact ⟨_, rfl, hq, rfl⟩
    · split
      · refine ⟨_, rfl, List.forall_mem_cons.2 ⟨by omega, hq'⟩, ?_⟩
        rw [List.sum_cons, List.sum_cons]
        omega
      · -- the rest is an `int`, and is taken from the packets behind
        have hrest : i32 (ofInt32 (alloc - size)) = alloc - size := by
          unfold i32 ofInt32 u32
          omega
        obtain ⟨left, hleft, hnonneg, hbytes⟩ := ih hq'
          (show alloc - size ≤ q.sum by omega) (by omega)
        rw [hrest]
        refine ⟨left, hleft, hnonneg, ?_⟩
        rw [hbytes, List.sum_cons]
        omega

end VirtualBuffer

namespace UeTables

/-- What the scheduler needs of the tables: a connection is in the map once, with a buffer of its
own that has not been deleted and a descriptor. -/
structure Schedulable (s : UeTables) : Prop where
  /-- A connection is in the map once. -/
  nodup : (s.lcgMap.map LcgPair.cid).Nodup
  /-- Two connections do not share a buffer. -/
  own : ∀ e ∈ s.lcgMap, ∀ e' ∈ s.lcgMap, e.buffer = e'.buffer → e.cid = e'.cid
  /-- The buffer has not been deleted, and its lengths are not negative. -/
  alive : ∀ e ∈ s.lcgMap, ∃ q, s.heap.cells e.buffer = some q ∧ q.Nonneg
  /-- The connection has a descriptor. -/
  desc : ∀ e ∈ s.lcgMap, ∃ info, s.connDesc.find e.cid = some info

theorem Inv.schedulable {s : UeTables} (h : s.Inv)
    (hnonneg : ∀ p q, s.heap.cells p = some q → VirtualBuffer.Nonneg q) : s.Schedulable where
  nodup := h.nodup
  own e he e' he' heq := h.inj (h.entry e he) (heq ▸ h.entry e' he')
  alive e he := by
    obtain ⟨q, -, hq⟩ := deref_of_alive (h.alive (h.entry e he))
    exact ⟨q, hq, hnonneg _ q hq⟩
  desc e he := h.desc (h.entry e he)

/-- What the scheduler reads of the connections if the grant is for a direction. -/
def backlog (s : UeTables) (grantDir : Option FlowDirection) : LcgBacklog where
  direction e := (s.connDesc.find e.cid).any fun info => info.direction == grantDir
  bytes e := ((s.heap.cells e.buffer).getD []).sum.toNat
  rlcHeader e := ((s.connDesc.find e.cid).map fun info => rlcHeader info.rlcType).getD 0

namespace LcgLoop

variable {r r' : LcgLoop} {cid : MacCid}

/-- What is left of the grant. -/
def left (r : LcgLoop) : LcgLeft := ⟨r.availableBytes, r.firstSdu⟩

/-- The bytes that are scheduled for a connection. -/
def scheduled (r : LcgLoop) (cid : MacCid) : ℕ := (r.scheduledBytesList.find cid).getD 0

/-- The bytes that are scheduled. -/
def total (r : LcgLoop) : ℕ := (r.scheduledBytesList.map Prod.snd).sum

/-- Nothing is known of a connection yet. -/
def Fresh (r : LcgLoop) (cid : MacCid) : Prop :=
  r.statusMap.find cid = none ∧ r.scheduledBytesList.find cid = none

/-- What serving a connection does, in terms of what the scheduler reads. -/
structure Served (B : LcgBacklog) (e : LcgPair) (r r' : LcgLoop) : Prop where
  cells : ∃ left : VirtualBuffer, r'.heap.cells = Function.update r.heap.cells e.buffer (some left)
    ∧ left.Nonneg ∧ left.sum.toNat = B.bytesAfter r.left e
  left : r'.left = B.after r.left e
  scheduled : r'.scheduled e.cid = B.share r.left e
  total : r'.total = r.total + B.share r.left e
  others : ∀ cid, cid ≠ e.cid → (r.Fresh cid → r'.Fresh cid) ∧ r'.scheduled cid = r.scheduled cid

theorem record_spec (hnew : r.scheduledBytesList.find cid = none) (elem : StatusElem) :
    (r.record cid elem).scheduled cid = elem.sentData ∧
      (r.record cid elem).total = r.total + elem.sentData ∧
      ∀ i, i ≠ cid → (r.record cid elem).scheduledBytesList.find i =
        r.scheduledBytesList.find i := by
  have hlist : (r.record cid elem).scheduledBytesList =
      r.scheduledBytesList.put cid elem.sentData := by
    rw [record, hnew]
  refine ⟨?_, ?_, fun i hi => ?_⟩
  · rw [scheduled, hlist, OrderedMap.find_put, if_pos rfl]
    rfl
  · rw [total, hlist, ((OrderedMap.put_perm hnew).map Prod.snd).sum_eq, List.map_cons,
      List.sum_cons, Nat.add_comm]
    rfl
  · rw [hlist, OrderedMap.find_put, if_neg hi]

/-- The service of a connection from its buffer, with what is noted. -/
theorem served_of_transmit {B : LcgBacklog} {e : LcgPair} (hfresh : r.Fresh e.cid)
    {heap : Heap VirtualBuffer} {availableBytes : ℕ} {firstSdu : Bool} {elem : StatusElem}
    {left q : VirtualBuffer} (hsent : elem.sentData = B.share r.left e)
    (hleft : ⟨availableBytes, firstSdu⟩ = B.after r.left e)
    (hcells : heap.cells = Function.update r.heap.cells e.buffer (some left))
    (hnonneg : left.Nonneg) (hbytes : left.sum.toNat = B.bytesAfter r.left e) {r₁ : LcgLoop}
    (hr₁ : r₁ = { r with
      heap := heap
      availableBytes := availableBytes
      firstSdu := firstSdu
      statusMap := r.statusMap.put e.cid elem }) :
    Served B e r (r₁.record e.cid (r₁.elem e.cid q)) := by
  have helem : r₁.elem e.cid q = elem := by
    rw [LcgLoop.elem, hr₁, OrderedMap.find_put, if_pos rfl]
    rfl
  have hlist : r₁.scheduledBytesList = r.scheduledBytesList := by rw [hr₁]
  have hnew : r₁.scheduledBytesList.find e.cid = none := hlist ▸ hfresh.2
  obtain ⟨hscheduled, htotal, hothers⟩ := record_spec hnew elem
  rw [helem]
  refine ⟨⟨left, ?_, hnonneg, hbytes⟩, ?_, hscheduled.trans hsent, ?_, fun i hi => ⟨?_, ?_⟩⟩
  · rw [← hcells, hr₁]
    rfl
  · rw [← hleft, hr₁]
    rfl
  · rw [htotal, hsent, total, total, hlist]
  · rintro ⟨hi₁, hi₂⟩
    refine ⟨?_, (hothers i hi).trans (hlist ▸ hi₂)⟩
    change r₁.statusMap.find i = none
    rw [hr₁, OrderedMap.find_put, if_neg hi, hi₁]
  · rw [scheduled, scheduled, hothers i hi, hlist]

end LcgLoop

variable {s : UeTables} {e : LcgPair} {r : LcgLoop} {grantDir : Option FlowDirection}

theorem rlcHeader_le (t : LteRlcType) : rlcHeader t ≤ 2 := by
  cases t <;> decide

theorem backlog_rlcHeader_le (s : UeTables) (grantDir : Option FlowDirection) (e : LcgPair) :
    (s.backlog grantDir).rlcHeader e ≤ 2 := by
  change ((s.connDesc.find e.cid).map fun info => rlcHeader info.rlcType).getD 0 ≤ 2
  cases s.connDesc.find e.cid with
  | none => exact Nat.zero_le 2
  | some info => exact rlcHeader_le _

theorem backlog_eq (grantDir : Option FlowDirection) {info : ConnectionInfo} {q : VirtualBuffer}
    (hinfo : s.connDesc.find e.cid = some info) (hq : s.heap.cells e.buffer = some q) :
    (s.backlog grantDir).direction e = (info.direction == grantDir) ∧
      (s.backlog grantDir).bytes e = q.sum.toNat ∧
      (s.backlog grantDir).rlcHeader e = rlcHeader info.rlcType := by
  refine ⟨?_, ?_, ?_⟩
  · change (s.connDesc.find e.cid).any _ = _
    rw [hinfo]
    rfl
  · change ((s.heap.cells e.buffer).getD []).sum.toNat = _
    rw [hq]
    rfl
  · change ((s.connDesc.find e.cid).map _).getD 0 = _
    rw [hinfo]
    rfl

/-- A connection that takes part gets its share. -/
theorem LcgLoop.transmit_served {B : LcgBacklog} {info : ConnectionInfo} {q : VirtualBuffer}
    (hbytes : B.bytes e = q.sum.toNat) (hrlc : B.rlcHeader e = rlcHeader info.rlcType)
    (hq : r.heap.cells e.buffer = some q) (hnonneg : q.Nonneg) (hfresh : r.Fresh e.cid)
    (hlt : r.availableBytes < 4294967296) (hpart : B.TakesPart e) :
    ∃ r₁, r.transmit e info q = .ok r₁ ∧
      LcgLoop.Served B e r (r₁.record e.cid (r₁.elem e.cid q)) := by
  have hocc : q.queueOccupancy = B.occupancy e := by
    rw [VirtualBuffer.queueOccupancy_eq hnonneg, LcgBacklog.occupancy, hbytes]
  have helem : r.elem e.cid q = ⟨q.length, 0, 0⟩ := by
    rw [LcgLoop.elem, hfresh.1]
    rfl
  have hserve : u32 (q.queueOccupancy + rlcHeader info.rlcType + UeUplink.macHeader r.firstSdu) =
      B.toServe r.left e := by
    rw [hocc, ← hrlc, Nat.add_assoc]
    rfl
  have hshare : B.share r.left e = min r.left.availableBytes (B.toServe r.left e) := if_pos hpart
  have hcells : ∀ left, (r.heap.write e.buffer left).cells =
      Function.update r.heap.cells e.buffer (some left) := by
    intro left
    rw [Heap.write_cells, hq]
    rfl
  have hsent : ∀ n, n < 4294967296 → u32 ((r.elem e.cid q).sentData + n) = n := by
    intro n hn
    rw [helem, Nat.zero_add, u32_of_lt hn]
  unfold LcgLoop.transmit
  dsimp only
  rw [hserve]
  split <;> rename_i hroom
  · have hpos : 0 < B.share r.left e := by
      rw [hshare]
      exact Nat.lt_min.2 hroom
    have hafter := LcgBacklog.after_of_pos hpos
    split <;> rename_i hall
    · -- served as a whole
      have hall' : B.toServe r.left e ≤ r.left.availableBytes := hall
      rw [Nat.min_eq_right hall'] at hshare
      cases q with
      | nil => exact absurd hocc.symm hpart.2
      | cons size q =>
        refine ⟨_, rfl, served_of_transmit hfresh ?_ ?_ (hcells []) (fun _ h => nomatch h) ?_ rfl⟩
        · exact (hsent _ (u32_lt _)).trans hshare.symm
        · rw [hafter, hshare]
          rfl
        · rw [LcgBacklog.bytesAfter, if_neg (Nat.ne_of_gt hpos), if_pos hall']
          rfl
    · -- the rest of the grant
      have hless : r.left.availableBytes < B.toServe r.left e := Nat.lt_of_not_le hall
      rw [Nat.min_eq_left (Nat.le_of_lt hless)] at hshare
      have halloc : r.payload info r.availableBytes = B.payload r.left e := by
        rw [LcgLoop.payload, ← hrlc]
        rfl
      have hle := LcgBacklog.payload_le (hrlc ▸ rlcHeader_le _) hlt hless
      have hocc' : B.occupancy e ≤ q.sum.toNat := hbytes ▸ Nat.mod_le _ _
      have hsum := hnonneg.sum_nonneg
      obtain ⟨left, hleft, hnonneg', hsum⟩ := VirtualBuffer.consume_spec hnonneg
        (show B.payload r.left e ≤ q.sum by omega) (i32_lt _)
      rw [LcgLoop.servePart, halloc, hleft]
      refine ⟨_, rfl, served_of_transmit hfresh ?_ ?_ (hcells left) hnonneg' ?_ rfl⟩
      · exact (hsent _ hlt).trans hshare.symm
      · rw [hafter, hshare, Nat.sub_self]
      · rw [LcgBacklog.bytesAfter, if_neg (Nat.ne_of_gt hpos), if_neg (Nat.not_le_of_gt hless)]
        rw [hsum, hbytes]
  · -- no bytes are left, or the connection takes no part
    have hzero : B.share r.left e = 0 := by
      rw [hshare]
      change ¬(0 < r.left.availableBytes ∧ _) at hroom
      omega
    refine ⟨_, rfl, served_of_transmit hfresh ?_ ?_ ?_ hnonneg ?_ rfl⟩
    · rw [helem, hzero]
    · rw [LcgBacklog.after, hzero, Nat.sub_zero, beq_self_eq_true, Bool.and_true]
      rfl
    · rw [← hq, Function.update_eq_self]
    · rw [LcgBacklog.bytesAfter, if_pos hzero, hbytes]

/-- **What the loop does with a connection.** -/
theorem LcgLoop.serve_spec (grantDir : Option FlowDirection) {info : ConnectionInfo}
    {q : VirtualBuffer} (hinfo : s.connDesc.find e.cid = some info)
    (hold : s.heap.cells e.buffer = some q)
    (hq : r.heap.cells e.buffer = some q) (hnonneg : q.Nonneg) (hfresh : r.Fresh e.cid)
    (hlt : r.availableBytes < 4294967296) :
    ∃ r', LcgLoop.serve s.connDesc grantDir r e = .ok r' ∧
      LcgLoop.Served (s.backlog grantDir) e r r' := by
  obtain ⟨hdir, hbytes, hrlc⟩ := backlog_eq grantDir hinfo hold
  generalize s.backlog grantDir = B at *
  have hderef : r.heap.deref e.buffer = .ok q := by rw [Heap.deref, hq]
  have hdesc : connDescAt s.connDesc e.cid = .ok info := by rw [connDescAt, hinfo]
  have hserve : LcgLoop.serve s.connDesc grantDir r e =
      if ¬B.TakesPart e then .ok r
      else do
        let r' ← r.transmit e info q
        return r'.record e.cid (r'.elem e.cid q) := by
    have hiff : (info.direction ≠ grantDir ∨ q.queueOccupancy = 0) ↔ ¬B.TakesPart e := by
      rw [VirtualBuffer.queueOccupancy_eq hnonneg, ← hbytes, LcgBacklog.TakesPart, hdir,
        beq_iff_eq, not_and_or, not_not]
      rfl
    rw [LcgLoop.serve, hderef]
    dsimp only [bind, Except.bind]
    rw [hdesc]
    exact if_congr hiff rfl rfl
  rw [hserve]
  by_cases hpart : B.TakesPart e
  · obtain ⟨r₁, hr₁, hserved⟩ := transmit_served hbytes hrlc hq hnonneg hfresh hlt hpart
    rw [if_neg (not_not_intro hpart), hr₁]
    exact ⟨_, rfl, hserved⟩
  · have hzero : B.share r.left e = 0 := LcgBacklog.share_of_not_takesPart hpart
    rw [if_pos hpart]
    refine ⟨r, rfl, ⟨q, ?_, hnonneg, ?_⟩, ?_, ?_, ?_, fun i _ => ⟨id, rfl⟩⟩
    · rw [← hq, Function.update_eq_self]
    · rw [LcgBacklog.bytesAfter, if_pos hzero, hbytes]
    · rw [LcgBacklog.after, hzero, Nat.sub_zero, beq_self_eq_true, Bool.and_true]
    · rw [hzero, LcgLoop.scheduled, hfresh.2]
      rfl
    · rw [hzero, Nat.add_zero]

/-! ### The loop -/

/-- What is left of a grant before the first connection. -/
def wholeGrant (availableBytes : ℕ) : LcgLeft := ⟨availableBytes, true⟩

/-- What is left of a grant when the loop has been at some connections. -/
def leftAt (s : UeTables) (grantDir : Option FlowDirection) (availableBytes : ℕ)
    (done : List LcgPair) : LcgLeft :=
  (s.backlog grantDir).leftAfter (wholeGrant availableBytes) done

/-- Where the loop is when it has been at some connections. -/
structure Shared (s : UeTables) (grantDir : Option FlowDirection) (availableBytes : ℕ)
    (done : List LcgPair) (r : LcgLoop) : Prop where
  left : r.left = s.leftAt grantDir availableBytes done
  total : r.total + r.availableBytes = availableBytes
  fresh : ∀ cid, cid ∉ done.map LcgPair.cid → r.Fresh cid
  kept : ∀ e ∈ s.lcgMap, e.cid ∉ done.map LcgPair.cid →
    r.heap.cells e.buffer = s.heap.cells e.buffer
  /-- Each of them has its share. -/
  done : ∀ pre e post, done = pre ++ e :: post → ∃ q : VirtualBuffer,
    r.heap.cells e.buffer = some q ∧
    q.sum.toNat = (s.backlog grantDir).bytesAfter (s.leftAt grantDir availableBytes pre) e ∧
    r.scheduled e.cid = (s.backlog grantDir).share (s.leftAt grantDir availableBytes pre) e

variable {availableBytes : ℕ} {done pre post : List LcgPair}

/-- **The step of the loop.** -/
theorem Shared.serve (h : s.Schedulable) (hlt : availableBytes < 4294967296)
    (hr : Shared s grantDir availableBytes pre r) (he : e ∈ s.lcgMap)
    (hsub : ∀ e' ∈ pre, e' ∈ s.lcgMap) (hnew : e.cid ∉ pre.map LcgPair.cid) :
    ∃ r', LcgLoop.serve s.connDesc grantDir r e = .ok r' ∧
      Shared s grantDir availableBytes (pre ++ [e]) r' := by
  obtain ⟨q, hold, hnonneg⟩ := h.alive e he
  obtain ⟨info, hinfo⟩ := h.desc e he
  have hle : r.availableBytes ≤ availableBytes := Nat.le.intro (Nat.add_comm _ _ ▸ hr.total)
  obtain ⟨r', hr', hserved⟩ := LcgLoop.serve_spec grantDir hinfo hold
    ((hr.kept e he hnew).trans hold) hnonneg (hr.fresh _ hnew) (by omega)
  obtain ⟨left, hcells, -, hbytes⟩ := hserved.cells
  have hnotin : ∀ cid, cid ∉ (pre ++ [e]).map LcgPair.cid →
      cid ∉ pre.map LcgPair.cid ∧ cid ≠ e.cid := by
    intro cid hcid
    rw [List.map_append, List.mem_append, not_or] at hcid
    exact ⟨hcid.1, fun heq => hcid.2 (List.mem_singleton.2 heq)⟩
  have hother : ∀ e' ∈ s.lcgMap, e'.cid ≠ e.cid →
      r'.heap.cells e'.buffer = r.heap.cells e'.buffer := by
    intro e' he' hne
    rw [hcells, Function.update_of_ne fun heq => hne (h.own e' he' e he heq)]
  refine ⟨r', hr', ⟨?_, ?_, ?_, ?_, ?_⟩⟩
  · rw [hserved.left, hr.left]
    exact (LcgBacklog.leftAfter_concat _ _ _).symm
  · have hshare : (s.backlog grantDir).share r.left e ≤ r.availableBytes := LcgBacklog.share_le
    have hleft : r'.availableBytes = r.availableBytes - (s.backlog grantDir).share r.left e :=
      congrArg LcgLeft.availableBytes hserved.left
    have htotal := hr.total
    rw [hserved.total, hleft]
    omega
  · intro cid hcid
    obtain ⟨hpre, hne⟩ := hnotin cid hcid
    exact (hserved.others cid hne).1 (hr.fresh cid hpre)
  · intro e' he' hcid
    obtain ⟨hpre, hne⟩ := hnotin _ hcid
    rw [hother e' he' hne, hr.kept e' he' hpre]
  · -- the connections before `e` keep what they have got
    intro pre' e' post' heq
    rcases List.eq_nil_or_concat' post' with rfl | ⟨post', x, rfl⟩
    · obtain ⟨rfl, hone⟩ := List.append_inj' heq rfl
      obtain rfl := List.singleton_injective hone
      rw [← hr.left]
      exact ⟨left, by rw [hcells, Function.update_self], hbytes, hserved.scheduled⟩
    · rw [← List.cons_append, ← List.append_assoc] at heq
      obtain ⟨rfl, -⟩ := List.append_inj' heq rfl
      have hmem : e' ∈ pre' ++ e' :: post' := List.mem_append_right _ List.mem_cons_self
      have hne : e'.cid ≠ e.cid := fun hcid => hnew (hcid ▸ List.mem_map_of_mem hmem)
      obtain ⟨q', hq', hbytes', hscheduled'⟩ := hr.done pre' e' post' rfl
      rw [hother e' (hsub e' hmem) hne, (hserved.others _ hne).2]
      exact ⟨q', hq', hbytes', hscheduled'⟩

/-- **The scheduler returns**, and has given each connection its share. -/
theorem schedule_spec (h : s.Schedulable) (grantDir : Option FlowDirection)
    (hlt : availableBytes < 4294967296) :
    ∃ r, s.schedule availableBytes grantDir = .ok ({ s with heap := r.heap }, r) ∧
      Shared s grantDir availableBytes s.servingOrder r := by
  have hloop : Ensures (fun _ : UeFault => False) (Shared s grantDir availableBytes s.servingOrder)
      (s.servingOrder.foldlM (LcgLoop.serve s.connDesc grantDir)
        { heap := s.heap, availableBytes := availableBytes }) := by
    refine Ensures.foldlM_prefix (I := Shared s grantDir availableBytes) ?_ ?_
    · exact ⟨rfl, Nat.zero_add _, fun _ _ => ⟨rfl, rfl⟩, fun _ _ _ => rfl,
        fun pre e post heq => by cases pre <;> cases heq⟩
    · intro pre e post r heq hr
      have hmem : ∀ e' ∈ pre ++ e :: post, e' ∈ s.lcgMap := fun e' he' =>
        mem_servingOrder (heq ▸ he')
      have hnodup := servingOrder_nodup h.nodup
      rw [heq, List.map_append, List.map_cons] at hnodup
      have hnew : e.cid ∉ pre.map LcgPair.cid := fun hin =>
        (List.nodup_append.1 hnodup).2.2 _ hin _ List.mem_cons_self rfl
      obtain ⟨r', hr', hshared⟩ := hr.serve h hlt
        (hmem e (List.mem_append_right _ List.mem_cons_self))
        (fun e' he' => hmem e' (List.mem_append_left _ he')) hnew
      rw [hr']
      exact hshared
  obtain ⟨r, hr, hshared⟩ := hloop.exists_ok
  refine ⟨r, ?_, hshared⟩
  rw [UeTables.schedule, hr]
  rfl

/-! ### What is distributed -/

/-- The first connection that has got something. -/
def firstServed (s : UeTables) (r : LcgLoop) : Option LcgPair :=
  s.servingOrder.find? fun e => 0 < r.scheduled e.cid

/-- A grant has been distributed as it should be. -/
structure Distributed (s : UeTables) (grantDir : Option FlowDirection) (availableBytes : ℕ)
    (s' : UeTables) (r : LcgLoop) : Prop where
  /-- No more is scheduled than the grant has bytes. -/
  total : r.total ≤ availableBytes
  /-- A class is served completely before a lower one gets a byte. -/
  priority : ∀ e ∈ s.lcgMap, ∀ e' ∈ s.lcgMap, e.tClass < e'.tClass →
    (s.backlog grantDir).direction e = true → 0 < r.scheduled e'.cid →
      (s'.backlog grantDir).bytes e = 0
  /-- A buffer loses what is scheduled without the headers. -/
  charged : ∀ e ∈ s.lcgMap, (s.backlog grantDir).occupancy e = (s'.backlog grantDir).occupancy e +
    (r.scheduled e.cid - ((s.backlog grantDir).rlcHeader e +
      UeUplink.macHeader (decide (s.firstServed r = some e))))

/-- The numbers are large enough for a grant. -/
structure SharesFit (s : UeTables) (grantDir : Option FlowDirection) (availableBytes : ℕ) :
    Prop where
  /-- The share of each connection in turn is computed without overflow. -/
  fits : ∀ pre e post, s.servingOrder = pre ++ e :: post →
    (s.backlog grantDir).ShareFits (s.leftAt grantDir availableBytes pre) e
  /-- No connection is passed over if one of a lower class gets something. -/
  passed : ∀ pre e mid e' post, s.servingOrder = pre ++ e :: (mid ++ e' :: post) →
    e.tClass < e'.tClass →
    (s.backlog grantDir).PassedOver (s.leftAt grantDir availableBytes pre) e →
      (s.backlog grantDir).share (s.leftAt grantDir availableBytes (pre ++ e :: mid)) e' = 0

theorem servingOrder_sorted : s.servingOrder.Pairwise fun e e' => e.tClass ≤ e'.tClass := by
  rw [servingOrder, List.pairwise_flatMap]
  constructor
  · intro i _
    refine List.Pairwise.imp_of_mem ?_ (List.pairwise_of_forall fun _ _ => trivial)
    intro e e' he he' _
    rw [of_decide_eq_true (List.mem_filter.1 he).2, of_decide_eq_true (List.mem_filter.1 he').2]
  · refine List.pairwise_lt_range.imp fun {i j} hij e he e' he' => ?_
    rw [of_decide_eq_true (List.mem_filter.1 he).2, of_decide_eq_true (List.mem_filter.1 he').2]
    exact Nat.le_of_lt hij

theorem mem_servingOrder_iff :
    e ∈ s.servingOrder ↔ e ∈ s.lcgMap ∧ e.tClass < UNKNOWN_TRAFFIC_TYPE := by
  rw [servingOrder, List.mem_flatMap]
  constructor
  · rintro ⟨i, hi, he⟩
    obtain ⟨hmem, hclass⟩ := List.mem_filter.1 he
    exact ⟨hmem, of_decide_eq_true hclass ▸ List.mem_range.1 hi⟩
  · rintro ⟨hmem, hclass⟩
    exact ⟨_, List.mem_range.2 hclass, List.mem_filter.2 ⟨hmem, decide_eq_true rfl⟩⟩

theorem exists_before (he : e ∈ s.lcgMap) {e' : LcgPair}
    (heq : s.servingOrder = pre ++ e' :: post) (hlt : e.tClass < e'.tClass) :
    ∃ pre' mid, pre = pre' ++ e :: mid := by
  have hmem' : e' ∈ s.servingOrder := heq ▸ List.mem_append_right _ List.mem_cons_self
  have hclass := (mem_servingOrder_iff.1 hmem').2
  have hmem : e ∈ s.servingOrder := mem_servingOrder_iff.2 ⟨he, hlt.trans hclass⟩
  have hsorted := servingOrder_sorted (s := s)
  rw [heq] at hmem hsorted
  obtain ⟨-, hsorted, -⟩ := List.pairwise_append.1 hsorted
  rcases List.mem_append.1 hmem with hmem | hmem
  · exact List.append_of_mem hmem
  · rcases List.mem_cons.1 hmem with rfl | hmem
    · exact absurd hlt (Nat.lt_irrefl _)
    · exact absurd ((List.pairwise_cons.1 hsorted).1 e hmem) (Nat.not_le_of_gt hlt)

namespace Shared

theorem bytes_eq (hr : Shared s grantDir availableBytes s.servingOrder r)
    (heq : s.servingOrder = pre ++ e :: post) :
    ({ s with heap := r.heap }.backlog grantDir).bytes e =
      (s.backlog grantDir).bytesAfter (s.leftAt grantDir availableBytes pre) e := by
  obtain ⟨q, hq, hbytes, -⟩ := hr.done pre e post heq
  rw [← hbytes]
  change ((r.heap.cells e.buffer).getD []).sum.toNat = _
  rw [hq]
  rfl

theorem scheduled_eq (hr : Shared s grantDir availableBytes s.servingOrder r)
    (heq : s.servingOrder = pre ++ e :: post) :
    r.scheduled e.cid = (s.backlog grantDir).share (s.leftAt grantDir availableBytes pre) e := by
  obtain ⟨q, -, -, hscheduled⟩ := hr.done pre e post heq
  exact hscheduled

theorem untouched (hr : Shared s grantDir availableBytes s.servingOrder r)
    (h : s.Schedulable) (he : e ∈ s.lcgMap) (hnot : e ∉ s.servingOrder) :
    r.scheduled e.cid = 0 ∧ ({ s with heap := r.heap }.backlog grantDir).bytes e =
      (s.backlog grantDir).bytes e := by
  have hcid : e.cid ∉ s.servingOrder.map LcgPair.cid := by
    intro hin
    obtain ⟨e', he', heq⟩ := List.mem_map.1 hin
    obtain rfl := List.inj_on_of_nodup_map h.nodup (mem_servingOrder he') he heq
    exact hnot he'
  constructor
  · rw [LcgLoop.scheduled, (hr.fresh _ hcid).2]
    rfl
  · change ((r.heap.cells e.buffer).getD []).sum.toNat = _
    rw [hr.kept e he hcid]
    rfl

/-- The MAC header is charged to the first connection that gets something. -/
theorem firstServed_iff (hr : Shared s grantDir availableBytes s.servingOrder r)
    (h : s.Schedulable) (heq : s.servingOrder = pre ++ e :: post) (hpos : 0 < r.scheduled e.cid) :
    s.firstServed r = some e ↔ (s.leftAt grantDir availableBytes pre).firstSdu = true := by
  have hnodup := (servingOrder_nodup h.nodup).of_map
  rw [heq] at hnodup
  have hnew : e ∉ pre := fun hin =>
    (List.nodup_append.1 hnodup).2.2 e hin e List.mem_cons_self rfl
  have hfind : s.firstServed r = some e ↔ ∀ x ∈ pre, r.scheduled x.cid = 0 := by
    rw [firstServed, heq, List.find?_append, List.find?_cons_of_pos (by simpa using hpos)]
    constructor
    · intro h x hx
      cases hpre : pre.find? fun e => 0 < r.scheduled e.cid with
      | none => simpa using List.find?_eq_none.1 hpre x hx
      | some x =>
        rw [hpre] at h
        cases h
        exact absurd (List.mem_of_find?_eq_some hpre) hnew
    · intro h
      have hpre : (pre.find? fun e => 0 < r.scheduled e.cid) = none :=
        List.find?_eq_none.2 fun x hx => by simp [h x hx]
      rw [hpre]
      rfl
  rw [hfind, leftAt, LcgBacklog.firstSdu_leftAfter]
  constructor
  · intro hzero
    refine ⟨rfl, fun p x p' hpre => ?_⟩
    have hx := hr.scheduled_eq (show s.servingOrder = p ++ x :: (p' ++ e :: post) by
      rw [heq, hpre, List.append_assoc, List.cons_append])
    exact hx.symm.trans (hzero x (hpre ▸ List.mem_append_right _ List.mem_cons_self))
  · rintro ⟨-, hzero⟩ x hx
    obtain ⟨p, p', hpre⟩ := List.append_of_mem hx
    rw [hr.scheduled_eq (by rw [heq, hpre, List.append_assoc, List.cons_append])]
    exact hzero p x p' hpre

/-- A connection is charged as it should be iff its share fits. -/
theorem charged_iff (hr : Shared s grantDir availableBytes s.servingOrder r)
    (h : s.Schedulable) (hlt : availableBytes < 4294967296)
    (heq : s.servingOrder = pre ++ e :: post) :
    (s.backlog grantDir).occupancy e =
      ({ s with heap := r.heap }.backlog grantDir).occupancy e + (r.scheduled e.cid -
        ((s.backlog grantDir).rlcHeader e +
          UeUplink.macHeader (decide (s.firstServed r = some e)))) ↔
      (s.backlog grantDir).ShareFits (s.leftAt grantDir availableBytes pre) e := by
  have hleft : (s.leftAt grantDir availableBytes pre).availableBytes < 4294967296 :=
    (LcgBacklog.leftAfter_le _ _).trans_lt hlt
  have hheaders : r.scheduled e.cid - ((s.backlog grantDir).rlcHeader e +
      UeUplink.macHeader (decide (s.firstServed r = some e))) =
      (s.backlog grantDir).share (s.leftAt grantDir availableBytes pre) e -
        (s.backlog grantDir).headers (s.leftAt grantDir availableBytes pre) e := by
    rw [hr.scheduled_eq heq]
    rcases Nat.eq_zero_or_pos ((s.backlog grantDir).share (s.leftAt grantDir availableBytes pre) e)
      with hzero | hpos
    · rw [hzero, Nat.zero_sub, Nat.zero_sub]
    · have hfirst : decide (s.firstServed r = some e) =
          (s.leftAt grantDir availableBytes pre).firstSdu := by
        rw [Bool.eq_iff_iff, decide_eq_true_iff]
        exact hr.firstServed_iff h heq (by rwa [hr.scheduled_eq heq])
      rw [LcgBacklog.headers, hfirst]
  rw [← LcgBacklog.charged_iff (backlog_rlcHeader_le _ _ _) hleft, hheaders,
    LcgBacklog.occupancy, LcgBacklog.occupancy, hr.bytes_eq heq]

end Shared

/-- **A grant is distributed as it should be** iff the numbers are large enough. -/
theorem distributed_iff (h : s.Schedulable) (hlt : availableBytes < 4294967296) :
    (∃ s' r, s.schedule availableBytes grantDir = .ok (s', r) ∧
      s.Distributed grantDir availableBytes s' r) ↔ s.SharesFit grantDir availableBytes := by
  obtain ⟨r, hr, hshared⟩ := schedule_spec h grantDir hlt
  constructor
  · rintro ⟨s', r', hr', hdist⟩
    obtain ⟨rfl, rfl⟩ := Prod.mk.inj (Except.ok.inj (hr'.symm.trans hr))
    refine ⟨fun pre e post heq => ?_, fun pre e mid e' post heq hclass hpassed => ?_⟩
    · have he : e ∈ s.servingOrder := heq ▸ List.mem_append_right _ List.mem_cons_self
      exact (hshared.charged_iff h hlt heq).1 (hdist.charged e (mem_servingOrder he))
    · have heq' : s.servingOrder = (pre ++ e :: mid) ++ e' :: post := by
        rw [heq, List.append_assoc, List.cons_append]
      have he : e ∈ s.servingOrder := heq ▸ List.mem_append_right _ List.mem_cons_self
      have he' : e' ∈ s.servingOrder := heq' ▸ List.mem_append_right _ List.mem_cons_self
      by_contra hne
      have hzero := hdist.priority e (mem_servingOrder he) e' (mem_servingOrder he') hclass
        hpassed.1 (by rw [hshared.scheduled_eq heq']; exact Nat.pos_of_ne_zero hne)
      rw [hshared.bytes_eq heq, LcgBacklog.bytesAfter, if_pos hpassed.share_eq_zero] at hzero
      exact hpassed.2.1 hzero
  · intro hfit
    refine ⟨_, r, hr, ?_, ?_, ?_⟩
    · exact Nat.le.intro hshared.total
    · intro e he e' he' hclass hdir hpos
      have hin : e' ∈ s.servingOrder := by
        by_contra hnot
        rw [(hshared.untouched h he' hnot).1] at hpos
        exact absurd hpos (Nat.lt_irrefl 0)
      obtain ⟨pre', post, heq'⟩ := List.append_of_mem hin
      obtain ⟨pre, mid, rfl⟩ := exists_before he heq' hclass
      have heq : s.servingOrder = pre ++ e :: (mid ++ e' :: post) := by
        rw [heq', List.append_assoc, List.cons_append]
      rw [hshared.scheduled_eq heq'] at hpos
      rw [hshared.bytes_eq heq]
      by_contra hbytes
      have hnone := LcgBacklog.nothing_left hdir (fun hpassed =>
        Nat.ne_of_gt hpos (hfit.passed pre e mid e' post heq hclass hpassed)) hbytes
      -- so nothing is left for `e'`
      have hle : (s.leftAt grantDir availableBytes (pre ++ e :: mid)).availableBytes ≤
          ((s.backlog grantDir).after (s.leftAt grantDir availableBytes pre) e).availableBytes := by
        rw [leftAt, LcgBacklog.leftAfter_append]
        exact LcgBacklog.leftAfter_le _ mid
      have hshare := LcgBacklog.share_le (B := s.backlog grantDir)
        (l := s.leftAt grantDir availableBytes (pre ++ e :: mid)) (e := e')
      omega
    · intro e he
      by_cases hin : e ∈ s.servingOrder
      · obtain ⟨pre, post, heq⟩ := List.append_of_mem hin
        exact (hshared.charged_iff h hlt heq).2 (hfit.fits pre e post heq)
      · obtain ⟨hzero, hbytes⟩ := hshared.untouched h he hin
        rw [hzero, Nat.zero_sub, Nat.add_zero, LcgBacklog.occupancy, LcgBacklog.occupancy, hbytes]

/-- They are, if the grant is less than `2 ^ 31` bytes and no connection has about `2 ^ 32`. -/
theorem sharesFit_of_lt (hgrant : availableBytes < 2147483648)
    (hbytes : ∀ e ∈ s.lcgMap, (s.backlog grantDir).bytes e < 4294967292) :
    s.SharesFit grantDir availableBytes := by
  have hheaders : ∀ l e, (s.backlog grantDir).headers l e ≤ 4 := fun l e =>
    Nat.add_le_add (backlog_rlcHeader_le s grantDir e) (LcgBacklog.macHeader_le l.firstSdu)
  have hocc : ∀ e ∈ s.servingOrder,
      (s.backlog grantDir).occupancy e = (s.backlog grantDir).bytes e := fun e he =>
    u32_of_lt (by have := hbytes e (mem_servingOrder he); omega)
  constructor
  · intro pre e post heq hpos
    have he : e ∈ s.servingOrder := heq ▸ List.mem_append_right _ List.mem_cons_self
    have hb := hbytes e (mem_servingOrder he)
    have hh := hheaders (s.leftAt grantDir availableBytes pre) e
    have hl : (s.leftAt grantDir availableBytes pre).availableBytes ≤ availableBytes :=
      LcgBacklog.leftAfter_le _ _
    split
    · rw [hocc e he]
      omega
    · omega
  · rintro pre e mid e' post heq - ⟨-, hne, hpassed⟩
    have he : e ∈ s.servingOrder := heq ▸ List.mem_append_right _ List.mem_cons_self
    have hb := hbytes e (mem_servingOrder he)
    have hh := hheaders (s.leftAt grantDir availableBytes pre) e
    rw [LcgBacklog.toServe, hocc e he, u32_of_lt (by omega)] at hpassed
    omega

/-- The descriptor of an uplink connection. -/
def uplinkInfo (lcid : LogicalCid) : ConnectionInfo where
  sourceId := 1025
  destId := 1
  lcid := lcid
  direction := some .UL
  traffic := 3
  rlcType := .UM

/-- Two connections of different classes with some packets. -/
def twoBacklogs (q q' : VirtualBuffer) : UeTables where
  heap := (Heap.empty.alloc q).alloc q'
  macBuffers := [(1, 0), (2, 1)]
  lcgMap := [⟨3, 1, 0⟩, ⟨0, 2, 1⟩]
  connDesc := [(1, uplinkInfo 1), (2, uplinkInfo 2)]

theorem twoBacklogs_schedulable {q q' : VirtualBuffer} (hq : q.Nonneg) (hq' : q'.Nonneg) :
    (twoBacklogs q q').Schedulable where
  nodup := by
    change ([1, 2] : List ℕ).Nodup
    decide
  own := by
    change ∀ e ∈ ([⟨3, 1, 0⟩, ⟨0, 2, 1⟩] : List LcgPair),
      ∀ e' ∈ ([⟨3, 1, 0⟩, ⟨0, 2, 1⟩] : List LcgPair), e.buffer = e'.buffer → e.cid = e'.cid
    decide
  alive := by
    intro e he
    rcases List.mem_pair.1 he with rfl | rfl
    · exact ⟨q, rfl, hq⟩
    · exact ⟨q', rfl, hq'⟩
  desc := by
    intro e he
    rcases List.mem_pair.1 he with rfl | rfl
    · exact ⟨_, rfl⟩
    · exact ⟨_, rfl⟩

theorem distributed_two :
    ∃ s' r, (twoBacklogs [80] [100, 50]).schedule 200 (some .UL) = .ok (s', r) ∧
      (twoBacklogs [80] [100, 50]).Distributed (some .UL) 200 s' r :=
  (distributed_iff (twoBacklogs_schedulable (by decide) (by decide)) (by decide)).2
    (sharesFit_of_lt (by decide) (by decide))

/-- With nearly `2 ^ 32` bytes in its buffer and the headers a connection asks for two bytes, gets
them and loses the whole buffer. -/
theorem backlog_wraps :
    ¬∃ s' r, (twoBacklogs [] [2147483647, 2147483647]).schedule 100 (some .UL) = .ok (s', r) ∧
      (twoBacklogs [] [2147483647, 2147483647]).Distributed (some .UL) 100 s' r := by
  rintro ⟨s', r, hr, hdist⟩
  have hrun : ((twoBacklogs [] [2147483647, 2147483647]).schedule 100 (some .UL)).map (fun r =>
      ((r.1.backlog (some .UL)).occupancy ⟨0, 2, 1⟩, r.2.scheduled 2)) = .ok (0, 2) := by decide
  have hbefore : ((twoBacklogs [] [2147483647, 2147483647]).backlog (some .UL)).occupancy
      ⟨0, 2, 1⟩ = 4294967294 := by decide
  rw [hr] at hrun
  obtain ⟨hafter, hscheduled⟩ := Prod.mk.inj (Except.ok.inj hrun)
  have hcharged := hdist.charged ⟨0, 2, 1⟩ (by decide)
  dsimp only at hafter hscheduled hcharged
  rw [hbefore, hafter, hscheduled] at hcharged
  omega

end UeTables

end V2nLte
