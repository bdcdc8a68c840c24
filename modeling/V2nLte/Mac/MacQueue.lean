import Mathlib.Algebra.Order.BigOperators.Group.List
import Mathlib.Algebra.Order.Ring.Nat
import Mathlib.Data.List.Range
import V2nLte.Machine.Basic
import V2nLte.Machine.Word

/-!
# Fragments in the MAC queue

`LteMacQueue` takes a packet if the queue stays below its size.  A fragment of an RLC AM packet is
taken only if all the fragments that are left would fit, counted at the length of this one, and if
no fragment of the same packet has just been rejected; the number of the packet that was rejected
last is kept.

* `LteMacQueue.admitted` : the fragments of a packet are taken all or none, and when they are taken
  into an empty queue.
* `LteMacQueue.retransmission_blocked` : a packet that has been rejected is rejected again, although
  the queue is empty.
-/

namespace V2nLte

/-- What the queue reads of an `LteRlcAmPdu`. -/
structure AmFragment where
  /-- The number of fragments of the packet. -/
  totalFragments : ℕ
  /-- The sequence number of this one. -/
  snoFragment : ℕ
  /-- The sequence number of the packet. -/
  snoMainPacket : ℕ
  /-- The sequence number of its last fragment. -/
  lastSn : ℤ
  deriving DecidableEq

/-- A packet for the queue; `am` is there if its first chunk is an `LteRlcAmPdu`. -/
structure MacSdu where
  /-- The length. -/
  byteLength : ℕ
  /-- The header of the chunk. -/
  am : Option AmFragment := none
  deriving DecidableEq

/-- `LteMacQueue`. -/
structure LteMacQueue where
  /-- The limit in bytes, `0` for none. -/
  queueSize : ℕ
  /-- The packets, the oldest first. -/
  packets : List MacSdu := []
  /-- `UINT_MAX` at first. -/
  lastUnenqueueableMainSno : ℕ := 4294967295
  deriving DecidableEq

/-- `remainingFrags`, computed with unsigned numbers and stored as an `int`. -/
def AmFragment.remainingFrags (f : AmFragment) : ℤ :=
  i32 (sub32 (ofInt32 f.lastSn) f.snoFragment + 1)

/-- The number of the packet that this is one of several fragments of. -/
def MacSdu.mainOfFragment (pkt : MacSdu) : Option ℕ :=
  match pkt.am with
  | some f => if 1 < f.totalFragments then some f.snoMainPacket else none
  | none => none

namespace LteMacQueue

variable (q : LteMacQueue)

/-- `getByteLength`. -/
def byteLength : ℕ := (q.packets.map MacSdu.byteLength).sum

/-- `isEnqueueablePacket`. -/
def isEnqueueablePacket (pkt : MacSdu) : LteMacQueue × Bool :=
  if q.queueSize = 0 then (q, true)
  else
    let fits := decide (pkt.byteLength + q.byteLength < q.queueSize)
    match pkt.am with
    | some pdu =>
      if 1 < pdu.totalFragments then
        let allFragsWillFit :=
          decide (pdu.remainingFrags * pkt.byteLength + q.byteLength < q.queueSize)
        let enqueable :=
          decide (pdu.snoMainPacket ≠ q.lastUnenqueueableMainSno) && allFragsWillFit
        (if enqueable then q else { q with lastUnenqueueableMainSno := pdu.snoMainPacket },
          enqueable)
      else (q, fits)
    | none => (q, fits)

/-- Add a packet at the end, if the queue takes it. -/
def pushBack (pkt : MacSdu) : LteMacQueue × Bool :=
  let (q, enqueable) := q.isEnqueueablePacket pkt
  (if enqueable then { q with packets := q.packets ++ [pkt] } else q, enqueable)

/-- It is inserted before the front, which there has to be. -/
def pushFront (pkt : MacSdu) : Option (LteMacQueue × Bool) :=
  let (q, enqueable) := q.isEnqueueablePacket pkt
  if !enqueable then some (q, false)
  else if q.packets = [] then none
  else some ({ q with packets := pkt :: q.packets }, true)

/-- Take out the first packet. -/
def popFront : LteMacQueue := { q with packets := q.packets.tail }

/-- Take out the last packet. -/
def popBack : LteMacQueue := { q with packets := q.packets.dropLast }

/-- What can happen to the queue. -/
inductive Event where
  | pushBack (pkt : MacSdu)
  | pushFront (pkt : MacSdu)
  | popFront
  | popBack
  deriving DecidableEq

/-- The queue as a machine; it puts out which packets it takes. -/
def machine : Machine LteMacQueue Event (MacSdu × Bool) where
  step q
    | .pushBack pkt => some ((q.pushBack pkt).1, [(pkt, (q.pushBack pkt).2)])
    | .pushFront pkt => (q.pushFront pkt).map fun r => (r.1, [(pkt, r.2)])
    | .popFront => some (q.popFront, [])
    | .popBack => some (q.popBack, [])

end LteMacQueue

/-! ### A packet and its fragments -/

/-- A packet that is sent in `count` fragments, with the sequence numbers from `first` on.  All of
them have the length `length` except for the last one. -/
structure AmPacket where
  /-- The sequence number of the packet. -/
  snoMainPacket : ℕ
  /-- The sequence number of its first fragment. -/
  firstSn : ℕ
  /-- The number of its fragments. -/
  count : ℕ
  /-- The length of the fragments before the last. -/
  length : ℕ
  /-- The length of the last fragment. -/
  lastLength : ℕ
  /-- There is a fragment. -/
  pos : 0 < count
  /-- The last one is not longer than the others. -/
  lastLength_le : lastLength ≤ length
  /-- The number of fragments is an `int`. -/
  count_lt : count < 2147483648

namespace AmPacket

variable (p : AmPacket)

/-- The `i`-th fragment. -/
def fragment (i : ℕ) : MacSdu where
  byteLength := if i + 1 = p.count then p.lastLength else p.length
  am := some {
    totalFragments := p.count
    snoFragment := u32 (p.firstSn + i)
    snoMainPacket := p.snoMainPacket
    lastSn := i32 (p.firstSn + p.count - 1) }

/-- The fragments from the `i`-th on. -/
def fragmentsFrom (i : ℕ) : List MacSdu := (List.range' i (p.count - i)).map p.fragment

/-- The fragments of the packet, in their order. -/
def fragments : List MacSdu := p.fragmentsFrom 0

variable {p} {i : ℕ}

/-- The sequence numbers are unsigned, but the number of the fragments left is not affected when
they begin again at `0`. -/
theorem remainingFrags_eq (hi : i < p.count) {f : AmFragment} (hf : (p.fragment i).am = some f) :
    f.remainingFrags = (p.count - i : ℕ) := by
  obtain rfl := Option.some.inj hf
  have hcount := p.count_lt
  simp only [AmFragment.remainingFrags, sub32, i32, ofInt32, u32]
  split_ifs <;> omega

theorem fragmentsFrom_cons (hi : i < p.count) :
    p.fragmentsFrom i = p.fragment i :: p.fragmentsFrom (i + 1) := by
  obtain ⟨n, hn⟩ : ∃ n, p.count - i = n + 1 := ⟨p.count - i - 1, by omega⟩
  rw [fragmentsFrom, fragmentsFrom, hn, List.range'_succ, List.map_cons,
    show p.count - (i + 1) = n by omega]

theorem fragmentsFrom_of_le (hi : p.count ≤ i) : p.fragmentsFrom i = [] := by
  rw [fragmentsFrom, Nat.sub_eq_zero_of_le hi]
  rfl

theorem byteLength_fragment_le (i : ℕ) : (p.fragment i).byteLength ≤ p.length := by
  dsimp only [fragment]
  split
  · exact p.lastLength_le
  · exact Nat.le_refl _

end AmPacket

namespace LteMacQueue

/-- The packets are pushed one after another, with pops in between. -/
inductive Interleaving : List MacSdu → List Event → Prop
  | nil : Interleaving [] []
  | push {pkt : MacSdu} {pkts : List MacSdu} {es : List Event} :
      Interleaving pkts es → Interleaving (pkt :: pkts) (.pushBack pkt :: es)
  | popFront {pkts : List MacSdu} {es : List Event} :
      Interleaving pkts es → Interleaving pkts (.popFront :: es)
  | popBack {pkts : List MacSdu} {es : List Event} :
      Interleaving pkts es → Interleaving pkts (.popBack :: es)

/-- The fragments are taken into an empty queue. -/
def Admissible (q : LteMacQueue) (p : AmPacket) : Prop :=
  p.count * (p.fragment 0).byteLength < q.queueSize ∧
    (1 < p.count → p.snoMainPacket ≠ q.lastUnenqueueableMainSno)

/-- The number of the packet that has been rejected last, after the answer `r`. -/
def remember (last : ℕ) (r : MacSdu × Bool) : ℕ :=
  match r.2, r.1.mainOfFragment with
  | false, some main => main
  | _, _ => last

/-- The packet that was the last of which one of several fragments was rejected. -/
def lastRejected (os : List (MacSdu × Bool)) : ℕ := os.foldl remember 4294967295

variable {q : LteMacQueue} {p : AmPacket} {i : ℕ} {pkts : List MacSdu} {es : List Event}

@[simp] theorem queueSize_popFront (q : LteMacQueue) : q.popFront.queueSize = q.queueSize := rfl

@[simp] theorem queueSize_popBack (q : LteMacQueue) : q.popBack.queueSize = q.queueSize := rfl

@[simp] theorem last_popFront (q : LteMacQueue) :
    q.popFront.lastUnenqueueableMainSno = q.lastUnenqueueableMainSno := rfl

@[simp] theorem last_popBack (q : LteMacQueue) :
    q.popBack.lastUnenqueueableMainSno = q.lastUnenqueueableMainSno := rfl

theorem byteLength_popFront_le (q : LteMacQueue) : q.popFront.byteLength ≤ q.byteLength :=
  ((List.tail_sublist q.packets).map MacSdu.byteLength).sum_le_sum fun _ _ => Nat.zero_le _

theorem byteLength_popBack_le (q : LteMacQueue) : q.popBack.byteLength ≤ q.byteLength :=
  ((List.dropLast_sublist q.packets).map MacSdu.byteLength).sum_le_sum fun _ _ => Nat.zero_le _

/-- The queue with one packet more. -/
def append (q : LteMacQueue) (pkt : MacSdu) : LteMacQueue :=
  { q with packets := q.packets ++ [pkt] }

theorem byteLength_append (q : LteMacQueue) (pkt : MacSdu) :
    (q.append pkt).byteLength = q.byteLength + pkt.byteLength := by
  simp [append, byteLength]

/-- `pushBack` for one of several fragments. -/
theorem pushBack_fragment (hq : 0 < q.queueSize) (hcount : 1 < p.count) (hi : i < p.count) :
    q.pushBack (p.fragment i) =
      if p.snoMainPacket ≠ q.lastUnenqueueableMainSno ∧
          (p.count - i) * (p.fragment i).byteLength + q.byteLength < q.queueSize then
        (q.append (p.fragment i), true)
      else ({ q with lastUnenqueueableMainSno := p.snoMainPacket }, false) := by
  obtain ⟨f, hf⟩ : ∃ f, (p.fragment i).am = some f := ⟨_, rfl⟩
  have hmain : f.snoMainPacket = p.snoMainPacket := by
    obtain rfl := Option.some.inj hf
    rfl
  have htotal : 1 < f.totalFragments := by
    obtain rfl := Option.some.inj hf
    exact hcount
  have hfit : f.remainingFrags * ((p.fragment i).byteLength : ℤ) + (q.byteLength : ℤ) <
      (q.queueSize : ℤ) ↔
      (p.count - i) * (p.fragment i).byteLength + q.byteLength < q.queueSize := by
    rw [AmPacket.remainingFrags_eq hi hf]
    exact_mod_cast Iff.rfl
  simp only [pushBack, isEnqueueablePacket, hf, if_neg hq.ne', if_pos htotal, hmain, hfit]
  rw [← Bool.decide_and]
  by_cases h : p.snoMainPacket ≠ q.lastUnenqueueableMainSno ∧
      (p.count - i) * (p.fragment i).byteLength + q.byteLength < q.queueSize
  · simp only [decide_eq_true h, if_true, if_pos h, append]
  · simp only [decide_eq_false h, Bool.false_eq_true, if_false, if_neg h]

section

variable {q₁ q' : LteMacQueue} {os : List (MacSdu × Bool)} {pkt : MacSdu} {b : Bool}

theorem exec_pushBack (hpush : q.pushBack pkt = (q₁, b))
    (hex : machine.exec q₁ es = some (q', os)) :
    machine.exec q (.pushBack pkt :: es) = some (q', (pkt, b) :: os) := by
  refine Machine.exec_cons_eq_some.2 ⟨q₁, [(pkt, b)], os, ?_, hex, rfl⟩
  dsimp only [machine]
  rw [hpush]

theorem exec_popFront (hex : machine.exec q.popFront es = some (q', os)) :
    machine.exec q (.popFront :: es) = some (q', os) :=
  Machine.exec_cons_eq_some.2 ⟨q.popFront, [], os, rfl, hex, rfl⟩

theorem exec_popBack (hex : machine.exec q.popBack es = some (q', os)) :
    machine.exec q (.popBack :: es) = some (q', os) :=
  Machine.exec_cons_eq_some.2 ⟨q.popBack, [], os, rfl, hex, rfl⟩

end

theorem exec_pops (h : Interleaving [] es) (q : LteMacQueue) :
    ∃ q', machine.exec q es = some (q', []) := by
  generalize hpkts : ([] : List MacSdu) = pkts at h
  induction h generalizing q with
  | nil => exact ⟨q, rfl⟩
  | push _ _ => cases hpkts
  | popFront _ ih =>
    obtain ⟨q', hex⟩ := ih q.popFront hpkts
    exact ⟨q', exec_popFront hex⟩
  | popBack _ ih =>
    obtain ⟨q', hex⟩ := ih q.popBack hpkts
    exact ⟨q', exec_popBack hex⟩

/-- **The rule for the rest of a packet.**  All its fragments meet the same fate if an invariant of
the queue decides it, which the pushes carry on and which no pop destroys. -/
theorem exec_rest {taken : Bool} {I : ℕ → LteMacQueue → Prop}
    (hpush : ∀ i q, i < p.count → I i q →
      ∃ q₁, q.pushBack (p.fragment i) = (q₁, taken) ∧ I (i + 1) q₁)
    (hfront : ∀ i q, I i q → I i q.popFront) (hback : ∀ i q, I i q → I i q.popBack)
    (h : Interleaving (p.fragmentsFrom i) es) (hI : I i q) :
    ∃ q', machine.exec q es = some (q', (p.fragmentsFrom i).map (·, taken)) := by
  generalize hpkts : p.fragmentsFrom i = pkts at h ⊢
  induction h generalizing q i with
  | nil => exact ⟨q, rfl⟩
  | @push pkt pkts es _ ih =>
    have hi : i < p.count := by
      by_contra hle
      rw [AmPacket.fragmentsFrom_of_le (not_lt.1 hle)] at hpkts
      cases hpkts
    rw [AmPacket.fragmentsFrom_cons hi] at hpkts
    obtain ⟨rfl, hrest⟩ := List.cons.inj hpkts
    obtain ⟨q₁, hq₁, hI₁⟩ := hpush i q hi hI
    obtain ⟨q', hex⟩ := ih hI₁ hrest
    exact ⟨q', exec_pushBack hq₁ hex⟩
  | popFront _ ih =>
    obtain ⟨q', hex⟩ := ih (hfront i q hI) hpkts
    exact ⟨q', exec_popFront hex⟩
  | popBack _ ih =>
    obtain ⟨q', hex⟩ := ih (hback i q hI) hpkts
    exact ⟨q', exec_popBack hex⟩

/-- After a fragment has been taken, so are those that follow it: what is left of the packet never
takes more room than has been checked. -/
theorem exec_taken (hcount : 1 < p.count) (h : Interleaving (p.fragmentsFrom i) es)
    (hq : 0 < q.queueSize) (hmain : p.snoMainPacket ≠ q.lastUnenqueueableMainSno)
    (hroom : (p.count - i) * p.length + q.byteLength < q.queueSize) :
    ∃ q', machine.exec q es = some (q', (p.fragmentsFrom i).map (·, true)) := by
  refine exec_rest (I := fun i q => 0 < q.queueSize ∧
    p.snoMainPacket ≠ q.lastUnenqueueableMainSno ∧
    (p.count - i) * p.length + q.byteLength < q.queueSize) ?_ ?_ ?_ h ⟨hq, hmain, hroom⟩
  · rintro i q hi ⟨hq, hmain, hroom⟩
    have hle := AmPacket.byteLength_fragment_le (p := p) i
    have hfit : (p.count - i) * (p.fragment i).byteLength ≤ (p.count - i) * p.length :=
      Nat.mul_le_mul_left _ hle
    have hpush := pushBack_fragment hq hcount hi
    rw [if_pos ⟨hmain, by omega⟩] at hpush
    have hmul : (p.count - i) * p.length = (p.count - (i + 1)) * p.length + p.length := by
      rw [show p.count - i = (p.count - (i + 1)) + 1 by omega, Nat.succ_mul]
    refine ⟨q.append (p.fragment i), hpush, hq, hmain, ?_⟩
    rw [byteLength_append]
    change _ < q.queueSize
    omega
  · rintro i q ⟨hq, hmain, hroom⟩
    have hle := byteLength_popFront_le q
    exact ⟨hq, hmain, lt_of_le_of_lt (by omega) hroom⟩
  · rintro i q ⟨hq, hmain, hroom⟩
    have hle := byteLength_popBack_le q
    exact ⟨hq, hmain, lt_of_le_of_lt (by omega) hroom⟩

/-- After a fragment has been rejected, so are those that follow it. -/
theorem exec_rejected (hcount : 1 < p.count) (h : Interleaving (p.fragmentsFrom i) es)
    (hq : 0 < q.queueSize) (hmain : p.snoMainPacket = q.lastUnenqueueableMainSno) :
    ∃ q', machine.exec q es = some (q', (p.fragmentsFrom i).map (·, false)) := by
  refine exec_rest (I := fun _ q => 0 < q.queueSize ∧
    p.snoMainPacket = q.lastUnenqueueableMainSno) ?_ (fun _ _ hI => hI) (fun _ _ hI => hI) h
    ⟨hq, hmain⟩
  rintro i q hi ⟨hq, hmain⟩
  have hpush := pushBack_fragment hq hcount hi
  rw [if_neg fun h => h.1 hmain] at hpush
  exact ⟨_, hpush, hq, rfl⟩

/-- `pushBack` for a packet in one fragment. -/
theorem pushBack_single (hq : 0 < q.queueSize) (hcount : p.count = 1) :
    q.pushBack (p.fragment 0) =
      if (p.fragment 0).byteLength + q.byteLength < q.queueSize then
        (q.append (p.fragment 0), true)
      else (q, false) := by
  obtain ⟨f, hf⟩ : ∃ f, (p.fragment 0).am = some f := ⟨_, rfl⟩
  have htotal : ¬1 < f.totalFragments := by
    obtain rfl := Option.some.inj hf
    exact hcount.symm ▸ Nat.lt_irrefl 1
  simp only [pushBack, isEnqueueablePacket, hf, if_neg hq.ne', if_neg htotal]
  by_cases h : (p.fragment 0).byteLength + q.byteLength < q.queueSize
  · simp only [decide_eq_true h, if_true, if_pos h, append]
  · simp only [decide_eq_false h, Bool.false_eq_true, if_false, if_neg h]

/-- The first of several fragments decides. -/
theorem exec_first (hcount : 1 < p.count) (hes : Interleaving (p.fragmentsFrom 1) es)
    (hq : 0 < q.queueSize) :
    ∃ q' taken, machine.exec q (.pushBack (p.fragment 0) :: es) =
        some (q', (p.fragment 0 :: p.fragmentsFrom 1).map (·, taken)) ∧
      (q.packets = [] → (taken = true ↔ q.Admissible p)) := by
  have hempty : q.packets = [] → q.byteLength = 0 := fun h => by rw [byteLength, h]; rfl
  have hpush := pushBack_fragment hq hcount p.pos
  have hfirst : (p.fragment 0).byteLength = p.length := if_neg (by omega)
  rw [Nat.sub_zero] at hpush
  by_cases h : p.snoMainPacket ≠ q.lastUnenqueueableMainSno ∧
      p.count * (p.fragment 0).byteLength + q.byteLength < q.queueSize
  · rw [if_pos h] at hpush
    have hmul : p.count * p.length = (p.count - 1) * p.length + p.length := by
      rw [← Nat.succ_mul, Nat.succ_eq_add_one, Nat.sub_add_cancel p.pos]
    obtain ⟨hmain, hroom⟩ := h
    have hrest : (p.count - 1) * p.length + (q.append (p.fragment 0)).byteLength <
        (q.append (p.fragment 0)).queueSize := by
      rw [hfirst] at hroom
      rw [byteLength_append, hfirst]
      change _ < q.queueSize
      omega
    obtain ⟨q', hex⟩ := exec_taken (q := q.append (p.fragment 0)) hcount hes hq hmain hrest
    refine ⟨q', true, exec_pushBack hpush hex, fun h₀ => iff_of_true rfl ⟨?_, fun _ => hmain⟩⟩
    rwa [hempty h₀, Nat.add_zero] at hroom
  · rw [if_neg h] at hpush
    obtain ⟨q', hex⟩ := exec_rejected
      (q := { q with lastUnenqueueableMainSno := p.snoMainPacket }) hcount hes hq rfl
    refine ⟨q', false, exec_pushBack hpush hex, fun h₀ => iff_of_false Bool.false_ne_true ?_⟩
    rintro ⟨hroom, hmain⟩
    exact h ⟨hmain hcount, by rwa [hempty h₀, Nat.add_zero]⟩

/-- So does the only one. -/
theorem exec_single (hone : p.count = 1) (hes : Interleaving [] es) (hq : 0 < q.queueSize) :
    ∃ q' taken, machine.exec q (.pushBack (p.fragment 0) :: es) =
        some (q', [(p.fragment 0, taken)]) ∧
      (q.packets = [] → (taken = true ↔ q.Admissible p)) := by
  have hempty : q.packets = [] → q.byteLength = 0 := fun h => by rw [byteLength, h]; rfl
  have hpush := pushBack_single hq hone
  by_cases h : (p.fragment 0).byteLength + q.byteLength < q.queueSize
  · rw [if_pos h] at hpush
    obtain ⟨q', hex⟩ := exec_pops hes (q.append (p.fragment 0))
    refine ⟨q', true, exec_pushBack hpush hex, fun h₀ => iff_of_true rfl ⟨?_, fun h => ?_⟩⟩
    · rwa [hempty h₀, Nat.add_zero, ← Nat.one_mul (p.fragment 0).byteLength, ← hone] at h
    · exact absurd h (by omega)
  · rw [if_neg h] at hpush
    obtain ⟨q', hex⟩ := exec_pops hes q
    refine ⟨q', false, exec_pushBack hpush hex, fun h₀ => iff_of_false Bool.false_ne_true ?_⟩
    rintro ⟨hroom, -⟩
    rw [hone, Nat.one_mul] at hroom
    exact h (by rwa [hempty h₀, Nat.add_zero])

/-- The fate of the first fragment is that of all. -/
theorem exec_fragments (h : Interleaving p.fragments es) (hq : 0 < q.queueSize) :
    ∃ q' taken, machine.exec q es = some (q', p.fragments.map (·, taken)) ∧
      (q.packets = [] → (taken = true ↔ q.Admissible p)) := by
  generalize hpkts : p.fragments = pkts at h ⊢
  induction h generalizing q with
  | nil =>
    rw [AmPacket.fragments, AmPacket.fragmentsFrom_cons p.pos] at hpkts
    cases hpkts
  | @push pkt pkts es hes _ =>
    rw [AmPacket.fragments, AmPacket.fragmentsFrom_cons p.pos] at hpkts
    obtain ⟨rfl, rfl⟩ := List.cons.inj hpkts
    rcases Nat.lt_or_ge 1 p.count with hcount | hcount
    · exact exec_first hcount hes hq
    · rw [AmPacket.fragmentsFrom_of_le hcount] at hes ⊢
      exact exec_single (Nat.le_antisymm hcount p.pos) hes hq
  | popFront _ ih =>
    obtain ⟨q', taken, hex, hiff⟩ := ih (q := q.popFront) hq hpkts
    refine ⟨q', taken, exec_popFront hex, fun h₀ => hiff ?_⟩
    rw [popFront, h₀]
    rfl
  | popBack _ ih =>
    obtain ⟨q', taken, hex, hiff⟩ := ih (q := q.popBack) hq hpkts
    refine ⟨q', taken, exec_popBack hex, fun h₀ => hiff ?_⟩
    rw [popBack, h₀]
    rfl

theorem last_isEnqueueablePacket (q : LteMacQueue) (pkt : MacSdu) :
    (q.isEnqueueablePacket pkt).1.lastUnenqueueableMainSno =
      remember q.lastUnenqueueableMainSno (pkt, (q.isEnqueueablePacket pkt).2) := by
  have hplain : pkt.mainOfFragment = none → ∀ b,
      remember q.lastUnenqueueableMainSno (pkt, b) = q.lastUnenqueueableMainSno := by
    intro h b
    cases b <;> simp [remember, h]
  unfold isEnqueueablePacket
  split
  · rfl
  · dsimp only
    split
    · rename_i pdu hpdu
      split
      · rename_i htotal
        have hmain : pkt.mainOfFragment = some pdu.snoMainPacket := by
          rw [MacSdu.mainOfFragment, hpdu]
          exact if_pos htotal
        dsimp only
        split
        · rename_i htaken
          simp only [remember, htaken]
        · rename_i hrejected
          simp only [remember, Bool.eq_false_iff.2 hrejected, hmain]
      · rename_i htotal
        refine (hplain ?_ _).symm
        rw [MacSdu.mainOfFragment, hpdu]
        exact if_neg htotal
    · rename_i hpdu
      refine (hplain ?_ _).symm
      rw [MacSdu.mainOfFragment, hpdu]

theorem last_step {e : Event} {q' : LteMacQueue} {o : List (MacSdu × Bool)}
    (hst : machine.step q e = some (q', o)) :
    q'.lastUnenqueueableMainSno = o.foldl remember q.lastUnenqueueableMainSno := by
  cases e with
  | pushBack pkt =>
    obtain ⟨rfl, rfl⟩ := Prod.mk.inj (Option.some.inj hst)
    refine Eq.trans ?_ (last_isEnqueueablePacket q pkt)
    dsimp only [pushBack]
    split <;> rfl
  | pushFront pkt =>
    obtain ⟨⟨q₁, b⟩, hpush, heq⟩ := Option.map_eq_some_iff.1 hst
    obtain ⟨rfl, rfl⟩ := Prod.mk.inj heq
    have hlast := last_isEnqueueablePacket q pkt
    dsimp only [pushFront] at hpush
    split at hpush
    · rename_i hrejected
      obtain ⟨rfl, rfl⟩ := Prod.mk.inj (Option.some.inj hpush)
      rw [hlast]
      simp only [List.foldl_cons, List.foldl_nil]
      rw [show (q.isEnqueueablePacket pkt).2 = false by simpa using hrejected]
    · rename_i htaken
      split at hpush
      · cases hpush
      · obtain ⟨rfl, rfl⟩ := Prod.mk.inj (Option.some.inj hpush)
        rw [show (q.isEnqueueablePacket pkt).2 = true by simpa using htaken] at hlast
        exact hlast
  | popFront =>
    obtain ⟨rfl, rfl⟩ := Prod.mk.inj (Option.some.inj hst)
    rfl
  | popBack =>
    obtain ⟨rfl, rfl⟩ := Prod.mk.inj (Option.some.inj hst)
    rfl

theorem last_of_run {queueSize : ℕ} {os : List (MacSdu × Bool)}
    (h : machine.exec ⟨queueSize, [], 4294967295⟩ es = some (q, os)) :
    q.lastUnenqueueableMainSno = lastRejected os := by
  refine Machine.exec_induction (J := fun _ (q : LteMacQueue) os =>
    q.lastUnenqueueableMainSno = lastRejected os) rfl ?_ h
  intro es q os e q' o _ ih hst
  rw [lastRejected, List.foldl_append, last_step hst, ih]
  rfl

/-- **The fragments of a packet are taken all or none**, whatever the queue holds and however much
is taken out in between.  When they are pushed into an empty queue, they are taken iff they fit,
each counted at the length of the first one, and, if there are several, the packet is not the one
that has been rejected last. -/
theorem admitted (hq : 0 < q.queueSize) (p : AmPacket) (h : Interleaving p.fragments es) :
    ∃ q' taken, machine.exec q es = some (q', p.fragments.map (·, taken)) ∧
      (q.packets = [] → (taken = true ↔ q.Admissible p)) ∧
      ∀ es₀ os₀, machine.exec ⟨q.queueSize, [], 4294967295⟩ es₀ = some (q, os₀) →
        q.lastUnenqueueableMainSno = lastRejected os₀ := by
  obtain ⟨q', taken, hex, hiff⟩ := exec_fragments h hq
  exact ⟨q', taken, hex, hiff, fun es₀ os₀ h₀ => last_of_run h₀⟩

/-- A packet in two fragments of 30 bytes. -/
def twoFragments : AmPacket where
  snoMainPacket := 7
  firstSn := 4294967295
  count := 2
  length := 30
  lastLength := 30
  pos := by decide
  lastLength_le := by decide
  count_lt := two_lt_int

/-- Both are taken, although the packet before them is taken out in between. -/
theorem admitted_twoFragments : ∃ q',
    machine.exec ⟨100, [⟨20, none⟩], 4294967295⟩
      [.pushBack (twoFragments.fragment 0), .popFront, .pushBack (twoFragments.fragment 1)] =
        some (q', twoFragments.fragments.map (·, true)) := by
  obtain ⟨q', taken, hex, -, -⟩ := admitted (q := ⟨100, [⟨20, none⟩], 4294967295⟩) (by decide)
    twoFragments (.push (.popFront (.push .nil)))
  have hrun : (machine.exec ⟨100, [⟨20, none⟩], 4294967295⟩
      [.pushBack (twoFragments.fragment 0), .popFront, .pushBack (twoFragments.fragment 1)]).map
        Prod.snd = some (twoFragments.fragments.map (·, true)) := by decide
  cases taken with
  | true => exact ⟨q', hex⟩
  | false =>
    rw [hex, Option.map_some] at hrun
    have hbad : twoFragments.fragments.map (·, false) = twoFragments.fragments.map (·, true) :=
      Option.some.inj hrun
    exact absurd hbad (by decide)

/-- A packet of 80 bytes. -/
def shortEnd : AmPacket where
  snoMainPacket := 8
  firstSn := 0
  count := 2
  length := 60
  lastLength := 20
  pos := by decide
  lastLength_le := by decide
  count_lt := two_lt_int

/-- **A packet that has been rejected is rejected again**, although the queue is empty now and all
its fragments fit; and a packet that fits because its last fragment is short is rejected. -/
theorem retransmission_blocked :
    (∃ q, machine.exec ⟨100, [], 4294967295⟩ [.pushBack ⟨60, none⟩,
        .pushBack (twoFragments.fragment 0), .pushBack (twoFragments.fragment 1), .popFront] =
          some (q, [(⟨60, none⟩, true), (twoFragments.fragment 0, false),
            (twoFragments.fragment 1, false)]) ∧
      q.packets = [] ∧ (twoFragments.fragments.map MacSdu.byteLength).sum < q.queueSize ∧
      machine.exec q (twoFragments.fragments.map .pushBack) =
        some (q, twoFragments.fragments.map (·, false))) ∧
    (shortEnd.fragments.map MacSdu.byteLength).sum < 100 ∧
      (machine.exec ⟨100, [], 4294967295⟩ (shortEnd.fragments.map .pushBack)).map Prod.snd =
        some (shortEnd.fragments.map (·, false)) := by
  refine ⟨⟨⟨100, [], 7⟩, ?_, rfl, ?_, ?_⟩, ?_, ?_⟩ <;> decide

end LteMacQueue

end V2nLte
