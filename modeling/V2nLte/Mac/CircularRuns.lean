import Mathlib.Algebra.Order.Ring.Nat
import Mathlib.Data.List.Rotate
import Mathlib.Logic.Function.Iterate
import V2nLte.Mac.Circular
import V2nLte.Machine.Basic

/-!
# Runs of operations on circular lists

A scheduler keeps several `CircularList`s, which start empty, and copies them to each other between
its two phases.  Every operation is to leave rings, with a cursor that gets around all the elements.

* `Ring.tour` : moving on as often as there are elements visits each of them once and returns.
* `ringRun_iff` : the operations of a run keep their promises exactly if nothing is erased that is
  not there, no list is assigned to itself with its cursor off the first element, and the 32 bits
  of `size_` suffice.
-/

namespace V2nLte

variable {α : Type*}

namespace CircularList

/-- Moving on `size` times visits every element once and returns to the start. -/
structure Tour (l : CircularList α) : Prop where
  list_eq : ∀ n, (move^[n] l).list = l.list
  visits : ((List.range l.size).map fun n => (move^[n] l).cur).Perm (List.range l.list.length)
  returns : move^[l.size] l = l

/-- The same elements, with the cursor on the same one. -/
structure SameAs (l l' : CircularList α) : Prop where
  list_eq : l.list = l'.list
  size_eq : l.size = l'.size
  cur_eq : l'.list ≠ [] → l.cur = l'.cur

/-- `size_` is an unsigned number of 32 bits, and counting up wraps around. -/
def unsigned (l : CircularList α) : CircularList α := { l with size := l.size % 2 ^ 32 }

variable {l : CircularList α}

/-! ### Moving on -/

theorem move_eq_self (h : l.size = 0) : l.move = l := by
  rw [move, if_neg (by omega)]

theorem next_mod {n : ℕ} (hn : 0 < n) (i : ℕ) : next n (i % n) = (i + 1) % n := by
  have hlt : i % n < n := Nat.mod_lt i hn
  rw [next, ← Nat.mod_add_mod]
  split_ifs with hend
  · rw [hend, Nat.mod_self]
  · have hnext : i % n + 1 < n := by omega
    rw [Nat.mod_eq_of_lt hnext]

theorem Ring.move_iterate (h : l.Ring) (hne : l.list ≠ []) (n : ℕ) :
    CircularList.move^[n] l = { l with cur := (l.cur + n) % l.list.length } := by
  have hlt := h.cur_lt hne
  have hpos : 0 < l.list.length := List.length_pos_of_ne_nil hne
  induction n with
  | zero => rw [Function.iterate_zero, id, Nat.add_zero, Nat.mod_eq_of_lt hlt]
  | succ n ih =>
    have hsize : 0 < l.size := by rwa [h.size_eq]
    rw [Function.iterate_succ_apply', ih, CircularList.move, if_pos hsize,
      next_mod hpos, Nat.add_assoc]

/-- **The tour** around a ring. -/
theorem Ring.tour (h : l.Ring) : l.Tour := by
  rcases eq_or_ne l.list [] with hnil | hne
  · have hsize : l.size = 0 := by rw [h.size_eq, hnil, List.length_nil]
    have hfix : ∀ n, CircularList.move^[n] l = l := Function.iterate_fixed (move_eq_self hsize)
    exact {
      list_eq := fun n => by rw [hfix]
      visits := by rw [hsize, hnil]; exact .refl _
      returns := hfix _ }
  · have hlt := h.cur_lt hne
    exact {
      list_eq := fun n => by rw [h.move_iterate hne]
      visits := by
        have hrotate : ((List.range l.size).map fun n => (CircularList.move^[n] l).cur) =
            (List.range l.list.length).rotate l.cur := by
          refine List.ext_getElem (by simp [h.size_eq]) fun n h₁ h₂ => ?_
          rw [List.getElem_map, List.getElem_range, h.move_iterate hne, List.getElem_rotate,
            List.getElem_range, List.length_range, Nat.add_comm]
        rw [hrotate]
        exact List.rotate_perm _ _
      returns := by
        have hback : (l.cur + l.size) % l.list.length = l.cur := by
          rw [h.size_eq, Nat.add_mod_right, Nat.mod_eq_of_lt hlt]
        rw [h.move_iterate hne, hback] }

/-! ### The other operations -/

theorem Ring.insertFront (h : l.Ring) (t : α) : (l.insertFront t).Ring := by
  unfold CircularList.insertFront
  split <;> rename_i hs
  · refine ⟨?_, fun _ => ?_⟩
    · simp [h.size_eq]
    · show 0 < (l.list ++ [t]).length
      simp
  · have hlt := h.cur_lt_of_size hs
    refine ⟨?_, fun _ => ?_⟩
    · show l.size + 1 = (l.list.insertIdx (l.cur + 1) t).length
      rw [List.length_insertIdx_of_le_length hlt, h.size_eq]
    · show l.cur < (l.list.insertIdx (l.cur + 1) t).length
      rw [List.length_insertIdx_of_le_length hlt]
      omega

theorem Ring.rewind (h : l.Ring) : l.rewind.Ring :=
  ⟨h.size_eq, fun hne => List.length_pos_of_ne_nil hne⟩

theorem ring_clear (l : CircularList α) : l.clear.Ring := ⟨rfl, fun hne => absurd rfl hne⟩

theorem size_insert (l : CircularList α) (t : α) : (l.insert t).size = l.size + 1 := by
  unfold CircularList.insert
  split <;> rfl

theorem size_insertFront (l : CircularList α) (t : α) : (l.insertFront t).size = l.size + 1 := by
  unfold CircularList.insertFront
  split <;> rfl

theorem Ring.unsigned_iff (h : l.Ring) : l.unsigned.Ring ↔ l.size < 2 ^ 32 := by
  constructor
  · intro hu
    have hsize : l.size % 2 ^ 32 = l.list.length := hu.size_eq
    rw [h.size_eq] at hsize ⊢
    rw [← hsize]
    exact Nat.mod_lt _ (by decide)
  · intro hlt
    have hsize : l.unsigned.size = l.size := Nat.mod_eq_of_lt hlt
    exact ⟨hsize.trans h.size_eq, h.cur_lt⟩

theorem SameAs.ring {l' : CircularList α} (h : l'.SameAs l) (hl : l.Ring) : l'.Ring := by
  refine ⟨?_, fun hne => ?_⟩
  · rw [h.size_eq, hl.size_eq, h.list_eq]
  · rw [h.list_eq] at hne ⊢
    rw [h.cur_eq hne]
    exact hl.cur_lt hne

/-- The loop of a copy finds a cursor that is in the list or at its end. -/
theorem seek_eq {cur it : ℕ} {rest : List α} (hle : it ≤ cur) (hlt : cur ≤ it + rest.length) :
    seek cur it rest = some cur := by
  induction rest generalizing it with
  | nil =>
    have heq : it = cur := Nat.le_antisymm hle hlt
    rw [seek, if_pos heq, heq]
  | cons x rest ih =>
    rw [seek]
    split_ifs with heq
    · rw [heq]
    · rw [List.length_cons] at hlt
      exact ih (by omega) (by omega)

/-- **A copy** has the elements, and the cursor that the loop reads. -/
theorem Ring.copy (h : l.Ring) {cur : ℕ} (hcur : cur ≤ l.cur) :
    ∃ l', l.copy cur = some l' ∧ l'.list = l.list ∧ l'.size = l.size ∧
      (l.list ≠ [] → l'.cur = cur) := by
  rw [CircularList.copy]
  split_ifs with hsize
  · have hlt := h.cur_lt_of_size hsize
    rw [seek_eq (Nat.zero_le cur) (by omega)]
    exact ⟨_, rfl, rfl, rfl, fun _ => rfl⟩
  · refine ⟨_, rfl, rfl, rfl, fun hne => absurd ?_ hsize⟩
    rw [h.size_eq]
    exact (List.length_pos_of_ne_nil hne).ne'

end CircularList

/-! ### Runs -/

/-- An operation, on the list `i`. -/
inductive CircularOp (α : Type*)
  | insert (i : ℕ) (t : α)
  | insertFront (i : ℕ) (t : α)
  | erase (i : ℕ)
  | eraseElem (i : ℕ) (t : α)
  | move (i : ℕ)
  | rewind (i : ℕ)
  | clear (i : ℕ)
  /-- The copy constructor, with the list `j`. -/
  | construct (i j : ℕ)
  /-- The assignment of the list `j`, which may be the same one. -/
  | assign (i j : ℕ)

namespace CircularOp

/-- The list that is changed. -/
def target : CircularOp α → ℕ
  | insert i _ | insertFront i _ | erase i | eraseElem i _ | move i | rewind i | clear i
  | construct i _ | assign i _ => i

/-- What becomes of it; `none` is undefined behaviour.  An assignment has already put its own
cursor to the beginning when the loop reads the other one. -/
def result [DecidableEq α] (s : ℕ → CircularList α) : CircularOp α → Option (CircularList α)
  | insert i t => some ((s i).insert t).unsigned
  | insertFront i t => some ((s i).insertFront t).unsigned
  | erase i => some (s i).erase
  | eraseElem i t => (s i).eraseElem t
  | move i => some (s i).move
  | rewind i => some (s i).rewind
  | clear i => some (s i).clear
  | construct _ j => (s j).copy (s j).cur
  | assign i j => (s j).copy (if i = j then 0 else (s j).cur)

/-- No element is erased that is not there, a list is not assigned to itself unless its cursor is
at the beginning, and the count does not overflow. -/
def Allowed (s : ℕ → CircularList α) : CircularOp α → Prop
  | insert i _ | insertFront i _ => (s i).list.length + 1 < 2 ^ 32
  | eraseElem i t => (s i).list = [] ∨ t ∈ (s i).list
  | assign i j => i = j → (s i).list = [] ∨ (s i).cur = 0
  | erase _ | move _ | rewind _ | clear _ | construct _ _ => True

/-- What an operation promises. -/
structure Sound [DecidableEq α] (s : ℕ → CircularList α) (op : CircularOp α)
    (s' : ℕ → CircularList α) : Prop where
  rings : ∀ i, (s' i).Ring
  tours : ∀ i, (s' i).Tour
  others : ∀ i, i ≠ op.target → s' i = s i
  erased : ∀ i t, op = eraseElem i t →
    (s' i).list = (s i).list.erase t ∧ (t ∉ (s i).list → s' i = s i)
  copied : ∀ i j, op = construct i j ∨ op = assign i j → (s' i).SameAs (s j)

variable [DecidableEq α] {s : ℕ → CircularList α} {op : CircularOp α} {l : CircularList α}

/-- The promises, when the list that is changed is left as `l`. -/
theorem sound_update_iff (hs : ∀ i, (s i).Ring) :
    op.Sound s (Function.update s op.target l) ↔ l.Ring ∧
      (∀ i t, op = eraseElem i t →
        l.list = (s i).list.erase t ∧ (t ∉ (s i).list → l = s i)) ∧
      ∀ i j, op = construct i j ∨ op = assign i j → l.SameAs (s j) := by
  constructor
  · intro h
    refine ⟨?_, ?_, ?_⟩
    · have hring := h.rings op.target
      rwa [Function.update_self] at hring
    · rintro i t rfl
      have herased := h.erased i t rfl
      rwa [target, Function.update_self] at herased
    · intro i j hop
      have hcopied := h.copied i j hop
      have htarget : op.target = i := by rcases hop with rfl | rfl <;> rfl
      rwa [htarget, Function.update_self] at hcopied
  · rintro ⟨hring, herased, hcopied⟩
    have hrings : ∀ i, (Function.update s op.target l i).Ring := by
      intro i
      rcases eq_or_ne i op.target with rfl | hne
      · rwa [Function.update_self]
      · rw [Function.update_of_ne hne]
        exact hs i
    exact {
      rings := hrings
      tours := fun i => (hrings i).tour
      others := fun i hne => Function.update_of_ne hne l s
      erased := by
        rintro i t rfl
        rw [target, Function.update_self]
        exact herased i t rfl
      copied := by
        intro i j hop
        have htarget : op.target = i := by rcases hop with rfl | rfl <;> rfl
        rw [htarget, Function.update_self]
        exact hcopied i j hop }

/-- An operation that neither looks for an element nor copies has only to leave a ring. -/
theorem sound_iff_ring (hs : ∀ i, (s i).Ring) (herase : ∀ i t, op ≠ eraseElem i t)
    (hcopy : ∀ i j, op ≠ construct i j ∧ op ≠ assign i j) :
    op.Sound s (Function.update s op.target l) ↔ l.Ring := by
  rw [sound_update_iff hs]
  refine and_iff_left ⟨fun i t hop => absurd hop (herase i t), fun i j hop => ?_⟩
  rcases hop with hop | hop
  · exact absurd hop (hcopy i j).1
  · exact absurd hop (hcopy i j).2

theorem eraseElem_sound_iff (hs : ∀ i, (s i).Ring) (i : ℕ) (t : α) :
    (∃ l, (s i).eraseElem t = some l ∧
      (eraseElem i t).Sound s (Function.update s i l)) ↔ (s i).list = [] ∨ t ∈ (s i).list := by
  constructor
  · rintro ⟨l, hl, -⟩
    by_contra hnot
    rw [not_or] at hnot
    have hlt := (hs i).cur_lt hnot.1
    rw [CircularList.eraseElem, if_neg, if_pos (List.idxOf_eq_length_iff.2 hnot.2)] at hl
    · cases hl
    · rw [(hs i).size_eq]
      omega
  · intro h
    by_cases ht : t ∈ (s i).list
    · obtain ⟨l, hl, hring, hlist⟩ := (hs i).eraseElem ht
      refine ⟨l, hl, (sound_update_iff hs).2 ⟨hring, ?_, ?_⟩⟩
      · rintro _ _ ⟨⟩
        exact ⟨hlist, fun hnot => absurd ht hnot⟩
      · rintro _ _ (hop | hop)
        · cases hop
        · cases hop
    · -- nothing is looked for in an empty list
      have hnil : (s i).list = [] := h.resolve_right ht
      have hsize : (s i).size = 0 := by rw [(hs i).size_eq, hnil, List.length_nil]
      refine ⟨s i, by rw [CircularList.eraseElem, if_pos (.inl hsize)], ?_⟩
      refine (sound_update_iff hs).2 ⟨hs i, ?_, ?_⟩
      · rintro _ _ ⟨⟩
        exact ⟨by rw [hnil, List.erase_nil], fun _ => rfl⟩
      · rintro _ _ (hop | hop)
        · cases hop
        · cases hop

/-- A copy is sound if its loop looks for the cursor of the other list. -/
theorem copy_sound_iff (hs : ∀ i, (s i).Ring) {i j cur : ℕ} (hcur : cur ≤ (s j).cur)
    (hop : op = construct i j ∨ op = assign i j) :
    (∃ l, (s j).copy cur = some l ∧ op.Sound s (Function.update s i l)) ↔
      (s j).list = [] ∨ cur = (s j).cur := by
  obtain ⟨l, hl, hlist, hsize, hpos⟩ := (hs j).copy hcur
  have htarget : op.target = i := by rcases hop with rfl | rfl <;> rfl
  have hsame : l.SameAs (s j) ↔ (s j).list = [] ∨ cur = (s j).cur := by
    constructor
    · intro h
      by_contra hnot
      rw [not_or] at hnot
      exact hnot.2 ((hpos hnot.1).symm.trans (h.cur_eq hnot.1))
    · intro h
      exact ⟨hlist, hsize, fun hne => (hpos hne).trans (h.resolve_left hne)⟩
  rw [← hsame, ← htarget]
  constructor
  · rintro ⟨l', hl', hsound⟩
    obtain rfl := Option.some.inj (hl.symm.trans hl')
    exact ((sound_update_iff hs).1 hsound).2.2 i j hop
  · intro h
    refine ⟨l, hl, (sound_update_iff hs).2 ⟨h.ring (hs j), ?_, ?_⟩⟩
    · rintro i' t rfl
      rcases hop with hop | hop <;> cases hop
    · intro i' j' hop'
      have hj : j' = j := by
        rcases hop with rfl | rfl <;> rcases hop' with hop' | hop' <;> cases hop' <;> rfl
      rwa [hj]

/-- **An operation keeps its promises** exactly if it is allowed. -/
theorem result_sound_iff (hs : ∀ i, (s i).Ring) (op : CircularOp α) :
    (∃ l, op.result s = some l ∧ op.Sound s (Function.update s op.target l)) ↔ op.Allowed s := by
  -- what is left to show of the simple operations
  have hplain : ∀ l, op.result s = some l → (∀ i t, op ≠ eraseElem i t) →
      (∀ i j, op ≠ construct i j ∧ op ≠ assign i j) → (l.Ring ↔ op.Allowed s) →
      ((∃ l, op.result s = some l ∧ op.Sound s (Function.update s op.target l)) ↔
        op.Allowed s) := by
    intro l hl herase hcopy hring
    rw [← hring, ← sound_iff_ring hs herase hcopy]
    constructor
    · rintro ⟨l', hl', hsound⟩
      obtain rfl := Option.some.inj (hl.symm.trans hl')
      exact hsound
    · exact fun hsound => ⟨l, hl, hsound⟩
  cases op with
  | insert i t =>
    refine hplain _ rfl nofun (fun _ _ => ⟨nofun, nofun⟩) ?_
    rw [((hs i).insert t).unsigned_iff, CircularList.size_insert, (hs i).size_eq]
    rfl
  | insertFront i t =>
    refine hplain _ rfl nofun (fun _ _ => ⟨nofun, nofun⟩) ?_
    rw [((hs i).insertFront t).unsigned_iff, CircularList.size_insertFront, (hs i).size_eq]
    rfl
  | erase i =>
    exact hplain _ rfl nofun (fun _ _ => ⟨nofun, nofun⟩) (iff_of_true (hs i).erase trivial)
  | eraseElem i t => exact eraseElem_sound_iff hs i t
  | move i =>
    exact hplain _ rfl nofun (fun _ _ => ⟨nofun, nofun⟩) (iff_of_true (hs i).move trivial)
  | rewind i =>
    exact hplain _ rfl nofun (fun _ _ => ⟨nofun, nofun⟩) (iff_of_true (hs i).rewind trivial)
  | clear i =>
    exact hplain _ rfl nofun (fun _ _ => ⟨nofun, nofun⟩)
      (iff_of_true (CircularList.ring_clear (s i)) trivial)
  | construct i j =>
    refine (copy_sound_iff hs (Nat.le_refl _) (.inl rfl)).trans ?_
    exact iff_of_true (.inr rfl) trivial
  | assign i j =>
    have hcur : (if i = j then 0 else (s j).cur) ≤ (s j).cur := by
      split_ifs
      · exact Nat.zero_le _
      · exact Nat.le_refl _
    refine (copy_sound_iff hs hcur (.inr rfl)).trans ?_
    by_cases hij : i = j
    · subst hij
      rw [if_pos rfl, Allowed]
      exact ⟨fun h _ => h.imp_right Eq.symm, fun h => (h rfl).imp_right Eq.symm⟩
    · rw [if_neg hij]
      exact iff_of_true (.inr rfl) fun h => absurd h hij

end CircularOp

namespace CircularList

variable [DecidableEq α]

/-- Several lists. -/
def machine : Machine (ℕ → CircularList α) (CircularOp α) Empty where
  step s op := (op.result s).map fun l => (Function.update s op.target l, [])

/-- The operations of a run from empty lists all keep their promises. -/
def RingRun (ops : List (CircularOp α)) : Prop :=
  ∀ s op, machine.Comes (fun _ => {}) ops s op →
    ∃ s' o, machine.step s op = some (s', o) ∧ op.Sound s s'

/-- **Circular lists are rings** exactly in the runs whose operations are all allowed. -/
theorem ringRun_iff (ops : List (CircularOp α)) :
    RingRun ops ↔ ∀ s op, machine.Comes (fun _ => {}) ops s op → op.Allowed s := by
  refine Machine.sound_iff (I := fun s => ∀ i, (s i).Ring) (fun _ => ring_empty) ?_ ?_
  · intro s op hs
    rw [← CircularOp.result_sound_iff hs op]
    constructor
    · rintro ⟨s', o, hst, hsound⟩
      obtain ⟨l, hl, hpair⟩ := Option.map_eq_some_iff.1 hst
      cases hpair
      exact ⟨l, hl, hsound⟩
    · rintro ⟨l, hl, hsound⟩
      exact ⟨_, _, Option.map_eq_some_iff.2 ⟨l, hl, rfl⟩, hsound⟩
  · intro s op s' _ hsound
    exact hsound.rings

/-- An element that is not there is erased, from a list that is not empty. -/
theorem absent_erased :
    (⟨[1], 0, 1⟩ : CircularList ℕ).Ring ∧ (⟨[1], 0, 1⟩ : CircularList ℕ).eraseElem 2 = none ∧
      ¬ ∀ ops : List (CircularOp ℕ), RingRun ops := by
  refine ⟨⟨rfl, fun _ => Nat.zero_lt_one⟩, rfl, fun hall => ?_⟩
  obtain ⟨s', o, hst, -⟩ := hall [.insert 0 1, .eraseElem 0 2] _ (.eraseElem 0 2)
    ⟨[.insert 0 1], [], _, rfl, rfl⟩
  have hundefined : (CircularOp.eraseElem 0 2).result
      (Function.update (fun _ => ({} : CircularList ℕ)) 0 ⟨[1], 0, 1⟩) = none := rfl
  rw [machine, Option.map_eq_some_iff] at hst
  obtain ⟨l, hl, -⟩ := hst
  exact absurd (hl.symm.trans hundefined) nofun

end CircularList

end V2nLte
