import Mathlib.Data.List.InsertIdx
import Mathlib.Data.List.Nodup

/-!
# Circular lists

`CircularList` is a list with a cursor that wraps around at the end.  What a user of it sees is the
list read from the cursor on, its `rotation`: `current` is the head, `move` takes the head to the
back, `erase` drops the head and `insert` adds at the back.

An `eraseElem` of an element that is not there erases the end of a `std::list`, which is undefined.
-/

namespace V2nLte

variable {α : Type*}

/-- `CircularList`. -/
structure CircularList (α : Type*) where
  /-- The elements. -/
  list : List α := []
  /-- The index of the current element. -/
  cur : ℕ := 0
  /-- The number of elements that the list knows of. -/
  size : ℕ := 0
  deriving DecidableEq

namespace CircularList

/-- The index after `i` in a list of length `n`. -/
def next (n i : ℕ) : ℕ := if i + 1 = n then 0 else i + 1

/-- The index after an erased element, which moves one place to the front. -/
def afterErased (n i : ℕ) : ℕ := if i + 1 = n then 0 else i

variable (l : CircularList α)

/-- The current element. -/
def current : Option α := l.list[l.cur]?

/-- Insert before the current position. -/
def insert (t : α) : CircularList α :=
  if l.size = 0 then ⟨l.list ++ [t], 0, l.size + 1⟩
  else ⟨l.list.insertIdx l.cur t, l.cur + 1, l.size + 1⟩

/-- Insert after the current position. -/
def insertFront (t : α) : CircularList α :=
  if l.size = 0 then ⟨l.list ++ [t], 0, l.size + 1⟩
  else ⟨l.list.insertIdx (l.cur + 1) t, l.cur, l.size + 1⟩

/-- Remove the element at the current position. -/
def erase : CircularList α :=
  if l.size = 0 then l
  else ⟨l.list.eraseIdx l.cur, afterErased l.list.length l.cur, l.size - 1⟩

/-- Move to the next position. -/
def move : CircularList α :=
  if 0 < l.size then { l with cur := next l.list.length l.cur } else l

/-- Go back to the beginning. -/
def rewind : CircularList α := { l with cur := 0 }

/-- Remove all the elements.  The cursor is left where it was, but not read without an element. -/
def clear : CircularList α := { l with list := [], size := 0 }

/-- The loop of a copy, which goes on from `it` until it meets the cursor `cur`; `none` if it runs
beyond the end of the list. -/
def seek (cur : ℕ) : ℕ → List α → Option ℕ
  | it, [] => if it = cur then some it else none
  | it, _ :: rest => if it = cur then some it else seek cur (it + 1) rest

/-- The body of the copy constructor and of the assignment operator, where the loop reads the
cursor of the list that is copied as `cur`. -/
def copy (cur : ℕ) : Option (CircularList α) :=
  if l.size ≠ 0 then (seek cur 0 l.list).map fun cur => ⟨l.list, cur, l.size⟩
  else some ⟨l.list, 0, l.size⟩

section

variable [DecidableEq α]

/-- Whether `t` is in the list. -/
def find (t : α) : Bool := decide (l.size ≠ 0 ∧ t ∈ l.list)

/-- Remove the element `t`; `none` is undefined behaviour. -/
def eraseElem (t : α) : Option (CircularList α) :=
  let it := l.list.idxOf t
  if l.size = 0 ∨ l.cur = l.list.length then some l
  else if it = l.list.length then none
  else some
    ⟨l.list.eraseIdx it,
      if l.cur = it then afterErased l.list.length l.cur
      else if it < l.cur then l.cur - 1 else l.cur,
      l.size - 1⟩

end

/-- The elements from the current one on, all the way round. -/
def rotation : List α := l.list.drop l.cur ++ l.list.take l.cur

/-- The count is right and the cursor is on an element. -/
structure Ring : Prop where
  size_eq : l.size = l.list.length
  cur_lt : l.list ≠ [] → l.cur < l.list.length

variable {l}

theorem ring_empty : Ring ({} : CircularList α) := ⟨rfl, fun h => absurd rfl h⟩

theorem rotation_perm (l : CircularList α) : l.rotation.Perm l.list := by
  have h : l.rotation.Perm (l.list.take l.cur ++ l.list.drop l.cur) := List.perm_append_comm
  rwa [List.take_append_drop] at h

@[simp] theorem mem_rotation {t : α} : t ∈ l.rotation ↔ t ∈ l.list := (rotation_perm l).mem_iff

@[simp] theorem length_rotation : l.rotation.length = l.list.length := (rotation_perm l).length_eq

theorem nodup_rotation : l.rotation.Nodup ↔ l.list.Nodup := (rotation_perm l).nodup_iff

namespace Ring

variable {x : α} {xs : List α}

theorem size_eq_zero (h : l.Ring) : l.size = 0 ↔ l.rotation = [] := by
  rw [h.size_eq, ← length_rotation, List.length_eq_zero_iff]

theorem cur_lt_of_size (h : l.Ring) (hs : ¬l.size = 0) : l.cur < l.list.length := by
  refine h.cur_lt fun hnil => hs ?_
  rw [h.size_eq, hnil, List.length_nil]

theorem cur_lt_of_cons (h : l.Ring) (hl : l.rotation = x :: xs) : l.cur < l.list.length := by
  refine h.cur_lt fun h₀ => ?_
  have := congrArg List.length hl
  rw [length_rotation, h₀] at this
  cases this

/-- A ring that is not empty, with its cursor in between two halves. -/
theorem split (h : l.Ring) (hl : l.rotation = x :: xs) :
    ∃ ys zs, l.list = ys ++ x :: zs ∧ l.cur = ys.length ∧ xs = zs ++ ys := by
  have hlt := h.cur_lt_of_cons hl
  rw [rotation, List.drop_eq_getElem_cons hlt, List.cons_append, List.cons.injEq] at hl
  refine ⟨l.list.take l.cur, l.list.drop (l.cur + 1), ?_, ?_, hl.2.symm⟩
  · rw [← hl.1, ← List.drop_eq_getElem_cons hlt, List.take_append_drop]
  · rw [List.length_take]
    omega

theorem current_eq (h : l.Ring) (hl : l.rotation = x :: xs) : l.current = some x := by
  obtain ⟨ys, zs, hlist, hcur, -⟩ := h.split hl
  rw [current, hlist, hcur]
  simp

theorem move (h : l.Ring) : l.move.Ring := by
  unfold CircularList.move
  split
  · refine ⟨h.size_eq, fun hne => ?_⟩
    have hlt := h.cur_lt hne
    show next l.list.length l.cur < l.list.length
    unfold next
    split <;> omega
  · exact h

theorem rotation_move (h : l.Ring) (hl : l.rotation = x :: xs) :
    l.move.rotation = xs ++ [x] := by
  obtain ⟨ys, zs, hlist, hcur, rfl⟩ := h.split hl
  have hpos : 0 < l.size := by
    rw [h.size_eq, hlist, List.length_append, List.length_cons]
    omega
  rw [CircularList.move, if_pos hpos, rotation, next, hlist, hcur]
  -- the cursor wraps around iff `x` is the last element of the list
  split <;> rename_i hend
  · obtain rfl : zs = [] := by
      rw [List.length_append, List.length_cons] at hend
      exact List.length_eq_zero_iff.1 (by omega)
    simp
  · show (ys ++ x :: zs).drop (ys.length + 1) ++ (ys ++ x :: zs).take (ys.length + 1) = _
    rw [List.append_cons ys x zs, show ys.length + 1 = (ys ++ [x]).length by simp,
      List.drop_left, List.take_left, List.append_assoc]

theorem erase (h : l.Ring) : l.erase.Ring := by
  unfold CircularList.erase
  split
  · exact h
  · rename_i hs
    have hlt := h.cur_lt_of_size hs
    refine ⟨?_, fun hne => ?_⟩
    · show l.size - 1 = (l.list.eraseIdx l.cur).length
      rw [List.length_eraseIdx_of_lt hlt, h.size_eq]
    · show afterErased l.list.length l.cur < (l.list.eraseIdx l.cur).length
      have hpos := List.length_pos_of_ne_nil hne
      rw [List.length_eraseIdx_of_lt hlt] at hpos ⊢
      unfold afterErased
      split <;> omega

theorem rotation_erase (h : l.Ring) (hl : l.rotation = x :: xs) : l.erase.rotation = xs := by
  obtain ⟨ys, zs, hlist, hcur, rfl⟩ := h.split hl
  have hs : ¬l.size = 0 := by
    rw [h.size_eq, hlist]
    simp
  have herase : (ys ++ x :: zs).eraseIdx ys.length = ys ++ zs := by
    rw [List.eraseIdx_append_of_length_le (Nat.le_refl _)]
    simp
  rw [CircularList.erase, if_neg hs, rotation, afterErased, hlist, hcur]
  show (List.eraseIdx _ _).drop _ ++ (List.eraseIdx _ _).take _ = _
  rw [herase]
  split <;> rename_i hend
  · obtain rfl : zs = [] := by
      rw [List.length_append, List.length_cons] at hend
      exact List.length_eq_zero_iff.1 (by omega)
    simp
  · simp

theorem insert (h : l.Ring) (t : α) : (l.insert t).Ring := by
  unfold CircularList.insert
  split <;> rename_i hs
  · refine ⟨?_, fun _ => ?_⟩
    · simp [h.size_eq]
    · show 0 < (l.list ++ [t]).length
      simp
  · have hlt := h.cur_lt_of_size hs
    refine ⟨?_, fun _ => ?_⟩
    · show l.size + 1 = (l.list.insertIdx l.cur t).length
      rw [List.length_insertIdx_of_le_length (Nat.le_of_lt hlt), h.size_eq]
    · show l.cur + 1 < (l.list.insertIdx l.cur t).length
      rw [List.length_insertIdx_of_le_length (Nat.le_of_lt hlt)]
      omega

theorem rotation_insert (h : l.Ring) (t : α) : (l.insert t).rotation = l.rotation ++ [t] := by
  unfold CircularList.insert
  split <;> rename_i hs
  · have hnil : l.list = [] := List.length_eq_zero_iff.1 (by rw [← h.size_eq, hs])
    simp [rotation, hnil]
  · obtain ⟨x, xs, hl⟩ := List.exists_cons_of_ne_nil (mt h.size_eq_zero.2 hs)
    obtain ⟨ys, zs, hlist, hcur, -⟩ := h.split hl
    have hins : (ys ++ x :: zs).insertIdx ys.length t = (ys ++ [t]) ++ x :: zs := by
      clear hlist hcur
      induction ys with
      | nil => rfl
      | cons y ys ih => exact congrArg (y :: ·) ih
    rw [rotation, rotation, hlist, hcur]
    show (List.insertIdx _ _ _).drop _ ++ (List.insertIdx _ _ _).take _ = _
    rw [hins, show ys.length + 1 = (ys ++ [t]).length by simp, List.drop_left, List.take_left,
      List.drop_left, List.take_left, List.append_assoc]

theorem mem_insert (h : l.Ring) {t u : α} : u ∈ (l.insert t).list ↔ u ∈ l.list ∨ u = t := by
  rw [← mem_rotation, h.rotation_insert]
  simp

theorem nodup_insert (h : l.Ring) {t : α} (hn : l.list.Nodup) (ht : t ∉ l.list) :
    (l.insert t).list.Nodup := by
  rw [← nodup_rotation, h.rotation_insert]
  refine (nodup_rotation.2 hn).append (List.nodup_singleton t) fun u hu hut => ?_
  rw [List.mem_singleton.1 hut] at hu
  exact ht (mem_rotation.1 hu)

section

variable [DecidableEq α]

theorem find_eq (h : l.Ring) (t : α) : l.find t = true ↔ t ∈ l.list := by
  rw [CircularList.find, decide_eq_true_iff, h.size_eq]
  refine and_iff_right_of_imp fun ht h₀ => ?_
  rw [List.length_eq_zero_iff.1 h₀] at ht
  cases ht

/-- **An element that is there can be erased**, and only it. -/
theorem eraseElem (h : l.Ring) {t : α} (ht : t ∈ l.list) :
    ∃ l', l.eraseElem t = some l' ∧ l'.Ring ∧ l'.list = l.list.erase t := by
  have hit := List.idxOf_lt_length_iff.2 ht
  have hlt : l.cur < l.list.length := h.cur_lt (List.ne_nil_of_mem ht)
  have hs : ¬(l.size = 0 ∨ l.cur = l.list.length) := by
    rw [h.size_eq]
    omega
  refine ⟨_, by rw [CircularList.eraseElem, if_neg hs, if_neg (Nat.ne_of_lt hit)],
    ⟨?_, fun hne => ?_⟩, ?_⟩
  · show l.size - 1 = (l.list.eraseIdx _).length
    rw [List.length_eraseIdx_of_lt hit, h.size_eq]
  · have hpos := List.length_pos_of_ne_nil hne
    have hlen : (l.list.eraseIdx (l.list.idxOf t)).length = l.list.length - 1 :=
      List.length_eraseIdx_of_lt hit
    simp only [hlen, afterErased] at hpos ⊢
    split_ifs <;> omega
  · exact (List.erase_eq_eraseIdx_of_idxOf rfl).symm

/-- What is left after an element has been erased is a ring, and part of what was there. -/
theorem of_eraseElem (h : l.Ring) {t : α} {l' : CircularList α} (hl : l.eraseElem t = some l') :
    l'.Ring ∧ l'.list.Sublist l.list := by
  by_cases hempty : l.size = 0 ∨ l.cur = l.list.length
  · rw [CircularList.eraseElem, if_pos hempty] at hl
    cases hl
    exact ⟨h, .refl _⟩
  · by_cases ht : t ∈ l.list
    · obtain ⟨l'', hl'', hring, hlist⟩ := h.eraseElem ht
      rw [hl''] at hl
      cases hl
      exact ⟨hring, hlist ▸ List.erase_sublist⟩
    · rw [CircularList.eraseElem, if_neg hempty, if_pos (List.idxOf_eq_length_iff.2 ht)] at hl
      cases hl

end

end Ring

end CircularList

end V2nLte
