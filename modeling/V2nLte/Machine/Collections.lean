import Mathlib.Algebra.BigOperators.Fin
import Mathlib.Algebra.BigOperators.Group.Finset.Piecewise
import Mathlib.Algebra.Ring.Nat
import Mathlib.Data.List.Nodup
import Mathlib.Data.Multiset.Bind

/-!
# Lists and sums

What the proofs need of lists that grow at their end, are read element by element or are put one
after the other, and of tables of which one entry changes: how the sum over all entries changes
(`sum_change`, `sum_update_add`) and how the entries with a property are counted
(`length_filter_range_update`).
-/

namespace V2nLte

/-! ### Places of a list -/

section Lists

variable {α β : Type*}

/-- A place of a list is the same place of a longer one. -/
theorem getElem?_append_of_some {l : List α} {i : ℕ} {a : α} (h : l[i]? = some a)
    (more : List α) : (l ++ more)[i]? = some a := by
  rw [List.getElem?_append_left (List.getElem?_eq_some_iff.1 h).1, h]

theorem getElem?_concat_eq_some {l : List α} {a b : α} {i : ℕ} :
    (l ++ [a])[i]? = some b ↔ l[i]? = some b ∨ i = l.length ∧ a = b := by
  rcases Nat.lt_trichotomy i l.length with hi | rfl | hi
  · rw [List.getElem?_append_left hi]
    simp [hi.ne]
  · simp
  · rw [List.getElem?_eq_none (by simp; omega), List.getElem?_eq_none (by omega)]
    simp [hi.ne']

theorem mem_idxOf_iff [DecidableEq α] {l : List α} (hl : l.Nodup) {a : α} {i : ℕ} :
    a ∈ l ∧ l.idxOf a = i ↔ l[i]? = some a := by
  constructor
  · rintro ⟨ha, rfl⟩
    exact List.getElem?_idxOf ha
  · intro h
    obtain ⟨hi, rfl⟩ := List.getElem?_eq_some_iff.1 h
    exact ⟨List.getElem_mem hi, hl.idxOf_getElem i hi⟩

/-- A condition on the places of a list, element by element. -/
theorem forall_split_cons {P : List α → α → Prop} {x : α} {l : List α} :
    (∀ pre y post, x :: l = pre ++ y :: post → P pre y) ↔
      P [] x ∧ ∀ pre y post, l = pre ++ y :: post → P (x :: pre) y := by
  constructor
  · intro h
    exact ⟨h [] x l rfl, fun pre y post heq => h (x :: pre) y post (by rw [heq]; rfl)⟩
  · rintro ⟨hfirst, hrest⟩ pre y post heq
    cases pre with
    | nil =>
      obtain ⟨rfl, -⟩ := List.cons.inj heq
      exact hfirst
    | cons z pre =>
      obtain ⟨rfl, htail⟩ := List.cons.inj heq
      exact hrest pre y post htail

/-- The shorter list says how much of the other one is paired. -/
theorem zip_append_of_le {l more : List α} {ys : List β} (h : ys.length ≤ l.length) :
    (l ++ more).zip ys = l.zip ys := by
  have hlong : ys.length ≤ (l ++ more).length := h.trans (by simp)
  refine (List.zip_eq_zip_take_min.trans ?_).trans List.zip_eq_zip_take_min.symm
  rw [Nat.min_eq_right h, Nat.min_eq_right hlong, List.take_append_of_le_length h]

/-- The first places of a range are a range. -/
theorem take_range'_eq (i len n : ℕ) :
    (List.range' i len).take n = List.range' i (min n len) := by
  rcases Nat.le_total len n with hle | hle
  · rw [List.take_range'_of_length_le hle, Nat.min_eq_right hle]
  · rw [List.take_range'_of_length_ge hle, Nat.min_eq_left hle]

/-- How many entries of a table have `q` once one has been replaced. -/
theorem length_filter_range_update (q : α → Bool) (f : ℕ → α) {n i : ℕ} (x : α) (hi : i < n) :
    ((List.range n).filter fun j => q (Function.update f i x j)).length +
        (if q (f i) then 1 else 0) =
      ((List.range n).filter fun j => q (f j)).length + if q x then 1 else 0 := by
  induction n with
  | zero => exact absurd hi (Nat.not_lt_zero i)
  | succ n ih =>
    simp only [List.range_succ, List.filter_append, List.length_append, List.filter_singleton]
    rcases Nat.lt_succ_iff_lt_or_eq.1 hi with hlt | rfl
    · rw [Function.update_of_ne (Nat.ne_of_gt hlt)]
      have := ih hlt
      omega
    · have hbelow : ((List.range i).filter fun j => q (Function.update f i x j)) =
          (List.range i).filter fun j => q (f j) := by
        refine List.filter_congr fun j hj => ?_
        rw [Function.update_of_ne (Nat.ne_of_lt (List.mem_range.1 hj))]
      rw [hbelow, Function.update_self]
      cases q x <;> cases q (f i) <;> simp

end Lists

/-! ### Lists that are read element by element -/

section Reading

variable {α β : Type}

theorem mapM_congr {f g : α → Option β} {l : List α} (h : ∀ a ∈ l, f a = g a) :
    l.mapM f = l.mapM g := by
  induction l with
  | nil => rfl
  | cons a l ih =>
    rw [List.mapM_cons, List.mapM_cons, h a List.mem_cons_self,
      ih fun b hb => h b (List.mem_cons_of_mem _ hb)]

/-- Elements that can all be read. -/
theorem mapM_eq_some_map {f : α → Option β} {g : α → β} {l : List α}
    (h : ∀ a ∈ l, f a = some (g a)) : l.mapM f = some (l.map g) :=
  (mapM_congr h).trans List.mapM_pure

end Reading

/-! ### Lists one after the other -/

section Flat

variable {α β : Type*}

theorem coe_flatMap (l : List α) (f : α → List β) :
    (l.flatMap f : Multiset β) = (l.map fun a => (f a : Multiset β)).sum := by
  rw [← Multiset.coe_bind]
  rfl

theorem coe_flatMap_finRange {n : ℕ} (f : Fin n → List β) :
    ((List.finRange n).flatMap f : Multiset β) = ∑ i, (f i : Multiset β) := by
  rw [coe_flatMap, Fin.sum_univ_def]

/-- Only one of the lists is not empty. -/
theorem flatMap_eq_of_others_nil {l : List α} (hnd : l.Nodup) {f : α → List β} {x : α}
    (hx : x ∈ l) (h : ∀ y ≠ x, f y = []) : l.flatMap f = f x := by
  obtain ⟨l₁, l₂, rfl⟩ := List.append_of_mem hx
  have hempty : ∀ l : List α, x ∉ l → l.flatMap f = [] := by
    intro l hl
    rw [List.flatMap_eq_nil_iff]
    exact fun y hy => h y fun hyx => hl (hyx ▸ hy)
  rw [List.nodup_middle, List.nodup_cons, List.mem_append, not_or] at hnd
  rw [List.flatMap_append, List.flatMap_cons, hempty l₁ hnd.1.1, hempty l₂ hnd.1.2,
    List.nil_append, List.append_nil]

end Flat

/-! ### Sums over tables -/

section Sums

open Finset

variable {K S M : Type*} [DecidableEq K] [AddCommMonoid M] {s : Finset K} {i : K}

/-- Two sums that differ in one term. -/
theorem sum_change {f g : K → M} (hi : i ∈ s) (h : ∀ k ∈ s, k ≠ i → g k = f k) :
    ∑ k ∈ s, g k + f i = ∑ k ∈ s, f k + g i := by
  have hrest : ∑ k ∈ s.erase i, g k = ∑ k ∈ s.erase i, f k :=
    sum_congr rfl fun k hk => h k (mem_of_mem_erase hk) (ne_of_mem_erase hk)
  rw [← sum_erase_add s g hi, ← sum_erase_add s f hi, hrest, add_right_comm]

/-- A sum over a table of which one entry has been replaced. -/
theorem sum_update_add (hi : i ∈ s) (f : S → M) (g : K → S) (x : S) :
    ∑ k ∈ s, f (Function.update g i x k) + f (g i) = ∑ k ∈ s, f (g k) + f x := by
  have hsum := sum_change (f := fun k => f (g k)) (g := fun k => f (Function.update g i x k)) hi
    fun k _ hk => by rw [Function.update_of_ne hk]
  rwa [Function.update_self] at hsum

theorem sum_update (hi : i ∈ s) (g : K → M) (x : M) :
    ∑ k ∈ s, Function.update g i x k + g i = ∑ k ∈ s, g k + x := sum_update_add hi id g x

/-- One entry of a table of two dimensions grows. -/
theorem sum_sum_add_ite {k l i₀ j₀ : ℕ} (hi : i₀ < k) (hj : j₀ < l) (f : ℕ → ℕ → ℕ) (x : ℕ) :
    ∑ i ∈ range k, ∑ j ∈ range l, (f i j + if i = i₀ ∧ j = j₀ then x else 0) =
      ∑ i ∈ range k, ∑ j ∈ range l, f i j + x := by
  have hinner : ∀ i, ∑ j ∈ range l, (if i = i₀ ∧ j = j₀ then x else 0) =
      if i = i₀ then x else 0 := by
    intro i
    by_cases h : i = i₀
    · simp [h, hj]
    · simp [h]
  simp only [sum_add_distrib, hinner, sum_ite_eq', mem_range.2 hi, if_true]

end Sums

end V2nLte
