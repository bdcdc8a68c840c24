import Mathlib.Algebra.Order.Floor.Ring
import Mathlib.Algebra.BigOperators.Group.List.Basic

/-!
# Rounding a list and keeping its sum

Every number is replaced by the growth of the rounded running sum: the results add up to the
rounded sum of all the numbers, and each differs from its number by less than one.
-/

namespace V2nLte

namespace Rounding

variable {K : Type*} [Field K] [LinearOrder K] [FloorRing K]

/-- The conversion to an integer, towards zero. -/
def truncate (x : K) : ℤ := if 0 ≤ x then ⌊x⌋ else ⌈x⌉

/-- The loop, with the running sum of the numbers and that of the results. -/
def roundSums (t : K) (n : ℤ) : List K → List ℤ
  | [] => []
  | v :: vs =>
    let x := truncate (t + v - n)
    x :: roundSums (t + v) (n + x) vs

variable {t v : K} {l l₁ l₂ : List K}

theorem truncate_of_nonneg {x : K} (h : 0 ≤ x) : truncate x = ⌊x⌋ := if_pos h

theorem length_roundSums (t : K) (n : ℤ) (l : List K) : (roundSums t n l).length = l.length := by
  induction l generalizing t n with
  | nil => rfl
  | cons v l ih => rw [roundSums, List.length_cons, ih, List.length_cons]

variable [IsStrictOrderedRing K]

/-- The first result, and that the invariant goes on. -/
theorem truncate_sub_floor (hv : 0 ≤ v) : truncate (t + v - ⌊t⌋) = ⌊t + v⌋ - ⌊t⌋ := by
  have hle : (⌊t⌋ : K) ≤ t := Int.floor_le t
  rw [truncate_of_nonneg (by linarith), Int.floor_sub_intCast]

theorem roundSums_cons (hv : 0 ≤ v) :
    roundSums t ⌊t⌋ (v :: l) = (⌊t + v⌋ - ⌊t⌋) :: roundSums (t + v) ⌊t + v⌋ l := by
  rw [roundSums, truncate_sub_floor hv, add_sub_cancel]

/-- The result for a number is the growth of the rounded running sum. -/
theorem roundSums_append (h : ∀ x ∈ l₁ ++ l₂, 0 ≤ x) :
    roundSums t ⌊t⌋ (l₁ ++ l₂) =
      roundSums t ⌊t⌋ l₁ ++ roundSums (t + l₁.sum) ⌊t + l₁.sum⌋ l₂ := by
  induction l₁ generalizing t with
  | nil => simp [roundSums]
  | cons v l₁ ih =>
    have hv := h v List.mem_cons_self
    rw [List.cons_append, roundSums_cons hv, roundSums_cons hv, List.cons_append,
      ih fun x hx => h x (List.mem_cons_of_mem v hx), List.sum_cons, add_assoc]

theorem sum_roundSums (h : ∀ x ∈ l, 0 ≤ x) :
    (roundSums t ⌊t⌋ l).sum = ⌊t + l.sum⌋ - ⌊t⌋ := by
  induction l generalizing t with
  | nil => simp [roundSums]
  | cons v l ih =>
    have hl := ih (t := t + v) fun x hx => h x (List.mem_cons_of_mem v hx)
    rw [roundSums_cons (h v List.mem_cons_self), List.sum_cons, hl, List.sum_cons, add_assoc]
    exact sub_add_sub_cancel' _ _ _

theorem growth_nonneg (hv : 0 ≤ v) : 0 ≤ ⌊t + v⌋ - ⌊t⌋ :=
  sub_nonneg.2 (Int.floor_mono (le_add_of_nonneg_right hv))

theorem abs_growth_sub_lt (t v : K) : |((⌊t + v⌋ - ⌊t⌋ : ℤ) : K) - v| < 1 := by
  have h₁ := Int.floor_le (t + v)
  have h₂ := Int.lt_floor_add_one (t + v)
  have h₃ := Int.floor_le t
  have h₄ := Int.lt_floor_add_one t
  rw [abs_lt]
  push_cast
  constructor <;> linarith

end Rounding

end V2nLte
