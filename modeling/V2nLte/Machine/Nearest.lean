import Mathlib.Algebra.Order.Floor.Semifield
import Mathlib.Algebra.Order.AbsoluteValue.Basic
import Mathlib.Order.Interval.Set.Basic
import Mathlib.Tactic.Linarith

/-!
# Rounding to nearest, and interpolation between three numbers

`nearest` rounds to a nearest natural number, an exact half downwards.  `interpolate lo mid hi`
goes from `lo` at the weight `-1` over `mid` at `0` to `hi` at `1`, on a straight line on either
side, and rounds the way it has gone from the lower end of its side.
-/

namespace V2nLte

namespace Nearest

variable {K : Type*} [Field K] [LinearOrder K] [FloorSemiring K]

/-- A nearest natural number, an exact half downwards. -/
def nearest (x : K) : ℕ := if 1 / 2 < x - ⌊x⌋₊ then ⌊x⌋₊ + 1 else ⌊x⌋₊

/-- The quotient, rounded by the rest of the division. -/
def roundedDiv (K : Type*) [Field K] [LinearOrder K] (S n : ℕ) : ℕ :=
  if (n : K) / 2 < (S % n : ℕ) then S / n + 1 else S / n

/-- From `lo` over `mid` to `hi`, for weights from `-1` over `0` to `1`. -/
def interpolate (lo mid hi : ℕ) (w : K) : ℕ :=
  if w ≤ 0 then lo + nearest ((w + 1) * (mid - lo)) else mid + nearest (w * (hi - mid))

variable [IsStrictOrderedRing K] {x y : K} {n lo mid hi : ℕ}

/-! ### Rounding -/

theorem nearest_le_iff : nearest x ≤ n ↔ x ≤ n + 1 / 2 := by
  have hlt := Nat.lt_floor_add_one x
  unfold nearest
  split
  · rename_i hup
    constructor
    · intro hle
      have hcast : (⌊x⌋₊ : K) + 1 ≤ n := by exact_mod_cast hle
      linarith
    · intro hle
      have hcast : (⌊x⌋₊ : K) < n := by linarith
      exact_mod_cast hcast
  · rename_i hdown
    constructor
    · intro hle
      have hcast : (⌊x⌋₊ : K) ≤ n := by exact_mod_cast hle
      linarith
    · intro hle
      have hfloor : ⌊x⌋₊ < n + 1 := (Nat.floor_lt' (Nat.succ_ne_zero n)).2 (by push_cast; linarith)
      exact Nat.lt_succ_iff.1 hfloor

theorem nearest_mono : Monotone (nearest : K → ℕ) := by
  intro x y hxy
  exact nearest_le_iff.2 (hxy.trans (nearest_le_iff.1 (le_refl _)))

@[simp] theorem nearest_natCast (n : ℕ) : nearest (n : K) = n := by
  have hhalf : ¬ (1 / 2 : K) < 0 := by norm_num
  rw [nearest, Nat.floor_natCast, sub_self, if_neg hhalf]

@[simp] theorem nearest_zero : nearest (0 : K) = 0 := by
  have h := nearest_natCast (K := K) 0
  rwa [Nat.cast_zero] at h

theorem abs_nearest_sub_le (hx : 0 ≤ x) : |(nearest x : K) - x| ≤ 1 / 2 := by
  have hge : x ≤ nearest x + 1 / 2 := nearest_le_iff.1 (le_refl _)
  have hfloor := Nat.floor_le hx
  have hle : (nearest x : K) ≤ x + 1 / 2 := by
    unfold nearest
    split
    · push_cast
      linarith
    · linarith
  rw [abs_le]
  constructor <;> linarith

theorem nearest_div (S : ℕ) (hn : 0 < n) : nearest ((S : K) / n) = roundedDiv K S n := by
  have hpos : (0 : K) < n := by exact_mod_cast hn
  have hdiv : (S : K) = n * (S / n : ℕ) + (S % n : ℕ) := by
    exact_mod_cast (Nat.div_add_mod S n).symm
  have hrem : (S : K) / n - (S / n : ℕ) = (S % n : ℕ) / n := by
    rw [eq_div_iff hpos.ne', sub_mul, div_mul_cancel₀ _ hpos.ne']
    linarith
  have hiff : 1 / 2 < ((S % n : ℕ) : K) / n ↔ (n : K) / 2 < (S % n : ℕ) := by
    rw [lt_div_iff₀ hpos, one_div, ← div_eq_inv_mul]
  rw [nearest, roundedDiv, Nat.floor_div_eq_div, hrem]
  simp only [hiff]

/-! ### Interpolation -/

@[simp] theorem interpolate_neg_one : interpolate lo mid hi (-1 : K) = lo := by
  simp [interpolate]

@[simp] theorem interpolate_zero (h : lo ≤ mid) : interpolate lo mid hi (0 : K) = mid := by
  have hsub : (0 + 1) * ((mid : K) - lo) = (mid - lo : ℕ) := by
    rw [zero_add, one_mul, Nat.cast_sub h]
  rw [interpolate, if_pos (le_refl _), hsub, nearest_natCast]
  omega

@[simp] theorem interpolate_one (h : mid ≤ hi) : interpolate lo mid hi (1 : K) = hi := by
  have hsub : 1 * ((hi : K) - mid) = (hi - mid : ℕ) := by
    rw [one_mul, Nat.cast_sub h]
  rw [interpolate, if_neg (not_le.2 one_pos), hsub, nearest_natCast]
  omega

/-- The two sides meet at `mid`, so the rounding does not break the order where they do. -/
theorem interpolate_mono (h : lo ≤ mid) (h' : mid ≤ hi) :
    Monotone (interpolate lo mid hi : K → ℕ) := by
  have hlo : (0 : K) ≤ mid - lo := sub_nonneg.2 (by exact_mod_cast h)
  have hhi : (0 : K) ≤ hi - mid := sub_nonneg.2 (by exact_mod_cast h')
  have hbelow : ∀ {w : K}, w ≤ 0 → lo + nearest ((w + 1) * (mid - lo)) ≤ mid := by
    intro w hw
    have hway : (w + 1) * ((mid : K) - lo) ≤ (mid - lo : ℕ) := by
      rw [Nat.cast_sub h]
      exact mul_le_of_le_one_left hlo (by linarith)
    have hle := nearest_mono hway
    rw [nearest_natCast] at hle
    omega
  intro w w' hww
  unfold interpolate
  by_cases hw' : w' ≤ 0
  · rw [if_pos (hww.trans hw'), if_pos hw']
    exact Nat.add_le_add_left (nearest_mono (mul_le_mul_of_nonneg_right (by linarith) hlo)) lo
  · rw [if_neg hw']
    by_cases hw : w ≤ 0
    · rw [if_pos hw]
      exact (hbelow hw).trans (Nat.le_add_right mid _)
    · rw [if_neg hw]
      exact Nat.add_le_add_left (nearest_mono (mul_le_mul_of_nonneg_right hww hhi)) mid

theorem interpolate_le (h : lo ≤ mid) (h' : mid ≤ hi) (hx : x ≤ 1) :
    interpolate lo mid hi x ≤ hi := by
  have hle := interpolate_mono h h' hx
  rwa [interpolate_one h'] at hle

end Nearest

end V2nLte
