import Mathlib.Data.Nat.Notation
import Mathlib.Logic.Function.Basic

/-!
# Moving an array to the front, in place

A window over a sequence of numbers is an array of positions.  When the window moves by `pos`, the
first `pos` positions are emptied and every other one is copied `pos` places to the front and
emptied, one after the other.  `shifted f blank pos j` is the array `f` when the positions before
`j` have been treated; with several arrays side by side, all of them are `shifted`.

Where the first `pos` positions are not emptied, the array is `copied`.  The result is the same
unless one of them is neither empty nor overwritten.

## Main results

* `shifted_clear`, `shifted_move` : one turn of the loop, before and from position `pos` on.
* `shifted_all` : the array afterwards is the old one, read from `pos` on.
* `copied_move`, `copied_all` : the same where the first positions are not emptied.
-/

namespace V2nLte

variable {α : Type*}

/-- The array `f` after the positions before `j` have been emptied or moved. -/
def shifted (f : ℕ → α) (blank : α) (pos j : ℕ) : ℕ → α := fun i =>
  if i + pos < j then f (i + pos) else if i < j then blank else f i

variable {f : ℕ → α} {blank : α} {pos j : ℕ}

@[simp] theorem shifted_zero : shifted f blank pos 0 = f := by
  funext i
  simp [shifted]

theorem shifted_of_le {i : ℕ} (hi : j ≤ i) : shifted f blank pos j i = f i := by
  unfold shifted
  rw [if_neg (by omega), if_neg (by omega)]

/-- The place a position moves to has been emptied before. -/
theorem shifted_target (hpos : 0 < pos) (hj : pos ≤ j) :
    shifted f blank pos j (j - pos) = blank := by
  unfold shifted
  rw [if_neg (by omega), if_pos (by omega)]

/-- A position before `pos` is emptied. -/
theorem shifted_clear (hj : j < pos) :
    Function.update (shifted f blank pos j) j blank = shifted f blank pos (j + 1) := by
  funext i
  unfold shifted
  rw [Function.update_apply]
  by_cases hi : i = j
  · subst hi
    rw [if_pos rfl, if_neg (by omega), if_pos (by omega)]
  · rw [if_neg hi, if_neg (show ¬i + pos < j by omega), if_neg (show ¬i + pos < j + 1 by omega)]
    by_cases hlt : i < j
    · rw [if_pos hlt, if_pos (by omega)]
    · rw [if_neg hlt, if_neg (by omega)]

/-- A position from `pos` on is copied to the front and emptied. -/
theorem shifted_move (hpos : 0 < pos) (hj : pos ≤ j) :
    Function.update (Function.update (shifted f blank pos j) (j - pos) (f j)) j blank =
      shifted f blank pos (j + 1) := by
  funext i
  unfold shifted
  rw [Function.update_apply, Function.update_apply]
  by_cases hi : i = j
  · subst hi
    rw [if_pos rfl, if_neg (by omega), if_pos (by omega)]
  · rw [if_neg hi]
    by_cases htarget : i = j - pos
    · rw [if_pos htarget, if_pos (by omega), show i + pos = j by omega]
    · rw [if_neg htarget]
      by_cases hmoved : i + pos < j
      · rw [if_pos hmoved, if_pos (by omega)]
      · rw [if_neg hmoved, if_neg (show ¬i + pos < j + 1 by omega)]
        by_cases hlt : i < j
        · rw [if_pos hlt, if_pos (by omega)]
        · rw [if_neg hlt, if_neg (by omega)]

/-- If `f` is empty from `n` on, all of it has moved when the positions before `n` have. -/
theorem shifted_all {n : ℕ} (hf : ∀ i, n ≤ i → f i = blank) :
    shifted f blank pos n = fun i => f (i + pos) := by
  funext i
  unfold shifted
  by_cases hmoved : i + pos < n
  · rw [if_pos hmoved]
  · rw [if_neg hmoved, hf (i + pos) (by omega)]
    by_cases hlt : i < n
    · rw [if_pos hlt]
    · rw [if_neg hlt, hf i (by omega)]

/-- The array `f` after the positions from `pos` on, before `j`, have been moved. -/
def copied (f : ℕ → α) (blank : α) (pos j : ℕ) : ℕ → α := fun i =>
  if i + pos < j then f (i + pos) else if pos ≤ i ∧ i < j then blank else f i

@[simp] theorem copied_start : copied f blank pos pos = f := by
  funext i
  unfold copied
  rw [if_neg (by omega), if_neg (by omega)]

theorem copied_of_le {i : ℕ} (hi : j ≤ i) : copied f blank pos j i = f i := by
  unfold copied
  rw [if_neg (by omega), if_neg (by omega)]

/-- A position from `pos` on is copied to the front and emptied. -/
theorem copied_move (hpos : 0 < pos) (hj : pos ≤ j) :
    Function.update (Function.update (copied f blank pos j) (j - pos) (f j)) j blank =
      copied f blank pos (j + 1) := by
  funext i
  unfold copied
  rw [Function.update_apply, Function.update_apply]
  by_cases hi : i = j
  · subst hi
    rw [if_pos rfl, if_neg (by omega), if_pos (by omega)]
  · rw [if_neg hi]
    by_cases htarget : i = j - pos
    · rw [if_pos htarget, if_pos (by omega), show i + pos = j by omega]
    · rw [if_neg htarget]
      by_cases hmoved : i + pos < j
      · rw [if_pos hmoved, if_pos (by omega)]
      · rw [if_neg hmoved, if_neg (show ¬i + pos < j + 1 by omega)]
        by_cases hlt : pos ≤ i ∧ i < j
        · rw [if_pos hlt, if_pos (by omega)]
        · rw [if_neg hlt, if_neg (by omega)]

/-- If `f` is empty from `n` on, and so are the first positions that are not overwritten, all of it
has moved when the positions before `n` have. -/
theorem copied_all {n : ℕ} (hf : ∀ i, n ≤ i → f i = blank)
    (hfirst : ∀ i, n ≤ i + pos → i < pos → f i = blank) :
    copied f blank pos n = fun i => f (i + pos) := by
  funext i
  unfold copied
  by_cases hmoved : i + pos < n
  · rw [if_pos hmoved]
  · rw [if_neg hmoved, hf (i + pos) (by omega)]
    by_cases hlt : pos ≤ i ∧ i < n
    · rw [if_pos hlt]
    · rw [if_neg hlt]
      by_cases hi : i < pos
      · exact hfirst i (by omega) hi
      · exact hf i (by omega)

end V2nLte
