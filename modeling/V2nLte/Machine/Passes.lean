import Mathlib.Logic.Basic
import Mathlib.Order.Lattice

/-!
# Passes over a list

A pass offers something to the elements of a list, one after the other, skips some of them and
ends early after an element with `ends`.  `Pass s xs s' offered left` is such a pass from the
state `s` to `s'`; `left` are the elements that got no offer.

* `Pass.perm` : every element is among the one or the other.
* `Pass.invariant` : what every offer keeps, the pass keeps.

A loop over candidates, each with its value, may keep the best one so far: `best.foldl better`.
What it keeps has the largest value, unless none is better than what the loop began with.
-/

namespace V2nLte

/-! ### Passes -/

section

variable {σ α ε : Type} (offer : σ → α → Except ε σ) (skip : α → Prop) (ends : σ → α → Prop)

/-- A pass over a list, with the elements that get an offer and those that do not. -/
inductive Pass : σ → List α → σ → List α → List α → Prop
  | done {s : σ} : Pass s [] s [] []
  | skip {s s' : σ} {x : α} {xs offered left : List α} : skip x → Pass s xs s' offered left →
    Pass s (x :: xs) s' offered (x :: left)
  | last {s s' : σ} {x : α} {xs : List α} : ¬skip x → offer s x = .ok s' → ends s x →
    Pass s (x :: xs) s' [x] xs
  | next {s s₁ s' : σ} {x : α} {xs offered left : List α} : ¬skip x → offer s x = .ok s₁ →
    ¬ends s x → Pass s₁ xs s' offered left → Pass s (x :: xs) s' (x :: offered) left

variable {offer skip ends} {s s₁ s' : σ} {x : α} {xs offered left : List α}

/-- Every element gets an offer or is left out. -/
theorem Pass.perm (h : Pass offer skip ends s xs s' offered left) :
    xs.Perm (offered ++ left) := by
  induction h with
  | done => exact .nil
  | skip _ _ ih => exact (ih.cons _).trans List.perm_middle.symm
  | last => exact .refl _
  | next _ _ _ _ ih => exact ih.cons _

/-- What every offer keeps, the pass keeps. -/
theorem Pass.invariant {I : σ → Prop} (h : Pass offer skip ends s xs s' offered left) (h₀ : I s)
    (hstep : ∀ s x s', I s → offer s x = .ok s' → I s') : I s' := by
  induction h with
  | done => exact h₀
  | skip _ _ ih => exact ih h₀
  | last _ hoffer => exact hstep _ _ _ h₀ hoffer
  | next _ hoffer _ _ ih => exact ih (hstep _ _ _ h₀ hoffer)

end

/-! ### The best so far -/

variable {K A : Type*} [LinearOrder K]

/-- The candidate `x` takes the place of `best` if its value is larger. -/
def better (best x : K × A) : K × A := if best.1 < x.1 then x else best

theorem le_better (best x : K × A) : best.1 ≤ (better best x).1 := by
  unfold better
  split
  · rename_i hlt
    exact hlt.le
  · exact le_refl _

theorem right_le_better (best x : K × A) : x.1 ≤ (better best x).1 := by
  unfold better
  split
  · exact le_refl _
  · rename_i hlt
    exact not_lt.1 hlt

theorem le_foldl_better (best : K × A) (xs : List (K × A)) :
    best.1 ≤ (xs.foldl better best).1 := by
  induction xs generalizing best with
  | nil => exact le_refl _
  | cons x xs ih => exact (le_better best x).trans (ih _)

/-- No candidate is better than what is kept. -/
theorem mem_le_foldl_better (best : K × A) {xs : List (K × A)} {x : K × A} (hx : x ∈ xs) :
    x.1 ≤ (xs.foldl better best).1 := by
  induction xs generalizing best with
  | nil => cases hx
  | cons y xs ih =>
    rcases List.mem_cons.1 hx with rfl | hx
    · exact (right_le_better best x).trans (le_foldl_better _ xs)
    · exact ih _ hx

/-- It is what the loop began with, or a candidate that is better. -/
theorem foldl_better_eq (best : K × A) (xs : List (K × A)) :
    xs.foldl better best = best ∨
      xs.foldl better best ∈ xs ∧ best.1 < (xs.foldl better best).1 := by
  induction xs generalizing best with
  | nil => exact .inl rfl
  | cons x xs ih =>
    rw [List.foldl_cons]
    by_cases hlt : best.1 < x.1
    · have hx : better best x = x := if_pos hlt
      rw [hx]
      rcases ih x with heq | ⟨hmem, hlt'⟩
      · rw [heq]
        exact .inr ⟨List.mem_cons_self, hlt⟩
      · exact .inr ⟨List.mem_cons_of_mem x hmem, hlt.trans hlt'⟩
    · have hx : better best x = best := if_neg hlt
      rw [hx]
      exact (ih best).imp_right fun h => ⟨List.mem_cons_of_mem x h.1, h.2⟩

/-- A loop that begins with the first candidate keeps one of the candidates. -/
theorem foldl_better_mem (x : K × A) (xs : List (K × A)) : xs.foldl better x ∈ x :: xs := by
  rcases foldl_better_eq x xs with heq | ⟨hmem, -⟩
  · rw [heq]
    exact List.mem_cons_self
  · exact List.mem_cons_of_mem x hmem

end V2nLte
