import Mathlib.Data.List.Chain
import Mathlib.Data.List.Perm.Basic

/-!
# Sorting by passes until nothing moves

`while (swap)` loops that exchange neighbours in the wrong order sort stably: `gt a b` says that
`a` has to stand behind `b`, and elements that may stand either way keep their order.

* `sortLoop_eq_some` : the loop comes to an end.
* `sortLoop_perm`, `sortLoop_pairwise` : its result, for elements that stand in the order `s` at
  first, is determined by `gt` and `s`.
-/

namespace V2nLte

namespace BubbleSort

variable {α : Type*} (gt : α → α → Bool)

/-- One pass over the elements behind `a`, and whether it has exchanged something. -/
def passFrom (a : α) : List α → List α × Bool
  | [] => ([a], false)
  | b :: l =>
    if gt a b then (b :: (passFrom a l).1, true)
    else (a :: (passFrom b l).1, (passFrom b l).2)

/-- One pass. -/
def pass : List α → List α × Bool
  | [] => ([], false)
  | a :: l => passFrom gt a l

/-- `while (swap)`; `none` if the fuel does not suffice. -/
def sortLoop : ℕ → List α → Option (List α)
  | 0, _ => none
  | fuel + 1, l =>
    if (pass gt l).2 then sortLoop fuel (pass gt l).1 else some (pass gt l).1

/-- The number of pairs in the wrong order. -/
def inversions : List α → ℕ
  | [] => 0
  | a :: l => l.countP (gt a) + inversions l

variable {gt} {s : α → α → Prop} {l l' : List α}

theorem passFrom_perm (a : α) (l : List α) : (passFrom gt a l).1.Perm (a :: l) := by
  fun_induction passFrom gt a l with
  | case1 a => exact .refl _
  | case2 a b l h ih => exact (ih.cons b).trans (.swap a b l)
  | case3 a b l h ih => exact ih.cons a

theorem inversions_le (l : List α) : inversions gt l ≤ l.length * l.length := by
  induction l with
  | nil => exact Nat.le_refl 0
  | cons a l ih =>
    have hcount : l.countP (gt a) ≤ l.length := List.countP_le_length
    rw [inversions, List.length_cons, Nat.succ_mul, Nat.mul_succ]
    omega

/-- Every exchange removes a pair in the wrong order. -/
theorem inversions_passFrom (hasymm : ∀ a b, gt a b = true → gt b a = false) (a : α)
    (l : List α) :
    inversions gt (passFrom gt a l).1 + (if (passFrom gt a l).2 then 1 else 0) ≤
      inversions gt (a :: l) := by
  fun_induction passFrom gt a l with
  | case1 a => exact Nat.le_refl _
  | case2 a b l h ih =>
    have hcount : (passFrom gt a l).1.countP (gt b) = l.countP (gt b) := by
      rw [List.Perm.countP_eq _ (passFrom_perm a l), List.countP_cons_of_neg]
      rw [hasymm a b h]
      exact Bool.false_ne_true
    simp only [inversions, List.countP_cons, h, hcount, ↓reduceIte] at ih ⊢
    omega
  | case3 a b l h ih =>
    have hcount : (passFrom gt b l).1.countP (gt a) = (b :: l).countP (gt a) :=
      List.Perm.countP_eq _ (passFrom_perm b l)
    simp only [inversions, hcount] at ih ⊢
    omega

/-- A pass that exchanges nothing leaves a list whose neighbours are in order. -/
theorem passFrom_of_not_swap {a : α} (h : (passFrom gt a l).2 = false) :
    (passFrom gt a l).1 = a :: l ∧ (a :: l).IsChain fun a b => gt a b = false := by
  fun_induction passFrom gt a l with
  | case1 a => exact ⟨rfl, .singleton a⟩
  | case2 a b l hab ih => cases h
  | case3 a b l hab ih =>
    obtain ⟨heq, hchain⟩ := ih h
    exact ⟨congrArg (a :: ·) heq, .cons_cons (Bool.eq_false_iff.2 hab) hchain⟩

/-- Elements that may stand either way keep their order. -/
theorem passFrom_stable {a : α}
    (h : (a :: l).Pairwise fun a b => gt a b = true ∨ gt b a = true ∨ s a b) :
    (passFrom gt a l).1.Pairwise fun a b => gt a b = true ∨ gt b a = true ∨ s a b := by
  fun_induction passFrom gt a l with
  | case1 a => exact h
  | case2 a b l hab ih =>
    rw [List.pairwise_cons, List.pairwise_cons] at h
    obtain ⟨ha, hb, hl⟩ := h
    have hal : (a :: l).Pairwise fun a b => gt a b = true ∨ gt b a = true ∨ s a b :=
      List.pairwise_cons.2 ⟨fun x hx => ha x (List.mem_cons_of_mem b hx), hl⟩
    refine List.pairwise_cons.2 ⟨fun x hx => ?_, ih hal⟩
    rcases List.mem_cons.1 ((passFrom_perm a l).subset hx) with rfl | hx
    · exact .inr (.inl hab)
    · exact hb x hx
  | case3 a b l hab ih =>
    rw [List.pairwise_cons] at h
    refine List.pairwise_cons.2 ⟨fun x hx => ?_, ih h.2⟩
    exact h.1 x ((passFrom_perm b l).subset hx)

theorem pass_perm (l : List α) : (pass gt l).1.Perm l := by
  cases l with
  | nil => exact .refl []
  | cons a l => exact passFrom_perm a l

theorem inversions_pass (hasymm : ∀ a b, gt a b = true → gt b a = false) (l : List α) :
    inversions gt (pass gt l).1 + (if (pass gt l).2 then 1 else 0) ≤ inversions gt l := by
  cases l with
  | nil => exact Nat.le_refl 0
  | cons a l => exact inversions_passFrom hasymm a l

theorem pass_of_not_swap (h : (pass gt l).2 = false) :
    (pass gt l).1 = l ∧ l.IsChain fun a b => gt a b = false := by
  cases l with
  | nil => exact ⟨rfl, .nil⟩
  | cons a l => exact passFrom_of_not_swap h

theorem pass_stable (h : l.Pairwise fun a b => gt a b = true ∨ gt b a = true ∨ s a b) :
    (pass gt l).1.Pairwise fun a b => gt a b = true ∨ gt b a = true ∨ s a b := by
  cases l with
  | nil => exact h
  | cons a l => exact passFrom_stable h

/-! ### The loop -/

theorem sortLoop_eq_some (hasymm : ∀ a b, gt a b = true → gt b a = false) {fuel : ℕ}
    (h : inversions gt l < fuel) : ∃ l', sortLoop gt fuel l = some l' := by
  induction fuel generalizing l with
  | zero => cases h
  | succ fuel ih =>
    have hinv := inversions_pass hasymm l
    rw [sortLoop]
    split_ifs with hswap
    · rw [if_pos hswap] at hinv
      exact ih (by omega)
    · exact ⟨_, rfl⟩

/-- What a pass preserves holds of the result. -/
theorem sortLoop_induction {I : List α → Prop} (hpass : ∀ l, I l → I (pass gt l).1) {fuel : ℕ}
    (hl : I l) (h : sortLoop gt fuel l = some l') : I l' := by
  induction fuel generalizing l with
  | zero => cases h
  | succ fuel ih =>
    rw [sortLoop] at h
    split_ifs at h with hswap
    · exact ih (hpass l hl) h
    · cases h
      exact hpass l hl

theorem sortLoop_perm {fuel : ℕ} (h : sortLoop gt fuel l = some l') : l'.Perm l :=
  sortLoop_induction (I := fun l' => l'.Perm l) (fun l' hl' => (pass_perm l').trans hl') (.refl l) h

theorem sortLoop_isChain {fuel : ℕ} (h : sortLoop gt fuel l = some l') :
    l'.IsChain fun a b => gt a b = false := by
  induction fuel generalizing l with
  | zero => cases h
  | succ fuel ih =>
    rw [sortLoop] at h
    split_ifs at h with hswap
    · exact ih h
    · cases h
      obtain ⟨heq, hchain⟩ := pass_of_not_swap (Bool.eq_false_iff.2 hswap)
      rwa [heq]

/-- **The result is sorted stably.** -/
theorem sortLoop_pairwise
    (htrans : ∀ a b c, gt a b = false → gt b c = false → gt a c = false) {fuel : ℕ}
    (hl : l.Pairwise s) (h : sortLoop gt fuel l = some l') :
    l'.Pairwise fun a b => gt a b = false ∧ (gt b a = true ∨ s a b) := by
  have htrans' : IsTrans α fun a b => gt a b = false := ⟨htrans⟩
  have hsorted : l'.Pairwise fun a b => gt a b = false :=
    List.isChain_iff_pairwise.1 (sortLoop_isChain h)
  have hstable : l'.Pairwise fun a b => gt a b = true ∨ gt b a = true ∨ s a b :=
    sortLoop_induction (fun _ => pass_stable) (hl.imp fun hab => .inr (.inr hab)) h
  refine hsorted.imp₂ (fun a b hab hor => ⟨hab, hor.resolve_left ?_⟩) hstable
  rw [hab]
  exact Bool.false_ne_true

end BubbleSort

end V2nLte
