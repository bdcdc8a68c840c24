import Mathlib.Data.List.Basic

/-!
# Computations that can throw

`Ensures E P x` is the specification of a computation `x : Except ε α`: a value it returns
satisfies `P`, an exception it throws satisfies `E`.  With `E` constantly false `x` returns.
-/

namespace V2nLte

variable {ε α β : Type}

/-- What `x` returns satisfies `P`, what it throws satisfies `E`. -/
def Ensures (E : ε → Prop) (P : α → Prop) : Except ε α → Prop
  | .ok a => P a
  | .error e => E e

theorem toOption_eq_some {x : Except ε α} {a : α} : x.toOption = some a ↔ x = .ok a := by
  cases x with
  | ok b => simp [Except.toOption]
  | error e => simp [Except.toOption]

theorem mapError_eq_ok {δ : Type} {x : Except ε α} {f : ε → δ} {a : α} :
    x.mapError f = .ok a ↔ x = .ok a := by
  cases x with
  | error e => exact iff_of_false nofun nofun
  | ok b => simp only [Except.mapError, Except.ok.injEq]

/-- A computation in two parts returns iff both do. -/
theorem bind_eq_ok {x : Except ε α} {f : α → Except ε β} {b : β} :
    x >>= f = .ok b ↔ ∃ a, x = .ok a ∧ f a = .ok b := by
  constructor
  · intro h
    cases x with
    | ok a => exact ⟨a, rfl, h⟩
    | error e => cases h
  · rintro ⟨a, rfl, h⟩
    exact h

namespace Ensures

variable {E : ε → Prop} {P Q : α → Prop} {R : β → Prop} {x : Except ε α} {f : α → Except ε β}

@[simp] theorem ok {a : α} : Ensures E P (.ok a) ↔ P a := Iff.rfl

@[simp] theorem error {e : ε} : Ensures E P (.error e) ↔ E e := Iff.rfl

theorem mono (h : Ensures E P x) (hPQ : ∀ a, P a → Q a) : Ensures E Q x := by
  cases x with
  | ok a => exact hPQ a h
  | error e => exact h

theorem weaken {F : ε → Prop} (h : Ensures E P x) (hEF : ∀ e, E e → F e) : Ensures F P x := by
  cases x with
  | ok a => exact h
  | error e => exact hEF e h

theorem bind (h : Ensures E P x) (hf : ∀ a, P a → Ensures E R (f a)) :
    Ensures E R (x >>= f) := by
  cases x with
  | ok a => exact hf a h
  | error e => exact h

theorem map {g : α → β} (h : Ensures E (fun a => R (g a)) x) : Ensures E R (g <$> x) := by
  cases x with
  | ok a => exact h
  | error e => exact h

/-- What is said about a result that is computed with `f` whatever `x` returns. -/
theorem after (hf : ∀ a, Ensures (fun _ => True) R (f a)) :
    Ensures (fun _ => True) R (x >>= f) := by
  cases x with
  | ok a => exact hf a
  | error e => trivial

/-- **The rule for a counting loop**, with an invariant that depends on the counter. -/
theorem foldlM_range' {I : ℕ → α → Prop} {g : α → ℕ → Except ε α} {n : ℕ} {i : ℕ} {a : α}
    (h₀ : I i a)
    (hstep : ∀ j a, i ≤ j → j < i + n → I j a → Ensures E (I (j + 1)) (g a j)) :
    Ensures E (I (i + n)) ((List.range' i n).foldlM g a) := by
  induction n generalizing i a with
  | zero => exact h₀
  | succ n ih =>
    rw [List.range'_succ, List.foldlM_cons]
    refine Ensures.bind (hstep i a (Nat.le_refl i) (by omega) h₀) fun a' ha' => ?_
    have h := ih ha' fun j b hij hjn hI => hstep j b (by omega) (by omega) hI
    rwa [show i + 1 + n = i + (n + 1) by omega] at h

/-- **The rule for a loop over a list**, with an invariant. -/
theorem foldlM {I : α → Prop} {g : α → β → Except ε α} {xs : List β} {a : α} (h₀ : I a)
    (hstep : ∀ a b, I a → Ensures E I (g a b)) : Ensures E I (xs.foldlM g a) := by
  induction xs generalizing a with
  | nil => exact h₀
  | cons b xs ih =>
    rw [List.foldlM_cons]
    exact Ensures.bind (hstep a b h₀) fun a' ha' => ih ha'

/-- **The rule for a loop over a list**, with an invariant that depends on the part that is done. -/
theorem foldlM_prefix {I : List β → α → Prop} {g : α → β → Except ε α} {xs : List β} {a : α}
    (h₀ : I [] a)
    (hstep : ∀ pre b post a, xs = pre ++ b :: post → I pre a → Ensures E (I (pre ++ [b])) (g a b)) :
    Ensures E (I xs) (xs.foldlM g a) := by
  induction xs generalizing I a with
  | nil => exact h₀
  | cons b xs ih =>
    rw [List.foldlM_cons]
    refine Ensures.bind (hstep [] b xs a rfl h₀) fun a' ha' => ?_
    refine ih (I := fun pre => I (b :: pre)) ha' fun pre c post a'' hxs hI => ?_
    exact hstep (b :: pre) c post a'' (by rw [hxs, List.cons_append]) hI

/-- A computation that may throw nothing returns. -/
theorem exists_ok (h : Ensures (fun _ => False) P x) : ∃ a, x = .ok a ∧ P a := by
  cases x with
  | ok a => exact ⟨a, rfl, h⟩
  | error e => exact h.elim

end Ensures

/-! ### Loops in which something happens -/

/-- The loop of `step` over a list comes to an element `x` in a state `s` with `P s x`. -/
def AtSome (step : α → β → Except ε α) (P : α → β → Prop) : α → List β → Prop
  | _, [] => False
  | s, x :: xs => P s x ∨ ∃ s', step s x = .ok s' ∧ AtSome step P s' xs

/-- **The rule for what a loop adds up to.**  If each iteration relates the states around it by
`R`, with what it does, then so does the loop, with whether some iteration does it. -/
theorem foldlM_rel {R : α → α → Prop → Prop} {J : List β → α → Prop}
    {step : α → β → Except ε α} {P : α → β → Prop} (hrefl : ∀ s, R s s False)
    (htrans : ∀ {s s' s'' p q}, R s s' p → R s' s'' q → R s s'' (p ∨ q))
    (hstep : ∀ {x xs s s'}, J (x :: xs) s → step s x = .ok s' → R s s' (P s x) ∧ J xs s')
    {xs : List β} {s s' : α} (hJ : J xs s) (h : xs.foldlM step s = .ok s') :
    R s s' (AtSome step P s xs) ∧ J [] s' := by
  induction xs generalizing s with
  | nil =>
    cases h
    exact ⟨hrefl _, hJ⟩
  | cons x xs ih =>
    rw [List.foldlM_cons] at h
    obtain ⟨s₁, hs₁, h⟩ := bind_eq_ok.1 h
    obtain ⟨hR, hJ₁⟩ := hstep hJ hs₁
    have hiff : AtSome step P s (x :: xs) = (P s x ∨ AtSome step P s₁ xs) := by
      refine propext (or_congr_right ⟨?_, fun h => ⟨s₁, hs₁, h⟩⟩)
      rintro ⟨s₂, hs₂, h⟩
      cases hs₁.symm.trans hs₂
      exact h
    obtain ⟨hrest, hJ'⟩ := ih hJ₁ h
    rw [hiff]
    exact ⟨htrans hR hrest, hJ'⟩

end V2nLte
