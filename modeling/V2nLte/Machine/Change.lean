import V2nLte.Machine.Handler
import Mathlib.Algebra.Ring.Nat

/-!
# Handlers as sequences of small changes

A long handler does few kinds of things.  `Chain R n s s' os` says that `s` becomes `s'`, with the
outputs `os`, by small changes of the kinds in `R`, which together cost `n`; `Performs R n x` that
the handler `x` does no more than that, whether it returns or throws.  Once this is known of a
handler, what each small change keeps is kept by the handler.

* `Performs.bind`, `Performs.eachOf` : the costs add up.
* `Chain.invariant` : the rule for what all small changes keep.
-/

namespace V2nLte

variable {S O α β : Type}

/-- `R s s' o k` : a small change from `s` to `s'` with the outputs `o`, which costs `k`. -/
inductive Chain (R : S → S → List O → ℕ → Prop) (s : S) : ℕ → S → List O → Prop
  | nil : Chain R s 0 s []
  | snoc {n k : ℕ} {s' s'' : S} {os o : List O} (h : Chain R s n s' os) (hR : R s' s'' o k) :
      Chain R s (n + k) s'' (os ++ o)

namespace Chain

variable {R : S → S → List O → ℕ → Prop} {s s' s'' : S} {os os' : List O} {m n : ℕ}

theorem of_change (h : R s s' os n) : Chain R s n s' os := by
  simpa using snoc nil h

theorem trans (h : Chain R s m s' os) (h' : Chain R s' n s'' os') :
    Chain R s (m + n) s'' (os ++ os') := by
  induction h' with
  | nil => simpa using h
  | snoc _ hR ih =>
    rw [← Nat.add_assoc, ← List.append_assoc]
    exact snoc ih hR

/-- **The rule for small changes.**  What holds at first and is kept by every small change holds
after any number of them. -/
theorem invariant {J : S → List O → ℕ → Prop} (h₀ : J s [] 0)
    (hstep : ∀ s s' os o n k, J s os n → R s s' o k → J s' (os ++ o) (n + k))
    (h : Chain R s n s' os) : J s' os n := by
  induction h with
  | nil => exact h₀
  | snoc _ hR ih => exact hstep _ _ _ _ _ _ ih hR

end Chain

namespace Handler

variable (R : S → S → List O → ℕ → Prop)

/-- From the state `s` on, `x` makes small changes that cost at most `n`. -/
def PerformsAt (s : S) (n : ℕ) (x : Handler S O α) : Prop :=
  ∃ m ≤ n, Chain R s m (x s).state (x s).out

/-- From every state on, `x` makes small changes that cost at most `n`. -/
def Performs (n : ℕ) (x : Handler S O α) : Prop := ∀ s, PerformsAt R s n x

variable {R} {s : S} {m n : ℕ} {x : Handler S O α} {f : α → Handler S O β}

namespace PerformsAt

theorem of_change (h : R s (x s).state (x s).out n) : PerformsAt R s n x :=
  ⟨n, Nat.le_refl n, .of_change h⟩

theorem pure (a : α) : PerformsAt R s n (Pure.pure a) := ⟨0, Nat.zero_le n, .nil⟩

theorem fail : PerformsAt R s n (Handler.fail : Handler S O α) := ⟨0, Nat.zero_le n, .nil⟩

theorem mono (h : PerformsAt R s m x) (hmn : m ≤ n) : PerformsAt R s n x := by
  obtain ⟨k, hk, hchain⟩ := h
  exact ⟨k, Nat.le_trans hk hmn, hchain⟩

theorem get_bind {f : S → Handler S O β} (h : PerformsAt R s n (f s)) :
    PerformsAt R s n (get >>= f) := by
  obtain ⟨k, hk, hchain⟩ := h
  exact ⟨k, hk, by simpa [bind_apply] using hchain⟩

theorem bind (hx : PerformsAt R s m x)
    (hf : ∀ a, (x s).value = some a → PerformsAt R (x s).state n (f a)) :
    PerformsAt R s (m + n) (x >>= f) := by
  obtain ⟨k, hk, hchain⟩ := hx
  unfold PerformsAt
  rw [bind_apply]
  cases hv : (x s).value with
  | none => exact ⟨k, Nat.le_trans hk (Nat.le_add_right m n), hchain⟩
  | some a =>
    obtain ⟨k', hk', hchain'⟩ := hf a hv
    exact ⟨k + k', Nat.add_le_add hk hk', hchain.trans hchain'⟩

end PerformsAt

namespace Performs

theorem bind (hx : Performs R m x) (hf : ∀ a, Performs R n (f a)) :
    Performs R (m + n) (x >>= f) :=
  fun s => PerformsAt.bind (hx s) fun a _ => hf a (x s).state

theorem mono (h : Performs R m x) (hmn : m ≤ n) : Performs R n x := fun s => (h s).mono hmn

theorem eachOf {f : β → Handler S O Unit} {c : β → ℕ} (h : ∀ b, Performs R (c b) (f b))
    (l : List β) : Performs R (l.map c).sum (Handler.eachOf f l) := by
  induction l with
  | nil => exact fun s => .pure ()
  | cons b l ih =>
    rw [List.map_cons, List.sum_cons]
    exact (h b).bind fun _ => ih

end Performs

end Handler

end V2nLte
