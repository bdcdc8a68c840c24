import V2nLte.Machine.Basic
import Mathlib.Algebra.BigOperators.Group.List.Basic
import Mathlib.Algebra.Ring.Nat
import Mathlib.Data.List.Perm.Basic
import Mathlib.Data.Multiset.MapFold

/-!
# Messages in flight

A medium that delivers its messages in any order is a list from which the message at any position
can be taken out.  A run that only takes messages out ends: each step pays with a measure.

* `coe_of_getElem?`, `coe_map_of_getElem?`, `sum_map_of_getElem?`, `countP_of_getElem?`,
  `count_of_getElem?` : what is left of a pool when a message is taken out.
* `Machine.length_add_le` : a run whose steps all lower a measure has no more steps than that.
* `Machine.exists_exec_done` : if there is always a step to take, then some run comes to its end.
-/

namespace V2nLte

variable {α : Type*} {l : List α} {a : α} {n : ℕ}

/-- Taking out the message at a position. -/
theorem coe_of_getElem? (h : l[n]? = some a) :
    (l : Multiset α) = a ::ₘ (l.eraseIdx n : Multiset α) := by
  obtain ⟨hn, rfl⟩ := List.getElem?_eq_some_iff.1 h
  rw [Multiset.cons_coe, Multiset.coe_eq_coe]
  exact (List.getElem_cons_eraseIdx_perm hn).symm

/-- What is said of the messages in flight, when one of them is taken out. -/
theorem coe_map_of_getElem? {β : Type*} (f : α → β) (h : l[n]? = some a) :
    (l.map f : Multiset β) = ((l.eraseIdx n).map f : Multiset β) + {f a} := by
  have hmap := congrArg (Multiset.map f) (coe_of_getElem? h)
  rw [Multiset.map_coe, Multiset.map_cons, Multiset.map_coe] at hmap
  rw [hmap, Multiset.add_comm, Multiset.singleton_add]

/-- A sum over the messages in flight when one of them is taken out. -/
theorem sum_map_of_getElem? (f : α → ℕ) (h : l[n]? = some a) :
    (l.map f).sum = f a + ((l.eraseIdx n).map f).sum := by
  obtain ⟨hn, rfl⟩ := List.getElem?_eq_some_iff.1 h
  rw [← ((List.getElem_cons_eraseIdx_perm hn).map f).sum_eq, List.map_cons, List.sum_cons]

/-- Counting the messages in flight when one of them is taken out. -/
theorem countP_of_getElem? (p : α → Bool) (h : l[n]? = some a) :
    l.countP p = (if p a then 1 else 0) + (l.eraseIdx n).countP p := by
  obtain ⟨hn, rfl⟩ := List.getElem?_eq_some_iff.1 h
  rw [← (List.getElem_cons_eraseIdx_perm hn).countP_eq, List.countP_cons, add_comm]

/-- How often a message is in flight when one is taken out. -/
theorem count_of_getElem? [BEq α] (b : α) (h : l[n]? = some a) :
    l.count b = (if a == b then 1 else 0) + (l.eraseIdx n).count b :=
  countP_of_getElem? (· == b) h

namespace Machine

variable {S E O : Type*} {M : Machine S E O} {s₀ s : S} {es : List E} {os : List O}

/-- **The rule for runs that end.**  If, while an invariant holds, every step that the run may
take keeps it and lowers a measure, then the run has no more steps than the measure allows. -/
theorem length_add_le {I : S → Prop} {A : E → Prop} (μ : S → ℕ)
    (hstep : ∀ s e s' o, I s → A e → M.step s e = some (s', o) → I s' ∧ μ s' < μ s)
    (h₀ : I s₀) (hA : ∀ e ∈ es, A e) (h : M.exec s₀ es = some (s, os)) :
    I s ∧ es.length + μ s ≤ μ s₀ := by
  induction es generalizing s₀ os with
  | nil =>
    obtain ⟨rfl, -⟩ := Prod.mk.inj (Option.some.inj h)
    exact ⟨h₀, by simp⟩
  | cons e es ih =>
    obtain ⟨s₁, o₁, o₂, hst, hex, -⟩ := exec_cons_eq_some.1 h
    obtain ⟨hI, hlt⟩ := hstep s₀ e s₁ o₁ h₀ (hA e List.mem_cons_self) hst
    obtain ⟨hs, hle⟩ := ih hI (fun e he => hA e (List.mem_cons_of_mem _ he)) hex
    refine ⟨hs, ?_⟩
    rw [List.length_cons]
    omega

/-- **The rule for runs that come to an end.**  If, moreover, a step may be taken as long as the
goal is not reached, then some run reaches it. -/
theorem exists_exec_done {I D : S → Prop} {A : E → Prop} (μ : S → ℕ)
    (hstep : ∀ s e s' o, I s → A e → M.step s e = some (s', o) → I s' ∧ μ s' < μ s)
    (hprogress : ∀ s, I s → ¬ D s → ∃ e, A e ∧ ∃ s' o, M.step s e = some (s', o))
    (h₀ : I s₀) :
    ∃ es s os, (∀ e ∈ es, A e) ∧ M.exec s₀ es = some (s, os) ∧ I s ∧ D s := by
  -- the induction is on the measure of the state where the run starts
  induction hn : μ s₀ using Nat.strong_induction_on generalizing s₀ with
  | _ n ih =>
    by_cases hD : D s₀
    · exact ⟨[], s₀, [], by simp, rfl, h₀, hD⟩
    · obtain ⟨e, he, s₁, o, hst⟩ := hprogress s₀ h₀ hD
      obtain ⟨h₁, hlt⟩ := hstep s₀ e s₁ o h₀ he hst
      obtain ⟨es, s, os, hA, hex, hI, hD⟩ := ih (μ s₁) (hn ▸ hlt) h₁ rfl
      refine ⟨e :: es, s, o ++ os, ?_, exec_cons_eq_some.2 ⟨s₁, o, os, hst, hex, rfl⟩, hI, hD⟩
      intro e' he'
      rcases List.mem_cons.1 he' with rfl | he'
      · exact he
      · exact hA e' he'

end Machine

end V2nLte
