import Mathlib.Data.Finset.Card
import Mathlib.Data.Finset.Dedup
import Mathlib.Data.List.Nodup

/-!
# Walks

A walk goes from place to place as a function says, until the function says that it is over.

* `Walk.Ends step a n b` : the walk from `a` is over after `n` moves, with the result `b`.
* `Walk.walk` : the result computed, with fuel.
* `Walk.Ends.le_card` : a walk does not move from a place twice, so that it is over within as many
  moves as there are places to move from, or never.
-/

namespace V2nLte

namespace Walk

variable {α β : Type*} (step : α → β ⊕ α)

/-- The walk from a place is over after so many moves, with this result. -/
inductive Ends : α → ℕ → β → Prop
  | done {a : α} {b : β} (h : step a = .inl b) : Ends a 0 b
  | move {a a' : α} {n : ℕ} {b : β} (h : step a = .inr a') (h' : Ends a' n b) : Ends a (n + 1) b

/-- The moves of a walk and its result, if it has less moves than there is fuel. -/
def walk : ℕ → α → Option (ℕ × β)
  | 0, _ => none
  | fuel + 1, a =>
    match step a with
    | .inl b => some (0, b)
    | .inr a' => (walk fuel a').map fun r => (r.1 + 1, r.2)

variable {step} {a a' : α} {b b' : β} {n n' fuel : ℕ}

theorem Ends.unique (h : Ends step a n b) (h' : Ends step a n' b') : n = n' ∧ b = b' := by
  induction h generalizing n' with
  | done hb =>
    cases h' with
    | done hb' => exact ⟨rfl, Sum.inl.inj (hb.symm.trans hb')⟩
    | move ha _ => simp [hb] at ha
  | move ha _ ih =>
    cases h' with
    | done hb => simp [ha] at hb
    | move ha' h' =>
      obtain rfl := Sum.inr.inj (ha.symm.trans ha')
      obtain ⟨rfl, rfl⟩ := ih h'
      exact ⟨rfl, rfl⟩

theorem walk_eq_some : walk step fuel a = some (n, b) ↔ Ends step a n b ∧ n < fuel := by
  induction fuel generalizing a n with
  | zero => simp [walk]
  | succ fuel ih =>
    constructor
    · intro h
      simp only [walk] at h
      split at h
      · rename_i hb
        obtain ⟨rfl, rfl⟩ := Prod.mk.inj (Option.some.inj h)
        exact ⟨.done hb, Nat.succ_pos fuel⟩
      · rename_i a' ha
        obtain ⟨⟨m, c⟩, hm, heq⟩ := Option.map_eq_some_iff.1 h
        obtain ⟨rfl, rfl⟩ := Prod.mk.inj heq
        obtain ⟨hends, hlt⟩ := ih.1 hm
        exact ⟨.move ha hends, Nat.succ_lt_succ hlt⟩
    · rintro ⟨h, hlt⟩
      cases h with
      | done hb => simp [walk, hb]
      | move ha h' => simp [walk, ha, ih.2 ⟨h', Nat.lt_of_succ_lt_succ hlt⟩]

/-- The places that a walk moves from, all different. -/
theorem Ends.exists_places (h : Ends step a n b) :
    ∃ l : List α, l.length = n ∧ l.Nodup ∧
      ∀ x ∈ l, (∃ x', step x = .inr x') ∧ ∃ k ≤ n, Ends step x k b := by
  induction h with
  | done hb => exact ⟨[], rfl, List.nodup_nil, by simp⟩
  | @move a a' n b ha h' ih =>
    obtain ⟨l, hlen, hnodup, hl⟩ := ih
    refine ⟨a :: l, by simp [hlen], List.nodup_cons.2 ⟨fun hmem => ?_, hnodup⟩, fun x hx => ?_⟩
    · -- from `a` the walk has more moves left than from any later place
      obtain ⟨-, k, hk, hends⟩ := hl a hmem
      have := (hends.unique (.move ha h')).1
      omega
    · rcases List.mem_cons.1 hx with rfl | hx
      · exact ⟨⟨a', ha⟩, n + 1, le_rfl, .move ha h'⟩
      · obtain ⟨hmoves, k, hk, hends⟩ := hl x hx
        exact ⟨hmoves, k, by omega, hends⟩

/-- **A walk is over soon or never.** -/
theorem Ends.le_card {S : Finset α} (hS : ∀ a a', step a = .inr a' → a ∈ S)
    (h : Ends step a n b) : n ≤ S.card := by
  classical
  obtain ⟨l, rfl, hnodup, hl⟩ := h.exists_places
  rw [← List.toFinset_card_of_nodup hnodup]
  refine Finset.card_le_card fun x hx => ?_
  obtain ⟨⟨x', hx'⟩, -⟩ := hl x (List.mem_toFinset.1 hx)
  exact hS x x' hx'

/-- With that much fuel the result is found if there is one. -/
theorem walk_complete {S : Finset α} (hS : ∀ a a', step a = .inr a' → a ∈ S) :
    walk step (S.card + 1) a = some (n, b) ↔ Ends step a n b :=
  walk_eq_some.trans ⟨fun h => h.1, fun h => ⟨h, Nat.lt_succ_of_le (h.le_card hS)⟩⟩

end Walk

end V2nLte
