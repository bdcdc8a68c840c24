import Mathlib.Data.List.Basic
import Mathlib.Order.Basic

/-!
# Maximal runs

`IsRun p n i len` : the positions `i`, …, `i + len - 1` are a maximal run of positions below `n`
that satisfy `p`.  A scan that goes from `0` to `n` and notes a run when it is over finds them all
in their order: `runs`.

* `mem_runs` : the scan finds the maximal runs.
* `isRun_shift`, `isRun_reflect` : the maximal runs of a scan that starts later or that goes back.
-/

namespace V2nLte

/-- The positions from `i` on, `len` of them, are a maximal run. -/
structure IsRun (p : ℕ → Bool) (n i len : ℕ) : Prop where
  pos : 0 < len
  le : i + len ≤ n
  holds : ∀ k, i ≤ k → k < i + len → p k = true
  left : i = 0 ∨ p (i - 1) = false
  right : i + len = n ∨ p (i + len) = false

namespace IsRun

variable {p : ℕ → Bool} {n i len i' len' k : ℕ}

/-- Two maximal runs that meet are the same. -/
theorem eq_of_mem (h : IsRun p n i len) (h' : IsRun p n i' len') (hk : i ≤ k ∧ k < i + len)
    (hk' : i' ≤ k ∧ k < i' + len') : i = i' ∧ len = len' := by
  -- neither can begin or end inside the other
  have hleft : ∀ {i len i' len'}, IsRun p n i len → IsRun p n i' len' → i ≤ k ∧ k < i + len →
      i' ≤ k ∧ k < i' + len' → i' ≤ i := by
    intro i len i' len' h h' hk hk'
    rcases h'.left with h0 | hfalse
    · omega
    · by_contra hlt
      rw [h.holds (i' - 1) (by omega) (by omega)] at hfalse
      cases hfalse
  have hright : ∀ {i len i' len'}, IsRun p n i len → IsRun p n i' len' → i ≤ k ∧ k < i + len →
      i' ≤ k ∧ k < i' + len' → i + len ≤ i' + len' := by
    intro i len i' len' h h' hk hk'
    rcases h'.right with hn | hfalse
    · have hle := h.le
      omega
    · by_contra hlt
      rw [h.holds (i' + len') (by omega) (by omega)] at hfalse
      cases hfalse
  have h₁ := hleft h h' hk hk'
  have h₂ := hleft h' h hk' hk
  have h₃ := hright h h' hk hk'
  have h₄ := hright h' h hk' hk
  omega

end IsRun

section Scan

variable (p : ℕ → Bool)

/-- Where the run begins that the scan is in at `n`. -/
def openRun : ℕ → Option ℕ
  | 0 => none
  | n + 1 => if p n then some ((openRun n).getD n) else none

/-- The run that the scan is in at `n`, if there is one. -/
def pendingRun (n : ℕ) : List (ℕ × ℕ) := ((openRun p n).map fun i => (i, n - i)).toList

/-- The runs that are over at `n`. -/
def closedRuns : ℕ → List (ℕ × ℕ)
  | 0 => []
  | n + 1 => if p n then closedRuns n else closedRuns n ++ pendingRun p n

/-- The runs that a scan up to `n` finds. -/
def runs (n : ℕ) : List (ℕ × ℕ) := closedRuns p n ++ pendingRun p n

variable {p} {n i len : ℕ}

theorem openRun_eq_none : openRun p n = none ↔ n = 0 ∨ p (n - 1) = false := by
  cases n with
  | zero => exact iff_of_true rfl (.inl rfl)
  | succ n =>
    rw [openRun, Nat.add_sub_cancel]
    cases hp : p n with
    | false => exact iff_of_true rfl (.inr rfl)
    | true => exact ⟨nofun, fun h => h.elim nofun nofun⟩

theorem openRun_eq_some : openRun p n = some i ↔
    i < n ∧ (∀ k, i ≤ k → k < n → p k = true) ∧ (i = 0 ∨ p (i - 1) = false) := by
  induction n generalizing i with
  | zero => exact ⟨nofun, fun h => absurd h.1 (Nat.not_lt_zero i)⟩
  | succ n ih =>
    rw [openRun]
    -- a run that is open at the end goes on while `p` holds
    cases hp : p n with
    | false =>
      refine ⟨nofun, fun ⟨hlt, hall, _⟩ => ?_⟩
      rw [hall n (by omega) (by omega)] at hp
      cases hp
    | true =>
      rw [if_pos rfl, Option.some_inj]
      cases ho : openRun p n with
      | some j =>
        obtain ⟨hlt, hall, hleft⟩ := ih.1 ho
        constructor
        · rintro rfl
          refine ⟨Nat.lt_succ_of_lt hlt, fun k hjk hkn => ?_, hleft⟩
          rcases Nat.lt_succ_iff_lt_or_eq.1 hkn with hkn | rfl
          · exact hall k hjk hkn
          · exact hp
        · rintro ⟨hlt', hall', hleft'⟩
          rcases Nat.lt_succ_iff_lt_or_eq.1 hlt' with hlt' | rfl
          · exact Option.some.inj (ho.symm.trans
              (ih.2 ⟨hlt', fun k hik hkn => hall' k hik (by omega), hleft'⟩))
          · -- the run before `i` is open
            rcases hleft' with h0 | hfalse
            · omega
            · rw [hall (i - 1) (by omega) (by omega)] at hfalse
              cases hfalse
      | none =>
        constructor
        · rintro rfl
          refine ⟨Nat.lt_succ_self _, fun k hnk hkn => ?_, openRun_eq_none.1 ho⟩
          obtain rfl := Nat.le_antisymm (Nat.lt_succ_iff.1 hkn) hnk
          exact hp
        · rintro ⟨hlt', hall', hleft'⟩
          rcases Nat.lt_succ_iff_lt_or_eq.1 hlt' with hlt' | rfl
          · have hsome := ih.2 ⟨hlt', fun k hik hkn => hall' k hik (by omega), hleft'⟩
            rw [ho] at hsome
            cases hsome
          · rfl

theorem mem_pendingRun : (i, len) ∈ pendingRun p n ↔ IsRun p n i len ∧ i + len = n := by
  rw [pendingRun, Option.mem_toList, Option.map_eq_some_iff]
  constructor
  · rintro ⟨j, hj, heq⟩
    obtain ⟨rfl, rfl⟩ := Prod.mk.inj heq
    obtain ⟨hlt, hall, hleft⟩ := openRun_eq_some.1 hj
    have heq : j + (n - j) = n := by omega
    exact ⟨⟨by omega, by omega, fun k hjk hk => hall k hjk (by omega), hleft, .inl heq⟩, heq⟩
  · rintro ⟨h, heq⟩
    have hpos := h.pos
    refine ⟨i, openRun_eq_some.2 ⟨by omega, fun k hik hk => h.holds k hik (by omega), h.left⟩,
      Prod.ext rfl ?_⟩
    show n - i = len
    omega

/-- A run that is over before `n` does not depend on what comes later. -/
theorem IsRun.succ_iff (hlt : i + len < n ∨ i + len = n ∧ p n = false) :
    IsRun p (n + 1) i len ↔ IsRun p n i len := by
  constructor
  · intro h
    exact ⟨h.pos, by omega, h.holds, h.left, .inr (h.right.resolve_left (by omega))⟩
  · intro h
    refine ⟨h.pos, by omega, h.holds, h.left, .inr ?_⟩
    rcases hlt with hlt | ⟨heq, hfalse⟩
    · exact h.right.resolve_left (by omega)
    · rw [heq, hfalse]

theorem mem_closedRuns : (i, len) ∈ closedRuns p n ↔ IsRun p n i len ∧ i + len < n := by
  induction n with
  | zero => exact ⟨nofun, fun h => absurd h.2 (Nat.not_lt_zero _)⟩
  | succ n ih =>
    rw [closedRuns]
    cases hp : p n with
    | true =>
      rw [if_pos rfl, ih]
      constructor
      · rintro ⟨h, hlt⟩
        exact ⟨(IsRun.succ_iff (.inl hlt)).2 h, by omega⟩
      · rintro ⟨h, hlt⟩
        -- the run is not over at `n`, where `p` holds
        have hne : i + len ≠ n := by
          rintro rfl
          have hfalse := h.right.resolve_left (by omega)
          rw [hp] at hfalse
          cases hfalse
        have hlt : i + len < n := by omega
        exact ⟨(IsRun.succ_iff (.inl hlt)).1 h, hlt⟩
    | false =>
      rw [if_neg Bool.false_ne_true, List.mem_append, ih, mem_pendingRun, ← and_or_left,
        ← Nat.le_iff_lt_or_eq, Nat.lt_succ_iff]
      refine and_congr_left fun hle => (IsRun.succ_iff ?_).symm
      rcases Nat.lt_or_eq_of_le hle with hlt | heq
      · exact .inl hlt
      · exact .inr ⟨heq, hp⟩

/-- **The scan finds the maximal runs.** -/
theorem mem_runs : (i, len) ∈ runs p n ↔ IsRun p n i len := by
  rw [runs, List.mem_append, mem_closedRuns, mem_pendingRun, ← and_or_left]
  exact ⟨fun h => h.1, fun h => ⟨h, Nat.lt_or_eq_of_le h.le⟩⟩

/-- A run that is over comes before the run that the scan is in. -/
theorem closedRuns_append_sorted (hclosed : (closedRuns p n).Pairwise fun h h' => h.1 < h'.1) :
    (closedRuns p n ++ pendingRun p n).Pairwise fun h h' => h.1 < h'.1 := by
  refine List.pairwise_append.2 ⟨hclosed, ?_, ?_⟩
  · rw [pendingRun]
    cases openRun p n with
    | none => exact List.Pairwise.nil
    | some i => exact List.pairwise_singleton _ _
  · rintro ⟨i, len⟩ hi ⟨j, len'⟩ hj
    obtain ⟨h, hlt⟩ := mem_closedRuns.1 hi
    obtain ⟨h', heq⟩ := mem_pendingRun.1 hj
    by_contra hge
    have hfalse := h.right.resolve_left (by omega)
    have hpos := h.pos
    have hge : j ≤ i := Nat.le_of_not_lt hge
    rw [h'.holds (i + len) (by omega) (by omega)] at hfalse
    cases hfalse

theorem closedRuns_sorted : (closedRuns p n).Pairwise fun h h' => h.1 < h'.1 := by
  induction n with
  | zero => exact List.Pairwise.nil
  | succ n ih =>
    rw [closedRuns]
    split
    · exact ih
    · exact closedRuns_append_sorted ih

/-- The scan finds them in their order. -/
theorem runs_sorted : (runs p n).Pairwise fun h h' => h.1 < h'.1 :=
  closedRuns_append_sorted closedRuns_sorted

end Scan

section Window

variable {p : ℕ → Bool} {n i len start : ℕ}

/-- A scan that starts at `start` finds the maximal runs from there on, unless one goes over
`start`. -/
theorem isRun_shift (hstart : start = 0 ∨ p start = false) :
    IsRun (fun k => p (start + k)) (n - start) i len ↔ IsRun p n (start + i) len := by
  constructor
  · intro h
    have hpos := h.pos
    have hle := h.le
    refine ⟨hpos, by omega, fun k hk hk' => ?_, ?_, ?_⟩
    · have hholds := h.holds (k - start) (by omega) (by omega)
      rwa [Nat.add_sub_of_le (by omega)] at hholds
    · by_cases h0 : i = 0
      · subst h0
        refine .inl (hstart.resolve_right fun hfalse => ?_)
        rw [show p start = true from h.holds 0 (by omega) (by omega)] at hfalse
        cases hfalse
      · rw [Nat.add_sub_assoc (by omega)]
        exact .inr (h.left.resolve_left h0)
    · rcases h.right with heq | hfalse
      · exact .inl (by omega)
      · exact .inr (by rw [Nat.add_assoc]; exact hfalse)
  · intro h
    have hpos := h.pos
    have hle := h.le
    refine ⟨hpos, by omega, fun k hk hk' => h.holds (start + k) (by omega) (by omega), ?_, ?_⟩
    · by_cases h0 : i = 0
      · exact .inl h0
      · have hleft := h.left.resolve_left (by omega)
        rw [Nat.add_sub_assoc (by omega)] at hleft
        exact .inr hleft
    · rcases h.right with heq | hfalse
      · exact .inl (by omega)
      · exact .inr (by rw [← Nat.add_assoc]; exact hfalse)

/-- A scan that goes back finds the maximal runs, by their last positions. -/
theorem isRun_reflect (hle : i + len ≤ n) :
    IsRun (fun k => p (n - 1 - k)) n i len ↔ IsRun p n (n - (i + len)) len := by
  constructor
  · intro h
    have hpos := h.pos
    refine ⟨hpos, by omega, fun k hk hk' => ?_, ?_, ?_⟩
    · have hholds := h.holds (n - 1 - k) (by omega) (by omega)
      rwa [show n - 1 - (n - 1 - k) = k by omega] at hholds
    · rcases h.right with heq | hfalse
      · exact .inl (by omega)
      · exact .inr (by rwa [show n - (i + len) - 1 = n - 1 - (i + len) by omega])
    · rcases h.left with heq | hfalse
      · exact .inl (by omega)
      · by_cases h0 : i = 0
        · exact .inl (by omega)
        · exact .inr (by rwa [show n - (i + len) + len = n - 1 - (i - 1) by omega])
  · intro h
    have hpos := h.pos
    refine ⟨hpos, hle, fun k hk hk' => h.holds (n - 1 - k) (by omega) (by omega), ?_, ?_⟩
    · by_cases h0 : i = 0
      · exact .inl h0
      · have hright := h.right.resolve_left (by omega)
        exact .inr (by rwa [show n - 1 - (i - 1) = n - (i + len) + len by omega])
    · by_cases h0 : i + len = n
      · exact .inl h0
      · have hleft := h.left.resolve_left (by omega)
        exact .inr (by rwa [show n - 1 - (i + len) = n - (i + len) - 1 by omega])

end Window

end V2nLte
