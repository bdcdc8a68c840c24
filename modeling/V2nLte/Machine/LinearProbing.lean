import Mathlib.Data.Finset.Card
import Mathlib.Data.Nat.Find
import Mathlib.Logic.Function.Basic

/-!
# Linear probing

A hash table of `N` slots without deletion.  A lookup starts at the hash of the key and goes on to
the next slot until it finds the key or an empty slot; it has no other end, so the functions take
the number of steps they may take.

* `Holds slots hash entries` : the table holds the finite map `entries`.
* `find_sound`, `find_eq_of_mem`, `find_eq_of_empty` : what a lookup returns, and when it ends.
* `find_eq_none` : in a full table the lookup of a new key does not end.
* `exists_freeSlot`, `Holds.insert` : a new key is stored where its lookup ends.
-/

namespace V2nLte

namespace LinearProbing

variable {K V : Type*} (N : ℕ) (slots : ℕ → Option (K × V)) (key : K)

/-- Look a key up from the slot `i`, in at most the given number of steps. -/
def find [DecidableEq K] : ℕ → ℕ → Option (Option V)
  | 0, _ => none
  | m + 1, i =>
    match slots i with
    | none => some none
    | some (k, v) => if k = key then some (some v) else find m ((i + 1) % N)

/-- The first empty slot from the slot `i` on. -/
def freeSlot : ℕ → ℕ → Option ℕ
  | 0, _ => none
  | m + 1, i => if (slots i).isSome then freeSlot m ((i + 1) % N) else some i

/-- The first `d` slots from `i` on have other keys. -/
def Passes (i d : ℕ) : Prop := ∀ e < d, ∃ k v, slots ((i + e) % N) = some (k, v) ∧ k ≠ key

/-- The table holds a map: every key can be found, and nothing else is there. -/
structure Holds (hash : K → ℕ) (entries : K → Option V) : Prop where
  stored : ∀ key v, entries key = some v → ∃ d < N, Passes N slots key (hash key) d ∧
    slots ((hash key + d) % N) = some (key, v)
  only : ∀ j < N, ∀ k v, slots j = some (k, v) → entries k = some v

/-- The slots that are not empty. -/
def occupied : Finset ℕ := (Finset.range N).filter fun j => (slots j).isSome

variable {N slots key} {hash : K → ℕ} {entries : K → Option V} {m i j : ℕ}

theorem probe_succ {e : ℕ} : ((i + 1) % N + e) % N = (i + (e + 1)) % N := by
  rw [Nat.mod_add_mod, Nat.add_right_comm, Nat.add_assoc]

theorem probe_zero (hi : i < N) : (i + 0) % N = i := Nat.mod_eq_of_lt hi

/-- Every slot can be reached from every other one. -/
theorem exists_probe (hi : i < N) (hj : j < N) : ∃ d < N, (i + d) % N = j := by
  rcases Nat.le_total i j with h | h
  · exact ⟨j - i, by omega, by rw [Nat.add_sub_cancel' h, Nat.mod_eq_of_lt hj]⟩
  · refine ⟨if i = j then 0 else j + N - i, by split <;> omega, ?_⟩
    split
    · subst i
      exact probe_zero hj
    · rw [show i + (j + N - i) = j + N by omega, Nat.add_mod_right, Nat.mod_eq_of_lt hj]

/-! ### Looking up -/

/-- The first empty slot from `i` on. -/
theorem exists_first_empty (hi : i < N) (hempty : ∃ j < N, slots j = none) :
    ∃ d < N, (∀ e < d, (slots ((i + e) % N)).isSome = true) ∧ slots ((i + d) % N) = none := by
  obtain ⟨j, hj, hnone⟩ := hempty
  obtain ⟨d, hd, rfl⟩ := exists_probe hi hj
  have hex : ∃ d, slots ((i + d) % N) = none := ⟨d, hnone⟩
  refine ⟨Nat.find hex, Nat.lt_of_le_of_lt (Nat.find_min' hex hnone) hd, fun e he => ?_,
    Nat.find_spec hex⟩
  exact Option.isSome_iff_ne_none.2 (Nat.find_min hex he)

section

variable [DecidableEq K]

/-- **A lookup** ends at the first slot that is empty or has the key. -/
theorem find_eq_some_iff (hi : i < N) {r : Option V} :
    find N slots key m i = some r ↔ ∃ d < m, Passes N slots key i d ∧
      (slots ((i + d) % N) = none ∧ r = none ∨
        ∃ v, slots ((i + d) % N) = some (key, v) ∧ r = some v) := by
  induction m generalizing i with
  | zero => exact ⟨fun h => (nomatch h), fun ⟨d, hd, _⟩ => absurd hd (Nat.not_lt_zero d)⟩
  | succ m ih =>
    have hnext : (i + 1) % N < N := Nat.mod_lt _ (by omega)
    have hzero : Passes N slots key i 0 := fun e he => absurd he (Nat.not_lt_zero e)
    -- a free slot ends the search at once
    cases hs : slots i with
    | none =>
      rw [find, hs]
      refine ⟨fun h => ?_, ?_⟩
      · cases h
        exact ⟨0, Nat.succ_pos m, hzero, .inl ⟨by rw [probe_zero hi, hs], rfl⟩⟩
      · rintro ⟨d, -, hpass, hr⟩
        cases d with
        | zero =>
          rw [probe_zero hi, hs] at hr
          obtain ⟨-, rfl⟩ | ⟨v, hv, -⟩ := hr
          · rfl
          · cases hv
        | succ d =>
          obtain ⟨k, v, hk, -⟩ := hpass 0 (Nat.succ_pos d)
          rw [probe_zero hi, hs] at hk
          cases hk
    | some kv =>
      obtain ⟨k, w⟩ := kv
      rw [find, hs]
      -- the key is in the first slot
      by_cases hk : k = key
      · subst hk
        simp only [if_true]
        refine ⟨fun h => ?_, ?_⟩
        · cases h
          exact ⟨0, Nat.succ_pos m, hzero, .inr ⟨w, by rw [probe_zero hi, hs], rfl⟩⟩
        · rintro ⟨d, -, hpass, hr⟩
          cases d with
          | zero =>
            rw [probe_zero hi, hs] at hr
            obtain ⟨h, -⟩ | ⟨v, hv, rfl⟩ := hr
            · cases h
            · cases hv
              rfl
          | succ d =>
            obtain ⟨k', v, hk', hne⟩ := hpass 0 (Nat.succ_pos d)
            rw [probe_zero hi, hs] at hk'
            cases hk'
            exact absurd rfl hne
      · -- another key: the search goes on with the next slot
        simp only [if_neg hk]
        rw [ih hnext]
        constructor
        · rintro ⟨d, hd, hpass, hr⟩
          refine ⟨d + 1, by omega, fun e he => ?_, by rwa [probe_succ] at hr⟩
          cases e with
          | zero => exact ⟨k, w, by rw [probe_zero hi, hs], hk⟩
          | succ e =>
            rw [← probe_succ]
            exact hpass e (by omega)
        · rintro ⟨d, hd, hpass, hr⟩
          cases d with
          | zero =>
            rw [probe_zero hi, hs] at hr
            obtain ⟨h, -⟩ | ⟨v, hv, -⟩ := hr
            · cases h
            · cases hv
              exact absurd rfl hk
          | succ d =>
            refine ⟨d, by omega, fun e he => ?_, by rwa [probe_succ]⟩
            rw [probe_succ]
            exact hpass (e + 1) (by omega)

/-- A lookup that ends returns what is stored. -/
theorem find_sound (h : Holds N slots hash entries) (hi : hash key < N) {r : Option V}
    (hr : find N slots key m (hash key) = some r) : r = entries key := by
  obtain ⟨d, -, hpass, ⟨hempty, rfl⟩ | ⟨v, hv, rfl⟩⟩ := (find_eq_some_iff hi).1 hr
  · cases he : entries key with
    | none => rfl
    | some v =>
      -- the key would be stored behind an empty slot, or before a slot with another key
      obtain ⟨d', -, hpass', hd'⟩ := h.stored key v he
      rcases Nat.lt_trichotomy d d' with hlt | rfl | hlt
      · obtain ⟨k, w, hk, -⟩ := hpass' d hlt
        rw [hempty] at hk
        cases hk
      · rw [hempty] at hd'
        cases hd'
      · obtain ⟨k, w, hk, hne⟩ := hpass d' hlt
        rw [hd'] at hk
        cases hk
        exact absurd rfl hne
  · exact (h.only _ (Nat.mod_lt _ (by omega)) key v hv).symm

theorem find_eq_of_mem (h : Holds N slots hash entries) (hi : hash key < N)
    (hv : entries key = some v) : find N slots key N (hash key) = some (some v) := by
  obtain ⟨d, hd, hpass, hslot⟩ := h.stored key v hv
  exact (find_eq_some_iff hi).2 ⟨d, hd, hpass, .inr ⟨v, hslot, rfl⟩⟩

/-- In a table with an empty slot the lookup of a new key ends. -/
theorem find_eq_of_empty (h : Holds N slots hash entries) (hi : hash key < N)
    (hnone : entries key = none) (hempty : ∃ j < N, slots j = none) :
    find N slots key N (hash key) = some none := by
  obtain ⟨d, hd, hfull, hslot⟩ := exists_first_empty hi hempty
  refine (find_eq_some_iff hi).2 ⟨d, hd, fun e he => ?_, .inl ⟨hslot, rfl⟩⟩
  obtain ⟨⟨k, v⟩, hkv⟩ := Option.isSome_iff_exists.1 (hfull e he)
  refine ⟨k, v, hkv, fun heq => ?_⟩
  have hstored := h.only _ (Nat.mod_lt _ (by omega)) k v hkv
  rw [heq, hnone] at hstored
  cases hstored

/-- **In a full table the lookup of a new key does not end**, however many steps it takes. -/
theorem find_eq_none (h : Holds N slots hash entries) (hi : hash key < N)
    (hnone : entries key = none) (hfull : ∀ j < N, slots j ≠ none) :
    find N slots key m (hash key) = none := by
  cases hr : find N slots key m (hash key) with
  | none => rfl
  | some r =>
    obtain ⟨d, -, -, ⟨hempty, -⟩ | ⟨v, hv, -⟩⟩ := (find_eq_some_iff hi).1 hr
    · exact absurd hempty (hfull _ (Nat.mod_lt _ (by omega)))
    · have hstored := h.only _ (Nat.mod_lt _ (by omega)) key v hv
      rw [hnone] at hstored
      cases hstored

end

/-! ### Storing -/

theorem freeSlot_eq_some_iff (hi : i < N) :
    freeSlot N slots m i = some j ↔ ∃ d < m, (∀ e < d, (slots ((i + e) % N)).isSome = true) ∧
      slots ((i + d) % N) = none ∧ (i + d) % N = j := by
  induction m generalizing i with
  | zero => exact ⟨fun h => (nomatch h), fun ⟨d, hd, _⟩ => absurd hd (Nat.not_lt_zero d)⟩
  | succ m ih =>
    have hnext : (i + 1) % N < N := Nat.mod_lt _ (by omega)
    rw [freeSlot]
    -- a full slot: the search goes on with the next one
    split <;> rename_i hs
    · rw [ih hnext]
      constructor
      · rintro ⟨d, hd, hfull, hslot, hj⟩
        rw [probe_succ] at hslot hj
        refine ⟨d + 1, by omega, fun e he => ?_, hslot, hj⟩
        cases e with
        | zero => rwa [probe_zero hi]
        | succ e =>
          rw [← probe_succ]
          exact hfull e (by omega)
      · rintro ⟨d, hd, hfull, hslot, hj⟩
        cases d with
        | zero =>
          rw [probe_zero hi] at hslot
          rw [hslot] at hs
          cases hs
        | succ d =>
          rw [← probe_succ] at hslot hj
          refine ⟨d, by omega, fun e he => ?_, hslot, hj⟩
          rw [probe_succ]
          exact hfull (e + 1) (by omega)
    · rw [Bool.not_eq_true, Option.isSome_eq_false_iff, Option.isNone_iff_eq_none] at hs
      constructor
      · intro h
        cases h
        exact ⟨0, Nat.succ_pos m, fun e he => absurd he (Nat.not_lt_zero e),
          by rw [probe_zero hi, hs], probe_zero hi⟩
      · rintro ⟨d, -, hfull, -, hj⟩
        cases d with
        | zero => rw [← hj, probe_zero hi]
        | succ d =>
          have hsome := hfull 0 (Nat.succ_pos d)
          rw [probe_zero hi, hs] at hsome
          cases hsome

theorem exists_freeSlot (hi : i < N) (hempty : ∃ j < N, slots j = none) :
    ∃ j, freeSlot N slots N i = some j := by
  obtain ⟨d, hd, hfull, hslot⟩ := exists_first_empty hi hempty
  exact ⟨_, (freeSlot_eq_some_iff hi).2 ⟨d, hd, hfull, hslot, rfl⟩⟩

/-- **A new key** is stored in the first empty slot. -/
theorem Holds.insert [DecidableEq K] (h : Holds N slots hash entries) (hi : hash key < N)
    (hnone : entries key = none) (hj : freeSlot N slots m (hash key) = some j) (v : V) :
    Holds N (Function.update slots j (some (key, v))) hash
      (Function.update entries key (some v)) := by
  obtain ⟨d, -, hfull, hslot, rfl⟩ := (freeSlot_eq_some_iff hi).1 hj
  have hd : d < N := by
    -- after `N` slots the probe comes back to the first one
    by_contra hle
    obtain ⟨d', hd', heq⟩ := exists_probe hi (Nat.mod_lt (hash key + d) (by omega))
    have hsome := hfull d' (by omega)
    rw [heq, hslot] at hsome
    cases hsome
  -- the slots that are not empty stay as they are
  have hkeep : ∀ {i : ℕ} {kv : K × V}, slots i = some kv →
      Function.update slots ((hash key + d) % N) (some (key, v)) i = some kv := by
    intro i kv hi
    have hne : i ≠ (hash key + d) % N := fun heq => by
      rw [heq, hslot] at hi
      cases hi
    rwa [Function.update_of_ne hne]
  constructor
  · intro k w hw
    by_cases hk : k = key
    · subst hk
      rw [Function.update_self] at hw
      cases hw
      refine ⟨d, hd, fun e he => ?_, by rw [Function.update_self]⟩
      obtain ⟨⟨k', v'⟩, hkv⟩ := Option.isSome_iff_exists.1 (hfull e he)
      refine ⟨k', v', hkeep hkv, fun heq => ?_⟩
      have hstored := h.only _ (Nat.mod_lt _ (by omega)) k' v' hkv
      rw [heq, hnone] at hstored
      cases hstored
    · rw [Function.update_of_ne hk] at hw
      obtain ⟨d', hd', hpass, hslot'⟩ := h.stored k w hw
      refine ⟨d', hd', fun e he => ?_, hkeep hslot'⟩
      obtain ⟨k', v', hkv, hne⟩ := hpass e he
      exact ⟨k', v', hkeep hkv, hne⟩
  · intro i hiN k w hw
    by_cases hij : i = (hash key + d) % N
    · subst hij
      rw [Function.update_self] at hw
      cases hw
      rw [Function.update_self]
    · rw [Function.update_of_ne hij] at hw
      have hstored := h.only i hiN k w hw
      have hk : k ≠ key := fun heq => by
        rw [heq, hnone] at hstored
        cases hstored
      rwa [Function.update_of_ne hk]

/-! ### Counting -/

theorem card_occupied_insert (hj : j < N) (hslot : slots j = none) (kv : K × V) :
    (occupied N (Function.update slots j (some kv))).card = (occupied N slots).card + 1 := by
  have hset : occupied N (Function.update slots j (some kv)) = insert j (occupied N slots) := by
    ext i
    simp only [occupied, Finset.mem_filter, Finset.mem_range, Finset.mem_insert,
      Function.update_apply]
    split <;> rename_i hij
    · subst hij
      simp [hj]
    · simp [hij]
  rw [hset, Finset.card_insert_of_notMem]
  simp [occupied, hslot]

theorem exists_empty_of_card_lt (h : (occupied N slots).card < N) : ∃ j < N, slots j = none := by
  have hlt : (occupied N slots).card < (Finset.range N).card := by rwa [Finset.card_range]
  obtain ⟨j, hj, hnot⟩ := Finset.exists_mem_notMem_of_card_lt_card hlt
  refine ⟨j, Finset.mem_range.1 hj, ?_⟩
  by_contra hne
  exact hnot (Finset.mem_filter.2 ⟨hj, Option.isSome_iff_ne_none.2 hne⟩)

theorem ne_none_of_card_eq (h : (occupied N slots).card = N) : ∀ j < N, slots j ≠ none := by
  intro j hj
  have hall : occupied N slots = Finset.range N :=
    Finset.eq_of_subset_of_card_le (Finset.filter_subset _ _) (by rw [h, Finset.card_range])
  have hmem : j ∈ occupied N slots := hall ▸ Finset.mem_range.2 hj
  exact Option.isSome_iff_ne_none.1 (Finset.mem_filter.1 hmem).2

end LinearProbing

end V2nLte
