import V2nLte.Machine.Ensures
import Mathlib.Order.Lattice

/-!
# Maps that are iterated in the order of their keys

`OrderedMap K V` is a list of pairs; `put` keeps it in the order of the keys (`Sorted`), so that a
loop over the list takes them as a loop over a `std::map` does.  What `find` answers after the
operations does not depend on the order.

* `find_mapM` : the rule for a loop that replaces the values.
* `find_foldl_put` : the rule for a loop that updates another map at every key.
-/

namespace V2nLte

variable {K V ε : Type}

/-- Pairs of a key and its value. -/
abbrev OrderedMap (K V : Type) := List (K × V)

namespace OrderedMap

variable [LinearOrder K]

/-- The value of a key. -/
def find : OrderedMap K V → K → Option V
  | [], _ => none
  | (k', v) :: m, k => if k = k' then some v else find m k

/-- Set the value of a key. -/
def put : OrderedMap K V → K → V → OrderedMap K V
  | [], k, v => [(k, v)]
  | (k', v') :: m, k, v =>
    if k < k' then (k, v) :: (k', v') :: m
    else if k = k' then (k, v) :: m
    else (k', v') :: put m k v

/-- Remove a key. -/
def erase (m : OrderedMap K V) (k : K) : OrderedMap K V := m.filter fun p => p.1 ≠ k

/-- Replace all the values. -/
def mapM (f : V → Except ε V) : OrderedMap K V → Except ε (OrderedMap K V)
  | [] => .ok []
  | (k, v) :: m => do
    let v' ← f v
    let m' ← mapM f m
    return (k, v') :: m'

/-- The keys are in their order, so each occurs once. -/
def Sorted (m : OrderedMap K V) : Prop := (m.map Prod.fst).Pairwise (· < ·)

instance (m : OrderedMap K V) : Decidable (Sorted m) :=
  inferInstanceAs (Decidable ((m.map Prod.fst).Pairwise (· < ·)))

variable {m m' : OrderedMap K V} {k : K} {v v' : V} {f : V → Except ε V}

@[simp] theorem find_nil (k : K) : find ([] : OrderedMap K V) k = none := rfl

theorem find_cons (k' : K) (v : V) (m : OrderedMap K V) (k : K) :
    find ((k', v) :: m) k = if k = k' then some v else find m k := rfl

theorem find_put (m : OrderedMap K V) (k : K) (v : V) (i : K) :
    (put m k v).find i = if i = k then some v else m.find i := by
  induction m with
  | nil => rfl
  | cons p m ih =>
    obtain ⟨k', v'⟩ := p
    rw [put]
    split
    · rfl
    · split <;> rename_i hk
      · simp only [find_cons, hk]
        split <;> rfl
      · rw [find_cons, ih, find_cons]
        by_cases hi : i = k
        · rw [if_neg (hi ▸ hk), if_pos hi, if_pos hi]
        · rw [if_neg hi, if_neg hi]

theorem find_erase (m : OrderedMap K V) (k i : K) :
    (erase m k).find i = if i = k then none else m.find i := by
  induction m with
  | nil => rw [erase, List.filter_nil, find_nil, ite_self]
  | cons p m ih =>
    obtain ⟨k', v⟩ := p
    rw [erase, List.filter_cons]
    by_cases hk : k' = k
    · rw [if_neg (by simpa using hk)]
      refine ih.trans ?_
      rw [find_cons]
      split <;> rename_i hi
      · rfl
      · rw [if_neg (hk ▸ hi)]
    · rw [if_pos (by simpa using hk), find_cons, find_cons]
      by_cases hi : i = k'
      · rw [if_pos hi, if_pos hi, if_neg (hi ▸ hk)]
      · rw [if_neg hi, if_neg hi]
        exact ih

/-- A key that is new adds its value to what is there. -/
theorem put_perm (h : m.find k = none) : (m.put k v).Perm ((k, v) :: m) := by
  induction m with
  | nil => exact List.Perm.refl _
  | cons p m ih =>
    obtain ⟨k', v'⟩ := p
    rw [find_cons] at h
    rw [put]
    split
    · exact List.Perm.refl _
    · split at h
      · cases h
      · rw [if_neg ‹_›]
        exact ((ih h).cons (k', v')).trans (List.Perm.swap _ _ _)

theorem mem_of_find (h : m.find k = some v) : (k, v) ∈ m := by
  induction m with
  | nil => cases h
  | cons p m ih =>
    obtain ⟨k', v'⟩ := p
    rw [find_cons] at h
    split at h
    · obtain rfl := Option.some.inj h
      rename_i hk
      rw [hk]
      exact List.mem_cons_self
    · exact List.mem_cons_of_mem _ (ih h)

theorem mem_of_mem_put {p : K × V} (h : p ∈ m.put k v) : p = (k, v) ∨ p ∈ m := by
  induction m with
  | nil => exact .inl (List.mem_singleton.1 h)
  | cons q m ih =>
    obtain ⟨k', v'⟩ := q
    rw [put] at h
    split at h
    · exact List.mem_cons.1 h
    · split at h
      · exact (List.mem_cons.1 h).imp_right (List.mem_cons_of_mem _)
      · rcases List.mem_cons.1 h with rfl | h
        · exact .inr List.mem_cons_self
        · exact (ih h).imp_right (List.mem_cons_of_mem _)

/-- **The rule for a loop that replaces the values.** -/
theorem find_mapM (h : mapM f m = .ok m') (k : K) :
    (m.find k = none ∧ m'.find k = none) ∨
      ∃ v v', m.find k = some v ∧ m'.find k = some v' ∧ f v = .ok v' := by
  induction m generalizing m' with
  | nil =>
    cases h
    exact .inl ⟨rfl, rfl⟩
  | cons p m ih =>
    obtain ⟨k', v⟩ := p
    obtain ⟨v', hv', h⟩ := bind_eq_ok.1 h
    obtain ⟨m₁, hm₁, h⟩ := bind_eq_ok.1 h
    cases h
    rw [find_cons, find_cons]
    split
    · exact .inr ⟨v, v', rfl, rfl, hv'⟩
    · exact ih hm₁

/-! ### Maps in order -/

theorem sorted_nil : Sorted ([] : OrderedMap K V) := List.Pairwise.nil

theorem sorted_cons {k' : K} :
    Sorted ((k', v) :: m) ↔ (∀ i ∈ m.map Prod.fst, k' < i) ∧ Sorted m := List.pairwise_cons

theorem mem_keys_put {i : K} (h : i ∈ (put m k v).map Prod.fst) :
    i = k ∨ i ∈ m.map Prod.fst := by
  induction m with
  | nil => exact .inl (List.mem_singleton.1 h)
  | cons p m ih =>
    obtain ⟨k', v'⟩ := p
    rw [put] at h
    split at h
    · exact List.mem_cons.1 h
    · split at h <;> rename_i hk
      · exact .inr (hk ▸ h)
      · rcases List.mem_cons.1 h with rfl | h
        · exact .inr List.mem_cons_self
        · exact (ih h).imp_right (List.mem_cons_of_mem _)

theorem Sorted.put (h : Sorted m) (k : K) (v : V) : Sorted (m.put k v) := by
  induction m with
  | nil => exact List.pairwise_singleton _ _
  | cons p m ih =>
    obtain ⟨k', v'⟩ := p
    obtain ⟨hlt, hm⟩ := sorted_cons.1 h
    rw [OrderedMap.put]
    split <;> rename_i hk
    · refine sorted_cons.2 ⟨fun i hi => ?_, h⟩
      rcases List.mem_cons.1 hi with rfl | hi
      · exact hk
      · exact lt_trans hk (hlt i hi)
    · split <;> rename_i heq
      · exact sorted_cons.2 ⟨heq ▸ hlt, hm⟩
      · refine sorted_cons.2 ⟨fun i hi => ?_, ih hm⟩
        rcases mem_keys_put hi with rfl | hi
        · exact lt_of_le_of_ne (not_lt.1 hk) (Ne.symm heq)
        · exact hlt i hi

theorem Sorted.erase (h : Sorted m) (k : K) : Sorted (m.erase k) :=
  h.sublist (List.filter_sublist.map _)

theorem find_eq_none (h : k ∉ m.map Prod.fst) : m.find k = none := by
  induction m with
  | nil => rfl
  | cons p m ih =>
    obtain ⟨k', v⟩ := p
    obtain ⟨hne, hm⟩ := not_or.1 (mt List.mem_cons.2 h)
    rw [find_cons, if_neg hne, ih hm]

theorem Sorted.find_of_mem (h : Sorted m) (hm : (k, v) ∈ m) : m.find k = some v := by
  induction m with
  | nil => cases hm
  | cons p m ih =>
    obtain ⟨k', v'⟩ := p
    obtain ⟨hlt, hs⟩ := sorted_cons.1 h
    rw [find_cons]
    rcases List.mem_cons.1 hm with heq | hm
    · obtain ⟨rfl, rfl⟩ := Prod.mk.inj heq
      exact if_pos rfl
    · rw [if_neg (ne_of_gt (hlt k (List.mem_map_of_mem hm))), ih hs hm]

theorem length_put (h : m.find k = none) : (m.put k v).length = m.length + 1 :=
  (put_perm h).length_eq

theorem erase_eq_self (h : k ∉ m.map Prod.fst) : m.erase k = m :=
  List.filter_eq_self.2 fun _ hp => decide_eq_true (ne_of_mem_of_not_mem
    (List.mem_map_of_mem hp) h)

theorem Sorted.length_erase (h : Sorted m) (hk : m.find k = some v) :
    (m.erase k).length + 1 = m.length := by
  induction m with
  | nil => cases hk
  | cons p m ih =>
    obtain ⟨k', v'⟩ := p
    obtain ⟨hlt, hm⟩ := sorted_cons.1 h
    rw [find_cons] at hk
    rw [OrderedMap.erase, List.filter_cons]
    split at hk <;> rename_i heq
    · have hrest : OrderedMap.erase m k = m := erase_eq_self fun hi => lt_irrefl k (heq ▸ hlt k hi)
      rw [if_neg (by simp [heq]), List.length_cons]
      exact congrArg (fun l => List.length l + 1) hrest
    · rw [if_pos (by simpa using Ne.symm heq), List.length_cons, List.length_cons]
      exact congrArg (· + 1) (ih hm hk)

/-- Some keys are removed. -/
theorem find_filter (keep : K → Bool) (m : OrderedMap K V) (k : K) :
    find (m.filter fun p => keep p.1) k = if keep k then m.find k else none := by
  induction m with
  | nil => simp
  | cons p m ih =>
    obtain ⟨k', v⟩ := p
    rw [List.filter_cons, find_cons]
    by_cases hk : k = k'
    · subst hk
      by_cases hkeep : keep k
      · rw [if_pos hkeep, if_pos hkeep, if_pos rfl, find_cons, if_pos rfl]
      · rw [if_neg hkeep, ih, if_neg hkeep, if_neg hkeep]
    · rw [if_neg hk]
      by_cases hkeep' : keep k'
      · rw [if_pos hkeep', find_cons, if_neg hk, ih]
      · rw [if_neg hkeep', ih]

/-- **The rule for a loop that updates another map at every key.** -/
theorem find_foldl_put {W : Type} (g : V → Option W → W) (h : Sorted m) (s : OrderedMap K W)
    (k : K) :
    (m.foldl (fun s p => s.put p.1 (g p.2 (s.find p.1))) s).find k =
      match m.find k with
      | some v => some (g v (s.find k))
      | none => s.find k := by
  induction m generalizing s with
  | nil => rfl
  | cons p m ih =>
    obtain ⟨k', v⟩ := p
    obtain ⟨hlt, hm⟩ := sorted_cons.1 h
    rw [List.foldl_cons, ih hm, find_cons, find_put]
    by_cases hk : k = k'
    · -- the key does not come again
      have hnone : find m k = none := find_eq_none fun hi => lt_irrefl k (hk ▸ hlt k hi)
      rw [hnone, if_pos hk, if_pos hk, hk]
    · rw [if_neg hk, if_neg hk]

end OrderedMap

end V2nLte
