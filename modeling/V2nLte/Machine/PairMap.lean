import V2nLte.Machine.OrderedMap

/-!
# Maps of pairs

`PairMap K V` is a map of maps, the rows of a matrix over some of the keys.  `fill` goes over the
pairs of a list of keys once, each key with itself and with the keys after it, and sets what it
computes for a pair in both directions.

* `PairMap.get_fill` : a pair gets what is computed for it in the order of the list.
* `PairMap.fill_symm` : the matrix is symmetric.
-/

namespace V2nLte

/-- A value for some pairs of keys, row by row. -/
abbrev PairMap (K V : Type) := OrderedMap K (OrderedMap K V)

/-- The key `b` is the key `a` in the list, or comes after it. -/
def Precedes {K : Type} (ks : List K) (a b : K) : Prop :=
  ∃ pre post, ks = pre ++ a :: post ∧ b ∈ a :: post

theorem Precedes.cons {K : Type} {ks : List K} {a b c : K} (h : Precedes ks a b) :
    Precedes (c :: ks) a b := by
  obtain ⟨pre, post, rfl, hb⟩ := h
  exact ⟨c :: pre, post, rfl, hb⟩

theorem Precedes.of_append {K : Type} {ks ls : List K} {a b : K} (h : Precedes (ks ++ ls) a b) :
    a ∈ ks ∨ b ∈ ls := by
  obtain ⟨pre, post, heq, hb⟩ := h
  rcases List.append_eq_append_iff.1 heq with ⟨c, -, rfl⟩ | ⟨c, rfl, hc⟩
  · exact .inr (List.mem_append_right c hb)
  · cases c with
    | nil => exact .inr (by rwa [← (show a :: post = ls from hc)])
    | cons k c =>
      obtain ⟨rfl, -⟩ := List.cons.inj hc
      exact .inl (List.mem_append_right pre List.mem_cons_self)

namespace PairMap

variable {K V : Type} [LinearOrder K]

/-- The value of a pair. -/
def get (m : PairMap K V) (a b : K) : Option V := (OrderedMap.find m a).bind (·.find b)

/-- Set the value of a pair. -/
def set (m : PairMap K V) (a b : K) (v : V) : PairMap K V :=
  OrderedMap.put m a (((OrderedMap.find m a).getD []).put b v)

/-- Set the value of a pair in both directions. -/
def setBoth (m : PairMap K V) (a b : K) (v : V) : PairMap K V := (m.set a b v).set b a v

/-- The inner loop. -/
def fillRow (edge : K → K → V) (a : K) (bs : List K) (m : PairMap K V) : PairMap K V :=
  bs.foldl (fun m b => m.setBoth a b (edge a b)) m

/-- The double loop. -/
def fill (edge : K → K → V) : List K → PairMap K V → PairMap K V
  | [], m => m
  | a :: ks, m => fill edge ks (fillRow edge a (a :: ks) m)

variable {m : PairMap K V} {edge : K → K → V} {ks : List K} {a b c d : K} {v : V}

theorem get_set :
    (m.set a b v).get c d = if c = a ∧ d = b then some v else m.get c d := by
  unfold get set
  rw [OrderedMap.find_put]
  by_cases hc : c = a
  · subst hc
    rw [if_pos rfl, Option.bind_some, OrderedMap.find_put]
    by_cases hd : d = b
    · rw [if_pos hd, if_pos ⟨rfl, hd⟩]
    · rw [if_neg hd, if_neg fun h => hd h.2]
      cases OrderedMap.find m c with
      | none => rfl
      | some row => rfl
  · rw [if_neg hc, if_neg fun h => hc h.1]

theorem get_setBoth : (m.setBoth a b v).get c d =
    if c = a ∧ d = b ∨ c = b ∧ d = a then some v else m.get c d := by
  rw [setBoth, get_set, get_set]
  by_cases hba : c = b ∧ d = a
  · rw [if_pos hba, if_pos (.inr hba)]
  · rw [if_neg hba]
    simp only [hba, or_false]

theorem get_fillRow (bs : List K) (m : PairMap K V) : (fillRow edge a bs m).get c d =
    if c = a ∧ d ∈ bs then some (edge a d)
    else if d = a ∧ c ∈ bs then some (edge a c)
    else m.get c d := by
  induction bs generalizing m with
  | nil => simp [fillRow]
  | cons b bs ih =>
    rw [fillRow, List.foldl_cons]
    refine (ih _).trans ?_
    rw [get_setBoth]
    by_cases hc : c = a
    · -- the entries of the row itself
      subst hc
      by_cases hd : d ∈ bs
      · rw [if_pos ⟨rfl, hd⟩, if_pos ⟨rfl, List.mem_cons_of_mem b hd⟩]
      · have hdc : ¬(d = c ∧ c ∈ bs) := fun h => hd (h.1 ▸ h.2)
        rw [if_neg fun h => hd h.2, if_neg hdc]
        grind
    · -- the entries of the column
      simp only [hc, false_and, false_or, if_false, List.mem_cons]
      by_cases hcb : c = b
      · rw [hcb]
        simp only [true_and, true_or, and_true]
        by_cases hd : d = a ∧ b ∈ bs
        · rw [if_pos hd, if_pos hd.1]
        · rw [if_neg hd]
      · simp only [hcb, false_and, false_or, if_false]

/-- **What a pair gets.** -/
theorem get_fill (edge : K → K → V) (ks : List K) (m : PairMap K V) (a b : K) :
    (a ∈ ks ∧ b ∈ ks ∧ ∃ x, (fill edge ks m).get a b = some x ∧
        (Precedes ks a b ∧ x = edge a b ∨ Precedes ks b a ∧ x = edge b a)) ∨
      ((a ∉ ks ∨ b ∉ ks) ∧ (fill edge ks m).get a b = m.get a b) := by
  induction ks generalizing m with
  | nil => exact .inr ⟨.inl List.not_mem_nil, rfl⟩
  | cons k ks ih =>
    rw [fill]
    rcases ih (fillRow edge k (k :: ks) m) with ⟨ha, hb, x, hx, horder⟩ | ⟨hnot, heq⟩
    · exact .inl ⟨List.mem_cons_of_mem k ha, List.mem_cons_of_mem k hb, x, hx,
        horder.imp (And.imp_left .cons) (And.imp_left .cons)⟩
    · rw [heq, get_fillRow]
      by_cases hak : a = k ∧ b ∈ k :: ks
      · obtain ⟨rfl, hb⟩ := hak
        rw [if_pos ⟨rfl, hb⟩]
        exact .inl ⟨List.mem_cons_self, hb, _, rfl, .inl ⟨⟨[], ks, rfl, hb⟩, rfl⟩⟩
      · rw [if_neg hak]
        by_cases hbk : b = k ∧ a ∈ k :: ks
        · obtain ⟨rfl, ha⟩ := hbk
          rw [if_pos ⟨rfl, ha⟩]
          exact .inl ⟨ha, List.mem_cons_self, _, rfl, .inr ⟨⟨[], ks, rfl, ha⟩, rfl⟩⟩
        · rw [if_neg hbk]
          refine .inr ⟨?_, rfl⟩
          by_contra hboth
          rw [not_or, not_not, not_not] at hboth
          obtain ⟨ha, hb⟩ := hboth
          -- neither is the first key, so both come later
          have hak' : a ∈ ks := (List.mem_cons.1 ha).resolve_left fun h => hak ⟨h, hb⟩
          have hbk' : b ∈ ks := (List.mem_cons.1 hb).resolve_left fun h => hbk ⟨h, ha⟩
          exact hnot.elim (fun h => h hak') fun h => h hbk'

/-- **The matrix is symmetric**, if it was. -/
theorem fill_symm (hm : ∀ a b, m.get a b = m.get b a) (a b : K) :
    (fill edge ks m).get a b = (fill edge ks m).get b a := by
  have hrow : ∀ (k : K) (bs : List K) (m : PairMap K V), (∀ a b, m.get a b = m.get b a) →
      ∀ a b, (fillRow edge k bs m).get a b = (fillRow edge k bs m).get b a := by
    intro k bs m hm a b
    rw [get_fillRow, get_fillRow, hm a b]
    by_cases ha : a = k ∧ b ∈ bs
    · by_cases hb : b = k ∧ a ∈ bs
      · rw [if_pos ha, if_pos hb, ha.1, hb.1]
      · rw [if_pos ha, if_neg hb, if_pos ha]
    · rw [if_neg ha, if_neg ha]
  induction ks generalizing m with
  | nil => exact hm a b
  | cons k ks ih => exact ih (hrow k (k :: ks) m hm)

/-! ### Rows in order -/

/-- The rows and their entries are in the order of the keys. -/
structure Sorted (m : PairMap K V) : Prop where
  rows : OrderedMap.Sorted m
  entries : ∀ a row, (a, row) ∈ m → OrderedMap.Sorted row

theorem sorted_nil : Sorted ([] : PairMap K V) := ⟨OrderedMap.sorted_nil, nofun⟩

theorem Sorted.set (h : m.Sorted) (a b : K) (v : V) : (m.set a b v).Sorted := by
  refine ⟨h.rows.put a _, fun c row hmem => ?_⟩
  rcases OrderedMap.mem_of_mem_put hmem with heq | hmem
  · obtain ⟨-, rfl⟩ := Prod.mk.inj heq
    refine OrderedMap.Sorted.put ?_ b v
    cases hrow : OrderedMap.find m a with
    | none => exact OrderedMap.sorted_nil
    | some row => exact h.entries a row (OrderedMap.mem_of_find hrow)
  · exact h.entries c row hmem

theorem Sorted.fill (h : m.Sorted) : (fill edge ks m).Sorted := by
  have hrow : ∀ (k : K) (bs : List K) (m : PairMap K V), m.Sorted →
      (fillRow edge k bs m).Sorted := by
    intro k bs
    induction bs with
    | nil => exact fun m h => h
    | cons b bs ih => exact fun m h => ih _ ((h.set k b _).set b k _)
  induction ks generalizing m with
  | nil => exact h
  | cons k ks ih => exact ih (hrow k (k :: ks) m h)

/-- What a loop over the rows and their entries finds. -/
theorem Sorted.get_eq_some (h : m.Sorted) :
    m.get a b = some v ↔ ∃ row, (a, row) ∈ m ∧ (b, v) ∈ row := by
  rw [get, Option.bind_eq_some_iff]
  refine exists_congr fun row => ⟨fun hget => ?_, fun hmem => ?_⟩
  · exact ⟨OrderedMap.mem_of_find hget.1, OrderedMap.mem_of_find hget.2⟩
  · exact ⟨h.rows.find_of_mem hmem.1, (h.entries a row hmem.1).find_of_mem hmem.2⟩

end PairMap

end V2nLte
