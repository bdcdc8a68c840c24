import V2nLte.Machine.Basic
import Mathlib.Data.Int.Notation
import Mathlib.Data.List.Pairwise
import Mathlib.Logic.Function.Basic

/-!
# The traffic filter table

`TrafficFlowFilter` maps an address and a template to a TFT id, on two levels: for each first key
there is a list of templates.  A lookup tries the whole template, then the one without its ports,
then the one without its address too.

`addTrafficFlow` takes an entry for a duplicate if the lookup answers `!UNSPECIFIED_TFT`, which is
`0`: its test is written `ret ==! UNSPECIFIED_TFT`.

* `findTrafficFlow_spec` : what a lookup answers if no two entries are equal.
* `table_iff` : when the table stays a function over a run of `addTrafficFlow`.
-/

namespace V2nLte

/-- `UNSPECIFIED_PORT`. -/
def UNSPECIFIED_PORT : ℕ := 65536
/-- `UNSPECIFIED_TFT`. -/
def UNSPECIFIED_TFT : ℤ := 65536

/-- What `operator==` of a `TrafficFlowTemplate` compares; `A` are the addresses. -/
structure FlowKey (A : Type) where
  /-- The address that is compared. -/
  addr : A
  /-- The port of the source. -/
  srcPort : ℕ
  /-- The port of the destination. -/
  destPort : ℕ
  deriving DecidableEq

/-- `TrafficFlowTemplate`. -/
structure TrafficFlowTemplate (A : Type) extends FlowKey A where
  /-- The identifier of the flow. -/
  tftId : ℤ
  deriving DecidableEq

/-- `TrafficFilterTemplateTable`. -/
abbrev TrafficFilterTemplateTable (A : Type) := A → List (TrafficFlowTemplate A)

namespace TrafficFlowFilter

variable {A : Type} [DecidableEq A]

/-- A key without its ports. -/
def withoutPorts (k : FlowKey A) : FlowKey A :=
  { k with srcPort := UNSPECIFIED_PORT, destPort := UNSPECIFIED_PORT }

/-- The key of a filter that leaves everything unspecified; `zero` is the address 0.0.0.0. -/
def general (zero : A) : FlowKey A := ⟨zero, UNSPECIFIED_PORT, UNSPECIFIED_PORT⟩

/-- One scan of a list of templates. -/
def scan (filterList : List (TrafficFlowTemplate A)) (k : FlowKey A) : Option ℤ :=
  (filterList.find? fun e => e.toFlowKey = k).map fun e => e.tftId

/-- `findTrafficFlow`. -/
def findTrafficFlow (zero : A) (filterTable : TrafficFilterTemplateTable A) (firstKey : A)
    (secondKey : FlowKey A) : ℤ :=
  match scan (filterTable firstKey) secondKey with
  | some tftId => tftId
  | none =>
    match scan (filterTable firstKey) (withoutPorts secondKey) with
    | some tftId => tftId
    | none => (scan (filterTable firstKey) (general zero)).getD UNSPECIFIED_TFT

/-- The operator `!`. -/
def cNot (z : ℤ) : ℤ := if z = 0 then 1 else 0

/-- `addTrafficFlow`. -/
def addTrafficFlow (zero : A) (filterTable : TrafficFilterTemplateTable A) (firstKey : A)
    (tft : TrafficFlowTemplate A) : TrafficFilterTemplateTable A × Bool :=
  let ret := findTrafficFlow zero filterTable firstKey tft.toFlowKey
  if ret = cNot UNSPECIFIED_TFT then (filterTable, false)
  else (Function.update filterTable firstKey (filterTable firstKey ++ [tft]), true)

/-- The table over calls of `addTrafficFlow`, with the answers. -/
def machine (zero : A) :
    Machine (TrafficFilterTemplateTable A) (A × TrafficFlowTemplate A) Bool where
  step s e :=
    let r := addTrafficFlow zero s e.1 e.2
    some (r.1, [r.2])

/-! ### A table that is a function -/

/-- No two entries of a list are equal. -/
def Unique (l : List (TrafficFlowTemplate A)) : Prop :=
  l.Pairwise fun e e' => e.toFlowKey ≠ e'.toFlowKey

/-- The answer is the id of the entry with the key `k`, or as `otherwise` says if there is none. -/
def AnswerOf (l : List (TrafficFlowTemplate A)) (k : FlowKey A) (otherwise : ℤ → Prop)
    (id : ℤ) : Prop :=
  (∀ e ∈ l, e.toFlowKey = k → id = e.tftId) ∧ ((∀ e ∈ l, e.toFlowKey ≠ k) → otherwise id)

/-- The answer of a lookup, the most specific entry first. -/
def LooksUp (zero : A) (l : List (TrafficFlowTemplate A)) (k : FlowKey A) : ℤ → Prop :=
  AnswerOf l k (AnswerOf l (withoutPorts k) (AnswerOf l (general zero) (· = UNSPECIFIED_TFT)))

/-- A table with most specific lookup. -/
structure IsTable (zero : A) (s : TrafficFilterTemplateTable A) : Prop where
  /-- No filter stands twice under a key. -/
  unique : ∀ firstKey, Unique (s firstKey)
  /-- The lookup finds the most specific filter that matches. -/
  lookup : ∀ firstKey k, LooksUp zero (s firstKey) k (findTrafficFlow zero s firstKey k)

/-- A call goes as it should: it is refused, and the table unchanged, exactly if there is an equal
entry. -/
def CallFine (s : TrafficFilterTemplateTable A) (e : A × TrafficFlowTemplate A)
    (s' : TrafficFilterTemplateTable A) (o : List Bool) : Prop :=
  o = [false] ∧ s' = s ↔ ∃ t ∈ s e.1, t.toFlowKey = e.2.toFlowKey

/-- The id `0` is where `addTrafficFlow` expects it: an equal entry has it, and if there is none,
then the entry that a lookup falls back on does not have it. -/
def ZeroExpected (zero : A) (s : TrafficFilterTemplateTable A) (e : A × TrafficFlowTemplate A) :
    Prop :=
  (∀ t ∈ s e.1, t.toFlowKey = e.2.toFlowKey → t.tftId = 0) ∧
    ((∀ t ∈ s e.1, t.toFlowKey ≠ e.2.toFlowKey) →
      (∀ t ∈ s e.1, t.toFlowKey = withoutPorts e.2.toFlowKey → t.tftId ≠ 0) ∧
        ((∀ t ∈ s e.1, t.toFlowKey ≠ withoutPorts e.2.toFlowKey) →
          ∀ t ∈ s e.1, t.toFlowKey = general zero → t.tftId ≠ 0))

variable {zero : A} {s s' : TrafficFilterTemplateTable A} {e : A × TrafficFlowTemplate A}
  {l : List (TrafficFlowTemplate A)} {k : FlowKey A} {firstKey : A} {o : List Bool} {id : ℤ}

theorem scan_eq_none : scan l k = none ↔ ∀ e ∈ l, e.toFlowKey ≠ k := by
  simp [scan]

theorem scan_eq_some (hl : Unique l) {t : TrafficFlowTemplate A} (ht : t ∈ l)
    (hk : t.toFlowKey = k) : scan l k = some t.tftId := by
  unfold Unique at hl
  induction l with
  | nil => cases ht
  | cons e l ih =>
    obtain ⟨hne, hl⟩ := List.pairwise_cons.1 hl
    rcases List.mem_cons.1 ht with rfl | ht
    · simp [scan, hk]
    · have hek : e.toFlowKey ≠ k := hk ▸ hne t ht
      have hskip : scan (e :: l) k = scan l k := by
        rw [scan, List.find?_cons_of_neg (by simpa using hek)]
        rfl
      rw [hskip]
      exact ih hl ht

theorem answerOf_scan (hl : Unique l) {otherwise : ℤ → Prop} {d : ℤ} (hd : otherwise d) :
    AnswerOf l k otherwise ((scan l k).getD d) := by
  constructor
  · intro e he hk
    rw [scan_eq_some hl he hk]
    rfl
  · intro hnone
    rw [scan_eq_none.2 hnone]
    exact hd

theorem findTrafficFlow_eq : findTrafficFlow zero s firstKey k =
    (scan (s firstKey) k).getD ((scan (s firstKey) (withoutPorts k)).getD
      ((scan (s firstKey) (general zero)).getD UNSPECIFIED_TFT)) := by
  unfold findTrafficFlow
  cases scan (s firstKey) k with
  | some tftId => rfl
  | none =>
    cases scan (s firstKey) (withoutPorts k) with
    | some tftId => rfl
    | none => rfl

variable (zero k) in
/-- **A lookup finds the most specific entry.** -/
theorem findTrafficFlow_spec (h : Unique (s firstKey)) :
    LooksUp zero (s firstKey) k (findTrafficFlow zero s firstKey k) := by
  rw [findTrafficFlow_eq]
  exact answerOf_scan h (answerOf_scan h (answerOf_scan h rfl))

theorem AnswerOf.ne_zero_iff {otherwise : ℤ → Prop} (h : AnswerOf l k otherwise id) {C : Prop}
    (hother : otherwise id → (id ≠ 0 ↔ C)) :
    id ≠ 0 ↔ (∀ t ∈ l, t.toFlowKey = k → t.tftId ≠ 0) ∧ ((∀ t ∈ l, t.toFlowKey ≠ k) → C) := by
  constructor
  · intro hid
    exact ⟨fun t ht hk => h.1 t ht hk ▸ hid, fun hnone => (hother (h.2 hnone)).1 hid⟩
  · rintro ⟨hsome, hnone⟩
    by_cases hex : ∃ t ∈ l, t.toFlowKey = k
    · obtain ⟨t, ht, hk⟩ := hex
      exact h.1 t ht hk ▸ hsome t ht hk
    · have hall : ∀ t ∈ l, t.toFlowKey ≠ k := fun t ht hk => hex ⟨t, ht, hk⟩
      exact (hother (h.2 hall)).2 (hnone hall)

theorem refused_iff (hst : (machine zero).step s e = some (s', o)) :
    (o = [false] ∧ s' = s ↔ findTrafficFlow zero s e.1 e.2.toFlowKey = 0) ∧
      (o = [false] ∧ s' = s ∨
        o = [true] ∧ s' = Function.update s e.1 (s e.1 ++ [e.2])) := by
  obtain ⟨rfl, rfl⟩ := Prod.mk.inj (Option.some.inj hst)
  have hnot : cNot UNSPECIFIED_TFT = 0 := by decide
  unfold addTrafficFlow
  dsimp only
  rw [hnot]
  split
  · rename_i hzero
    exact ⟨iff_of_true ⟨rfl, rfl⟩ hzero, .inl ⟨rfl, rfl⟩⟩
  · rename_i hzero
    exact ⟨iff_of_false (fun hboth => by simp at hboth) hzero, .inr ⟨rfl, rfl⟩⟩

/-- **The step.**  While no two entries are equal, a call goes as it should exactly if the id `0`
is where it is expected. -/
theorem callFine_iff (hs : ∀ firstKey, Unique (s firstKey))
    (hst : (machine zero).step s e = some (s', o)) :
    CallFine s e s' o ↔ ZeroExpected zero s e := by
  have hlookup := findTrafficFlow_spec zero e.2.toFlowKey (hs e.1)
  rw [CallFine, (refused_iff hst).1, ZeroExpected]
  generalize findTrafficFlow zero s e.1 e.2.toFlowKey = id at hlookup
  by_cases hex : ∃ t ∈ s e.1, t.toFlowKey = e.2.toFlowKey
  · rw [iff_true_right hex]
    obtain ⟨t, ht, hk⟩ := hex
    constructor
    · intro hid
      exact ⟨fun t' ht' hk' => (hlookup.1 t' ht' hk').symm.trans hid,
        fun hnone => absurd hk (hnone t ht)⟩
    · exact fun hzero => (hlookup.1 t ht hk).trans (hzero.1 t ht hk)
  · have hnone : ∀ t ∈ s e.1, t.toFlowKey ≠ e.2.toFlowKey := fun t ht hk => hex ⟨t, ht, hk⟩
    rw [iff_false_right hex, ← ne_eq, (hlookup.2 hnone).ne_zero_iff (C := ∀ t ∈ s e.1,
      t.toFlowKey = general zero → t.tftId ≠ 0) fun hrest => ?_]
    · exact ⟨fun hcond => ⟨fun t ht hk => absurd hk (hnone t ht), fun _ => hcond⟩,
        fun hcond => hcond.2 hnone⟩
    · -- the last stage ends with `UNSPECIFIED_TFT`, which is not `0`
      rw [hrest.ne_zero_iff (C := True) fun hid => iff_of_true (by rw [hid]; decide) trivial]
      exact and_iff_left fun _ => trivial

theorem unique_step (hs : ∀ firstKey, Unique (s firstKey))
    (hst : (machine zero).step s e = some (s', o)) (hfine : CallFine s e s' o) :
    ∀ firstKey, Unique (s' firstKey) := by
  rcases (refused_iff hst).2 with ⟨-, rfl⟩ | ⟨rfl, rfl⟩
  · exact hs
  · have hnew : ∀ t ∈ s e.1, t.toFlowKey ≠ e.2.toFlowKey := fun t ht hk => by
      have hrefused := (hfine.2 ⟨t, ht, hk⟩).1
      simp at hrefused
    intro firstKey
    by_cases hfirst : firstKey = e.1
    · subst hfirst
      rw [Function.update_self]
      refine List.pairwise_append.2 ⟨hs _, List.pairwise_singleton _ _, fun t ht t' ht' => ?_⟩
      rw [List.mem_singleton.1 ht']
      exact hnew t ht
    · rw [Function.update_of_ne hfirst]
      exact hs firstKey

/-- **When the filter table is a function.**  In a run of `addTrafficFlow` every call is refused
exactly if there is an equal entry, and leaves a table without equal entries whose lookups answer
with the most specific entry, if and only if every call finds the id `0` just where it is
expected. -/
theorem table_iff (zero : A) (es : List (A × TrafficFlowTemplate A)) :
    (∀ s e s' o, (machine zero).Takes (fun _ => []) es s e s' o →
      CallFine s e s' o ∧ IsTable zero s') ↔
    ∀ s e s' o, (machine zero).Takes (fun _ => []) es s e s' o → ZeroExpected zero s e := by
  have hempty : ∀ firstKey : A, Unique ((fun _ => []) firstKey : List (TrafficFlowTemplate A)) :=
    fun _ => List.Pairwise.nil
  constructor
  · intro hall s e s' o ht
    have hs : ∀ firstKey, Unique (s firstKey) := ht.visits.invariant hempty
      fun s e s' o ht _ => (hall s e s' o ht).2.unique
    have hfine := (hall s e s' o ht).1
    obtain ⟨-, -, -, -, -, hst⟩ := ht
    exact (callFine_iff hs hst).1 hfine
  · intro hall s e s' o ht
    have hs : ∀ firstKey, Unique (s firstKey) := by
      refine ht.visits.invariant (I := fun s => ∀ firstKey, Unique (s firstKey)) hempty ?_
      intro s e s' o ht hs
      have hzero := hall s e s' o ht
      obtain ⟨-, -, -, -, -, hst⟩ := ht
      exact unique_step hs hst ((callFine_iff hs hst).2 hzero)
    have hzero := hall s e s' o ht
    obtain ⟨-, -, -, -, -, hst⟩ := ht
    have hfine := (callFine_iff hs hst).2 hzero
    have hs' := unique_step hs hst hfine
    exact ⟨hfine, hs', fun firstKey k => findTrafficFlow_spec zero k (hs' firstKey)⟩

/-- A filter with the id `0` that leaves everything unspecified, and one for the address 7. -/
def generalFirst : List (ℕ × TrafficFlowTemplate ℕ) :=
  [(1, ⟨⟨0, 65536, 65536⟩, 0⟩), (1, ⟨⟨7, 65536, 65536⟩, 5⟩)]

/-- The general filter suppresses the specific one. -/
theorem specific_suppressed : ∃ s,
    (machine 0).exec (fun _ => []) generalFirst = some (s, [true, false]) ∧
      s 1 = [⟨⟨0, 65536, 65536⟩, 0⟩] ∧ findTrafficFlow 0 s 1 ⟨7, 65536, 65536⟩ = 0 ∧
      ¬∀ s e s' o, (machine 0).Takes (fun _ => []) generalFirst s e s' o →
        CallFine s e s' o ∧ IsTable 0 s' := by
  refine ⟨_, rfl, rfl, by decide, fun hall => ?_⟩
  obtain ⟨t, ht, hk⟩ := (hall _ _ _ [false]
    ⟨[(1, ⟨⟨0, 65536, 65536⟩, 0⟩)], [], [true], rfl, rfl, rfl⟩).1.1 ⟨rfl, rfl⟩
  obtain rfl := List.mem_singleton.1 ht
  exact absurd hk (by decide)

end TrafficFlowFilter

end V2nLte
