import Mathlib.Data.List.Induction

/-!
# Event machines

The modules of a discrete-event simulation are all of one shape: a state, and a handler that is
run to completion for one event at a time.  `Machine S E O` is such a module with states `S`,
events `E` and observable outputs `O` (messages sent, commands issued, rows written).

## Main definitions

* `Machine.exec s₀ es` : the state and the outputs after the events `es`, if all of them can
  occur in that order.
* `Machine.Visits s₀ es s` : the run of `es` from `s₀` passes through the state `s`.
* `Machine.Takes s₀ es s e s' o` : the run of `es` from `s₀` handles `e` in state `s`, moving to
  `s'` with outputs `o`.

## Main results

* `Machine.exec_induction` : a property of the events so far, the state and the outputs so far
  that holds initially and is kept by every step holds after every run.
* `Machine.exec_induction_of` : the same for a run whose steps all meet a condition.
* `Machine.Visits.invariant` : the same for a property of states, where only the steps the run
  takes have to keep it, so that a condition on the steps of one run can be used.
* `Machine.exec_fine_iff` : when the outputs of a run are all fine.
* `Machine.good_iff_of_reference` : when the steps of a run agree with a reference model.
* `Machine.sound_iff` : when a run handles all its events, and soundly.
* `Machine.exec_snd_eq` : two machines that keep step put out the same in every run.
-/

namespace V2nLte

/-- A module that handles one event at a time. -/
structure Machine (S E O : Type*) where
  /-- `step s e` is the state after the event `e` and the outputs of its handler, or `none` if
  `e` cannot occur in `s` or its handler ends the simulation. -/
  step : S → E → Option (S × List O)

namespace Machine

variable {S E O : Type*} (M : Machine S E O)

/-- The state and the outputs after the events `es`. -/
def exec : S → List E → Option (S × List O)
  | s, [] => some (s, [])
  | s, e :: es =>
    match M.step s e with
    | none => none
    | some (s', o) =>
      match exec s' es with
      | none => none
      | some (s'', os) => some (s'', o ++ os)

/-- The run of `es` from `s₀` passes through `s`. -/
def Visits (s₀ : S) (es : List E) (s : S) : Prop :=
  ∃ es₁ es₂ os, es = es₁ ++ es₂ ∧ M.exec s₀ es₁ = some (s, os)

/-- The run of `es` from `s₀` handles the event `e` in state `s`, moving to `s'` with the
outputs `o`. -/
def Takes (s₀ : S) (es : List E) (s : S) (e : E) (s' : S) (o : List O) : Prop :=
  ∃ es₁ es₂ os, es = es₁ ++ e :: es₂ ∧ M.exec s₀ es₁ = some (s, os) ∧ M.step s e = some (s', o)

/-- The run of `es` from `s₀` comes to the event `e` in state `s`, whether `e` can be handled
there or not. -/
def Comes (s₀ : S) (es : List E) (s : S) (e : E) : Prop :=
  ∃ es₁ es₂ os, es = es₁ ++ e :: es₂ ∧ M.exec s₀ es₁ = some (s, os)

/-- All the steps of the run of `es` from `s` meet the condition `C`. -/
def Meets (C : S → E → Prop) : S → List E → Prop
  | _, [] => True
  | s, e :: es =>
    match M.step s e with
    | none => True
    | some (s', _) => C s e ∧ Meets C s' es

variable {M} {s₀ s s' : S} {e : E} {es : List E} {o os : List O}

/-- Whether a run meets a condition can be computed. -/
def decMeets {C : S → E → Prop} [∀ s e, Decidable (C s e)] :
    (s : S) → (es : List E) → Decidable (M.Meets C s es)
  | _, [] => isTrue trivial
  | s, e :: es => by
    unfold Meets
    cases M.step s e with
    | none => exact isTrue trivial
    | some r =>
      have := decMeets (C := C) r.1 es
      exact inferInstanceAs (Decidable (C s e ∧ M.Meets C r.1 es))

instance {C : S → E → Prop} [∀ s e, Decidable (C s e)] (s : S) (es : List E) :
    Decidable (M.Meets C s es) := decMeets s es

@[simp] theorem exec_nil : M.exec s [] = some (s, []) := rfl

theorem exec_cons_eq_some :
    M.exec s (e :: es) = some (s', os) ↔
      ∃ s₁ o₁ o₂, M.step s e = some (s₁, o₁) ∧ M.exec s₁ es = some (s', o₂) ∧ os = o₁ ++ o₂ := by
  constructor
  · intro h
    simp only [exec] at h
    split at h
    · cases h
    · rename_i s₁ o₁ hst
      split at h
      · cases h
      · rename_i s₂ o₂ hex
        simp only [Option.some.injEq, Prod.mk.injEq] at h
        obtain ⟨rfl, rfl⟩ := h
        exact ⟨s₁, o₁, o₂, hst, hex, rfl⟩
  · rintro ⟨s₁, o₁, o₂, hst, hex, rfl⟩
    simp [exec, hst, hex]

theorem exec_append_eq_some {es' : List E} :
    M.exec s (es ++ es') = some (s', os) ↔
      ∃ s₁ o₁ o₂, M.exec s es = some (s₁, o₁) ∧ M.exec s₁ es' = some (s', o₂) ∧
        os = o₁ ++ o₂ := by
  induction es generalizing s os with
  | nil =>
    constructor
    · intro h; exact ⟨s, [], os, rfl, h, rfl⟩
    · rintro ⟨s₁, o₁, o₂, h₁, h₂, rfl⟩
      simp only [exec_nil, Option.some.injEq, Prod.mk.injEq] at h₁
      obtain ⟨rfl, rfl⟩ := h₁
      exact h₂
  | cons e es ih =>
    rw [List.cons_append, exec_cons_eq_some]
    constructor
    · rintro ⟨s₁, o₁, o₂, hst, hex, rfl⟩
      obtain ⟨s₂, p₁, p₂, h₁, h₂, rfl⟩ := ih.1 hex
      exact ⟨s₂, o₁ ++ p₁, p₂, exec_cons_eq_some.2 ⟨s₁, o₁, p₁, hst, h₁, rfl⟩, h₂, by simp⟩
    · rintro ⟨s₂, o', p₂, hex, h₂, rfl⟩
      obtain ⟨s₁, o₁, p₁, hst, h₁, rfl⟩ := exec_cons_eq_some.1 hex
      exact ⟨s₁, o₁, p₁ ++ p₂, hst, ih.2 ⟨s₂, p₁, p₂, h₁, h₂, rfl⟩, by simp⟩

theorem exec_concat_eq_some :
    M.exec s (es ++ [e]) = some (s', os) ↔
      ∃ s₁ o₁ o₂, M.exec s es = some (s₁, o₁) ∧ M.step s₁ e = some (s', o₂) ∧
        os = o₁ ++ o₂ := by
  rw [exec_append_eq_some]
  constructor
  · rintro ⟨s₁, o₁, o₂, h₁, h₂, rfl⟩
    obtain ⟨s₂, p₁, p₂, hst, hex, rfl⟩ := exec_cons_eq_some.1 h₂
    simp only [exec_nil, Option.some.injEq, Prod.mk.injEq] at hex
    obtain ⟨rfl, rfl⟩ := hex
    exact ⟨s₁, o₁, p₁, h₁, hst, by simp⟩
  · rintro ⟨s₁, o₁, o₂, h₁, hst, rfl⟩
    exact ⟨s₁, o₁, o₂, h₁, exec_cons_eq_some.2 ⟨s', o₂, [], hst, rfl, by simp⟩, rfl⟩

/-- **The history rule.**  A property of the events so far, the state and the outputs so far
holds after every run if it holds initially and every step extends it. -/
theorem exec_induction {J : List E → S → List O → Prop} (h₀ : J [] s₀ [])
    (hstep : ∀ es s os e s' o, M.exec s₀ es = some (s, os) → J es s os →
      M.step s e = some (s', o) → J (es ++ [e]) s' (os ++ o))
    (h : M.exec s₀ es = some (s, os)) : J es s os := by
  induction es using List.reverseRecOn generalizing s os with
  | nil =>
    simp only [exec_nil, Option.some.injEq, Prod.mk.injEq] at h
    obtain ⟨rfl, rfl⟩ := h
    exact h₀
  | append_singleton es e ih =>
    obtain ⟨s₁, o₁, o₂, h₁, hst, rfl⟩ := exec_concat_eq_some.1 h
    exact hstep es s₁ o₁ e s o₂ h₁ (ih h₁) hst

/-- An invariant of the states holds after every run. -/
theorem exec_invariant {I : S → Prop} (h₀ : I s₀)
    (hstep : ∀ s e s' o, I s → M.step s e = some (s', o) → I s')
    (h : M.exec s₀ es = some (s, os)) : I s :=
  exec_induction (J := fun _ s _ => I s) h₀ (fun _ s _ e s' o _ hI hst => hstep s e s' o hI hst) h

theorem Takes.visits (h : M.Takes s₀ es s e s' o) : M.Visits s₀ es s := by
  obtain ⟨es₁, es₂, os, rfl, hex, -⟩ := h
  exact ⟨es₁, e :: es₂, os, rfl, hex⟩

theorem Takes.append_right {es' : List E} (h : M.Takes s₀ es s e s' o) :
    M.Takes s₀ (es ++ es') s e s' o := by
  obtain ⟨es₁, es₂, os, rfl, hex, hst⟩ := h
  exact ⟨es₁, es₂ ++ es', os, by simp, hex, hst⟩

/-- The run up to a step that it takes, and the run from there on. -/
theorem Takes.split {s₁ : S} (h : M.exec s₀ es = some (s₁, os)) (ht : M.Takes s₀ es s e s' o) :
    M.step s e = some (s', o) ∧ (∃ es₁ os₁, M.exec s₀ es₁ = some (s, os₁)) ∧
      ∃ es₂ os₂, M.exec s' es₂ = some (s₁, os₂) := by
  obtain ⟨es₁, es₂, os₁, rfl, hex, hst⟩ := ht
  refine ⟨hst, ⟨es₁, os₁, hex⟩, es₂, ?_⟩
  obtain ⟨t, o₁, o₂, hex₁, hex₂, -⟩ := exec_append_eq_some.1 h
  obtain ⟨rfl, -⟩ := Prod.mk.inj (Option.some.inj (hex.symm.trans hex₁))
  obtain ⟨t, o₃, o₄, hst', hex₃, -⟩ := exec_cons_eq_some.1 hex₂
  obtain ⟨rfl, -⟩ := Prod.mk.inj (Option.some.inj (hst.symm.trans hst'))
  exact ⟨o₄, hex₃⟩

theorem Takes.mem (h : M.Takes s₀ es s e s' o) : e ∈ es := by
  obtain ⟨es₁, es₂, os, rfl, -⟩ := h
  exact List.mem_append_right es₁ List.mem_cons_self

/-- The last event of a run is a step it takes. -/
theorem takes_concat (hex : M.exec s₀ es = some (s, os)) (hst : M.step s e = some (s', o)) :
    M.Takes s₀ (es ++ [e]) s e s' o :=
  ⟨es, [], os, rfl, hex, hst⟩

/-- Whatever a run puts out is put out in one of its steps. -/
theorem exists_takes_of_mem {x : O} (h : M.exec s₀ es = some (s, os)) (hx : x ∈ os) :
    ∃ s₁ e s₂ o, M.Takes s₀ es s₁ e s₂ o ∧ x ∈ o := by
  refine exec_induction (J := fun es _ os => x ∈ os → ∃ s₁ e s₂ o, M.Takes s₀ es s₁ e s₂ o ∧ x ∈ o)
    (fun hx => nomatch hx) (fun es s os e s' o hex ih hst hx => ?_) h hx
  rcases List.mem_append.1 hx with hx | hx
  · obtain ⟨s₁, e₁, s₂, o₁, htakes, hmem⟩ := ih hx
    exact ⟨s₁, e₁, s₂, o₁, htakes.append_right, hmem⟩
  · exact ⟨s, e, s', o, takes_concat hex hst, hx⟩

/-- The outputs up to a step that a run takes are the first outputs of the run. -/
theorem Takes.outputs {s₁ : S} (h : M.exec s₀ es = some (s₁, os)) (ht : M.Takes s₀ es s e s' o) :
    ∃ es₁ os₁ os₂, M.exec s₀ es₁ = some (s, os₁) ∧ os = os₁ ++ os₂ := by
  obtain ⟨es₁, es₂, os₁, rfl, hex, -⟩ := ht
  obtain ⟨t, o₁, o₂, hex₁, -, rfl⟩ := exec_append_eq_some.1 h
  obtain ⟨rfl, rfl⟩ := Prod.mk.inj (Option.some.inj (hex.symm.trans hex₁))
  exact ⟨es₁, _, o₂, hex, rfl⟩

/-- A step of a run with one more event is a step of the run or its last event. -/
theorem Takes.of_concat {f : E} (h : M.Takes s₀ (es ++ [f]) s e s' o) :
    M.Takes s₀ es s e s' o ∨ e = f ∧ ∃ os, M.exec s₀ es = some (s, os) := by
  obtain ⟨es₁, es₂, os, heq, hex, hst⟩ := h
  rcases List.eq_nil_or_concat es₂ with rfl | ⟨es₃, g, rfl⟩
  · obtain ⟨rfl, hef⟩ := List.append_inj_left' heq rfl, List.append_inj_right' heq rfl
    exact .inr ⟨(List.singleton_inj.1 hef).symm, os, hex⟩
  · have hes : es = es₁ ++ e :: es₃ := by
      have : es ++ [f] = (es₁ ++ e :: es₃) ++ [g] := by simpa using heq
      exact List.append_inj_left' this rfl
    exact .inl ⟨es₁, es₃, os, hes, hex, hst⟩

theorem Meets.takes {C : S → E → Prop} (h : M.Meets C s₀ es) (ht : M.Takes s₀ es s e s' o) :
    C s e := by
  obtain ⟨es₁, es₂, os, rfl, hex, hst⟩ := ht
  induction es₁ generalizing s₀ os with
  | nil =>
    obtain ⟨rfl, -⟩ := Prod.mk.inj (Option.some.inj hex)
    simp only [List.nil_append, Meets, hst] at h
    exact h.1
  | cons f es₁ ih =>
    obtain ⟨s₁, o₁, o₂, hst₁, hex₁, -⟩ := exec_cons_eq_some.1 hex
    simp only [List.cons_append, Meets, hst₁] at h
    exact ih o₂ h.2 hex₁

/-- **The rule for what a run puts out.**  Suppose that, while an invariant holds, the outputs of a
step are fine exactly if the condition `C` holds before it, and that such a step keeps the
invariant.  Then the outputs of a run are fine if and only if all its steps meet the condition. -/
theorem exec_fine_iff {I : S → Prop} {F : O → Prop} {C : S → E → Prop}
    (hstep : ∀ s e s' o, I s → M.step s e = some (s', o) →
      ((∀ x ∈ o, F x) ↔ C s e) ∧ (C s e → I s')) (h₀ : I s₀)
    (h : M.exec s₀ es = some (s, os)) :
    ((∀ x ∈ os, F x) ↔ M.Meets C s₀ es) ∧ (M.Meets C s₀ es → I s) := by
  induction es generalizing s₀ os with
  | nil =>
    obtain ⟨rfl, rfl⟩ := Prod.mk.inj (Option.some.inj h)
    exact ⟨⟨fun _ => trivial, fun _ => nofun⟩, fun _ => h₀⟩
  | cons e es ih =>
    obtain ⟨s₁, o₁, o₂, hst, hex, rfl⟩ := exec_cons_eq_some.1 h
    obtain ⟨hfine, hinv⟩ := hstep s₀ e s₁ o₁ h₀ hst
    have hmeets : M.Meets C s₀ (e :: es) ↔ C s₀ e ∧ M.Meets C s₁ es := by simp only [Meets, hst]
    rw [hmeets, List.forall_mem_append, hfine]
    refine ⟨and_congr_right fun hC => (ih (hinv hC) hex).1, fun hC => (ih (hinv hC.1) hex).2 hC.2⟩

/-- **The history rule for a run whose steps all meet a condition.** -/
theorem exec_induction_of {C : S → E → Prop} {J : List E → S → List O → Prop} (h₀ : J [] s₀ [])
    (hstep : ∀ es s os e s' o, M.exec s₀ es = some (s, os) → J es s os → C s e →
      M.step s e = some (s', o) → J (es ++ [e]) s' (os ++ o))
    (hC : ∀ s e s' o, M.Takes s₀ es s e s' o → C s e) (h : M.exec s₀ es = some (s, os)) :
    J es s os := by
  refine exec_induction (J := fun es s os =>
    (∀ s e s' o, M.Takes s₀ es s e s' o → C s e) → J es s os) (fun _ => h₀) ?_ h hC
  intro es s os e s' o hex ih hst hC
  exact hstep es s os e s' o hex (ih fun s e s' o ht => hC s e s' o ht.append_right)
    (hC s e s' o (takes_concat hex hst)) hst

/-- **The invariant rule for one run.**  A property that holds initially and that the steps
taken by the run keep holds in every state the run visits. -/
theorem Visits.invariant {I : S → Prop} (h : M.Visits s₀ es s) (h₀ : I s₀)
    (hstep : ∀ s e s' o, M.Takes s₀ es s e s' o → I s → I s') : I s := by
  obtain ⟨es₁, es₂, os, rfl, hex⟩ := h
  induction es₁ using List.reverseRecOn generalizing s os es₂ with
  | nil =>
    simp only [exec_nil, Option.some.injEq, Prod.mk.injEq] at hex
    obtain ⟨rfl, rfl⟩ := hex
    exact h₀
  | append_singleton es₁ e ih =>
    obtain ⟨s₁, o₁, o₂, h₁, hst, rfl⟩ := exec_concat_eq_some.1 hex
    have htakes : M.Takes s₀ (es₁ ++ [e] ++ es₂) s₁ e s o₂ :=
      ⟨es₁, es₂, o₁, by simp, h₁, hst⟩
    refine hstep s₁ e s o₂ htakes (ih ([e] ++ es₂) o₁ h₁ fun s e' s' o ht => ?_)
    exact hstep s e' s' o (by simpa using ht)

theorem Comes.visits (h : M.Comes s₀ es s e) : M.Visits s₀ es s := by
  obtain ⟨es₁, es₂, os, rfl, hex⟩ := h
  exact ⟨es₁, e :: es₂, os, rfl, hex⟩

theorem Takes.comes (h : M.Takes s₀ es s e s' o) : M.Comes s₀ es s e := by
  obtain ⟨es₁, es₂, os, rfl, hex, -⟩ := h
  exact ⟨es₁, es₂, os, rfl, hex⟩

/-- **The rule for runs without a fault.**  Suppose that, while an invariant holds, an event is
handled, and soundly, exactly if the condition `C` holds before it, and that a sound step keeps
the invariant.  Then a run handles all its events soundly if and only if all of them meet the
condition. -/
theorem sound_iff {I : S → Prop} {G : S → E → S → Prop} {C : S → E → Prop} (h₀ : I s₀)
    (hstep : ∀ s e, I s → ((∃ s' o, M.step s e = some (s', o) ∧ G s e s') ↔ C s e))
    (hkeep : ∀ s e s', I s → G s e s' → I s') :
    (∀ s e, M.Comes s₀ es s e → ∃ s' o, M.step s e = some (s', o) ∧ G s e s') ↔
      ∀ s e, M.Comes s₀ es s e → C s e := by
  -- whichever side is given, the steps of the run are sound where the invariant holds
  have hinv : (∀ s e, I s → M.Comes s₀ es s e → ∃ s' o, M.step s e = some (s', o) ∧ G s e s') →
      ∀ s e, M.Comes s₀ es s e → I s := by
    intro hsound s e hcomes
    refine hcomes.visits.invariant h₀ fun s e s' o htakes hI => ?_
    obtain ⟨s₁, o₁, hst, hG⟩ := hsound s e hI htakes.comes
    obtain ⟨-, -, -, -, -, hst'⟩ := htakes
    obtain ⟨rfl, -⟩ := Prod.mk.inj (Option.some.inj (hst.symm.trans hst'))
    exact hkeep s e s₁ hI hG
  constructor
  · intro hall s e hcomes
    have hI := hinv (fun s e _ hc => hall s e hc) s e hcomes
    exact (hstep s e hI).1 (hall s e hcomes)
  · intro hall s e hcomes
    have hI := hinv (fun s e hI hc => (hstep s e hI).2 (hall s e hc)) s e hcomes
    exact (hstep s e hI).2 (hall s e hcomes)

/-- **Comparison with a reference model.**  The reference model `ref : A → E → A` is followed
beside the machine.  Suppose that, while the two are related by `R`, a step is good exactly
if the condition `C` holds before it, and that such a step keeps them related.  Then all steps
of a run are good if and only if all of them meet the condition. -/
theorem good_iff_of_reference (M : Machine S E O) {A : Type*} (ref : A → E → A) (a₀ : A)
    (es : List E) {R : S → A → Prop} {G : A → E → List O → Prop} {C : S → E → Prop} (h₀ : R s₀ a₀)
    (hgood : ∀ s a e s' o, R s a → M.step s e = some (s', o) → (G a e o ↔ C s e))
    (hsim : ∀ s a e s' o, R s a → M.step s e = some (s', o) → C s e → R s' (ref a e)) :
    (∀ es₁ e es₂ s os s' o, es = es₁ ++ e :: es₂ → M.exec s₀ es₁ = some (s, os) →
      M.step s e = some (s', o) → G (es₁.foldl ref a₀) e o) ↔
    ∀ s e s' o, M.Takes s₀ es s e s' o → C s e := by
  -- as long as all earlier steps meet the condition, machine and reference are related
  have hrel : ∀ es₁ s os, M.exec s₀ es₁ = some (s, os) →
      (∀ s e s' o, M.Takes s₀ es₁ s e s' o → C s e) → R s (es₁.foldl ref a₀) := by
    intro es₁ s os hex
    refine exec_induction (J := fun es₁ s _ =>
      (∀ s e s' o, M.Takes s₀ es₁ s e s' o → C s e) → R s (es₁.foldl ref a₀))
      (fun _ => h₀) (fun es₁ s os e s' o hex ih hst hC => ?_) hex
    rw [List.foldl_append]
    exact hsim s _ e s' o (ih fun s e s' o ht => hC s e s' o ht.append_right) hst
      (hC s e s' o (takes_concat hex hst))
  constructor
  · intro hall
    have hC : ∀ es₁ es₂, es = es₁ ++ es₂ → ∀ s e s' o, M.Takes s₀ es₁ s e s' o → C s e := by
      intro es₁
      induction es₁ using List.reverseRecOn with
      | nil =>
        rintro es₂ - s e s' o ⟨p, q, os, hnil, -⟩
        simp at hnil
      | append_singleton es₁ e ih =>
        intro es₂ hes s f s' o ht
        have hbefore := ih ([e] ++ es₂) (by simp [hes])
        rcases ht.of_concat with hearlier | ⟨rfl, os, hex⟩
        · exact hbefore s f s' o hearlier
        · obtain ⟨-, -, -, -, -, hst⟩ := ht
          exact (hgood s _ f s' o (hrel _ s os hex hbefore) hst).1
            (hall _ f es₂ s os s' o (by simp [hes]) hex hst)
    exact hC es [] (by simp)
  · intro hC es₁ e es₂ s os s' o hes hex hst
    have hsteps : ∀ s e s' o, M.Takes s₀ es₁ s e s' o → C s e := fun s e s' o ht =>
      hC s e s' o (hes ▸ ht.append_right)
    exact (hgood s _ e s' o (hrel _ s os hex hsteps) hst).2
      (hC s e s' o ⟨es₁, es₂, os, hes, hex, hst⟩)

/-! ### Two machines side by side -/

section

variable {T : Type*} {N : Machine T E O}

/-- The two machines cannot handle an event, or both handle it with the same outputs and are related
again. -/
inductive InStep (R : S → T → Prop) : Option (S × List O) → Option (T × List O) → Prop
  | stop : InStep R none none
  | go {s' : S} {t' : T} {o : List O} (h : R s' t') : InStep R (some (s', o)) (some (t', o))

/-- **The rule of lockstep.**  Two machines that keep step put out the same in every run, and can
handle the same runs. -/
theorem exec_snd_eq {R : S → T → Prop} {s : S} {t : T}
    (hstep : ∀ s t e, R s t → InStep R (M.step s e) (N.step t e)) (h : R s t) (es : List E) :
    (M.exec s es).map Prod.snd = (N.exec t es).map Prod.snd := by
  induction es generalizing s t with
  | nil => rfl
  | cons e es ih =>
    have hst := hstep s t e h
    simp only [exec]
    generalize M.step s e = x at hst
    generalize N.step t e = y at hst
    cases hst with
    | stop => rfl
    | @go s' t' o h' =>
      have htail := ih h'
      simp only
      cases hM : M.exec s' es with
      | none =>
        rw [hM] at htail
        cases hN : N.exec t' es with
        | none => rfl
        | some q => simp [hN] at htail
      | some p =>
        rw [hM] at htail
        cases hN : N.exec t' es with
        | none => simp [hN] at htail
        | some q =>
          rw [hN] at htail
          have hos : p.2 = q.2 := Option.some.inj htail
          simp [hos]

end

end Machine

end V2nLte
