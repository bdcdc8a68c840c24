import Mathlib.Data.List.Basic

/-!
# Handlers that can throw

A message handler of a simulation module changes the state of the module, issues outputs and may
be left by an exception.  What it did before the exception stays done: the state is not rolled
back and the outputs are out.  `Handler S O α` is a piece of such a handler that returns a value
of type `α`.

`Handler.Triple P x Q E` is partial correctness with two postconditions, one for returning and
one for throwing; the assertions are about the state and all the outputs so far.  There is one
rule for each way of putting handlers together, so that a long handler is treated statement by
statement.  `Handler.Keeps J x` is the special case of an invariant.
-/

namespace V2nLte

/-- What a piece of a handler leaves behind. -/
structure Outcome (S O α : Type) where
  /-- The value it returned, `none` if it was left by an exception. -/
  value : Option α
  /-- The state after it. -/
  state : S
  /-- What it has put out. -/
  out : List O

/-- A piece of a handler with states `S`, outputs `O` and a value of type `α`. -/
def Handler (S O α : Type) := S → Outcome S O α

namespace Handler

variable {S O α β : Type}

instance : Monad (Handler S O) where
  pure a := fun s => ⟨some a, s, []⟩
  bind x f := fun s =>
    match (x s).value with
    | none => ⟨none, (x s).state, (x s).out⟩
    | some a =>
      let r := f a (x s).state
      ⟨r.value, r.state, (x s).out ++ r.out⟩

/-- Read the state. -/
def get : Handler S O S := fun s => ⟨some s, s, []⟩

/-- Change the state. -/
def modify (f : S → S) : Handler S O Unit := fun s => ⟨some (), f s, []⟩

/-- Put out `o`. -/
def emit (o : O) : Handler S O Unit := fun s => ⟨some (), s, [o]⟩

/-- Issue the call `o`, which answers or, on `none`, throws. -/
def call (o : O) (reply : Option α) : Handler S O α := fun s => ⟨reply, s, [o]⟩

/-- `try { x } catch (...) { y }`. -/
def orElse (x y : Handler S O α) : Handler S O α := fun s =>
  match (x s).value with
  | some a => ⟨some a, (x s).state, (x s).out⟩
  | none =>
    let r := y (x s).state
    ⟨r.value, r.state, (x s).out ++ r.out⟩

/-- Do `x` if `b` holds. -/
def when (b : Bool) (x : Handler S O Unit) : Handler S O Unit := if b then x else pure ()

/-- `throw`. -/
def fail : Handler S O α := fun s => ⟨none, s, []⟩

/-- A loop over a list. -/
def eachOf (f : β → Handler S O Unit) : List β → Handler S O Unit
  | [] => pure ()
  | b :: bs => do
    f b
    eachOf f bs

/-! ### Evaluation -/

variable {s : S} {o : O} {a : α}

@[simp] theorem pure_apply : (pure a : Handler S O α) s = ⟨some a, s, []⟩ := rfl

@[simp] theorem get_apply : (get : Handler S O S) s = ⟨some s, s, []⟩ := rfl

@[simp] theorem modify_apply {f : S → S} :
    (modify f : Handler S O Unit) s = ⟨some (), f s, []⟩ := rfl

@[simp] theorem emit_apply : (emit o : Handler S O Unit) s = ⟨some (), s, [o]⟩ := rfl

@[simp] theorem call_apply {reply : Option α} :
    (call o reply : Handler S O α) s = ⟨reply, s, [o]⟩ := rfl

theorem bind_apply {x : Handler S O α} {f : α → Handler S O β} :
    (x >>= f) s = match (x s).value with
      | none => ⟨none, (x s).state, (x s).out⟩
      | some a => ⟨(f a (x s).state).value, (f a (x s).state).state,
          (x s).out ++ (f a (x s).state).out⟩ := rfl

theorem get_bind_apply {f : S → Handler S O β} : (get >>= f) s = f s s := rfl

theorem orElse_apply {x y : Handler S O α} :
    orElse x y s = match (x s).value with
      | some a => ⟨some a, (x s).state, (x s).out⟩
      | none => ⟨(y (x s).state).value, (y (x s).state).state,
          (x s).out ++ (y (x s).state).out⟩ := rfl

theorem eachOf_map {γ : Type} (f : β → Handler S O Unit) (g : γ → β) (l : List γ) :
    eachOf f (l.map g) = eachOf (fun c => f (g c)) l := by
  induction l with
  | nil => rfl
  | cons c l ih => simp only [List.map_cons, eachOf, ih]

/-! ### Pre- and postconditions -/

/-- If `P` holds of the state and the outputs so far, then after `x` has returned `a` they
satisfy `Q a`, and after `x` has thrown they satisfy `E`. -/
def Triple (P : S → List O → Prop) (x : Handler S O α) (Q : α → S → List O → Prop)
    (E : S → List O → Prop) : Prop :=
  ∀ s os, P s os →
    match (x s).value with
    | some a => Q a (x s).state (os ++ (x s).out)
    | none => E (x s).state (os ++ (x s).out)

/-- `x` keeps `J`, whether it returns or throws. -/
abbrev Keeps (J : S → List O → Prop) (x : Handler S O α) : Prop := Triple J x (fun _ => J) J

variable {P P' E F : S → List O → Prop} {Q : α → S → List O → Prop}
  {Q' : β → S → List O → Prop} {x y : Handler S O α}

namespace Triple

theorem pure (h : ∀ s os, P s os → Q a s os) : Triple P (Pure.pure a) Q E := by
  intro s os hP
  simpa using h s os hP

theorem bind {f : α → Handler S O β} (hx : Triple P x Q E) (hf : ∀ a, Triple (Q a) (f a) Q' E) :
    Triple P (x >>= f) Q' E := by
  intro s os hP
  have hx := hx s os hP
  rw [bind_apply]
  cases hv : (x s).value with
  | none => simpa [hv] using hx
  | some a =>
    rw [hv] at hx
    simpa [List.append_assoc] using hf a _ _ hx

/-- What follows a `get` may use that the value read is the state. -/
theorem get_bind {f : S → Handler S O β}
    (hf : ∀ t, Triple (fun s os => s = t ∧ P s os) (f t) Q' E) : Triple P (get >>= f) Q' E := by
  intro s os hP
  simpa [bind_apply] using hf s s os ⟨rfl, hP⟩

theorem modify {g : S → S} {Q : Unit → S → List O → Prop} (h : ∀ s os, P s os → Q () (g s) os) :
    Triple P (Handler.modify g) Q E := by
  intro s os hP
  simpa using h s os hP

theorem emit {Q : Unit → S → List O → Prop} (h : ∀ s os, P s os → Q () s (os ++ [o])) :
    Triple P (Handler.emit o) Q E := h

theorem call {reply : Option α} (hQ : ∀ s os a, reply = some a → P s os → Q a s (os ++ [o]))
    (hE : ∀ s os, reply = none → P s os → E s (os ++ [o])) :
    Triple P (Handler.call o reply) Q E := by
  intro s os hP
  cases reply with
  | none => exact hE s os rfl hP
  | some a => exact hQ s os a rfl hP

theorem orElse (hx : Triple P x Q F) (hy : Triple F y Q E) :
    Triple P (Handler.orElse x y) Q E := by
  intro s os hP
  have hx := hx s os hP
  rw [orElse_apply]
  cases hv : (x s).value with
  | none =>
    rw [hv] at hx
    simpa [List.append_assoc] using hy _ _ hx
  | some a => simpa [hv] using hx

theorem ite {p : Prop} [Decidable p] (hx : p → Triple P x Q E) (hy : ¬ p → Triple P y Q E) :
    Triple P (if p then x else y) Q E := by
  split
  · exact hx ‹_›
  · exact hy ‹_›

theorem when {b : Bool} {x : Handler S O Unit} {Q : Unit → S → List O → Prop}
    (hx : b = true → Triple P x Q E) (h : ∀ s os, P s os → Q () s os) :
    Triple P (Handler.when b x) Q E :=
  ite hx fun _ => pure h

theorem pre (hP : ∀ s os, P' s os → P s os) (h : Triple P x Q E) : Triple P' x Q E :=
  fun s os hp => h s os (hP s os hp)

theorem post {Q R : α → S → List O → Prop} (hQ : ∀ a s os, Q a s os → R a s os)
    (h : Triple P x Q E) : Triple P x R E := by
  intro s os hP
  have hx := h s os hP
  cases hv : (x s).value with
  | none => simpa [hv] using hx
  | some a =>
    rw [hv] at hx
    exact hQ a _ _ hx

theorem fail (h : ∀ s os, P s os → E s os) : Triple P (Handler.fail : Handler S O α) Q E := by
  intro s os hP
  simpa [Handler.fail] using h s os hP

/-- What the precondition says of other things may be used. -/
theorem given {R : Prop} (hR : ∀ s os, P s os → R) (h : R → Triple P x Q E) : Triple P x Q E :=
  fun s os hP => h (hR s os hP) s os hP

/-- What does not depend on the state or the outputs. -/
theorem frame {R : Prop} (h : Triple P x Q E) :
    Triple (fun s os => P s os ∧ R) x (fun a s os => Q a s os ∧ R) E := by
  rintro s os ⟨hP, hR⟩
  have hx := h s os hP
  cases hv : (x s).value with
  | none => simpa [hv] using hx
  | some a =>
    rw [hv] at hx
    exact ⟨hx, hR⟩

theorem throws (hE : ∀ s os, F s os → E s os) (h : Triple P x Q F) : Triple P x Q E := by
  intro s os hP
  have hx := h s os hP
  cases hv : (x s).value with
  | none =>
    rw [hv] at hx
    exact hE _ _ hx
  | some a => simpa [hv] using hx

/-- What is known of the result of running `x`. -/
theorem of_returns (h : ∀ s os, P s os →
    ∃ a, (x s).value = some a ∧ Q a (x s).state (os ++ (x s).out)) : Triple P x Q E := by
  intro s os hP
  obtain ⟨a, hvalue, hQ⟩ := h s os hP
  rw [hvalue]
  exact hQ

theorem eachOf_nil {f : β → Handler S O Unit} : Triple P (Handler.eachOf f []) (fun _ => P) E :=
  Triple.pure fun _ _ hP => hP

/-- The first round of a loop, and the others. -/
theorem eachOf_cons {f : β → Handler S O Unit} {b : β} {bs : List β} {Q : Unit → S → List O → Prop}
    (R : S → List O → Prop) (h : Triple P (f b) (fun _ => R) E)
    (hrest : Triple R (Handler.eachOf f bs) Q E) : Triple P (Handler.eachOf f (b :: bs)) Q E :=
  Triple.bind h fun _ => hrest

/-- **The rule for a loop**, with an invariant that depends on the elements that are done. -/
theorem eachOf {I : List β → S → List O → Prop} {f : β → Handler S O Unit} {l : List β}
    (h : ∀ l₁ b l₂, l = l₁ ++ b :: l₂ → Triple (I l₁) (f b) (fun _ => I (l₁ ++ [b])) E) :
    Triple (I []) (Handler.eachOf f l) (fun _ => I l) E := by
  have hrest : ∀ l₁ l₂, l = l₁ ++ l₂ → Triple (I l₁) (Handler.eachOf f l₂) (fun _ => I l) E := by
    intro l₁ l₂
    induction l₂ generalizing l₁ with
    | nil =>
      intro hl
      rw [List.append_nil] at hl
      exact Triple.pure fun s os hI => hl ▸ hI
    | cons b l₂ ih =>
      intro hl
      exact Triple.bind (h l₁ b l₂ hl) fun _ => ih (l₁ ++ [b]) (by simp [hl])
  exact hrest [] l rfl

/-- A postcondition for both ways out holds after every execution. -/
theorem apply {Q : S → List O → Prop} (h : Triple P x (fun _ => Q) Q) {l : List O}
    (hP : P s l) : Q (x s).state (l ++ (x s).out) := by
  have := h s l hP
  cases hv : (x s).value with
  | none => simpa [hv] using this
  | some a => simpa [hv] using this

end Triple

end Handler

end V2nLte
