import V2nLte.Machine.Basic
import V2nLte.Machine.Word
import V2nLte.Mac.HarqBufferTx

/-!
# The counters of the sender's H-ARQ buffer

A process counts its empty and its selected units, and the buffer counts its empty processes in
`numEmptyProc_`.  All the operations adjust these counters, and some of them without a look at the
units: `insertPdu` takes one from `numEmptyProc_` for each codeword of a process, and the drops add
one for what was empty before.

`selfNack` asks for a unit that is BUFFERED and hands it to `pduFeedback`, which asks for one that
is WAITING.  So it is never accepted, unless there is nothing to do.

* `CountedBufferTx.counters_iff` : in a run of operations that find the units as they expect them,
  the counters are truthful, and they stay so iff the next operation does, too; and `selfNack` acts
  like a NACK iff no unit is BUFFERED.
* `CountedBufferTx.two_codewords` : two PDUs in one process are counted as two processes.
-/

namespace V2nLte

namespace LteHarqUnitTx

variable (u : LteHarqUnitTx)

/-- `selfNack`, and whether the unit has become empty. -/
def selfNack (maxHarqRtx : ℕ) : Except HarqError (LteHarqUnitTx × Bool) :=
  if u.status = .WAITING then .error .selfNackWaiting
  else if u.status ≠ .BUFFERED then .error .selfNackIdle
  else { u with transmissions := u8 (u.transmissions + 1) }.pduFeedback maxHarqRtx false

/-- `dropPdu`. -/
def dropPdu : Except HarqError LteHarqUnitTx :=
  if u.status ≠ .BUFFERED then .error .dropNotBuffered else .ok {}

end LteHarqUnitTx

namespace LteHarqProcessTx

variable (p : LteHarqProcessTx)

/-- The codewords of the units to be sent again. -/
def readyUnitsIds : List ℕ := (List.range MAX_CODEWORDS).filter fun cw => (p.units cw).isReady

/-- `selfNack`, and whether the process has become empty. -/
def selfNack (maxHarqRtx cw : ℕ) : Except HarqError (LteHarqProcessTx × Bool) :=
  if MAX_CODEWORDS ≤ cw then .error .outOfRange
  else do
    let (u, reset) ← (p.units cw).selfNack maxHarqRtx
    let p' := { p.setUnit cw u with
      numEmptyUnits := if reset then u8 (p.numEmptyUnits + 1) else p.numEmptyUnits }
    return (p', p'.isEmpty)

/-- `dropPdu`. -/
def dropPdu (cw : ℕ) : Except HarqError LteHarqProcessTx :=
  if MAX_CODEWORDS ≤ cw then .error .outOfRange
  else do
    let u ← (p.units cw).dropPdu
    return { p.setUnit cw u with numEmptyUnits := u8 (p.numEmptyUnits + 1) }

/-- `forceDropProcess`, apart from `dropped_`. -/
def forceDropProcess : LteHarqProcessTx :=
  { p with
    units := fun cw => if cw < MAX_CODEWORDS then {} else p.units cw
    numEmptyUnits := MAX_CODEWORDS
    numSelected := 0 }

/-- `forceDropUnit`, and whether the process has become empty. -/
def forceDropUnit (cw : ℕ) : Except HarqError (LteHarqProcessTx × Bool) :=
  if MAX_CODEWORDS ≤ cw then .error .outOfRange
  else
    let p' := { p.setUnit cw {} with
      numSelected := if (p.units cw).isMarked then sub32 p.numSelected 1 else p.numSelected
      numEmptyUnits := u8 (p.numEmptyUnits + 1) }
    .ok (p', p'.isEmpty)

end LteHarqProcessTx

/-- `LteHarqBufferTx` with the number of its empty processes and their `dropped_` flags. -/
structure CountedBufferTx extends LteHarqBufferTx where
  /-- The number of empty processes. -/
  numEmptyProc : ℕ
  /-- The `dropped_` flag of each process. -/
  dropped : ℕ → Bool := fun _ => false

namespace CountedBufferTx

variable (b : CountedBufferTx)

/-- The constructor. -/
def new (numProc : ℕ) : CountedBufferTx := { numProc := numProc, numEmptyProc := numProc }

/-- Replace a process, and add to the number of empty processes if `reset`. -/
def setProcess (acid : ℕ) (p : LteHarqProcessTx) (reset : Bool) : CountedBufferTx :=
  { b with
    toLteHarqBufferTx := b.toLteHarqBufferTx.setProcess acid p
    numEmptyProc := if reset then u32 (b.numEmptyProc + 1) else b.numEmptyProc }

/-- No process is selected any more if it was `acid`. -/
def deselect (acid : ℕ) : CountedBufferTx :=
  { b with selectedAcid := if acid = b.selectedAcid then HARQ_NONE else b.selectedAcid }

/-- `insertPdu`. -/
def insertPdu (acid cw : ℕ) (pdu : MacPdu) : Except HarqError CountedBufferTx := do
  let tx ← b.toLteHarqBufferTx.insertPdu acid cw pdu
  return { b with
    toLteHarqBufferTx := tx
    numEmptyProc := sub32 b.numEmptyProc 1
    dropped := Function.update b.dropped acid false }

/-- `markSelected`. -/
def markSelected (acid availableTbs : ℕ) : List ℕ → Except HarqError CountedBufferTx
  | [] => .ok b
  | base :: guests =>
    if availableTbs = 0 then .ok b
    else do
      let p ←
        if availableTbs < (base :: guests).length then do
          -- the contents of the other PDUs are moved into that of the first codeword
          let p ← guests.foldlM (fun p cw => p.dropPdu cw) (b.processes acid)
          p.markSelected base
        else (base :: guests).foldlM (fun p cw => p.markSelected cw) (b.processes acid)
      return { b.setProcess acid p false with selectedAcid := acid }

/-- `sendSelectedDown`, with the PDUs that are sent. -/
def sendSelectedDown : Except HarqError (CountedBufferTx × List (Option ℕ)) := do
  let (tx, sent) ← b.toLteHarqBufferTx.sendSelectedDown
  return ({ b with toLteHarqBufferTx := tx }, sent)

/-- `receiveHarqFeedback`. -/
def receiveHarqFeedback (maxHarqRtx acid cw fbPduId : ℕ) (ack : Bool) :
    Except HarqError CountedBufferTx :=
  if b.dropped acid then .ok b
  else if some fbPduId ≠ ((b.processes acid).units cw).pduId then .error .otherPdu
  else do
    let p ← (b.processes acid).pduFeedback maxHarqRtx ack cw
    return b.setProcess acid p p.isEmpty

/-- `selfNack`, of all the units that are ready. -/
def selfNack (maxHarqRtx acid : ℕ) (_cw : ℕ) : Except HarqError CountedBufferTx := do
  let (p, reset) ← (b.processes acid).readyUnitsIds.foldlM
    (fun (p, _) cw => p.selfNack maxHarqRtx cw) (b.processes acid, false)
  return b.setProcess acid p reset

/-- `dropProcess`. -/
def dropProcess (acid : ℕ) : Except HarqError CountedBufferTx := do
  let p ← (b.processes acid).readyUnitsIds.foldlM (fun p cw => p.dropPdu cw) (b.processes acid)
  return b.setProcess acid p true

/-- `forceDropProcess`. -/
def forceDropProcess (acid : ℕ) : CountedBufferTx :=
  { (b.setProcess acid (b.processes acid).forceDropProcess true).deselect acid with
    dropped := Function.update b.dropped acid true }

/-- `forceDropUnit`. -/
def forceDropUnit (acid cw : ℕ) : Except HarqError CountedBufferTx := do
  let (p, reset) ← (b.processes acid).forceDropUnit cw
  let b' := b.setProcess acid p reset
  return if reset then b'.deselect acid else b'

/-- An operation of the buffer. -/
inductive Op where
  | insertPdu (acid cw : ℕ) (pdu : MacPdu)
  | markSelected (acid : ℕ) (cws : List ℕ) (availableTbs : ℕ)
  | sendSelectedDown
  | receiveHarqFeedback (acid cw fbPduId : ℕ) (ack : Bool)
  | selfNack (acid cw : ℕ)
  | dropProcess (acid : ℕ)
  | forceDropProcess (acid : ℕ)
  | forceDropUnit (acid cw : ℕ)

/-- The process that is named. -/
def Op.acid? : Op → Option ℕ
  | .insertPdu acid _ _ | .markSelected acid _ _ | .receiveHarqFeedback acid _ _ _
  | .selfNack acid _ | .dropProcess acid | .forceDropProcess acid | .forceDropUnit acid _ =>
    some acid
  | .sendSelectedDown => none

/-- What an operation does, with the PDUs that are sent. -/
def apply (maxHarqRtx : ℕ) : Op → Except HarqError (CountedBufferTx × List (Option ℕ))
  | .insertPdu acid cw pdu => (·, []) <$> b.insertPdu acid cw pdu
  | .markSelected acid cws availableTbs => (·, []) <$> b.markSelected acid availableTbs cws
  | .sendSelectedDown => b.sendSelectedDown
  | .receiveHarqFeedback acid cw fbPduId ack =>
    (·, []) <$> b.receiveHarqFeedback maxHarqRtx acid cw fbPduId ack
  | .selfNack acid cw => (·, []) <$> b.selfNack maxHarqRtx acid cw
  | .dropProcess acid => (·, []) <$> b.dropProcess acid
  | .forceDropProcess acid => .ok (b.forceDropProcess acid, [])
  | .forceDropUnit acid cw => (·, []) <$> b.forceDropUnit acid cw

/-- The buffer as a machine; an exception, or a process that does not exist, ends the run. -/
def machine (maxHarqRtx : ℕ) : Machine CountedBufferTx Op (Option ℕ) where
  step b op :=
    if ∀ acid ∈ op.acid?, acid < b.numProc then (b.apply maxHarqRtx op).toOption else none

end CountedBufferTx

/-! ### Counting

Each counter is the length of a `filter` of a `range`, and each operation replaces one element. -/

namespace LteHarqProcessTx

variable {p p' : LteHarqProcessTx} {u : LteHarqUnitTx} {pdu : MacPdu} {cw maxHarqRtx : ℕ}
  {ack : Bool}

/-- The counters of the units tell the truth. -/
structure Truthful (p : LteHarqProcessTx) : Prop where
  /-- `numEmptyUnits_` counts the empty units. -/
  empty : p.numEmptyUnits = p.emptyUnitsIds.length
  /-- `numSelected_` counts the selected units. -/
  selected : p.numSelected = p.selectedUnitsIds.length

instance : Decidable p.Truthful :=
  decidable_of_iff (p.numEmptyUnits = p.emptyUnitsIds.length ∧
    p.numSelected = p.selectedUnitsIds.length) ⟨fun h => ⟨h.1, h.2⟩, fun h => ⟨h.empty, h.selected⟩⟩

/-- All the units are empty. -/
def AllEmpty (p : LteHarqProcessTx) : Prop := ∀ cw < MAX_CODEWORDS, (p.units cw).isEmpty = true

instance : Decidable p.AllEmpty := by
  unfold AllEmpty
  infer_instance

theorem Truthful.isEmpty_iff (h : p.Truthful) : p.isEmpty = true ↔ p.AllEmpty :=
  Counted.isEmpty_iff h.empty

theorem not_allEmpty (hcw : cw < MAX_CODEWORDS) (hu : (p.units cw).isEmpty = false) :
    ¬p.AllEmpty := by
  intro h
  rw [h cw hcw] at hu
  cases hu

theorem Truthful.empty_le (h : p.Truthful) : p.numEmptyUnits ≤ 2 := by
  rw [h.empty]
  exact (List.length_filter_le _ _).trans_eq List.length_range

theorem Truthful.selected_le (h : p.Truthful) : p.numSelected ≤ 2 := by
  rw [h.selected]
  exact (List.length_filter_le _ _).trans_eq List.length_range

/-- **Replacing a unit** keeps the counters truthful iff they follow. -/
theorem Truthful.setUnit_iff (h : p.Truthful) (hcw : cw < MAX_CODEWORDS) (numEmpty numSel : ℕ) :
    ({ p.setUnit cw u with numEmptyUnits := numEmpty, numSelected := numSel } :
        LteHarqProcessTx).Truthful ↔
      numEmpty + (if (p.units cw).isEmpty then 1 else 0) =
          p.numEmptyUnits + (if u.isEmpty then 1 else 0) ∧
        numSel + (if (p.units cw).isMarked then 1 else 0) =
          p.numSelected + (if u.isMarked then 1 else 0) := by
  have hempty := length_filter_range_update LteHarqUnitTx.isEmpty p.units u hcw
  have hsel := length_filter_range_update LteHarqUnitTx.isMarked p.units u hcw
  rw [h.empty, h.selected, emptyUnitsIds, selectedUnitsIds, ← hempty, ← hsel]
  constructor
  · rintro ⟨h₁, h₂⟩
    exact ⟨congrArg (· + _) h₁, congrArg (· + _) h₂⟩
  · rintro ⟨h₁, h₂⟩
    exact ⟨Nat.add_right_cancel h₁, Nat.add_right_cancel h₂⟩

/-- A unit that is not empty is replaced by one that is not, either. -/
theorem Truthful.setUnit_busy (h : p.Truthful) (hcw : cw < MAX_CODEWORDS) {numSel : ℕ}
    (hold : (p.units cw).isEmpty = false) (hu : u.isEmpty = false)
    (hsel : numSel + (if (p.units cw).isMarked then 1 else 0) =
      p.numSelected + if u.isMarked then 1 else 0) :
    ({ p.setUnit cw u with numSelected := numSel } : LteHarqProcessTx).Truthful ∧
      ¬p.AllEmpty ∧
      ¬({ p.setUnit cw u with numSelected := numSel } : LteHarqProcessTx).AllEmpty := by
  refine ⟨(h.setUnit_iff hcw p.numEmptyUnits _).2 ⟨?_, hsel⟩,
    not_allEmpty hcw hold, not_allEmpty hcw ?_⟩
  · rw [hold, hu]
  · show (Function.update p.units cw u cw).isEmpty = false
    rw [Function.update_self]
    exact hu

theorem Truthful.insertPdu (h : p.Truthful) (hp' : p.insertPdu cw pdu = .ok p') :
    p'.Truthful ∧ ¬p'.AllEmpty := by
  rw [LteHarqProcessTx.insertPdu] at hp'
  split at hp' <;> rename_i hcw
  · cases hp'
  obtain ⟨u, hu, hp'⟩ := bind_eq_ok.1 hp'
  cases hp'
  have hcw := Nat.lt_of_not_le hcw
  rw [LteHarqUnitTx.insertPdu] at hu
  split_ifs at hu with hempty
  cases hu
  have hstatus := of_decide_eq_true hempty
  have hpos : 0 < p.numEmptyUnits := by
    rw [h.empty]
    exact List.length_pos_of_mem (List.mem_filter.2 ⟨List.mem_range.2 hcw, hempty⟩)
  refine ⟨(h.setUnit_iff hcw _ _).2 ⟨?_, ?_⟩, not_allEmpty hcw ?_⟩
  · simp only [LteHarqUnitTx.isEmpty, hstatus, decide_true, if_true]
    exact Nat.sub_add_cancel hpos
  · simp [LteHarqUnitTx.isMarked, hstatus]
  · simp [setUnit, LteHarqUnitTx.isEmpty]

theorem Truthful.markSelected (h : p.Truthful) (hp' : p.markSelected cw = .ok p') :
    p'.Truthful ∧ ¬p.AllEmpty ∧ ¬p'.AllEmpty := by
  rw [LteHarqProcessTx.markSelected] at hp'
  split_ifs at hp' with hall hcw
  obtain ⟨u, hu, hp'⟩ := bind_eq_ok.1 hp'
  cases hp'
  rw [LteHarqUnitTx.markSelected] at hu
  split_ifs at hu with hready
  cases hu
  have hstatus := of_decide_eq_true hready
  refine h.setUnit_busy (Nat.lt_of_not_le hcw) ?_ ?_ ?_ <;>
    simp [LteHarqUnitTx.isEmpty, LteHarqUnitTx.isMarked, hstatus]

theorem Truthful.extractPdu (h : p.Truthful) (hp' : p.extractPdu cw = .ok p') :
    p'.Truthful ∧ ¬p.AllEmpty ∧ ¬p'.AllEmpty := by
  rw [LteHarqProcessTx.extractPdu] at hp'
  split_ifs at hp' with hnone hcw
  obtain ⟨u, hu, hp'⟩ := bind_eq_ok.1 hp'
  cases hp'
  rw [LteHarqUnitTx.extractPdu] at hu
  split_ifs at hu with hselected
  cases hu
  have hstatus := not_not.1 hselected
  refine h.setUnit_busy (Nat.lt_of_not_le hcw) ?_ ?_ ?_
  · simp [LteHarqUnitTx.isEmpty, hstatus]
  · simp [LteHarqUnitTx.isEmpty]
  · simp only [LteHarqUnitTx.isMarked, hstatus, decide_true, if_true]
    have hpos := Nat.pos_of_ne_zero hnone
    simp only [reduceCtorEq, decide_false, Bool.false_eq_true, if_false]
    omega

theorem Truthful.pduFeedback (h : p.Truthful)
    (hp' : p.pduFeedback maxHarqRtx ack cw = .ok p') : p'.Truthful ∧ ¬p.AllEmpty := by
  rw [LteHarqProcessTx.pduFeedback] at hp'
  split_ifs at hp' with hcw
  obtain ⟨⟨u, reset⟩, hu, hp'⟩ := bind_eq_ok.1 hp'
  cases hp'
  have hcw := Nat.lt_of_not_le hcw
  rw [LteHarqUnitTx.pduFeedback] at hu
  split_ifs at hu with hwaiting hack
  all_goals
    cases hu
    have hstatus := not_not.1 hwaiting
    refine ⟨(h.setUnit_iff hcw _ _).2 ⟨?_, ?_⟩, not_allEmpty hcw ?_⟩ <;>
      simp [LteHarqProcessTx.setUnit, LteHarqUnitTx.isEmpty, LteHarqUnitTx.isMarked, hstatus]

/-- A unit is reset, and the number of empty units goes up by one: that is right iff it was busy. -/
theorem Truthful.resetUnit_iff (h : p.Truthful) (hcw : cw < MAX_CODEWORDS) {numSel : ℕ}
    (hsel : numSel + (if (p.units cw).isMarked then 1 else 0) = p.numSelected) :
    ({ p.setUnit cw {} with
        numSelected := numSel, numEmptyUnits := u8 (p.numEmptyUnits + 1) } :
        LteHarqProcessTx).Truthful ↔ (p.units cw).isEmpty = false := by
  have hle := h.empty_le
  have hfresh : (if ({} : LteHarqUnitTx).isMarked then 1 else 0) = 0 := rfl
  rw [h.setUnit_iff hcw, u8_of_lt (by omega), hsel, hfresh]
  cases (p.units cw).isEmpty <;> simp [LteHarqUnitTx.isEmpty]

theorem Truthful.dropPdu (h : p.Truthful) (hp' : p.dropPdu cw = .ok p') :
    p'.Truthful ∧ ¬p.AllEmpty := by
  rw [LteHarqProcessTx.dropPdu] at hp'
  split_ifs at hp' with hcw
  obtain ⟨u, hu, hp'⟩ := bind_eq_ok.1 hp'
  cases hp'
  rw [LteHarqUnitTx.dropPdu] at hu
  split_ifs at hu with hready
  cases hu
  have hcw := Nat.lt_of_not_le hcw
  have hstatus := not_not.1 hready
  have hbusy : (p.units cw).isEmpty = false := by simp [LteHarqUnitTx.isEmpty, hstatus]
  refine ⟨(h.resetUnit_iff hcw ?_).2 hbusy, not_allEmpty hcw hbusy⟩
  simp [LteHarqUnitTx.isMarked, hstatus]
  rfl

theorem Truthful.forceDropUnit_iff (h : p.Truthful) {reset : Bool}
    (hp' : p.forceDropUnit cw = .ok (p', reset)) :
    cw < MAX_CODEWORDS ∧ reset = p'.isEmpty ∧
      (p'.Truthful ↔ (p.units cw).isEmpty = false) := by
  rw [LteHarqProcessTx.forceDropUnit] at hp'
  split_ifs at hp' with hcw
  all_goals
    have hcw := Nat.lt_of_not_le hcw
    cases hp'
    refine ⟨hcw, rfl, h.resetUnit_iff hcw ?_⟩
  · rename_i hmarked
    have hpos : 0 < p.numSelected := by
      rw [h.selected]
      exact List.length_pos_of_mem (List.mem_filter.2 ⟨List.mem_range.2 hcw, hmarked⟩)
    have hle := h.selected_le
    rw [if_pos hmarked, sub32_of_le hpos (by omega)]
    exact Nat.sub_add_cancel hpos
  · rename_i hmarked
    rw [if_neg hmarked]
    rfl

theorem allEmpty_forceDropProcess : p.forceDropProcess.AllEmpty := by
  intro cw hcw
  show (if cw < MAX_CODEWORDS then ({} : LteHarqUnitTx) else p.units cw).isEmpty = true
  rw [if_pos hcw]
  rfl

theorem truthful_forceDropProcess : p.forceDropProcess.Truthful := ⟨rfl, rfl⟩

/-! ### The loops over the codewords -/

/-- A loop of steps that neither fill nor empty a process. -/
theorem Truthful.foldlM {step : LteHarqProcessTx → ℕ → Except HarqError LteHarqProcessTx}
    (hstep : ∀ {p p' : LteHarqProcessTx} {cw : ℕ}, p.Truthful → step p cw = .ok p' →
      p'.Truthful ∧ ¬p.AllEmpty ∧ ¬p'.AllEmpty)
    (h : p.Truthful) {cws : List ℕ} (hp' : cws.foldlM step p = .ok p') :
    p'.Truthful ∧ (p.AllEmpty ↔ p'.AllEmpty) := by
  have hloop : Ensures (fun _ => True)
      (fun q : LteHarqProcessTx => q.Truthful ∧ (p.AllEmpty ↔ q.AllEmpty)) (cws.foldlM step p) := by
    refine Ensures.foldlM ⟨h, Iff.rfl⟩ fun q cw hq => ?_
    cases hq' : step q cw with
    | error e => trivial
    | ok q' =>
      obtain ⟨htrue, hbusy, hbusy'⟩ := hstep hq.1 hq'
      exact ⟨htrue, hq.2.trans (iff_of_false hbusy hbusy')⟩
  rw [hp'] at hloop
  exact hloop

theorem dropPdu_units (hp' : p.dropPdu cw = .ok p') :
    p'.units = Function.update p.units cw {} := by
  rw [LteHarqProcessTx.dropPdu] at hp'
  split_ifs at hp' with hcw
  obtain ⟨u, hu, hp'⟩ := bind_eq_ok.1 hp'
  cases hp'
  rw [LteHarqUnitTx.dropPdu] at hu
  split_ifs at hu
  cases hu
  rfl

/-- The loop that drops the PDUs of some codewords. -/
theorem Truthful.foldlM_dropPdu (h : p.Truthful) {cws : List ℕ}
    (hp' : cws.foldlM (fun p cw => p.dropPdu cw) p = .ok p') :
    p'.Truthful ∧ (p.AllEmpty → p'.AllEmpty) ∧
      ∀ cw, p'.units cw = if cw ∈ cws then {} else p.units cw := by
  induction cws generalizing p with
  | nil =>
    cases hp'
    exact ⟨h, id, fun cw => rfl⟩
  | cons cw₀ cws ih =>
    rw [List.foldlM_cons] at hp'
    obtain ⟨p₁, hp₁, hp'⟩ := bind_eq_ok.1 hp'
    obtain ⟨h₁, hbusy⟩ := h.dropPdu hp₁
    obtain ⟨h', -, hunits⟩ := ih h₁ hp'
    refine ⟨h', fun hall => (hbusy hall).elim, fun cw => ?_⟩
    rw [hunits, dropPdu_units hp₁]
    by_cases hcw : cw = cw₀
    · subst hcw
      rw [Function.update_self, if_pos List.mem_cons_self, ite_self]
    · simp only [List.mem_cons, hcw, false_or, Function.update_of_ne hcw]

/-- `dropProcess` empties a process iff its units are all empty or ready. -/
theorem Truthful.dropReady (h : p.Truthful)
    (hp' : p.readyUnitsIds.foldlM (fun p cw => p.dropPdu cw) p = .ok p') :
    p'.Truthful ∧ (p'.AllEmpty ↔
      ∀ cw < MAX_CODEWORDS, (p.units cw).isEmpty = true ∨ (p.units cw).isReady = true) := by
  obtain ⟨h', -, hunits⟩ := h.foldlM_dropPdu hp'
  refine ⟨h', forall₂_congr fun cw hcw => ?_⟩
  have hmem : cw ∈ p.readyUnitsIds ↔ (p.units cw).isReady = true := by
    simp [readyUnitsIds, hcw]
  rw [hunits, or_comm]
  by_cases hready : (p.units cw).isReady = true
  · rw [if_pos (hmem.2 hready)]
    exact iff_of_true rfl (.inl hready)
  · rw [if_neg (mt hmem.1 hready), or_iff_right hready]

/-- A NACK that the sender makes up for a unit that is ready is refused. -/
theorem selfNack_of_ready (hcw : cw < MAX_CODEWORDS) (hready : (p.units cw).isReady = true) :
    p.selfNack maxHarqRtx cw = .error .notWaiting := by
  have hstatus := of_decide_eq_true hready
  have hunit : (p.units cw).selfNack maxHarqRtx = .error .notWaiting := by
    simp [LteHarqUnitTx.selfNack, LteHarqUnitTx.pduFeedback, hstatus]
  rw [selfNack, if_neg (Nat.not_le.2 hcw), hunit]
  rfl

end LteHarqProcessTx

namespace CountedBufferTx

variable {b b' : CountedBufferTx} {p : LteHarqProcessTx} {pdu : MacPdu} {cws : List ℕ}
  {acid cw availableTbs maxHarqRtx fbPduId : ℕ} {ack : Bool}

/-- The processes all of whose units are empty. -/
def emptyAcids (b : CountedBufferTx) : List ℕ :=
  (List.range b.numProc).filter fun acid => decide (b.processes acid).AllEmpty

/-- All the counters tell the truth. -/
structure Truthful (b : CountedBufferTx) : Prop where
  process : ∀ acid < b.numProc, (b.processes acid).Truthful
  emptyProc : b.numEmptyProc = b.emptyAcids.length

instance : Decidable b.Truthful :=
  decidable_of_iff ((∀ acid < b.numProc, (b.processes acid).Truthful) ∧
    b.numEmptyProc = b.emptyAcids.length) ⟨fun h => ⟨h.1, h.2⟩, fun h => ⟨h.process, h.emptyProc⟩⟩

theorem truthful_new (numProc : ℕ) : (new numProc).Truthful := by
  refine ⟨fun acid _ => ⟨rfl, rfl⟩, ?_⟩
  have hall : (new numProc).emptyAcids = List.range numProc :=
    List.filter_eq_self.2 fun acid _ => decide_eq_true fun cw _ => rfl
  rw [hall, List.length_range]
  rfl

theorem Truthful.emptyProc_le (h : b.Truthful) : b.numEmptyProc ≤ b.numProc := by
  rw [h.emptyProc]
  exact (List.length_filter_le _ _).trans_eq List.length_range

/-- **Replacing a process** keeps the counters truthful iff they follow. -/
theorem Truthful.put_iff (h : b.Truthful) (hacid : acid < b.numProc) {selected numEmpty : ℕ}
    {dropped : ℕ → Bool} :
    Truthful {
        toLteHarqBufferTx :=
          { b.toLteHarqBufferTx.setProcess acid p with selectedAcid := selected }
        numEmptyProc := numEmpty
        dropped := dropped } ↔
      p.Truthful ∧ numEmpty + (if (b.processes acid).AllEmpty then 1 else 0) =
        b.numEmptyProc + if p.AllEmpty then 1 else 0 := by
  have hcount := length_filter_range_update (fun p : LteHarqProcessTx => decide p.AllEmpty)
    b.processes p hacid
  simp only [decide_eq_true_eq] at hcount
  rw [h.emptyProc, emptyAcids, ← hcount]
  constructor
  · intro h'
    have hp := h'.process acid hacid
    dsimp only [LteHarqBufferTx.setProcess] at hp
    rw [Function.update_self] at hp
    exact ⟨hp, congrArg (· + _) h'.emptyProc⟩
  · rintro ⟨hp, hn⟩
    refine ⟨fun a ha => ?_, Nat.add_right_cancel hn⟩
    dsimp only [LteHarqBufferTx.setProcess]
    by_cases haa : a = acid
    · rw [haa, Function.update_self]
      exact hp
    · rw [Function.update_of_ne haa]
      exact h.process a ha

/-- A process is replaced by one that is as empty as it was. -/
theorem Truthful.put_same (h : b.Truthful) (hacid : acid < b.numProc) {selected : ℕ}
    {dropped : ℕ → Bool} (hp : p.Truthful) (hsame : (b.processes acid).AllEmpty ↔ p.AllEmpty) :
    Truthful {
      toLteHarqBufferTx :=
        { b.toLteHarqBufferTx.setProcess acid p with selectedAcid := selected }
      numEmptyProc := b.numEmptyProc
      dropped := dropped } :=
  (h.put_iff hacid).2 ⟨hp, by simp only [hsame]⟩

theorem Truthful.emptyProc_lt (h : b.Truthful) (hacid : acid < b.numProc)
    (hbusy : ¬(b.processes acid).AllEmpty) : b.numEmptyProc < b.numProc := by
  rw [h.emptyProc, emptyAcids]
  refine Nat.lt_of_lt_of_eq (List.length_filter_lt_length_iff_exists.2
    ⟨acid, List.mem_range.2 hacid, ?_⟩) List.length_range
  simpa using hbusy

/-- A process that was not empty is replaced, and counted as empty if it is. -/
theorem Truthful.put_reset (h : b.Truthful) (hnum : b.numProc < 4294967296)
    (hacid : acid < b.numProc) {selected : ℕ} {dropped : ℕ → Bool} (hp : p.Truthful)
    (hbusy : ¬(b.processes acid).AllEmpty) :
    Truthful {
      toLteHarqBufferTx :=
        { b.toLteHarqBufferTx.setProcess acid p with selectedAcid := selected }
      numEmptyProc := if p.isEmpty then u32 (b.numEmptyProc + 1) else b.numEmptyProc
      dropped := dropped } := by
  refine (h.put_iff hacid).2 ⟨hp, ?_⟩
  have hlt := h.emptyProc_lt hacid hbusy
  rw [if_neg hbusy]
  simp only [hp.isEmpty_iff]
  split_ifs
  · rw [u32_of_lt (by omega)]
  · rfl

/-- A process is replaced and counted as empty: that is right iff it has become so. -/
theorem Truthful.put_emptied_iff (h : b.Truthful) (hnum : b.numProc < 4294967296)
    (hacid : acid < b.numProc) {selected : ℕ} {dropped : ℕ → Bool} (hp : p.Truthful) :
    Truthful {
        toLteHarqBufferTx :=
          { b.toLteHarqBufferTx.setProcess acid p with selectedAcid := selected }
        numEmptyProc := u32 (b.numEmptyProc + 1)
        dropped := dropped } ↔ p.AllEmpty ∧ ¬(b.processes acid).AllEmpty := by
  have hle := h.emptyProc_le
  rw [h.put_iff hacid, and_iff_right hp]
  unfold u32
  by_cases hold : (b.processes acid).AllEmpty
  · rw [if_pos hold, iff_false_right fun h => h.2 hold]
    split_ifs <;> omega
  · have hlt := h.emptyProc_lt hacid hold
    rw [if_neg hold, and_iff_left hold]
    split_ifs with hnew
    · exact iff_of_true (by omega) hnew
    · exact iff_of_false (by omega) hnew

theorem Truthful.insertPdu_iff (h : b.Truthful) (hnum : b.numProc < 4294967296)
    (hacid : acid < b.numProc) (hb' : b.insertPdu acid cw pdu = .ok b') :
    b'.numProc = b.numProc ∧ (b'.Truthful ↔ (b.processes acid).AllEmpty) := by
  obtain ⟨tx, htx, hb'⟩ := bind_eq_ok.1 hb'
  cases hb'
  rw [LteHarqBufferTx.insertPdu] at htx
  split_ifs at htx
  obtain ⟨p, hp, htx⟩ := bind_eq_ok.1 htx
  cases htx
  obtain ⟨hp', hbusy⟩ := (h.process acid hacid).insertPdu hp
  refine ⟨rfl, (h.put_iff hacid).trans ?_⟩
  have hle := h.emptyProc_le
  rw [and_iff_right hp', if_neg hbusy]
  unfold sub32 u32
  by_cases hold : (b.processes acid).AllEmpty
  · -- there is an empty process to be taken from the number
    have hpos : 0 < b.numEmptyProc := by
      rw [h.emptyProc]
      exact List.length_pos_of_mem
        (List.mem_filter.2 ⟨List.mem_range.2 hacid, decide_eq_true hold⟩)
    simp only [hold, if_true, iff_true]
    omega
  · simp only [hold, if_false, iff_false]
    omega

theorem Truthful.markSelected (h : b.Truthful) (hacid : acid < b.numProc)
    (hb' : b.markSelected acid availableTbs cws = .ok b') :
    b'.numProc = b.numProc ∧ b'.Truthful := by
  cases cws with
  | nil =>
    cases hb'
    exact ⟨rfl, h⟩
  | cons base guests =>
    rw [CountedBufferTx.markSelected] at hb'
    split_ifs at hb'
    · cases hb'
      exact ⟨rfl, h⟩
    · -- the PDUs of the other codewords are dropped
      obtain ⟨p₁, hp₁, hb'⟩ := bind_eq_ok.1 hb'
      obtain ⟨p, hp, hb'⟩ := bind_eq_ok.1 hb'
      cases hb'
      obtain ⟨h₁, hall, -⟩ := (h.process acid hacid).foldlM_dropPdu hp₁
      obtain ⟨htrue, hbusy, hbusy'⟩ := h₁.markSelected hp
      exact ⟨rfl, h.put_same hacid htrue (iff_of_false (mt hall hbusy) hbusy')⟩
    · obtain ⟨p, hp, hb'⟩ := bind_eq_ok.1 hb'
      cases hb'
      obtain ⟨htrue, hsame⟩ := (h.process acid hacid).foldlM (fun h => h.markSelected) hp
      exact ⟨rfl, h.put_same hacid htrue hsame⟩

theorem Truthful.sendSelectedDown (h : b.Truthful) {sent : List (Option ℕ)}
    (hb' : b.sendSelectedDown = .ok (b', sent)) : b'.numProc = b.numProc ∧ b'.Truthful := by
  obtain ⟨⟨tx, sent'⟩, htx, hb'⟩ := bind_eq_ok.1 hb'
  cases hb'
  rw [LteHarqBufferTx.sendSelectedDown] at htx
  split_ifs at htx
  · cases htx
    exact ⟨rfl, h⟩
  · obtain ⟨p, hp, htx⟩ := bind_eq_ok.1 htx
    cases htx
    refine ⟨rfl, ?_⟩
    by_cases hacid : b.selectedAcid < b.numProc
    · obtain ⟨htrue, hsame⟩ := (h.process _ hacid).foldlM (fun h => h.extractPdu) hp
      exact h.put_same hacid htrue hsame
    · -- no process of the buffer is looked at
      have hkeep : ∀ a < b.numProc, Function.update b.processes b.selectedAcid p a =
          b.processes a := fun a ha => Function.update_of_ne (by omega) _ _
      refine ⟨fun a ha => ?_, h.emptyProc.trans (congrArg _ (List.filter_congr fun a ha => ?_))⟩
      · show (Function.update b.processes b.selectedAcid p a).Truthful
        rw [hkeep a ha]
        exact h.process a ha
      · show _ = decide (Function.update b.processes b.selectedAcid p a).AllEmpty
        rw [hkeep a (List.mem_range.1 ha)]

theorem Truthful.receiveHarqFeedback (h : b.Truthful) (hnum : b.numProc < 4294967296)
    (hacid : acid < b.numProc)
    (hb' : b.receiveHarqFeedback maxHarqRtx acid cw fbPduId ack = .ok b') :
    b'.numProc = b.numProc ∧ b'.Truthful := by
  rw [CountedBufferTx.receiveHarqFeedback] at hb'
  split_ifs at hb'
  · cases hb'
    exact ⟨rfl, h⟩
  · obtain ⟨p, hp, hb'⟩ := bind_eq_ok.1 hb'
    cases hb'
    obtain ⟨htrue, hbusy⟩ := (h.process acid hacid).pduFeedback hp
    exact ⟨rfl, h.put_reset hnum hacid htrue hbusy⟩

/-- `selfNack` is accepted only if no unit of the process is ready, and then does nothing. -/
theorem selfNack_eq_ok (hb' : b.selfNack maxHarqRtx acid cw = .ok b') :
    (∀ cw < MAX_CODEWORDS, ((b.processes acid).units cw).isReady = false) ∧
      b' = b.setProcess acid (b.processes acid) false := by
  obtain ⟨⟨p, reset⟩, hp, hb'⟩ := bind_eq_ok.1 hb'
  cases hready : (b.processes acid).readyUnitsIds with
  | nil =>
    rw [hready] at hp
    cases hp
    cases hb'
    refine ⟨fun cw hcw => ?_, rfl⟩
    have hnot := List.filter_eq_nil_iff.1 hready cw (List.mem_range.2 hcw)
    exact Bool.eq_false_iff.2 hnot
  | cons cw₀ cws =>
    have hmem : cw₀ ∈ (b.processes acid).readyUnitsIds := hready ▸ List.mem_cons_self
    obtain ⟨hcw₀, hready₀⟩ := List.mem_filter.1 hmem
    rw [hready, List.foldlM_cons] at hp
    dsimp only at hp
    rw [LteHarqProcessTx.selfNack_of_ready (List.mem_range.1 hcw₀) hready₀] at hp
    cases hp

theorem Truthful.selfNack (h : b.Truthful) (hacid : acid < b.numProc)
    (hb' : b.selfNack maxHarqRtx acid cw = .ok b') : b'.numProc = b.numProc ∧ b'.Truthful := by
  obtain ⟨-, rfl⟩ := selfNack_eq_ok hb'
  exact ⟨rfl, h.put_same hacid (h.process acid hacid) Iff.rfl⟩

theorem Truthful.dropProcess_iff (h : b.Truthful) (hnum : b.numProc < 4294967296)
    (hacid : acid < b.numProc) (hb' : b.dropProcess acid = .ok b') :
    b'.numProc = b.numProc ∧ (b'.Truthful ↔
      (∀ cw < MAX_CODEWORDS, ((b.processes acid).units cw).isEmpty = true ∨
        ((b.processes acid).units cw).isReady = true) ∧ ¬(b.processes acid).AllEmpty) := by
  obtain ⟨p, hp, hb'⟩ := bind_eq_ok.1 hb'
  cases hb'
  obtain ⟨htrue, hall⟩ := (h.process acid hacid).dropReady hp
  rw [← hall]
  exact ⟨rfl, h.put_emptied_iff hnum hacid htrue⟩

theorem Truthful.forceDropProcess_iff (h : b.Truthful) (hnum : b.numProc < 4294967296)
    (hacid : acid < b.numProc) :
    (b.forceDropProcess acid).Truthful ↔ ¬(b.processes acid).AllEmpty := by
  refine (h.put_emptied_iff hnum hacid LteHarqProcessTx.truthful_forceDropProcess).trans ?_
  exact and_iff_right LteHarqProcessTx.allEmpty_forceDropProcess

theorem Truthful.forceDropUnit_iff (h : b.Truthful) (hnum : b.numProc < 4294967296)
    (hacid : acid < b.numProc) (hb' : b.forceDropUnit acid cw = .ok b') :
    b'.numProc = b.numProc ∧
      (b'.Truthful ↔ ((b.processes acid).units cw).isEmpty = false) := by
  obtain ⟨⟨p, reset⟩, hp, hb'⟩ := bind_eq_ok.1 hb'
  obtain ⟨hcw, hreset, hiff⟩ := (h.process acid hacid).forceDropUnit_iff hp
  -- whether the process is selected does not matter
  obtain ⟨selected, rfl⟩ : ∃ selected, b' = {
      toLteHarqBufferTx :=
        { b.toLteHarqBufferTx.setProcess acid p with selectedAcid := selected }
      numEmptyProc := if p.isEmpty then u32 (b.numEmptyProc + 1) else b.numEmptyProc
      dropped := b.dropped } := by
    subst hreset
    cases hb'
    split_ifs
    · exact ⟨_, by rw [deselect, setProcess, if_pos ‹_›]⟩
    · exact ⟨_, by rw [setProcess, if_neg ‹_›]⟩
  refine ⟨rfl, fun h' => ?_, fun hbusy => ?_⟩
  · exact hiff.1 ((h.put_iff hacid).1 h').1
  · exact h.put_reset hnum hacid (hiff.2 hbusy) (LteHarqProcessTx.not_allEmpty hcw hbusy)

/-! ### Whole runs -/

/-- The operation finds the units of its process as it expects them. -/
def Op.Ok (b : CountedBufferTx) : Op → Prop
  | .insertPdu acid _ _ => (b.processes acid).AllEmpty
  | .dropProcess acid =>
    (∀ cw < MAX_CODEWORDS, ((b.processes acid).units cw).isEmpty = true ∨
      ((b.processes acid).units cw).isReady = true) ∧ ¬(b.processes acid).AllEmpty
  | .forceDropProcess acid => ¬(b.processes acid).AllEmpty
  | .forceDropUnit acid cw => ((b.processes acid).units cw).isEmpty = false
  | .markSelected _ _ _ | .sendSelectedDown | .receiveHarqFeedback _ _ _ _ | .selfNack _ _ => True

instance (op : Op) : Decidable (op.Ok b) := by
  cases op <;> unfold Op.Ok <;> infer_instance

/-- A unit that is ready is sent once more and gets a NACK. -/
def nacked (b : CountedBufferTx) (maxHarqRtx acid cw : ℕ) : Except HarqError CountedBufferTx := do
  let u := (b.processes acid).units cw
  let sent := (b.processes acid).setUnit cw
    { u with transmissions := u8 (u.transmissions + 1), status := .WAITING }
  let p ← sent.pduFeedback maxHarqRtx false cw
  return b.setProcess acid p p.isEmpty

/-- `selfNack` for a unit that is ready is accepted and acts like a NACK. -/
def SelfNacks (maxHarqRtx : ℕ) (b : CountedBufferTx) : Prop :=
  ∀ acid < b.numProc, ∀ cw < MAX_CODEWORDS, ((b.processes acid).units cw).isReady = true →
    ∃ b', b.selfNack maxHarqRtx acid cw = .ok b' ∧ b.nacked maxHarqRtx acid cw = .ok b'

/-- No unit is ready, so that no PDU waits for its retransmission. -/
def NoneReady (b : CountedBufferTx) : Prop :=
  ∀ acid < b.numProc, ∀ cw < MAX_CODEWORDS, ((b.processes acid).units cw).isReady = false

theorem selfNacks_iff : b.SelfNacks maxHarqRtx ↔ b.NoneReady := by
  constructor
  · intro h acid hacid cw hcw
    by_contra hready
    rw [Bool.not_eq_false] at hready
    obtain ⟨b', hb', -⟩ := h acid hacid cw hcw hready
    have hnot := (selfNack_eq_ok hb').1 cw hcw
    rw [hready] at hnot
    cases hnot
  · intro h acid hacid cw hcw hready
    rw [h acid hacid cw hcw] at hready
    cases hready

theorem map_eq_ok {x : Except HarqError CountedBufferTx} {sent : List (Option ℕ)}
    (h : (·, []) <$> x = .ok (b', sent)) : x = .ok b' := by
  cases x with
  | error e => cases h
  | ok a =>
    cases h
    rfl

/-- **One step**: the counters stay truthful iff the operation finds what it expects. -/
theorem Truthful.step_iff (h : b.Truthful) (hnum : b.numProc < 4294967296) {op : Op}
    {sent : List (Option ℕ)} (hstep : (machine maxHarqRtx).step b op = some (b', sent)) :
    b'.numProc = b.numProc ∧ (b'.Truthful ↔ op.Ok b) := by
  have hkeep : ∀ {q : Prop}, q → b'.numProc = b.numProc ∧ b'.Truthful →
      b'.numProc = b.numProc ∧ (b'.Truthful ↔ q) :=
    fun hq h' => ⟨h'.1, iff_of_true h'.2 hq⟩
  dsimp only [machine] at hstep
  split_ifs at hstep with hacid
  rw [toOption_eq_some] at hstep
  cases op with
  | insertPdu acid cw pdu => exact h.insertPdu_iff hnum (hacid acid rfl) (map_eq_ok hstep)
  | markSelected acid cws availableTbs =>
    exact hkeep trivial (h.markSelected (hacid acid rfl) (map_eq_ok hstep))
  | sendSelectedDown => exact hkeep trivial (h.sendSelectedDown hstep)
  | receiveHarqFeedback acid cw fbPduId ack =>
    exact hkeep trivial (h.receiveHarqFeedback hnum (hacid acid rfl) (map_eq_ok hstep))
  | selfNack acid cw => exact hkeep trivial (h.selfNack (hacid acid rfl) (map_eq_ok hstep))
  | dropProcess acid => exact h.dropProcess_iff hnum (hacid acid rfl) (map_eq_ok hstep)
  | forceDropProcess acid =>
    cases hstep
    exact ⟨rfl, h.forceDropProcess_iff hnum (hacid acid rfl)⟩
  | forceDropUnit acid cw => exact h.forceDropUnit_iff hnum (hacid acid rfl) (map_eq_ok hstep)

/-- **The counters of the H-ARQ sender** after a run whose operations all find the units as they
expect them, and after the next operation; and whether `selfNack` acts like a NACK. -/
theorem counters_iff {numProc : ℕ} (hnum : numProc < 4294967296) {ops : List Op}
    {sent : List (Option ℕ)}
    (hrun : (machine maxHarqRtx).exec (new numProc) ops = some (b, sent))
    (hok : ∀ b op b' o, (machine maxHarqRtx).Takes (new numProc) ops b op b' o → op.Ok b) :
    b.Truthful ∧
      (∀ op b' o, (machine maxHarqRtx).step b op = some (b', o) → (b'.Truthful ↔ op.Ok b)) ∧
      (b.SelfNacks maxHarqRtx ↔ b.NoneReady) := by
  have hvisits : (machine maxHarqRtx).Visits (new numProc) ops b :=
    ⟨ops, [], sent, (List.append_nil ops).symm, hrun⟩
  obtain ⟨htrue, hsame⟩ := hvisits.invariant
    (I := fun b => b.Truthful ∧ b.numProc = numProc) ⟨truthful_new numProc, rfl⟩ <| by
      rintro b op b' o ht ⟨htrue, hsame⟩
      have hop := hok b op b' o ht
      obtain ⟨ops₁, ops₂, os, -, -, hstep⟩ := ht
      obtain ⟨hnum', hiff⟩ := htrue.step_iff (hsame ▸ hnum) hstep
      exact ⟨hiff.2 hop, hnum'.trans hsame⟩
  exact ⟨htrue, fun op b' o hstep => (htrue.step_iff (hsame ▸ hnum) hstep).2, selfNacks_iff⟩

/-- A PDU is sent, gets a NACK, is sent once more and acknowledged. -/
def resendOps : List Op :=
  [.insertPdu 3 0 ⟨17, 100, 0⟩, .sendSelectedDown, .receiveHarqFeedback 3 0 17 false,
    .markSelected 3 [0] 1, .sendSelectedDown, .receiveHarqFeedback 3 0 17 true]

theorem counters_iff_resent :
    ∃ b sent, (machine 3).exec (new 8) resendOps = some (b, sent) ∧ b.Truthful := by
  have hsome : ((machine 3).exec (new 8) resendOps).isSome := rfl
  obtain ⟨⟨b, sent⟩, hrun⟩ := Option.isSome_iff_exists.1 hsome
  have hmeets : (machine 3).Meets (fun b op => Op.Ok b op) (new 8) resendOps := by decide +kernel
  exact ⟨b, sent, hrun, (counters_iff (by decide) hrun fun b op b' o ht => hmeets.takes ht).1⟩

/-- With PDUs for both codewords of process 0, the buffer counts six of eight processes as empty,
though seven are.  And after the first NACK, `selfNack` is refused for the unit that is ready. -/
theorem two_codewords :
    ∃ b sent b' sent', (machine 3).exec (new 8)
        [.insertPdu 0 0 ⟨17, 100, 0⟩, .insertPdu 0 1 ⟨18, 100, 1⟩] = some (b, sent) ∧
      b.numEmptyProc = 6 ∧ b.emptyAcids.length = 7 ∧ ¬b.Truthful ∧
      (machine 3).exec b [.sendSelectedDown, .receiveHarqFeedback 0 0 17 false] =
        some (b', sent') ∧
      ((b'.processes 0).units 0).isReady = true ∧ (machine 3).step b' (.selfNack 0 0) = none ∧
      ¬b'.SelfNacks 3 := by
  refine ⟨_, _, _, _, rfl, rfl, by decide, fun h => ?_, rfl, rfl, rfl, fun h => ?_⟩
  · have hcount := h.emptyProc
    revert hcount
    decide
  · have hready := selfNacks_iff.1 h 0 (by decide) 0 (by decide)
    revert hready
    decide

end CountedBufferTx

end V2nLte
