import V2nLte.Machine.Collections
import V2nLte.Mac.Grant

/-!
# The sender's H-ARQ buffer with all its codewords

`LteHarqBufferTx` holds the processes of one UE, a process has `MAX_CODEWORDS` units, and each
counts its empty units.  A new PDU goes into the process that is selected in this TTI or into the
first empty one; `firstAvailable` answers `HARQ_NONE`, with no codeword, if there is none.

`Wf` is the invariant: the counters say how many units are empty.  So a process that calls
itself empty takes a PDU on any codeword (`Wf.insertPdu_of_isEmpty`).

Left out are the statistics, and what `V2nLte.Mac.HarqCounters` adds: the drops, the joining of
PDUs and `numEmptyProc_`.
-/

namespace V2nLte

/-- The exceptions of the H-ARQ buffers and of the making of a PDU for them. -/
inductive HarqError where
  /-- "new process selected for tx is not completely empty". -/
  | processNotEmpty
  /-- "unit is not empty". -/
  | unitNotEmpty
  /-- "Trying to insert macPdu in already busy harq unit". -/
  | busyUnit
  /-- "mismatch in cw settings". -/
  | codewordMismatch
  /-- "cannot select another unit because they are all already selected". -/
  | allSelected
  /-- "trying to select for transmission an empty buffer". -/
  | emptyBuffer
  /-- "cannot extract pdu: numSelected = 0". -/
  | noneSelected
  /-- "Trying to extract macPdu from not selected H-ARQ unit". -/
  | notSelected
  /-- "Feedback sent to an H-ARQ unit not waiting for it". -/
  | notWaiting
  /-- "fb is not for the pdu in this unit". -/
  | otherPdu
  /-- "Abnormal queue length detected while building MAC PDU". -/
  | abnormalQueueLength
  /-- "pduMaker sending to uncorrect void H-ARQ process". -/
  | voidProcess
  /-- "cannot drop pdu if state is not BUFFERED". -/
  | dropNotBuffered
  /-- "Trying to send self NACK to a unit waiting for feedback". -/
  | selfNackWaiting
  /-- "Trying to send self NACK to an idle or selected unit". -/
  | selfNackIdle
  /-- An access out of the bounds of a vector. -/
  | outOfRange
  deriving DecidableEq

/-- A MAC PDU and the codeword it is made for. -/
structure MacPdu where
  /-- The id of the PDU. -/
  id : ℕ
  /-- Its length. -/
  byteLength : ℕ
  /-- The codeword. -/
  cw : ℕ
  deriving DecidableEq

/-- `LteHarqUnitTx`. -/
structure LteHarqUnitTx where
  /-- The id of the PDU in the unit. -/
  pduId : Option ℕ := none
  /-- Its length. -/
  pduLength : ℕ := 0
  /-- How often it has been sent, an `unsigned char`. -/
  transmissions : ℕ := 0
  /-- Its status. -/
  status : TxHarqPduStatus := .EMPTY
  deriving DecidableEq

namespace LteHarqUnitTx

variable (u : LteHarqUnitTx)

/-- No PDU is in the unit. -/
def isEmpty : Bool := decide (u.status = .EMPTY)

/-- The unit has a PDU to be sent again. -/
def isReady : Bool := decide (u.status = .BUFFERED)

/-- The PDU in the unit is to be sent in this TTI. -/
def isMarked : Bool := decide (u.status = .SELECTED)

/-- `insertPdu`, of the unit for the codeword `cw`. -/
def insertPdu (cw : ℕ) (pdu : MacPdu) : Except HarqError LteHarqUnitTx :=
  if ¬u.isEmpty then .error .busyUnit
  else if cw ≠ pdu.cw then .error .codewordMismatch
  else
    .ok { pduId := some pdu.id, pduLength := pdu.byteLength, transmissions := 0,
          status := .SELECTED }

/-- `markSelected`. -/
def markSelected : Except HarqError LteHarqUnitTx :=
  if ¬u.isReady then .error .emptyBuffer else .ok { u with status := .SELECTED }

/-- `extractPdu`. -/
def extractPdu : Except HarqError LteHarqUnitTx :=
  if u.status ≠ .SELECTED then .error .notSelected
  else .ok { u with transmissions := u8 (u.transmissions + 1), status := .WAITING }

/-- `pduFeedback`, and whether the unit has become empty. -/
def pduFeedback (maxHarqRtx : ℕ) (ack : Bool) : Except HarqError (LteHarqUnitTx × Bool) :=
  if u.status ≠ .WAITING then .error .notWaiting
  else if ack ∨ u.transmissions = maxHarqRtx + 1 then .ok ({}, true)
  else .ok ({ u with status := .BUFFERED }, false)

end LteHarqUnitTx

/-- `LteHarqProcessTx`. -/
structure LteHarqProcessTx where
  /-- The units, by codeword. -/
  units : ℕ → LteHarqUnitTx := fun _ => {}
  /-- How many of them are empty. -/
  numEmptyUnits : ℕ := MAX_CODEWORDS
  /-- How many of them are to be sent in this TTI. -/
  numSelected : ℕ := 0

namespace LteHarqProcessTx

variable (p : LteHarqProcessTx)

/-- Replace the unit of a codeword. -/
def setUnit (cw : ℕ) (u : LteHarqUnitTx) : LteHarqProcessTx :=
  { p with units := Function.update p.units cw u }

/-- By its counter, all units of the process are empty. -/
def isEmpty : Bool := decide (p.numEmptyUnits = MAX_CODEWORDS)

/-- The codewords of the empty units. -/
def emptyUnitsIds : List ℕ := (List.range MAX_CODEWORDS).filter fun cw => (p.units cw).isEmpty

/-- The codewords of the units to be sent. -/
def selectedUnitsIds : List ℕ := (List.range MAX_CODEWORDS).filter fun cw => (p.units cw).isMarked

/-- `insertPdu`. -/
def insertPdu (cw : ℕ) (pdu : MacPdu) : Except HarqError LteHarqProcessTx :=
  if MAX_CODEWORDS ≤ cw then .error .outOfRange
  else do
    let u ← (p.units cw).insertPdu cw pdu
    return { p.setUnit cw u with
      numEmptyUnits := p.numEmptyUnits - 1, numSelected := p.numSelected + 1 }

/-- `markSelected`. -/
def markSelected (cw : ℕ) : Except HarqError LteHarqProcessTx :=
  if p.numSelected = MAX_CODEWORDS then .error .allSelected
  else if MAX_CODEWORDS ≤ cw then .error .outOfRange
  else do
    let u ← (p.units cw).markSelected
    return { p.setUnit cw u with numSelected := p.numSelected + 1 }

/-- `extractPdu`. -/
def extractPdu (cw : ℕ) : Except HarqError LteHarqProcessTx :=
  if p.numSelected = 0 then .error .noneSelected
  else if MAX_CODEWORDS ≤ cw then .error .outOfRange
  else do
    let u ← (p.units cw).extractPdu
    return { p.setUnit cw u with numSelected := p.numSelected - 1 }

/-- `pduFeedback`. -/
def pduFeedback (maxHarqRtx : ℕ) (ack : Bool) (cw : ℕ) : Except HarqError LteHarqProcessTx :=
  if MAX_CODEWORDS ≤ cw then .error .outOfRange
  else do
    let (u, reset) ← (p.units cw).pduFeedback maxHarqRtx ack
    return { p.setUnit cw u with
      numEmptyUnits := if reset then p.numEmptyUnits + 1 else p.numEmptyUnits }

end LteHarqProcessTx

/-- `LteHarqBufferTx`. -/
structure LteHarqBufferTx where
  /-- The number of processes. -/
  numProc : ℕ
  /-- The process to be sent in this TTI. -/
  selectedAcid : ℕ := HARQ_NONE
  /-- The processes. -/
  processes : ℕ → LteHarqProcessTx := fun _ => {}

namespace LteHarqBufferTx

variable (b : LteHarqBufferTx)

/-- Replace a process. -/
def setProcess (acid : ℕ) (p : LteHarqProcessTx) : LteHarqBufferTx :=
  { b with processes := Function.update b.processes acid p }

/-- The process that `firstAvailable` answers with. -/
def availableAcid : ℕ :=
  if b.selectedAcid = HARQ_NONE then
    ((List.range b.numProc).find? fun acid => (b.processes acid).isEmpty).getD HARQ_NONE
  else b.selectedAcid

/-- `firstAvailable`. -/
def firstAvailable : ℕ × List ℕ :=
  (b.availableAcid,
    if b.availableAcid = HARQ_NONE then [] else (b.processes b.availableAcid).emptyUnitsIds)

/-- `pduLength`. -/
def pduLength (acid cw : ℕ) : ℕ := ((b.processes acid).units cw).pduLength

/-- `insertPdu`. -/
def insertPdu (acid cw : ℕ) (pdu : MacPdu) : Except HarqError LteHarqBufferTx :=
  if b.selectedAcid = HARQ_NONE ∧ ¬(b.processes acid).isEmpty then .error .processNotEmpty
  else if ¬((b.processes acid).units cw).isEmpty then .error .unitNotEmpty
  else do
    let p ← (b.processes acid).insertPdu cw pdu
    return { b.setProcess acid p with selectedAcid := acid }

/-- `markSelected` for one codeword. -/
def markSelected (acid cw availableTbs : ℕ) : Except HarqError LteHarqBufferTx :=
  if availableTbs = 0 then .ok b
  else do
    let p ← (b.processes acid).markSelected cw
    return { b.setProcess acid p with selectedAcid := acid }

/-- `receiveHarqFeedback`. -/
def receiveHarqFeedback (maxHarqRtx acid cw fbPduId : ℕ) (ack : Bool) :
    Except HarqError LteHarqBufferTx :=
  if some fbPduId ≠ ((b.processes acid).units cw).pduId then .error .otherPdu
  else do
    let p ← (b.processes acid).pduFeedback maxHarqRtx ack cw
    return b.setProcess acid p

/-- `sendSelectedDown`, with the PDUs that are sent. -/
def sendSelectedDown : Except HarqError (LteHarqBufferTx × List (Option ℕ)) :=
  if b.selectedAcid = HARQ_NONE then .ok (b, [])
  else do
    let p := b.processes b.selectedAcid
    let p' ← p.selectedUnitsIds.foldlM (fun p cw => p.extractPdu cw) p
    return ({ b.setProcess b.selectedAcid p' with selectedAcid := HARQ_NONE },
      p.selectedUnitsIds.map fun cw => (p.units cw).pduId)

end LteHarqBufferTx

/-! ### The counters -/

namespace LteHarqProcessTx

variable {p p' : LteHarqProcessTx} {u : LteHarqUnitTx} {pdu : MacPdu} {cw maxHarqRtx : ℕ}
  {ack : Bool}

/-- The counter says how many units are empty. -/
def Counted (p : LteHarqProcessTx) : Prop := p.numEmptyUnits = p.emptyUnitsIds.length

/-- How many units are empty once one has been replaced. -/
theorem length_emptyUnitsIds_setUnit (hcw : cw < MAX_CODEWORDS) :
    (p.setUnit cw u).emptyUnitsIds.length + (if (p.units cw).isEmpty then 1 else 0) =
      p.emptyUnitsIds.length + if u.isEmpty then 1 else 0 :=
  length_filter_range_update LteHarqUnitTx.isEmpty p.units u hcw

/-- A process that calls itself empty is. -/
theorem Counted.isEmpty_iff (h : p.Counted) :
    p.isEmpty = true ↔ ∀ cw < MAX_CODEWORDS, (p.units cw).isEmpty = true := by
  have hall : p.emptyUnitsIds.length = (List.range MAX_CODEWORDS).length ↔
      ∀ cw ∈ List.range MAX_CODEWORDS, (p.units cw).isEmpty = true :=
    List.length_filter_eq_length_iff
  rw [List.length_range] at hall
  rw [isEmpty, decide_eq_true_iff, h, hall]
  simp only [List.mem_range]

theorem Counted.emptyUnitsIds_of_isEmpty (h : p.Counted) (hp : p.isEmpty = true) :
    p.emptyUnitsIds = List.range MAX_CODEWORDS :=
  List.filter_eq_self.2 fun cw hcw => h.isEmpty_iff.1 hp cw (List.mem_range.1 hcw)

/-- A unit is replaced by one that is empty iff it was. -/
theorem Counted.setUnit (h : p.Counted) (hcw : cw < MAX_CODEWORDS)
    (hu : u.isEmpty = (p.units cw).isEmpty) {n : ℕ} :
    ({ p.setUnit cw u with numSelected := n } : LteHarqProcessTx).Counted := by
  have hlen := length_emptyUnitsIds_setUnit (p := p) (u := u) hcw
  rw [hu] at hlen
  exact h.trans (Nat.add_right_cancel hlen).symm

theorem Counted.insertPdu (h : p.Counted) (hp' : p.insertPdu cw pdu = .ok p') : p'.Counted := by
  rw [LteHarqProcessTx.insertPdu] at hp'
  split at hp' <;> rename_i hcw
  · cases hp'
  · obtain ⟨u, hu, hp'⟩ := bind_eq_ok.1 hp'
    cases hp'
    have hlen := length_emptyUnitsIds_setUnit (p := p) (u := u) (Nat.lt_of_not_le hcw)
    rw [LteHarqUnitTx.insertPdu] at hu
    split_ifs at hu with hempty
    have hfull : u.isEmpty = false := by
      cases hu
      rfl
    rw [if_pos hempty, hfull] at hlen
    show p.numEmptyUnits - 1 = _
    rw [h]
    exact Nat.sub_eq_of_eq_add hlen.symm

theorem Counted.markSelected (h : p.Counted) (hp' : p.markSelected cw = .ok p') :
    p'.Counted := by
  rw [LteHarqProcessTx.markSelected] at hp'
  split at hp'
  · cases hp'
  split at hp' <;> rename_i hcw
  · cases hp'
  obtain ⟨u, hu, hp'⟩ := bind_eq_ok.1 hp'
  cases hp'
  refine h.setUnit (Nat.lt_of_not_le hcw) ?_
  rw [LteHarqUnitTx.markSelected] at hu
  split at hu <;> rename_i hready
  · cases hu
  · cases hu
    have hready := of_decide_eq_true (not_not.1 hready)
    simp [LteHarqUnitTx.isEmpty, hready]

theorem Counted.extractPdu (h : p.Counted) (hp' : p.extractPdu cw = .ok p') : p'.Counted := by
  rw [LteHarqProcessTx.extractPdu] at hp'
  split at hp'
  · cases hp'
  split at hp' <;> rename_i hcw
  · cases hp'
  obtain ⟨u, hu, hp'⟩ := bind_eq_ok.1 hp'
  cases hp'
  refine h.setUnit (Nat.lt_of_not_le hcw) ?_
  rw [LteHarqUnitTx.extractPdu] at hu
  split at hu <;> rename_i hselected
  · cases hu
  · cases hu
    simp [LteHarqUnitTx.isEmpty, not_not.1 hselected]

theorem Counted.pduFeedback (h : p.Counted) (hp' : p.pduFeedback maxHarqRtx ack cw = .ok p') :
    p'.Counted := by
  rw [LteHarqProcessTx.pduFeedback] at hp'
  split at hp' <;> rename_i hcw
  · cases hp'
  obtain ⟨⟨u, reset⟩, hu, hp'⟩ := bind_eq_ok.1 hp'
  have hlen := length_emptyUnitsIds_setUnit (p := p) (u := u) (Nat.lt_of_not_le hcw)
  rw [LteHarqUnitTx.pduFeedback] at hu
  split at hu <;> rename_i hwaiting
  · cases hu
  have hbusy : (p.units cw).isEmpty = false := by
    rw [LteHarqUnitTx.isEmpty, not_not.1 hwaiting]
    rfl
  rw [hbusy] at hlen
  split at hu
  all_goals
    cases hu
    cases hp'
    show _ = _
    dsimp only
    rw [h]
  · exact hlen.symm
  · exact hlen.symm

end LteHarqProcessTx

namespace LteHarqBufferTx

variable {b b' : LteHarqBufferTx} {p : LteHarqProcessTx} {pdu : MacPdu}
  {acid cw availableTbs maxHarqRtx fbPduId : ℕ} {ack : Bool}

/-- The counters of all the processes are right, and `HARQ_NONE` is none of them. -/
structure Wf (b : LteHarqBufferTx) : Prop where
  counted : ∀ acid, (b.processes acid).Counted
  numProc_le : b.numProc ≤ HARQ_NONE

/-- Some process is empty. -/
def HasEmpty (b : LteHarqBufferTx) : Prop :=
  ∃ acid < b.numProc, (b.processes acid).isEmpty = true

theorem wf_new {numProc : ℕ} (h : numProc ≤ HARQ_NONE) : Wf { numProc := numProc } :=
  ⟨fun _ => rfl, h⟩

theorem Wf.setProcess (h : b.Wf) (hp : p.Counted) {selected : ℕ} :
    Wf { b.setProcess acid p with selectedAcid := selected } where
  counted a := by
    by_cases ha : a = acid
    · subst ha
      simpa [LteHarqBufferTx.setProcess] using hp
    · simpa [LteHarqBufferTx.setProcess, ha] using h.counted a
  numProc_le := h.numProc_le

theorem Wf.insertPdu (h : b.Wf) (hb' : b.insertPdu acid cw pdu = .ok b') :
    b'.Wf := by
  rw [LteHarqBufferTx.insertPdu] at hb'
  split at hb'
  · cases hb'
  split at hb'
  · cases hb'
  obtain ⟨p, hp, hb'⟩ := bind_eq_ok.1 hb'
  cases hb'
  exact h.setProcess ((h.counted acid).insertPdu hp)

theorem Wf.markSelected (h : b.Wf) (hb' : b.markSelected acid cw availableTbs = .ok b') :
    b'.Wf := by
  rw [LteHarqBufferTx.markSelected] at hb'
  split at hb'
  · cases hb'
    exact h
  · obtain ⟨p, hp, hb'⟩ := bind_eq_ok.1 hb'
    cases hb'
    exact h.setProcess ((h.counted acid).markSelected hp)

/-- Feedback keeps the counters and does not select a process. -/
theorem Wf.receiveHarqFeedback (h : b.Wf)
    (hb' : b.receiveHarqFeedback maxHarqRtx acid cw fbPduId ack = .ok b') :
    b'.Wf ∧ b'.selectedAcid = b.selectedAcid := by
  rw [LteHarqBufferTx.receiveHarqFeedback] at hb'
  split at hb'
  · cases hb'
  · obtain ⟨p, hp, hb'⟩ := bind_eq_ok.1 hb'
    cases hb'
    exact ⟨h.setProcess ((h.counted acid).pduFeedback hp), rfl⟩

theorem counted_foldlM_extractPdu {p p' : LteHarqProcessTx} {cws : List ℕ} (h : p.Counted)
    (hp' : cws.foldlM (fun p cw => p.extractPdu cw) p = .ok p') : p'.Counted := by
  induction cws generalizing p with
  | nil =>
    cases hp'
    exact h
  | cons cw cws ih =>
    rw [List.foldlM_cons] at hp'
    obtain ⟨p₁, hp₁, hp'⟩ := bind_eq_ok.1 hp'
    exact ih (h.extractPdu hp₁) hp'

/-- After the flush no process is selected. -/
theorem Wf.sendSelectedDown (h : b.Wf) {sent : List (Option ℕ)}
    (hb' : b.sendSelectedDown = .ok (b', sent)) :
    b'.Wf ∧ b'.selectedAcid = HARQ_NONE := by
  rw [LteHarqBufferTx.sendSelectedDown] at hb'
  split at hb' <;> rename_i hnone
  · cases hb'
    exact ⟨h, hnone⟩
  · obtain ⟨p', hp', hb'⟩ := bind_eq_ok.1 hb'
    cases hb'
    exact ⟨h.setProcess (counted_foldlM_extractPdu (h.counted _) hp'), rfl⟩

/-- With no process selected, the first available one is empty. -/
theorem availableAcid_of_none (hnone : b.selectedAcid = HARQ_NONE) (hempty : b.HasEmpty) :
    b.availableAcid < b.numProc ∧ (b.processes b.availableAcid).isEmpty = true := by
  rw [availableAcid, if_pos hnone]
  cases hfind : (List.range b.numProc).find? fun acid => (b.processes acid).isEmpty with
  | none =>
    obtain ⟨acid, hlt, hacid⟩ := hempty
    exact absurd hacid (List.find?_eq_none.1 hfind acid (List.mem_range.2 hlt))
  | some acid =>
    have hacid := List.find?_some (p := fun acid => (b.processes acid).isEmpty) hfind
    exact ⟨List.mem_range.1 (List.mem_of_find?_eq_some hfind), hacid⟩

theorem firstAvailable_of_not_hasEmpty (hnone : b.selectedAcid = HARQ_NONE)
    (hempty : ¬b.HasEmpty) : b.firstAvailable = (HARQ_NONE, []) := by
  have hacid : b.availableAcid = HARQ_NONE := by
    rw [availableAcid, if_pos hnone, List.find?_eq_none.2]
    · rfl
    · intro acid hmem hacid
      exact hempty ⟨acid, List.mem_range.1 hmem, hacid⟩
  rw [firstAvailable, if_pos hacid, hacid]

/-- A process that is empty takes a PDU on any codeword. -/
theorem Wf.insertPdu_of_isEmpty (h : b.Wf)
    (hempty : (b.processes acid).isEmpty = true) (hcw : cw < MAX_CODEWORDS) (hpdu : pdu.cw = cw) :
    ∃ b', b.insertPdu acid cw pdu = .ok b' ∧ b'.selectedAcid = acid := by
  have hunit := (h.counted acid).isEmpty_iff.1 hempty cw hcw
  rw [LteHarqBufferTx.insertPdu, if_neg fun hb => hb.2 hempty, if_neg (not_not.2 hunit),
    LteHarqProcessTx.insertPdu, if_neg (Nat.not_le.2 hcw), LteHarqUnitTx.insertPdu,
    if_neg (not_not.2 hunit), if_neg (not_not.2 hpdu.symm)]
  exact ⟨_, rfl, rfl⟩

end LteHarqBufferTx

end V2nLte
