import V2nLte.Machine.Basic
import V2nLte.Mac.HarqBufferTx
import V2nLte.Mac.HarqCodewords

/-!
# The two sides of a H-ARQ process, with their classes

`V2nLte.Mac.Harq` keeps of both sides what belongs to codeword `0`.  Here the two sides are the
classes that the source has for them, a `LteHarqBufferTx` and the `LteHarqProcessRx`s, of which only
codeword `0` is used; what is between them is the same.

* `HarqClasses.view` : what the pair keeps of them.
* `HarqClasses.inStep` : both do the same at every event.
* `HarqClasses.exec_eq` : both put out the same in every run.
-/

namespace V2nLte

/-- What a pair keeps of a process of the sender. -/
def LteHarqProcessTx.codeword0 (p : LteHarqProcessTx) : HarqProcessTx where
  pduId := (p.units 0).pduId
  status := (p.units 0).status
  transmissions := (p.units 0).transmissions
  numEmptyUnits := p.numEmptyUnits
  numSelected := p.numSelected

/-- What a pair keeps of a process of the receiver. -/
def LteHarqProcessRx.codeword0 (p : LteHarqProcessRx) : HarqProcessRx where
  pdu := (p.codewords 0).pdu.map RxPdu.macPduId
  status := (p.codewords 0).status
  rxTime := (p.codewords 0).rxTime
  result := (p.codewords 0).result
  transmissions := p.transmissions

/-- The two sides, and what is between them. -/
structure HarqClasses where
  /-- The buffer of the sender. -/
  tx : LteHarqBufferTx
  /-- The processes of the receiver. -/
  rx : ℕ → LteHarqProcessRx
  /-- The PDUs on the air. -/
  frames : List HarqFrame := []
  /-- The feedback on its way. -/
  feedback : List HarqFeedback := []
  /-- The time in TTIs. -/
  now : ℕ := 0
  /-- The ids of all the PDUs so far. -/
  used : List ℕ := []

namespace HarqClasses

variable (P : HarqParams) (c : HarqClasses)

/-- The pair that is seen. -/
def view : HarqPair where
  tx acid := (c.tx.processes acid).codeword0
  selectedAcid := c.tx.selectedAcid
  rx acid := (c.rx acid).codeword0
  frames := c.frames
  feedback := c.feedback
  now := c.now
  used := c.used

/-- The two sides at the beginning. -/
def initial : HarqClasses where
  tx := { numProc := P.numProc }
  rx acid := .new acid P.maxHarqRtx

/-! ### The sender -/

/-- A new PDU; its length plays no part. -/
def insertPdu (acid pdu : ℕ) : Option (HarqClasses × List HarqOutput) :=
  (c.tx.insertPdu acid 0 ⟨pdu, 0, 0⟩).toOption.map fun tx =>
    ({ c with tx, used := pdu :: c.used }, [])

/-- A retransmission is scheduled, with some bytes. -/
def markSelected (acid : ℕ) : Option (HarqClasses × List HarqOutput) :=
  (c.tx.markSelected acid 0 1).toOption.map fun tx => ({ c with tx }, [])

/-- The codewords of the selected process that are sent. -/
def selectedUnitsIds : List ℕ :=
  if c.tx.selectedAcid = HARQ_NONE then []
  else (c.tx.processes c.tx.selectedAcid).selectedUnitsIds

/-- The frames for units that have been extracted. -/
def framesOf (acid : ℕ) (p : LteHarqProcessTx) (cws : List ℕ) : List HarqFrame :=
  cws.filterMap fun cw =>
    (p.units cw).pduId.map fun pdu => ⟨acid, pdu, (p.units cw).transmissions == 1⟩

/-- What is selected is sent. -/
def sendSelectedDown : Option (HarqClasses × List HarqOutput) :=
  c.tx.sendSelectedDown.toOption.map fun r =>
    let sent := framesOf c.tx.selectedAcid (r.1.processes c.tx.selectedAcid) c.selectedUnitsIds
    ({ c with tx := r.1, frames := c.frames ++ sent }, sent.map fun f => .sent f.pdu f.ndi)

/-- The oldest feedback arrives. -/
def receiveHarqFeedback (fb : HarqFeedback) (rest : List HarqFeedback) :
    Option (HarqClasses × List HarqOutput) :=
  (c.tx.receiveHarqFeedback P.maxHarqRtx fb.acid 0 fb.fbMacPduId fb.result).toOption.map fun tx =>
    ({ c with tx, feedback := rest },
      if ((tx.processes fb.acid).units 0).isEmpty then [.freed fb.fbMacPduId] else [])

/-! ### The receiver -/

/-- A frame arrives; its addresses play no part. -/
def receive (f : HarqFrame) (decoded : Bool) : Option (HarqClasses × List HarqOutput) :=
  ((c.rx f.acid).insertPdu c.now 0 ⟨f.pdu, 0, 0, f.ndi, decoded⟩).toOption.map fun r =>
    ({ c with frames := c.frames.erase f, rx := Function.update c.rx f.acid r.1 },
      [.received f.pdu decoded])

/-- The feedback among the outputs. -/
def feedbackOf : RxOutput → Option HarqFeedback
  | .feedback fb => some ⟨fb.acid, fb.fbMacPduId, fb.result⟩
  | .delivered _ _ => none
  | .reset _ => none

/-- The PDUs that are passed on. -/
def extractedOf : RxOutput → Option HarqOutput
  | .feedback _ => none
  | .delivered _ pdu => some (.extracted pdu.macPduId)
  | .reset _ => none

/-- Something is done with each of the processes in turn. -/
def onEach (f : LteHarqProcessRx → Except HarqRxError (LteHarqProcessRx × List RxOutput))
    (n : ℕ) (rx : ℕ → LteHarqProcessRx) :
    Except HarqRxError ((ℕ → LteHarqProcessRx) × List RxOutput) :=
  (List.range n).foldlM (fun r acid => do
    let (p, o) ← f (r.1 acid)
    return (Function.update r.1 acid p, r.2 ++ o)) (rx, [])

/-- `LteHarqBufferRx::sendFeedback` for a process. -/
def sendFeedback (now : ℕ) (p : LteHarqProcessRx) :
    Except HarqRxError (LteHarqProcessRx × List RxOutput) :=
  if p.isEvaluated now 0 then p.createFeedback now 0 else .ok (p, [])

/-- `LteHarqBufferRx::extractCorrectPdus` for a process. -/
def extractCorrectPdu (p : LteHarqProcessRx) :
    Except HarqRxError (LteHarqProcessRx × List RxOutput) :=
  if (p.codewords 0).status = .CORRECT then p.extractPdu 0 else .ok (p, [])

/-- `LteHarqBufferRx::purgeCorruptedPdus` for a process, at a UE. -/
def purgeCorruptedPdu (p : LteHarqProcessRx) :
    Except HarqRxError (LteHarqProcessRx × List RxOutput) :=
  if P.purge then p.purge 0 else .ok (p, [])

/-- What the receiver does in a TTI. -/
def rxTti : Except HarqRxError (HarqClasses × List HarqOutput) := do
  let (rx, fbs) ← onEach (sendFeedback c.now) P.numProc c.rx
  let (rx, os) ← onEach extractCorrectPdu P.numProc rx
  let (rx, _) ← onEach (purgeCorruptedPdu P) P.numProc rx
  return ({ c with rx, feedback := c.feedback ++ fbs.filterMap feedbackOf },
    os.filterMap extractedOf)

/-! ### The machine -/

/-- The handler of an event. -/
def handle : HarqPair.Event → Option (HarqClasses × List HarqOutput)
  | .insert acid pdu => c.insertPdu acid pdu
  | .markSelected acid => c.markSelected acid
  | .send => c.sendSelectedDown
  | .arrive f decoded => c.receive f decoded
  | .rxTti => (c.rxTti P).toOption
  | .feedback =>
    match c.feedback with
    | [] => none
    | fb :: rest => c.receiveHarqFeedback P fb rest
  | .tick => some ({ c with now := c.now + 1 }, [])

/-- The two sides as a machine, for the events of the pair. -/
def machine : Machine HarqClasses HarqPair.Event HarqOutput where
  step c e := if e.Enabled P c.view then c.handle P e else none

/-! ### One codeword -/

/-- A process of the sender uses codeword `0` only. -/
structure TxSingle (p : LteHarqProcessTx) : Prop where
  /-- The unit for the other codeword is empty. -/
  free : (p.units 1).status = .EMPTY
  /-- A unit in use has a PDU. -/
  loaded : (p.units 0).status ≠ .EMPTY → ∃ pdu, (p.units 0).pduId = some pdu

/-- A process of the receiver, with its number and limit. -/
structure RxSingle (acid : ℕ) (p : LteHarqProcessRx) : Prop where
  /-- A codeword in use has a PDU. -/
  loaded : (p.codewords 0).status ≠ .EMPTY → ∃ pdu, (p.codewords 0).pdu = some pdu
  acid : p.acid = acid
  limit : p.maxHarqRtx = u8 P.maxHarqRtx

/-- Only codeword `0` is used on both sides. -/
structure Single (c : HarqClasses) : Prop where
  tx : ∀ acid, TxSingle (c.tx.processes acid)
  rx : ∀ acid, RxSingle P acid (c.rx acid)

/-- The pair is what is seen of the classes. -/
def Sees (s : HarqPair) (c : HarqClasses) : Prop := c.view = s ∧ c.Single P

variable {P} {c c' : HarqClasses} {acid : ℕ}

theorem single_initial : (initial P).Single P where
  tx _ := ⟨rfl, fun h => absurd rfl h⟩
  rx _ := ⟨fun h => absurd rfl h, rfl, rfl⟩

/-- A process of the sender has been replaced by one that uses codeword `0` only. -/
theorem sees_tx (h : c.Single P) {p : LteHarqProcessTx} {s : HarqPair}
    (htx : c'.tx.processes = Function.update c.tx.processes acid p) (hrx : c'.rx = c.rx)
    (hs : s = { c'.view with tx := Function.update c.view.tx acid p.codeword0 })
    (hp : TxSingle p) : Sees P s c' := by
  refine ⟨?_, fun a => ?_, hrx ▸ h.rx⟩
  · have hview : c'.view.tx = Function.update c.view.tx acid p.codeword0 := by
      show (fun a => (c'.tx.processes a).codeword0) = _
      rw [htx]
      exact Function.comp_update LteHarqProcessTx.codeword0 c.tx.processes acid p
    rw [hs, ← hview]
  · rw [htx, Function.update_apply]
    split
    · exact hp
    · exact h.tx a

theorem TxSingle.selectedUnitsIds {p : LteHarqProcessTx} (h : TxSingle p) :
    p.selectedUnitsIds = if (p.units 0).status = .SELECTED then [0] else [] := by
  have hfree : (p.units 1).isMarked = false := by
    rw [LteHarqUnitTx.isMarked, h.free]
    rfl
  rw [LteHarqProcessTx.selectedUnitsIds, show List.range MAX_CODEWORDS = [0, 1] from rfl]
  by_cases hselected : (p.units 0).status = .SELECTED
  · have hmarked : (p.units 0).isMarked = true := decide_eq_true hselected
    rw [if_pos hselected]
    simp [hfree, hmarked]
  · have hmarked : (p.units 0).isMarked = false := decide_eq_false hselected
    rw [if_neg hselected]
    simp [hfree, hmarked]

/-! ### The sender keeps step -/

theorem isEmpty_process :
    (c.tx.processes acid).isEmpty = true ↔ (c.tx.processes acid).numEmptyUnits = 2 :=
  decide_eq_true_iff

theorem isEmpty_unit : ((c.tx.processes acid).units 0).isEmpty = true ↔
    ((c.tx.processes acid).units 0).status = .EMPTY :=
  decide_eq_true_iff

theorem isReady_unit : ((c.tx.processes acid).units 0).isReady = true ↔
    ((c.tx.processes acid).units 0).status = .BUFFERED :=
  decide_eq_true_iff

theorem inStep_insertPdu (h : c.Single P) (acid pdu : ℕ) :
    Machine.InStep (Sees P) ((c.view.insertPdu acid pdu).map (·, [])) (c.insertPdu acid pdu) := by
  simp only [insertPdu, LteHarqBufferTx.insertPdu, LteHarqProcessTx.insertPdu,
    LteHarqUnitTx.insertPdu, isEmpty_process, isEmpty_unit]
  by_cases hbusy : c.tx.selectedAcid = HARQ_NONE ∧ ¬(c.tx.processes acid).numEmptyUnits = 2
  · rw [show c.view.insertPdu acid pdu = none from if_pos hbusy, if_pos hbusy]
    exact .stop
  rw [if_neg hbusy]
  by_cases hempty : ((c.tx.processes acid).units 0).status = .EMPTY
  · rw [show c.view.insertPdu acid pdu = some _ from
        (if_neg hbusy).trans (if_neg (not_not.2 hempty)),
      if_neg (not_not.2 hempty), if_neg (by decide), if_neg (not_not.2 hempty),
      if_neg (not_not.2 rfl)]
    exact .go (sees_tx h rfl rfl rfl ⟨(h.tx acid).free, fun _ => ⟨pdu, rfl⟩⟩)
  · rw [show c.view.insertPdu acid pdu = none from (if_neg hbusy).trans (if_pos hempty),
      if_pos hempty]
    exact .stop

theorem inStep_markSelected (h : c.Single P) (acid : ℕ) :
    Machine.InStep (Sees P) ((c.view.markSelected acid).map (·, [])) (c.markSelected acid) := by
  simp only [markSelected, LteHarqBufferTx.markSelected, LteHarqProcessTx.markSelected,
    LteHarqUnitTx.markSelected, isReady_unit]
  rw [if_neg Nat.one_ne_zero]
  by_cases hall : (c.tx.processes acid).numSelected = MAX_CODEWORDS
  · rw [show c.view.markSelected acid = none from if_pos hall, if_pos hall]
    exact .stop
  rw [if_neg hall, if_neg (by decide)]
  by_cases hready : ((c.tx.processes acid).units 0).status = .BUFFERED
  · have hloaded := (h.tx acid).loaded fun hempty => by cases hready.symm.trans hempty
    rw [show c.view.markSelected acid = some _ from
        (if_neg hall).trans (if_neg (not_not.2 hready)), if_neg (not_not.2 hready)]
    exact .go (sees_tx h rfl rfl rfl ⟨(h.tx acid).free, fun _ => hloaded⟩)
  · rw [show c.view.markSelected acid = none from (if_neg hall).trans (if_pos hready),
      if_pos hready]
    exact .stop

theorem sendSelectedDown_eq (hnone : c.tx.selectedAcid ≠ HARQ_NONE) {p : LteHarqProcessTx}
    (hp : (c.tx.processes c.tx.selectedAcid).selectedUnitsIds.foldlM (fun p cw => p.extractPdu cw)
      (c.tx.processes c.tx.selectedAcid) = .ok p) :
    c.sendSelectedDown =
      let sent := framesOf c.tx.selectedAcid p c.selectedUnitsIds
      some ({ c with
          tx := { c.tx.setProcess c.tx.selectedAcid p with selectedAcid := HARQ_NONE }
          frames := c.frames ++ sent },
        sent.map fun f => .sent f.pdu f.ndi) := by
  rw [sendSelectedDown, LteHarqBufferTx.sendSelectedDown, if_neg hnone]
  simp only [hp]
  simp [Except.toOption, bind, Except.bind, pure, Except.pure, LteHarqBufferTx.setProcess]

theorem inStep_sendSelectedDown (h : c.Single P) :
    Machine.InStep (Sees P) c.view.sendSelectedDown c.sendSelectedDown := by
  have htx := h.tx c.tx.selectedAcid
  -- no process is selected
  by_cases hnone : c.tx.selectedAcid = HARQ_NONE
  · have hclass : c.sendSelectedDown = some (c, []) := by
      simp [sendSelectedDown, LteHarqBufferTx.sendSelectedDown, selectedUnitsIds, hnone, framesOf,
        Except.toOption]
    rw [show c.view.sendSelectedDown = some (c.view, []) from if_pos hnone, hclass]
    exact .go ⟨rfl, h⟩
  have hids := htx.selectedUnitsIds
  have hunits : c.selectedUnitsIds = _ := (if_neg hnone).trans hids
  by_cases hselected : ((c.tx.processes c.tx.selectedAcid).units 0).status = .SELECTED
  · obtain ⟨pdu, hpdu⟩ := htx.loaded fun hempty => by cases hselected.symm.trans hempty
    rw [if_pos hselected] at hids hunits
    rw [HarqPair.sendSelectedDown, if_neg (show ¬c.view.selectedAcid = HARQ_NONE from hnone),
      show (c.view.tx c.view.selectedAcid).status = .SELECTED from hselected,
      show (c.view.tx c.view.selectedAcid).pduId = some pdu from hpdu]
    dsimp only
    -- the counter of selected units would go below zero: both throw
    by_cases hcount : (c.tx.processes c.tx.selectedAcid).numSelected = 0
    · have hclass : c.sendSelectedDown = none := by
        simp [sendSelectedDown, LteHarqBufferTx.sendSelectedDown, hids, hnone,
          LteHarqProcessTx.extractPdu, hcount, Except.toOption, bind, Except.bind]
      rw [hclass, if_pos (show (c.view.tx c.view.selectedAcid).numSelected = 0 from hcount)]
      exact .stop
    have hp : (c.tx.processes c.tx.selectedAcid).selectedUnitsIds.foldlM
        (fun p cw => p.extractPdu cw) (c.tx.processes c.tx.selectedAcid) = .ok
          { (c.tx.processes c.tx.selectedAcid).setUnit 0
            { (c.tx.processes c.tx.selectedAcid).units 0 with
              transmissions := u8 (((c.tx.processes c.tx.selectedAcid).units 0).transmissions + 1)
              status := .WAITING } with
            numSelected := (c.tx.processes c.tx.selectedAcid).numSelected - 1 } := by
      simp [hids, LteHarqProcessTx.extractPdu, LteHarqUnitTx.extractPdu, hcount, hselected,
        MAX_CODEWORDS, bind, Except.bind, pure, Except.pure]
    rw [if_neg (show ¬(c.view.tx c.view.selectedAcid).numSelected = 0 from hcount),
      sendSelectedDown_eq hnone hp, hunits]
    simp only [framesOf, List.filterMap_cons, LteHarqProcessTx.setUnit, Function.update_self, hpdu,
      Option.map_some, List.filterMap_nil, List.map_cons, List.map_nil]
    refine .go ?_
    exact sees_tx h rfl rfl rfl ⟨htx.free, fun _ => ⟨pdu, rfl⟩⟩
  · -- the selected process has no unit to send
    rw [if_neg hselected] at hids hunits
    rw [sendSelectedDown_eq hnone (by rw [hids]; rfl), hunits]
    simp only [framesOf, List.filterMap_nil, List.map_nil, List.append_nil]
    have hpair : c.view.sendSelectedDown =
        some ({ c.view with selectedAcid := HARQ_NONE }, []) := by
      rw [HarqPair.sendSelectedDown, if_neg (show ¬c.view.selectedAcid = HARQ_NONE from hnone)]
      have hstatus : (c.view.tx c.view.selectedAcid).status ≠ .SELECTED := hselected
      cases hcase : (c.view.tx c.view.selectedAcid).status with
      | SELECTED => exact absurd hcase hstatus
      | EMPTY => rfl
      | WAITING => rfl
      | BUFFERED => rfl
    rw [hpair]
    have hsame : Function.update c.view.tx c.tx.selectedAcid
        (c.tx.processes c.tx.selectedAcid).codeword0 = c.view.tx := Function.update_eq_self _ _
    refine .go (sees_tx h rfl rfl ?_ htx)
    rw [hsame]
    rfl

theorem receiveHarqFeedback_eq {fb : HarqFeedback} {rest : List HarqFeedback}
    (hpdu : ((c.tx.processes fb.acid).units 0).pduId = some fb.fbMacPduId) {p : LteHarqProcessTx}
    (hp : (c.tx.processes fb.acid).pduFeedback P.maxHarqRtx fb.result 0 = .ok p) :
    c.receiveHarqFeedback P fb rest =
      some ({ c with tx := c.tx.setProcess fb.acid p, feedback := rest },
        if (p.units 0).isEmpty then [.freed fb.fbMacPduId] else []) := by
  rw [receiveHarqFeedback, LteHarqBufferTx.receiveHarqFeedback, if_neg (not_not.2 hpdu.symm), hp]
  simp [Except.toOption, bind, Except.bind, pure, Except.pure, LteHarqBufferTx.setProcess]

theorem inStep_receiveHarqFeedback (hmax : P.maxHarqRtx + 1 < 4294967296) (h : c.Single P)
    (fb : HarqFeedback) (rest : List HarqFeedback) :
    Machine.InStep (Sees P) (c.view.receiveHarqFeedback P fb rest)
      (c.receiveHarqFeedback P fb rest) := by
  have hlimit : u32 (u32 P.maxHarqRtx + 1) = P.maxHarqRtx + 1 := by
    rw [u32_of_lt (show P.maxHarqRtx < 4294967296 by omega), u32_of_lt hmax]
  by_cases hpdu : ((c.tx.processes fb.acid).units 0).pduId = some fb.fbMacPduId
  · -- the feedback is for the PDU of the unit, which waits for it
    by_cases hwaiting : ((c.tx.processes fb.acid).units 0).status = .WAITING
    · -- an ACK or the last NACK resets the unit
      by_cases hdone : fb.result = true ∨
          ((c.tx.processes fb.acid).units 0).transmissions = P.maxHarqRtx + 1
      · have hp : (c.tx.processes fb.acid).pduFeedback P.maxHarqRtx fb.result 0 =
            .ok { (c.tx.processes fb.acid).setUnit 0 {} with
              numEmptyUnits := (c.tx.processes fb.acid).numEmptyUnits + 1 } := by
          simp [LteHarqProcessTx.pduFeedback, LteHarqUnitTx.pduFeedback, hwaiting, hdone,
            MAX_CODEWORDS, bind, Except.bind, pure, Except.pure]
        rw [receiveHarqFeedback_eq hpdu hp, show c.view.receiveHarqFeedback P fb rest = some _ from
          (if_neg (not_not.2 hpdu)).trans ((if_neg (not_not.2 hwaiting)).trans
            (if_pos (hlimit ▸ hdone)))]
        refine .go ?_
        exact sees_tx h rfl rfl rfl ⟨(h.tx fb.acid).free, fun hne => (hne rfl).elim⟩
      · have hp : (c.tx.processes fb.acid).pduFeedback P.maxHarqRtx fb.result 0 =
            .ok ((c.tx.processes fb.acid).setUnit 0
              { (c.tx.processes fb.acid).units 0 with status := .BUFFERED }) := by
          simp [LteHarqProcessTx.pduFeedback, LteHarqUnitTx.pduFeedback, hwaiting, hdone,
            MAX_CODEWORDS, bind, Except.bind, pure, Except.pure]
          rfl
        rw [receiveHarqFeedback_eq hpdu hp, show c.view.receiveHarqFeedback P fb rest = some _ from
          (if_neg (not_not.2 hpdu)).trans ((if_neg (not_not.2 hwaiting)).trans
            (if_neg (hlimit ▸ hdone)))]
        refine .go ?_
        exact sees_tx h rfl rfl rfl ⟨(h.tx fb.acid).free, fun _ => ⟨_, hpdu⟩⟩
    · -- the unit does not wait for feedback: both throw
      have hclass : c.receiveHarqFeedback P fb rest = none := by
        simp [receiveHarqFeedback, LteHarqBufferTx.receiveHarqFeedback,
          LteHarqProcessTx.pduFeedback, LteHarqUnitTx.pduFeedback, hpdu, hwaiting, MAX_CODEWORDS,
          Except.toOption, bind, Except.bind]
      rw [hclass, show c.view.receiveHarqFeedback P fb rest = none from
          (if_neg (not_not.2 hpdu)).trans (if_pos hwaiting)]
      exact .stop
  · -- the feedback is for another PDU: both throw
    have hclass : c.receiveHarqFeedback P fb rest = none := by
      rw [receiveHarqFeedback, LteHarqBufferTx.receiveHarqFeedback, if_pos (Ne.symm hpdu)]
      rfl
    rw [hclass, show c.view.receiveHarqFeedback P fb rest = none from if_pos hpdu]
    exact .stop

/-! ### The receiver keeps step -/

theorem inStep_receive (h : c.Single P) (f : HarqFrame) (decoded : Bool) :
    Machine.InStep (Sees P) (c.view.receive f decoded) (c.receive f decoded) := by
  have hrx := h.rx f.acid
  -- new data for a process that is not free: both throw
  by_cases hbusy : f.ndi = true ∧ ((c.rx f.acid).codewords 0).status ≠ .EMPTY
  · have hclass : c.receive f decoded = none := by
      simp [receive, LteHarqProcessRx.insertPdu, MAX_CODEWORDS, hbusy, Except.toOption]
    rw [hclass, show c.view.receive f decoded = none from if_pos hbusy]
    exact .stop
  -- a retransmission for a process that is not corrupted: both throw
  by_cases hold : ¬f.ndi = true ∧ ((c.rx f.acid).codewords 0).status ≠ .EMPTY ∧
      ((c.rx f.acid).codewords 0).status ≠ .CORRUPTED
  · have hclass : c.receive f decoded = none := by
      rw [receive, LteHarqProcessRx.insertPdu, if_neg (by decide)]
      dsimp only
      rw [if_neg hbusy, if_pos hold]
      rfl
    rw [hclass, show c.view.receive f decoded = none from (if_neg hbusy).trans (if_pos hold)]
    exact .stop
  have hclass : c.receive f decoded = some ({ c with
      frames := c.frames.erase f
      rx := Function.update c.rx f.acid { (c.rx f.acid).setCodeword 0 {
          pdu := some ⟨f.pdu, 0, 0, f.ndi, decoded⟩
          result := decoded
          status := .EVALUATING
          rxTime := c.now } with
        transmissions := u8 ((c.rx f.acid).transmissions + 1) } },
      [.received f.pdu decoded]) := by
    rw [receive, LteHarqProcessRx.insertPdu, if_neg (by decide)]
    dsimp only
    rw [if_neg hbusy, if_neg hold]
    rfl
  rw [hclass, show c.view.receive f decoded = some _ from (if_neg hbusy).trans (if_neg hold)]
  refine .go ⟨?_, h.tx, fun a => ?_⟩
  · unfold view
    congr 1
    exact Function.comp_update LteHarqProcessRx.codeword0 c.rx f.acid _
  · show RxSingle P a (Function.update c.rx f.acid _ a)
    rw [Function.update_apply]
    split
    · next ha =>
      subst ha
      exact ⟨fun _ => ⟨_, rfl⟩, hrx.acid, hrx.limit⟩
    · exact h.rx a

/-- `f` does with a process what `g` does with that of the pair, and says what `out` does. -/
def AsPair (P : HarqParams) {β : Type}
    (f : LteHarqProcessRx → Except HarqRxError (LteHarqProcessRx × List RxOutput))
    (g : HarqProcessRx → HarqProcessRx) (out : ℕ → HarqProcessRx → Option β)
    (seen : RxOutput → Option β) : Prop :=
  ∀ acid p, RxSingle P acid p → ∃ r, f p = .ok r ∧ RxSingle P acid r.1 ∧
    r.1.codeword0 = g p.codeword0 ∧ r.2.filterMap seen = (out acid p.codeword0).toList

/-- **One of the loops over the processes.** -/
theorem AsPair.onEach {β : Type}
    {f : LteHarqProcessRx → Except HarqRxError (LteHarqProcessRx × List RxOutput)}
    {g : HarqProcessRx → HarqProcessRx} {out : ℕ → HarqProcessRx → Option β}
    {seen : RxOutput → Option β} (hf : AsPair P f g out seen) {rx : ℕ → LteHarqProcessRx}
    (h : ∀ acid, RxSingle P acid (rx acid)) (n : ℕ) :
    ∃ rx' os, HarqClasses.onEach f n rx = .ok (rx', os) ∧ (∀ acid, RxSingle P acid (rx' acid)) ∧
      (∀ acid, n ≤ acid → rx' acid = rx acid) ∧
      (∀ acid < n, (rx' acid).codeword0 = g (rx acid).codeword0) ∧
      os.filterMap seen = (List.range n).filterMap fun acid => out acid (rx acid).codeword0 := by
  induction n with
  | zero =>
    exact ⟨rx, [], rfl, h, fun _ _ => rfl, fun _ hlt => absurd hlt (Nat.not_lt_zero _), rfl⟩
  | succ n ih =>
    obtain ⟨rx', os, hrun, hsingle, hrest, hview, hseen⟩ := ih
    obtain ⟨⟨p, o⟩, hp, hp', hg, ho⟩ := hf n (rx' n) (hsingle n)
    rw [hrest n le_rfl] at hg ho
    refine ⟨Function.update rx' n p, os ++ o, ?_, fun acid => ?_, fun acid hle => ?_,
      fun acid hlt => ?_, ?_⟩
    · rw [HarqClasses.onEach, List.range_succ, List.foldlM_append]
      show HarqClasses.onEach f n rx >>= _ = _
      rw [hrun]
      simp [hp, bind, Except.bind, pure, Except.pure]
    · rw [Function.update_apply]
      split
      · next hacid => exact hacid ▸ hp'
      · exact hsingle acid
    · rw [Function.update_of_ne (by omega)]
      exact hrest acid (by omega)
    · rw [Function.update_apply]
      split
      · next hacid => exact hacid ▸ hg
      · exact hview acid (by omega)
    · rw [List.filterMap_append, hseen, ho, List.range_succ, List.filterMap_append]
      congr 1

theorem asPair_sendFeedback (now : ℕ) : AsPair P (sendFeedback now)
    (HarqPair.createFeedback P now) (HarqPair.feedbackOf now) feedbackOf := by
  intro acid p h
  unfold sendFeedback HarqPair.createFeedback HarqPair.feedbackOf
  rw [show HarqPair.isEvaluated now p.codeword0 = p.isEvaluated now 0 from rfl]
  cases hev : p.isEvaluated now 0 with
  | false => exact ⟨(p, []), rfl, h, rfl, rfl⟩
  | true =>
    obtain ⟨pdu, hpdu⟩ := h.loaded fun hempty => by
      have hstatus := (of_decide_eq_true hev).1
      rw [hempty] at hstatus
      cases hstatus
    have hid : p.codeword0.pdu = some pdu.macPduId := congrArg (Option.map _) hpdu
    have hfb : feedbackOf (.feedback (p.feedbackFor 0 pdu)) =
        some ⟨acid, pdu.macPduId, p.codeword0.result⟩ := by
      rw [← h.acid]
      rfl
    have hok : p.createFeedback now 0 = .ok (p.answer 0 pdu) :=
      LteHarqProcessRx.createFeedback_eq_ok.2 ⟨by decide, hev, pdu, hpdu, rfl⟩
    refine ⟨p.answer 0 pdu, hok, ?_⟩
    rw [if_pos rfl, if_pos rfl]
    by_cases hresult : (p.codewords 0).result = true
    · rw [show p.answer 0 pdu = _ from if_neg (not_not.2 hresult),
        if_pos (show p.codeword0.result = true from hresult)]
      refine ⟨⟨fun _ => ⟨pdu, hpdu⟩, h.acid, h.limit⟩, rfl, ?_⟩
      simp [hfb, hid]
    rw [if_neg (show ¬p.codeword0.result = true from hresult)]
    by_cases hlast : p.transmissions = p.maxHarqRtx + 1
    · rw [show p.answer 0 pdu = _ from (if_pos hresult).trans (if_pos hlast),
        if_pos (show p.codeword0.transmissions = u8 P.maxHarqRtx + 1 from h.limit ▸ hlast)]
      refine ⟨⟨fun hne => (hne rfl).elim, h.acid, h.limit⟩, rfl, ?_⟩
      simp [hfb, hid, show feedbackOf (.reset 0) = none from rfl]
    · rw [show p.answer 0 pdu = _ from (if_pos hresult).trans (if_neg hlast),
        if_neg (show ¬p.codeword0.transmissions = u8 P.maxHarqRtx + 1 from h.limit ▸ hlast)]
      refine ⟨⟨fun _ => ⟨pdu, hpdu⟩, h.acid, h.limit⟩, rfl, ?_⟩
      simp [hfb, hid]

theorem asPair_extractCorrectPdu :
    AsPair P extractCorrectPdu HarqPair.extract (fun _ => HarqPair.extractedOf) extractedOf := by
  intro acid p h
  unfold extractCorrectPdu HarqPair.extract HarqPair.extractedOf
  dsimp only
  by_cases hcorrect : (p.codewords 0).status = .CORRECT
  · obtain ⟨pdu, hpdu⟩ := h.loaded fun hempty => by cases hcorrect.symm.trans hempty
    have hid : p.codeword0.pdu = some pdu.macPduId := congrArg (Option.map _) hpdu
    have hok : p.extractPdu 0 = .ok (p.resetCodeword 0, [.delivered 0 pdu, .reset 0]) := by
      rw [LteHarqProcessRx.extractPdu, if_neg (by decide), if_neg (not_not.2 hcorrect), hpdu]
    rw [if_pos hcorrect, if_pos (show p.codeword0.status = .CORRECT from hcorrect),
      if_pos (show p.codeword0.status = .CORRECT from hcorrect), hok, hid]
    exact ⟨_, rfl, ⟨fun hne => (hne rfl).elim, h.acid, h.limit⟩, rfl, rfl⟩
  · rw [if_neg hcorrect, if_neg (show ¬p.codeword0.status = .CORRECT from hcorrect),
      if_neg (show ¬p.codeword0.status = .CORRECT from hcorrect)]
    exact ⟨_, rfl, h, rfl, rfl⟩

theorem asPair_purgeCorruptedPdu : AsPair P (purgeCorruptedPdu P)
    (fun p => if P.purge then HarqPair.purgeCorrupted p else p) (fun _ _ => none)
    (fun _ => (none : Option Unit)) := by
  intro acid p h
  unfold purgeCorruptedPdu HarqPair.purgeCorrupted
  dsimp only
  cases P.purge with
  | false => exact ⟨_, rfl, h, rfl, rfl⟩
  | true =>
    by_cases hcorrupted : (p.codewords 0).status = .CORRUPTED
    · have hok : p.purge 0 = .ok ((p.purgeCorruptedPdu 0).resetCodeword 0, [.reset 0]) :=
        (if_neg (by decide)).trans (if_pos hcorrupted)
      rw [if_pos rfl, if_pos rfl, hok,
        if_pos (show p.codeword0.status = .CORRUPTED from hcorrupted)]
      exact ⟨_, rfl, ⟨fun hne => (hne rfl).elim, h.acid, h.limit⟩, rfl, rfl⟩
    · have hok : p.purge 0 = .ok (p, []) := (if_neg (by decide)).trans (if_neg hcorrupted)
      rw [if_pos rfl, if_pos rfl, hok,
        if_neg (show ¬p.codeword0.status = .CORRUPTED from hcorrupted)]
      exact ⟨_, rfl, h, rfl, rfl⟩

/-- The processes after a loop, as the pair has them. -/
theorem view_onProcesses {g : HarqProcessRx → HarqProcessRx} {rx rx' : ℕ → LteHarqProcessRx}
    (hrest : ∀ acid, P.numProc ≤ acid → rx' acid = rx acid)
    (hview : ∀ acid < P.numProc, (rx' acid).codeword0 = g (rx acid).codeword0) :
    (fun acid => (rx' acid).codeword0) =
      HarqPair.onProcesses P g fun acid => (rx acid).codeword0 := by
  funext acid
  unfold HarqPair.onProcesses
  split
  · next hlt => exact hview acid hlt
  · next hle => rw [hrest acid (Nat.le_of_not_lt hle)]

theorem inStep_rxTti (h : c.Single P) :
    Machine.InStep (Sees P) (some (c.view.rxTti P)) (c.rxTti P).toOption := by
  obtain ⟨rx₁, fbs, hfeedback, hsingle₁, hrest₁, hview₁, hseen₁⟩ :=
    (asPair_sendFeedback c.now).onEach h.rx P.numProc
  obtain ⟨rx₂, os, hextract, hsingle₂, hrest₂, hview₂, hseen₂⟩ :=
    asPair_extractCorrectPdu.onEach hsingle₁ P.numProc
  obtain ⟨rx₃, os', hpurge, hsingle₃, hrest₃, hview₃, -⟩ :=
    asPair_purgeCorruptedPdu.onEach hsingle₂ P.numProc
  have h₁ := view_onProcesses hrest₁ hview₁
  have h₂ := view_onProcesses hrest₂ hview₂
  have h₃ := view_onProcesses
    (g := fun p => if P.purge then HarqPair.purgeCorrupted p else p) hrest₃ hview₃
  have hclass : (c.rxTti P).toOption = some ({ c with
      rx := rx₃, feedback := c.feedback ++ fbs.filterMap feedbackOf },
      os.filterMap extractedOf) := by
    simp [rxTti, hfeedback, hextract, hpurge, Except.toOption, bind, Except.bind, pure,
      Except.pure]
  have hpair : c.view.rxTti P = ({ c.view with
        rx := fun acid => (rx₃ acid).codeword0
        feedback := c.feedback ++ (List.range P.numProc).filterMap fun acid =>
          HarqPair.feedbackOf c.now acid (c.rx acid).codeword0 },
      (List.range P.numProc).filterMap fun acid => HarqPair.extractedOf (rx₁ acid).codeword0) := by
    -- what comes up is read off after the feedback pass
    have hout : (fun acid => HarqPair.extractedOf (rx₁ acid).codeword0) = fun acid =>
        HarqPair.extractedOf (HarqPair.onProcesses P (HarqPair.createFeedback P c.now)
          (fun acid => (c.rx acid).codeword0) acid) := by
      funext acid
      rw [← congrFun h₁ acid]
    rw [hout, h₃, h₂, h₁]
    unfold HarqPair.rxTti HarqPair.purgeCorruptedPdus
    cases P.purge with
    | true => rfl
    | false =>
      have hid : ∀ rx, HarqPair.onProcesses P (fun p => p) rx = rx := by
        intro rx
        funext acid
        exact ite_self _
      simp only [Bool.false_eq_true, if_false, hid]
      rfl
  rw [hclass, hseen₁, hseen₂, hpair]
  exact .go ⟨rfl, h.tx, hsingle₃⟩

theorem inStep (hmax : P.maxHarqRtx + 1 < 4294967296) (s : HarqPair) (c : HarqClasses)
    (e : HarqPair.Event) (h : Sees P s c) :
    Machine.InStep (Sees P) ((HarqPair.machine P).step s e) ((machine P).step c e) := by
  obtain ⟨rfl, h⟩ := h
  unfold HarqPair.machine machine
  dsimp only
  by_cases hen : e.Enabled P c.view
  · rw [if_pos hen, if_pos hen]
    cases e with
    | insert acid pdu => exact inStep_insertPdu h acid pdu
    | markSelected acid => exact inStep_markSelected h acid
    | send => exact inStep_sendSelectedDown h
    | arrive f decoded => exact inStep_receive h f decoded
    | rxTti => exact inStep_rxTti h
    | feedback =>
      cases hfb : c.feedback with
      | nil => exact (hen hfb).elim
      | cons fb rest =>
        have hstep := inStep_receiveHarqFeedback hmax h fb rest
        unfold HarqPair.handle handle
        rw [show c.view.feedback = fb :: rest from hfb, hfb]
        exact hstep
    | tick => exact .go ⟨rfl, h.tx, h.rx⟩
  · rw [if_neg hen, if_neg hen]
    exact .stop

/-- **The classes put out what the pair does**, in every run, and can handle the same runs. -/
theorem exec_eq (hmax : P.maxHarqRtx + 1 < 4294967296) (es : List HarqPair.Event) :
    ((HarqPair.machine P).exec {} es).map Prod.snd =
      ((machine P).exec (initial P) es).map Prod.snd :=
  Machine.exec_snd_eq (inStep hmax) ⟨rfl, single_initial⟩ es

end HarqClasses

end V2nLte
