import V2nLte.Machine.Basic
import V2nLte.Machine.Word
import Mathlib.Data.List.Nodup
import Mathlib.Logic.Function.Basic

/-!
# H-ARQ with one codeword

A `LteHarqBufferTx` and the `LteHarqBufferRx` at the other side.  Every process of the sender
holds at most one PDU, in its unit for codeword 0; a PDU is sent, evaluated by the receiver, and
sent again on a NACK until the retransmissions are used up.  Both sides count the transmissions,
in an `unsigned char` each, and forget the PDU on their own when the limit is reached.

In between are the frames on the air, which arrive in any order and are decoded or not, and the
feedback, which arrives in order.  At a UE the receiver frees the corrupted PDUs in every TTI
(`purge`), at an eNB it does not.

`harq_exactly_once` is the main result.  Statistics, payloads and the dropping of processes
(handover, D2D mode switch) are left out.
-/

namespace V2nLte

/-- `TxHarqPduStatus`. -/
inductive TxHarqPduStatus where
  | EMPTY
  | SELECTED
  | WAITING
  | BUFFERED
  deriving DecidableEq

/-- `RxHarqPduStatus`. -/
inductive RxHarqPduStatus where
  | EMPTY
  | EVALUATING
  | CORRUPTED
  | CORRECT
  deriving DecidableEq

/-- No process is selected. -/
def HARQ_NONE : ℕ := 255

/-- `HARQ_FB_EVALUATION_INTERVAL`, in TTIs. -/
def HARQ_FB_EVALUATION_INTERVAL : ℕ := 3

/-- `LteHarqProcessTx` with its unit for codeword 0. -/
structure HarqProcessTx where
  /-- The id of the PDU in the unit. -/
  pduId : Option ℕ := none
  /-- The status of the unit. -/
  status : TxHarqPduStatus := .EMPTY
  /-- How often the PDU has been sent, an `unsigned char`. -/
  transmissions : ℕ := 0
  /-- Of the two units of the process. -/
  numEmptyUnits : ℕ := 2
  /-- The units that are to be sent in this TTI. -/
  numSelected : ℕ := 0

/-- `LteHarqProcessRx` for codeword 0. -/
structure HarqProcessRx where
  /-- The id of the PDU that has arrived. -/
  pdu : Option ℕ := none
  /-- Its status. -/
  status : RxHarqPduStatus := .EMPTY
  /-- When it has arrived. -/
  rxTime : ℕ := 0
  /-- Whether it was decoded. -/
  result : Bool := false
  /-- How often it has arrived, an `unsigned char`. -/
  transmissions : ℕ := 0

/-- A PDU on the air. -/
structure HarqFrame where
  /-- The process. -/
  acid : ℕ
  /-- The id of the PDU. -/
  pdu : ℕ
  /-- New data. -/
  ndi : Bool
  deriving DecidableEq

/-- `LteHarqFeedback`. -/
structure HarqFeedback where
  /-- The process. -/
  acid : ℕ
  /-- The id of the PDU that it is about. -/
  fbMacPduId : ℕ
  /-- Whether it is an ACK. -/
  result : Bool
  deriving DecidableEq

/-- What can be seen of the two sides. -/
inductive HarqOutput where
  /-- A PDU is sent. -/
  | sent (pdu : ℕ) (ndi : Bool)
  /-- A transmission of a PDU is decoded, or not. -/
  | received (pdu : ℕ) (decoded : Bool)
  /-- The receiver passes a PDU on. -/
  | extracted (pdu : ℕ)
  /-- The sender is done with a PDU. -/
  | freed (pdu : ℕ)
  deriving DecidableEq

/-- The PDU an output is about. -/
def HarqOutput.pdu : HarqOutput → ℕ
  | .sent p _ => p
  | .received p _ => p
  | .extracted p => p
  | .freed p => p

/-- The parameters of the two sides. -/
structure HarqParams where
  /-- `maxHarqRtx`. -/
  maxHarqRtx : ℕ
  /-- The number of processes. -/
  numProc : ℕ
  /-- The receiver frees corrupted PDUs in every TTI. -/
  purge : Bool

/-- A sender, a receiver and what is between them. -/
structure HarqPair where
  /-- The processes of the sender. -/
  tx : ℕ → HarqProcessTx := fun _ => {}
  /-- The process to be sent in this TTI. -/
  selectedAcid : ℕ := HARQ_NONE
  /-- The processes of the receiver. -/
  rx : ℕ → HarqProcessRx := fun _ => {}
  /-- The PDUs on the air. -/
  frames : List HarqFrame := []
  /-- The feedback on its way. -/
  feedback : List HarqFeedback := []
  /-- The time in TTIs. -/
  now : ℕ := 0
  /-- The ids of all the PDUs so far. -/
  used : List ℕ := []

namespace HarqPair

variable (P : HarqParams) (s : HarqPair)

/-! ### The sender -/

/-- `LteHarqBufferTx::insertPdu`. -/
def insertPdu (acid pdu : ℕ) : Option HarqPair :=
  let p := s.tx acid
  if s.selectedAcid = HARQ_NONE ∧ p.numEmptyUnits ≠ 2 then none
  else if p.status ≠ .EMPTY then none
  else
    some { s with
      selectedAcid := acid
      tx := Function.update s.tx acid {
        pduId := some pdu
        status := .SELECTED
        transmissions := 0
        numEmptyUnits := p.numEmptyUnits - 1
        numSelected := p.numSelected + 1 }
      used := pdu :: s.used }

/-- `LteHarqBufferTx::markSelected`, for a retransmission. -/
def markSelected (acid : ℕ) : Option HarqPair :=
  let p := s.tx acid
  if p.numSelected = 2 then none
  else if p.status ≠ .BUFFERED then none
  else
    some { s with
      selectedAcid := acid
      tx := Function.update s.tx acid
        { p with status := .SELECTED, numSelected := p.numSelected + 1 } }

/-- `LteHarqBufferTx::sendSelectedDown`. -/
def sendSelectedDown : Option (HarqPair × List HarqOutput) :=
  let p := s.tx s.selectedAcid
  if s.selectedAcid = HARQ_NONE then some (s, [])
  else
    match p.status, p.pduId with
    | .SELECTED, some pdu =>
      if p.numSelected = 0 then none
      else
        let transmissions := u8 (p.transmissions + 1)
        let ndi := transmissions == 1
        some ({ s with
          selectedAcid := HARQ_NONE
          tx := Function.update s.tx s.selectedAcid
            { p with status := .WAITING, transmissions, numSelected := p.numSelected - 1 }
          frames := s.frames ++ [⟨s.selectedAcid, pdu, ndi⟩] }, [.sent pdu ndi])
    | _, _ => some ({ s with selectedAcid := HARQ_NONE }, [])

/-- `LteHarqBufferTx::receiveHarqFeedback`, for the oldest feedback. -/
def receiveHarqFeedback (fb : HarqFeedback) (rest : List HarqFeedback) :
    Option (HarqPair × List HarqOutput) :=
  let p := s.tx fb.acid
  if p.pduId ≠ some fb.fbMacPduId then none
  else if p.status ≠ .WAITING then none
  else if fb.result ∨ p.transmissions = u32 (u32 P.maxHarqRtx + 1) then
    some ({ s with
      feedback := rest
      tx := Function.update s.tx fb.acid {
        numEmptyUnits := p.numEmptyUnits + 1
        numSelected := p.numSelected } }, [.freed fb.fbMacPduId])
  else
    some ({ s with
      feedback := rest
      tx := Function.update s.tx fb.acid { p with status := .BUFFERED } }, [])

/-! ### The receiver -/

/-- `LteHarqProcessRx::insertPdu`. -/
def receive (f : HarqFrame) (decoded : Bool) : Option (HarqPair × List HarqOutput) :=
  let p := s.rx f.acid
  if f.ndi ∧ p.status ≠ .EMPTY then none
  else if ¬ f.ndi ∧ p.status ≠ .EMPTY ∧ p.status ≠ .CORRUPTED then none
  else
    some ({ s with
      frames := s.frames.erase f
      rx := Function.update s.rx f.acid {
        pdu := some f.pdu
        status := .EVALUATING
        rxTime := s.now
        result := decoded
        transmissions := u8 (p.transmissions + 1) } }, [.received f.pdu decoded])

/-- A PDU has been evaluated. -/
def isEvaluated (now : ℕ) (p : HarqProcessRx) : Bool :=
  p.status = .EVALUATING ∧ HARQ_FB_EVALUATION_INTERVAL ≤ now - p.rxTime

/-- The feedback of a process, if there is something to say. -/
def feedbackOf (now acid : ℕ) (p : HarqProcessRx) : Option HarqFeedback :=
  if isEvaluated now p then p.pdu.map fun pdu => ⟨acid, pdu, p.result⟩ else none

/-- `resetCodeword`. -/
def resetCodeword : HarqProcessRx := {}

/-- The process after `createFeedback`.  The limit is an `unsigned char` here. -/
def createFeedback (now : ℕ) (p : HarqProcessRx) : HarqProcessRx :=
  if isEvaluated now p then
    if p.result then { p with status := .CORRECT }
    else if p.transmissions = u8 P.maxHarqRtx + 1 then resetCodeword
    else { p with status := .CORRUPTED }
  else p

/-- `extractPdu` for a PDU that is correct. -/
def extractedOf (p : HarqProcessRx) : Option HarqOutput :=
  if p.status = .CORRECT then p.pdu.map .extracted else none

/-- The process after `extractCorrectPdus`. -/
def extract (p : HarqProcessRx) : HarqProcessRx :=
  if p.status = .CORRECT then resetCodeword else p

/-- The process after `purgeCorruptedPdus`. -/
def purgeCorrupted (p : HarqProcessRx) : HarqProcessRx :=
  if p.status = .CORRUPTED then resetCodeword else p

/-- Apply `f` to every process of the receiver. -/
def onProcesses (f : HarqProcessRx → HarqProcessRx) (rx : ℕ → HarqProcessRx) (acid : ℕ) :
    HarqProcessRx :=
  if acid < P.numProc then f (rx acid) else rx acid

/-- `sendFeedback`. -/
def sendFeedback : HarqPair :=
  { s with
    rx := onProcesses P (createFeedback P s.now) s.rx
    feedback := s.feedback ++
      (List.range P.numProc).filterMap fun acid => feedbackOf s.now acid (s.rx acid) }

/-- `extractCorrectPdus`, after the feedback. -/
def extractCorrectPdus : HarqPair × List HarqOutput :=
  ({ s with rx := onProcesses P extract s.rx },
    (List.range P.numProc).filterMap fun acid => extractedOf (s.rx acid))

/-- `purgeCorruptedPdus`. -/
def purgeCorruptedPdus : HarqPair :=
  if P.purge then { s with rx := onProcesses P purgeCorrupted s.rx } else s

/-- What the receiver does in a TTI. -/
def rxTti : HarqPair × List HarqOutput :=
  let (s, out) := (s.sendFeedback P).extractCorrectPdus P
  (s.purgeCorruptedPdus P, out)

/-! ### The machine -/

/-- What can happen. -/
inductive Event where
  /-- A new PDU for a process. -/
  | insert (acid pdu : ℕ)
  /-- A retransmission is scheduled. -/
  | markSelected (acid : ℕ)
  /-- The selected process is sent. -/
  | send
  /-- A frame arrives. -/
  | arrive (f : HarqFrame) (decoded : Bool)
  /-- The main loop of the receiver. -/
  | rxTti
  /-- The oldest feedback arrives. -/
  | feedback
  /-- A TTI goes by. -/
  | tick
  deriving DecidableEq

/-- The event can happen now.  A new PDU goes to a process that is free, and its id is new. -/
def Event.Enabled : Event → Prop
  | .insert acid pdu =>
    acid < P.numProc ∧ acid < 256 ∧ (s.tx acid).status = .EMPTY ∧ pdu ∉ s.used
  | .markSelected acid => acid < P.numProc ∧ acid < 256 ∧ (s.tx acid).status = .BUFFERED
  | .send => True
  | .arrive f _ => f ∈ s.frames
  | .rxTti => True
  | .feedback => s.feedback ≠ []
  | .tick => True

instance (e : Event) : Decidable (e.Enabled P s) := by
  cases e <;> unfold Event.Enabled <;> infer_instance

/-- The handler of an event; an exception is `none`. -/
def handle : Event → Option (HarqPair × List HarqOutput)
  | .insert acid pdu => (s.insertPdu acid pdu).map (·, [])
  | .markSelected acid => (s.markSelected acid).map (·, [])
  | .send => s.sendSelectedDown
  | .arrive f decoded => s.receive f decoded
  | .rxTti => some (s.rxTti P)
  | .feedback =>
    match s.feedback with
    | [] => none
    | fb :: rest => s.receiveHarqFeedback P fb rest
  | .tick => some ({ s with now := s.now + 1 }, [])

/-- The two sides as a machine. -/
def machine : Machine HarqPair Event HarqOutput where
  step s e := if e.Enabled P s then s.handle P e else none

/-! ### The history of a PDU -/

/-- The `ndi`s of the transmissions of a PDU. -/
def sentOf (p : ℕ) (os : List HarqOutput) : List Bool :=
  os.filterMap fun
    | .sent q ndi => if q = p then some ndi else none
    | _ => none

/-- What has happened to a PDU: its transmissions, whether one of them was decoded, and how often
it was passed on. -/
structure Hist (p : ℕ) (os : List HarqOutput) (ndis : List Bool) (decoded : Bool) (n : ℕ) :
    Prop where
  sent : sentOf p os = ndis
  received : HarqOutput.received p true ∈ os ↔ decoded = true
  extracted : os.count (.extracted p) = n

section

variable {p : ℕ} {os o : List HarqOutput} {l l' : List Bool} {d d' : Bool} {n n' : ℕ}

theorem Hist.append (h : Hist p os l d n) (h' : Hist p o l' d' n') :
    Hist p (os ++ o) (l ++ l') (d || d') (n + n') := by
  refine ⟨?_, ?_, ?_⟩
  · rw [← h.sent, ← h'.sent]
    exact List.filterMap_append
  · rw [List.mem_append, h.received, h'.received, Bool.or_eq_true]
  · rw [List.count_append, h.extracted, h'.extracted]

/-- Outputs about other PDUs. -/
theorem hist_other (h : ∀ x ∈ o, x.pdu ≠ p) : Hist p o [] false 0 := by
  refine ⟨List.filterMap_eq_nil_iff.2 fun x hx => ?_, ?_, ?_⟩
  · have hne := h x hx
    cases x with
    | sent q ndi => exact if_neg hne
    | received q d => rfl
    | extracted q => rfl
    | freed q => rfl
  · refine ⟨fun hmem => (h _ hmem rfl).elim, fun hf => by cases hf⟩
  · exact List.count_eq_zero.2 fun hmem => h _ hmem rfl

theorem Hist.keep (h : Hist p os l d n) (ho : ∀ x ∈ o, x.pdu ≠ p) : Hist p (os ++ o) l d n := by
  simpa using h.append (hist_other ho)

end

/-- The `ndi`s of the first `k` transmissions of a PDU: only the first is new data. -/
def ndis : ℕ → List Bool
  | 0 => []
  | k + 1 => true :: List.replicate k false

theorem ndis_succ (k : ℕ) : ndis k ++ [k == 0] = ndis (k + 1) := by
  cases k with
  | zero => rfl
  | succ k => simp [ndis, List.replicate_succ']

theorem ndis_length (k : ℕ) : (ndis k).length = k := by
  cases k <;> simp [ndis]

theorem ndis_getElem {k i : ℕ} {ndi : Bool} (h : (ndis k)[i]? = some ndi) :
    ndi = true ↔ i = 0 := by
  cases k with
  | zero => cases h
  | succ k =>
    cases i with
    | zero => simpa [ndis] using h.symm
    | succ i =>
      simp only [ndis, List.getElem?_cons_succ, List.getElem?_replicate] at h
      split at h
      · obtain rfl := Option.some.inj h
        simp
      · cases h

/-! ### The phases of a process -/

/-- A process of the receiver is free. -/
def Free (r : HarqProcessRx) : Prop := r.status = .EMPTY ∧ r.transmissions = 0

/-- A process of the receiver when `k` transmissions have failed.  Where nothing is purged it has
counted them all, and has forgotten about them when they were the last. -/
def Rested (P : HarqParams) (k : ℕ) (r : HarqProcessRx) : Prop :=
  Free r ∧ (P.purge = true ∨ k = 0 ∨ k = P.maxHarqRtx + 1) ∨
    r.status = .CORRUPTED ∧
      (P.purge = true ∨ r.transmissions = k ∧ 1 ≤ k ∧ k ≤ P.maxHarqRtx)

/-- Where a process stands: the two sides, and its frames and feedback on the way. -/
inductive Phase (P : HarqParams) (os : List HarqOutput) (acid : ℕ) :
    HarqProcessTx → HarqProcessRx → List HarqFrame → List HarqFeedback → Prop
  | idle {r : HarqProcessRx} (hr : Free r) : Phase P os acid {} r [] []
  | selected {p k : ℕ} {r : HarqProcessRx} (hk : k ≤ P.maxHarqRtx) (hr : Rested P k r)
      (hh : Hist p os (ndis k) false 0) :
      Phase P os acid ⟨some p, .SELECTED, k, 1, 1⟩ r [] []
  | flying {p k : ℕ} {r : HarqProcessRx} (hk : k ≤ P.maxHarqRtx) (hr : Rested P k r)
      (hh : Hist p os (ndis (k + 1)) false 0) :
      Phase P os acid ⟨some p, .WAITING, k + 1, 1, 0⟩ r [⟨acid, p, k == 0⟩] []
  | evaluating {p k : ℕ} {r : HarqProcessRx} (hk : k ≤ P.maxHarqRtx)
      (hstatus : r.status = .EVALUATING) (hpdu : r.pdu = some p)
      (htx : r.transmissions = if P.purge then 1 else k + 1)
      (hh : Hist p os (ndis (k + 1)) r.result 0) :
      Phase P os acid ⟨some p, .WAITING, k + 1, 1, 0⟩ r [] []
  | correct {p k : ℕ} {r : HarqProcessRx} (hk : k ≤ P.maxHarqRtx) (hstatus : r.status = .CORRECT)
      (hpdu : r.pdu = some p) (hh : Hist p os (ndis (k + 1)) true 0) :
      Phase P os acid ⟨some p, .WAITING, k + 1, 1, 0⟩ r [] [⟨acid, p, true⟩]
  | acked {p k : ℕ} {r : HarqProcessRx} (hk : k ≤ P.maxHarqRtx) (hr : Free r)
      (hh : Hist p os (ndis (k + 1)) true 1) :
      Phase P os acid ⟨some p, .WAITING, k + 1, 1, 0⟩ r [] [⟨acid, p, true⟩]
  | nacked {p k : ℕ} {r : HarqProcessRx} (hk : k ≤ P.maxHarqRtx) (hr : Rested P (k + 1) r)
      (hh : Hist p os (ndis (k + 1)) false 0) :
      Phase P os acid ⟨some p, .WAITING, k + 1, 1, 0⟩ r [] [⟨acid, p, false⟩]
  | buffered {p k : ℕ} {r : HarqProcessRx} (hk : k + 1 ≤ P.maxHarqRtx) (hr : Rested P (k + 1) r)
      (hh : Hist p os (ndis (k + 1)) false 0) :
      Phase P os acid ⟨some p, .BUFFERED, k + 1, 1, 0⟩ r [] []

section

variable {P : HarqParams} {os o : List HarqOutput} {acid : ℕ} {t : HarqProcessTx}
  {r : HarqProcessRx} {fr : List HarqFrame} {fb : List HarqFeedback}

theorem Rested.status {k : ℕ} (h : Rested P k r) :
    r.status = .EMPTY ∨ r.status = .CORRUPTED := by
  rcases h with ⟨h, -⟩ | ⟨h, -⟩
  · exact .inl h.1
  · exact .inr h

/-- What happens to other PDUs does not matter. -/
theorem Phase.keep (h : Phase P os acid t r fr fb)
    (ho : ∀ p, t.pduId = some p → ∀ x ∈ o, x.pdu ≠ p) : Phase P (os ++ o) acid t r fr fb := by
  cases h with
  | idle hr => exact .idle hr
  | selected hk hr hh => exact .selected hk hr (hh.keep (ho _ rfl))
  | flying hk hr hh => exact .flying hk hr (hh.keep (ho _ rfl))
  | evaluating hk hs hp ht hh => exact .evaluating hk hs hp ht (hh.keep (ho _ rfl))
  | correct hk hs hp hh => exact .correct hk hs hp (hh.keep (ho _ rfl))
  | acked hk hr hh => exact .acked hk hr (hh.keep (ho _ rfl))
  | nacked hk hr hh => exact .nacked hk hr (hh.keep (ho _ rfl))
  | buffered hk hr hh => exact .buffered hk hr (hh.keep (ho _ rfl))

theorem createFeedback_of_status {now : ℕ} (h : r.status ≠ .EVALUATING) :
    createFeedback P now r = r ∧ feedbackOf now acid r = none := by
  have hnot : isEvaluated now r = false := by simp [isEvaluated, h]
  simp [createFeedback, feedbackOf, hnot]

/-- The receiver sends its feedback. -/
theorem Phase.sendFeedback (hlim : P.maxHarqRtx ≤ 254) (h : Phase P os acid t r fr fb) (now : ℕ) :
    Phase P os acid t (createFeedback P now r) fr (fb ++ (feedbackOf now acid r).toList) := by
  have hsame : r.status ≠ .EVALUATING →
      Phase P os acid t (createFeedback P now r) fr (fb ++ (feedbackOf now acid r).toList) := by
    intro hne
    obtain ⟨h₁, h₂⟩ : createFeedback P now r = r ∧ feedbackOf now acid r = none :=
      createFeedback_of_status hne
    rw [h₁, h₂]
    simpa using h
  have hrested : ∀ k, Rested P k r → r.status ≠ .EVALUATING := by
    intro k hr heq
    rcases hr.status with h | h <;> rw [h] at heq <;> cases heq
  have hfree : Free r → r.status ≠ .EVALUATING := by
    intro hr heq
    rw [hr.1] at heq
    cases heq
  -- only a process that is being evaluated can answer
  cases h with
  | idle hr => exact hsame (hfree hr)
  | selected hk hr hh => exact hsame (hrested _ hr)
  | flying hk hr hh => exact hsame (hrested _ hr)
  | correct hk hs hp hh => exact hsame (by rw [hs]; decide)
  | acked hk hr hh => exact hsame (hfree hr)
  | nacked hk hr hh => exact hsame (hrested _ hr)
  | buffered hk hr hh => exact hsame (hrested _ hr)
  | @evaluating p k r hk hs hp ht hh =>
    by_cases hev : isEvaluated now r = true
    · have hfb : feedbackOf now acid r = some ⟨acid, p, r.result⟩ := by
        simp [feedbackOf, hev, hp]
      rw [hfb, createFeedback, if_pos hev]
      -- the answer is an ACK
      cases hres : r.result with
      | true =>
        rw [hres] at hh
        exact .correct hk rfl hp hh
      | false =>
        rw [hres] at hh
        simp only [Bool.false_eq_true, if_false]
        have hu8 : u8 P.maxHarqRtx = P.maxHarqRtx := Nat.mod_eq_of_lt (by omega)
        rw [hu8]
        -- the answer is a NACK, and the last one frees the receiver
        refine .nacked hk ?_ hh
        split
        · rename_i hlast
          refine .inl ⟨⟨rfl, rfl⟩, ?_⟩
          cases hpurge : P.purge with
          | true => exact .inl rfl
          | false =>
            rw [hpurge] at ht
            exact .inr (.inr (by simpa [ht] using hlast))
        · rename_i hlast
          refine .inr ⟨rfl, ?_⟩
          cases hpurge : P.purge with
          | true => exact .inl rfl
          | false =>
            rw [hpurge] at ht
            have htk : r.transmissions = k + 1 := by simpa using ht
            exact .inr ⟨htk, by omega, by omega⟩
    · -- it is not yet time for the answer
      have hev' : isEvaluated now r = false := by simpa using hev
      have h₁ : createFeedback P now r = r := by simp [createFeedback, hev']
      have h₂ : feedbackOf now acid r = none := by simp [feedbackOf, hev']
      rw [h₁, h₂]
      simpa using Phase.evaluating hk hs hp ht hh

/-- A correct PDU is passed on. -/
theorem Phase.extract (h : Phase P os acid t r fr fb)
    (ho : ∀ p, t.pduId = some p → Hist p o [] false (if r.status = .CORRECT then 1 else 0)) :
    Phase P (os ++ o) acid t (extract r) fr fb := by
  have hrested : ∀ k, Rested P k r → r.status ≠ .CORRECT := by
    intro k hr heq
    rcases hr.status with h | h <;> rw [h] at heq <;> cases heq
  have hfree : Free r → r.status ≠ .CORRECT := by
    intro hr heq
    rw [hr.1] at heq
    cases heq
  have hsame : r.status ≠ .CORRECT → HarqPair.extract r = r := fun hne => if_neg hne
  have hnone : ∀ {p l d n}, t.pduId = some p → r.status ≠ .CORRECT → Hist p os l d n →
      Hist p (os ++ o) l d n := by
    intro p l d n hp hne hh
    have := ho p hp
    rw [if_neg hne] at this
    simpa using hh.append this
  -- only a process with a decoded PDU gives one up
  cases h with
  | idle hr =>
    rw [hsame (hfree hr)]
    exact .idle hr
  | selected hk hr hh =>
    rw [hsame (hrested _ hr)]
    exact .selected hk hr (hnone rfl (hrested _ hr) hh)
  | flying hk hr hh =>
    rw [hsame (hrested _ hr)]
    exact .flying hk hr (hnone rfl (hrested _ hr) hh)
  | evaluating hk hs hp ht hh =>
    have hne : r.status ≠ .CORRECT := by rw [hs]; decide
    rw [hsame hne]
    exact .evaluating hk hs hp ht (hnone rfl hne hh)
  | @correct p k r hk hs hp hh =>
    have := ho p rfl
    rw [if_pos hs] at this
    rw [show HarqPair.extract r = resetCodeword from if_pos hs]
    exact .acked hk ⟨rfl, rfl⟩ (by simpa using hh.append this)
  | acked hk hr hh =>
    rw [hsame (hfree hr)]
    exact .acked hk hr (hnone rfl (hfree hr) hh)
  | nacked hk hr hh =>
    rw [hsame (hrested _ hr)]
    exact .nacked hk hr (hnone rfl (hrested _ hr) hh)
  | buffered hk hr hh =>
    rw [hsame (hrested _ hr)]
    exact .buffered hk hr (hnone rfl (hrested _ hr) hh)

theorem Phase.of_empty (h : Phase P os acid t r fr fb) (ht : t.status = .EMPTY) :
    t = {} ∧ Free r ∧ fr = [] ∧ fb = [] := by
  cases h with
  | idle hr => exact ⟨rfl, hr, rfl, rfl⟩
  | selected => cases ht
  | flying => cases ht
  | evaluating => cases ht
  | correct => cases ht
  | acked => cases ht
  | nacked => cases ht
  | buffered => cases ht

theorem Phase.of_selected (h : Phase P os acid t r fr fb) (ht : t.status = .SELECTED) :
    ∃ p k, t = ⟨some p, .SELECTED, k, 1, 1⟩ ∧ k ≤ P.maxHarqRtx ∧ Rested P k r ∧ fr = [] ∧
      fb = [] ∧ Hist p os (ndis k) false 0 := by
  cases h with
  | idle => cases ht
  | selected hk hr hh => exact ⟨_, _, rfl, hk, hr, rfl, rfl, hh⟩
  | flying => cases ht
  | evaluating => cases ht
  | correct => cases ht
  | acked => cases ht
  | nacked => cases ht
  | buffered => cases ht

theorem Phase.of_buffered (h : Phase P os acid t r fr fb) (ht : t.status = .BUFFERED) :
    ∃ p k, t = ⟨some p, .BUFFERED, k + 1, 1, 0⟩ ∧ k + 1 ≤ P.maxHarqRtx ∧ Rested P (k + 1) r ∧
      fr = [] ∧ fb = [] ∧ Hist p os (ndis (k + 1)) false 0 := by
  cases h with
  | idle => cases ht
  | selected => cases ht
  | flying => cases ht
  | evaluating => cases ht
  | correct => cases ht
  | acked => cases ht
  | nacked => cases ht
  | buffered hk hr hh => exact ⟨_, _, rfl, hk, hr, rfl, rfl, hh⟩

theorem Phase.of_frame (h : Phase P os acid t r fr fb) {f : HarqFrame} (hf : f ∈ fr) :
    ∃ p k, t = ⟨some p, .WAITING, k + 1, 1, 0⟩ ∧ k ≤ P.maxHarqRtx ∧ Rested P k r ∧
      fr = [⟨acid, p, k == 0⟩] ∧ fb = [] ∧ Hist p os (ndis (k + 1)) false 0 := by
  cases h with
  | idle => cases hf
  | selected => cases hf
  | flying hk hr hh => exact ⟨_, _, rfl, hk, hr, rfl, rfl, hh⟩
  | evaluating => cases hf
  | correct => cases hf
  | acked => cases hf
  | nacked => cases hf
  | buffered => cases hf

/-- Feedback is on its way: the receiver has passed the PDU on, or is ready for another try. -/
theorem Phase.of_feedback (h : Phase P os acid t r fr fb) (hs : r.status ≠ .CORRECT)
    {x : HarqFeedback} (hx : x ∈ fb) :
    ∃ p k, t = ⟨some p, .WAITING, k + 1, 1, 0⟩ ∧ k ≤ P.maxHarqRtx ∧ fr = [] ∧
      (fb = [⟨acid, p, true⟩] ∧ Free r ∧ Hist p os (ndis (k + 1)) true 1 ∨
        fb = [⟨acid, p, false⟩] ∧ Rested P (k + 1) r ∧ Hist p os (ndis (k + 1)) false 0) := by
  cases h with
  | idle => cases hx
  | selected => cases hx
  | flying => cases hx
  | evaluating => cases hx
  | correct hk hs' hp hh => exact (hs hs').elim
  | acked hk hr hh => exact ⟨_, _, rfl, hk, rfl, .inl ⟨rfl, hr, hh⟩⟩
  | nacked hk hr hh => exact ⟨_, _, rfl, hk, rfl, .inr ⟨rfl, hr, hh⟩⟩
  | buffered => cases hx

/-- Corrupted PDUs are purged. -/
theorem Phase.purge (h : Phase P os acid t r fr fb) (hpurge : P.purge = true) :
    Phase P os acid t (purgeCorrupted r) fr fb := by
  by_cases hs : r.status = .CORRUPTED
  · rw [show purgeCorrupted r = resetCodeword from if_pos hs]
    have hrested : ∀ k, Rested P k resetCodeword := fun k => .inl ⟨⟨rfl, rfl⟩, .inl hpurge⟩
    cases h with
    | idle hr => exact .idle ⟨rfl, rfl⟩
    | selected hk hr hh => exact .selected hk (hrested _) hh
    | flying hk hr hh => exact .flying hk (hrested _) hh
    | evaluating hk hs' hp ht hh => rw [hs] at hs'; cases hs'
    | correct hk hs' hp hh => rw [hs] at hs'; cases hs'
    | acked hk hr hh => exact .acked hk ⟨rfl, rfl⟩ hh
    | nacked hk hr hh => exact .nacked hk (hrested _) hh
    | buffered hk hr hh => exact .buffered hk (hrested _) hh
  · rw [show purgeCorrupted r = r from if_neg hs]
    exact h

end

/-! ### The invariant -/

/-- A process of the receiver between two events. -/
def Settled (P : HarqParams) (r : HarqProcessRx) : Prop :=
  r.status ≠ .CORRECT ∧ (P.purge = true → r.status ≠ .CORRUPTED)

/-- What holds between two events, after the outputs `os`. -/
structure Inv (P : HarqParams) (s : HarqPair) (os : List HarqOutput) : Prop where
  phase : ∀ acid, Phase P os acid (s.tx acid) (s.rx acid) (s.frames.filter (·.acid = acid))
    (s.feedback.filter (·.acid = acid))
  settled : ∀ acid, Settled P (s.rx acid)
  range : ∀ acid, P.numProc ≤ acid → (s.tx acid).pduId = none
  inj : ∀ a b p, (s.tx a).pduId = some p → (s.tx b).pduId = some p → a = b
  used : ∀ a p, (s.tx a).pduId = some p → p ∈ s.used
  fresh : ∀ p, p ∉ s.used → ∀ x ∈ os, x.pdu ≠ p
  /-- A PDU that the sender is done with. -/
  done : ∀ p ∈ s.used, (∀ a, (s.tx a).pduId ≠ some p) →
    ∃ k d, k ≤ P.maxHarqRtx + 1 ∧ Hist p os (ndis k) d (if d then 1 else 0)
  freed : ∀ p, HarqOutput.freed p ∈ os → p ∈ s.used ∧ ∀ a, (s.tx a).pduId ≠ some p

section

variable {P : HarqParams} {s s' : HarqPair} {os o : List HarqOutput} {a : ℕ} {t : HarqProcessTx}
  {r : HarqProcessRx}

theorem inv_initial (P : HarqParams) : Inv P {} [] := by
  refine ⟨fun acid => .idle ⟨rfl, rfl⟩, fun acid => ⟨RxHarqPduStatus.noConfusion, fun _ =>
      RxHarqPduStatus.noConfusion⟩, fun _ _ => rfl, fun a b p h => ?_, fun a p h => ?_,
      fun p _ x hx => ?_, fun p hp => ?_,
    fun p hp => ?_⟩
  · cases h
  · cases h
  · cases hx
  · cases hp
  · cases hp

/-- An event at the process `a`, which keeps its PDU. -/
theorem Inv.update (h : Inv P s os) (htx : s'.tx = Function.update s.tx a t)
    (hrx : s'.rx = Function.update s.rx a r)
    (hframes : ∀ b, b ≠ a → s'.frames.filter (·.acid = b) = s.frames.filter (·.acid = b))
    (hfeedback : ∀ b, b ≠ a → s'.feedback.filter (·.acid = b) = s.feedback.filter (·.acid = b))
    (hused : s'.used = s.used) (hpdu : t.pduId = (s.tx a).pduId)
    (ho : ∀ x ∈ o, (s.tx a).pduId = some x.pdu) (hfreed : ∀ p, HarqOutput.freed p ∉ o)
    (hphase : Phase P (os ++ o) a t r (s'.frames.filter (·.acid = a))
      (s'.feedback.filter (·.acid = a)))
    (hsettled : Settled P r) : Inv P s' (os ++ o) := by
  -- no process changes its PDU
  have hid : ∀ b, (s'.tx b).pduId = (s.tx b).pduId := by
    intro b
    rw [htx]
    by_cases hb : b = a
    · subst hb; rw [Function.update_self, hpdu]
    · rw [Function.update_of_ne hb]
  refine ⟨fun b => ?_, fun b => ?_, fun b hb => ?_, fun b c p hb hc => ?_, fun b p hb => ?_,
    fun p hp x hx => ?_, fun p hp hnone => ?_, fun p hp => ?_⟩
  · by_cases hb : b = a
    · subst hb
      rw [htx, hrx, Function.update_self, Function.update_self]
      exact hphase
    · rw [htx, hrx, Function.update_of_ne hb, Function.update_of_ne hb, hframes b hb,
        hfeedback b hb]
      -- the output is about the PDU of the process `a`
      refine (h.phase b).keep fun p hp x hx heq => hb ?_
      exact h.inj b a p hp (heq ▸ ho x hx)
  · rw [hrx]
    by_cases hb : b = a
    · subst hb; rw [Function.update_self]; exact hsettled
    · rw [Function.update_of_ne hb]; exact h.settled b
  · rw [hid]; exact h.range b hb
  · rw [hid] at hb hc; exact h.inj b c p hb hc
  · rw [hid] at hb; rw [hused]; exact h.used b p hb
  · rw [hused] at hp
    rcases List.mem_append.1 hx with hx | hx
    · exact h.fresh p hp x hx
    · exact fun heq => hp (heq ▸ h.used a _ (ho x hx))
  · rw [hused] at hp
    simp only [hid] at hnone
    obtain ⟨k, d, hk, hh⟩ := h.done p hp hnone
    exact ⟨k, d, hk, hh.keep fun x hx heq => hnone a (heq ▸ ho x hx)⟩
  · rcases List.mem_append.1 hp with hp | hp
    · simp only [hused, hid]
      exact h.freed p hp
    · exact (hfreed p hp).elim

/-- An event that is not seen by any process. -/
theorem Inv.congr (h : Inv P s os) (htx : s'.tx = s.tx) (hrx : s'.rx = s.rx)
    (hframes : s'.frames = s.frames) (hfeedback : s'.feedback = s.feedback)
    (hused : s'.used = s.used) : Inv P s' (os ++ []) := by
  rw [List.append_nil]
  obtain ⟨h₁, h₂, h₃, h₄, h₅, h₆, h₇, h₈⟩ := h
  constructor <;> simp only [htx, hrx, hframes, hfeedback, hused] <;> assumption

theorem inv_insert (h : Inv P s os) {p : ℕ} (ha : a < P.numProc)
    (hempty : (s.tx a).status = .EMPTY) (hp : p ∉ s.used) :
    ∃ s', s.insertPdu a p = some s' ∧ Inv P s' (os ++ []) := by
  obtain ⟨ht, hr, hfr, hfb⟩ := (h.phase a).of_empty hempty
  have hinsert : s.insertPdu a p = some { s with
      selectedAcid := a
      tx := Function.update s.tx a ⟨some p, .SELECTED, 0, 1, 1⟩
      used := p :: s.used } := by
    simp [insertPdu, ht]
  have hnew : ∀ b q, (s.tx b).pduId = some q → q ≠ p := fun b q hb heq =>
    hp (heq ▸ h.used b q hb)
  have hid : ∀ b q, (Function.update s.tx a ⟨some p, .SELECTED, 0, 1, 1⟩ b).pduId = some q →
      b = a ∧ q = p ∨ b ≠ a ∧ (s.tx b).pduId = some q := by
    intro b q hb
    by_cases hba : b = a
    · subst hba
      rw [Function.update_self] at hb
      exact .inl ⟨rfl, (Option.some.inj hb).symm⟩
    · rw [Function.update_of_ne hba] at hb
      exact .inr ⟨hba, hb⟩
  refine ⟨_, hinsert, ?_⟩
  rw [List.append_nil]
  refine ⟨fun b => ?_, h.settled, fun b hb => ?_, fun b c q hb hc => ?_, fun b q hb => ?_,
    fun q hq x hx => ?_, fun q hq hnone => ?_, fun q hq => ?_⟩
  · -- the new PDU has been through nothing
    by_cases hb : b = a
    · subst hb
      simp only [Function.update_self, hfr, hfb]
      refine .selected (Nat.zero_le _) (.inl ⟨hr, .inr (.inl rfl)⟩) ?_
      exact hist_other fun x hx => h.fresh p hp x hx
    · simp only [Function.update_of_ne hb]
      exact h.phase b
  · have hne : b ≠ a := by omega
    simp only [Function.update_of_ne hne]
    exact h.range b hb
  · rcases hid b q hb with ⟨rfl, rfl⟩ | ⟨hba, hb⟩
    · rcases hid c q hc with ⟨rfl, -⟩ | ⟨-, hc⟩
      · rfl
      · exact (hnew c q hc rfl).elim
    · rcases hid c q hc with ⟨-, hqp⟩ | ⟨-, hc⟩
      · exact (hnew b q hb hqp).elim
      · exact h.inj b c q hb hc
  · rcases hid b q hb with ⟨-, rfl⟩ | ⟨-, hb⟩
    · exact List.mem_cons_self ..
    · exact List.mem_cons_of_mem p (h.used b q hb)
  · exact h.fresh q (fun hmem => hq (List.mem_cons_of_mem p hmem)) x hx
  · -- a PDU that was done stays done
    have hqp : q ≠ p := by
      rintro rfl
      exact hnone a (by simp)
    refine h.done q ((List.mem_cons.1 hq).resolve_left hqp) fun b hb => ?_
    by_cases hba : b = a
    · subst hba
      rw [ht] at hb
      cases hb
    · exact hnone b (by simpa only [Function.update_of_ne hba] using hb)
  · obtain ⟨hmem, hnone⟩ := h.freed q hq
    refine ⟨List.mem_cons_of_mem p hmem, fun b hb => ?_⟩
    rcases hid b q hb with ⟨-, rfl⟩ | ⟨-, hb⟩
    · exact hp hmem
    · exact hnone b hb

theorem inv_markSelected (h : Inv P s os) (hready : (s.tx a).status = .BUFFERED) :
    ∃ s', s.markSelected a = some s' ∧ Inv P s' (os ++ []) := by
  obtain ⟨p, k, ht, hk, hr, hfr, hfb, hh⟩ := (h.phase a).of_buffered hready
  refine ⟨{ s with
    selectedAcid := a
    tx := Function.update s.tx a ⟨some p, .SELECTED, k + 1, 1, 1⟩ }, by simp [markSelected, ht], ?_⟩
  refine h.update rfl (Function.update_eq_self a s.rx).symm (fun _ _ => rfl) (fun _ _ => rfl) rfl
    (by rw [ht]) (fun x hx => by cases hx) (fun p hp => by cases hp) ?_ (h.settled a)
  rw [List.append_nil, hfr, hfb]
  exact .selected hk hr hh

theorem filter_append_single {l : List HarqFrame} {f : HarqFrame} {b : ℕ} :
    (l ++ [f]).filter (·.acid = b) =
      l.filter (·.acid = b) ++ if f.acid = b then [f] else [] := by
  rw [List.filter_append]
  by_cases hb : f.acid = b
  · simp [hb]
  · simp [hb]

theorem inv_send (h : Inv P s os) (hlim : P.maxHarqRtx ≤ 254) :
    ∃ s' o, s.sendSelectedDown = some (s', o) ∧ Inv P s' (os ++ o) := by
  unfold sendSelectedDown
  dsimp only
  split
  · exact ⟨s, [], rfl, h.congr rfl rfl rfl rfl rfl⟩
  by_cases hsel : (s.tx s.selectedAcid).status = .SELECTED
  · obtain ⟨p, k, ht, hk, hr, hfr, hfb, hh⟩ := (h.phase s.selectedAcid).of_selected hsel
    have hu8 : u8 (k + 1) = k + 1 := Nat.mod_eq_of_lt (by omega)
    have hndi : (k + 1 == 1) = (k == 0) := by simp
    simp only [ht, hu8, hndi, Nat.one_ne_zero, if_false]
    refine ⟨_, _, rfl, h.update rfl (Function.update_eq_self s.selectedAcid s.rx).symm
      (fun b hb => ?_) (fun _ _ => rfl) rfl (by rw [ht]) (fun x hx => ?_) (fun q hq => ?_) ?_
      (h.settled _)⟩
    · rw [filter_append_single, if_neg (Ne.symm hb), List.append_nil]
    · rw [List.mem_singleton.1 hx, ht]
      rfl
    · cases List.mem_singleton.1 hq
    · rw [filter_append_single, if_pos rfl, hfr, hfb]
      refine .flying hk hr ?_
      have hone : Hist p [.sent p (k == 0)] [k == 0] false 0 :=
        ⟨by simp [sentOf], by simp, by simp⟩
      simpa [ndis_succ] using hh.append hone
  · split
    · rename_i hs _
      exact (hsel hs).elim
    · exact ⟨_, [], rfl, h.congr rfl rfl rfl rfl rfl⟩

theorem filter_erase {l : List HarqFrame} {f : HarqFrame} {b : ℕ} :
    (l.erase f).filter (·.acid = b) =
      if f.acid = b then (l.filter (·.acid = b)).erase f else l.filter (·.acid = b) := by
  induction l with
  | nil => simp
  | cons x l ih =>
    by_cases hx : x = f
    · subst hx
      by_cases hb : x.acid = b
      · simp [hb]
      · simp [hb]
    · have hne : (x == f) = false := by simpa using hx
      rw [List.erase_cons_tail (by simp [hx])]
      by_cases hb : x.acid = b
      · rw [List.filter_cons_of_pos (by simpa using hb),
          List.filter_cons_of_pos (by simpa using hb),
          ih]
        split
        · rw [List.erase_cons_tail (by simp [hx])]
        · rfl
      · rw [List.filter_cons_of_neg (by simpa using hb),
          List.filter_cons_of_neg (by simpa using hb),
          ih]

theorem Rested.settled {k : ℕ} (h : Rested P k r) (hs : Settled P r) :
    Free r ∧ (P.purge = true ∨ k = 0 ∨ k = P.maxHarqRtx + 1) ∨
      P.purge = false ∧ r.status = .CORRUPTED ∧ r.transmissions = k ∧ 1 ≤ k ∧
        k ≤ P.maxHarqRtx := by
  rcases h with hfree | ⟨hc, hpurge | hrest⟩
  · exact .inl hfree
  · exact (hs.2 hpurge hc).elim
  · refine .inr ⟨?_, hc, hrest⟩
    cases hp : P.purge with
    | true => exact (hs.2 hp hc).elim
    | false => rfl

theorem inv_arrive (h : Inv P s os) (hlim : P.maxHarqRtx ≤ 254) {f : HarqFrame}
    (hf : f ∈ s.frames) (decoded : Bool) :
    ∃ s' o, s.receive f decoded = some (s', o) ∧ Inv P s' (os ++ o) := by
  have hmem : f ∈ s.frames.filter (·.acid = f.acid) := List.mem_filter.2 ⟨hf, by simp⟩
  obtain ⟨p, k, ht, hk, hr, hfr, hfb, hh⟩ := (h.phase f.acid).of_frame hmem
  rw [hfr] at hmem
  have hfp : f.pdu = p ∧ f.ndi = (k == 0) := by
    have := List.mem_singleton.1 hmem
    exact ⟨congrArg HarqFrame.pdu this, congrArg HarqFrame.ndi this⟩
  obtain ⟨hpdu, hndi⟩ := hfp
  -- the first transmission finds the process free, a later one free or corrupted
  have hcase := hr.settled (h.settled f.acid)
  have hok : ¬ (f.ndi = true ∧ (s.rx f.acid).status ≠ .EMPTY) ∧
      ¬ (¬ f.ndi = true ∧ (s.rx f.acid).status ≠ .EMPTY ∧
        (s.rx f.acid).status ≠ .CORRUPTED) := by
    rcases hcase with ⟨hfree, -⟩ | ⟨-, hc, -, hpos, -⟩
    · exact ⟨fun hbad => hbad.2 hfree.1, fun hbad => hbad.2.1 hfree.1⟩
    · refine ⟨fun hbad => ?_, fun hbad => hbad.2.2 hc⟩
      rw [hndi] at hbad
      have := beq_iff_eq.1 hbad.1
      omega
  have htx : u8 ((s.rx f.acid).transmissions + 1) = if P.purge then 1 else k + 1 := by
    rcases hcase with ⟨hfree, hwhy⟩ | ⟨hp, -, htk, -, -⟩
    · rw [hfree.2]
      cases hp : P.purge with
      | true => rfl
      | false =>
        rw [hp] at hwhy
        obtain rfl : k = 0 := by simp at hwhy; omega
        rfl
    · rw [hp, htk]
      exact Nat.mod_eq_of_lt (by omega)
  unfold receive
  dsimp only
  rw [if_neg hok.1, if_neg hok.2]
  refine ⟨_, _, rfl, h.update (Function.update_eq_self f.acid s.tx).symm rfl (fun b hb => ?_)
    (fun _ _ => rfl) rfl rfl (fun x hx => ?_) (fun q hq => ?_) ?_ ⟨?_, fun _ => ?_⟩⟩
  · rw [filter_erase, if_neg (Ne.symm hb)]
  · rw [List.mem_singleton.1 hx, ht, hpdu]
    rfl
  · cases List.mem_singleton.1 hq
  · rw [filter_erase, if_pos rfl, hfr, ← List.mem_singleton.1 hmem, List.erase_cons_head, hfb, ht]
    refine .evaluating hk rfl (by rw [hpdu]) htx ?_
    have hone : Hist p [.received f.pdu decoded] [] decoded 0 := by
      rw [hpdu]
      refine ⟨rfl, ?_, by simp⟩
      cases decoded <;> simp
    simpa using hh.append hone
  · exact RxHarqPduStatus.noConfusion
  · exact RxHarqPduStatus.noConfusion

/-- The sender is done with the PDU of the process `a`. -/
theorem inv_free (h : Inv P s os) {p k : ℕ} {d : Bool} {rest : List HarqFeedback}
    (ht : (s.tx a).pduId = some p) (hr : Free (s.rx a))
    (hfr : s.frames.filter (·.acid = a) = []) (hrest : rest.filter (·.acid = a) = [])
    (hothers : ∀ b, b ≠ a → rest.filter (·.acid = b) = s.feedback.filter (·.acid = b))
    (hk : k ≤ P.maxHarqRtx + 1) (hh : Hist p os (ndis k) d (if d then 1 else 0)) :
    Inv P { s with feedback := rest, tx := Function.update s.tx a {} } (os ++ [.freed p]) := by
  have hid : ∀ b q, (Function.update s.tx a {} b).pduId = some q →
      b ≠ a ∧ (s.tx b).pduId = some q := by
    intro b q hb
    by_cases hba : b = a
    · subst hba
      rw [Function.update_self] at hb
      cases hb
    · rw [Function.update_of_ne hba] at hb
      exact ⟨hba, hb⟩
  have hother : ∀ q, q ≠ p → ∀ x ∈ [HarqOutput.freed p], x.pdu ≠ q := by
    intro q hq x hx
    rw [List.mem_singleton.1 hx]
    exact Ne.symm hq
  refine ⟨fun b => ?_, h.settled, fun b hb => ?_, fun b c q hb hc => ?_, fun b q hb => ?_,
    fun q hq => ?_, fun q hq hnone => ?_, fun q hq => ?_⟩
  · -- the process that has been freed is idle
    by_cases hb : b = a
    · subst hb
      simp only [Function.update_self, hfr, hrest]
      exact .idle hr
    · simp only [Function.update_of_ne hb, hothers b hb]
      refine (h.phase b).keep fun q hq => hother q ?_
      rintro rfl
      exact hb (h.inj b a q hq ht)
  · by_cases hba : b = a
    · subst hba; simp only [Function.update_self]
    · simp only [Function.update_of_ne hba]; exact h.range b hb
  · exact h.inj b c q (hid b q hb).2 (hid c q hc).2
  · exact h.used b q (hid b q hb).2
  · intro x hx
    rcases List.mem_append.1 hx with hx | hx
    · exact h.fresh q hq x hx
    · refine hother q ?_ x hx
      rintro rfl
      exact hq (h.used a q ht)
  · -- the PDU that has been freed is done, with what its frames amount to
    by_cases hqp : q = p
    · subst hqp
      refine ⟨k, d, hk, ?_⟩
      have hone : Hist q [.freed q] [] false 0 := ⟨rfl, by simp, by simp⟩
      simpa using hh.append hone
    · obtain ⟨k', d', hk', hh'⟩ := h.done q hq fun b hb => by
        by_cases hba : b = a
        · subst hba
          exact hqp (Option.some.inj (hb.symm.trans ht))
        · exact hnone b (by simpa only [Function.update_of_ne hba] using hb)
      exact ⟨k', d', hk', hh'.keep (hother q hqp)⟩
  · rcases List.mem_append.1 hq with hq | hq
    · obtain ⟨hmem, hnone⟩ := h.freed q hq
      exact ⟨hmem, fun b hb => hnone b (hid b q hb).2⟩
    · obtain rfl : q = p := HarqOutput.freed.inj (List.mem_singleton.1 hq)
      refine ⟨h.used a q ht, fun b hb => ?_⟩
      obtain ⟨hba, hb⟩ := hid b q hb
      exact hba (h.inj b a q hb ht)

/-- The feedback says that the PDU was decoded, or that its last transmission was not. -/
def Final (P : HarqParams) (os : List HarqOutput) (fb : HarqFeedback) : Prop :=
  fb.result = true ∨ (sentOf fb.fbMacPduId os).length = P.maxHarqRtx + 1

/-- The units of a process are free at both sides. -/
def UnitsFree (s : HarqPair) (acid : ℕ) : Prop :=
  (s.tx acid).status = .EMPTY ∧ (s.rx acid).status = .EMPTY

/-- Feedback is handled, and if it is final, both units of its process are free. -/
theorem inv_feedback (h : Inv P s os) (hlim : P.maxHarqRtx ≤ 254) {fb : HarqFeedback}
    {rest : List HarqFeedback} (hfb : s.feedback = fb :: rest) :
    ∃ s' o, s.receiveHarqFeedback P fb rest = some (s', o) ∧ Inv P s' (os ++ o) ∧
      (Final P os fb → UnitsFree s' fb.acid ∧ HarqOutput.freed fb.fbMacPduId ∈ o) := by
  have hhead : s.feedback.filter (·.acid = fb.acid) = fb :: rest.filter (·.acid = fb.acid) := by
    rw [hfb, List.filter_cons_of_pos (by simp)]
  have hothers : ∀ b, b ≠ fb.acid →
      rest.filter (·.acid = b) = s.feedback.filter (·.acid = b) := by
    intro b hb
    rw [hfb, List.filter_cons_of_neg (by simpa using Ne.symm hb)]
  have hphase := h.phase fb.acid
  rw [hhead] at hphase
  obtain ⟨p, k, ht, hk, hfr, hcase⟩ :=
    hphase.of_feedback (h.settled fb.acid).1 (List.mem_cons_self ..)
  have hlimit : u32 (u32 P.maxHarqRtx + 1) = P.maxHarqRtx + 1 := by
    rw [u32_of_lt (show P.maxHarqRtx < 4294967296 by omega), u32_of_lt (by omega)]
  have hpdu : (s.tx fb.acid).pduId = some p := by rw [ht]
  rcases hcase with ⟨hlist, hfree, hh⟩ | ⟨hlist, hr, hh⟩
  · -- an ACK
    obtain ⟨hx, hrest⟩ := List.cons.inj hlist
    have hid : fb.fbMacPduId = p := congrArg HarqFeedback.fbMacPduId hx
    have hres : fb.result = true := congrArg HarqFeedback.result hx
    have hrun : s.receiveHarqFeedback P fb rest = some ({ s with
        feedback := rest, tx := Function.update s.tx fb.acid {} }, [.freed p]) := by
      simp [receiveHarqFeedback, ht, hid, hres]
    refine ⟨_, _, hrun, inv_free h hpdu hfree hfr hrest hothers (Nat.succ_le_succ hk) hh,
      fun _ => ⟨⟨?_, hfree.1⟩, by simp [hid]⟩⟩
    simp
  · -- a NACK
    obtain ⟨hx, hrest⟩ := List.cons.inj hlist
    have hid : fb.fbMacPduId = p := congrArg HarqFeedback.fbMacPduId hx
    have hres : fb.result = false := congrArg HarqFeedback.result hx
    by_cases hlast : k = P.maxHarqRtx
    · -- the last NACK: the receiver is free, too
      have hfree : Free (s.rx fb.acid) := by
        rcases hr.settled (h.settled fb.acid) with ⟨hfree, -⟩ | ⟨-, -, -, -, hle⟩
        · exact hfree
        · omega
      have hrun : s.receiveHarqFeedback P fb rest = some ({ s with
          feedback := rest, tx := Function.update s.tx fb.acid {} }, [.freed p]) := by
        simp [receiveHarqFeedback, ht, hid, hres, hlimit, hlast]
      refine ⟨_, _, hrun, inv_free h hpdu hfree hfr hrest hothers (Nat.succ_le_succ hk) hh,
        fun _ => ⟨⟨?_, hfree.1⟩, by simp [hid]⟩⟩
      simp
    · have hrun : s.receiveHarqFeedback P fb rest = some ({ s with
          feedback := rest
          tx := Function.update s.tx fb.acid ⟨some p, .BUFFERED, k + 1, 1, 0⟩ }, []) := by
        simp [receiveHarqFeedback, ht, hid, hres, hlimit, hlast]
      refine ⟨_, _, hrun, h.update rfl (Function.update_eq_self fb.acid s.rx).symm
        (fun _ _ => rfl) hothers rfl hpdu.symm (fun x hx => by cases hx) (fun q hq => by cases hq)
        ?_ (h.settled _), fun hfinal => ?_⟩
      · rw [List.append_nil, hfr, hrest]
        exact .buffered (by omega) hr hh
      · -- a NACK, and not the last one
        rw [Final, hres, hid, hh.sent, ndis_length] at hfinal
        simp only [Bool.false_eq_true, false_or] at hfinal
        omega

/-! ### A TTI of the receiver -/

/-- Of the processes in a list, only one has entries with its own id. -/
theorem filter_filterMap {g : ℕ → Option HarqFeedback} (hg : ∀ b x, g b = some x → x.acid = b)
    {l : List ℕ} (hl : l.Nodup) (b : ℕ) :
    (l.filterMap g).filter (·.acid = b) = if b ∈ l then (g b).toList else [] := by
  induction l with
  | nil => rfl
  | cons c l ih =>
    obtain ⟨hc, hnodup⟩ := List.nodup_cons.1 hl
    cases hgc : g c with
    | none =>
      rw [List.filterMap_cons_none hgc, ih hnodup]
      by_cases hbc : b = c
      · subst hbc
        simp [hc, hgc]
      · simp [hbc]
    | some x =>
      rw [List.filterMap_cons_some hgc]
      by_cases hbc : b = c
      · subst hbc
        rw [List.filter_cons_of_pos (by simpa using hg b x hgc), ih hnodup]
        simp [hc, hgc]
      · rw [List.filter_cons_of_neg (by simpa [hg c x hgc] using Ne.symm hbc), ih hnodup]
        simp [hbc]

theorem feedbackOf_acid {now b : ℕ} {q : HarqProcessRx} {x : HarqFeedback}
    (h : feedbackOf now b q = some x) : x.acid = b := by
  unfold feedbackOf at h
  split at h
  · obtain ⟨p, -, rfl⟩ := Option.map_eq_some_iff.1 h
    rfl
  · cases h

/-- A correct PDU is the one the sender waits for. -/
theorem Phase.of_correct {os : List HarqOutput} {fr : List HarqFrame} {fb : List HarqFeedback}
    (h : Phase P os a t r fr fb) (hs : r.status = .CORRECT) :
    ∃ p, t.pduId = some p ∧ r.pdu = some p := by
  have hfree : ¬ Free r := fun hr => by rw [hr.1] at hs; cases hs
  have hrested : ∀ k, ¬ Rested P k r := fun k hr => by
    rcases hr.status with h | h <;> rw [h] at hs <;> cases hs
  cases h with
  | idle hr => exact (hfree hr).elim
  | selected hk hr => exact (hrested _ hr).elim
  | flying hk hr => exact (hrested _ hr).elim
  | evaluating hk hs' => rw [hs] at hs'; cases hs'
  | correct hk hs' hp => exact ⟨_, rfl, hp⟩
  | acked hk hr => exact (hfree hr).elim
  | nacked hk hr => exact (hrested _ hr).elim
  | buffered hk hr => exact (hrested _ hr).elim

/-- The phases after the feedback was sent. -/
theorem phase_sendFeedback (h : Inv P s os) (hlim : P.maxHarqRtx ≤ 254) (b : ℕ) :
    Phase P os b ((s.sendFeedback P).tx b) ((s.sendFeedback P).rx b)
      ((s.sendFeedback P).frames.filter (·.acid = b))
      ((s.sendFeedback P).feedback.filter (·.acid = b)) := by
  have hfilter : (s.sendFeedback P).feedback.filter (·.acid = b) =
      s.feedback.filter (·.acid = b) ++
        if b < P.numProc then (feedbackOf s.now b (s.rx b)).toList else [] := by
    simp only [HarqPair.sendFeedback, List.filter_append]
    rw [filter_filterMap (fun _ _ => feedbackOf_acid) List.nodup_range]
    simp
  rw [hfilter]
  simp only [HarqPair.sendFeedback, onProcesses]
  by_cases hb : b < P.numProc
  · rw [if_pos hb, if_pos hb]
    exact (h.phase b).sendFeedback hlim s.now
  · rw [if_neg hb, if_neg hb, List.append_nil]
    exact h.phase b

theorem extractedOf_eq_some {q : HarqProcessRx} {x : HarqOutput} :
    extractedOf q = some x ↔ q.status = .CORRECT ∧ ∃ p, q.pdu = some p ∧ x = .extracted p := by
  unfold extractedOf
  split
  · rename_i hs
    simp [hs, Option.map_eq_some_iff, eq_comm]
  · rename_i hs
    simp [hs]

/-- What the PDUs passed on in a TTI mean for the PDU `p`. -/
theorem hist_extractCorrectPdus (hphase : ∀ b, Phase P os b (s.tx b) (s.rx b)
      (s.frames.filter (·.acid = b)) (s.feedback.filter (·.acid = b)))
    (hinj : ∀ a b p, (s.tx a).pduId = some p → (s.tx b).pduId = some p → a = b)
    (hrange : ∀ b, P.numProc ≤ b → (s.tx b).pduId = none) (p : ℕ) :
    (∀ b, (s.tx b).pduId = some p → Hist p (s.extractCorrectPdus P).2 [] false
      (if (s.rx b).status = .CORRECT then 1 else 0)) ∧
    ((∀ b, (s.tx b).pduId ≠ some p) → ∀ x ∈ (s.extractCorrectPdus P).2, x.pdu ≠ p) := by
  -- what comes up are the PDUs of the decoded processes
  have hmem : ∀ x, x ∈ (s.extractCorrectPdus P).2 ↔ ∃ c q, c < P.numProc ∧
      (s.rx c).status = .CORRECT ∧ (s.tx c).pduId = some q ∧ x = .extracted q := by
    intro x
    simp only [extractCorrectPdus, List.mem_filterMap, List.mem_range, extractedOf_eq_some]
    constructor
    · rintro ⟨c, hc, hs, q, hq, rfl⟩
      obtain ⟨q', htx, hrx⟩ := (hphase c).of_correct hs
      obtain rfl : q' = q := Option.some.inj (hrx.symm.trans hq)
      exact ⟨c, q', hc, hs, htx, rfl⟩
    · rintro ⟨c, q, hc, hs, htx, rfl⟩
      obtain ⟨q', htx', hrx⟩ := (hphase c).of_correct hs
      obtain rfl : q' = q := Option.some.inj (htx'.symm.trans htx)
      exact ⟨c, hc, hs, q', hrx, rfl⟩
  -- two processes do not hold the same PDU
  have hnodup : (s.extractCorrectPdus P).2.Nodup := by
    refine List.Nodup.filterMap (fun c c' x hx hx' => ?_) List.nodup_range
    obtain ⟨hs, q, hq, rfl⟩ := extractedOf_eq_some.1 (Option.mem_def.1 hx)
    obtain ⟨hs', q', hq', heq⟩ := extractedOf_eq_some.1 (Option.mem_def.1 hx')
    obtain rfl : q = q' := HarqOutput.extracted.inj heq
    obtain ⟨y, htx, hrx⟩ := (hphase c).of_correct hs
    obtain ⟨y', htx', hrx'⟩ := (hphase c').of_correct hs'
    obtain rfl : y = q := Option.some.inj (hrx.symm.trans hq)
    obtain rfl : y' = y := Option.some.inj (hrx'.symm.trans hq')
    exact hinj c c' y' htx htx'
  constructor
  · intro b hb
    refine ⟨List.filterMap_eq_nil_iff.2 fun x hx => ?_, ?_, ?_⟩
    · obtain ⟨c, q, -, -, -, rfl⟩ := (hmem x).1 hx
      rfl
    · refine ⟨fun hx => ?_, fun hf => by cases hf⟩
      obtain ⟨c, q, -, -, -, heq⟩ := (hmem _).1 hx
      cases heq
    · split
      · rename_i hs
        refine List.count_eq_one_of_mem hnodup ((hmem _).2 ⟨b, p, ?_, hs, hb, rfl⟩)
        by_contra hlt
        rw [hrange b (by omega)] at hb
        cases hb
      · rename_i hs
        refine List.count_eq_zero.2 fun hx => hs ?_
        obtain ⟨c, q, -, hc, htx, heq⟩ := (hmem _).1 hx
        obtain rfl : p = q := HarqOutput.extracted.inj heq
        rwa [hinj b c p hb htx]
  · intro hnone x hx heq
    obtain ⟨c, q, -, -, htx, rfl⟩ := (hmem x).1 hx
    exact hnone c (heq ▸ htx)

theorem settled_rxTti (h : Inv P s os) (b : ℕ) : Settled P ((s.rxTti P).1.rx b) := by
  have hextract : ∀ q : HarqProcessRx, (HarqPair.extract q).status ≠ .CORRECT := by
    intro q
    unfold HarqPair.extract
    split
    · exact RxHarqPduStatus.noConfusion
    · assumption
  have hpurge : ∀ q : HarqProcessRx, (purgeCorrupted q).status ≠ .CORRUPTED ∧
      (q.status ≠ .CORRECT → (purgeCorrupted q).status ≠ .CORRECT) := by
    intro q
    unfold purgeCorrupted
    split
    · exact ⟨RxHarqPduStatus.noConfusion, fun _ => RxHarqPduStatus.noConfusion⟩
    · exact ⟨‹_›, fun h => h⟩
  by_cases hb : b < P.numProc
  · simp only [rxTti, purgeCorruptedPdus, extractCorrectPdus, HarqPair.sendFeedback]
    split
    · simp only [onProcesses, if_pos hb]
      exact ⟨(hpurge _).2 (hextract _), fun _ => (hpurge _).1⟩
    · rename_i hp
      simp only [onProcesses, if_pos hb]
      exact ⟨hextract _, fun htrue => (hp htrue).elim⟩
  · have hsame : (s.rxTti P).1.rx b = s.rx b := by
      simp only [rxTti, purgeCorruptedPdus, extractCorrectPdus, HarqPair.sendFeedback]
      split <;> simp only [onProcesses, if_neg hb]
    rw [hsame]
    exact h.settled b

theorem inv_rxTti (h : Inv P s os) (hlim : P.maxHarqRtx ≤ 254) :
    Inv P (s.rxTti P).1 (os ++ (s.rxTti P).2) := by
  have hfb := phase_sendFeedback h hlim
  have hhist := hist_extractCorrectPdus (s := s.sendFeedback P) hfb h.inj h.range
  have htx : (s.rxTti P).1.tx = s.tx := by
    simp only [rxTti, purgeCorruptedPdus]
    split <;> rfl
  have hused : (s.rxTti P).1.used = s.used := by
    simp only [rxTti, purgeCorruptedPdus]
    split <;> rfl
  have hout : (s.rxTti P).2 = ((s.sendFeedback P).extractCorrectPdus P).2 := rfl
  -- the three passes over the processes, one after the other
  have hextract : ∀ b, Phase P (os ++ (s.rxTti P).2) b (s.tx b)
      (((s.sendFeedback P).extractCorrectPdus P).1.rx b)
      ((s.sendFeedback P).frames.filter (·.acid = b))
      ((s.sendFeedback P).feedback.filter (·.acid = b)) := by
    intro b
    by_cases hb : b < P.numProc
    · simp only [extractCorrectPdus, onProcesses, if_pos hb]
      exact (hfb b).extract fun p hp => (hhist p).1 b hp
    · simp only [extractCorrectPdus, onProcesses, if_neg hb]
      refine (hfb b).keep fun p hp => ?_
      rw [show ((s.sendFeedback P).tx b).pduId = none from h.range b (by omega)] at hp
      cases hp
  refine ⟨fun b => ?_, settled_rxTti h, ?_, ?_, ?_, ?_, ?_, ?_⟩
  · have hb := hextract b
    rw [htx]
    simp only [rxTti, purgeCorruptedPdus]
    split
    · rename_i hpurge
      simp only [onProcesses]
      split
      · exact hb.purge hpurge
      · exact hb
    · exact hb
  · rw [htx]; exact h.range
  · rw [htx]; exact h.inj
  · rw [htx, hused]; exact h.used
  · rw [hused]
    intro p hp x hx
    rcases List.mem_append.1 hx with hx | hx
    · exact h.fresh p hp x hx
    · exact (hhist p).2 (fun b hb => hp (h.used b p hb)) x hx
  · rw [htx, hused]
    intro p hp hnone
    obtain ⟨k, d, hk, hh⟩ := h.done p hp hnone
    exact ⟨k, d, hk, hh.keep ((hhist p).2 hnone)⟩
  · rw [htx, hused]
    intro p hp
    rcases List.mem_append.1 hp with hp | hp
    · exact h.freed p hp
    · rw [hout] at hp
      simp only [extractCorrectPdus, List.mem_filterMap, extractedOf_eq_some] at hp
      obtain ⟨c, -, -, q, -, heq⟩ := hp
      cases heq

/-! ### Whole runs -/

/-- One event: it does not throw, and it keeps the invariant. -/
theorem inv_handle (h : Inv P s os) (hlim : P.maxHarqRtx ≤ 254) {e : Event}
    (hen : e.Enabled P s) : ∃ s' o, s.handle P e = some (s', o) ∧ Inv P s' (os ++ o) := by
  cases e with
  | insert acid pdu =>
    obtain ⟨s', hrun, hinv⟩ := inv_insert h hen.1 hen.2.2.1 hen.2.2.2
    exact ⟨s', [], by simp [handle, hrun], hinv⟩
  | markSelected acid =>
    obtain ⟨s', hrun, hinv⟩ := inv_markSelected h hen.2.2
    exact ⟨s', [], by simp [handle, hrun], hinv⟩
  | send => exact inv_send h hlim
  | arrive f decoded => exact inv_arrive h hlim hen decoded
  | rxTti => exact ⟨_, _, rfl, inv_rxTti h hlim⟩
  | feedback =>
    obtain ⟨fb, rest, hfb⟩ := List.exists_cons_of_ne_nil hen
    obtain ⟨s', o, hrun, hinv, -⟩ := inv_feedback h hlim hfb
    exact ⟨s', o, by simp only [handle, hfb, hrun], hinv⟩
  | tick => exact ⟨_, [], rfl, h.congr rfl rfl rfl rfl rfl⟩

theorem step_eq_some {e : Event} :
    (machine P).step s e = some (s', o) ↔ e.Enabled P s ∧ s.handle P e = some (s', o) := by
  simp [machine]

theorem inv_exec (hlim : P.maxHarqRtx ≤ 254) {es : List Event}
    (hrun : (machine P).exec {} es = some (s, os)) : Inv P s os := by
  refine Machine.exec_induction (J := fun _ s os => Inv P s os) (inv_initial P) ?_ hrun
  intro es s os e s' o _ hinv hstep
  obtain ⟨hen, hhandle⟩ := step_eq_some.1 hstep
  obtain ⟨s₁, o₁, heq, hinv'⟩ := inv_handle hinv hlim hen
  rw [heq] at hhandle
  obtain ⟨rfl, rfl⟩ := Prod.mk.inj (Option.some.inj hhandle)
  exact hinv'

/-- What is known of a PDU, whether the sender still has it or not. -/
structure Account (P : HarqParams) (s : HarqPair) (os : List HarqOutput) (p : ℕ) : Prop where
  /-- The transmissions, of which only the first is marked as new data. -/
  sent : ∃ k, k ≤ P.maxHarqRtx + 1 ∧ sentOf p os = ndis k
  once : os.count (.extracted p) ≤ 1
  sound : HarqOutput.extracted p ∈ os → HarqOutput.received p true ∈ os
  /-- A decoded PDU was passed on, or the receiver is still at it. -/
  complete : HarqOutput.received p true ∈ os → HarqOutput.extracted p ∈ os ∨
    ∃ a, (s.tx a).pduId = some p ∧ (s.rx a).status = .EVALUATING ∧ (s.rx a).pdu = some p ∧
      (s.rx a).result = true

theorem Hist.account {p k n : ℕ} {d : Bool} (h : Hist p os (ndis k) d n)
    (hk : k ≤ P.maxHarqRtx + 1) (hn : n ≤ 1) (hsound : 0 < n → d = true)
    (hcomplete : d = true → 0 < n ∨
      ∃ a, (s.tx a).pduId = some p ∧ (s.rx a).status = .EVALUATING ∧ (s.rx a).pdu = some p ∧
        (s.rx a).result = true) : Account P s os p := by
  have hmem : HarqOutput.extracted p ∈ os ↔ 0 < n := by
    rw [← h.extracted, List.count_pos_iff]
  refine ⟨⟨k, hk, h.sent⟩, h.extracted.trans_le hn, fun hx => ?_, fun hx => ?_⟩
  · exact h.received.2 (hsound (hmem.1 hx))
  · rw [hmem]
    exact hcomplete (h.received.1 hx)

/-- The account of a PDU that the sender has. -/
theorem Phase.account {p : ℕ} {fr : List HarqFrame} {fb : List HarqFeedback}
    (h : Phase P os a t r fr fb) (hs : r.status ≠ .CORRECT) (ht : t.pduId = some p) :
    ∃ k d n, Hist p os (ndis k) d n ∧ k ≤ P.maxHarqRtx + 1 ∧ n ≤ 1 ∧ (0 < n → d = true) ∧
      (d = true → 0 < n ∨ r.status = .EVALUATING ∧ r.pdu = some p ∧ r.result = true) := by
  have hwaits : ∀ {k}, Hist p os (ndis k) false 0 → k ≤ P.maxHarqRtx + 1 →
      ∃ k d n, Hist p os (ndis k) d n ∧ k ≤ P.maxHarqRtx + 1 ∧ n ≤ 1 ∧ (0 < n → d = true) ∧
        (d = true → 0 < n ∨ r.status = .EVALUATING ∧ r.pdu = some p ∧ r.result = true) :=
    fun hh hk => ⟨_, _, _, hh, hk, Nat.zero_le 1, fun h0 => (lt_irrefl 0 h0).elim,
      fun hf => by cases hf⟩
  cases h with
  | idle => cases ht
  | selected hk _ hh =>
    obtain rfl := Option.some.inj ht
    exact hwaits hh (by omega)
  | flying hk _ hh =>
    obtain rfl := Option.some.inj ht
    exact hwaits hh (by omega)
  | evaluating hk hst hp _ hh =>
    obtain rfl := Option.some.inj ht
    exact ⟨_, _, _, hh, by omega, Nat.zero_le 1, fun h0 => (lt_irrefl 0 h0).elim,
      fun hd => .inr ⟨hst, hp, hd⟩⟩
  | correct hk hst => exact (hs hst).elim
  | acked hk _ hh =>
    obtain rfl := Option.some.inj ht
    exact ⟨_, _, _, hh, by omega, le_rfl, fun _ => rfl, fun _ => .inl Nat.one_pos⟩
  | nacked hk _ hh =>
    obtain rfl := Option.some.inj ht
    exact hwaits hh (by omega)
  | buffered hk _ hh =>
    obtain rfl := Option.some.inj ht
    exact hwaits hh (by omega)

theorem Inv.account (h : Inv P s os) (p : ℕ) : Account P s os p := by
  by_cases hused : p ∈ s.used
  · by_cases hheld : ∃ a, (s.tx a).pduId = some p
    · obtain ⟨a, ha⟩ := hheld
      obtain ⟨k, d, n, hh, hk, hn, hsound, hcomplete⟩ := (h.phase a).account (h.settled a).1 ha
      refine hh.account hk hn hsound fun hd => ?_
      rcases hcomplete hd with hpos | hrest
      · exact .inl hpos
      · exact .inr ⟨a, ha, hrest⟩
    · obtain ⟨k, d, hk, hh⟩ := h.done p hused (not_exists.1 hheld)
      refine hh.account hk ?_ ?_ ?_
      · cases d <;> decide
      · cases d <;> simp
      · cases d <;> simp
  · have hh : Hist p os (ndis 0) false 0 := hist_other (h.fresh p hused)
    exact hh.account (Nat.zero_le _) (Nat.zero_le 1) (fun h0 => (lt_irrefl 0 h0).elim)
      fun hf => by cases hf

/-- **H-ARQ is exactly once up to the retransmission limit**, if the limit is at most 254.  Nothing
throws; a PDU is sent at most `maxHarqRtx + 1` times, the first time only as new data; it is passed
on at most once, and when the sender is done with it, exactly if a transmission was decoded; after
its ACK or its last NACK both units are free; and while the sender has nothing in a process,
neither has the receiver. -/
theorem harq_exactly_once (hlim : P.maxHarqRtx ≤ 254) {es : List Event}
    (hrun : (machine P).exec {} es = some (s, os)) :
    (∀ e : Event, e.Enabled P s → (s.handle P e).isSome) ∧
    (∀ p, (sentOf p os).length ≤ P.maxHarqRtx + 1 ∧
      (∀ i ndi, (sentOf p os)[i]? = some ndi → (ndi = true ↔ i = 0)) ∧
      os.count (.extracted p) ≤ 1 ∧
      (HarqOutput.extracted p ∈ os → HarqOutput.received p true ∈ os) ∧
      (HarqOutput.received p true ∈ os → HarqOutput.extracted p ∈ os ∨
        ∃ a, (s.rx a).status = .EVALUATING ∧ (s.rx a).pdu = some p ∧ (s.rx a).result = true) ∧
      (HarqOutput.freed p ∈ os →
        (HarqOutput.extracted p ∈ os ↔ HarqOutput.received p true ∈ os))) ∧
    (∀ fb rest s' o, s.feedback = fb :: rest → s.handle P .feedback = some (s', o) →
      Final P os fb → UnitsFree s' fb.acid ∧ HarqOutput.freed fb.fbMacPduId ∈ o) ∧
    ∀ a, (s.tx a).status = .EMPTY → (s.rx a).status = .EMPTY ∧
      (∀ f ∈ s.frames, f.acid ≠ a) ∧ ∀ fb ∈ s.feedback, fb.acid ≠ a := by
  have h := inv_exec hlim hrun
  refine ⟨fun e hen => ?_, fun p => ?_, fun fb rest s' o hfb hhandle => ?_, fun a ha => ?_⟩
  · obtain ⟨s', o, hhandle, -⟩ := inv_handle h hlim hen
    rw [hhandle]
    rfl
  · obtain ⟨⟨k, hk, hsent⟩, honce, hsound, hcomplete⟩ := h.account p
    refine ⟨?_, fun i ndi hi => ?_, honce, hsound, fun hx => ?_,
      fun hfreed => ⟨hsound, fun hx => ?_⟩⟩
    · rw [hsent, ndis_length]
      exact hk
    · rw [hsent] at hi
      exact ndis_getElem hi
    · rcases hcomplete hx with hx | ⟨a, -, hrest⟩
      · exact .inl hx
      · exact .inr ⟨a, hrest⟩
    · rcases hcomplete hx with hx | ⟨a, ha, -⟩
      · exact hx
      · exact ((h.freed p hfreed).2 a ha).elim
  · -- the feedback at the front is the one that is handled
    obtain ⟨s₁, o₁, hreceive, -, hfinal⟩ := inv_feedback h hlim hfb
    simp only [handle, hfb] at hhandle
    obtain ⟨rfl, rfl⟩ := Prod.mk.inj (Option.some.inj (hreceive.symm.trans hhandle))
    exact hfinal
  · obtain ⟨-, hr, hfr, hfb⟩ := (h.phase a).of_empty ha
    refine ⟨hr.1, fun f hf heq => ?_, fun fb hfb' heq => ?_⟩
    · have := List.filter_eq_nil_iff.1 hfr f hf
      simp [heq] at this
    · have := List.filter_eq_nil_iff.1 hfb fb hfb'
      simp [heq] at this

end

/-- One transmission of the PDU 7 in process 0, with its feedback. -/
def transmission (ndi decoded : Bool) : List Event :=
  [.send, .arrive ⟨0, 7, ndi⟩ decoded, .tick, .tick, .tick, .rxTti, .feedback]

theorem harq_exactly_once_retransmission :
    ∃ s os, (machine ⟨3, 8, true⟩).exec {} (.insert 0 7 :: transmission true false ++
        .markSelected 0 :: transmission false true) = some (s, os) ∧
      sentOf 7 os = [true, false] ∧ HarqOutput.extracted 7 ∈ os ∧ (s.rx 0).status = .EMPTY := by
  have hsome : ((machine ⟨3, 8, true⟩).exec {} (.insert 0 7 :: transmission true false ++
    .markSelected 0 :: transmission false true)).isSome := by decide +kernel
  obtain ⟨⟨s, os⟩, hrun⟩ := Option.isSome_iff_exists.1 hsome
  obtain ⟨hs, hos⟩ := Prod.mk.inj (Option.some.inj hrun)
  have h := harq_exactly_once (by decide) hrun
  have hfreed : HarqOutput.freed 7 ∈ os := by
    rw [← hos]
    decide +kernel
  have hreceived : HarqOutput.received 7 true ∈ os := by
    rw [← hos]
    decide +kernel
  refine ⟨s, os, hrun, ?_, ((h.2.1 7).2.2.2.2.2 hfreed).2 hreceived, (h.2.2.2 0 ?_).1⟩
  · rw [← hos]
    decide +kernel
  · rw [← hs]
    decide +kernel

/-- With 255 retransmissions the counters come round: the 257th transmission is marked as new data,
and the receiver, which has not forgotten about the PDU, throws. -/
theorem transmission_counter_wraps :
    ((machine ⟨255, 1, false⟩).exec {} (.insert 0 7 :: transmission true false ++
        (List.replicate 255 (.markSelected 0 :: transmission false false)).flatten ++
        [.markSelected 0, .send])).map (fun r =>
      (r.1.frames, (sentOf 7 r.2).length, (r.1.receive ⟨0, 7, true⟩ false).isNone)) =
      some ([⟨0, 7, true⟩], 257, true) := by
  decide +kernel

end HarqPair

end V2nLte
