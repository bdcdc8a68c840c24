import V2nLte.Machine.Basic
import V2nLte.Machine.Ensures
import V2nLte.Mac.Grant
import V2nLte.Mac.Harq

/-!
# The codewords of the receiver's H-ARQ process

`LteHarqProcessRx` has a PDU, a status, a time of arrival and a result for each codeword, but only
one count of transmissions.  Every PDU that arrives on any codeword adds to it, and whenever a
codeword is reset it starts again.  So a codeword can be given up before its retransmissions are
used up, or not be given up at all.

* `RxRun.independent_iff` : each codeword sees the same in a run as in the run of its own events
  iff, whenever a PDU that was not decoded is answered, the common count and that of the
  codeword are both at the limit or both not.
* `RxRun.given_up_early` : two codewords use up each other's retransmissions.
-/

namespace V2nLte

/-- The exceptions of the receiver's H-ARQ process. -/
inductive HarqRxError where
  /-- "New data arriving in busy harq process". -/
  | busyProcess
  /-- "Trying to insert macPdu in non-empty rx harq process". -/
  | nonEmpty
  /-- "Cannot send feedback for a pdu not in EVALUATING state". -/
  | notEvaluating
  /-- "Cannot extract pdu if the state is not CORRECT". -/
  | notCorrect
  /-- An access to a PDU that is not there. -/
  | nullPdu
  /-- `std::out_of_range`. -/
  | outOfRange
  deriving DecidableEq

/-- A PDU as it arrives, with what the process reads of its control info. -/
structure RxPdu where
  /-- The id of the PDU. -/
  macPduId : ℕ
  /-- Who has sent it. -/
  sourceId : ℕ
  /-- Who it is for. -/
  destId : ℕ
  /-- New data. -/
  ndi : Bool
  /-- Whether it was decoded. -/
  deciderResult : Bool
  deriving DecidableEq

/-- `LteHarqFeedback` and its control info. -/
structure RxFeedback where
  /-- The process. -/
  acid : ℕ
  /-- The codeword. -/
  cw : ℕ
  /-- Whether it is an ACK. -/
  result : Bool
  /-- The id of the PDU that it is about. -/
  fbMacPduId : ℕ
  /-- The receiver of the PDU. -/
  sourceId : ℕ
  /-- The sender of the PDU. -/
  destId : ℕ
  deriving DecidableEq

/-- What is kept for a codeword. -/
structure RxCodeword where
  /-- The PDU that has arrived. -/
  pdu : Option RxPdu := none
  /-- Its status. -/
  status : RxHarqPduStatus := .EMPTY
  /-- When it has arrived. -/
  rxTime : ℕ := 0
  /-- Whether it was decoded. -/
  result : Bool := false
  deriving DecidableEq

/-- `LteHarqProcessRx`. -/
structure LteHarqProcessRx where
  /-- The number of the process. -/
  acid : ℕ
  /-- What is kept for each codeword. -/
  codewords : ℕ → RxCodeword := fun _ => {}
  /-- The arrivals since the last reset, an `unsigned char`. -/
  transmissions : ℕ := 0
  /-- How often a PDU is sent again. -/
  maxHarqRtx : ℕ

/-- What can be seen of a process. -/
inductive RxOutput where
  | feedback (fb : RxFeedback)
  | delivered (cw : ℕ) (pdu : RxPdu)
  | reset (cw : ℕ)
  deriving DecidableEq

/-- The codeword an output is about. -/
def RxOutput.cw : RxOutput → ℕ
  | .feedback fb => fb.cw
  | .delivered cw _ => cw
  | .reset cw => cw

namespace LteHarqProcessRx

variable (p : LteHarqProcessRx)

/-- The constructor; the limit is an `unsigned char`. -/
def new (acid maxHarqRtx : ℕ) : LteHarqProcessRx := { acid := acid, maxHarqRtx := u8 maxHarqRtx }

/-- Replace what is kept for a codeword. -/
def setCodeword (cw : ℕ) (c : RxCodeword) : LteHarqProcessRx :=
  { p with codewords := Function.update p.codewords cw c }

/-- `insertPdu`. -/
def insertPdu (now cw : ℕ) (pkt : RxPdu) : Except HarqRxError (LteHarqProcessRx × List RxOutput) :=
  if MAX_CODEWORDS ≤ cw then .error .outOfRange
  else
    let c := p.codewords cw
    if pkt.ndi ∧ c.status ≠ .EMPTY then .error .busyProcess
    else if ¬pkt.ndi ∧ c.status ≠ .EMPTY ∧ c.status ≠ .CORRUPTED then .error .nonEmpty
    else
      .ok ({ p.setCodeword cw {
          pdu := some pkt
          result := pkt.deciderResult
          status := .EVALUATING
          rxTime := now } with
        transmissions := u8 (p.transmissions + 1) }, [])

/-- `isEvaluated`. -/
def isEvaluated (now cw : ℕ) : Bool :=
  decide ((p.codewords cw).status = .EVALUATING ∧
    HARQ_FB_EVALUATION_INTERVAL ≤ now - (p.codewords cw).rxTime)

/-- `purgeCorruptedPdu`. -/
def purgeCorruptedPdu (cw : ℕ) : LteHarqProcessRx :=
  p.setCodeword cw { p.codewords cw with pdu := none }

/-- `resetCodeword`. -/
def resetCodeword (cw : ℕ) : LteHarqProcessRx := { p.setCodeword cw {} with transmissions := 0 }

/-- The feedback for the PDU of a codeword. -/
def feedbackFor (cw : ℕ) (pdu : RxPdu) : RxFeedback where
  acid := p.acid
  cw := cw
  result := (p.codewords cw).result
  fbMacPduId := pdu.macPduId
  sourceId := pdu.destId
  destId := pdu.sourceId

/-- `createFeedback` for the PDU of a codeword. -/
def answer (cw : ℕ) (pdu : RxPdu) : LteHarqProcessRx × List RxOutput :=
  let c := p.codewords cw
  let fb := p.feedbackFor cw pdu
  if ¬c.result then
    -- a NACK
    let p := p.setCodeword cw { c with status := .CORRUPTED }
    if p.transmissions = p.maxHarqRtx + 1 then
      ((p.purgeCorruptedPdu cw).resetCodeword cw, [.feedback fb, .reset cw])
    else (p, [.feedback fb])
  else (p.setCodeword cw { c with status := .CORRECT }, [.feedback fb])

/-- `createFeedback`. -/
def createFeedback (now cw : ℕ) : Except HarqRxError (LteHarqProcessRx × List RxOutput) :=
  if MAX_CODEWORDS ≤ cw then .error .outOfRange
  else if ¬p.isEvaluated now cw then .error .notEvaluating
  else
    match (p.codewords cw).pdu with
    | none => .error .nullPdu
    | some pdu => .ok (p.answer cw pdu)

/-- `extractPdu`. -/
def extractPdu (cw : ℕ) : Except HarqRxError (LteHarqProcessRx × List RxOutput) :=
  if MAX_CODEWORDS ≤ cw then .error .outOfRange
  else if (p.codewords cw).status ≠ .CORRECT then .error .notCorrect
  else
    match (p.codewords cw).pdu with
    | none => .error .nullPdu
    | some pdu => .ok (p.resetCodeword cw, [.delivered cw pdu, .reset cw])

/-- What `LteHarqBufferRx::purgeCorruptedPdus` does with a codeword of the process. -/
def purge (cw : ℕ) : Except HarqRxError (LteHarqProcessRx × List RxOutput) :=
  if MAX_CODEWORDS ≤ cw then .error .outOfRange
  else if (p.codewords cw).status = .CORRUPTED then
    .ok ((p.purgeCorruptedPdu cw).resetCodeword cw, [.reset cw])
  else .ok (p, [])

end LteHarqProcessRx

/-- A call of one of the functions of a process. -/
inductive RxCall where
  | insertPdu (pkt : RxPdu)
  | createFeedback
  | extractPdu
  | purge
  | resetCodeword
  deriving DecidableEq

/-- A call for a codeword at a time. -/
structure RxEvent where
  /-- The time in TTIs. -/
  now : ℕ
  /-- The codeword. -/
  cw : ℕ
  /-- The function. -/
  call : RxCall
  deriving DecidableEq

/-- What a call does. -/
def LteHarqProcessRx.handle (p : LteHarqProcessRx) (e : RxEvent) :
    Except HarqRxError (LteHarqProcessRx × List RxOutput) :=
  match e.call with
  | .insertPdu pkt => p.insertPdu e.now e.cw pkt
  | .createFeedback => p.createFeedback e.now e.cw
  | .extractPdu => p.extractPdu e.cw
  | .purge => p.purge e.cw
  | .resetCodeword =>
    if MAX_CODEWORDS ≤ e.cw then .error .outOfRange
    else .ok (p.resetCodeword e.cw, [.reset e.cw])

/-- A count of transmissions after a call with the outputs `o`: a reset of the codeword starts it
again, a PDU that arrives adds to it. -/
def RxEvent.count (e : RxEvent) (o : List RxOutput) (n : ℕ) : ℕ :=
  if .reset e.cw ∈ o then 0
  else
    match e.call with
    | .insertPdu _ => u8 (n + 1)
    | _ => n

/-- A process in a run, with the transmissions of each codeword since it was reset. -/
structure RxRun where
  /-- The process. -/
  process : LteHarqProcessRx
  /-- The transmissions of each codeword. -/
  attempts : ℕ → ℕ := fun _ => 0

namespace RxRun

/-- The process as a machine; an exception ends the run. -/
def machine : Machine RxRun RxEvent RxOutput where
  step s e :=
    (s.process.handle e).toOption.map fun r =>
      (⟨r.1, Function.update s.attempts e.cw (e.count r.2 (s.attempts e.cw))⟩, r.2)

/-- The process at the beginning. -/
def initial (acid maxHarqRtx : ℕ) : RxRun := { process := .new acid maxHarqRtx }

/-- The events of a codeword. -/
def ofCodeword (cw : ℕ) (es : List RxEvent) : List RxEvent := es.filter fun e => e.cw = cw

/-- The outputs of a codeword. -/
def outputsOf (cw : ℕ) (os : List RxOutput) : List RxOutput := os.filter fun o => o.cw = cw

/-- At all times in the run of `es`, each codeword has seen the same as in the run of its own
events. -/
def Independent (s₀ : RxRun) (es : List RxEvent) : Prop :=
  ∀ es₁ es₂ s os, es = es₁ ++ es₂ → machine.exec s₀ es₁ = some (s, os) → ∀ cw < MAX_CODEWORDS,
    ∃ t, machine.exec s₀ (ofCodeword cw es₁) = some (t, outputsOf cw os)

/-- If a PDU that was not decoded is answered now, then the count of the process is at the limit
iff that of its codeword is. -/
def Counts (s : RxRun) (e : RxEvent) : Prop :=
  e.call = .createFeedback → (s.process.codewords e.cw).result = false →
    (s.process.transmissions = s.process.maxHarqRtx + 1 ↔
      s.attempts e.cw = s.process.maxHarqRtx + 1)

instance (s : RxRun) (e : RxEvent) : Decidable (s.Counts e) :=
  inferInstanceAs (Decidable (_ → _ → _))

end RxRun

/-! ### What a call does -/

namespace LteHarqProcessRx

variable {p p' q q' : LteHarqProcessRx} {e : RxEvent} {o : List RxOutput} {now cw : ℕ}
  {pdu : RxPdu}

theorem createFeedback_eq_ok {r : LteHarqProcessRx × List RxOutput} :
    p.createFeedback now cw = .ok r ↔ cw < MAX_CODEWORDS ∧ p.isEvaluated now cw = true ∧
      ∃ pdu, (p.codewords cw).pdu = some pdu ∧ p.answer cw pdu = r := by
  rw [createFeedback, ← Nat.not_le]
  by_cases hcw : MAX_CODEWORDS ≤ cw
  · simp [hcw]
  · cases hev : p.isEvaluated now cw with
    | false => simp [hcw]
    | true => cases (p.codewords cw).pdu <;> simp [hcw]

/-- An answer changes the codeword and, with a reset, the count. -/
theorem answer_effect (p : LteHarqProcessRx) (cw : ℕ) (pdu : RxPdu) :
    (∃ c, (p.answer cw pdu).1.codewords = Function.update p.codewords cw c) ∧
      (p.answer cw pdu).1.acid = p.acid ∧ (p.answer cw pdu).1.maxHarqRtx = p.maxHarqRtx ∧
      (p.answer cw pdu).1.transmissions =
        (if .reset cw ∈ (p.answer cw pdu).2 then 0 else p.transmissions) ∧
      ∀ x ∈ (p.answer cw pdu).2, x.cw = cw := by
  unfold answer
  dsimp only
  split_ifs <;>
    simp_all [setCodeword, purgeCorruptedPdu, resetCodeword, RxOutput.cw, feedbackFor]

/-- A call is about its codeword and the common count only. -/
theorem handle_effect (h : p.handle e = .ok (p', o)) :
    p' = { p with
      codewords := Function.update p.codewords e.cw (p'.codewords e.cw)
      transmissions := e.count o p.transmissions } ∧ ∀ x ∈ o, x.cw = e.cw := by
  obtain ⟨now, cw, call⟩ := e
  cases call with
  | insertPdu pkt =>
    simp only [handle, insertPdu] at h
    split_ifs at h
    cases h
    simp [RxEvent.count, setCodeword]
  | createFeedback =>
    obtain ⟨-, -, pdu, -, hr⟩ := createFeedback_eq_ok.1 h
    obtain ⟨⟨c, hcodewords⟩, hacid, hmax, hcount, hcw⟩ :=
      answer_effect p cw pdu
    rw [show p.answer cw pdu = (p', o) from hr] at hcodewords hacid hmax hcount hcw
    obtain ⟨acid, codewords, transmissions, maxHarqRtx⟩ := p'
    dsimp only at hcodewords hacid hmax hcount
    simp [RxEvent.count, hcodewords, hacid, hmax, hcount]
    exact hcw
  | extractPdu =>
    simp only [handle, extractPdu] at h
    split_ifs at h
    split at h
    · cases h
    · cases h
      simp [RxEvent.count, RxOutput.cw, setCodeword, resetCodeword]
  | purge =>
    simp only [handle, purge] at h
    split_ifs at h <;> cases h <;>
      simp [RxEvent.count, RxOutput.cw, setCodeword, purgeCorruptedPdu, resetCodeword]
  | resetCodeword =>
    simp only [handle] at h
    split_ifs at h
    cases h
    simp [RxEvent.count, RxOutput.cw, setCodeword, resetCodeword]

/-- The two processes are alike for a codeword, whatever their counts. -/
structure Alike (p q : LteHarqProcessRx) (cw : ℕ) : Prop where
  acid : q.acid = p.acid
  maxHarqRtx : q.maxHarqRtx = p.maxHarqRtx
  codeword : q.codewords cw = p.codewords cw

theorem Alike.answer (ha : p.Alike q cw) (pdu : RxPdu) (hcount : (p.codewords cw).result = false →
    (p.transmissions = p.maxHarqRtx + 1 ↔ q.transmissions = p.maxHarqRtx + 1)) :
    (q.answer cw pdu).2 = (p.answer cw pdu).2 ∧
      (p.answer cw pdu).1.Alike (q.answer cw pdu).1 cw := by
  obtain ⟨hacid, hmax, hcw⟩ := ha
  have hfb : q.feedbackFor cw pdu = p.feedbackFor cw pdu := by
    simp only [feedbackFor, hacid, hcw]
  unfold LteHarqProcessRx.answer
  simp only [hcw, hmax, hfb, setCodeword]
  cases hresult : (p.codewords cw).result with
  | true => exact ⟨rfl, hacid, rfl, by simp⟩
  | false =>
    simp only [Bool.false_eq_true, not_false_eq_true, if_true, hcount hresult]
    split_ifs
    · exact ⟨rfl, hacid, rfl, by simp [resetCodeword, setCodeword]⟩
    · exact ⟨rfl, hacid, rfl, by simp⟩

/-- **A call does the same to processes that are alike**, if a count at the limit makes no
difference. -/
theorem handle_alike (ha : p.Alike q e.cw)
    (hcount : e.call = .createFeedback → (p.codewords e.cw).result = false →
      (p.transmissions = p.maxHarqRtx + 1 ↔ q.transmissions = p.maxHarqRtx + 1))
    (h : p.handle e = .ok (p', o)) :
    ∃ q', q.handle e = .ok (q', o) ∧ p'.Alike q' e.cw := by
  obtain ⟨hacid, hmax, hcw⟩ := ha
  obtain ⟨now, cw, call⟩ := e
  dsimp only at hcw hcount ⊢
  cases call with
  | insertPdu pkt =>
    simp only [handle, insertPdu, hcw] at h ⊢
    split_ifs at h ⊢
    cases h
    exact ⟨_, rfl, hacid, hmax, by simp [setCodeword]⟩
  -- the count of transmissions only matters for a NACK
  | createFeedback =>
    obtain ⟨hlt, hevaluated, pdu, hpdu, hr⟩ := createFeedback_eq_ok.1 h
    obtain ⟨hout, halike⟩ := Alike.answer ⟨hacid, hmax, hcw⟩ pdu (hcount rfl)
    rw [show p.answer cw pdu = (p', o) from hr] at hout halike
    refine ⟨(q.answer cw pdu).1, createFeedback_eq_ok.2 ⟨hlt, ?_, pdu, ?_, ?_⟩, halike⟩
    · rw [isEvaluated, hcw]
      exact hevaluated
    · rw [hcw]
      exact hpdu
    · exact Prod.ext rfl hout
  | extractPdu =>
    simp only [handle, extractPdu, hcw] at h ⊢
    split_ifs at h ⊢
    cases hpdu : (p.codewords cw).pdu with
    | none =>
      rw [hpdu] at h
      cases h
    | some pdu =>
      rw [hpdu] at h
      cases h
      exact ⟨_, rfl, hacid, hmax, by simp [resetCodeword, setCodeword]⟩
  | purge =>
    simp only [handle, purge, hcw] at h ⊢
    split_ifs at h ⊢ <;> cases h
    · exact ⟨_, rfl, hacid, hmax, by simp [resetCodeword, setCodeword]⟩
    · exact ⟨_, rfl, hacid, hmax, hcw⟩
  | resetCodeword =>
    simp only [handle] at h ⊢
    split_ifs at h ⊢
    cases h
    exact ⟨_, rfl, hacid, hmax, by simp [resetCodeword, setCodeword]⟩

/-- The outputs of an answer tell whether the count is at the limit. -/
theorem createFeedback_reset_iff (hcall : e.call = .createFeedback)
    (hresult : (p.codewords e.cw).result = false) (h : p.handle e = .ok (p', o)) :
    .reset e.cw ∈ o ↔ p.transmissions = p.maxHarqRtx + 1 := by
  rw [handle, hcall] at h
  obtain ⟨-, -, pdu, -, hr⟩ := createFeedback_eq_ok.1 h
  have hout : o = (p.answer e.cw pdu).2 := by rw [hr]
  rw [hout]
  simp only [answer, hresult, setCodeword, Bool.false_eq_true, not_false_eq_true, if_true]
  split_ifs with hlimit
  · exact iff_of_true (by simp) hlimit
  · exact iff_of_false (by simp) hlimit

end LteHarqProcessRx

namespace RxRun

variable {s s' s₀ t t' : RxRun} {e : RxEvent} {o os : List RxOutput} {es : List RxEvent} {cw : ℕ}

theorem step_eq_some : machine.step s e = some (s', o) ↔
    s.process.handle e = .ok (s'.process, o) ∧
      s'.attempts = Function.update s.attempts e.cw (e.count o (s.attempts e.cw)) := by
  simp only [machine, Option.map_eq_some_iff, toOption_eq_some, Prod.mk.injEq]
  constructor
  · rintro ⟨⟨p, o'⟩, hp, rfl, rfl⟩
    exact ⟨hp, rfl⟩
  · rintro ⟨hp, hattempts⟩
    refine ⟨⟨s'.process, o⟩, hp, ?_, rfl⟩
    rw [← hattempts]

/-- In the run `t` of the events of a codeword alone, the process counts that codeword only. -/
structure Alone (s t : RxRun) (cw : ℕ) : Prop where
  alike : s.process.Alike t.process cw
  counts : t.process.transmissions = s.attempts cw

/-- **A call for the codeword** does the same in both runs. -/
theorem Alone.step (h : Alone s t e.cw) (hcounts : s.Counts e)
    (hst : machine.step s e = some (s', o)) :
    ∃ t', machine.step t e = some (t', o) ∧ Alone s' t' e.cw := by
  obtain ⟨hhandle, hattempts⟩ := step_eq_some.1 hst
  obtain ⟨q, hq, halike⟩ := LteHarqProcessRx.handle_alike h.alike
    (fun hcall hresult => by rw [h.counts]; exact hcounts hcall hresult) hhandle
  refine ⟨⟨q, _⟩, step_eq_some.2 ⟨hq, rfl⟩, halike, ?_⟩
  rw [hattempts, Function.update_self, ← h.counts]
  have heffect := (LteHarqProcessRx.handle_effect hq).1
  exact congrArg LteHarqProcessRx.transmissions heffect

/-- **A call for another codeword** changes nothing for this one. -/
theorem Alone.other (h : Alone s t cw) (hcw : e.cw ≠ cw)
    (hst : machine.step s e = some (s', o)) : Alone s' t cw := by
  obtain ⟨hhandle, hattempts⟩ := step_eq_some.1 hst
  have heffect := (LteHarqProcessRx.handle_effect hhandle).1
  have hcodeword : s'.process.codewords cw = s.process.codewords cw := by
    rw [heffect]
    exact Function.update_of_ne hcw.symm _ _
  refine ⟨⟨?_, ?_, ?_⟩, ?_⟩
  · rw [heffect]
    exact h.alike.acid
  · rw [heffect]
    exact h.alike.maxHarqRtx
  · rw [hcodeword]
    exact h.alike.codeword
  · rw [hattempts, Function.update_of_ne hcw.symm]
    exact h.counts

/-- If a call is answered alike in both runs, then its counts agree. -/
theorem Alone.counts_of_step (h : Alone s t e.cw) (hst : machine.step s e = some (s', o))
    (hst' : machine.step t e = some (t', o)) : s.Counts e := by
  intro hcall hresult
  have hs := LteHarqProcessRx.createFeedback_reset_iff hcall hresult (step_eq_some.1 hst).1
  have ht := LteHarqProcessRx.createFeedback_reset_iff hcall
    ((congrArg RxCodeword.result h.alike.codeword).trans hresult) (step_eq_some.1 hst').1
  rw [h.alike.maxHarqRtx, h.counts] at ht
  exact hs.symm.trans ht

/-! ### Whole runs -/

theorem ofCodeword_concat_self : ofCodeword e.cw (es ++ [e]) = ofCodeword e.cw es ++ [e] := by
  simp [ofCodeword]

theorem ofCodeword_concat_of_ne (hcw : e.cw ≠ cw) :
    ofCodeword cw (es ++ [e]) = ofCodeword cw es := by
  simp [ofCodeword, hcw]

theorem outputsOf_self (hst : machine.step s e = some (s', o)) :
    outputsOf e.cw (os ++ o) = outputsOf e.cw os ++ o := by
  have heffect := (LteHarqProcessRx.handle_effect (step_eq_some.1 hst).1).2
  rw [outputsOf, outputsOf, List.filter_append,
    List.filter_eq_self.2 fun x hx => decide_eq_true (heffect x hx)]

theorem outputsOf_of_ne (hcw : e.cw ≠ cw) (hst : machine.step s e = some (s', o)) :
    outputsOf cw (os ++ o) = outputsOf cw os := by
  have heffect := (LteHarqProcessRx.handle_effect (step_eq_some.1 hst).1).2
  have hnone : o.filter (fun o => o.cw = cw) = [] :=
    List.filter_eq_nil_iff.2 fun x hx => by simp [heffect x hx, hcw]
  rw [outputsOf, outputsOf, List.filter_append, hnone, List.append_nil]

/-- Each codeword has seen the same in the run of its own events, which is in a state alike. -/
def Mirrored (s₀ : RxRun) (es : List RxEvent) (s : RxRun) (os : List RxOutput) : Prop :=
  ∀ cw < MAX_CODEWORDS, ∃ t, machine.exec s₀ (ofCodeword cw es) = some (t, outputsOf cw os) ∧
    Alone s t cw

theorem Mirrored.step (h : Mirrored s₀ es s os) (hcounts : s.Counts e)
    (hst : machine.step s e = some (s', o)) : Mirrored s₀ (es ++ [e]) s' (os ++ o) := by
  intro cw hcw
  obtain ⟨t, ht, halone⟩ := h cw hcw
  by_cases hecw : e.cw = cw
  · subst hecw
    obtain ⟨t', hst', halone'⟩ := halone.step hcounts hst
    rw [ofCodeword_concat_self, outputsOf_self hst]
    exact ⟨t', Machine.exec_concat_eq_some.2 ⟨t, _, _, ht, hst', rfl⟩, halone'⟩
  · rw [ofCodeword_concat_of_ne hecw, outputsOf_of_ne hecw hst]
    exact ⟨t, ht, halone.other hecw hst⟩

theorem mirrored_initial (acid maxHarqRtx : ℕ) :
    Mirrored (initial acid maxHarqRtx) [] (initial acid maxHarqRtx) [] :=
  fun _ _ => ⟨_, rfl, ⟨rfl, rfl, rfl⟩, rfl⟩

/-- The last step of a run whose codewords have all seen the same is taken by the run of its
codeword, too. -/
theorem Independent.last {es₂ : List RxEvent} (h : Independent s₀ (es ++ e :: es₂))
    (hex : machine.exec s₀ es = some (s, os)) (hst : machine.step s e = some (s', o))
    (hcw : e.cw < MAX_CODEWORDS)
    (ht : machine.exec s₀ (ofCodeword e.cw es) = some (t, outputsOf e.cw os)) :
    ∃ t', machine.step t e = some (t', o) := by
  obtain ⟨t', ht'⟩ := h (es ++ [e]) es₂ s' (os ++ o) (by simp)
    (Machine.exec_concat_eq_some.2 ⟨s, os, o, hex, hst, rfl⟩) e.cw hcw
  rw [ofCodeword_concat_self, outputsOf_self hst] at ht'
  obtain ⟨t₁, o₁, o₂, ht₁, hst₁, hos⟩ := Machine.exec_concat_eq_some.1 ht'
  obtain ⟨rfl, rfl⟩ := Prod.mk.inj (Option.some.inj (ht.symm.trans ht₁))
  obtain rfl := List.append_cancel_left hos
  exact ⟨t', hst₁⟩

theorem cw_lt (hst : machine.step s e = some (s', o)) : e.cw < MAX_CODEWORDS := by
  obtain ⟨hhandle, -⟩ := step_eq_some.1 hst
  by_contra hcw
  rw [Nat.not_lt] at hcw
  unfold LteHarqProcessRx.handle at hhandle
  cases hcall : e.call <;> rw [hcall] at hhandle <;> dsimp only at hhandle <;>
    simp [LteHarqProcessRx.insertPdu, LteHarqProcessRx.createFeedback,
      LteHarqProcessRx.extractPdu, LteHarqProcessRx.purge, hcw] at hhandle

/-- **The codewords of a process are independent** in a run iff the common count and that of the
codeword agree on whether the limit is reached, each time it matters. -/
theorem independent_iff (acid maxHarqRtx : ℕ)
    (hex : machine.exec (initial acid maxHarqRtx) es = some (s, os)) :
    Independent (initial acid maxHarqRtx) es ↔
      ∀ s e s' o, machine.Takes (initial acid maxHarqRtx) es s e s' o → s.Counts e := by
  constructor
  · intro hind
    -- the reference model is the history, from which the run of a codeword can be read off
    have hgood := Machine.good_iff_of_reference machine (fun a e => a ++ [e]) [] es
      (R := fun s a => ∃ os, Mirrored (initial acid maxHarqRtx) a s os)
      (G := fun a e o => ∃ t t' os, machine.exec (initial acid maxHarqRtx) (ofCodeword e.cw a) =
        some (t, os) ∧ machine.step t e = some (t', o))
      (C := fun s e => s.Counts e) ⟨[], mirrored_initial acid maxHarqRtx⟩ ?_ ?_
    · refine hgood.1 fun es₁ e es₂ s os s' o hes hex₁ hst => ?_
      subst hes
      rw [List.foldl_append_eq_append, List.nil_append, ← List.flatMap_def,
        List.flatMap_singleton']
      have hcw := cw_lt hst
      obtain ⟨t, ht⟩ := hind es₁ (e :: es₂) s os rfl hex₁ e.cw hcw
      obtain ⟨t', hst'⟩ := hind.last hex₁ hst hcw ht
      exact ⟨t, t', outputsOf e.cw os, ht, hst'⟩
    · rintro s a e s' o ⟨os, h⟩ hst
      obtain ⟨t, ht, halone⟩ := h e.cw (cw_lt hst)
      constructor
      · rintro ⟨t₁, t', os₁, ht₁, hst'⟩
        obtain ⟨rfl, -⟩ := Prod.mk.inj (Option.some.inj (ht.symm.trans ht₁))
        exact halone.counts_of_step hst hst'
      · intro hC
        obtain ⟨t', hst', -⟩ := halone.step hC hst
        exact ⟨t, t', _, ht, hst'⟩
    · rintro s a e s' o ⟨os, h⟩ hst hC
      exact ⟨os ++ o, h.step hC hst⟩
  · intro hC es₁ es₂ s os hes hex₁ cw hcw
    subst hes
    have h : Mirrored (initial acid maxHarqRtx) es₁ s os :=
      Machine.exec_induction_of (C := fun s e => Counts s e) (mirrored_initial acid maxHarqRtx)
        (fun _ _ _ _ _ _ _ h hC hst => h.step hC hst)
        (fun s e s' o ht => hC s e s' o ht.append_right) hex₁
    obtain ⟨t, ht, -⟩ := h cw hcw
    exact ⟨t, ht⟩

/-- A PDU of the UE `1025` for the eNB `1`. -/
def pduFor (macPduId : ℕ) (ndi deciderResult : Bool) : RxPdu :=
  ⟨macPduId, 1025, 1, ndi, deciderResult⟩

/-- A PDU for each codeword; both are decoded and passed on. -/
def decodedEvents : List RxEvent :=
  [⟨0, 0, .insertPdu (pduFor 7 true true)⟩, ⟨0, 1, .insertPdu (pduFor 8 true true)⟩,
    ⟨3, 0, .createFeedback⟩, ⟨3, 1, .createFeedback⟩, ⟨3, 0, .extractPdu⟩, ⟨3, 1, .extractPdu⟩]

theorem independent_iff_decoded : Independent (initial 0 3) decodedEvents := by
  have hsome : (machine.exec (initial 0 3) decodedEvents).isSome := rfl
  obtain ⟨⟨s, os⟩, hex⟩ := Option.isSome_iff_exists.1 hsome
  have hmeets : machine.Meets (fun s e => Counts s e) (initial 0 3) decodedEvents := by
    decide +kernel
  exact (independent_iff 0 3 hex).2 fun s e s' o ht => hmeets.takes ht

/-- Neither of the PDUs of the two codewords is decoded. -/
def failedEvents : List RxEvent :=
  [⟨0, 0, .insertPdu (pduFor 7 true false)⟩, ⟨0, 1, .insertPdu (pduFor 8 true false)⟩,
    ⟨3, 0, .createFeedback⟩, ⟨3, 1, .createFeedback⟩,
    ⟨8, 0, .insertPdu (pduFor 7 false false)⟩, ⟨8, 1, .insertPdu (pduFor 8 false false)⟩,
    ⟨11, 0, .createFeedback⟩]

/-- With three retransmissions, the PDU of codeword 0 is given up after its first one, for the PDU
of codeword 1 has been sent twice, too.  Without codeword 1 it is not. -/
theorem given_up_early :
    ∃ s os t os', machine.exec (initial 0 3) failedEvents = some (s, os) ∧
      machine.exec (initial 0 3) (ofCodeword 0 failedEvents) = some (t, os') ∧
      outputsOf 0 os = os' ++ [.reset 0] ∧ os'.length = 2 ∧
      (s.process.codewords 0).status = .EMPTY ∧ (t.process.codewords 0).status = .CORRUPTED ∧
      ¬Independent (initial 0 3) failedEvents := by
  refine ⟨_, _, _, _, rfl, rfl, rfl, rfl, rfl, rfl, fun h => ?_⟩
  obtain ⟨t, ht⟩ := h failedEvents [] _ _ rfl rfl 0 (by decide)
  have hos := (Prod.mk.inj (Option.some.inj ht)).2
  revert hos
  decide

end RxRun

end V2nLte
