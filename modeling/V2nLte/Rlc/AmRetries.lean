import V2nLte.Rlc.AmReassembly

/-!
# Retransmitted fragments at the RLC AM receiver

A fragment that is sent again has a higher number of the try (`txNumber`).  `AmRxQueue` does not
read it: with all fragments as they were sent first, it does the same (`handle_firstTry`), so what
holds of first tries holds of retransmissions.
-/

namespace V2nLte

variable {α β : Type}

/-! ### Arrays of renamed objects -/

namespace CArray

theorem get_map (xs : CArray α) (f : α → β) (i : ℕ) :
    CArray.get (xs.map (Option.map f)) i = (xs.get i).map f := by
  unfold get
  rw [List.getElem?_map]
  cases xs[i]? with
  | none => rfl
  | some x => rfl

theorem remove_map (xs : CArray α) (f : α → β) (i : ℕ) :
    CArray.remove (xs.map (Option.map f)) i = (xs.remove i).map (Option.map f) := by
  unfold remove
  rw [List.map_set]
  rfl

theorem addAt_map (xs : CArray α) (f : α → β) (i : ℕ) (a : α) :
    CArray.addAt (xs.map (Option.map f)) i (f a) = (xs.addAt i a).map (Option.map f) := by
  unfold addAt
  rw [List.map_set, List.map_append, List.map_replicate, List.length_map]
  rfl

theorem size_map (xs : CArray α) (f : α → β) :
    CArray.size (xs.map (Option.map f)) = xs.size := by
  have hnone : (Option.isNone ∘ Option.map f : Option α → Bool) = Option.isNone := by
    funext x
    exact Option.isNone_map
  unfold size
  rw [← List.map_reverse, List.dropWhile_map, List.length_map, hnone]

end CArray

/-! ### First tries -/

/-- The PDU as it was sent first. -/
def LteRlcAmPdu.firstTry (pdu : LteRlcAmPdu) : LteRlcAmPdu := { pdu with txNumber := 0 }

/-- The fragments as they were sent first. -/
def AmRxOutput.firstTry : AmRxOutput → AmRxOutput
  | .sdu fragments => .sdu (fragments.map LteRlcAmPdu.firstTry)
  | .routed pdu => .routed pdu.firstTry
  | o => o

namespace AmRxQueue

variable {Q : AmRxParams}

/-- The receiver with all PDUs as they were sent first. -/
def firstTry (s : AmRxQueue) : AmRxQueue := { s with
  pduBuffer := s.pduBuffer.map (Option.map LteRlcAmPdu.firstTry)
  pendingPduBuffer := s.pendingPduBuffer.map LteRlcAmPdu.firstTry }

/-- A state and what has been seen, with all PDUs as they were sent first. -/
def firstTries (r : AmRxQueue × List AmRxOutput) : AmRxQueue × List AmRxOutput :=
  (r.1.firstTry, r.2.map AmRxOutput.firstTry)

/-- The event with its PDU as it was sent first. -/
def Event.firstTry : Event → Event
  | .enque pdu => .enque pdu.firstTry
  | .timer => .timer

section

variable {ε γ : Type}

theorem map_bind' (f : β → γ) (x : Except ε α) (g : α → Except ε β) :
    (x >>= g).map f = x >>= fun a => (g a).map f := by
  cases x with
  | ok a => rfl
  | error e => rfl

theorem bind_map' (f : α → β) (x : Except ε α) (g : β → Except ε γ) :
    x.map f >>= g = x >>= fun a => g (f a) := by
  cases x with
  | ok a => rfl
  | error e => rfl

end

theorem get_firstTry (s : AmRxQueue) (i : ℕ) :
    s.firstTry.pduBuffer.get i = (s.pduBuffer.get i).map LteRlcAmPdu.firstTry :=
  CArray.get_map _ _ i

theorem pduAt_firstTry (s : AmRxQueue) (i : ℕ) :
    s.firstTry.pduAt i = (s.pduAt i).map LteRlcAmPdu.firstTry := by
  unfold pduAt
  rw [get_firstTry]
  cases s.pduBuffer.get i with
  | none => rfl
  | some pdu => rfl

theorem sendStatusReport_firstTry (now : ℕ) (s : AmRxQueue) :
    sendStatusReport Q now s.firstTry = (sendStatusReport Q now s).map firstTries := by
  unfold sendStatusReport
  change (if now - s.lastSentAck < Q.ackReportInterval then _
    else if s.received = [] then _ else _) = _
  split
  · rfl
  · split
    · rfl
    · rfl

theorem collect_firstTry (s : AmRxQueue) (pkId total n auxIndex : ℕ)
    (frameBuff : List LteRlcAmPdu) :
    collect s.firstTry pkId total n auxIndex (frameBuff.map LteRlcAmPdu.firstTry) =
      (collect s pkId total n auxIndex frameBuff).map (List.map LteRlcAmPdu.firstTry) := by
  induction n generalizing auxIndex frameBuff with
  | zero => rfl
  | succ n ih =>
    unfold collect
    rw [List.length_map]
    split
    · rfl
    · rw [pduAt_firstTry, bind_map', map_bind']
      refine congrArg (s.pduAt auxIndex >>= ·) (funext fun pdu => ?_)
      rw [← ih, show s.firstTry.pduBuffer.size = s.pduBuffer.size from CArray.size_map _ _,
        apply_ite (List.map LteRlcAmPdu.firstTry), List.map_append]
      rfl

/-- What `passUp` does with the fragments it has collected. -/
theorem passFragments_firstTry (now : ℕ) (s : AmRxQueue) (x : Except AmRxError (List LteRlcAmPdu)) :
    (x.map (List.map LteRlcAmPdu.firstTry) >>= fun frameBuff =>
      if frameBuff = [] then .error .outOfRange
      else do
        let (s, report) ← sendStatusReport Q now s.firstTry
        .ok (s, .sdu frameBuff :: report)) =
    (x >>= fun frameBuff =>
      if frameBuff = [] then .error .outOfRange
      else do
        let (s, report) ← sendStatusReport Q now s
        .ok (s, .sdu frameBuff :: report)).map firstTries := by
  rw [bind_map', map_bind']
  refine congrArg (x >>= ·) (funext fun frameBuff => ?_)
  by_cases hnil : frameBuff = []
  · rw [if_pos hnil, if_pos (List.map_eq_nil_iff.2 hnil)]
    rfl
  · rw [if_neg hnil, if_neg fun h => hnil (List.map_eq_nil_iff.1 h), sendStatusReport_firstTry,
      bind_map', map_bind']
    rfl

theorem passUp_firstTry (now : ℕ) (s : AmRxQueue) (index : ℕ) :
    passUp Q now s.firstTry index = (passUp Q now s index).map firstTries := by
  unfold passUp
  rw [pduAt_firstTry, bind_map', map_bind']
  refine congrArg (s.pduAt index >>= ·) (funext fun header => ?_)
  change (if header.isWhole then _ else if index = 0 ∧ ¬header.isFirst then
    (if s.firstTry.pendingPduBuffer.any _ then _ else _) else _) = _
  have hsize : s.firstTry.pduBuffer.size = s.pduBuffer.size := CArray.size_map _ _
  have hany : s.firstTry.pendingPduBuffer.any
      (·.snoMainPacket ≠ header.firstTry.snoMainPacket) =
        s.pendingPduBuffer.any (·.snoMainPacket ≠ header.snoMainPacket) := List.any_map
  rw [hsize, hany]
  split
  · rw [sendStatusReport_firstTry, bind_map', map_bind']
    rfl
  · split
    · split
      · rfl
      · rw [← passFragments_firstTry, ← collect_firstTry]
        rfl
    · rw [← passFragments_firstTry, ← collect_firstTry]
      rfl

/-! ### The searches -/

theorem searchFirst_firstTry (s : AmRxQueue) (pdu : LteRlcAmPdu) (i : ℕ) :
    searchFirst s.firstTry pdu.firstTry i = searchFirst s pdu i := by
  induction i with
  | zero => rfl
  | succ i ih =>
    unfold searchFirst
    refine congrArg (boolAt s.received i >>= ·) (funext fun received => ?_)
    rw [pduAt_firstTry, bind_map', ih]
    rfl

theorem searchLast_firstTry (s : AmRxQueue) (pdu : LteRlcAmPdu) (n i : ℕ) :
    searchLast s.firstTry pdu.firstTry n i = searchLast s pdu n i := by
  induction n generalizing i with
  | zero => rfl
  | succ n ih =>
    unfold searchLast
    refine congrArg (boolAt s.received i >>= ·) (funext fun received => ?_)
    rw [pduAt_firstTry, bind_map', ih]
    rfl

theorem firstIndex_firstTry (s : AmRxQueue) (pdu : LteRlcAmPdu) (index : ℕ) :
    firstIndex s.firstTry pdu.firstTry index = firstIndex s pdu index := by
  unfold firstIndex
  rw [searchFirst_firstTry]
  rfl

theorem checkCompleteSdu_firstTry (now : ℕ) (s : AmRxQueue) (index : ℕ) :
    checkCompleteSdu Q now s.firstTry index = (checkCompleteSdu Q now s index).map firstTries := by
  unfold checkCompleteSdu
  rw [pduAt_firstTry, bind_map', map_bind']
  refine congrArg (s.pduAt index >>= ·) (funext fun pdu => ?_)
  have hsdu : (if s.firstTry.firstSdu = -1 then
      { s.firstTry with firstSdu := i32 pdu.firstTry.snoMainPacket } else s.firstTry) =
        (if s.firstSdu = -1 then { s with firstSdu := i32 pdu.snoMainPacket } else s).firstTry := by
    rw [apply_ite firstTry]
    rfl
  dsimp only
  rw [hsdu]
  generalize (if s.firstSdu = -1 then { s with firstSdu := i32 pdu.snoMainPacket } else s) = s'
  change (if pdu.isWhole then _ else _) = _
  split
  · exact passUp_firstTry now s' index
  · rw [firstIndex_firstTry, map_bind']
    refine congrArg (firstIndex s' pdu index >>= ·) (funext fun first => ?_)
    cases first with
    | none => rfl
    | some first =>
      change (if pdu.isLast then _ else _) = Except.map _ (if pdu.isLast then _ else _)
      split
      · exact passUp_firstTry now s' first
      · rw [searchLast_firstTry, map_bind']
        refine congrArg (searchLast s' pdu _ _ >>= ·) (funext fun complete => ?_)
        split
        · exact passUp_firstTry now s' first
        · rfl

/-! ### Moving the window -/

theorem leavePosition_firstTry (s : AmRxQueue) (i : ℕ) :
    leavePosition s.firstTry i = (leavePosition s i).firstTry := by
  have hremove : s.firstTry.pduBuffer.remove i =
      (s.pduBuffer.remove i).map (Option.map LteRlcAmPdu.firstTry) := CArray.remove_map _ _ _
  unfold leavePosition
  rw [get_firstTry, hremove]
  cases s.pduBuffer.get i with
  | none => rfl
  | some pdu =>
    change (if pdu.isLast ∨ pdu.isWhole then _ else _) =
      (if pdu.isLast ∨ pdu.isWhole then _ else _ : AmRxQueue).firstTry
    rw [apply_ite firstTry]
    split
    · rfl
    · unfold firstTry
      rw [List.map_append]
      rfl

theorem leavePositions_firstTry (s : AmRxQueue) (pos : ℕ) :
    (List.range pos).foldl leavePosition s.firstTry =
      ((List.range pos).foldl leavePosition s).firstTry :=
  List.foldl_hom firstTry leavePosition_firstTry

theorem shiftPosition_firstTry (pos : ℕ) (s : AmRxQueue) (i : ℕ) :
    shiftPosition pos s.firstTry i = (shiftPosition pos s i).map firstTry := by
  have hremove : s.firstTry.pduBuffer.remove i =
      (s.pduBuffer.remove i).map (Option.map LteRlcAmPdu.firstTry) := CArray.remove_map _ _ _
  unfold shiftPosition
  rw [map_bind']
  refine congrArg (shiftMark s.received pos i >>= ·) (funext fun received => ?_)
  rw [map_bind']
  refine congrArg (shiftMark s.discarded pos i >>= ·) (funext fun discarded => ?_)
  rw [get_firstTry, hremove, CArray.get_map]
  cases s.pduBuffer.get i with
  | none => rfl
  | some pdu =>
    dsimp only [Option.map_some]
    rw [Option.isSome_map, CArray.addAt_map]
    split
    · rfl
    · rfl

theorem shiftPositions_firstTry (pos : ℕ) (s : AmRxQueue) (is : List ℕ) :
    is.foldlM (shiftPosition pos) s.firstTry =
      (is.foldlM (shiftPosition pos) s).map firstTry := by
  induction is generalizing s with
  | nil => rfl
  | cons i is ih =>
    rw [List.foldlM_cons, List.foldlM_cons, shiftPosition_firstTry, bind_map', map_bind']
    exact congrArg (shiftPosition pos s i >>= ·) (funext fun s' => ih s')

theorem moveRxWindow_firstTry (s : AmRxQueue) (seqNum : ℤ) :
    moveRxWindow Q s.firstTry seqNum = (moveRxWindow Q s seqNum).map firstTry := by
  unfold moveRxWindow
  change (if i32 (sub32 (ofInt32 seqNum) s.rxWindowDesc.firstSeqNum) ≤ 0 then _
    else if Q.rxWindowSize < sub32 (ofInt32 seqNum) s.rxWindowDesc.firstSeqNum then _ else _) = _
  dsimp only
  split
  · rfl
  · split
    · rfl
    · change (List.foldlM _ (List.foldl leavePosition s.firstTry (List.range
        (sub32 (ofInt32 seqNum) s.rxWindowDesc.firstSeqNum))) _ >>= _) = _
      rw [leavePositions_firstTry, shiftPositions_firstTry, bind_map', map_bind']
      rfl

/-! ### Events -/

theorem buffer_firstTry (now : ℕ) (s : AmRxQueue) (pdu : LteRlcAmPdu) (index : ℕ) :
    buffer Q now s.firstTry pdu.firstTry index = (buffer Q now s pdu index).map firstTries := by
  unfold buffer
  rw [map_bind']
  refine congrArg (boolAt s.received index >>= ·) (funext fun received => ?_)
  have hadd : s.firstTry.pduBuffer.addAt index pdu.firstTry =
      (s.pduBuffer.addAt index pdu).map (Option.map LteRlcAmPdu.firstTry) := CArray.addAt_map ..
  split
  · rw [pduAt_firstTry, bind_map', map_bind']
    refine congrArg (s.pduAt index >>= ·) (funext fun buffered => ?_)
    change (if buffered.snoMainPacket = pdu.snoMainPacket then _ else _) = _
    split
    · rfl
    · rfl
  · rw [get_firstTry, Option.isSome_map, hadd]
    split
    · rfl
    · exact checkCompleteSdu_firstTry now { s with
        pduBuffer := s.pduBuffer.addAt index pdu
        received := s.received.set index true } index

theorem enqueData_firstTry (now : ℕ) (s : AmRxQueue) (pdu : LteRlcAmPdu) :
    enqueData Q now s.firstTry pdu.firstTry = (enqueData Q now s pdu).map firstTries := by
  unfold enqueData
  change (if i32 (sub32 pdu.snoFragment s.rxWindowDesc.firstSeqNum) < 0 then _
    else if Q.rxWindowSize ≤ sub32 pdu.snoFragment s.rxWindowDesc.firstSeqNum then _
    else if pdu.snoFragment = s.rxWindowDesc.seqNum then _ else _) = _
  dsimp only
  split
  · rfl
  · split
    · rfl
    · split
      · exact buffer_firstTry now { s with
          timer := true, flowControlInfo := true
          rxWindowDesc.seqNum := u32 (s.rxWindowDesc.seqNum + 1) } pdu _
      · have hreport := sendStatusReport_firstTry (Q := Q) now { s with
          timer := true, flowControlInfo := true
          rxWindowDesc.seqNum := u32 (pdu.snoFragment + 1) }
        change (sendStatusReport Q now (firstTry { s with
          timer := true, flowControlInfo := true
          rxWindowDesc.seqNum := u32 (pdu.snoFragment + 1) }) >>= _) = _
        rw [hreport, bind_map', map_bind']
        refine congrArg (sendStatusReport Q now _ >>= ·) (funext fun r => ?_)
        obtain ⟨s', report⟩ := r
        change (buffer Q now s'.firstTry pdu.firstTry _ >>= _) = _
        rw [buffer_firstTry, bind_map']
        dsimp only
        rw [map_bind']
        refine congrArg (buffer Q now s' pdu _ >>= ·) (funext fun r => ?_)
        exact congrArg (fun os => Except.ok (r.1.firstTry, os)) List.map_append.symm

theorem enque_firstTry (now : ℕ) (s : AmRxQueue) (pdu : LteRlcAmPdu) :
    enque Q now s.firstTry pdu.firstTry = (enque Q now s pdu).map firstTries := by
  unfold enque
  rw [show pdu.firstTry.amType = pdu.amType from rfl]
  cases pdu.amType with
  | DATA => exact enqueData_firstTry now s pdu
  | MRW =>
    dsimp only
    change (moveRxWindow Q s.firstTry pdu.lastSn >>= _) = _
    rw [moveRxWindow_firstTry, bind_map', map_bind']
    refine congrArg (moveRxWindow Q s pdu.lastSn >>= ·) (funext fun s' => ?_)
    change (if s'.flowControlInfo then _ else _) =
      Except.map _ (if s'.flowControlInfo then _ else _)
    split
    · rfl
    · rfl
  | ACK => rfl
  | MRW_ACK => rfl

theorem handleMessage_firstTry (now : ℕ) (s : AmRxQueue) :
    handleMessage Q now s.firstTry = (handleMessage Q now s).map firstTries := by
  unfold handleMessage
  have hreport := sendStatusReport_firstTry (Q := Q) now { s with timer := false }
  change (sendStatusReport Q now (firstTry { s with timer := false }) >>= _) = _
  rw [hreport, bind_map', map_bind']
  refine congrArg (sendStatusReport Q now _ >>= ·) (funext fun r => ?_)
  obtain ⟨s', report⟩ := r
  have hany : ((List.range Q.rxWindowSize).any fun i => (s'.firstTry.pduBuffer.get i).isSome) =
      (List.range Q.rxWindowSize).any fun i => (s'.pduBuffer.get i).isSome := by
    refine congrArg (List.range Q.rxWindowSize).any (funext fun i => ?_)
    rw [get_firstTry, Option.isSome_map]
  change Except.ok ({ s'.firstTry with
    timer := (List.range Q.rxWindowSize).any fun i => (s'.firstTry.pduBuffer.get i).isSome }, _) = _
  rw [hany]
  rfl

/-- **The receiver does not read the number of the try.** -/
theorem handle_firstTry (now : ℕ) (s : AmRxQueue) (e : Event) :
    handle Q now s.firstTry e.firstTry = (handle Q now s e).map firstTries := by
  cases e with
  | enque pdu => exact enque_firstTry now s pdu
  | timer => exact handleMessage_firstTry now s

end AmRxQueue

end V2nLte
