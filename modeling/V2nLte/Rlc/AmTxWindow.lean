import V2nLte.Machine.Shift
import V2nLte.Rlc.AmTx
import Mathlib.Data.List.Nodup

/-!
# The transmission window of RLC AM

The window consists of arrays side by side: the PDUs, their marks `received` and `discarded`, and
the retransmission timers, which have the sequence numbers as their keys.  At any time the PDUs in
flight are at its beginning, in the order of their sequence numbers, what follows is free and not
marked, and a timer runs only for a PDU that is neither received nor discarded.  Every handler
keeps this, those that call each other as well.

`nextSdu` asks whether an SDU fits by adding sequence numbers, and not by subtracting them as the
loop of `addPdus` does.  When the sum leaves the range of an `unsigned int` an SDU is accepted that
does not fit: the window becomes full, and when it moves, the fragments that are left go to the
positions that were computed for the old window.

## Main results

* `AmTxQueue.window_run` : the window is in order in every run where no SDU is accepted that does
  not fit, and neither moving it nor an expired timer throws.
* `AmTxQueue.stale_positions` : a run after which moving the window throws.
-/

namespace V2nLte

namespace AmTxQueue

/-! ### The order of the window -/

/-- The sequence number of position `i`. -/
def seqNumAt (s : AmTxQueue) (i : ℕ) : ℕ := u32 (i + s.txWindowDesc.firstSeqNum)

/-- The window is in order. -/
structure InOrder (s : AmTxQueue) : Prop where
  /-- The PDUs in flight are at the beginning of the window. -/
  pdu : ∀ i < s.used, ∃ pdu, s.pduRtxQueue.get i = some pdu ∧ pdu.snoFragment = s.seqNumAt i
  /-- The rest of the window holds no PDU. -/
  free : ∀ i, s.used ≤ i → s.pduRtxQueue.get i = none
  /-- Nothing behind them is marked as received. -/
  received : ∀ i, s.used ≤ i → flag s.received i = false
  /-- Nothing behind them is marked as discarded. -/
  discarded : ∀ i, s.used ≤ i → flag s.discarded i = false
  /-- A timer runs only for a PDU in flight that is neither received nor discarded. -/
  timer : ∀ sn ∈ s.pduTimer, ∃ i < s.used, sn = s.seqNumAt i ∧ flag s.received i = false ∧
    flag s.discarded i = false

/-- The window is in order, and all its parts are of the right size. -/
structure Window (P : AmTxParams) (s : AmTxQueue) : Prop extends InOrder s where
  first_lt : s.txWindowDesc.firstSeqNum < 4294967296
  seqNum_lt : s.txWindowDesc.seqNum < 4294967296
  used_le : s.used ≤ P.txWindowSize
  received_length : s.received.length = P.txWindowSize
  discarded_length : s.discarded.length = P.txWindowSize + 1
  timer_nodup : s.pduTimer.Nodup

/-- The numbers of the MRW commands have not been used before. -/
structure Mrw (s : AmTxQueue) : Prop where
  free : ∀ i, s.mrwDesc.mrwSeqNum ≤ i → s.mrwRtxQueue.get i = none
  timer : ∀ sn ∈ s.mrwTimer, sn < s.mrwDesc.mrwSeqNum
  le : s.mrwDesc.mrwSeqNum ≤ 2147483648

/-- What holds between two events: no SDU is in the middle of being put into the window, and none
waits, unless the window has no position at all. -/
structure Ready (P : AmTxParams) (s : AmTxQueue) : Prop where
  window : Window P s
  mrw : Mrw s
  currentSdu : s.currentSdu = none
  fragmentList : s.fragmentList = none
  room : P.txWindowSize = 0 ∨ s.sduQueue = [] ∧ s.used < P.txWindowSize

variable {P : AmTxParams} {s s' s'' : AmTxQueue} {i : ℕ} {b : Bool} {xs : List Bool}

theorem readAt_of_lt (hi : i < xs.length) : readAt xs i = .ok (flag xs i) := by
  unfold readAt flag
  rw [List.getD_eq_getElem?_getD, List.getElem?_eq_getElem hi]
  rfl

theorem writeAt_of_lt (hi : i < xs.length) : writeAt xs i b = .ok (xs.set i b) := if_pos hi

theorem sub32_seqNumAt (hw : Window P s) (hi : i < s.used) :
    sub32 (s.seqNumAt i) s.txWindowDesc.firstSeqNum = i := by
  have hW := P.txWindowSize_lt
  have hle := hw.used_le
  have hfirst := hw.first_lt
  unfold seqNumAt sub32 u32
  omega

/-! ### Marks -/

/-- Some PDUs in flight have been marked. -/
structure Marks (P : AmTxParams) (s s' : AmTxQueue) : Prop where
  ready : Ready P s'
  txWindowDesc : s'.txWindowDesc = s.txWindowDesc
  pduRtxQueue : s'.pduRtxQueue = s.pduRtxQueue
  mrwDesc : s'.mrwDesc = s.mrwDesc

theorem Marks.refl (h : Ready P s) : Marks P s s := ⟨h, rfl, rfl, rfl⟩

theorem Marks.trans (h : Marks P s s') (h' : Marks P s' s'') : Marks P s s'' :=
  ⟨h'.ready, h'.txWindowDesc.trans h.txWindowDesc, h'.pduRtxQueue.trans h.pduRtxQueue,
    h'.mrwDesc.trans h.mrwDesc⟩

theorem Marks.used (h : Marks P s s') : s'.used = s.used := by
  unfold AmTxQueue.used
  rw [h.txWindowDesc]

theorem Ready.received_lt (h : Ready P s) (hi : i < s.used) : i < s.received.length := by
  have hlen := h.window.received_length
  have hle := h.window.used_le
  omega

theorem Ready.discarded_lt (h : Ready P s) (hi : i ≤ s.used) : i < s.discarded.length := by
  have hlen := h.window.discarded_length
  have hle := h.window.used_le
  omega

/-- **A PDU in flight is marked**, in whatever way, and its timer stopped. -/
theorem Ready.mark (h : Ready P s) (hi : i < s.used) {received discarded : List Bool}
    (hreceived : received.length = s.received.length)
    (hdiscarded : discarded.length = s.discarded.length)
    (hr : ∀ j, j ≠ i → flag received j = flag s.received j)
    (hd : ∀ j, j ≠ i → flag discarded j = flag s.discarded j) :
    Marks P s (stopTimer { s with received, discarded } i) := by
  have hw := h.window
  refine ⟨⟨⟨⟨hw.pdu, hw.free, fun j hj => ?_, fun j hj => ?_, fun sn hsn => ?_⟩, hw.first_lt,
    hw.seqNum_lt, hw.used_le, hreceived.trans hw.received_length,
    hdiscarded.trans hw.discarded_length, hw.timer_nodup.erase _⟩, ⟨h.mrw.free, h.mrw.timer,
    h.mrw.le⟩, h.currentSdu, h.fragmentList, h.room⟩, rfl, rfl, rfl⟩
  · have hij : j ≠ i := by have : s.used ≤ j := hj; omega
    exact (hr j hij).trans (hw.received j hj)
  · have hij : j ≠ i := by have : s.used ≤ j := hj; omega
    exact (hd j hij).trans (hw.discarded j hj)
  · -- the timers that still run are those of other positions
    obtain ⟨hne, hmem⟩ := (hw.timer_nodup.mem_erase_iff).1 hsn
    obtain ⟨j, hj, rfl, hjr, hjd⟩ := hw.timer sn hmem
    have hij : j ≠ i := by
      rintro rfl
      exact hne rfl
    exact ⟨j, hj, rfl, (hr j hij).trans hjr, (hd j hij).trans hjd⟩

theorem Ready.mark_received (h : Ready P s) (hi : i < s.used) (b : Bool) :
    Marks P s (stopTimer { s with received := s.received.set i b } i) := by
  refine h.mark hi (List.length_set ..) rfl (fun j hj => ?_) fun _ _ => rfl
  rw [flag_set (h.received_lt hi), Function.update_of_ne hj]

theorem Ready.mark_discarded (h : Ready P s) (hi : i < s.used) (b : Bool) :
    Marks P s (stopTimer { s with discarded := s.discarded.set i b } i) := by
  refine h.mark hi rfl (List.length_set ..) (fun _ _ => rfl) fun j hj => ?_
  rw [flag_set (h.discarded_lt hi.le), Function.update_of_ne hj]

theorem markReceived_spec (h : Ready P s) (hi : i < s.used) :
    Ensures (fun _ => False) (Marks P s) (s.markReceived i) := by
  unfold markReceived
  rw [readAt_of_lt (h.received_lt hi)]
  change Ensures _ _ (if flag s.received i then _ else _)
  split
  · exact Marks.refl h
  · exact h.mark_received hi true

theorem discardForward_spec (h : Ready P s) (sno : ℕ) {n i : ℕ} (hn : i + n ≤ s.used) :
    Ensures (fun _ => False) (Marks P s) (discardForward sno n i s) := by
  induction n generalizing i s with
  | zero => exact Marks.refl h
  | succ n ih =>
    unfold discardForward
    split
    · exact Marks.refl h
    · split
      · rw [readAt_of_lt (h.discarded_lt (by omega))]
        change Ensures _ _ (discardForward sno n (i + 1) (if flag s.discarded i then _ else _))
        split
        · exact ih h (by omega)
        · have hmark := h.mark_discarded (i := i) (by omega) true
          refine (ih hmark.ready ?_).mono fun s' h' => hmark.trans h'
          rw [hmark.used]
          omega
      · exact Marks.refl h

theorem discardBackward_spec (h : Ready P s) (sno : ℕ) {i : ℕ} (hi : i ≤ s.used) :
    Ensures (fun _ => False) (Marks P s) (discardBackward sno i s) := by
  induction i generalizing s with
  | zero => exact Marks.refl h
  | succ i ih =>
    unfold discardBackward
    obtain ⟨pdu, hpdu, -⟩ := h.window.pdu i hi
    rw [hpdu]
    dsimp only
    split
    · rw [writeAt_of_lt (h.discarded_lt (by omega))]
      have hmark := h.mark_discarded hi true
      refine (ih hmark.ready ?_).mono fun s' h' => hmark.trans h'
      rw [hmark.used]
      omega
    · exact Marks.refl h

/-! ### Commands to move the window -/

/-- The part of the state that the order of the window is about. -/
def windowPart (s : AmTxQueue) :
    CArray LteRlcAmPdu × List Bool × List Bool × RlcWindowDesc × List ℕ :=
  (s.pduRtxQueue, s.received, s.discarded, s.txWindowDesc, s.pduTimer)

theorem Window.congr (h : Window P s) (hs : s'.windowPart = s.windowPart) : Window P s' := by
  cases s
  cases s'
  simp only [windowPart, Prod.mk.injEq] at hs
  obtain ⟨rfl, rfl, rfl, rfl, rfl⟩ := hs
  exact ⟨⟨h.pdu, h.free, h.received, h.discarded, h.timer⟩, h.first_lt, h.seqNum_lt, h.used_le,
    h.received_length, h.discarded_length, h.timer_nodup⟩

/-- The part of the state that `Ready` is about. -/
def core (s : AmTxQueue) : AmTxQueue := { s with
  txWindowIndexList := [], fragDesc := {}, pduBuffer := [], bufferStatusTimer := false, out := [] }

theorem Ready.congr (h : Ready P s) (hs : s'.core = s.core) : Ready P s' := by
  cases s
  cases s'
  simp only [core, AmTxQueue.mk.injEq, true_and, and_true] at hs
  obtain ⟨rfl, rfl, rfl, rfl, rfl, rfl, rfl, rfl, rfl, rfl, rfl⟩ := hs
  exact ⟨h.window.congr rfl, ⟨h.mrw.free, h.mrw.timer, h.mrw.le⟩, h.currentSdu, h.fragmentList,
    h.room⟩

@[simp] theorem core_bufferPdu {pdu : LteRlcAmPdu} : (s.bufferPdu pdu).core = s.core := by
  unfold bufferPdu
  split <;> rfl

/-- Nothing but the commands to move the window has changed. -/
theorem Ready.with_mrw (h : Ready P s) {mrwRtxQueue : CArray LteRlcAmPdu} {mrwTimer : List ℕ}
    {mrwDesc : MrwDesc} (hmrw : Mrw { s with mrwRtxQueue, mrwTimer, mrwDesc }) :
    Ready P { s with mrwRtxQueue, mrwTimer, mrwDesc } :=
  ⟨h.window.congr rfl, hmrw, h.currentSdu, h.fragmentList, h.room⟩

/-- The window has not moved. -/
structure Stays (P : AmTxParams) (s s' : AmTxQueue) : Prop where
  ready : Ready P s'
  txWindowDesc : s'.txWindowDesc = s.txWindowDesc

theorem Stays.used (h : Stays P s s') : s'.used = s.used := by
  unfold AmTxQueue.used
  rw [h.txWindowDesc]

/-- `sendMrw` throws after `2 ^ 31` commands only. -/
theorem sendMrw_spec (h : Ready P s) (sn : ℤ) :
    Ensures (fun _ => s.mrwDesc.mrwSeqNum = 2147483648) (Stays P s) (sendMrw P s sn) := by
  have hle := h.mrw.le
  unfold sendMrw
  dsimp only
  split
  · rename_i hneg
    unfold i32 u32 at hneg
    exact show s.mrwDesc.mrwSeqNum = 2147483648 by split_ifs at hneg <;> omega
  · rename_i hneg
    have hlt : s.mrwDesc.mrwSeqNum < 2147483648 := by
      rcases hle.lt_or_eq with hlt | heq
      · exact hlt
      · rw [heq] at hneg
        exact absurd (i32_neg (le_refl _) (by decide)) hneg
    rw [h.mrw.free _ le_rfl, timerAdd, if_neg fun hmem => (h.mrw.timer _ hmem).false]
    refine ⟨Ready.congr (h.with_mrw ?_) core_bufferPdu, bufferPdu_txWindowDesc⟩
    have hnext : u32 (s.mrwDesc.mrwSeqNum + 1) = s.mrwDesc.mrwSeqNum + 1 := u32_of_lt (by omega)
    refine ⟨fun i hi => ?_, fun sn hsn => ?_, ?_⟩
    · dsimp only at hi ⊢
      rw [hnext] at hi
      rw [CArray.get_addAt, Function.update_of_ne (by omega)]
      exact h.mrw.free i (by omega)
    · dsimp only at hsn ⊢
      rw [hnext]
      rcases List.mem_append.1 hsn with hsn | hsn
      · exact Nat.lt_succ_of_lt (h.mrw.timer sn hsn)
      · rw [List.mem_singleton.1 hsn]
        exact Nat.lt_succ_self _
    · dsimp only
      omega

theorem doneFrom_spec (h : Ready P s) {n i : ℕ} (hn : i + n ≤ s.used) :
    Ensures (fun _ => False) (fun _ => True) (s.doneFrom n i) := by
  induction n generalizing i with
  | zero => trivial
  | succ n ih =>
    unfold doneFrom
    rw [readAt_of_lt (h.discarded_lt (by omega)), readAt_of_lt (h.received_lt (by omega))]
    change Ensures _ _ (do
      let done ← if flag s.discarded i then .ok true else .ok (flag s.received i)
      if done then return (← doneFrom s n (i + 1)) + 1 else return 0)
    have hnext : Ensures (fun _ => False) (fun _ => True)
        (do return (← doneFrom s n (i + 1)) + 1) :=
      Ensures.bind (ih (by omega)) fun _ _ => trivial
    split
    · exact hnext
    · change Ensures _ _ (if flag s.received i then _ else _)
      split
      · exact hnext
      · trivial

theorem checkForMrw_spec (h : Ready P s) :
    Ensures (fun _ => s.mrwDesc.mrwSeqNum = 2147483648) (Stays P s) (checkForMrw P s) := by
  unfold checkForMrw
  obtain ⟨n, hn, -⟩ := Ensures.exists_ok (doneFrom_spec h (n := s.used) (i := 0) (by omega))
  rw [hn]
  change Ensures _ _ (if 0 < n then _ else _)
  split
  · exact sendMrw_spec h _
  · exact ⟨h, rfl⟩

/-! ### Acknowledgements and timers -/

/-- Some timers have been stopped. -/
theorem Ready.with_timer (h : Ready P s) {pduTimer : List ℕ} (hsub : pduTimer.Sublist s.pduTimer) :
    Ready P { s with pduTimer } :=
  ⟨⟨⟨h.window.pdu, h.window.free, h.window.received, h.window.discarded,
    fun sn hsn => h.window.timer sn (hsub.subset hsn)⟩, h.window.first_lt, h.window.seqNum_lt,
    h.window.used_le, h.window.received_length, h.window.discarded_length,
    hsub.nodup h.window.timer_nodup⟩, ⟨h.mrw.free, h.mrw.timer, h.mrw.le⟩, h.currentSdu,
    h.fragmentList, h.room⟩

/-- Giving up the SDU of a PDU in flight marks all its PDUs. -/
theorem discard_spec (h : Ready P s) (hi : i < s.used) :
    Ensures (fun _ => s.mrwDesc.mrwSeqNum = 2147483648) (Ready P)
      (discard P s (s.seqNumAt i)) := by
  have hle := h.window.used_le
  obtain ⟨pdu, hpdu, -⟩ := h.window.pdu i hi
  unfold discard
  rw [sub32_seqNumAt h.window hi]
  dsimp only
  rw [if_neg (by omega), writeAt_of_lt (h.discarded_lt hi.le)]
  simp only [hpdu]
  have hmark := h.mark_discarded hi true
  have hused := hmark.used
  obtain ⟨s₁, hs₁, h₁⟩ := Ensures.exists_ok
    (discardForward_spec hmark.ready pdu.snoMainPacket (n := s.used - (i + 1)) (i := i + 1)
      (by omega))
  obtain ⟨s₂, hs₂, h₂⟩ := Ensures.exists_ok
    (discardBackward_spec h₁.ready pdu.snoMainPacket (i := i)
      (by rw [h₁.used, hused]; omega))
  have hbefore : s₂.mrwDesc = s.mrwDesc := (hmark.trans (h₁.trans h₂)).mrwDesc
  change Ensures _ _ (discardForward pdu.snoMainPacket (s.used - (i + 1)) (i + 1)
    (stopTimer { s with discarded := s.discarded.set i true } i) >>= _)
  rw [hs₁]
  change Ensures _ _ (discardBackward pdu.snoMainPacket i s₁ >>= _)
  rw [hs₂]
  have hready : Ready P (s₂.emit (.discarded pdu.snoMainPacket)) := h₂.ready.congr rfl
  have hcheck := checkForMrw_spec hready
  rw [show (s₂.emit (.discarded pdu.snoMainPacket)).mrwDesc = s.mrwDesc from hbefore] at hcheck
  exact hcheck.mono fun s' => Stays.ready

/-- A PDU in flight that is taken out and added comes to the same position: it is the only one at
the beginning of the window that is free. -/
theorem Ready.get_add_remove (h : Ready P s) (hi : i < s.used) (pdu : LteRlcAmPdu) :
    ((s.pduRtxQueue.remove i).add pdu).get = Function.update s.pduRtxQueue.get i (some pdu) := by
  rw [CArray.get_add (i := i), CArray.get_remove, Function.update_idem]
  · intro j hj
    rw [CArray.get_remove, Function.update_of_ne hj.ne]
    obtain ⟨p, hp, -⟩ := h.window.pdu j (by omega)
    rw [hp]
    rfl
  · rw [CArray.get_remove, Function.update_self]

/-- A PDU in flight is sent again. -/
theorem Ready.retransmit (h : Ready P s) (hi : i < s.used) {pdu : LteRlcAmPdu}
    (hpdu : pdu.snoFragment = s.seqNumAt i) (hr : flag s.received i = false)
    (hd : flag s.discarded i = false) (hidle : s.seqNumAt i ∉ s.pduTimer) :
    Ready P { s with
      pduRtxQueue := (s.pduRtxQueue.remove i).add pdu
      pduTimer := s.pduTimer ++ [s.seqNumAt i] } := by
  have hw := h.window
  have hget := h.get_add_remove hi pdu
  refine ⟨⟨⟨fun j hj => ?_, fun j hj => ?_, hw.received, hw.discarded, fun sn hsn => ?_⟩,
    hw.first_lt, hw.seqNum_lt, hw.used_le, hw.received_length, hw.discarded_length, ?_⟩,
    ⟨h.mrw.free, h.mrw.timer, h.mrw.le⟩, h.currentSdu, h.fragmentList, h.room⟩
  · dsimp only
    rw [hget]
    by_cases hji : j = i
    · subst hji
      exact ⟨pdu, Function.update_self .., hpdu⟩
    · rw [Function.update_of_ne hji]
      exact hw.pdu j hj
  · dsimp only
    rw [hget, Function.update_of_ne (by have : s.used ≤ j := hj; omega)]
    exact hw.free j hj
  · rcases List.mem_append.1 hsn with hsn | hsn
    · exact hw.timer sn hsn
    · exact ⟨i, hi, List.mem_singleton.1 hsn, hr, hd⟩
  · rw [← List.concat_eq_append]
    exact List.Nodup.concat hidle hw.timer_nodup

/-- **An expired retransmission timer**: the PDU is in the window and has not been received.  All
of it goes well as long as an MRW command can be sent. -/
theorem pduTimerHandle_spec (h : Ready P s) {sn : ℕ} (hsn : sn ∈ s.pduTimer) :
    Ensures (fun _ => s.mrwDesc.mrwSeqNum = 2147483648) (Ready P)
      (pduTimerHandle P { s with pduTimer := s.pduTimer.erase sn } sn) := by
  have hle := h.window.used_le
  obtain ⟨i, hi, rfl, hr, hd⟩ := h.window.timer sn hsn
  obtain ⟨pdu, hpdu, hsno⟩ := h.window.pdu i hi
  have hstopped := h.with_timer (List.erase_sublist (a := s.seqNumAt i))
  have hidle : s.seqNumAt i ∉ s.pduTimer.erase (s.seqNumAt i) :=
    h.window.timer_nodup.not_mem_erase
  unfold pduTimerHandle
  dsimp only
  rw [sub32_seqNumAt h.window hi, if_neg (by omega), hpdu]
  dsimp only
  rw [readAt_of_lt (h.received_lt hi), hr]
  change Ensures _ _ (if P.maxRtx < pdu.txNumber + 1 then _ else _)
  split
  · exact discard_spec hstopped hi
  · rw [timerAdd, if_neg hidle]
    have hagain := hstopped.retransmit hi
      (show ({ pdu with txNumber := (pdu.txNumber + 1) % 65536 } : LteRlcAmPdu).snoFragment = _
        from hsno) hr hd hidle
    exact hagain.congr core_bufferPdu

/-- The sequence number is not that of a position of the window that is free. -/
def Sent (P : AmTxParams) (s : AmTxQueue) (sn : ℕ) : Prop :=
  sub32 sn s.txWindowDesc.firstSeqNum < P.txWindowSize →
    sub32 sn s.txWindowDesc.firstSeqNum < s.used

instance (s : AmTxQueue) (sn : ℕ) : Decidable (Sent P s sn) :=
  inferInstanceAs (Decidable (_ → _))

theorem Sent.marks {sn : ℕ} (h : Sent P s sn) (hm : Marks P s s') : Sent P s' sn := by
  unfold Sent
  rw [hm.used, hm.txWindowDesc]
  exact h

theorem recvAck_spec (h : Ready P s) {sn : ℤ} (hsent : Sent P s (ofInt32 sn)) :
    Ensures (fun _ => True) (Marks P s) (recvAck P s sn) := by
  unfold recvAck
  dsimp only
  split
  · exact Marks.refl h
  · split
    · trivial
    · rename_i hlt
      obtain ⟨s', hs', hm⟩ := Ensures.exists_ok (markReceived_spec h (hsent (Nat.not_le.1 hlt)))
      rw [hs']
      exact hm

/-- A loop that marks a position outside of the window throws there. -/
theorem markReceived_out {n : ℕ} (hlen : s.received.length ≤ n) :
    Ensures (fun _ => True) (fun _ => False) ((List.range (n + 1)).foldlM markReceived s) := by
  have hloop : Ensures (fun _ => True)
      (fun s' => s'.received.length = s.received.length ∧ 0 + (n + 1) ≤ s.received.length)
      ((List.range' 0 (n + 1)).foldlM markReceived s) := by
    refine Ensures.foldlM_range' (I := fun j (s' : AmTxQueue) =>
      s'.received.length = s.received.length ∧ j ≤ s.received.length) ⟨rfl, Nat.zero_le _⟩
      fun j s' hj hjn hI => ?_
    unfold markReceived readAt
    split
    · rename_i r hr
      have hlt := (List.getElem?_eq_some_iff.1 hr).1
      change Ensures _ _ (if r then _ else _)
      split
      · exact ⟨hI.1, by omega⟩
      · exact ⟨(List.length_set ..).trans hI.1, by omega⟩
    · trivial
  rw [List.range_eq_range']
  exact hloop.mono fun s' hI => by omega

theorem recvCumulativeAck_spec (h : Ready P s) {sn : ℤ} (hsent : Sent P s (ofInt32 sn)) :
    Ensures (fun _ => True) (Stays P s) (recvCumulativeAck P s sn) := by
  unfold recvCumulativeAck
  split
  · exact ⟨h, rfl⟩
  split
  · trivial
  dsimp only
  by_cases hin : sub32 (ofInt32 sn) s.txWindowDesc.firstSeqNum < P.txWindowSize
  · have hused := hsent hin
    have hloop : Ensures (fun _ => False) (Marks P s)
        ((List.range' 0 (sub32 (ofInt32 sn) s.txWindowDesc.firstSeqNum + 1)).foldlM
          markReceived s) := by
      refine Ensures.foldlM_range' (I := fun _ => Marks P s) (Marks.refl h)
        fun j s' hj hjn hm => ?_
      exact (markReceived_spec hm.ready (by rw [hm.used]; omega)).mono fun s'' h' => hm.trans h'
    rw [← List.range_eq_range'] at hloop
    obtain ⟨s', hs', hm⟩ := hloop.exists_ok
    rw [hs']
    change Ensures (fun _ => True) (Stays P s) (checkForMrw P s')
    refine Ensures.mono (Ensures.weaken (checkForMrw_spec hm.ready) fun _ _ => trivial)
      fun s'' h' => ?_
    exact ⟨h'.ready, h'.txWindowDesc.trans hm.txWindowDesc⟩
  · have hout := markReceived_out (s := s)
      (h.window.received_length.trans_le (Nat.not_lt.1 hin))
    cases hc : (List.range (sub32 (ofInt32 sn) s.txWindowDesc.firstSeqNum + 1)).foldlM
        markReceived s with
    | error e => trivial
    | ok s' =>
      rw [hc] at hout
      exact hout.elim

/-- The sequence numbers that an ACK acknowledges. -/
def acked (firstSn lastSn : ℤ) (bitmap : List Bool) : List ℕ :=
  ofInt32 lastSn :: ((List.range bitmap.length).filter fun i => bitmap.getD i false).map
    fun i : ℕ => ofInt32 (firstSn + i)

theorem handleAck_spec (h : Ready P s) {firstSn lastSn : ℤ} {bitmap : List Bool}
    (hsent : ∀ sn ∈ acked firstSn lastSn bitmap, Sent P s sn) :
    Ensures (fun _ => True) (Ready P) (handleAck P s firstSn lastSn bitmap) := by
  refine Ensures.bind (recvCumulativeAck_spec h (hsent _ List.mem_cons_self)) fun s₁ h₁ => ?_
  refine Ensures.mono (Ensures.foldlM_prefix (I := fun _ => Stays P s) h₁
    fun pre i post s₂ hi h₂ => ?_) fun s' => Stays.ready
  split
  · rename_i hbit
    have hmem : i ∈ List.range bitmap.length := by
      rw [hi]
      exact List.mem_append_right _ List.mem_cons_self
    have hs : Sent P s (ofInt32 (firstSn + i)) := hsent _ (List.mem_cons_of_mem _
      (List.mem_map.2 ⟨i, List.mem_filter.2 ⟨hmem, hbit⟩, rfl⟩))
    refine (recvAck_spec h₂.ready ?_).mono fun s₃ h₃ =>
      ⟨h₃.ready, h₃.txWindowDesc.trans h₂.txWindowDesc⟩
    unfold Sent at hs ⊢
    rwa [h₂.used, h₂.txWindowDesc]
  · exact h₂

/-! ### The window moves -/

/-- The positions before `j` have been freed or moved. -/
structure Moving (s : AmTxQueue) (pos j : ℕ) (s' : AmTxQueue) : Prop where
  frame : s' = { s with
    pduRtxQueue := s'.pduRtxQueue, received := s'.received, discarded := s'.discarded
    pduTimer := s'.pduTimer }
  pduRtxQueue : s'.pduRtxQueue.get = shifted s.pduRtxQueue.get none pos j
  received : flag s'.received = shifted (flag s.received) false pos j
  discarded : flag s'.discarded = shifted (flag s.discarded) false pos j
  received_length : s'.received.length = s.received.length
  discarded_length : s'.discarded.length = s.discarded.length
  timer : s'.pduTimer.Sublist s.pduTimer
  stopped : ∀ i < j, i < pos → s.seqNumAt i ∉ s'.pduTimer

theorem Moving.start (pos : ℕ) : Moving s pos 0 s where
  frame := rfl
  pduRtxQueue := shifted_zero.symm
  received := shifted_zero.symm
  discarded := shifted_zero.symm
  received_length := rfl
  discarded_length := rfl
  timer := List.Sublist.refl _
  stopped := fun _ hi => absurd hi (Nat.not_lt_zero _)

theorem Moving.txWindowDesc {pos j : ℕ} (h : Moving s pos j s') :
    s'.txWindowDesc = s.txWindowDesc := by
  rw [h.frame]

theorem freePosition_spec {pos j : ℕ} (h : Ready P s) (hm : Moving s pos j s') (hj : j < pos)
    (hpos : pos ≤ s.used) :
    Ensures (fun _ => False) (Moving s pos (j + 1)) (freePosition s' j) := by
  obtain ⟨pdu, hpdu, -⟩ := h.window.pdu j (by omega)
  have hget : s'.pduRtxQueue.get j = some pdu := by
    rw [hm.pduRtxQueue, shifted_of_le le_rfl, hpdu]
  have hr : j < s'.received.length := hm.received_length ▸ h.received_lt (by omega)
  have hd : j < s'.discarded.length := hm.discarded_length ▸ h.discarded_lt (by omega)
  have hnodup := hm.timer.nodup h.window.timer_nodup
  unfold freePosition
  rw [hget, writeAt_of_lt hr, writeAt_of_lt hd]
  constructor
  · rw [hm.frame]
    rfl
  · exact (CArray.get_remove _ _).trans (by rw [hm.pduRtxQueue, shifted_clear hj])
  · exact (flag_set hr).trans (by rw [hm.received, shifted_clear hj])
  · exact (flag_set hd).trans (by rw [hm.discarded, shifted_clear hj])
  · exact (List.length_set ..).trans hm.received_length
  · exact (List.length_set ..).trans hm.discarded_length
  · exact List.erase_sublist.trans hm.timer
  · intro i hi hip hmem
    have hsn : u32 (j + s'.txWindowDesc.firstSeqNum) = s.seqNumAt j := by
      rw [hm.txWindowDesc]
      rfl
    obtain ⟨hne, hmem⟩ := (hnodup.mem_erase_iff).1 hmem
    rcases Nat.lt_succ_iff_lt_or_eq.1 hi with hlt | rfl
    · exact hm.stopped i hlt hip hmem
    · exact hne hsn.symm

theorem shiftPosition_spec {pos j : ℕ} (h : Ready P s) (hm : Moving s pos j s') (hpos : 0 < pos)
    (hle : pos ≤ j) (hj : j < s.used) :
    Ensures (fun _ => False) (Moving s pos (j + 1)) (shiftPosition pos s' j) := by
  obtain ⟨pdu, hpdu, -⟩ := h.window.pdu j hj
  have hget : s'.pduRtxQueue.get j = some pdu := by
    rw [hm.pduRtxQueue, shifted_of_le le_rfl, hpdu]
  have htarget : (s'.pduRtxQueue.remove j).get (j - pos) = none := by
    rw [CArray.get_remove, Function.update_of_ne (by omega), hm.pduRtxQueue,
      shifted_target hpos hle]
  have hr : j < s'.received.length := hm.received_length ▸ h.received_lt hj
  have hd : j < s'.discarded.length := hm.discarded_length ▸ h.discarded_lt hj.le
  have hr' : j - pos < s'.received.length := by omega
  have hd' : j - pos < s'.discarded.length := by omega
  unfold shiftPosition
  rw [hget]
  dsimp only
  rw [htarget, if_neg (by decide), readAt_of_lt hr, readAt_of_lt hd, hm.received, hm.discarded,
    shifted_of_le le_rfl, shifted_of_le le_rfl]
  simp only [bind, Except.bind, writeAt, List.length_set, hr, hr', hd, hd', if_true]
  constructor
  · rw [hm.frame]
  · change CArray.get (CArray.addAt _ _ _) = _
    rw [CArray.get_addAt, CArray.get_remove, Function.update_comm (by omega), hm.pduRtxQueue,
      ← hpdu, shifted_move hpos hle]
  · change flag (List.set _ _ _) = _
    rw [flag_set (by rwa [List.length_set]), flag_set hr', hm.received, shifted_move hpos hle]
  · change flag (List.set _ _ _) = _
    rw [flag_set (by rwa [List.length_set]), flag_set hd', hm.discarded, shifted_move hpos hle]
  · change (List.set _ _ _).length = _
    rw [List.length_set, List.length_set, hm.received_length]
  · change (List.set _ _ _).length = _
    rw [List.length_set, List.length_set, hm.discarded_length]
  · exact hm.timer
  · exact fun i _ hip => hm.stopped i (by omega) hip

/-- What is after the PDUs in flight is free and not marked already. -/
theorem cleanPosition_spec {pos j : ℕ} (h : Ready P s) (hm : Moving s pos s.used s')
    (hj : s.used ≤ j) (hW : j < P.txWindowSize) :
    Ensures (fun _ => False) (Moving s pos s.used) (cleanPosition s' j) := by
  have hr : j < s'.received.length := by rw [hm.received_length, h.window.received_length]; exact hW
  have hd : j < s'.discarded.length := by
    rw [hm.discarded_length, h.window.discarded_length]; omega
  unfold cleanPosition
  rw [hm.pduRtxQueue, shifted_of_le hj, h.window.free j hj, writeAt_of_lt hr, writeAt_of_lt hd]
  constructor
  · rw [hm.frame]
  · exact hm.pduRtxQueue
  · refine (flag_set hr).trans ?_
    rw [hm.received]
    exact Function.update_eq_self_iff.2 ((shifted_of_le hj).trans (h.window.received j hj)).symm
  · refine (flag_set hd).trans ?_
    rw [hm.discarded]
    exact Function.update_eq_self_iff.2 ((shifted_of_le hj).trans (h.window.discarded j hj)).symm
  · exact (List.length_set ..).trans hm.received_length
  · exact (List.length_set ..).trans hm.discarded_length
  · exact hm.timer
  · exact hm.stopped

/-- The window with all its positions moved starts `pos` sequence numbers later. -/
theorem Ready.moved {pos : ℕ} (h : Ready P s) (hm : Moving s pos s.used s') (hpos : pos ≤ s.used) :
    Ready P { s' with txWindowDesc := { s'.txWindowDesc with
      firstSeqNum := u32 (s'.txWindowDesc.firstSeqNum + pos) } } := by
  have hW := P.txWindowSize_lt
  have hw := h.window
  have hle := hw.used_le
  have hdesc := hm.txWindowDesc
  set t : AmTxQueue := { s' with txWindowDesc := { s'.txWindowDesc with
      firstSeqNum := u32 (s'.txWindowDesc.firstSeqNum + pos) } } with ht
  -- the window is shorter by what it has moved
  have hused : t.used = s.used - pos := by
    have hfirst := hw.first_lt
    have hseq := hw.seqNum_lt
    have hs : s.used = sub32 s.txWindowDesc.seqNum s.txWindowDesc.firstSeqNum := rfl
    rw [ht]
    unfold AmTxQueue.used
    dsimp only
    rw [hdesc]
    unfold AmTxQueue.used sub32 u32 at *
    omega
  have hsno : ∀ i, t.seqNumAt i = s.seqNumAt (i + pos) := by
    intro i
    rw [ht]
    unfold seqNumAt
    dsimp only
    rw [hdesc]
    unfold u32
    omega
  -- every position holds what was `pos` further on
  have hpdus : ∀ i, t.pduRtxQueue.get i = s.pduRtxQueue.get (i + pos) := fun i => by
    rw [show t.pduRtxQueue.get = _ from hm.pduRtxQueue, shifted_all hw.free]
  have hreceived : ∀ i, flag t.received i = flag s.received (i + pos) := fun i => by
    rw [show flag t.received = _ from hm.received, shifted_all hw.received]
  have hdiscarded : ∀ i, flag t.discarded i = flag s.discarded (i + pos) := fun i => by
    rw [show flag t.discarded = _ from hm.discarded, shifted_all hw.discarded]
  refine ⟨⟨⟨fun i hi => ?_, fun i hi => ?_, fun i hi => ?_, fun i hi => ?_, fun sn hsn => ?_⟩,
    u32_lt _, ?_, ?_, hm.received_length.trans hw.received_length,
    hm.discarded_length.trans hw.discarded_length, hm.timer.nodup hw.timer_nodup⟩, ?_, ?_, ?_, ?_⟩
  · rw [hpdus, hsno]
    exact hw.pdu _ (by omega)
  · rw [hpdus]
    exact hw.free _ (by omega)
  · rw [hreceived]
    exact hw.received _ (by omega)
  · rw [hdiscarded]
    exact hw.discarded _ (by omega)
  · -- the timers of the positions that have left the window have been stopped
    obtain ⟨i, hi, rfl, hr, hd⟩ := hw.timer sn (hm.timer.subset hsn)
    have hpi : pos ≤ i := by
      by_contra hlt
      exact hm.stopped i hi (Nat.not_le.1 hlt) hsn
    refine ⟨i - pos, by omega, ?_, ?_, ?_⟩
    · rw [hsno, Nat.sub_add_cancel hpi]
    · rw [hreceived, Nat.sub_add_cancel hpi]
      exact hr
    · rw [hdiscarded, Nat.sub_add_cancel hpi]
      exact hd
  · exact show s'.txWindowDesc.seqNum < _ from hdesc ▸ hw.seqNum_lt
  · omega
  · have hmrw := h.mrw
    rw [ht, hm.frame]
    exact ⟨hmrw.free, hmrw.timer, hmrw.le⟩
  · rw [ht, hm.frame]
    exact h.currentSdu
  · rw [ht, hm.frame]
    exact h.fragmentList
  · refine h.room.imp_right fun hroom => ⟨?_, by omega⟩
    rw [ht, hm.frame]
    exact hroom.1

/-- Between two events `addPdus` has nothing to do. -/
theorem addPdus_ready (h : Ready P s) : addPdus P s = .ok s := by
  unfold addPdus
  rcases h.room with hW | ⟨hqueue, -⟩
  · rw [hW]
    rfl
  · exact addPdusLoop_idle ⟨h.currentSdu, h.fragmentList, hqueue⟩

/-- The window is moved by `pos` positions. -/
theorem moveTxWindow_moving (h : Ready P s) (sn : ℕ)
    (hsn : i32 (sub32 sn s.txWindowDesc.firstSeqNum) ≤ s.used)
    (hpos : 0 < i32 (sub32 sn s.txWindowDesc.firstSeqNum)) :
    sub32 sn s.txWindowDesc.firstSeqNum ≤ s.used ∧
      ∃ s₃, Moving s (sub32 sn s.txWindowDesc.firstSeqNum) s.used s₃ ∧
        moveTxWindow P s sn = .ok { s₃ with txWindowDesc := { s₃.txWindowDesc with
          firstSeqNum := u32 (s₃.txWindowDesc.firstSeqNum +
            sub32 sn s.txWindowDesc.firstSeqNum) } } := by
  have hW := P.txWindowSize_lt
  have hle := h.window.used_le
  unfold moveTxWindow
  rw [if_neg (Int.not_le.2 hpos)]
  dsimp only
  set pos := sub32 sn s.txWindowDesc.firstSeqNum with hdef
  have hlt : pos < 4294967296 := u32_lt _
  have hpos' : 0 < pos ∧ pos ≤ s.used := by
    unfold i32 u32 at hpos hsn
    split_ifs at hpos hsn <;> omega
  -- the three loops: the positions that are freed, those that move, those that are cleaned
  have hfree : Ensures (fun _ => False) (Moving s pos (0 + pos))
      ((List.range' 0 pos).foldlM freePosition s) :=
    Ensures.foldlM_range' (Moving.start pos) fun j s' _ hj hm =>
      freePosition_spec h hm (by omega) hpos'.2
  rw [← List.range_eq_range', Nat.zero_add] at hfree
  obtain ⟨s₁, hs₁, h₁⟩ := hfree.exists_ok
  have hused₁ : s₁.used = s.used := by unfold AmTxQueue.used; rw [h₁.txWindowDesc]
  have hshift : Ensures (fun _ => False) (Moving s pos (pos + (s.used - pos)))
      ((List.range' pos (s.used - pos)).foldlM (shiftPosition pos) s₁) :=
    Ensures.foldlM_range' h₁ fun j s' hj hj' hm =>
      shiftPosition_spec h hm hpos'.1 hj (by omega)
  rw [Nat.add_sub_cancel' hpos'.2] at hshift
  obtain ⟨s₂, hs₂, h₂⟩ := hshift.exists_ok
  have hused₂ : s₂.used = s.used := by unfold AmTxQueue.used; rw [h₂.txWindowDesc]
  have hclean : Ensures (fun _ => False) (Moving s pos s.used)
      ((List.range' s.used (P.txWindowSize - s.used)).foldlM cleanPosition s₂) :=
    Ensures.foldlM_range' (I := fun _ => Moving s pos s.used) h₂ fun j s' hj hj' hm =>
      cleanPosition_spec h hm hj (by omega)
  obtain ⟨s₃, hs₃, h₃⟩ := hclean.exists_ok
  refine ⟨hpos'.2, s₃, h₃, ?_⟩
  rw [hs₁]
  change (List.foldlM (shiftPosition pos) s₁ (List.range' pos (s₁.used - pos)) >>= _) = _
  rw [hused₁, hs₂]
  change (List.foldlM cleanPosition s₂
    (List.range' s₂.used (P.txWindowSize - s₂.used)) >>= _) = _
  rw [hused₂, hs₃]
  exact addPdus_ready (h.moved h₃ hpos'.2)

/-- **Moving the window**, to a position that is in use or to the first one that is free. -/
theorem moveTxWindow_spec (h : Ready P s) {sn : ℕ}
    (hsn : i32 (sub32 sn s.txWindowDesc.firstSeqNum) ≤ s.used) :
    Ensures (fun _ => False) (Ready P) (moveTxWindow P s sn) := by
  by_cases hpos : 0 < i32 (sub32 sn s.txWindowDesc.firstSeqNum)
  · obtain ⟨hle, s₃, hm, hs₃⟩ := moveTxWindow_moving h sn hsn hpos
    rw [hs₃]
    exact h.moved hm hle
  · rw [moveTxWindow, if_pos (Int.not_lt.1 hpos)]
    exact h

/-! ### An SDU is put into the window -/

theorem seqNumAt_used (hw : Window P s) : s.seqNumAt s.used = s.txWindowDesc.seqNum := by
  have hfirst := hw.first_lt
  have hseq := hw.seqNum_lt
  unfold seqNumAt AmTxQueue.used sub32 u32
  omega

/-- The first free position is given to a PDU with the next sequence number. -/
theorem Window.put (hw : Window P s) (hroom : s.used < P.txWindowSize) {pdu : LteRlcAmPdu}
    (hpdu : pdu.snoFragment = s.txWindowDesc.seqNum)
    (hidle : s.txWindowDesc.seqNum ∉ s.pduTimer)
    (hs : s'.windowPart = (s.pduRtxQueue.addAt s.used pdu, s.received, s.discarded,
      { s.txWindowDesc with seqNum := u32 (s.txWindowDesc.seqNum + 1) },
      s.pduTimer ++ [s.txWindowDesc.seqNum])) : Window P s' := by
  have hW := P.txWindowSize_lt
  simp only [windowPart, Prod.mk.injEq] at hs
  obtain ⟨hq, hr, hd, ht, hp⟩ := hs
  have hused : s'.used = s.used + 1 := used_succ ht (by omega)
  have hsno : ∀ i, s'.seqNumAt i = s.seqNumAt i := fun i => by
    unfold seqNumAt
    rw [ht]
  -- the new PDU takes the first position that is not used
  refine ⟨⟨fun i hi => ?_, fun i hi => ?_, fun i hi => ?_, fun i hi => ?_, fun sn hsn => ?_⟩,
    by rw [ht]; exact hw.first_lt, by rw [ht]; exact u32_lt _, by omega,
    by rw [hr]; exact hw.received_length, by rw [hd]; exact hw.discarded_length, ?_⟩
  · rw [hq, CArray.get_addAt, hsno]
    by_cases hlast : i = s.used
    · subst hlast
      exact ⟨pdu, Function.update_self .., hpdu.trans (seqNumAt_used hw).symm⟩
    · rw [Function.update_of_ne hlast]
      exact hw.pdu i (by omega)
  · rw [hq, CArray.get_addAt, Function.update_of_ne (by omega)]
    exact hw.free i (by omega)
  · rw [hr]
    exact hw.received i (by omega)
  · rw [hd]
    exact hw.discarded i (by omega)
  · rw [hp] at hsn
    rcases List.mem_append.1 hsn with hsn | hsn
    · obtain ⟨i, hi, heq, hri, hdi⟩ := hw.timer sn hsn
      exact ⟨i, by omega, heq.trans (hsno i).symm, hr ▸ hri, hd ▸ hdi⟩
    · refine ⟨s.used, by omega, ?_, ?_, ?_⟩
      · rw [hsno, seqNumAt_used hw]
        exact List.mem_singleton.1 hsn
      · rw [hr]
        exact hw.received _ le_rfl
      · rw [hd]
        exact hw.discarded _ le_rfl
  · rw [hp, ← List.concat_eq_append]
    exact List.Nodup.concat hidle hw.timer_nodup

/-- An SDU is being put into the window; `rest` are the fragments that are left, and their
positions are the next ones. -/
structure Placing (P : AmTxParams) (rest : List LteRlcAmPdu) (s : AmTxQueue) : Prop where
  window : Window P s
  mrw : Mrw s
  currentSdu : s.currentSdu ≠ none
  fragmentList : s.fragmentList = some rest
  sduQueue : s.sduQueue = []
  indices : s.txWindowIndexList = List.range' s.used rest.length
  count : s.fragDesc.fragCounter + rest.length = s.fragDesc.totalFragments
  room : s.used + rest.length < P.txWindowSize

theorem Placing.bufferPdu {pdu : LteRlcAmPdu} {rest : List LteRlcAmPdu} (h : Placing P rest s) :
    Placing P rest (s.bufferPdu pdu) := by
  unfold AmTxQueue.bufferPdu
  split
  all_goals exact ⟨h.window.congr rfl, ⟨h.mrw.free, h.mrw.timer, h.mrw.le⟩, h.currentSdu,
    h.fragmentList, h.sduQueue, h.indices, h.count, h.room⟩

/-- A turn of the loop of `addPdus`. -/
theorem putPdu_placing {pdu : LteRlcAmPdu} {rest : List LteRlcAmPdu}
    (h : Placing P (pdu :: rest) s) :
    Ensures (fun _ => True) (fun s' => rest = [] ∧ Ready P s' ∨ rest ≠ [] ∧ Placing P rest s')
      (putPdu s pdu rest) := by
  have hroom := h.room
  have hcount := h.count
  have hindices := h.indices
  rw [List.length_cons] at hroom hcount hindices
  rw [List.range'_succ] at hindices
  unfold putPdu
  rw [hindices]
  dsimp only
  split
  · trivial
  rename_i hsno
  split
  · trivial
  split
  · trivial
  refine Ensures.after fun _ => ?_
  unfold timerAdd
  split
  · trivial
  rename_i hidle
  have hW := P.txWindowSize_lt
  have hput : ∀ s' : AmTxQueue, _ → Window P s' := fun s' =>
    h.window.put (by omega) (not_not.1 hsno) hidle
  have hused : ∀ s' : AmTxQueue, s'.txWindowDesc =
      { s.txWindowDesc with seqNum := u32 (s.txWindowDesc.seqNum + 1) } →
        s'.used = s.used + 1 := fun s' ht => used_succ ht (by omega)
  refine Ensures.ok.2 ?_
  -- the last fragment, or one of more
  by_cases hrest : rest = []
  · refine .inl ⟨hrest, Ready.congr ?_ core_bufferPdu⟩
    rw [addFragment, if_pos (.inr hrest)]
    exact ⟨hput _ rfl, ⟨h.mrw.free, h.mrw.timer, h.mrw.le⟩, rfl, rfl,
      .inr ⟨h.sduQueue, lt_of_eq_of_lt (hused _ rfl) (by omega)⟩⟩
  · have hpos : 0 < rest.length := List.length_pos_of_ne_nil hrest
    refine .inr ⟨hrest, Placing.bufferPdu ?_⟩
    rw [addFragment, if_neg (by rw [not_or]; exact ⟨by dsimp only [emit]; omega, hrest⟩)]
    refine ⟨hput _ rfl, ⟨h.mrw.free, h.mrw.timer, h.mrw.le⟩, h.currentSdu, rfl, h.sduQueue, ?_, ?_,
      ?_⟩
    · exact congrArg (List.range' · rest.length) (hused _ rfl).symm
    · dsimp only [emit]
      omega
    · exact lt_of_eq_of_lt (congrArg (· + rest.length) (hused _ rfl)) (by omega)

theorem addPdusLoop_placing {pdu : LteRlcAmPdu} {rest : List LteRlcAmPdu} {n : ℕ}
    (h : Placing P (pdu :: rest) s) (hn : rest.length < n) :
    Ensures (fun _ => True) (Ready P) (addPdusLoop P n s) := by
  have hroom := h.room
  rw [List.length_cons] at hroom
  induction rest generalizing s pdu n with
  | nil =>
    obtain ⟨n, rfl⟩ : ∃ m, n = m + 1 := ⟨n - 1, by omega⟩
    rw [addPdusLoop_turn h.fragmentList h.currentSdu (by omega)]
    refine Ensures.bind (putPdu_placing h) fun s' h' => ?_
    obtain ⟨-, hready⟩ | ⟨hne, -⟩ := h'
    · rcases hready.room with hzero | ⟨hqueue, -⟩
      · omega
      · rw [addPdusLoop_idle ⟨hready.currentSdu, hready.fragmentList, hqueue⟩]
        exact hready
    · exact absurd rfl hne
  | cons next rest ih =>
    obtain ⟨n, rfl⟩ : ∃ m, n = m + 1 := ⟨n - 1, by omega⟩
    rw [List.length_cons] at hn
    rw [addPdusLoop_turn h.fragmentList h.currentSdu (by omega)]
    refine Ensures.bind (putPdu_placing h) fun s' h' => ?_
    obtain ⟨hnil, -⟩ | ⟨-, hplacing⟩ := h'
    · cases hnil
    · exact ih hplacing (by omega) hplacing.room

/-- An SDU that `nextSdu` accepts fits: the comparison of the sums is right. -/
def Accepts (P : AmTxParams) (s : AmTxQueue) (d : LteRlcAmSdu) : Prop :=
  u32 (s.txWindowDesc.seqNum + nrFragments P d) <
      u32 (s.txWindowDesc.firstSeqNum + P.txWindowSize) →
    s.used + nrFragments P d < P.txWindowSize

instance (s : AmTxQueue) (d : LteRlcAmSdu) : Decidable (Accepts P s d) :=
  inferInstanceAs (Decidable (_ → _))

theorem indices_eq (hw : Window P s) {n : ℕ} (hn : s.used + n < 4294967296) :
    ((List.range n).map fun i =>
      sub32 (u32 (s.txWindowDesc.seqNum + i)) s.txWindowDesc.firstSeqNum) =
      List.range' s.used n := by
  rw [List.range'_eq_map_range]
  refine List.map_congr_left fun i hi => ?_
  have hi := List.mem_range.1 hi
  have hfirst := hw.first_lt
  have hseq := hw.seqNum_lt
  unfold AmTxQueue.used sub32 u32 at *
  omega

/-- The only SDU of the queue is taken, or dropped if the comparison says that it does not fit. -/
theorem nextSdu_placing (hw : Window P s) (hm : Mrw s) (hcur : s.currentSdu = none)
    (hlist : s.fragmentList = none) {d : LteRlcAmSdu} (hqueue : s.sduQueue = [d])
    (hroom : s.used < P.txWindowSize) (haccepts : Accepts P s d) :
    Ensures (fun _ => True)
      (fun s' => Ready P s' ∨ Placing P (fragments P d s.txWindowDesc.seqNum) s')
      (nextSdu P s) := by
  have hW := P.txWindowSize_lt
  unfold nextSdu
  rw [hcur, hqueue]
  dsimp only
  split
  · rename_i htest
    have hfits := haccepts htest
    unfold fragmentFrame
    dsimp only
    split
    · trivial
    · refine Ensures.ok.2 (.inr ⟨hw.congr rfl, ⟨hm.free, hm.timer, hm.le⟩, Option.some_ne_none d,
        rfl, rfl, ?_, ?_, ?_⟩)
      · rw [fragments_length]
        exact indices_eq hw (by omega)
      · rw [fragments_length]
        exact Nat.zero_add _
      · rw [fragments_length]
        exact hfits
  · exact .inl ⟨hw.congr rfl, ⟨hm.free, hm.timer, hm.le⟩, rfl, hlist, .inr ⟨rfl, hroom⟩⟩

theorem addPdus_placing (hw : Window P s) (hm : Mrw s) (hcur : s.currentSdu = none)
    (hlist : s.fragmentList = none) {d : LteRlcAmSdu} (hqueue : s.sduQueue = [d])
    (hroom : s.used < P.txWindowSize) (haccepts : Accepts P s d) :
    Ensures (fun _ => True) (Ready P) (addPdus P s) := by
  obtain ⟨W, hW⟩ : ∃ W, P.txWindowSize = W + 1 := ⟨P.txWindowSize - 1, by omega⟩
  unfold addPdus
  rw [hW, addPdusLoop, if_pos hroom, if_neg (by simp [hqueue])]
  refine Ensures.bind (nextSdu_placing hw hm hcur hlist hqueue hroom haccepts) fun s₁ h => ?_
  obtain hready | hplacing := h
  · rw [hready.fragmentList]
    exact hready
  · rw [hplacing.fragmentList]
    cases hfrag : fragments P d s.txWindowDesc.seqNum with
    | nil => trivial
    | cons pdu rest =>
      rw [hfrag] at hplacing
      have hlt := hplacing.room
      rw [List.length_cons] at hlt
      change Ensures _ _ (putPdu s₁ pdu rest >>= addPdusLoop P W)
      rw [← addPdusLoop_turn hplacing.fragmentList hplacing.currentSdu (by omega)]
      exact addPdusLoop_placing hplacing (by omega)

/-- **An SDU comes.** -/
theorem enque_ready (h : Ready P s) {d : LteRlcAmSdu} (haccepts : Accepts P s d) :
    Ensures (fun _ => True) (Ready P) (enque P s d) := by
  unfold enque
  dsimp only
  split
  · rename_i hroom
    have hlt : s.used < P.txWindowSize := hroom.2
    have hqueue : s.sduQueue = [] := h.room.elim (fun hzero => by omega) And.left
    exact addPdus_placing (s := { s with sduQueue := s.sduQueue ++ [d] }) (h.window.congr rfl)
      ⟨h.mrw.free, h.mrw.timer, h.mrw.le⟩ h.currentSdu h.fragmentList
      (by rw [hqueue, List.nil_append]) hlt haccepts
  · -- a window without positions
    rename_i hfull
    have hzero : P.txWindowSize = 0 :=
      h.room.elim id fun hroom => absurd ⟨h.currentSdu, hroom.2⟩ hfull
    exact ⟨h.window.congr rfl, ⟨h.mrw.free, h.mrw.timer, h.mrw.le⟩, h.currentSdu, h.fragmentList,
      .inl hzero⟩

/-! ### Runs -/

theorem recvMrwAck_ready (h : Ready P s) (sn : ℕ) : Ready P (s.recvMrwAck sn) := by
  unfold recvMrwAck
  split
  · exact h
  · refine h.with_mrw ⟨fun i hi => ?_, fun sn' hsn' => ?_, h.mrw.le⟩
    · dsimp only
      rw [CArray.get_remove]
      by_cases hsn : i = sn
      · rw [hsn, Function.update_self]
      · rw [Function.update_of_ne hsn]
        exact h.mrw.free i hi
    · exact h.mrw.timer sn' (List.mem_of_mem_erase hsn')

theorem mrwTimerHandle_ready (h : Ready P s) {sn : ℕ} {timers : List ℕ}
    (htimer : s.mrwTimer = sn :: timers) :
    Ensures (fun _ => True) (Ready P) (mrwTimerHandle { s with mrwTimer := timers } sn) := by
  have hlt : ∀ sn' ∈ sn :: timers, sn' < s.mrwDesc.mrwSeqNum := htimer ▸ h.mrw.timer
  unfold mrwTimerHandle
  split
  · trivial
  split
  · -- a newer command has been sent: this one is not sent again
    refine h.with_mrw (s := s) ⟨fun i hi => ?_, fun sn' hsn' => ?_, h.mrw.le⟩
    · dsimp only
      rw [CArray.get_remove]
      by_cases hsn : i = sn
      · rw [hsn, Function.update_self]
      · rw [Function.update_of_ne hsn]
        exact h.mrw.free i hi
    · exact hlt sn' (List.mem_cons_of_mem _ hsn')
  · unfold timerAdd
    split
    · trivial
    · have hagain : Ready P { s with mrwTimer := timers ++ [sn] } :=
        h.with_mrw ⟨h.mrw.free, fun sn' hsn' => ?_, h.mrw.le⟩
      · exact hagain.congr core_bufferPdu
      rcases List.mem_append.1 hsn' with hmem | hmem
      · exact hlt sn' (List.mem_cons_of_mem _ hmem)
      · exact hlt sn' (List.mem_singleton.1 hmem ▸ List.mem_cons_self)

theorem sendPdus_ready (h : Ready P s) (size : ℤ) :
    Ensures (fun _ => True) (Ready P) (s.sendPdus size) := by
  unfold sendPdus
  split
  · trivial
  · split
    · refine Ensures.ok.2 ?_
      split
      · exact h.congr rfl
      · exact h.congr rfl
    · exact h.congr rfl

/-- What is done with the entity: an event, or a call of `addPdus`, which is public. -/
inductive Operation where
  | event (e : Event)
  | addPdus

/-- The entity with the method `addPdus`. -/
def windowMachine (P : AmTxParams) : Machine AmTxQueue Operation AmOutput where
  step s op :=
    match op with
    | .event e => (machine P).step s e
    | .addPdus =>
      match addPdus P { s with out := [] } with
      | .ok s' => some (s', s'.out)
      | .error _ => none

/-- The sequence numbers that are acknowledged have been sent. -/
def Operation.Sent (P : AmTxParams) (s : AmTxQueue) : Operation → Prop
  | .event (.ack firstSn lastSn bitmap) => ∀ sn ∈ acked firstSn lastSn bitmap, s.Sent P sn
  | .event (.mrwAck sn _) => i32 (sub32 sn s.txWindowDesc.firstSeqNum) ≤ s.used
  | _ => True

instance (s : AmTxQueue) (op : Operation) : Decidable (op.Sent P s) := by
  unfold Operation.Sent
  split <;> infer_instance

/-- An SDU that comes is accepted only if it fits. -/
def Operation.Fits (P : AmTxParams) (s : AmTxQueue) : Operation → Prop
  | .event (.enque d) => Accepts P s d
  | _ => True

instance (s : AmTxQueue) (op : Operation) : Decidable (op.Fits P s) := by
  unfold Operation.Fits
  split <;> infer_instance

theorem ready_initial : Ready P (initial P) := by
  have hused : (initial P).used = 0 := show sub32 0 0 = 0 by decide
  refine ⟨⟨⟨fun i hi => ?_, fun i _ => rfl, fun i _ => ?_, fun i _ => ?_, fun sn hsn => ?_⟩,
    Nat.zero_lt_succ _, Nat.zero_lt_succ _, hused ▸ Nat.zero_le _, List.length_replicate,
    List.length_replicate, List.nodup_nil⟩, ⟨fun i _ => rfl, fun sn hsn => ?_, Nat.zero_le _⟩, rfl,
    rfl, ?_⟩
  · omega
  · exact congrFun flag_replicate i
  · exact congrFun flag_replicate i
  · cases hsn
  · cases hsn
  · rcases Nat.eq_zero_or_pos P.txWindowSize with hzero | hpos
    · exact .inl hzero
    · exact .inr ⟨rfl, hused.trans_lt hpos⟩

/-- **One event**, by the handler. -/
theorem handle_ready (h : Ready P s) {e : Event} (hsent : (Operation.event e).Sent P s)
    (hfits : (Operation.event e).Fits P s) :
    Ensures (fun _ => True) (Ready P) (handle P s e) := by
  cases e with
  | enque d => exact enque_ready h hfits
  | mrwAck snoFragment snoMainPacket =>
    obtain ⟨s', hs', h'⟩ := (moveTxWindow_spec h hsent).exists_ok
    change Ensures _ _ (do
      let s ← moveTxWindow P s snoFragment
      .ok (s.recvMrwAck snoMainPacket))
    rw [hs']
    exact recvMrwAck_ready h' snoMainPacket
  | ack firstSn lastSn bitmap => exact handleAck_spec h hsent
  | pduTimer =>
    simp only [handle]
    split
    · trivial
    · rename_i sn timers htimer
      have hstep := pduTimerHandle_spec h (htimer ▸ List.mem_cons_self : sn ∈ s.pduTimer)
      rw [htimer, List.erase_cons_head] at hstep
      exact hstep.weaken fun _ _ => trivial
  | mrwTimer =>
    simp only [handle]
    split
    · trivial
    · rename_i sn timers htimer
      exact mrwTimerHandle_ready h htimer
  | bufferStatusTimer =>
    refine Ensures.bind (Ensures.weaken (checkForMrw_spec h) fun _ _ => trivial) fun s' h' => ?_
    exact h'.ready.congr rfl
  | sendPdus size => exact sendPdus_ready h size
  | bufferControlPdu pdu => exact h.congr core_bufferPdu

/-- **One step.** -/
theorem Ready.step (h : Ready P s) {op : Operation} {o : List AmOutput} (hsent : op.Sent P s)
    (hfits : op.Fits P s) (hstep : (windowMachine P).step s op = some (s', o)) : Ready P s' := by
  have hstart : Ready P { s with out := [] } := h.congr rfl
  cases op with
  | event e =>
    obtain ⟨hhandle, -⟩ := step_eq_some.1 hstep
    have hstep := handle_ready (e := e) hstart hsent hfits
    rwa [hhandle] at hstep
  | addPdus =>
    simp only [windowMachine, addPdus_ready hstart, Option.some.injEq, Prod.mk.injEq] at hstep
    exact hstep.1 ▸ hstart

/-- **The window is in order** in every run where no SDU is accepted that does not fit.  The
window can be moved to any sequence number that has been sent, and every retransmission timer can
expire as long as fewer than `2 ^ 31` MRW commands have been sent. -/
theorem window_run (P : AmTxParams) {ops : List Operation} {os : List AmOutput}
    (hrun : (windowMachine P).exec (initial P) ops = some (s, os))
    (hsent : ∀ s op s' o, (windowMachine P).Takes (initial P) ops s op s' o → op.Sent P s)
    (hfits : ∀ s op s' o, (windowMachine P).Takes (initial P) ops s op s' o → op.Fits P s) :
    InOrder s ∧
      (∀ sn, i32 (sub32 sn s.txWindowDesc.firstSeqNum) ≤ s.used →
        ∃ s', moveTxWindow P s sn = .ok s') ∧
      (∀ sn ∈ s.pduTimer, s.mrwDesc.mrwSeqNum < 2147483648 →
        ∃ s', pduTimerHandle P { s with pduTimer := s.pduTimer.erase sn } sn = .ok s') := by
  have hready : Ready P s := by
    refine Machine.exec_induction_of (C := fun s op => op.Sent P s ∧ op.Fits P s)
      (J := fun _ s _ => Ready P s) ready_initial ?_ (fun s op s' o ht =>
        ⟨hsent s op s' o ht, hfits s op s' o ht⟩) hrun
    intro ops s os op s' o _ h hok hstep
    exact h.step hok.1 hok.2 hstep
  refine ⟨hready.window.toInOrder, fun sn hsn => ?_, fun sn hsn hlt => ?_⟩
  · obtain ⟨s', hs', -⟩ := (moveTxWindow_spec hready hsn).exists_ok
    exact ⟨s', hs'⟩
  · have hnever : Ensures (fun _ => False) (Ready P)
        (pduTimerHandle P { s with pduTimer := s.pduTimer.erase sn } sn) :=
      (pduTimerHandle_spec hready hsn).weaken fun _ heq => by omega
    obtain ⟨s', hs', -⟩ := hnever.exists_ok
    exact ⟨s', hs'⟩

/-- An SDU of 10 fragments and one of 5; 4 fragments leave the window in between. -/
def busyRun : List Operation :=
  [.event (.enque ⟨0, 300⟩), .addPdus, .event (.sendPdus 100), .event .pduTimer,
    .event (.ack 4 3 [true, false]), .event .mrwTimer, .event (.mrwAck 4 0),
    .event (.enque ⟨1, 150⟩)]

theorem window_run_moved :
    ∃ s os, (windowMachine smallParams).exec (initial smallParams) busyRun = some (s, os) ∧
      InOrder s ∧ (∃ s', moveTxWindow smallParams s 8 = .ok s') ∧
      ∃ s', pduTimerHandle smallParams { s with pduTimer := s.pduTimer.erase 12 } 12 = .ok s' := by
  have hsent : (windowMachine smallParams).Meets (fun s op => op.Sent smallParams s)
      (initial smallParams) busyRun := by decide +kernel
  have hfits : (windowMachine smallParams).Meets (fun s op => op.Fits smallParams s)
      (initial smallParams) busyRun := by decide +kernel
  have hstate : ((windowMachine smallParams).exec (initial smallParams) busyRun).any (fun r =>
      i32 (sub32 8 r.1.txWindowDesc.firstSeqNum) ≤ r.1.used ∧ 12 ∈ r.1.pduTimer ∧
        r.1.mrwDesc.mrwSeqNum < 2147483648) = true := by decide +kernel
  obtain ⟨⟨s, os⟩, hrun, h⟩ := (Option.any_eq_true _ _).1 hstate
  obtain ⟨hsn, htimer, hlt⟩ := of_decide_eq_true h
  obtain ⟨horder, hmove, hexpire⟩ := window_run smallParams hrun
    (fun s op s' o ht => hsent.takes ht) fun s op s' o ht => hfits.takes ht
  exact ⟨s, os, hrun, horder, hmove 8 hsn, hexpire 12 htimer hlt⟩

/-! ### A run through all sequence numbers

Two fragments at a time are sent, acknowledged, and leave the window when the MRW command has been
acknowledged, until the sequence numbers are about to wrap. -/

/-- Nothing is in flight; `m` commands have been sent. -/
def calm (k m : ℕ) : AmTxQueue where
  pduRtxQueue := [none, none]
  mrwRtxQueue := List.replicate m none
  received := List.replicate 16 false
  discarded := List.replicate 17 false
  txWindowDesc := ⟨k, k⟩
  mrwDesc := ⟨m, m - 1⟩

/-- A fragment of an SDU of 60 bytes. -/
def half (k i : ℕ) : LteRlcAmPdu := fragment smallParams ⟨0, 60⟩ k 2 i

/-- Two fragments are in flight. -/
def flying (k m : ℕ) (pduBuffer : List LteRlcAmPdu) (out : List AmOutput) : AmTxQueue :=
  { calm k m with
    pduRtxQueue := [some (half k 0), some (half k 1)]
    txWindowDesc := ⟨k, k + 2⟩
    pduTimer := [k, k + 1]
    bufferStatusTimer := true
    pduBuffer, out }

/-- Both have been acknowledged. -/
def landed (k m : ℕ) : AmTxQueue :=
  { flying k m [] [] with
    received := true :: true :: List.replicate 14 false
    pduTimer := [] }

/-- The receiver is told to move its window. -/
def told (k m : ℕ) (pduBuffer : List LteRlcAmPdu) (out : List AmOutput) : AmTxQueue :=
  { landed k m with
    mrwRtxQueue := List.replicate m none ++ [some (mrwPdu smallParams m (i32 (k + 2)))]
    mrwTimer := [m]
    mrwDesc := ⟨m + 1, m⟩
    bufferStatusTimer := false
    pduBuffer, out }

section

variable {k m : ℕ}

theorem sub32_self_add (i : ℕ) (hi : i < 4294967296) : sub32 (k + i) k = i := by
  unfold sub32 u32
  omega

theorem enque_calm (hk : k + 16 < 4294967296) :
    enque smallParams (calm k m) ⟨0, 60⟩ =
      .ok (flying k m [half k 0, half k 1] [.put (half k 0), .newData, .put (half k 1)]) := by
  have hu : ∀ i ≤ 16, u32 (k + i) = k + i := fun i hi => u32_of_lt (by omega)
  have h0 : u32 k = k := hu 0 (by omega)
  have hself : sub32 k k = 0 := sub32_self_add 0 (by omega)
  have hone : sub32 (k + 1) k = 1 := sub32_self_add 1 (by omega)
  simp only [enque, calm, AmTxQueue.used, hself, List.nil_append, addPdus, smallParams,
    addPdusLoop, nextSdu]
  simp [nrFragments, fragmentFrame, bind, Except.bind, List.range_succ, hu, hself, hone, h0]
  simp [putPdu, fragment, hu, hone, checkUnmarked, readAt, bind, Except.bind, timerAdd,
    addFragment, emit, bufferPdu, CArray.get, CArray.addAt, flying, calm, half, smallParams, h0]
  exact hu 2 (by omega)

theorem ack_flying (hk : k + 16 < 4294967296) :
    handleAck smallParams (flying k m [] []) (i32 k) (-1) [true, true] = .ok (landed k m) := by
  have hone : sub32 (k + 1) k = 1 := sub32_self_add 1 (by omega)
  have hself : sub32 k k = 0 := sub32_self_add 0 (by omega)
  have hfirst : ofInt32 (i32 k) = k := by
    unfold ofInt32 i32 u32
    split <;> omega
  have hsecond : ofInt32 (i32 k + 1) = k + 1 := by
    unfold ofInt32 i32 u32
    split <;> omega
  have hzero : i32 0 = 0 := rfl
  have hpos : i32 1 = 1 := rfl
  have hu : u32 k = k := u32_of_lt (by omega)
  have hu' : u32 (1 + k) = k + 1 := by
    rw [Nat.add_comm]
    exact u32_of_lt (by omega)
  simp [handleAck, recvCumulativeAck, bind, Except.bind, pure, Except.pure, List.range_succ,
    recvAck, hfirst, hsecond, flying, calm, hself, hone, hzero, hpos, markReceived, readAt,
    stopTimer, hu, hu', smallParams, landed]

theorem bufferStatus_landed (hm : m < 2147483648) :
    handle smallParams (landed k m) .bufferStatusTimer =
      .ok (told k m [mrwPdu smallParams m (i32 (k + 2))] [.newData]) := by
  have htwo : sub32 (k + 2) k = 2 := sub32_self_add 2 (by omega)
  have hpos : ¬i32 m < 0 := by
    rw [i32_of_lt hm]
    omega
  have hnext : u32 (m + 1) = m + 1 := u32_of_lt (by omega)
  have hfree : CArray.get (List.replicate m (none : Option LteRlcAmPdu)) m = none := by
    simp [CArray.get]
  simp [handle, checkForMrw, landed, flying, calm, AmTxQueue.used, htwo, doneFrom, bind,
    Except.bind, pure, Except.pure, readAt, sendMrw, hpos, hfree, timerAdd, bufferPdu, told, hnext,
    CArray.addAt]

/-- The two fragments have left their positions. -/
def freed (k m : ℕ) : AmTxQueue :=
  { told k m [] [] with
    pduRtxQueue := [none, none]
    received := List.replicate 16 false }

/-- The window has moved over them. -/
def moved (k m : ℕ) : AmTxQueue := { freed k m with txWindowDesc := ⟨k + 2, k + 2⟩ }

/-- A position that is clean stays as it is. -/
theorem cleanPosition_of_clean {s : AmTxQueue} {i : ℕ} (hfree : s.pduRtxQueue.get i = none)
    (hreceived : s.received[i]? = some false) (hdiscarded : s.discarded[i]? = some false) :
    cleanPosition s i = .ok s := by
  obtain ⟨hi, hr⟩ := List.getElem?_eq_some_iff.1 hreceived
  obtain ⟨hi', hd⟩ := List.getElem?_eq_some_iff.1 hdiscarded
  have hset : s.received.set i false = s.received := by rw [← hr, List.set_getElem_self]
  have hset' : s.discarded.set i false = s.discarded := by rw [← hd, List.set_getElem_self]
  rw [cleanPosition, if_neg (by rw [hfree]; exact Bool.false_ne_true), writeAt, if_pos hi, writeAt,
    if_pos hi', hset, hset']
  rfl

theorem cleanPositions_freed :
    (List.range' 2 14).foldlM cleanPosition (freed k m) = .ok (freed k m) := by
  have hclean : ∀ i ∈ List.range' 2 14, cleanPosition (freed k m) i = .ok (freed k m) := by
    intro i hi
    obtain ⟨hge, hlt⟩ := List.mem_range'_1.1 hi
    refine cleanPosition_of_clean ?_ ?_ ?_
    · show CArray.get [none, none] i = none
      rw [CArray.get, List.getElem?_eq_none (by simpa using hge)]
      rfl
    · exact (List.getElem?_replicate ..).trans (if_pos (by omega))
    · exact (List.getElem?_replicate ..).trans (if_pos (by omega))
  generalize List.range' 2 14 = is at hclean
  induction is with
  | nil => rfl
  | cons i is ih =>
    rw [List.foldlM_cons, hclean i List.mem_cons_self]
    exact ih fun j hj => hclean j (List.mem_cons_of_mem i hj)

theorem moveTxWindow_told (hk : k + 16 < 4294967296) :
    moveTxWindow smallParams (told k m [] []) (k + 2) = .ok (moved k m) := by
  have htwo : sub32 (k + 2) k = 2 := sub32_self_add 2 (by omega)
  have hself : (moved k m).used = 0 := sub32_self_add 0 (by omega)
  have hfirst : (told k m [] []).txWindowDesc.firstSeqNum = k := rfl
  have hused : (freed k m).used = 2 := htwo
  have hfree : (List.range 2).foldlM freePosition (told k m [] []) = .ok (freed k m) := rfl
  have hnext : u32 ((freed k m).txWindowDesc.firstSeqNum + 2) = k + 2 :=
    u32_of_lt (show k + 2 < 4294967296 by omega)
  rw [moveTxWindow, hfirst, htwo, if_neg (by decide)]
  dsimp only [bind, Except.bind]
  rw [hfree]
  dsimp only
  rw [hused, show List.range' 2 (2 - 2) = [] from rfl]
  dsimp only [List.foldlM_nil, pure, Except.pure]
  rw [hused, show smallParams.txWindowSize - 2 = 14 from rfl, cleanPositions_freed]
  dsimp only
  rw [hnext]
  show addPdus smallParams (moved k m) = _
  rw [addPdus, show smallParams.txWindowSize = 15 + 1 from rfl, addPdusLoop, if_pos,
    if_pos ⟨rfl, rfl, .inl rfl⟩]
  rw [hself]
  decide

theorem mrwAck_told (hk : k + 16 < 4294967296) :
    handle smallParams (told k m [] []) (.mrwAck (k + 2) m) = .ok (calm (k + 2) (m + 1)) := by
  have hqueue : (moved k m).mrwRtxQueue.remove m = List.replicate (m + 1) none := by
    show List.set (List.replicate m none ++ [some (mrwPdu smallParams m (i32 (k + 2)))]) m none = _
    rw [List.set_append_right _ _ (by rw [List.length_replicate]), List.length_replicate,
      Nat.sub_self, List.replicate_succ']
    rfl
  have hget : (moved k m).mrwRtxQueue.get m = some (mrwPdu smallParams m (i32 (k + 2))) := by
    show CArray.get (List.replicate m none ++ [some (mrwPdu smallParams m (i32 (k + 2)))]) m = _
    simp [CArray.get]
  have htimer : (moved k m).mrwTimer.erase m = [] := List.erase_cons_head ..
  rw [handle, moveTxWindow_told hk]
  dsimp only [bind, Except.bind]
  rw [recvMrwAck, hget]
  dsimp only
  rw [hqueue, htimer]
  rfl

end

/-- Reached by a run that acknowledges only what has been sent. -/
def Reached (s : AmTxQueue) : Prop :=
  ∃ ops os, (windowMachine smallParams).exec (initial smallParams) ops = some (s, os) ∧
    ∀ s op s' o, (windowMachine smallParams).Takes (initial smallParams) ops s op s' o →
      op.Sent smallParams s

theorem Reached.event (h : Reached s) {e : Event}
    (hsent : (Operation.event e).Sent smallParams s)
    (hhandle : handle smallParams { s with out := [] } e = .ok s') : Reached s' := by
  obtain ⟨ops, os, hex, hall⟩ := h
  have hstep : (windowMachine smallParams).step s (.event e) = some (s', s'.out) :=
    step_eq_some.2 ⟨hhandle, rfl⟩
  refine ⟨ops ++ [.event e], os ++ s'.out,
    Machine.exec_concat_eq_some.2 ⟨s, os, s'.out, hex, hstep, rfl⟩, fun t op t' o ht => ?_⟩
  rcases ht.of_concat with ht | ⟨rfl, os', hex'⟩
  · exact hall t op t' o ht
  · obtain ⟨rfl, -⟩ := Prod.mk.inj (Option.some.inj (hex.symm.trans hex'))
    exact hsent

/-- The two fragments of a lap are on their way until the command has been sent. -/
theorem Reached.told {k m : ℕ} (h : Reached (calm k m)) (hk : k + 16 < 4294967296)
    (hm : m < 2147483648) :
    Reached (told k m [] [.sent (mrwPdu smallParams m (i32 (k + 2)))]) := by
  have hflying := h.event (e := .enque ⟨0, 60⟩) trivial (enque_calm hk)
  have hone : Reached (flying k m [half k 1] [.sent (half k 0), .newData]) :=
    hflying.event (e := .sendPdus 100) trivial rfl
  have htwo : Reached (flying k m [] [.sent (half k 1)]) :=
    hone.event (e := .sendPdus 100) trivial rfl
  have hlanded := htwo.event (e := .ack (i32 k) (-1) [true, true]) ?_ (ack_flying hk)
  · have htold := hlanded.event (e := .bufferStatusTimer) trivial (bufferStatus_landed hm)
    exact htold.event (e := .sendPdus 100) trivial rfl
  · -- the two fragments are acknowledged, and nothing cumulatively
    intro sn hsn
    have hmem : sn = ofInt32 (-1) ∨ sn = ofInt32 (i32 k) ∨ sn = ofInt32 (i32 k + 1) := by
      simpa [acked, List.range_succ] using hsn
    show sub32 sn k < 16 → sub32 sn k < sub32 (k + 2) k
    unfold ofInt32 i32 u32 at hmem
    unfold sub32 u32
    split at hmem <;> omega

/-- The first lap starts from an array without positions. -/
def firstLap : List Operation :=
  [.event (.enque ⟨0, 60⟩), .event (.sendPdus 100), .event (.sendPdus 100),
    .event (.ack 0 (-1) [true, true]), .event .bufferStatusTimer, .event (.sendPdus 100),
    .event (.mrwAck 2 0)]

/-- Before the last lap, 20 sequence numbers are left. -/
theorem reached_calm {n : ℕ} (hn : n < 2147483638) : Reached (calm (2 * (n + 1)) (n + 1)) := by
  induction n with
  | zero =>
    have hmeets : (windowMachine smallParams).Meets (fun s op => op.Sent smallParams s)
        (initial smallParams) firstLap := by decide +kernel
    exact ⟨firstLap, _, rfl, fun s op s' o ht => hmeets.takes ht⟩
  | succ n ih =>
    have htold := (ih (by omega)).told (by omega) (by omega)
    refine htold.event (e := .mrwAck (2 * (n + 1) + 2) (n + 1)) ?_ (mrwAck_told (by omega))
    show i32 (sub32 (2 * (n + 1) + 2) (2 * (n + 1))) ≤
      (sub32 (2 * (n + 1) + 2) (2 * (n + 1)) : ℕ)
    rw [sub32_self_add 2 (by omega)]
    decide

/-- When 10 sequence numbers are left, an SDU of 10 fragments is accepted for the 6 positions that
are free, since the sum of the numbers wraps to 0.  The window becomes full, with 4 fragments left.
When the receiver has moved its window as it was told, the window here cannot follow: the positions
of the 4 fragments are those in the old window. -/
theorem stale_positions :
    ∃ ops s os, (windowMachine smallParams).exec (initial smallParams) ops = some (s, os) ∧
      (∀ s op s' o, (windowMachine smallParams).Takes (initial smallParams) ops s op s' o →
        op.Sent smallParams s) ∧
      i32 (sub32 4294967278 s.txWindowDesc.firstSeqNum) ≤ s.used ∧
      moveTxWindow smallParams s 4294967278 = .error .outOfRange := by
  have hcalm : Reached (calm 4294967276 2147483638) := reached_calm (n := 2147483637) (by decide)
  have htold := hcalm.told (by decide) (by decide)
  have hfull : ∃ s, Reached s ∧ i32 (sub32 4294967278 s.txWindowDesc.firstSeqNum) ≤ s.used ∧
      moveTxWindow smallParams s 4294967278 = .error .outOfRange := by
    have hfirst := htold.event (e := .enque ⟨0, 240⟩) trivial rfl
    have hsecond := hfirst.event (e := .enque ⟨1, 300⟩) trivial rfl
    exact ⟨_, hsecond, by decide, rfl⟩
  obtain ⟨s, ⟨ops, os, hex, hall⟩, hsn, hthrows⟩ := hfull
  exact ⟨ops, s, os, hex, hall, hsn, hthrows⟩

end AmTxQueue

end V2nLte
