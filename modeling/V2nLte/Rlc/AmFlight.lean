import V2nLte.Rlc.AmRetries
import V2nLte.Rlc.AmTxWindow

/-!
# What the RLC AM sender says

The receiver of a connection has a history `h`: where its window starts, and the fragments that have
come.  What the sender knows and says is right about it: a fragment that is marked as received has
been received (`Got`), a PDU that may be sent is a fragment of the layout or tells the receiver to
start its window where an SDU begins or goes on without a gap (`Sendable`), and SDUs are discarded
as a whole.  `Sending` is all of that, between two events.  It does not depend on what is lost,
doubled or reordered, as `h` only grows.

Here, and not in `Ready`, the sequence numbers are below `2 ^ 31`.

## Main results

* `AmTxQueue.Sending.mayStart` : the receiver may start its window after fragments that are
  discarded or received without a gap.
* `AmTxQueue.handleAck_sending`, `AmTxQueue.pduTimerHandle_sending`,
  `AmTxQueue.mrwTimerHandle_sending`, `AmTxQueue.mrwAck_sending`, `AmTxQueue.sendPdus_sending` :
  what each handler keeps, without an exception.
-/

namespace V2nLte

/-- Two fragments with the same first one are of one SDU. -/
theorem Layout.next_congr {P : AmTxParams} (L : Layout P) {sn t : ℕ} (h : L.first sn = L.first t) :
    L.next sn = L.next t := by
  have hnext : ∀ u, L.next (L.first u) = L.next u := fun u =>
    L.next_eq le_rfl (lt_of_le_of_lt (L.first_le u) L.lt_next')
  rw [← hnext sn, h, hnext]

namespace AmTxQueue

open AmRxQueue (Begun)

variable {P : AmTxParams} {L : Layout P} {h : AmRxQueue.History} {s s' : AmTxQueue} {i n t : ℕ}

/-! ### What the receiver has -/

/-- The receiver has the fragment, or its window has passed it. -/
def Got (h : AmRxQueue.History) (t : ℕ) : Prop := t < h.start ∨ t ∈ h.received

theorem Got.later {h' : AmRxQueue.History} (hgot : Got h t) (hstart : h.start ≤ h'.start)
    (hreceived : h.received ⊆ h'.received) : Got h' t :=
  hgot.imp (fun ht => ht.trans_le hstart) fun ht => hreceived ht

/-- The receiver may be told to start its window at `n`: it has passed that, or the fragments before
`n` of the SDU there have been received. -/
def MayStart (L : Layout P) (h : AmRxQueue.History) (n : ℕ) : Prop :=
  n ≤ h.start ∨ Begun L n h.received

/-- What the sender may send before it gives the number `S` to a fragment. -/
inductive Sendable (L : Layout P) (h : AmRxQueue.History) (S : ℕ) : LteRlcAmPdu → Prop
  | data {pdu : LteRlcAmPdu} (t : ℕ) (ht : t < S) (hpdu : pdu.firstTry = L.pdu t) :
      Sendable L h S pdu
  | mrw (mrwSeqNum n : ℕ) (hn : n ≤ S) (hstart : MayStart L h n) :
      Sendable L h S (mrwPdu P mrwSeqNum (i32 n))

/-- What may be sent may be sent when the receiver has gone on. -/
theorem Sendable.heard {h' : AmRxQueue.History} {S : ℕ} (hstart : h.start ≤ h'.start)
    (hreceived : h.received ⊆ h'.received) {pdu : LteRlcAmPdu} (hpdu : Sendable L h S pdu) :
    Sendable L h' S pdu := by
  cases hpdu with
  | data t ht hpdu => exact .data t ht hpdu
  | mrw k n hn hmay =>
    exact .mrw k n hn (hmay.imp (fun hle => hle.trans hstart)
      fun hbegun t ht htn => hreceived (hbegun t ht htn))

/-- The fragments in flight, and what the sender knows and has said.  The numbers do not wrap. -/
structure Flight (L : Layout P) (h : AmRxQueue.History) (s : AmTxQueue) : Prop where
  lt : s.txWindowDesc.seqNum < 2147483648
  le : s.txWindowDesc.firstSeqNum ≤ s.txWindowDesc.seqNum
  le_start : s.txWindowDesc.firstSeqNum ≤ h.start
  start_le : h.start ≤ s.txWindowDesc.seqNum
  begun : Begun L h.start h.received
  pdu : ∀ i < s.used, ∃ pdu, s.pduRtxQueue.get i = some pdu ∧
    pdu.firstTry = L.pdu (s.txWindowDesc.firstSeqNum + i)
  received : ∀ i, flag s.received i = true → Got h (s.txWindowDesc.firstSeqNum + i)
  mrw : ∀ k pdu, s.mrwRtxQueue.get k = some pdu → Sendable L h s.txWindowDesc.seqNum pdu
  buffer : ∀ pdu ∈ s.pduBuffer, Sendable L h s.txWindowDesc.seqNum pdu
  mrwTimer : ∀ k ∈ s.mrwTimer, (s.mrwRtxQueue.get k).isSome
  mrwTimer_nodup : s.mrwTimer.Nodup

/-- Between two events all fragments of an SDU are in flight together. -/
structure Flying (L : Layout P) (h : AmRxQueue.History) (s : AmTxQueue) : Prop
    extends Flight L h s where
  ready : Ready P s
  edge : L.first s.txWindowDesc.seqNum = s.txWindowDesc.seqNum

/-- Moreover, SDUs are discarded as a whole. -/
structure Sending (L : Layout P) (h : AmRxQueue.History) (s : AmTxQueue) : Prop
    extends Flying L h s where
  discarded : ∀ i < s.used, ∀ j < s.used,
    L.first (s.txWindowDesc.firstSeqNum + i) = L.first (s.txWindowDesc.firstSeqNum + j) →
      flag s.discarded i = true → flag s.discarded j = true

/-! ### Numbers -/

theorem Flight.used_eq (hs : Flight L h s) :
    s.used = s.txWindowDesc.seqNum - s.txWindowDesc.firstSeqNum := by
  have hlt := hs.lt
  have hle := hs.le
  unfold used sub32 u32
  omega

theorem Flight.seqNumAt_eq (hs : Flight L h s) (hi : i ≤ s.used) :
    s.seqNumAt i = s.txWindowDesc.firstSeqNum + i := by
  have hlt := hs.lt
  have hle := hs.le
  rw [hs.used_eq] at hi
  unfold seqNumAt u32
  omega

/-- What `Flying` and `Sending` are about. -/
def said (s : AmTxQueue) : AmTxQueue × List LteRlcAmPdu := (s.core, s.pduBuffer)

theorem Flying.congr (hs : Flying L h s) (hsame : s'.said = s.said) : Flying L h s' := by
  have hready := hs.ready.congr (Prod.mk.inj hsame).1
  cases s
  cases s'
  simp only [said, core, Prod.mk.injEq, AmTxQueue.mk.injEq, true_and, and_true] at hsame
  obtain ⟨⟨rfl, rfl, rfl, rfl, rfl, rfl, rfl, rfl, rfl, rfl, rfl⟩, rfl⟩ := hsame
  exact ⟨⟨hs.lt, hs.le, hs.le_start, hs.start_le, hs.begun, hs.pdu, hs.received, hs.mrw, hs.buffer,
    hs.mrwTimer, hs.mrwTimer_nodup⟩, hready, hs.edge⟩

theorem Sending.congr (hs : Sending L h s) (hsame : s'.said = s.said) : Sending L h s' := by
  have hflying := hs.toFlying.congr hsame
  cases s
  cases s'
  simp only [said, core, Prod.mk.injEq, AmTxQueue.mk.injEq, true_and, and_true] at hsame
  obtain ⟨⟨rfl, rfl, rfl, rfl, rfl, rfl, rfl, rfl, rfl, rfl, rfl⟩, rfl⟩ := hsame
  exact ⟨hflying, hs.discarded⟩

/-- The receiver goes on. -/
theorem Sending.heard {h' : AmRxQueue.History} (hs : Sending L h s) (hstart : h.start ≤ h'.start)
    (hreceived : h.received ⊆ h'.received) (hle : h'.start ≤ s.txWindowDesc.seqNum)
    (hbegun : Begun L h'.start h'.received) : Sending L h' s :=
  { hs with
    le_start := hs.le_start.trans hstart
    start_le := hle
    begun := hbegun
    received := fun i hi => (hs.received i hi).later hstart hreceived
    mrw := fun k pdu hk => (hs.mrw k pdu hk).heard hstart hreceived
    buffer := fun pdu hpdu => (hs.buffer pdu hpdu).heard hstart hreceived }

/-- A PDU is put into the buffer. -/
theorem said_bufferPdu (pdu : LteRlcAmPdu) :
    (s.bufferPdu pdu).said = (s.core, s.pduBuffer ++ [pdu]) := by
  unfold bufferPdu
  split
  · rename_i hnil
    rw [hnil]
    rfl
  · rfl

/-! ### Commands to move the window -/

/-- **Where the window may start**: after fragments that are discarded or received without a gap. -/
theorem Sending.mayStart (hs : Sending L h s) (hn : n ≤ s.used)
    (hdone : ∀ i < n, flag s.discarded i = true ∨ flag s.received i = true)
    (hstop : n < s.used → flag s.discarded n = false) :
    MayStart L h (s.txWindowDesc.firstSeqNum + n) := by
  have hused := hs.used_eq
  have hle := hs.le
  rw [MayStart, or_iff_not_imp_left, Nat.not_le]
  intro hlt t ht htn
  set N := s.txWindowDesc.firstSeqNum + n with hN
  have hnext : N < L.next N := L.lt_next'
  -- the SDU goes on at the first fragment that is not done, so it has not been discarded
  have hnused : n < s.used := by
    by_contra hge
    have hNS : N = s.txWindowDesc.seqNum := by omega
    rw [hNS, hs.edge] at ht
    omega
  have hfirst : L.first t = L.first N := L.first_eq ht (by omega)
  by_cases hpassed : t < h.start
  · -- the window of the receiver starts inside the SDU
    have hsame : L.first h.start = L.first N := L.first_eq (by omega) (by omega)
    exact hs.begun t (by omega) hpassed
  · have hge : s.txWindowDesc.firstSeqNum ≤ t := by
      have hle_start := hs.le_start
      omega
    obtain ⟨i, rfl⟩ := Nat.exists_eq_add_of_le hge
    rcases hdone i (by omega) with hd | hr
    · have hdn := hs.discarded i (by omega) n hnused hfirst hd
      rw [hstop hnused] at hdn
      cases hdn
    · exact (hs.received i hr).resolve_left hpassed

/-- The sender buffers a PDU that it may send. -/
theorem Sending.bufferPdu (hs : Sending L h s) {pdu : LteRlcAmPdu}
    (hpdu : Sendable L h s.txWindowDesc.seqNum pdu) : Sending L h (s.bufferPdu pdu) := by
  have hbuffered : Sending L h { s with pduBuffer := s.pduBuffer ++ [pdu] } :=
    { hs with
      ready := hs.ready.congr rfl
      buffer := List.forall_mem_append.2 ⟨hs.buffer, List.forall_mem_singleton.2 hpdu⟩ }
  exact hbuffered.congr (said_bufferPdu pdu)

/-- The sender has gone on, with the same fragments in flight. -/
structure GoesOn (L : Layout P) (h : AmRxQueue.History) (s s' : AmTxQueue) : Prop where
  sending : Sending L h s'
  txWindowDesc : s'.txWindowDesc = s.txWindowDesc

theorem GoesOn.used (h' : GoesOn L h s s') : s'.used = s.used := by
  unfold AmTxQueue.used
  rw [h'.txWindowDesc]

theorem sendMrw_sending (hs : Sending L h s) (hn : n ≤ s.txWindowDesc.seqNum)
    (hstart : MayStart L h n) (hmrw : s.mrwDesc.mrwSeqNum < 2147483648) :
    Ensures (fun _ => False) (GoesOn L h s) (sendMrw P s (i32 n)) := by
  have hfree := hs.ready.mrw.free s.mrwDesc.mrwSeqNum le_rfl
  have hidle : s.mrwDesc.mrwSeqNum ∉ s.mrwTimer := fun hmem =>
    (hs.ready.mrw.timer _ hmem).false
  have hget := CArray.get_addAt s.mrwRtxQueue s.mrwDesc.mrwSeqNum
    (mrwPdu P s.mrwDesc.mrwSeqNum (i32 n))
  have hpdu : Sendable L h s.txWindowDesc.seqNum (mrwPdu P s.mrwDesc.mrwSeqNum (i32 n)) :=
    .mrw _ n hn hstart
  obtain ⟨s', hs', hstays⟩ := Ensures.exists_ok
    ((sendMrw_spec hs.ready (i32 n)).weaken fun _ heq => by omega)
  rw [hs']
  refine Ensures.ok.2 ⟨?_, hstays.txWindowDesc⟩
  unfold sendMrw at hs'
  dsimp only at hs'
  rw [if_neg (by rw [i32_of_lt hmrw]; omega), hfree, Option.isSome_none,
    if_neg Bool.false_ne_true, timerAdd, if_neg hidle] at hs'
  cases hs'
  -- the new MRW is kept until it is acknowledged
  have hsent : Sending L h { s with
      mrwRtxQueue := s.mrwRtxQueue.addAt s.mrwDesc.mrwSeqNum (mrwPdu P s.mrwDesc.mrwSeqNum (i32 n))
      mrwTimer := s.mrwTimer ++ [s.mrwDesc.mrwSeqNum]
      mrwDesc := ⟨u32 (s.mrwDesc.mrwSeqNum + 1), s.mrwDesc.mrwSeqNum⟩ } := by
    refine { hs with
      ready := hstays.ready.congr core_bufferPdu.symm
      mrw := fun k pdu hk => ?_
      mrwTimer := fun k hk => ?_
      -- only the slot of the new MRW has changed
      mrwTimer_nodup := ?_ }
    · rw [hget, Function.update_apply] at hk
      split at hk
      · cases hk
        exact hpdu
      · exact hs.mrw k pdu hk
    · rw [hget, Function.update_apply]
      split
      · rfl
      · rename_i hne
        refine hs.mrwTimer k ((List.mem_append.1 hk).resolve_right fun hlast => ?_)
        exact hne (List.mem_singleton.1 hlast)
    · rw [← List.concat_eq_append]
      exact hs.mrwTimer_nodup.concat hidle
  exact hsent.bufferPdu hpdu

/-- How many positions are done, from `i` on. -/
theorem doneFrom_eq (hready : Ready P s) (hn : i + n ≤ s.used) :
    ∃ k ≤ n, s.doneFrom n i = .ok k ∧
      (∀ j < k, flag s.discarded (i + j) = true ∨ flag s.received (i + j) = true) ∧
      (k < n → flag s.discarded (i + k) = false) := by
  induction n generalizing i with
  | zero => exact ⟨0, le_rfl, rfl, fun j hj => absurd hj (Nat.not_lt_zero j), fun h₀ => by omega⟩
  | succ n ih =>
    obtain ⟨k, hk, hdone, hall, hstop⟩ := ih (i := i + 1) (by omega)
    unfold doneFrom
    rw [readAt_of_lt (hready.discarded_lt (by omega)), readAt_of_lt (hready.received_lt (by omega))]
    change ∃ k ≤ n + 1, (do
      let done ← if flag s.discarded i then .ok true else .ok (flag s.received i)
      if done then return (← doneFrom s n (i + 1)) + 1 else return 0 : Except AmError ℕ) = .ok k ∧ _
    by_cases hi : flag s.discarded i = true ∨ flag s.received i = true
    · refine ⟨k + 1, by omega, ?_, fun j hj => ?_, fun hlt => ?_⟩
      · rw [hdone]
        rcases hi with hd | hr
        · rw [hd]
          rfl
        · cases hd : flag s.discarded i
          · rw [hr]
            rfl
          · rfl
      · cases j with
        | zero => exact hi
        | succ j =>
          rw [← Nat.succ_add_eq_add_succ]
          exact hall j (by omega)
      · rw [← Nat.succ_add_eq_add_succ]
        exact hstop (by omega)
    · rw [not_or, Bool.not_eq_true, Bool.not_eq_true] at hi
      refine ⟨0, Nat.zero_le _, ?_, fun j hj => absurd hj (Nat.not_lt_zero j), fun _ => hi.1⟩
      rw [hi.1, hi.2]
      rfl

/-- **The receiver is told to move its window** to where it may start. -/
theorem checkForMrw_sending (hs : Sending L h s) (hmrw : s.mrwDesc.mrwSeqNum < 2147483648) :
    Ensures (fun _ => False) (GoesOn L h s) (checkForMrw P s) := by
  obtain ⟨n, hn, hdone, hall, hstop⟩ := doneFrom_eq hs.ready (i := 0) (n := s.used) (by omega)
  have hused := hs.used_eq
  have hle := hs.le
  have hstart := hs.mayStart hn (fun i hi => by rw [← Nat.zero_add i]; exact hall i hi)
    fun hlt => by rw [← Nat.zero_add n]; exact hstop hlt
  unfold checkForMrw
  rw [hdone]
  change Ensures _ _ (if 0 < n then _ else _)
  split
  · exact sendMrw_sending hs (by omega) hstart hmrw
  · exact ⟨hs, rfl⟩

/-! ### Acknowledgements -/

/-- Nothing but marks and timers has changed. -/
structure Marking (L : Layout P) (h : AmRxQueue.History) (s s' : AmTxQueue) : Prop
    extends GoesOn L h s s' where
  mrwDesc : s'.mrwDesc = s.mrwDesc

/-- A fragment that the receiver has is marked. -/
theorem markReceived_sending (hs : Sending L h s) (hi : i < s.used)
    (hgot : Got h (s.txWindowDesc.firstSeqNum + i)) :
    Ensures (fun _ => False) (Marking L h s) (s.markReceived i) := by
  have hmark := hs.ready.mark_received hi true
  unfold markReceived
  rw [readAt_of_lt (hs.ready.received_lt hi)]
  change Ensures _ _ (if flag s.received i then _ else _)
  split
  · exact ⟨⟨hs, rfl⟩, rfl⟩
  · refine ⟨⟨{ hs with ready := hmark.ready, received := fun j hj => ?_ }, rfl⟩, rfl⟩
    change flag (s.received.set i true) j = true at hj
    rw [flag_set (hs.ready.received_lt hi), Function.update_apply] at hj
    split at hj
    · rename_i heq
      rw [heq]
      exact hgot
    · exact hs.received j hj

/-- What an ACK says: the receiver has all fragments before some number, and from there on those of
the bitmap. -/
def Tells (h : AmRxQueue.History) (S : ℕ) (firstSn lastSn : ℤ) (bitmap : List Bool) : Prop :=
  ∃ a ≤ S, lastSn = (a : ℤ) - 1 ∧ (∀ t < a, Got h t) ∧
    ∀ i, bitmap.getD i false = true → firstSn = a ∧ a + i < S ∧ Got h (a + i)

theorem Tells.later {h' : AmRxQueue.History} {S S' : ℕ} {firstSn lastSn : ℤ} {bitmap : List Bool}
    (ht : Tells h S firstSn lastSn bitmap) (hstart : h.start ≤ h'.start)
    (hreceived : h.received ⊆ h'.received) (hS : S ≤ S') : Tells h' S' firstSn lastSn bitmap := by
  obtain ⟨a, ha, hlast, hall, hbits⟩ := ht
  refine ⟨a, ha.trans hS, hlast, fun t ht => (hall t ht).later hstart hreceived, fun i hi => ?_⟩
  obtain ⟨hfirst, hlt, hgot⟩ := hbits i hi
  exact ⟨hfirst, hlt.trans_le hS, hgot.later hstart hreceived⟩

theorem ofInt32_ofNat (hn : n < 4294967296) : ofInt32 n = n := by
  unfold ofInt32
  omega

theorem recvCumulativeAck_sending (hs : Sending L h s) {a : ℕ} (ha : a ≤ s.txWindowDesc.seqNum)
    (hgot : ∀ t < a, Got h t) (hmrw : s.mrwDesc.mrwSeqNum < 2147483648) :
    Ensures (fun _ => False) (GoesOn L h s) (recvCumulativeAck P s ((a : ℤ) - 1)) := by
  have hlt := hs.lt
  have hle := hs.le
  have hused := hs.used_eq
  have hW := P.txWindowSize_lt
  have hleW := hs.ready.window.used_le
  unfold recvCumulativeAck
  split
  · exact ⟨hs, rfl⟩
  rename_i hin
  obtain ⟨a, rfl⟩ : ∃ b, a = b + 1 := ⟨a - 1, by omega⟩
  have hcast : ((a + 1 : ℕ) : ℤ) - 1 = a := by omega
  rw [hcast, ofInt32_ofNat (by omega)] at hin ⊢
  have hge : s.txWindowDesc.firstSeqNum ≤ a := by omega
  have hsub : sub32 a s.txWindowDesc.firstSeqNum = a - s.txWindowDesc.firstSeqNum := by
    unfold sub32 u32
    omega
  rw [if_neg (by unfold u32; omega), hsub]
  have hloop : Ensures (fun _ => False) (Marking L h s)
      ((List.range' 0 (a - s.txWindowDesc.firstSeqNum + 1)).foldlM markReceived s) := by
    refine Ensures.foldlM_range' (I := fun _ => Marking L h s) ⟨⟨hs, rfl⟩, rfl⟩
      fun j s' _ hj hm => ?_
    refine Ensures.mono (markReceived_sending hm.sending (by rw [hm.used]; omega) ?_)
      fun s'' h' => ⟨⟨h'.sending, h'.txWindowDesc.trans hm.txWindowDesc⟩,
        h'.mrwDesc.trans hm.mrwDesc⟩
    rw [hm.txWindowDesc]
    exact hgot _ (by omega)
  rw [← List.range_eq_range'] at hloop
  refine Ensures.bind hloop fun s' hm => ?_
  exact (checkForMrw_sending hm.sending (hm.mrwDesc ▸ hmrw)).mono fun s'' h' =>
    ⟨h'.sending, h'.txWindowDesc.trans hm.txWindowDesc⟩

theorem recvAck_sending (hs : Sending L h s) (ht : t < s.txWindowDesc.seqNum) (hgot : Got h t) :
    Ensures (fun _ => False) (GoesOn L h s) (recvAck P s t) := by
  have hlt := hs.lt
  have hle := hs.le
  have hused := hs.used_eq
  have hleW := hs.ready.window.used_le
  have hW := P.txWindowSize_lt
  unfold recvAck
  rw [ofInt32_ofNat (by omega)]
  dsimp only
  split
  · exact ⟨hs, rfl⟩
  rename_i hin
  have hge : s.txWindowDesc.firstSeqNum ≤ t := by
    by_contra hlt'
    refine hin ?_
    unfold i32 sub32 u32
    split <;> omega
  have hsub : sub32 t s.txWindowDesc.firstSeqNum = t - s.txWindowDesc.firstSeqNum := by
    unfold sub32 u32
    omega
  rw [hsub, if_neg (by omega)]
  refine Ensures.mono (markReceived_sending hs (by omega) ?_) fun s' => Marking.toGoesOn
  rw [Nat.add_sub_cancel' hge]
  exact hgot

/-- **An ACK comes.** -/
theorem handleAck_sending (hs : Sending L h s) {firstSn lastSn : ℤ} {bitmap : List Bool}
    (htells : Tells h s.txWindowDesc.seqNum firstSn lastSn bitmap)
    (hmrw : s.mrwDesc.mrwSeqNum < 2147483648) :
    Ensures (fun _ => False) (GoesOn L h s) (handleAck P s firstSn lastSn bitmap) := by
  obtain ⟨a, ha, rfl, hall, hbits⟩ := htells
  refine Ensures.bind (recvCumulativeAck_sending hs ha hall hmrw) fun s₁ h₁ => ?_
  refine Ensures.foldlM h₁ fun s₂ i h₂ => ?_
  split
  · rename_i hbit
    obtain ⟨rfl, hlt, hgot⟩ := hbits i hbit
    have hack := recvAck_sending (t := a + i) h₂.sending (by rw [h₂.txWindowDesc]; exact hlt) hgot
    rw [Nat.cast_add] at hack
    exact hack.mono fun s₃ h₃ => ⟨h₃.sending, h₃.txWindowDesc.trans h₂.txWindowDesc⟩
  · exact h₂

/-! ### SDUs that are given up -/

/-- The number of the SDU of the fragment at position `i`. -/
def snoAt (L : Layout P) (s : AmTxQueue) (i : ℕ) : ℕ :=
  (L.sdu (s.txWindowDesc.firstSeqNum + i)).snoMainPacket

/-- The fragments at the positions from `lo` on, before `hi`, all of SDU `sno`, are discarded. -/
structure Discarding (L : Layout P) (h : AmRxQueue.History) (sno lo hi : ℕ) (s s' : AmTxQueue) :
    Prop where
  flying : Flying L h s'
  txWindowDesc : s'.txWindowDesc = s.txWindowDesc
  pduRtxQueue : s'.pduRtxQueue = s.pduRtxQueue
  mrwDesc : s'.mrwDesc = s.mrwDesc
  discarded : ∀ j, flag s'.discarded j = true ↔ flag s.discarded j = true ∨ lo ≤ j ∧ j < hi
  same : ∀ j, lo ≤ j → j < hi → snoAt L s j = sno

variable {sno lo mid hi : ℕ}

theorem Discarding.used (hd : Discarding L h sno lo hi s s') : s'.used = s.used := by
  unfold AmTxQueue.used
  rw [hd.txWindowDesc]

theorem Discarding.snoAt (hd : Discarding L h sno lo hi s s') (i : ℕ) :
    snoAt L s' i = snoAt L s i := by
  unfold AmTxQueue.snoAt
  rw [hd.txWindowDesc]

theorem Discarding.nothing (hs : Flying L h s) (i : ℕ) : Discarding L h sno i i s s where
  flying := hs
  txWindowDesc := rfl
  pduRtxQueue := rfl
  mrwDesc := rfl
  discarded := fun j => ⟨Or.inl, fun hj => hj.resolve_right fun hlt => by omega⟩
  same := fun j hj hlt => by omega

/-- What is discarded first and what is discarded then are next to each other. -/
theorem Discarding.trans {s'' : AmTxQueue} {lo' hi' : ℕ} (hd : Discarding L h sno lo hi s s')
    (hd' : Discarding L h sno lo' hi' s' s'')
    (hnext : hi = lo' ∨ hi' = lo) :
    Discarding L h sno (min lo lo') (max hi hi') s s'' where
  flying := hd'.flying
  txWindowDesc := hd'.txWindowDesc.trans hd.txWindowDesc
  pduRtxQueue := hd'.pduRtxQueue.trans hd.pduRtxQueue
  mrwDesc := hd'.mrwDesc.trans hd.mrwDesc
  discarded := fun j => by
    rw [hd'.discarded, hd.discarded, or_assoc]
    refine or_congr_right ⟨fun hj => by omega, fun hj => by omega⟩
  same := fun j hj hlt => by
    by_cases hin : lo ≤ j ∧ j < hi
    · exact hd.same j hin.1 hin.2
    · rw [← hd.snoAt]
      exact hd'.same j (by omega) (by omega)

theorem Flying.snoMainPacket (hs : Flying L h s) (hi : i < s.used) {pdu : LteRlcAmPdu}
    (hpdu : s.pduRtxQueue.get i = some pdu) : pdu.snoMainPacket = snoAt L s i := by
  obtain ⟨pdu', hpdu', htry⟩ := hs.pdu i hi
  obtain rfl : pdu = pdu' := Option.some_inj.1 (hpdu.symm.trans hpdu')
  exact congrArg LteRlcAmPdu.snoMainPacket htry

/-- One fragment is discarded. -/
theorem Flying.discardOne (hs : Flying L h s) (hi : i < s.used) (hsno : snoAt L s i = sno) :
    Discarding L h sno i (i + 1) s
      (stopTimer { s with discarded := s.discarded.set i true } i) where
  flying := { hs with ready := (hs.ready.mark_discarded hi true).ready }
  txWindowDesc := rfl
  pduRtxQueue := rfl
  mrwDesc := rfl
  discarded := fun j => by
    change flag (s.discarded.set i true) j = true ↔ _
    rw [flag_set (hs.ready.discarded_lt hi.le), Function.update_apply]
    by_cases hji : j = i
    · rw [if_pos hji]
      exact iff_of_true rfl (.inr ⟨by omega, by omega⟩)
    · rw [if_neg hji]
      exact ⟨Or.inl, fun hj => hj.resolve_right fun hlt => by omega⟩
  same := fun j hj hlt => by
    obtain rfl : j = i := by omega
    exact hsno

theorem discardForward_flying (sno : ℕ) (hs : Flying L h s) {n : ℕ} (hn : i + n ≤ s.used) :
    ∃ hi ≥ i, hi ≤ i + n ∧ (hi < i + n → snoAt L s hi ≠ sno) ∧
      Ensures (fun _ => False) (Discarding L h sno i hi s) (discardForward sno n i s) := by
  induction n generalizing i s with
  | zero => exact ⟨i, le_rfl, le_rfl, fun hlt => by omega, Discarding.nothing hs i⟩
  | succ n ih =>
    obtain ⟨pdu, hpdu, -⟩ := hs.pdu i (by omega)
    have hsno := hs.snoMainPacket (by omega) hpdu
    unfold discardForward
    rw [hpdu]
    dsimp only
    rw [hsno]
    by_cases heq : snoAt L s i = sno
    · rw [if_pos heq, readAt_of_lt (hs.ready.discarded_lt (by omega))]
      -- it is discarded, or has been discarded before
      have hone : Discarding L h sno i (i + 1) s (if flag s.discarded i then s
          else stopTimer { s with discarded := s.discarded.set i true } i) := by
        split
        · rename_i hflag
          refine ⟨hs, rfl, rfl, rfl, fun j => ⟨Or.inl, fun hj => hj.elim id fun hlt => ?_⟩,
            fun j hj hlt => ?_⟩
          · obtain rfl : j = i := by omega
            exact hflag
          · obtain rfl : j = i := by omega
            exact heq
        · exact hs.discardOne (by omega) heq
      obtain ⟨hi, hge, hle, hstop, hrest⟩ := ih hone.flying (i := i + 1) (by rw [hone.used]; omega)
      refine ⟨hi, by omega, by omega, fun hlt => ?_, Ensures.mono hrest fun s' hd => ?_⟩
      · rw [← hone.snoAt]
        exact hstop (by omega)
      · have htrans := hone.trans hd (.inl rfl)
        rwa [min_eq_left (Nat.le_succ i), max_eq_right hge] at htrans
    · rw [if_neg heq]
      exact ⟨i, le_rfl, by omega, fun _ => heq, Discarding.nothing hs i⟩

theorem discardBackward_flying (sno : ℕ) (hs : Flying L h s) (hi : i ≤ s.used) :
    ∃ lo ≤ i, (0 < lo → snoAt L s (lo - 1) ≠ sno) ∧
      Ensures (fun _ => False) (Discarding L h sno lo i s) (discardBackward sno i s) := by
  induction i generalizing s with
  | zero => exact ⟨0, le_rfl, fun hlt => by omega, Discarding.nothing hs 0⟩
  | succ i ih =>
    obtain ⟨pdu, hpdu, -⟩ := hs.pdu i (by omega)
    have hsno := hs.snoMainPacket (by omega) hpdu
    unfold discardBackward
    rw [hpdu]
    dsimp only
    rw [hsno]
    by_cases heq : snoAt L s i = sno
    · rw [if_pos heq, writeAt_of_lt (hs.ready.discarded_lt (by omega))]
      have hone := hs.discardOne (by omega) heq
      obtain ⟨lo, hle, hstop, hrest⟩ := ih hone.flying (by rw [hone.used]; omega)
      refine ⟨lo, by omega, fun hlt => ?_, Ensures.mono hrest fun s' hd => ?_⟩
      · rw [← hone.snoAt]
        exact hstop hlt
      · have htrans := hone.trans hd (.inr rfl)
        rwa [min_eq_right hle, max_eq_left (Nat.le_succ i)] at htrans
    · rw [if_neg heq]
      exact ⟨i + 1, le_rfl, fun _ => heq, Discarding.nothing hs (i + 1)⟩

/-- **SDUs are discarded as a whole**: next to what is discarded there are other SDUs. -/
theorem Sending.discarding (hs : Sending L h s) (hd : Discarding L h sno lo hi s s')
    (hlo : 0 < lo → snoAt L s (lo - 1) ≠ sno) (hhi : hi < s.used → snoAt L s hi ≠ sno) :
    Sending L h s' := by
  refine { hd.flying with discarded := fun i hi' j hj' hfirst hflag => ?_ }
  rw [hd.txWindowDesc] at hfirst
  rw [hd.used] at hi' hj'
  rw [hd.discarded] at hflag ⊢
  -- the positions between two fragments of an SDU are of that SDU
  have hbetween : ∀ k, min i j ≤ k → k ≤ max i j → snoAt L s k = snoAt L s i := by
    intro k hk hk'
    refine congrArg LteRlcAmSdu.snoMainPacket (L.sdu_eq ?_ ?_)
    · have hle := L.first_le (s.txWindowDesc.firstSeqNum + i)
      have hle' := L.first_le (s.txWindowDesc.firstSeqNum + j)
      omega
    · have hlt : s.txWindowDesc.firstSeqNum + i < L.next (s.txWindowDesc.firstSeqNum + i) :=
        L.lt_next'
      have hlt' : s.txWindowDesc.firstSeqNum + j < L.next (s.txWindowDesc.firstSeqNum + j) :=
        L.lt_next'
      have hnext := L.next_congr hfirst
      omega
  rcases hflag with hflag | ⟨hge, hlt⟩
  · exact .inl (hs.discarded i hi' j hj' hfirst hflag)
  · right
    have hi_sno := hd.same i hge hlt
    constructor
    · by_contra hlt'
      exact hlo (by omega) ((hbetween (lo - 1) (by omega) (by omega)).trans hi_sno)
    · by_contra hge'
      exact hhi (by omega) ((hbetween hi (by omega) (by omega)).trans hi_sno)

/-- **The SDU of a fragment is given up**, and the receiver may be told to move its window. -/
theorem discard_sending (hs : Sending L h s) (hi : i < s.used)
    (hmrw : s.mrwDesc.mrwSeqNum < 2147483648) :
    Ensures (fun _ => False) (GoesOn L h s) (discard P s (s.seqNumAt i)) := by
  have hle := hs.ready.window.used_le
  obtain ⟨pdu, hpdu, -⟩ := hs.pdu i hi
  have hsno := hs.snoMainPacket hi hpdu
  unfold discard
  rw [sub32_seqNumAt hs.ready.window hi]
  dsimp only
  rw [if_neg (by omega), writeAt_of_lt (hs.ready.discarded_lt hi.le)]
  simp only [hpdu]
  change Ensures _ _ (discardForward pdu.snoMainPacket (s.used - (i + 1)) (i + 1)
    (stopTimer { s with discarded := s.discarded.set i true } i) >>= _)
  have hone := hs.discardOne hi hsno.symm
  obtain ⟨hi', hge, hle', hstop, hforward⟩ := discardForward_flying
    pdu.snoMainPacket hone.flying (i := i + 1) (n := s.used - (i + 1)) (by rw [hone.used]; omega)
  refine Ensures.bind hforward fun s₁ h₁ => ?_
  have hup := hone.trans h₁ (.inl rfl)
  rw [min_eq_left (Nat.le_succ i), max_eq_right hge] at hup
  obtain ⟨lo, hlo, hstop', hbackward⟩ := discardBackward_flying
    pdu.snoMainPacket hup.flying (i := i) (by rw [hup.used]; exact hi.le)
  refine Ensures.bind hbackward fun s₂ h₂ => ?_
  have hall := hup.trans h₂ (.inr rfl)
  rw [min_eq_right hlo, max_eq_left (by omega)] at hall
  have hsending := hs.discarding hall (fun hlt => ?_) fun hlt => ?_
  · have hemit : Sending L h (s₂.emit (.discarded pdu.snoMainPacket)) := hsending.congr rfl
    refine (checkForMrw_sending hemit ?_).mono fun s' h' =>
      ⟨h'.sending, h'.txWindowDesc.trans hall.txWindowDesc⟩
    exact lt_of_eq_of_lt (congrArg MrwDesc.mrwSeqNum hall.mrwDesc) hmrw
  · rw [← hup.snoAt]
    exact hstop' hlt
  · rw [← hone.snoAt]
    exact hstop (by omega)

/-! ### Timers -/

/-- **A retransmission timer expires**: the fragment is sent again, or its SDU is given up. -/
theorem pduTimerHandle_sending (hs : Sending L h s) {sn : ℕ} (hsn : sn ∈ s.pduTimer)
    (hmrw : s.mrwDesc.mrwSeqNum < 2147483648) :
    Ensures (fun _ => False) (GoesOn L h s)
      (pduTimerHandle P { s with pduTimer := s.pduTimer.erase sn } sn) := by
  have hle := hs.ready.window.used_le
  have hused := hs.used_eq
  have hstart := hs.le
  obtain ⟨i, hi, rfl, hr, hd⟩ := hs.ready.window.timer sn hsn
  obtain ⟨pdu, hpdu, htry⟩ := hs.pdu i hi
  obtain ⟨pdu', hpdu', hsno⟩ := hs.ready.window.pdu i hi
  obtain rfl : pdu = pdu' := Option.some_inj.1 (hpdu.symm.trans hpdu')
  have hstopped : Sending L h { s with pduTimer := s.pduTimer.erase (s.seqNumAt i) } :=
    { hs with ready := hs.ready.with_timer List.erase_sublist }
  have hidle : s.seqNumAt i ∉ s.pduTimer.erase (s.seqNumAt i) :=
    hs.ready.window.timer_nodup.not_mem_erase
  unfold pduTimerHandle
  dsimp only
  rw [sub32_seqNumAt hs.ready.window hi, if_neg (by omega), hpdu]
  dsimp only
  rw [readAt_of_lt (hs.ready.received_lt hi), hr]
  change Ensures _ _ (if P.maxRtx < pdu.txNumber + 1 then _ else _)
  split
  · -- the fragment has been sent often enough
    exact (discard_sending hstopped hi hmrw).mono fun s' h' => ⟨h'.sending, h'.txWindowDesc⟩
  · -- it is sent once more
    rw [timerAdd, if_neg hidle]
    have hagain := hstopped.ready.retransmit hi
      (show ({ pdu with txNumber := (pdu.txNumber + 1) % 65536 } : LteRlcAmPdu).snoFragment = _
        from hsno) hr hd hidle
    have hfragment : Sendable L h s.txWindowDesc.seqNum
        { pdu with txNumber := (pdu.txNumber + 1) % 65536 } :=
      .data (s.txWindowDesc.firstSeqNum + i) (by omega) htry
    have hget := hs.ready.get_add_remove hi { pdu with txNumber := (pdu.txNumber + 1) % 65536 }
    have hsent : Sending L h { s with
        pduRtxQueue := (s.pduRtxQueue.remove i).add
          { pdu with txNumber := (pdu.txNumber + 1) % 65536 }
        pduTimer := s.pduTimer.erase (s.seqNumAt i) ++ [s.seqNumAt i] } := by
      refine { hs with ready := hagain, pdu := fun j hj => ?_ }
      rw [hget, Function.update_apply]
      split
      · rename_i hji
        rw [hji]
        exact ⟨_, rfl, htry⟩
      · exact hs.pdu j hj
    exact ⟨hsent.bufferPdu hfragment, bufferPdu_txWindowDesc⟩

/-- **An MRW timer expires**: the command is sent again, unless there is a newer one. -/
theorem mrwTimerHandle_sending (hs : Sending L h s) {k : ℕ} {timers : List ℕ}
    (htimer : s.mrwTimer = k :: timers) :
    Ensures (fun _ => False) (GoesOn L h s) (mrwTimerHandle { s with mrwTimer := timers } k) := by
  have hready := mrwTimerHandle_ready hs.ready htimer
  have hlt : ∀ k' ∈ k :: timers, k' < s.mrwDesc.mrwSeqNum := htimer ▸ hs.ready.mrw.timer
  have hmem : ∀ k' ∈ k :: timers, (s.mrwRtxQueue.get k').isSome := htimer ▸ hs.mrwTimer
  obtain ⟨hnot, hnodup⟩ := List.nodup_cons.1 (htimer ▸ hs.mrwTimer_nodup)
  obtain ⟨pdu, hpdu⟩ := Option.isSome_iff_exists.1 (hmem k List.mem_cons_self)
  unfold mrwTimerHandle at hready ⊢
  rw [hpdu] at hready ⊢
  dsimp only at hready ⊢
  by_cases hnewer : k < s.mrwDesc.lastMrw
  · rw [if_pos hnewer] at hready ⊢
    refine ⟨{ hs with
      ready := hready
      mrw := fun k' pdu' hk' => ?_
      mrwTimer := fun k' hk' => ?_
      mrwTimer_nodup := hnodup }, rfl⟩
    · rw [CArray.get_remove, Function.update_apply] at hk'
      split at hk'
      · cases hk'
      · exact hs.mrw k' pdu' hk'
    · rw [CArray.get_remove, Function.update_of_ne fun heq : k' = k => hnot (heq ▸ hk')]
      exact hmem k' (List.mem_cons_of_mem k hk')
  · rw [if_neg hnewer, timerAdd, if_neg hnot] at hready ⊢
    have hsent : Sending L h { s with mrwTimer := timers ++ [k] } := { hs with
      ready := (show Ready P _ from hready).congr core_bufferPdu.symm
      mrwTimer := fun k' hk' => hmem k' (by
        rcases List.mem_append.1 hk' with hk' | hk'
        · exact List.mem_cons_of_mem k hk'
        · exact List.mem_singleton.1 hk' ▸ List.mem_cons_self)
      mrwTimer_nodup := by
        rw [← List.concat_eq_append]
        exact hnodup.concat hnot }
    exact ⟨hsent.bufferPdu (hs.mrw k pdu hpdu), bufferPdu_txWindowDesc⟩

/-! ### The window moves -/

theorem recvMrwAck_sending (hs : Sending L h s) (k : ℕ) : Sending L h (s.recvMrwAck k) := by
  have hready := recvMrwAck_ready hs.ready k
  unfold recvMrwAck at hready ⊢
  split
  · exact hs
  · rename_i pdu hpdu
    rw [hpdu] at hready
    refine { hs with
      ready := hready
      mrw := fun k' pdu' hk' => ?_
      mrwTimer := fun k' hk' => ?_
      mrwTimer_nodup := hs.mrwTimer_nodup.erase k }
    · rw [CArray.get_remove, Function.update_apply] at hk'
      split at hk'
      · cases hk'
      · exact hs.mrw k' pdu' hk'
    · obtain ⟨hne, hmem⟩ := (hs.mrwTimer_nodup.mem_erase_iff).1 hk'
      rw [CArray.get_remove, Function.update_of_ne hne]
      exact hs.mrwTimer k' hmem

theorem txWindowDesc_recvMrwAck (k : ℕ) : (s.recvMrwAck k).txWindowDesc = s.txWindowDesc := by
  unfold recvMrwAck
  split
  · rfl
  · rfl

/-- The window has been moved to `n`. -/
theorem Sending.moved (hs : Sending L h s) (hgt : s.txWindowDesc.firstSeqNum < n)
    (hn : n ≤ h.start) (hm : Moving s (n - s.txWindowDesc.firstSeqNum) s.used s')
    (hready : Ready P { s' with txWindowDesc := { s'.txWindowDesc with firstSeqNum := n } }) :
    Sending L h { s' with txWindowDesc := { s'.txWindowDesc with firstSeqNum := n } } := by
  have hlt := hs.lt
  have hstart_le := hs.start_le
  have hused := hs.used_eq
  -- only the window has moved
  have hflags : flag s'.received =
      fun i => flag s.received (i + (n - s.txWindowDesc.firstSeqNum)) := by
    rw [hm.received, shifted_all hs.ready.window.received]
  have hflags' : flag s'.discarded =
      fun i => flag s.discarded (i + (n - s.txWindowDesc.firstSeqNum)) := by
    rw [hm.discarded, shifted_all hs.ready.window.discarded]
  have hpdus : s'.pduRtxQueue.get =
      fun i => s.pduRtxQueue.get (i + (n - s.txWindowDesc.firstSeqNum)) := by
    rw [hm.pduRtxQueue, shifted_all hs.ready.window.free]
  have hseq : s'.txWindowDesc.seqNum = s.txWindowDesc.seqNum := congrArg _ hm.txWindowDesc
  have hmrw : s'.mrwRtxQueue = s.mrwRtxQueue := by rw [hm.frame]
  have hbuffer : s'.pduBuffer = s.pduBuffer := by rw [hm.frame]
  have htimer : s'.mrwTimer = s.mrwTimer := by rw [hm.frame]
  have hposition : ∀ i, s.txWindowDesc.firstSeqNum + (i + (n - s.txWindowDesc.firstSeqNum)) =
      n + i := fun i => by omega
  have hused' : ({ s' with txWindowDesc := { s'.txWindowDesc with firstSeqNum := n } } :
      AmTxQueue).used = s.txWindowDesc.seqNum - n := by
    unfold AmTxQueue.used
    dsimp only
    rw [hseq]
    unfold sub32 u32
    omega
  refine ⟨⟨⟨by rw [hseq]; exact hlt, (hn.trans hstart_le).trans_eq hseq.symm, hn,
    by rw [hseq]; exact hstart_le, hs.begun, fun i hi => ?_, fun i hi => ?_,
    by rw [hseq, hmrw]; exact hs.mrw, by rw [hseq, hbuffer]; exact hs.buffer,
    by rw [hmrw, htimer]; exact hs.mrwTimer, by rw [htimer]; exact hs.mrwTimer_nodup⟩, hready,
    by rw [hseq]; exact hs.edge⟩, fun i hi j hj hsame hflag => ?_⟩
  · -- the positions that are left are those from `n` on
    rw [hused'] at hi
    obtain ⟨pdu, hpdu, htry⟩ := hs.pdu (i + (n - s.txWindowDesc.firstSeqNum)) (by omega)
    rw [hposition] at htry
    exact ⟨pdu, (congrFun hpdus i).trans hpdu, htry⟩
  · dsimp only at hi
    rw [hflags] at hi
    have hgot := hs.received _ hi
    rwa [hposition] at hgot
  · rw [hused'] at hi hj
    dsimp only at hflag hsame ⊢
    rw [hflags'] at hflag ⊢
    refine hs.discarded _ (by omega) _ (by omega) ?_ hflag
    rw [hposition, hposition]
    exact hsame

/-- **The window follows that of the receiver.** -/
theorem moveTxWindow_sending (hs : Sending L h s) (hn : n ≤ h.start) :
    Ensures (fun _ => False)
      (fun s' => Sending L h s' ∧ s'.txWindowDesc.seqNum = s.txWindowDesc.seqNum)
      (moveTxWindow P s n) := by
  have hlt := hs.lt
  have hle_start := hs.le_start
  have hstart_le := hs.start_le
  have hused := hs.used_eq
  by_cases hge : n ≤ s.txWindowDesc.firstSeqNum
  · rw [moveTxWindow, if_pos]
    · exact ⟨hs, rfl⟩
    · unfold i32 sub32 u32
      split <;> omega
  have hsub : sub32 n s.txWindowDesc.firstSeqNum = n - s.txWindowDesc.firstSeqNum := by
    unfold sub32 u32
    omega
  have hint : i32 (sub32 n s.txWindowDesc.firstSeqNum) =
      (n - s.txWindowDesc.firstSeqNum : ℕ) := by
    rw [hsub]
    exact i32_of_lt (by omega)
  obtain ⟨hpos, s₃, hm, hmove⟩ := moveTxWindow_moving hs.ready n (by omega) (by omega)
  have hready := hs.ready.moved hm hpos
  have hfirst : u32 (s₃.txWindowDesc.firstSeqNum + sub32 n s.txWindowDesc.firstSeqNum) = n := by
    rw [hm.txWindowDesc, hsub, Nat.add_sub_cancel' (by omega)]
    exact u32_of_lt (by omega)
  rw [hmove]
  rw [hfirst] at hready ⊢
  rw [hsub] at hm
  have hseq : s₃.txWindowDesc.seqNum = s.txWindowDesc.seqNum := congrArg _ hm.txWindowDesc
  exact ⟨hs.moved (Nat.not_le.1 hge) hn hm hready, hseq⟩

/-- **A command to move the window has been answered.** -/
theorem mrwAck_sending (hs : Sending L h s) (hn : n ≤ h.start) (k : ℕ) :
    Ensures (fun _ => False)
      (fun s' => Sending L h s' ∧ s'.txWindowDesc.seqNum = s.txWindowDesc.seqNum)
      (handle P s (.mrwAck n k)) := by
  refine Ensures.bind (moveTxWindow_sending hs hn) fun s' h' => ?_
  exact ⟨recvMrwAck_sending h'.1 k, by rw [txWindowDesc_recvMrwAck]; exact h'.2⟩

theorem sendPdus_sending (hs : Sending L h s) {pdu : LteRlcAmPdu} {pdus : List LteRlcAmPdu}
    (hbuffer : s.pduBuffer = pdu :: pdus) (size : ℤ) :
    Ensures (fun _ => False) (GoesOn L h s) (s.sendPdus size) := by
  have hrest : Sending L h { s with pduBuffer := pdus } := { hs with
    ready := hs.ready.congr rfl
    buffer := fun pdu' hpdu' => hs.buffer pdu' (hbuffer ▸ List.mem_cons_of_mem pdu hpdu') }
  unfold sendPdus
  rw [hbuffer]
  dsimp only
  split
  · refine Ensures.ok.2 ?_
    split
    · exact ⟨hrest.congr rfl, rfl⟩
    · exact ⟨hrest.congr rfl, rfl⟩
  · exact ⟨hs.congr rfl, rfl⟩

end AmTxQueue

end V2nLte
