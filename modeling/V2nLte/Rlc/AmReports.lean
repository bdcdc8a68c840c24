import V2nLte.Rlc.AmPlacing

/-!
# What the RLC AM receiver reports, and what it keeps

The reports of the receiver are right about its history, and stay so when they come late
(`Reports`).  When its window moves to where it may start, the fragments of the SDU there are
pending, if those that stay pending are of an SDU that goes on (`together_moved`).  `Receiving` is
what holds of it between two events, and the three handlers keep that without an exception.
-/

namespace V2nLte

/-- The last number of the SDU is in its header, if it is an `int`. -/
theorem Layout.lastSn_pdu {P : AmTxParams} {L : Layout P} {t : ℕ} (hlt : L.next t ≤ 2147483648) :
    (L.pdu t).lastSn = (L.next t - 1 : ℕ) := by
  have hnext : t < L.next t := L.lt_next'
  have hlen : L.next t = L.first t + L.total t := rfl
  have hfirst := L.first_le t
  change i32 (u32 (L.first t)) + L.total t - 1 = _
  rw [u32_of_lt (by omega), i32_of_lt (by omega)]
  omega

namespace AmRxQueue

open AmTxQueue (Got Tells)

variable {P : AmTxParams} {L : Layout P} {Q : AmRxParams} {h h' : History} {s s' : AmRxQueue}
  {S sn i : ℕ}

/-! ### Reports -/

/-- What the receiver says is so: an ACK is about fragments that it has, and a command to move the
window is answered with a number that the window has reached. -/
def Reports (h : History) (S : ℕ) : AmRxOutput → Prop
  | .status firstSn lastSn bitmap => Tells h S firstSn lastSn bitmap
  | .mrwAck _ snoFragment => snoFragment ≤ h.start
  | _ => True

theorem Reports.later {S' : ℕ} {o : AmRxOutput} (ho : Reports h S o) (hstart : h.start ≤ h'.start)
    (hreceived : h.received ⊆ h'.received) (hS : S ≤ S') : Reports h' S' o := by
  cases o with
  | status firstSn lastSn bitmap => exact AmTxQueue.Tells.later ho hstart hreceived hS
  | mrwAck k n => exact ho.trans hstart
  | sdu fragments => trivial
  | routed pdu => trivial

theorem flag_takeWhile {xs : List Bool} (hi : i < (xs.takeWhile id).length) :
    flag xs i = true := by
  induction xs generalizing i with
  | nil => cases hi
  | cons b xs ih =>
    cases b with
    | false => cases hi
    | true =>
      cases i with
      | zero => rfl
      | succ i => exact ih (Nat.lt_of_succ_lt_succ hi)

theorem flag_dropWhile (xs : List Bool) (i : ℕ) :
    (xs.dropWhile id).getD i false = flag xs ((xs.takeWhile id).length + i) := by
  induction xs with
  | nil => rfl
  | cons b xs ih =>
    cases b with
    | false =>
      rw [List.dropWhile_cons_of_neg (by simp), List.takeWhile_cons_of_neg (by simp),
        List.length_nil, Nat.zero_add]
      rfl
    | true =>
      rw [List.dropWhile_cons_of_pos (by simp), List.takeWhile_cons_of_pos (by simp),
        List.length_cons, Nat.succ_add, ih]
      rfl

/-- The numbers of what has been received, and of what has not been sent, do not wrap. -/
structure Below (h : History) (S : ℕ) : Prop where
  lt : S < 2147483648
  start_le : h.start ≤ S
  received_lt : ∀ t ∈ h.received, t < S

/-- **A status report tells what the receiver has.** -/
theorem sendStatusReport_reports (hs : Stored L Q h.start h.received s) (hb : Below h S) (now : ℕ) :
    Ensures (fun _ => True) (fun r => ∀ o ∈ r.2, Reports h S o) (sendStatusReport Q now s) := by
  have hlt := hb.lt
  have hstart := hb.start_le
  have hfirst : s.rxWindowDesc.firstSeqNum = h.start :=
    hs.first.trans (u32_of_lt (by omega))
  unfold sendStatusReport
  split
  · exact fun o ho => absurd ho List.not_mem_nil
  split
  · trivial
  dsimp only
  rw [hfirst]
  refine Ensures.ok.2 (List.forall_mem_singleton.2 ?_)
  set c := (s.received.takeWhile id).length with hc
  have hgot : ∀ j < c, h.start + j ∈ h.received := fun j hj =>
    (hs.received j).1 (flag_takeWhile hj)
  have hle : h.start + c ≤ S := by
    rcases Nat.eq_zero_or_pos c with hzero | hpos
    · omega
    · have := hb.received_lt _ (hgot (c - 1) (by omega))
      omega
  refine ⟨h.start + c, hle, ?_, fun t ht => ?_, fun i hi => ?_⟩
  · unfold sub32 i32 u32
    split <;> omega
  · by_cases hpassed : t < h.start
    · exact .inl hpassed
    · obtain ⟨j, rfl⟩ := Nat.exists_eq_add_of_le (Nat.not_lt.1 hpassed)
      exact .inr (hgot j (by omega))
  · have hmem : h.start + c + i ∈ h.received := by
      rw [Nat.add_assoc, ← hs.received, ← flag_dropWhile]
      exact hi
    have hne : s.received.dropWhile id ≠ [] := by
      intro hnil
      rw [hnil] at hi
      cases hi
    rw [if_neg hne]
    exact ⟨i32_of_lt (by omega), hb.received_lt _ hmem, .inr hmem⟩

/-- After a report the window is the same. -/
theorem sendStatusReport_reported (hs : Stored L Q h.start h.received s) (hb : Below h S)
    (now : ℕ) : Ensures (fun _ => True) (fun r => Stored L Q h.start h.received r.1 ∧
      r.1.pendingPduBuffer = s.pendingPduBuffer ∧ ∀ o ∈ r.2, Reports h S o)
      (sendStatusReport Q now s) := by
  have hreports := sendStatusReport_reports hs hb now
  cases hreport : sendStatusReport Q now s with
  | error e => trivial
  | ok r =>
    obtain ⟨s', out⟩ := r
    obtain ⟨t, rfl, -⟩ := sendStatusReport_ok hreport
    rw [hreport] at hreports
    exact ⟨hs.congr rfl rfl rfl rfl, rfl, hreports⟩

/-- What a handler says is so, and it adds nothing to the pending buffer. -/
structure Kept (h : History) (S : ℕ) (s : AmRxQueue) (r : AmRxQueue × List AmRxOutput) : Prop where
  reports : ∀ o ∈ r.2, Reports h S o
  pending : r.1.pendingPduBuffer = s.pendingPduBuffer ∨ r.1.pendingPduBuffer = []

theorem sendStatusReport_kept (hs : Stored L Q h.start h.received s) (hb : Below h S) (now : ℕ) :
    Ensures (fun _ => True) (Kept h S s) (sendStatusReport Q now s) :=
  (sendStatusReport_reported hs hb now).mono fun _ hr => ⟨hr.2.2, .inl hr.2.1⟩

/-- An SDU is passed up, with a report. -/
theorem Kept.passed {fragments : List LteRlcAmPdu} {r : AmRxQueue × List AmRxOutput}
    (hk : Kept h S s r) : Kept h S s (r.1, .sdu fragments :: r.2) :=
  ⟨List.forall_mem_cons.2 ⟨trivial, hk.reports⟩, hk.pending⟩

theorem passUp_kept (hs : Stored L Q h.start h.received s) (hb : Below h S) (now index : ℕ) :
    Ensures (fun _ => True) (Kept h S s) (passUp Q now s index) := by
  refine Ensures.after fun header => ?_
  split
  · exact Ensures.bind (sendStatusReport_kept hs hb now) fun r hk => hk.passed
  · split
    · split
      · trivial
      · refine Ensures.after fun frameBuff => ?_
        split
        · trivial
        · have hcleared : Stored L Q h.start h.received { s with pendingPduBuffer := [] } :=
            hs.congr rfl rfl rfl rfl
          refine Ensures.bind (sendStatusReport_kept hcleared hb now) fun r hk => ?_
          exact ⟨hk.passed.reports, .inr (hk.pending.elim id id)⟩
    · refine Ensures.after fun frameBuff => ?_
      split
      · trivial
      · exact Ensures.bind (sendStatusReport_kept hs hb now) fun r hk => hk.passed

theorem checkCompleteSdu_kept (hs : Stored L Q h.start h.received s) (hb : Below h S)
    (now index : ℕ) : Ensures (fun _ => True) (Kept h S s) (checkCompleteSdu Q now s index) := by
  refine Ensures.after fun pdu => ?_
  dsimp only
  obtain ⟨f, hf⟩ : ∃ f, (if s.firstSdu = -1 then { s with firstSdu := i32 pdu.snoMainPacket }
      else s) = ({ s with firstSdu := f } : AmRxQueue) := by
    split
    · exact ⟨_, rfl⟩
    · exact ⟨s.firstSdu, rfl⟩
  rw [hf]
  have hs' : Stored L Q h.start h.received { s with firstSdu := f } := hs.congr rfl rfl rfl rfl
  have hpassed : ∀ first, Ensures (fun _ => True) (Kept h S s)
      (passUp Q now { s with firstSdu := f } first) := fun first =>
    Ensures.mono (passUp_kept hs' hb now first) fun r hk => ⟨hk.reports, hk.pending⟩
  have hnothing : Kept h S s ({ s with firstSdu := f }, []) :=
    ⟨fun o ho => absurd ho List.not_mem_nil, .inl rfl⟩
  split
  · exact hpassed index
  · refine Ensures.after fun first => ?_
    cases first with
    | none => exact hnothing
    | some first =>
      dsimp only
      split
      · exact hpassed first
      · refine Ensures.after fun complete => ?_
        split
        · exact hpassed first
        · exact hnothing

theorem buffer_kept (hs : Stored L Q h.start h.received s) (hb : Below h S)
    (hle : h.start ≤ sn) (hlt : sn < h.start + Q.rxWindowSize) (hS : sn < S) (now : ℕ) :
    Ensures (fun _ => True) (Kept (h.after (.fragment sn)) S s)
      (buffer Q now s (L.pdu sn) (sn - h.start)) := by
  refine Ensures.after fun received => ?_
  split
  · refine Ensures.after fun buffered => ?_
    split
    · exact ⟨fun o ho => absurd ho List.not_mem_nil, .inl rfl⟩
    · trivial
  · split
    · trivial
    · have hb' : Below (h.after (.fragment sn)) S := ⟨hb.lt, hb.start_le, fun t ht =>
        ht.elim (hb.received_lt t) fun heq => heq.1 ▸ hS⟩
      exact Ensures.mono (checkCompleteSdu_kept (h := h.after (.fragment sn)) (hs.add hle hlt) hb'
        now _) fun r hk => ⟨hk.reports, hk.pending⟩

/-- **A fragment comes.** -/
theorem enqueData_kept (hs : Stored L Q h.start h.received s) (hb : Below h S)
    (hlt : sn < h.start + Q.rxWindowSize) (hS : sn < S) (now : ℕ) :
    Ensures (fun _ => True) (Kept (h.after (.fragment sn)) S s) (enqueData Q now s (L.pdu sn)) := by
  have hb_lt := hb.lt
  have hstart := hb.start_le
  have hfirst : s.rxWindowDesc.firstSeqNum = h.start := hs.first.trans (u32_of_lt (by omega))
  unfold enqueData
  dsimp only
  rw [Layout.pdu_snoFragment, u32_of_lt (by omega)]
  split
  · exact ⟨fun o ho => absurd ho List.not_mem_nil, .inl rfl⟩
  rename_i hge
  rw [hfirst] at hge
  have hle : h.start ≤ sn := by
    by_contra hlt'
    refine hge ?_
    unfold i32 sub32 u32
    split <;> omega
  have hsub : sub32 sn s.rxWindowDesc.firstSeqNum = sn - h.start := by
    rw [hfirst]
    unfold sub32 u32
    omega
  rw [hsub]
  split
  · trivial
  split
  · exact Ensures.mono (buffer_kept (s := { s with
      timer := true, flowControlInfo := true
      rxWindowDesc.seqNum := u32 (s.rxWindowDesc.seqNum + 1) })
      (hs.congr rfl rfl rfl rfl) hb hle hlt hS now) fun r hk => ⟨hk.reports, hk.pending⟩
  · -- a report is sent before the fragment is looked at
    refine Ensures.bind (sendStatusReport_reported (s := { s with
      timer := true, flowControlInfo := true, rxWindowDesc.seqNum := u32 (sn + 1) })
      (hs.congr rfl rfl rfl rfl) hb now) fun r hr => ?_
    obtain ⟨hstored, hpending, hreports⟩ := hr
    refine Ensures.bind (buffer_kept hstored hb hle hlt hS now) fun r' hk => ?_
    refine ⟨List.forall_mem_append.2 ⟨fun o ho => ?_, hk.reports⟩,
      hk.pending.imp_left fun heq => heq.trans hpending⟩
    exact (hreports o ho).later le_rfl (History.received_subset _) le_rfl

/-! ### What is pending when the window moves -/

/-- The fragments are consecutive, and the last ones before `F` of the SDU there. -/
def Together (L : Layout P) (F : ℕ) (pdus : List LteRlcAmPdu) : Prop :=
  ∃ a, L.first F ≤ a ∧ a ≤ F ∧ pdus = (List.range' a (F - a)).map L.pdu

theorem together_nil (L : Layout P) (F : ℕ) : Together L F [] :=
  ⟨F, L.first_le F, le_rfl, by rw [Nat.sub_self]; rfl⟩

theorem mem_pend {R : Set ℕ} {n t : ℕ} (ht : t ∈ pend L R n) : t < n := by
  induction n with
  | zero => cases ht
  | succ n ih =>
    by_cases hn : n ∈ R
    · by_cases hlast : L.next n = n + 1
      · rw [pend_last hn hlast] at ht
        cases ht
      · rw [pend_middle hn hlast] at ht
        rcases List.mem_append.1 ht with ht | ht
        · exact (ih ht).trans (Nat.lt_succ_self n)
        · rw [List.mem_singleton.1 ht]
          exact Nat.lt_succ_self n
    · rw [pend_missing hn] at ht
      exact (ih ht).trans (Nat.lt_succ_self n)

/-- If nothing is pending, each fragment that has been received is followed by one that ends an
SDU. -/
theorem clean_of_pend {R : Set ℕ} {n : ℕ} (hnil : pend L R n = []) : Clean L R n := by
  induction n with
  | zero => exact fun t ht => absurd ht (Nat.not_lt_zero t)
  | succ n ih =>
    by_cases hn : n ∈ R
    · by_cases hlast : L.next n = n + 1
      · exact fun t ht _ => ⟨n, Nat.le_of_lt_succ ht, Nat.lt_succ_self n, hlast, hn⟩
      · rw [pend_middle hn hlast] at hnil
        exact absurd hnil (List.append_ne_nil_of_right_ne_nil _ (List.cons_ne_nil n []))
    · rw [pend_missing hn] at hnil
      intro t ht htR
      have hne : t ≠ n := by
        rintro rfl
        exact hn htR
      obtain ⟨l, hle, hlt, hl⟩ := ih hnil t (by omega) htR
      exact ⟨l, hle, hlt.trans (Nat.lt_succ_self n), hl⟩

/-- The fragments of an SDU that leave the window one after the other are pending then. -/
theorem leaving_run (hs : Holds L Q h s) {j n : ℕ}
    (hrun : ∀ t, h.start + j ≤ t → t < h.start + j + n → t ∈ h.received ∧ L.next t ≠ t + 1) :
    ((List.range (j + n)).foldl leavePosition s).pendingPduBuffer =
      ((List.range j).foldl leavePosition s).pendingPduBuffer ++
        (List.range' (h.start + j) n).map L.pdu := by
  induction n with
  | zero => rw [Nat.add_zero, List.range'_zero, List.map_nil, List.append_nil]
  | succ n ih =>
    obtain ⟨hmem, hlast⟩ := hrun (h.start + j + n) (by omega) (by omega)
    have hl := leaving hs (le_refl (j + n))
    have hget : ((List.range (j + n)).foldl leavePosition s).pduBuffer.get (j + n) =
        some (L.pdu (h.start + (j + n))) := by
      rw [hl.buffer, shifted_of_le le_rfl]
      exact hs.stored.pdu _ (by rwa [← Nat.add_assoc])
    have hmiddle : ¬((L.pdu (h.start + (j + n))).isLast ∨ (L.pdu (h.start + (j + n))).isWhole) := by
      rw [← Nat.add_assoc]
      rintro (hl | hw)
      · exact hlast (L.pdu_isLast.1 hl)
      · have htotal := L.pdu_isWhole.1 hw
        have hlen : L.next (h.start + j + n) =
          L.first (h.start + j + n) + L.total (h.start + j + n) := rfl
        have hfirst := L.first_le (h.start + j + n)
        have hnext : h.start + j + n < L.next (h.start + j + n) := L.lt_next'
        omega
    rw [← Nat.add_assoc, List.range_succ, List.foldl_concat, leavePosition, hget]
    dsimp only
    rw [if_neg hmiddle]
    dsimp only
    rw [ih fun t ht hlt => hrun t ht (by omega), List.append_assoc, List.range'_concat, one_mul,
      List.map_append, Nat.add_assoc]
    rfl

/-- What is pending after a move to `sn`. -/
def leftPending (s : AmRxQueue) (pos : ℕ) : List LteRlcAmPdu :=
  ((List.range pos).foldl leavePosition s).pendingPduBuffer

/-- **What is pending belongs to the SDU at the start of the window**, if the fragments that stay
pending when it moves are of an SDU that goes on there. -/
theorem together_moved (hs : Holds L Q h s) (hlt : h.start < sn)
    (hbegun : Begun L sn h.received) (hclean : Clean L h.received (L.first h.start))
    (htogether : Together L h.start s.pendingPduBuffer)
    (hgoes : ∀ pdu ∈ leftPending s (sn - h.start), (sn : ℤ) ≤ pdu.lastSn)
    (hsn : sn < 2147483648) :
    Together L sn (leftPending s (sn - h.start)) ∧ Clean L h.received (L.first sn) := by
  have hnext : sn < L.next sn := L.lt_next'
  have hfirst := L.first_le sn
  -- the fragments of the SDU before the window have all arrived
  have hrun : ∀ t, L.first sn ≤ t → t < sn → t ∈ h.received ∧ L.next t ≠ t + 1 := by
    intro t ht hts
    have hsame : L.next t = L.next sn := L.next_eq ht (by omega)
    exact ⟨hbegun t ht hts, by omega⟩
  by_cases hge : h.start ≤ L.first sn
  · -- the SDU starts in the window
    have hpart := leaving_run hs (j := L.first sn - h.start) (n := sn - L.first sn)
      fun t ht hts => hrun t (by omega) (by omega)
    rw [show L.first sn - h.start + (sn - L.first sn) = sn - h.start by omega,
      Nat.add_sub_cancel' hge] at hpart
    have hl := leaving hs (le_refl (L.first sn - h.start))
    have hpending := hl.pending
    rw [Nat.add_sub_cancel' hge] at hpending
    have hbefore := hpending fun hlt' => absurd hlt' (by rw [L.first_first]; exact lt_irrefl _)
    rw [hbefore] at hpart
    have hnil : pend L h.received (L.first sn) = [] := by
      rw [List.eq_nil_iff_forall_not_mem]
      intro t ht
      have htlt := mem_pend ht
      have hmem : L.pdu t ∈ leftPending s (sn - h.start) := by
        unfold leftPending
        rw [hpart]
        exact List.mem_append_left _ (List.mem_map_of_mem ht)
      have hle := hgoes _ hmem
      have hend : L.next t ≤ L.first sn := L.next_le_of_edge L.first_first htlt
      have hlen : L.next t = L.first t + L.total t := rfl
      rw [Layout.lastSn_pdu (by omega)] at hle
      omega
    refine ⟨⟨L.first sn, le_rfl, hfirst, ?_⟩, clean_of_pend hnil⟩
    unfold leftPending
    rw [hpart, hnil, List.map_nil, List.nil_append]
  · -- the window starts inside the SDU
    have hpart := leaving_run hs (j := 0) (n := sn - h.start)
      fun t ht hts => hrun t (by omega) (by omega)
    rw [Nat.zero_add, Nat.add_zero] at hpart
    have hsame : L.first h.start = L.first sn := L.first_eq (by omega) (by omega)
    obtain ⟨a, ha, hle, hpending⟩ := htogether
    refine ⟨⟨a, hsame ▸ ha, by omega, ?_⟩, hsame ▸ hclean⟩
    unfold leftPending
    rw [hpart]
    change s.pendingPduBuffer ++ _ = _
    rw [hpending, ← List.map_append, show sn - a = (h.start - a) + (sn - h.start) by omega,
      ← List.range'_append_1, Nat.add_sub_cancel' hle]

/-- A move leaves everything else as it is, and keeps what leaves the window in the middle of an
SDU. -/
theorem moveRxWindow_frame {seqNum : ℤ} {pos : ℕ}
    (hpos : pos = sub32 (ofInt32 seqNum) s.rxWindowDesc.firstSeqNum) :
    Ensures (fun _ => True) (fun s' => s'.timer = s.timer ∧
      s'.flowControlInfo = s.flowControlInfo ∧
      s'.pendingPduBuffer = if i32 pos ≤ 0 then s.pendingPduBuffer else leftPending s pos)
      (moveRxWindow Q s seqNum) := by
  unfold moveRxWindow
  dsimp only
  rw [← hpos]
  split
  · exact ⟨rfl, rfl, rfl⟩
  split
  · trivial
  have hleave : ∀ j, ((List.range j).foldl leavePosition s).timer = s.timer ∧
      ((List.range j).foldl leavePosition s).flowControlInfo = s.flowControlInfo := by
    intro j
    induction j with
    | zero => exact ⟨rfl, rfl⟩
    | succ j ih =>
      rw [List.range_succ, List.foldl_concat]
      unfold leavePosition
      split
      · exact ih
      · split
        · exact ih
        · exact ih
  have hshift : Ensures (fun _ => True) (fun s' => s'.timer = s.timer ∧
      s'.flowControlInfo = s.flowControlInfo ∧ s'.pendingPduBuffer = leftPending s pos)
      ((List.range' pos (Q.rxWindowSize - pos)).foldlM (shiftPosition pos)
        ((List.range pos).foldl leavePosition s)) := by
    refine Ensures.foldlM ⟨(hleave pos).1, (hleave pos).2, rfl⟩ fun s' i hs' => ?_
    refine Ensures.after fun received => Ensures.after fun discarded => ?_
    split
    · exact hs'
    · split
      · trivial
      · exact hs'
  exact Ensures.bind hshift fun s' hs' => hs'

/-! ### Between two events -/

/-- What the receiver has of the fragments before `S`, and what is pending. -/
structure Receiving (L : Layout P) (Q : AmRxParams) (h : History) (S : ℕ) (s : AmRxQueue) :
    Prop where
  holds : Holds L Q h s
  below : Below h S
  begun : Begun L h.start h.received
  clean : Clean L h.received (L.first h.start)
  together : Together L h.start s.pendingPduBuffer
  timer : s.timer = true → 0 < Q.rxWindowSize

theorem Receiving.near (hr : Receiving L Q h S s) (hsn : sn ≤ S) : Near h.start sn := by
  have hlt := hr.below.lt
  have hle := hr.below.start_le
  exact ⟨by omega, by omega⟩

/-- **A fragment comes**, and completes an SDU or does not. -/
theorem enqueData_receiving (hr : Receiving L Q h S s) (hS : sn < S)
    (hlt : sn < h.start + Q.rxWindowSize) (hpos : 0 < Q.rxWindowSize) (now : ℕ) :
    ∃ s' out, enqueData Q now s (L.pdu sn) = .ok (s', out) ∧
      Receiving L Q (h.after (.fragment sn)) S s' ∧
      (∀ o ∈ out, Reports (h.after (.fragment sn)) S o) ∧
      (Delivers L h sn ∧ sdus out = [L.fragments (L.first sn)] ∨
        ¬Delivers L h sn ∧ sdus out = []) := by
  have hsubset : h.received ⊆ (h.after (.fragment sn)).received := History.received_subset _
  have hbegun : Begun L h.start (h.after (.fragment sn)).received := fun t ht hts =>
    hsubset (hr.begun t ht hts)
  have hcontinues : Continues L h sn := fun heq _ _ => by
    subst heq
    exact ⟨hr.begun, fun _ => hr.clean⟩
  obtain ⟨s', out, henque, harrived⟩ := enqueData_spec hr.holds (hr.near hS.le) hlt hcontinues now
  have hkept := enqueData_kept hr.holds.stored hr.below hlt hS now
  rw [henque] at hkept
  refine ⟨s', out, henque, ⟨harrived.holds, ⟨hr.below.lt, hr.below.start_le, fun t ht => ?_⟩,
    hbegun, fun t ht hmem => ?_, ?_, fun _ => hpos⟩, hkept.reports, harrived.out⟩
  · rcases ht with ht | ⟨rfl, -⟩
    · exact hr.below.received_lt t ht
    · exact hS
  · -- what has left the window is the same
    have hfirst := L.first_le h.start
    change t < L.first h.start at ht
    have hold : t ∈ h.received := hmem.resolve_right fun heq => by omega
    obtain ⟨l, hle, hlt, hlast, hl⟩ := hr.clean t ht hold
    exact ⟨l, hle, hlt, hlast, hsubset hl⟩
  · rcases hkept.pending with hsame | hnil
    · exact hsame.symm ▸ hr.together
    · exact hnil.symm ▸ together_nil L h.start

/-- **The window moves** as it is told, and what is pending belongs to the SDU at its start. -/
theorem enqueMrw_receiving (hr : Receiving L Q h S s) {n : ℕ} (hn : n ≤ S)
    (hW : n ≤ h.start + Q.rxWindowSize) (hstart : AmTxQueue.MayStart L h n)
    (hflow : s.flowControlInfo = true) (hstale : h.start < n → NoStale Q h n)
    (hgoes : h.start < n → ∀ pdu ∈ leftPending s (n - h.start), (n : ℤ) ≤ pdu.lastSn)
    (k now : ℕ) :
    ∃ s' out, enque Q now s (AmTxQueue.mrwPdu P k (i32 n)) = .ok (s', out) ∧
      Receiving L Q (h.after (.mrw n k)) S s' ∧
      (∀ o ∈ out, Reports (h.after (.mrw n k)) S o) ∧ sdus out = [] := by
  have hlt := hr.below.lt
  have hle := hr.below.start_le
  have hfirst := hr.holds.stored.first
  have hmove := moveRxWindow_spec hr.holds (hr.near hn) hstale k
  have hpos : sub32 (u32 n) (u32 h.start) =
      sub32 (ofInt32 (i32 n)) s.rxWindowDesc.firstSeqNum := by
    rw [ofInt32_i32, hfirst]
  have hframe := moveRxWindow_frame (Q := Q) (s := s) hpos
  obtain ⟨s', hs', hholds⟩ := (hmove.weaken fun _ hbad => absurd hbad (Nat.not_lt.2 hW)).exists_ok
  rw [hs'] at hframe
  obtain ⟨htimer, hflow', hpending⟩ := hframe
  have hfirst' := hholds.stored.first
  -- the window stays, or it moves to `n`
  have hmoved : Begun L (max h.start n) h.received ∧
      Clean L h.received (L.first (max h.start n)) ∧
      Together L (max h.start n) s'.pendingPduBuffer := by
    by_cases hstays : n ≤ h.start
    · have hpos : i32 (sub32 (u32 n) (u32 h.start)) ≤ 0 := by
        rcases Nat.lt_or_eq_of_le hstays with hlt' | rfl
        · exact (sub32_near_neg (hr.near hn) hlt').le
        · rw [(sub32_near (hr.near hn) le_rfl).2]
          omega
      rw [max_eq_left hstays, hpending, if_pos hpos]
      exact ⟨hr.begun, hr.clean, hr.together⟩
    · have hgt : h.start < n := Nat.not_le.1 hstays
      obtain ⟨hsub, hint⟩ := sub32_near (hr.near hn) hgt.le
      have hbegun := hstart.resolve_left hstays
      obtain ⟨htogether, hclean⟩ := together_moved hr.holds hgt hbegun hr.clean hr.together
        (hgoes hgt) (by omega)
      rw [max_eq_right hgt.le, hpending, if_neg (by rw [hint]; omega), hsub]
      exact ⟨hbegun, hclean, htogether⟩
  obtain ⟨hbegun, hclean, htogether⟩ := hmoved
  refine ⟨s', [.mrwAck k s'.rxWindowDesc.firstSeqNum], ?_, ⟨hholds,
    ⟨hlt, max_le hle hn, hr.below.received_lt⟩, hbegun, hclean, htogether,
    fun ht => hr.timer (htimer ▸ ht)⟩, List.forall_mem_singleton.2 ?_, rfl⟩
  · unfold enque
    dsimp only [AmTxQueue.mrwPdu]
    rw [hs']
    change (if s'.flowControlInfo = true then _ else _) = _
    rw [hflow', if_pos hflow]
  · change s'.rxWindowDesc.firstSeqNum ≤ (h.after (.mrw n k)).start
    rw [hfirst']
    exact Nat.mod_le _ _

/-- **The timer expires.** -/
theorem handleMessage_receiving (hr : Receiving L Q h S s) (htimer : s.timer = true) (now : ℕ) :
    ∃ s' out, handleMessage Q now s = .ok (s', out) ∧ Receiving L Q h S s' ∧
      (∀ o ∈ out, Reports h S o) ∧ sdus out = [] := by
  have hpos := hr.timer htimer
  have hlen := hr.holds.stored.received_length
  have hne : s.received ≠ [] := by
    intro hnil
    rw [hnil, List.length_nil] at hlen
    omega
  have hstored : Stored L Q h.start h.received { s with timer := false } :=
    hr.holds.stored.congr rfl rfl rfl rfl
  obtain ⟨t, out, hreport, hnone⟩ := sendStatusReport_spec (Q := Q)
    (s := { s with timer := false }) hne now
  have hreports := sendStatusReport_reports hstored hr.below now
  rw [hreport] at hreports
  unfold handleMessage
  rw [hreport]
  exact ⟨_, out, rfl, ⟨hr.holds.congr rfl rfl rfl rfl rfl rfl, hr.below, hr.begun, hr.clean,
    hr.together, fun _ => hpos⟩, hreports, hnone⟩

theorem receiving_initial (L : Layout P) (Q : AmRxParams) :
    Receiving L Q ⟨0, ∅⟩ 0 (initial Q) := by
  refine ⟨holds_initial, ⟨by decide, le_rfl, fun t ht => ht.elim⟩, fun t _ ht => ?_,
    fun t ht => ?_, together_nil L 0, nofun⟩
  · exact absurd ht (Nat.not_lt_zero t)
  · have hle := L.first_le 0
    change t < L.first 0 at ht
    omega

/-! ### One more SDU is laid out -/

variable {L' : Layout P}

theorem pend_agrees (ha : L.Agrees L' S) (R : Set ℕ) {n : ℕ} (hn : n ≤ S) :
    pend L' R n = pend L R n := by
  induction n with
  | zero => rfl
  | succ n ih =>
    have hnext := ha.next (t := n) (by omega)
    by_cases hmem : n ∈ R
    · by_cases hlast : L.next n = n + 1
      · rw [pend_last hmem hlast, pend_last hmem (hnext.trans hlast)]
      · rw [pend_middle hmem hlast, pend_middle hmem (hnext ▸ hlast), ih (by omega)]
    · rw [pend_missing hmem, pend_missing hmem, ih (by omega)]

theorem Holds.agrees (hs : Holds L Q h s) (hb : Below h S) (ha : L.Agrees L' S) :
    Holds L' Q h s := by
  have hstart := hb.start_le
  have hfirst := ha.first_of_le hstart
  have hlt : L'.first h.start < h.start → h.start < S := fun hF => by
    rcases Nat.lt_or_eq_of_le hstart with hlt | heq
    · exact hlt
    · rw [heq, ha.edge'] at hF
      omega
  refine ⟨⟨hs.stored.first, hs.stored.received_length, hs.stored.discarded_length,
    hs.stored.received, fun i hi => ?_, hs.stored.free, hs.stored.lt⟩, fun hF hbegun => ?_,
    fun hF => ?_⟩
  · rw [ha.pdu (hb.received_lt _ hi)]
    exact hs.stored.pdu i hi
  · rw [ha.sdu _ (hlt hF)]
    rw [hfirst] at hF
    refine hs.firstSdu hF fun t ht => hbegun t ?_
    rw [hfirst]
    exact ht
  · rw [hs.pending fun hF' hall => hF (hfirst ▸ hF') ?_, pend_agrees ha _ hstart]
    · refine List.map_congr_left fun t ht => (ha.pdu ?_).symm
      exact (mem_pend ht).trans_le hstart
    · have hF'' := hlt (hfirst.symm ▸ hF')
      exact (ha.complete hF'').2 hall

theorem Receiving.agrees (hr : Receiving L Q h S s) (ha : L.Agrees L' S) {S' : ℕ} (hS : S ≤ S')
    (hS' : S' < 2147483648) : Receiving L' Q h S' s := by
  have hstart := hr.below.start_le
  have hfirst := ha.first_of_le hstart
  have hle := L.first_le h.start
  refine ⟨hr.holds.agrees hr.below ha, ⟨hS', hstart.trans hS,
    fun t ht => (hr.below.received_lt t ht).trans_le hS⟩, ha.begun hstart hr.begun,
    fun t ht hmem => ?_, ?_, hr.timer⟩
  · rw [hfirst] at ht ⊢
    obtain ⟨l, hge, hlt, hlast, hl⟩ := hr.clean t ht hmem
    exact ⟨l, hge, hlt, (ha.next (by omega)).trans hlast, hl⟩
  · obtain ⟨a, hge, hlt, hpending⟩ := hr.together
    refine ⟨a, hfirst.symm ▸ hge, hlt, hpending.trans (List.map_congr_left fun t ht => ?_)⟩
    have ht := List.mem_range'_1.1 ht
    exact (ha.pdu (by omega)).symm

end AmRxQueue

end V2nLte
