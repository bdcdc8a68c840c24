import V2nLte.Rlc.AmFlight

/-!
# SDUs come to the RLC AM sender

The layout of the fragments over the sequence numbers is not known in advance: an SDU that comes is
laid out at the next number that is free (`Layout.place`), and what has been said about the
fragments before it stays true (`Layout.Agrees`).

## Main results

* `AmTxQueue.Filling.putPdu_eq` : a turn of the loop of `addPdus` does not throw.
* `AmTxQueue.enque_sending` : an SDU is put into the window as a whole, or dropped, without an
  exception.
-/

namespace V2nLte

namespace Layout

variable {P : AmTxParams}

/-- The layouts are the same before `S`, where an SDU starts. -/
structure Agrees (L L' : Layout P) (S : ℕ) : Prop where
  first : ∀ t < S, L'.first t = L.first t
  sdu : ∀ t < S, L'.sdu t = L.sdu t
  edge : L.first S = S
  edge' : L'.first S = S

variable {L L' : Layout P} {S t : ℕ}

theorem Agrees.total (ha : Agrees L L' S) (ht : t < S) : L'.total t = L.total t :=
  congrArg (AmTxQueue.nrFragments P) (ha.sdu t ht)

theorem Agrees.next (ha : Agrees L L' S) (ht : t < S) : L'.next t = L.next t := by
  unfold Layout.next
  rw [ha.first t ht, ha.total ht]

theorem Agrees.pdu (ha : Agrees L L' S) (ht : t < S) : L'.pdu t = L.pdu t := by
  unfold Layout.pdu
  rw [ha.sdu t ht, ha.first t ht, ha.total ht]

/-- An SDU that starts before a start ends before it. -/
theorem next_le_of_edge (hS : L.first S = S) (ht : t < S) : L.next t ≤ S := by
  by_contra hlt
  have hle := L.first_le t
  have hfirst : L.first S = L.first t := L.first_eq (by omega) (Nat.not_le.1 hlt)
  omega

theorem Agrees.first_of_le (ha : Agrees L L' S) (ht : t ≤ S) : L'.first t = L.first t := by
  rcases Nat.lt_or_eq_of_le ht with hlt | rfl
  · exact ha.first t hlt
  · rw [ha.edge, ha.edge']

theorem Agrees.begun (ha : Agrees L L' S) {n : ℕ} (hn : n ≤ S) {R : Set ℕ}
    (hb : AmRxQueue.Begun L n R) : AmRxQueue.Begun L' n R := by
  intro t ht htn
  rw [ha.first_of_le hn] at ht
  exact hb t ht htn

/-- Whether the SDU is complete does not depend on what comes later. -/
theorem Agrees.complete (ha : Agrees L L' S) (ht : t < S) {R : Set ℕ} :
    L'.Complete R t ↔ L.Complete R t := by
  unfold Layout.Complete
  rw [ha.first t ht, ha.next ht]

/-- Fragments of an SDU are as the sender makes them. -/
theorem map_pdu {d : LteRlcAmSdu} {sn m n : ℕ} (hlt : sn < 4294967296)
    (hd : ∀ t, sn + m ≤ t → t < sn + m + n → L.first t = sn ∧ L.sdu t = d) :
    (List.range' (sn + m) n).map L.pdu =
      (List.range' m n).map (AmTxQueue.fragment P d sn (AmTxQueue.nrFragments P d)) := by
  rw [← List.map_add_range', List.map_map]
  refine List.map_congr_left fun i hi => ?_
  have hi := List.mem_range'_1.1 hi
  obtain ⟨hfirst, hsdu⟩ := hd (sn + i) (by omega) (by omega)
  change L.pdu (sn + i) = _
  unfold Layout.pdu Layout.total
  rw [hfirst, hsdu, u32_of_lt hlt, Nat.add_sub_cancel_left]

theorem fragments_eq {a : ℕ} (hfirst : L.first a = a) (hlt : a < 4294967296) :
    L.fragments a = AmTxQueue.fragments P (L.sdu a) a := by
  have hnext : L.next a = L.first a + L.total a := rfl
  rw [AmTxQueue.fragments, List.range_eq_range']
  refine map_pdu (m := 0) hlt fun t ht hts => ?_
  exact ⟨(L.first_eq (by omega) (by omega)).trans hfirst, L.sdu_eq (by omega) (by omega)⟩

/-- A whole SDU of one byte, where nothing has been laid out. -/
def blankSdu : LteRlcAmSdu := ⟨0, 1⟩

theorem nrFragments_blankSdu (P : AmTxParams) : AmTxQueue.nrFragments P blankSdu = 1 := by
  have hpos := P.fragmentSize_pos
  change (1 + P.fragmentSize - 1) / P.fragmentSize = 1
  rw [Nat.add_sub_cancel_left]
  exact Nat.div_self hpos

/-- Nothing has been laid out. -/
def blank (P : AmTxParams) : Layout P where
  sdu _ := blankSdu
  first sn := sn
  first_le := Nat.le_refl
  lt_next := fun sn => by
    rw [nrFragments_blankSdu]
    exact Nat.lt_succ_self sn
  same := fun sn t ht hts => by
    rw [nrFragments_blankSdu] at hts
    exact ⟨by omega, rfl⟩
  total_lt := fun sn => by
    rw [nrFragments_blankSdu]
    decide
  sno_lt := fun _ => by decide

/-- The SDU `d` comes at `S`, and nothing after it. -/
def place (L : Layout P) (S : ℕ) (hS : L.first S = S) (d : LteRlcAmSdu)
    (htotal : AmTxQueue.nrFragments P d < 2147483648) (hsno : d.snoMainPacket < 4294967295) :
    Layout P where
  sdu sn := if sn < S then L.sdu sn else if sn < S + AmTxQueue.nrFragments P d then d else blankSdu
  first sn := if sn < S then L.first sn else if sn < S + AmTxQueue.nrFragments P d then S else sn
  first_le := fun sn => by
    split
    · exact L.first_le sn
    · split <;> omega
  lt_next := fun sn => by
    split
    · exact L.lt_next sn
    · split
      · assumption
      · rw [nrFragments_blankSdu]
        omega
  same := fun sn t ht hts => by
    -- no two SDUs share a number
    by_cases hsn : sn < S
    · simp only [if_pos hsn] at ht hts ⊢
      have hlt : t < S := lt_of_lt_of_le hts (next_le_of_edge hS hsn)
      simp only [if_pos hlt]
      exact L.same sn t ht hts
    · simp only [if_neg hsn] at ht hts ⊢
      by_cases hd : sn < S + AmTxQueue.nrFragments P d
      · simp only [if_pos hd] at ht hts ⊢
        simp only [if_neg (Nat.not_lt.2 ht), if_pos hts, and_self]
      · simp only [if_neg hd, nrFragments_blankSdu] at ht hts ⊢
        obtain rfl : t = sn := by omega
        simp only [if_neg hsn, if_neg hd, and_self]
  total_lt := fun sn => by
    split
    · exact L.total_lt sn
    · split
      · exact htotal
      · rw [nrFragments_blankSdu]
        decide
  sno_lt := fun sn => by
    split
    · exact L.sno_lt sn
    · split
      · exact hsno
      · decide

section

variable {S : ℕ} {hS : L.first S = S} {d : LteRlcAmSdu}
  {htotal : AmTxQueue.nrFragments P d < 2147483648} {hsno : d.snoMainPacket < 4294967295}

theorem place_agrees : L.Agrees (L.place S hS d htotal hsno) S where
  first t ht := if_pos ht
  sdu t ht := if_pos ht
  edge := hS
  edge' := by
    change (if S < S then _ else if S < S + AmTxQueue.nrFragments P d then S else S) = S
    rw [if_neg (Nat.lt_irrefl S), ite_self]

theorem place_first (ht : S ≤ t) (hlt : t < S + AmTxQueue.nrFragments P d) :
    (L.place S hS d htotal hsno).first t = S :=
  (if_neg (Nat.not_lt.2 ht)).trans (if_pos hlt)

theorem place_sdu (ht : S ≤ t) (hlt : t < S + AmTxQueue.nrFragments P d) :
    (L.place S hS d htotal hsno).sdu t = d :=
  (if_neg (Nat.not_lt.2 ht)).trans (if_pos hlt)

theorem place_edge : (L.place S hS d htotal hsno).first (S + AmTxQueue.nrFragments P d) =
    S + AmTxQueue.nrFragments P d :=
  (if_neg (by omega)).trans (if_neg (Nat.lt_irrefl _))

/-- The fragments are those that the sender makes of the SDU. -/
theorem place_fragments (hlt : S < 4294967296) :
    AmTxQueue.fragments P d S = (List.range' S (AmTxQueue.nrFragments P d)).map
      (L.place S hS d htotal hsno).pdu := by
  rw [AmTxQueue.fragments, List.range_eq_range']
  exact (map_pdu (m := 0) hlt fun t ht hts => ⟨place_first ht hts, place_sdu ht hts⟩).symm

end

end Layout

namespace AmTxQueue

variable {P : AmTxParams} {L : Layout P} {h : AmRxQueue.History} {s s' : AmTxQueue}

/-! ### An SDU is laid out -/

theorem Sendable.agrees {L' : Layout P} {S : ℕ} (ha : L.Agrees L' S) {pdu : LteRlcAmPdu}
    (hpdu : Sendable L h S pdu) : Sendable L' h S pdu := by
  cases hpdu with
  | data t ht hpdu => exact .data t ht (hpdu.trans (ha.pdu ht).symm)
  | mrw k n hn hstart => exact .mrw k n hn (hstart.imp_right (ha.begun hn))

/-- What is said about the fragments before `S` does not depend on what comes later. -/
theorem Sending.agrees {L' : Layout P} (hs : Sending L h s)
    (ha : L.Agrees L' s.txWindowDesc.seqNum) : Sending L' h s := by
  have hused := hs.used_eq
  have hlt : ∀ i < s.used, s.txWindowDesc.firstSeqNum + i < s.txWindowDesc.seqNum :=
    fun i hi => by omega
  refine { hs with
    begun := ha.begun hs.start_le hs.begun
    pdu := fun i hi => ?_
    mrw := fun k pdu hk => (hs.mrw k pdu hk).agrees ha
    buffer := fun pdu hpdu => (hs.buffer pdu hpdu).agrees ha
    edge := ha.edge'
    discarded := fun i hi j hj hsame => ?_ }
  · rw [ha.pdu (hlt i hi)]
    exact hs.pdu i hi
  · rw [ha.first _ (hlt i hi), ha.first _ (hlt j hj)] at hsame
    exact hs.discarded i hi j hj hsame

/-- What `Flight` is about. -/
def flightPart (s : AmTxQueue) : CArray LteRlcAmPdu × List Bool × RlcWindowDesc ×
    CArray LteRlcAmPdu × List ℕ × List LteRlcAmPdu :=
  (s.pduRtxQueue, s.received, s.txWindowDesc, s.mrwRtxQueue, s.mrwTimer, s.pduBuffer)

theorem flightPart_bufferPdu (pdu : LteRlcAmPdu) : (s.bufferPdu pdu).flightPart =
    (s.pduRtxQueue, s.received, s.txWindowDesc, s.mrwRtxQueue, s.mrwTimer,
      s.pduBuffer ++ [pdu]) := by
  unfold bufferPdu
  split
  · rename_i hnil
    rw [hnil]
    rfl
  · rfl

theorem discarded_bufferPdu (pdu : LteRlcAmPdu) : (s.bufferPdu pdu).discarded = s.discarded := by
  unfold bufferPdu
  split
  · rfl
  · rfl

/-- What may be sent may be sent later. -/
theorem Sendable.later {S S' : ℕ} (hle : S ≤ S') {pdu : LteRlcAmPdu} (hpdu : Sendable L h S pdu) :
    Sendable L h S' pdu := by
  cases hpdu with
  | data t ht hpdu => exact .data t (ht.trans_le hle) hpdu
  | mrw k n hn hstart => exact .mrw k n (hn.trans hle) hstart

/-- One more fragment is in flight. -/
theorem Flight.put (hs : Flight L h s) (hlt : s.txWindowDesc.seqNum + 1 < 2147483648)
    (hs' : s'.flightPart = (s.pduRtxQueue.addAt s.used (L.pdu s.txWindowDesc.seqNum), s.received,
      { s.txWindowDesc with seqNum := s.txWindowDesc.seqNum + 1 }, s.mrwRtxQueue, s.mrwTimer,
      s.pduBuffer ++ [L.pdu s.txWindowDesc.seqNum])) : Flight L h s' := by
  have hused := hs.used_eq
  have hle := hs.le
  simp only [flightPart, Prod.mk.injEq] at hs'
  obtain ⟨hq, hr, hdesc, hmrw, htimer, hbuffer⟩ := hs'
  have hused' : s'.used = s.used + 1 := by
    unfold AmTxQueue.used at hused ⊢
    rw [hdesc]
    dsimp only
    unfold sub32 u32 at *
    omega
  have hlast : Sendable L h (s.txWindowDesc.seqNum + 1) (L.pdu s.txWindowDesc.seqNum) :=
    .data _ (Nat.lt_succ_self _) rfl
  refine ⟨by rw [hdesc]; exact hlt, by rw [hdesc]; exact hle.trans (Nat.le_succ _),
    by rw [hdesc]; exact hs.le_start, by rw [hdesc]; exact hs.start_le.trans (Nat.le_succ _),
    hs.begun, fun i hi => ?_, fun i hi => ?_, fun k pdu hk => ?_, fun pdu hpdu => ?_,
    by rw [hmrw, htimer]; exact hs.mrwTimer, by rw [htimer]; exact hs.mrwTimer_nodup⟩
  · rw [hq, hdesc, CArray.get_addAt, Function.update_apply]
    dsimp only
    split
    · rename_i hi
      rw [hi, hused, Nat.add_sub_cancel' hle]
      exact ⟨_, rfl, rfl⟩
    · exact hs.pdu i (by omega)
  · rw [hdesc]
    rw [hr] at hi
    exact hs.received i hi
  · rw [hdesc]
    rw [hmrw] at hk
    exact (hs.mrw k pdu hk).later (Nat.le_succ _)
  · rw [hdesc]
    rw [hbuffer] at hpdu
    rcases List.mem_append.1 hpdu with hpdu | hpdu
    · exact (hs.buffer pdu hpdu).later (Nat.le_succ _)
    · rw [List.mem_singleton.1 hpdu]
      exact hlast

/-- An SDU that starts at `S` is being put into the window; `rest` are the fragments that are
left. -/
structure Filling (L : Layout P) (h : AmRxQueue.History) (S : ℕ) (rest : List LteRlcAmPdu)
    (s : AmTxQueue) : Prop where
  flight : Flight L h s
  placing : Placing P rest s
  fragments : rest = (List.range' s.txWindowDesc.seqNum rest.length).map L.pdu
  le : S ≤ s.txWindowDesc.seqNum
  lt : s.txWindowDesc.seqNum + rest.length < 2147483648
  edge : L.first (s.txWindowDesc.seqNum + rest.length) = s.txWindowDesc.seqNum + rest.length
  first : ∀ t, S ≤ t → t < s.txWindowDesc.seqNum + rest.length → L.first t = S
  discarded : ∀ i < s.used, ∀ j < s.used,
    L.first (s.txWindowDesc.firstSeqNum + i) = L.first (s.txWindowDesc.firstSeqNum + j) →
      flag s.discarded i = true → flag s.discarded j = true
  kept : ∀ i, flag s.discarded i = true → s.txWindowDesc.firstSeqNum + i < S

/-- The window after one more fragment has been put into it. -/
def putResult (s : AmTxQueue) (pdu : LteRlcAmPdu) (rest : List LteRlcAmPdu) : AmTxQueue :=
  bufferPdu { ({ s with
      txWindowIndexList := s.txWindowIndexList.tail
      pduRtxQueue := s.pduRtxQueue.addAt s.used pdu
      pduTimer := s.pduTimer ++ [s.txWindowDesc.seqNum] }.emit (.put pdu)).addFragment rest with
    txWindowDesc := { s.txWindowDesc with seqNum := s.txWindowDesc.seqNum + 1 }
    bufferStatusTimer := true } pdu

/-- **A turn of the loop of `addPdus`** does not throw. -/
theorem Filling.putPdu_eq {S : ℕ} {pdu : LteRlcAmPdu} {rest : List LteRlcAmPdu}
    (hf : Filling L h S (pdu :: rest) s) (hW : P.txWindowSize ≤ 200) :
    putPdu s pdu rest = .ok (s.putResult pdu rest) := by
  have hwindow := hf.placing.window
  have hused := hf.flight.used_eq
  have hlt := hf.lt
  have hroom := hf.placing.room
  have hindices := hf.placing.indices
  have hpdu := hf.fragments
  rw [List.length_cons] at hlt hroom hindices hpdu
  rw [List.range'_succ] at hindices
  rw [List.range'_succ, List.map_cons] at hpdu
  have hsno : pdu.snoFragment = s.txWindowDesc.seqNum := by
    rw [(List.cons.inj hpdu).1, Layout.pdu_snoFragment]
    exact u32_of_lt (by omega)
  have hreceived : s.used < s.received.length := by
    rw [hwindow.received_length]
    omega
  have hdiscarded : s.used < s.discarded.length := by
    rw [hwindow.discarded_length]
    omega
  have hmarks : checkUnmarked s s.used = .ok () := by
    unfold checkUnmarked
    rw [readAt_of_lt hreceived, hwindow.received _ le_rfl, readAt_of_lt hdiscarded,
      hwindow.discarded _ le_rfl]
    rfl
  -- the timers that run are those of the fragments in flight
  have hidle : s.txWindowDesc.seqNum ∉ s.pduTimer := fun hmem => by
    obtain ⟨i, hi, heq, -⟩ := hwindow.timer _ hmem
    rw [hf.flight.seqNumAt_eq hi.le] at heq
    omega
  have hnext : u32 (s.txWindowDesc.seqNum + 1) = s.txWindowDesc.seqNum + 1 :=
    u32_of_lt (by omega)
  unfold putPdu putResult
  rw [hindices]
  dsimp only
  rw [if_neg (not_not.2 hsno), hwindow.free _ le_rfl, Option.isSome_none,
    if_neg Bool.false_ne_true, if_neg (by omega), hmarks, timerAdd, if_neg hidle]
  change Except.ok (bufferPdu _ pdu) = _
  rw [addFragment_txWindowDesc]
  change Except.ok (bufferPdu { addFragment _ rest with
    txWindowDesc := { s.txWindowDesc with seqNum := u32 (s.txWindowDesc.seqNum + 1) }
    bufferStatusTimer := true } pdu) = _
  rw [hnext]
  rfl

theorem flightPart_putResult (pdu : LteRlcAmPdu) (rest : List LteRlcAmPdu) :
    (s.putResult pdu rest).flightPart = (s.pduRtxQueue.addAt s.used pdu, s.received,
      { s.txWindowDesc with seqNum := s.txWindowDesc.seqNum + 1 }, s.mrwRtxQueue, s.mrwTimer,
      s.pduBuffer ++ [pdu]) := by
  unfold putResult addFragment
  rw [flightPart_bufferPdu]
  split
  · rfl
  · rfl

theorem discarded_putResult (pdu : LteRlcAmPdu) (rest : List LteRlcAmPdu) :
    (s.putResult pdu rest).discarded = s.discarded := by
  unfold putResult addFragment
  rw [discarded_bufferPdu]
  split
  · rfl
  · rfl

theorem txWindowDesc_putResult (pdu : LteRlcAmPdu) (rest : List LteRlcAmPdu) :
    (s.putResult pdu rest).txWindowDesc =
      { s.txWindowDesc with seqNum := s.txWindowDesc.seqNum + 1 } :=
  congrArg (fun r => r.2.2.1) (flightPart_putResult pdu rest)

section

variable {S : ℕ} {pdu : LteRlcAmPdu} {rest : List LteRlcAmPdu}

theorem Filling.flight_putResult (hf : Filling L h S (pdu :: rest) s) :
    Flight L h (s.putResult pdu rest) := by
  have hlt := hf.lt
  have hpdu := hf.fragments
  rw [List.length_cons] at hlt hpdu
  rw [List.range'_succ, List.map_cons] at hpdu
  refine hf.flight.put (by omega) ?_
  rw [flightPart_putResult, (List.cons.inj hpdu).1]

/-- The SDU that is being put into the window has not been discarded. -/
theorem Filling.whole_putResult (hf : Filling L h S (pdu :: rest) s)
    {i j : ℕ} (hj : j < (s.putResult pdu rest).used)
    (hsame : L.first ((s.putResult pdu rest).txWindowDesc.firstSeqNum + i) =
      L.first ((s.putResult pdu rest).txWindowDesc.firstSeqNum + j))
    (hflag : flag (s.putResult pdu rest).discarded i = true) :
    flag (s.putResult pdu rest).discarded j = true := by
  have hused := hf.flight.used_eq
  have hle := hf.flight.le
  have hused' := hf.flight_putResult.used_eq
  have hfirst := hf.first s.txWindowDesc.seqNum hf.le (by rw [List.length_cons]; omega)
  rw [txWindowDesc_putResult] at hsame hused'
  dsimp only at hsame hused'
  rw [discarded_putResult] at hflag ⊢
  have hkept := hf.kept i hflag
  have hi : i < s.used := by
    by_contra hge
    have hnone := hf.placing.window.discarded i (Nat.not_lt.1 hge)
    rw [hnone] at hflag
    cases hflag
  refine hf.discarded i hi j ?_ hsame hflag
  by_contra hge
  obtain rfl : j = s.used := by omega
  have hle' := L.first_le (s.txWindowDesc.firstSeqNum + i)
  rw [hused, Nat.add_sub_cancel' hle] at hsame
  omega

theorem Filling.putResult (hf : Filling L h S (pdu :: rest) s) (hW : P.txWindowSize ≤ 200) :
    (s.putResult pdu rest).txWindowDesc.seqNum = s.txWindowDesc.seqNum + 1 ∧
      (rest = [] → Sending L h (s.putResult pdu rest)) ∧
      (rest ≠ [] → Filling L h S rest (s.putResult pdu rest)) := by
  have hplaced := putPdu_placing hf.placing
  rw [hf.putPdu_eq hW] at hplaced
  have hlt := hf.lt
  have hpdu := hf.fragments
  have hedge := hf.edge
  have hfirst := hf.first
  rw [List.length_cons] at hlt hpdu hedge hfirst
  rw [List.range'_succ, List.map_cons] at hpdu
  have hdesc := txWindowDesc_putResult (s := s) pdu rest
  have hseq : (s.putResult pdu rest).txWindowDesc.seqNum = s.txWindowDesc.seqNum + 1 := by
    rw [hdesc]
  have hlen : s.txWindowDesc.seqNum + (rest.length + 1) =
      s.txWindowDesc.seqNum + 1 + rest.length := by omega
  rw [hlen] at hedge hfirst
  refine ⟨hseq, fun hnil => ?_, fun hne => ?_⟩
  · -- the last fragment
    have hready : Ready P (s.putResult pdu rest) :=
      (hplaced.resolve_right fun hp => hp.1 hnil).2
    rw [hnil, List.length_nil, Nat.add_zero] at hedge
    exact ⟨⟨hf.flight_putResult, hready, by rw [hseq]; exact hedge⟩,
      fun i _ j hj => hf.whole_putResult hj⟩
  · -- more fragments are to be placed
    have hplacing : Placing P rest (s.putResult pdu rest) :=
      (hplaced.resolve_left fun hp => hne hp.1).2
    refine ⟨hf.flight_putResult, hplacing, ?_, ?_, ?_, ?_, ?_,
      fun i _ j hj => hf.whole_putResult hj, fun i hflag => ?_⟩
    · rw [hseq]
      exact (List.cons.inj hpdu).2
    · rw [hseq]
      exact hf.le.trans (Nat.le_succ _)
    · rw [hseq]
      omega
    · rw [hseq]
      exact hedge
    · rw [hseq]
      exact hfirst
    · rw [discarded_putResult] at hflag
      rw [hdesc]
      exact hf.kept i hflag

end

/-- **The rest of the SDU goes into the window.**  By induction on the fragments that are left. -/
theorem addPdusLoop_filling {S : ℕ} {pdu : LteRlcAmPdu} {rest : List LteRlcAmPdu} {n : ℕ}
    (hf : Filling L h S (pdu :: rest) s) (hn : rest.length < n) (hW : P.txWindowSize ≤ 200) :
    ∃ s', addPdusLoop P n s = .ok s' ∧ Sending L h s' ∧
      s'.txWindowDesc.seqNum = s.txWindowDesc.seqNum + (rest.length + 1) := by
  induction rest generalizing s pdu n with
  | nil =>
    obtain ⟨n, rfl⟩ : ∃ m, n = m + 1 := ⟨n - 1, by omega⟩
    have hroom := hf.placing.room
    rw [List.length_singleton] at hroom
    rw [addPdusLoop_turn hf.placing.fragmentList hf.placing.currentSdu (by omega), hf.putPdu_eq hW]
    obtain ⟨hseq, hdone, -⟩ := hf.putResult hW
    have hs := hdone rfl
    refine ⟨s.putResult pdu [], ?_, hs, hseq⟩
    rcases hs.ready.room with hzero | ⟨hqueue, -⟩
    · omega
    · exact addPdusLoop_idle ⟨hs.ready.currentSdu, hs.ready.fragmentList, hqueue⟩
  | cons next rest ih =>
    obtain ⟨n, rfl⟩ : ∃ m, n = m + 1 := ⟨n - 1, by omega⟩
    have hroom := hf.placing.room
    rw [List.length_cons] at hn hroom
    rw [addPdusLoop_turn hf.placing.fragmentList hf.placing.currentSdu (by omega), hf.putPdu_eq hW]
    obtain ⟨hseq, -, hmore⟩ := hf.putResult hW
    obtain ⟨s', hs', hsending, hseq'⟩ := ih (n := n) (hmore (List.cons_ne_nil next rest)) (by omega)
    refine ⟨s', hs', hsending, ?_⟩
    rw [hseq', hseq, List.length_cons]
    omega

/-- What is done with an SDU that comes: it is laid out, or dropped. -/
structure Enqued (L : Layout P) (h : AmRxQueue.History) (s : AmTxQueue) (d : LteRlcAmSdu)
    (L' : Layout P) (s' : AmTxQueue) : Prop where
  sending : Sending L' h s'
  agrees : L.Agrees L' s.txWindowDesc.seqNum
  placed : s'.txWindowDesc.seqNum = s.txWindowDesc.seqNum ∨
    s'.txWindowDesc.seqNum = s.txWindowDesc.seqNum + nrFragments P d ∧
      ∀ t, s.txWindowDesc.seqNum ≤ t → t < s'.txWindowDesc.seqNum →
        L'.first t = s.txWindowDesc.seqNum ∧ L'.sdu t = d

/-- The SDU has been cut into fragments. -/
def taken (P : AmTxParams) (s : AmTxQueue) (d : LteRlcAmSdu) : AmTxQueue := { s with
  sduQueue := []
  fragDesc := { totalFragments := nrFragments P d, firstSn := s.txWindowDesc.seqNum }
  currentSdu := some d
  fragmentList := some (fragments P d s.txWindowDesc.seqNum)
  txWindowIndexList := List.range' s.used (nrFragments P d) }

theorem Sending.filling (hs : Sending L h s) {d : LteRlcAmSdu} {rest : List LteRlcAmPdu}
    (hrest : rest = fragments P d s.txWindowDesc.seqNum)
    (hplacing : Placing P rest (taken P s d))
    (htotal : nrFragments P d < 2147483648) (hsno : d.snoMainPacket < 4294967295)
    (hlt : s.txWindowDesc.seqNum + nrFragments P d < 2147483648) :
    Filling (L.place s.txWindowDesc.seqNum hs.edge d htotal hsno) h s.txWindowDesc.seqNum rest
      (taken P s d) := by
  have hused := hs.used_eq
  have hle := hs.le
  have hagrees : L.Agrees (L.place s.txWindowDesc.seqNum hs.edge d htotal hsno)
      s.txWindowDesc.seqNum := Layout.place_agrees
  have hs' := hs.agrees hagrees
  have hlen : rest.length = nrFragments P d := by rw [hrest, fragments_length]
  refine ⟨{ hs'.toFlight with }, hplacing, ?_, le_rfl, ?_, ?_, fun t ht hts => ?_, hs'.discarded,
    fun i hflag => ?_⟩
  · rw [hlen, hrest]
    exact Layout.place_fragments (by omega)
  · rw [hlen]
    exact hlt
  · rw [hlen]
    exact Layout.place_edge
  · rw [hlen] at hts
    exact Layout.place_first ht hts
  · have hi : i < s.used := by
      by_contra hge
      have hnone := hs.ready.window.discarded i (Nat.not_lt.1 hge)
      rw [show flag s.discarded i = true from hflag] at hnone
      cases hnone
    change s.txWindowDesc.firstSeqNum + i < s.txWindowDesc.seqNum
    omega

/-- There is room for the SDU; its numbers do not wrap here. -/
def HasRoom (P : AmTxParams) (s : AmTxQueue) (d : LteRlcAmSdu) : Prop :=
  s.txWindowDesc.seqNum + nrFragments P d < s.txWindowDesc.firstSeqNum + P.txWindowSize

theorem Flight.hasRoom_iff (hs : Flight L h s) {d : LteRlcAmSdu} (hW : P.txWindowSize ≤ 200)
    (hlt : s.txWindowDesc.seqNum + nrFragments P d < 2147483648) :
    u32 (s.txWindowDesc.seqNum + nrFragments P d) <
      u32 (s.txWindowDesc.firstSeqNum + P.txWindowSize) ↔ HasRoom P s d := by
  have hle := hs.le
  rw [u32_of_lt (by omega), u32_of_lt (by omega)]
  rfl

theorem Sending.nextSdu_placing (hs : Sending L h s) {d : LteRlcAmSdu}
    (hroom : s.used < P.txWindowSize) (hW : P.txWindowSize ≤ 200)
    (hlt : s.txWindowDesc.seqNum + nrFragments P d < 2147483648) :
    Ensures (fun _ => True)
      (fun s' => Ready P s' ∨ Placing P (fragments P d s.txWindowDesc.seqNum) s')
      (nextSdu P { s with sduQueue := [d] }) := by
  have hused := hs.used_eq
  have hle := hs.le
  refine AmTxQueue.nextSdu_placing (s := { s with sduQueue := [d] }) (hs.ready.window.congr rfl)
    ⟨hs.ready.mrw.free, hs.ready.mrw.timer, hs.ready.mrw.le⟩ hs.ready.currentSdu
    hs.ready.fragmentList rfl hroom fun htest => ?_
  have hfits : HasRoom P s d := (hs.hasRoom_iff hW hlt).1 htest
  unfold HasRoom at hfits
  change s.used + nrFragments P d < P.txWindowSize
  omega

/-- An SDU for which there is room is cut into fragments. -/
theorem Sending.nextSdu_taken (hs : Sending L h s) {d : LteRlcAmSdu} (hW : P.txWindowSize ≤ 200)
    (hlt : s.txWindowDesc.seqNum + nrFragments P d < 2147483648) (hfits : HasRoom P s d) :
    nextSdu P { s with sduQueue := [d] } = .ok (taken P s d) := by
  have hused := hs.used_eq
  have hle := hs.le
  have hcur : ({ s with sduQueue := [d] } : AmTxQueue).currentSdu = none := hs.ready.currentSdu
  have hindices := indices_eq hs.ready.window (n := nrFragments P d) (by omega)
  have htest := (hs.hasRoom_iff hW hlt).2 hfits
  unfold HasRoom at hfits
  have hbelow : ¬(List.range' s.used (nrFragments P d)).any (200 ≤ ·) = true := by
    rw [Bool.not_eq_true, List.any_eq_false]
    intro i hi
    have hi := List.mem_range'_1.1 hi
    simp only [decide_eq_true_iff]
    omega
  unfold nextSdu
  rw [hcur]
  dsimp only
  rw [if_pos htest]
  unfold fragmentFrame
  dsimp only
  rw [hindices, if_neg hbelow]
  rfl

/-- One for which there is no room is dropped. -/
theorem Sending.nextSdu_dropped (hs : Sending L h s) {d : LteRlcAmSdu} (hW : P.txWindowSize ≤ 200)
    (hlt : s.txWindowDesc.seqNum + nrFragments P d < 2147483648) (hfits : ¬HasRoom P s d) :
    nextSdu P { s with sduQueue := [d] } = .ok { s with sduQueue := [] } := by
  have hcur : ({ s with sduQueue := [d] } : AmTxQueue).currentSdu = none := hs.ready.currentSdu
  unfold nextSdu
  rw [hcur]
  dsimp only
  rw [if_neg fun htest => hfits ((hs.hasRoom_iff hW hlt).1 htest)]

/-- The sender goes on as before, without the SDU. -/
theorem Sending.enqued (hs : Sending L h s) (d : LteRlcAmSdu) {sdus : List LteRlcAmSdu}
    (hready : Ready P { s with sduQueue := sdus }) :
    Enqued L h s d L { s with sduQueue := sdus } where
  sending := { hs with ready := hready }
  agrees := ⟨fun _ _ => rfl, fun _ _ => rfl, hs.edge, hs.edge⟩
  placed := .inl rfl

/-- The SDU that has been cut into fragments is put into the window. -/
theorem Sending.place_taken (hs : Sending L h s) {d : LteRlcAmSdu} {n : ℕ}
    (hplacing : Placing P (fragments P d s.txWindowDesc.seqNum) (taken P s d))
    (hpos : 0 < nrFragments P d) (hn : nrFragments P d ≤ n)
    (hlt : s.txWindowDesc.seqNum + nrFragments P d < 2147483648)
    (hsno : d.snoMainPacket < 4294967295) (hW : P.txWindowSize ≤ 200) :
    ∃ (L' : Layout P) (s' : AmTxQueue) (pdu : LteRlcAmPdu) (rest : List LteRlcAmPdu),
      (taken P s d).fragmentList = some (pdu :: rest) ∧
      addPdusLoop P n (taken P s d) = .ok s' ∧ Enqued L h s d L' s' := by
  have hlen : (fragments P d s.txWindowDesc.seqNum).length = nrFragments P d := fragments_length
  have hfilling := hs.filling rfl hplacing (by omega) hsno hlt
  cases hfrag : fragments P d s.txWindowDesc.seqNum with
  | nil =>
    rw [hfrag, List.length_nil] at hlen
    omega
  | cons pdu rest =>
    rw [hfrag] at hlen hfilling
    rw [List.length_cons] at hlen
    obtain ⟨s', hs', hsending, hseq⟩ := addPdusLoop_filling (n := n) hfilling (by omega) hW
    rw [hlen] at hseq
    refine ⟨_, s', pdu, rest, hfilling.placing.fragmentList, hs', hsending, Layout.place_agrees,
      .inr ⟨hseq, fun t ht hts => ?_⟩⟩
    rw [hseq] at hts
    exact ⟨Layout.place_first ht hts, Layout.place_sdu ht hts⟩

/-- **An SDU comes.**  It is put into the window if it fits. -/
theorem enque_sending (hs : Sending L h s) {d : LteRlcAmSdu} (hpos : 0 < nrFragments P d)
    (hlt : s.txWindowDesc.seqNum + nrFragments P d < 2147483648)
    (hsno : d.snoMainPacket < 4294967295) (hW : P.txWindowSize ≤ 200) :
    ∃ L' s', enque P s d = .ok s' ∧ Enqued L h s d L' s' := by
  unfold enque
  dsimp only
  split
  swap
  · -- the window has no position at all
    rename_i hfull
    have hzero : P.txWindowSize = 0 :=
      hs.ready.room.elim id fun hroom => absurd ⟨hs.ready.currentSdu, hroom.2⟩ hfull
    exact ⟨L, _, rfl, hs.enqued d ⟨hs.ready.window.congr rfl,
      ⟨hs.ready.mrw.free, hs.ready.mrw.timer, hs.ready.mrw.le⟩, hs.ready.currentSdu,
      hs.ready.fragmentList, .inl hzero⟩⟩
  rename_i hfree
  have hroom : s.used < P.txWindowSize := hfree.2
  have hqueue : s.sduQueue = [] := hs.ready.room.elim (fun hzero => by omega) And.left
  have hplaced := hs.nextSdu_placing hroom hW hlt
  obtain ⟨W, hW'⟩ : ∃ W, P.txWindowSize = W + 1 := ⟨P.txWindowSize - 1, by omega⟩
  unfold addPdus
  rw [hqueue, List.nil_append, hW', addPdusLoop, hW', if_pos (by rw [← hW']; exact hroom),
    if_neg (by simp)]
  -- the SDU is cut up and placed, or dropped as a whole
  by_cases hfits : HasRoom P s d
  · rw [hs.nextSdu_taken hW hlt hfits] at hplaced ⊢
    have hplacing : Placing P (fragments P d s.txWindowDesc.seqNum) (taken P s d) :=
      hplaced.resolve_left fun hready => Option.some_ne_none d hready.currentSdu
    have hroom' := hplacing.room
    rw [fragments_length] at hroom'
    obtain ⟨L', s', pdu, rest, hlist, hs', henqued⟩ :=
      hs.place_taken (n := W + 1) hplacing hpos (by omega) hlt hsno hW
    rw [addPdusLoop_turn hlist (Option.some_ne_none d) hroom] at hs'
    refine ⟨L', s', ?_, henqued⟩
    dsimp only [bind, Except.bind]
    rw [hlist]
    exact hs'
  · rw [hs.nextSdu_dropped hW hlt hfits] at hplaced ⊢
    have hready : Ready P { s with sduQueue := [] } :=
      hplaced.resolve_right fun hp => hp.currentSdu hs.ready.currentSdu
    refine ⟨L, _, ?_, hs.enqued d hready⟩
    dsimp only [bind, Except.bind]
    rw [hs.ready.fragmentList]

/-- Nothing has been laid out yet. -/
theorem sending_initial : Sending (Layout.blank P) ⟨0, ∅⟩ (initial P) := by
  have hused : (initial P).used = 0 := show sub32 0 0 = 0 by decide
  have hnone : ∀ i, ¬i < (initial P).used := fun i => hused ▸ Nat.not_lt_zero i
  refine ⟨⟨⟨Nat.zero_lt_succ _, le_rfl, le_rfl, le_rfl, fun t _ ht => absurd ht (Nat.not_lt_zero t),
    fun i hi => absurd hi (hnone i), fun i hi => ?_, nofun, nofun, nofun, List.nodup_nil⟩,
    ready_initial, rfl⟩, fun i hi => absurd hi (hnone i)⟩
  rw [show flag (initial P).received i = false from congrFun flag_replicate i] at hi
  cases hi

end AmTxQueue

end V2nLte
