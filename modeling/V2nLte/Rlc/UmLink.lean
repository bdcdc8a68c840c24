import V2nLte.Rlc.UmReassembly

/-!
# RLC UM from end to end

A `UmTxEntity`, a `UmRxEntity`, and in between PDUs that can be lost, doubled and reordered: the
receiver is handed any PDU that the sender has made, any number of times and in any order, and
t-reordering expires at any moment while it runs.

`link_kept` is about every run: what goes up to PDCP, and that nothing throws.
-/

namespace V2nLte

/-- The two ends of a connection, and what has happened between them. -/
structure UmLink where
  /-- The sender. -/
  tx : UmTxEntity
  /-- The receiver. -/
  rx : UmRxEntity
  /-- The SDUs that the sender has accepted. -/
  accepted : List RlcSdu := []
  /-- The PDUs that the sender has made. -/
  produced : List UmDataPdu := []
  /-- The PDUs that have arrived, by their place in `produced`. -/
  arrived : List ℕ := []

namespace UmLink

/-- What can happen on a connection. -/
inductive Event where
  /-- PDCP hands an SDU to the sender. -/
  | enque (pkt : RlcSdu)
  /-- The MAC of the sender asks for a PDU. -/
  | request (pduLength : ℤ)
  /-- The `j`-th PDU arrives. -/
  | arrive (j : ℕ)
  /-- t-reordering expires. -/
  | expire

/-- The event can happen now. -/
def Event.Enabled (s : UmLink) : Event → Prop
  | .enque pkt => ∀ q ∈ s.accepted, q.snoMainPacket < pkt.snoMainPacket
  | .request _ => True
  | .arrive j => j < s.produced.length
  | .expire => s.rx.tReordering = true

instance (s : UmLink) (e : Event) : Decidable (e.Enabled s) := by
  cases e <;> unfold Event.Enabled <;> infer_instance

/-- The sender takes an SDU. -/
def enqueTx (s : UmLink) (pkt : RlcSdu) : UmLink :=
  { s with
    tx := (s.tx.enque pkt).1
    accepted := if (s.tx.enque pkt).2 then s.accepted ++ [pkt] else s.accepted }

/-- The handler of an event with what goes up to PDCP; an exception is `none`. -/
def handle (s : UmLink) : Event → Option (UmLink × List RlcSdu)
  | .enque pkt => some (s.enqueTx pkt, [])
  | .request pduLength =>
    match s.tx.rlcPduMake pduLength with
    | none => none
    | some (tx, r) => some ({ s with tx, produced := s.produced ++ r.toList }, [])
  | .arrive j =>
    match s.produced[j]? with
    | none => none
    | some pdu =>
      match s.rx.enque pdu with
      | .error _ => none
      | .ok (rx, out) => some ({ s with rx, arrived := s.arrived ++ [j] }, out)
  | .expire =>
    match s.rx.handleTimer with
    | .error _ => none
    | .ok (rx, out) => some ({ s with rx }, out)

/-- The connection as a machine. -/
def machine : Machine UmLink Event RlcSdu where
  step s e := if e.Enabled s then s.handle e else none

/-- The connection at the start. -/
def initial (queueSize W : ℕ) (hW : W < 2147483648) (multi : Bool) : UmLink where
  tx := { queueSize }
  rx := UmRxEntity.initial W hW multi

/-- The sequence numbers do not run out at the sender, and no PDU is too far ahead of the
receiver. -/
def Event.Ok (s : UmLink) : Event → Prop
  | .enque _ => True
  | .request _ => s.tx.sno + 1 < 4294967296
  | .arrive j => ∀ pdu ∈ s.produced[j]?, s.rx.Admissible pdu.pduSequenceNumber
  | .expire => True

instance (s : UmLink) (e : Event) : Decidable (e.Ok s) := by
  cases e <;> unfold Event.Ok <;> infer_instance

/-! ### The invariant -/

/-- The receiver has seen all the PDUs so far, each once and in order. -/
structure InOrder (s : UmLink) (os : List RlcSdu) (pos : ℕ → ℕ × ℕ) : Prop where
  ur : s.rx.rxWindowDesc.firstSnoForReordering = s.arrived.length
  uh : s.rx.rxWindowDesc.highestReceivedSno = s.arrived.length
  gapless : Gapless s.accepted pos s.arrived.length s.rx.buffered os

/-- What holds between two events, where the PDUs are cut at the places `pos`. -/
structure Inv (s : UmLink) (os : List RlcSdu) (pos : ℕ → ℕ × ℕ) : Prop where
  stream : Stream s.accepted s.produced pos
  place : s.tx.At s.accepted (pos s.produced.length)
  sno : s.tx.sno = s.produced.length
  noReset : s.rx.resetFlag = false
  window : s.rx.Window (Known s.produced s.arrived)
  high : s.rx.rxWindowDesc.highestReceivedSno ≤ s.produced.length
  gapped : Gapped s.accepted s.produced pos s.arrived s.rx.rxWindowDesc.firstSnoForReordering
    s.rx.buffered os
  inOrder : s.arrived = List.range s.arrived.length → InOrder s os pos

/-! ### Keeping the invariant -/

theorem inv_initial {queueSize W : ℕ} (hpos : 1 ≤ W) (hW : W < 2147483648) (multi : Bool) :
    Inv (initial queueSize W hW multi) [] fun _ => (0, 0) := by
  have hwaits : Waits [] 0 0 none := waits_none [] 0 0
  refine ⟨⟨List.Pairwise.nil, rfl, fun j p h => ?_, fun _ _ => rfl⟩, ⟨le_rfl, rfl, .inl ?_⟩, rfl,
    rfl, UmRxEntity.window_initial hpos hW multi, le_rfl, ⟨List.Pairwise.nil, ?_, hwaits, ?_⟩,
    fun _ => ⟨rfl, rfl, rfl, hwaits, exact_zero [] 0 none⟩⟩
  · cases h
  · exact ⟨rfl, rfl, rfl⟩
  · intro p h
    cases h
  · intro _ q h
    cases h

section

variable {s : UmLink} {os : List RlcSdu} {pos : ℕ → ℕ × ℕ}

theorem Inv.arrived_le (h : Inv s os pos) (hio : InOrder s os pos) :
    s.arrived.length ≤ s.produced.length := by
  rw [← hio.uh]
  exact h.high

theorem inv_enque (h : Inv s os pos) {pkt : RlcSdu}
    (hnew : ∀ q ∈ s.accepted, q.snoMainPacket < pkt.snoMainPacket) :
    Inv (s.enqueTx pkt) os pos := by
  by_cases hacc : (s.tx.enque pkt).2 = true
  · have hst := h.stream.enque hnew
    have heq : (s.enqueTx pkt).accepted = s.accepted ++ [pkt] := if_pos hacc
    refine ⟨?_, ?_, ?_, h.noReset, h.window, h.high, ?_, fun hin => ?_⟩
    · rw [heq]
      exact hst
    · rw [heq]
      exact h.place.enque hacc
    · exact (UmTxEntity.sno_enque s.tx pkt).trans h.sno
    · rw [heq]
      refine ⟨h.gapped.increasing, fun p hp => ?_, h.gapped.waits.append _, ?_⟩
      · obtain ⟨i, hi, hp, hc⟩ := h.gapped.up p hp
        exact ⟨i, hi, getElem?_append_of_some hp _, hc⟩
      · intro hex q hq hlt c hc hi
        refine h.gapped.got (Exact.of_append h.gapped.waits hst.increasing hex) q hq hlt c hc ?_
        -- the chunk is of an SDU that was there before
        obtain ⟨j, hj⟩ := List.mem_iff_getElem?.1 hq
        obtain ⟨i, hi', -⟩ := (h.stream.pdu j q hj).2.2.1.chunk hc
        have heq := hst.increasing.inj hi (getElem?_append_of_some hi' _)
        exact (congrArg (s.accepted[·]?) heq).trans hi'
    · have hio := h.inOrder hin
      refine ⟨hio.ur, hio.uh, ?_, ?_, ?_⟩
      · rw [heq, List.take_append_of_le_length]
        · exact hio.gapless.up
        · have hmono := h.stream.mono (h.arrived_le hio)
          have hle := h.place.le
          show (pos s.arrived.length).1 ≤ s.accepted.length
          omega
      · rw [heq]
        exact hio.gapless.waits.append _
      · rw [heq]
        exact hio.gapless.all.append _
  · have heq : s.enqueTx pkt = s := by
      rw [Bool.not_eq_true] at hacc
      simp [enqueTx, UmTxEntity.enque_of_not_accepted hacc, hacc]
    rw [heq]
    exact h

theorem inv_request (pduLength : ℤ) (h : Inv s os pos)
    (hok : s.tx.sno + 1 < 4294967296) :
    ∃ tx r pos', s.tx.rlcPduMake pduLength = some (tx, r) ∧
      Inv { s with tx, produced := s.produced ++ r.toList } os pos' := by
  obtain ⟨tx, r, b, hmake, hs⟩ := UmTxEntity.rlcPduMake_spec h.place pduLength
  refine ⟨tx, r, ?_⟩
  cases r with
  -- no PDU is made
  | none =>
    obtain ⟨rfl, hsno⟩ := hs.empty rfl
    refine ⟨pos, hmake, ?_⟩
    simp only [Option.toList, List.append_nil]
    exact ⟨h.stream, hs.place, hsno.trans h.sno, h.noReset, h.window, h.high, h.gapped,
      fun hin => ⟨(h.inOrder hin).ur, (h.inOrder hin).uh, (h.inOrder hin).gapless⟩⟩
  -- the PDU is the next one of the stream
  | some pdu =>
    obtain ⟨hsno, hnext, hne, hcut, hfi⟩ := hs.data pdu rfl
    rw [h.sno] at hsno
    have hst := h.stream.request hsno hne hcut hfi
    refine ⟨nextPos pos s.produced.length b, hmake, ?_⟩
    simp only [Option.toList]
    have hlen : (s.produced ++ [pdu]).length = s.produced.length + 1 := by simp
    have hold : ∀ j, j ≤ s.produced.length → nextPos pos s.produced.length b j = pos j :=
      fun j hj => if_pos hj
    have hur : s.rx.rxWindowDesc.firstSnoForReordering ≤ s.produced.length :=
      le_trans h.window.le h.high
    have hmono := h.stream.mono hur
    refine ⟨hst, ?_, ?_, h.noReset, ?_, ?_, ?_, fun hin => ?_⟩
    · simp only [hlen]
      rw [nextPos, if_neg (by omega)]
      exact hs.place
    · simp only [hlen]
      rw [hnext, u32_of_lt hok, h.sno]
    · exact h.window.mono fun p hp => ⟨List.mem_append_left _ hp.1, hp.2⟩
    · simp only [hlen]
      exact le_trans h.high (Nat.le_succ _)
    · refine ⟨h.gapped.increasing, fun p hp => ?_, ?_, ?_⟩
      · obtain ⟨i, hi, hp, hc⟩ := h.gapped.up p hp
        refine ⟨i, by rwa [hold _ hur], hp, fun q hq c hcq hcp => ?_⟩
        rcases List.mem_append.1 hq with hq | hq
        · exact hc q hq c hcq hcp
        · -- the new PDU starts after this SDU
          obtain rfl := List.mem_singleton.1 hq
          subst hcp
          have hafter := hst.not_after (List.mem_append_right _ hq) hcq hp hsno.ge
          rw [hold _ le_rfl] at hafter
          omega
      · rw [hold _ hur]
        exact h.gapped.waits
      · rw [hold _ hur]
        intro hex q hq hlt c hc hi
        rcases List.mem_append.1 hq with hq | hq
        · exact h.gapped.got hex q hq hlt c hc hi
        · obtain rfl := List.mem_singleton.1 hq
          have hbad : s.produced.length < s.rx.rxWindowDesc.firstSnoForReordering := hsno ▸ hlt
          omega
    · -- in order, the receiver is where it was
      have hio := h.inOrder hin
      have hle := h.arrived_le hio
      refine ⟨hio.ur, hio.uh, ?_⟩
      obtain ⟨hup, hwaits, hall⟩ := hio.gapless
      refine ⟨?_, ?_, ?_⟩ <;> simp only [hold _ hle]
      · exact hup
      · exact hwaits
      · exact hall

theorem Gapped.arrive {sdus : List RlcSdu} {pdus : List UmDataPdu} {arrived : List ℕ} {L : ℕ}
    {b : Option (RlcSdu × ℕ)} {D : List RlcSdu} (h : Gapped sdus pdus pos arrived L b D) (j : ℕ) :
    Gapped sdus pdus pos (arrived ++ [j]) L b D := by
  refine ⟨h.increasing, fun p hp => ?_, h.waits, fun hex q hq hlt c hc hi => ?_⟩
  · obtain ⟨i, hi, hp, hcomplete⟩ := h.up p hp
    exact ⟨i, hi, hp, fun q hq c hc hcp => List.mem_append_left _ (hcomplete q hq c hc hcp)⟩
  · exact List.mem_append_left _ (h.got hex q hq hlt c hc hi)

/-- In order means that the next PDU is the one after the last. -/
theorem range_concat {l : List ℕ} {j : ℕ} (h : l ++ [j] = List.range (l ++ [j]).length) :
    l = List.range l.length ∧ j = l.length := by
  rw [List.length_append, List.length_singleton, List.range_succ] at h
  exact ⟨List.append_inj_left' h rfl, by simpa using List.append_inj_right' h rfl⟩

theorem startMulti_of_next {rx : UmRxEntity} {n : ℕ}
    (hur : rx.rxWindowDesc.firstSnoForReordering = n)
    (huh : rx.rxWindowDesc.highestReceivedSno = n) :
    (rx.startMulti n).rxWindowDesc.firstSnoForReordering = n ∧
      (rx.startMulti n).rxWindowDesc.highestReceivedSno = n := by
  unfold UmRxEntity.startMulti
  split
  · exact ⟨rfl, rfl⟩
  · exact ⟨hur, huh⟩

/-- VR(UH) does not go beyond the PDUs that were made. -/
theorem startMulti_high {rx : UmRxEntity} {tsn n : ℕ} (htsn : tsn < n)
    (huh : rx.rxWindowDesc.highestReceivedSno ≤ n) :
    (rx.startMulti tsn).rxWindowDesc.highestReceivedSno ≤ n := by
  unfold UmRxEntity.startMulti
  split
  · exact htsn.le
  · exact huh

theorem Inv.resettable (h : Inv s os pos) {J : ℕ → Option (RlcSdu × ℕ) → List RlcSdu → Prop}
    (hreset : s.rx.resetFlag = true) : UmRxEntity.Resettable J :=
  (Bool.false_ne_true (h.noReset.symm.trans hreset)).elim

theorem Inv.noReset_of (h : Inv s os pos) {rx : UmRxEntity}
    (hrx : rx.resetFlag = true → s.rx.resetFlag = true) : rx.resetFlag = false := by
  rw [h.noReset] at hrx
  simpa using hrx

theorem inv_arrive (h : Inv s os pos) {j : ℕ} {pdu : UmDataPdu} (hj : s.produced[j]? = some pdu)
    (hok : s.rx.Admissible pdu.pduSequenceNumber) :
    ∃ rx out, s.rx.enque pdu = .ok (rx, out) ∧
      Inv { s with rx, arrived := s.arrived ++ [j] } (os ++ out) pos := by
  obtain ⟨rfl, -⟩ := h.stream.pdu j pdu hj
  have hlt := (List.getElem?_eq_some_iff.1 hj).1
  have hmem : pdu ∈ s.produced := List.mem_of_getElem? hj
  have hw : s.rx.Window (Known s.produced (s.arrived ++ [pdu.pduSequenceNumber])) :=
    h.window.mono fun p hp => ⟨hp.1, List.mem_append_left _ hp.2⟩
  have hknown : Known s.produced (s.arrived ++ [pdu.pduSequenceNumber]) pdu :=
    ⟨hmem, List.mem_append_right _ (List.mem_singleton_self _)⟩
  obtain ⟨⟨rx, out⟩, henque, hgap⟩ := (UmRxEntity.enque_spec (reader_gapped h.stream) h.resettable
    hw hknown hok (fun _ _ _ => trivial) (Gapped.arrive h.gapped _)).exists_ok
  refine ⟨rx, out, henque, h.stream, h.place, h.sno, ?_, hgap.window, ?_, hgap.reads, fun hin => ?_⟩
  · exact h.noReset_of fun hr => UmRxEntity.startMulti_resetFlag ▸ hgap.reset hr
  · exact le_trans hgap.uh (max_le (startMulti_high hlt h.high) hlt)
  · obtain ⟨hbefore, hnext⟩ := range_concat hin
    have hio := h.inOrder hbefore
    have hread := hio.gapless
    rw [← hio.ur] at hread
    have hexact := UmRxEntity.enque_spec (reader_gapless h.stream) h.resettable hw hknown hok
      (fun L hL hL' => by rw [hio.ur, ← hnext] at hL; omega) hread
    rw [henque] at hexact
    obtain ⟨hur, huh⟩ := startMulti_of_next (hio.ur.trans hnext.symm) (hio.uh.trans hnext.symm)
    have hgt := hexact.ur hur huh.le
    have hhigh := hexact.uh
    have hle := hexact.window.le
    rw [huh] at hhigh
    have hlen : (s.arrived ++ [pdu.pduSequenceNumber]).length = pdu.pduSequenceNumber + 1 := by
      simp [hnext]
    have hfirst : rx.rxWindowDesc.firstSnoForReordering = pdu.pduSequenceNumber + 1 := by
      simp only at hgt hhigh hle
      omega
    refine ⟨?_, ?_, ?_⟩ <;> simp only [hlen]
    · exact hfirst
    · simp only at hgt hhigh hle
      omega
    · rw [← hfirst]
      exact hexact.reads

theorem inv_expire (h : Inv s os pos) (hen : s.rx.tReordering = true) :
    ∃ rx out, s.rx.handleTimer = .ok (rx, out) ∧ Inv { s with rx } (os ++ out) pos := by
  obtain ⟨⟨rx, out⟩, hhandle, hgap, huh⟩ := (UmRxEntity.handleTimer_spec (reader_gapped h.stream)
    h.resettable h.window hen (fun _ => trivial) h.gapped).exists_ok
  refine ⟨rx, out, hhandle, h.stream, h.place, h.sno, h.noReset_of hgap.reset, hgap.window, ?_,
    hgap.reads, fun hin => ?_⟩
  · exact huh.trans_le h.high
  · -- the timer does not run as long as everything has come in order
    have hio := h.inOrder hin
    have htimer := h.window.timer hen
    have hur := hio.ur
    have huh := hio.uh
    omega

end

/-! ### Whole runs -/

/-- One event: it does not throw, and it keeps the invariant. -/
theorem inv_handle {s : UmLink} {os : List RlcSdu} {pos : ℕ → ℕ × ℕ} (h : Inv s os pos) {e : Event}
    (hen : e.Enabled s) (hok : e.Ok s) :
    ∃ s' o pos', s.handle e = some (s', o) ∧ Inv s' (os ++ o) pos' := by
  cases e with
  | enque pkt => exact ⟨_, [], pos, rfl, by simpa using inv_enque h hen⟩
  | request n =>
    obtain ⟨tx, r, pos', hmake, hinv⟩ := inv_request n h hok
    refine ⟨{ s with tx, produced := s.produced ++ r.toList }, [], pos', ?_, ?_⟩
    · simp only [handle, hmake]
    · simpa using hinv
  | arrive j =>
    have hj : s.produced[j]? = some s.produced[j] := List.getElem?_eq_getElem hen
    obtain ⟨rx, out, henque, hinv⟩ := inv_arrive h hj (hok _ hj)
    refine ⟨{ s with rx, arrived := s.arrived ++ [j] }, out, pos, ?_, hinv⟩
    simp only [handle, hj, henque]
  | expire =>
    obtain ⟨rx, out, hhandle, hinv⟩ := inv_expire h hen
    refine ⟨{ s with rx }, out, pos, ?_, hinv⟩
    simp only [handle, hhandle]

theorem step_eq_some {s s' : UmLink} {e : Event} {o : List RlcSdu} :
    machine.step s e = some (s', o) ↔ e.Enabled s ∧ s.handle e = some (s', o) := by
  simp [machine]

theorem inv_exec {queueSize W : ℕ} (hpos : 1 ≤ W) (hW : W < 2147483648) (multi : Bool)
    {es : List Event} {s : UmLink} {os : List RlcSdu}
    (hrun : machine.exec (initial queueSize W hW multi) es = some (s, os))
    (hok : ∀ s e s' o, machine.Takes (initial queueSize W hW multi) es s e s' o → e.Ok s) :
    ∃ pos, Inv s os pos := by
  refine Machine.exec_induction (J := fun es s os =>
    (∀ s e s' o, machine.Takes (initial queueSize W hW multi) es s e s' o → e.Ok s) →
      ∃ pos, Inv s os pos) (fun _ => ⟨_, inv_initial hpos hW multi⟩) ?_ hrun hok
  intro es s os e s' o hex ih hstep hok
  obtain ⟨pos, hinv⟩ := ih fun s e s' o ht => hok s e s' o ht.append_right
  obtain ⟨hen, hhandle⟩ := step_eq_some.1 hstep
  obtain ⟨s₁, o₁, pos', heq, hinv'⟩ :=
    inv_handle hinv hen (hok s e s' o (Machine.takes_concat hex hstep))
  rw [heq] at hhandle
  obtain ⟨rfl, rfl⟩ := Prod.mk.inj (Option.some.inj hhandle)
  exact ⟨pos', hinv'⟩

/-- **RLC UM from end to end**, as long as the sequence numbers suffice.  If every PDU has arrived
once and in order, the SDUs that went up are those that the sender has sent completely.  In any
case they are SDUs of the sender in their order, each with all its PDUs received, and no handler
throws. -/
theorem link_kept {queueSize W : ℕ} (hpos : 1 ≤ W) (hW : W < 2147483648) (multi : Bool)
    {es : List Event} {s : UmLink} {os : List RlcSdu}
    (hrun : machine.exec (initial queueSize W hW multi) es = some (s, os))
    (hok : ∀ s e s' o, machine.Takes (initial queueSize W hW multi) es s e s' o → e.Ok s) :
    (s.arrived = List.range s.produced.length → s.accepted = os ++ s.tx.sduQueue) ∧
    os.Pairwise (fun p q => p.snoMainPacket < q.snoMainPacket) ∧
    (∀ p ∈ os, p ∈ s.accepted ∧ p ∉ s.tx.sduQueue ∧
      ∀ pdu ∈ s.produced, ∀ c ∈ pdu.sdus, c.1 = p → pdu.pduSequenceNumber ∈ s.arrived) ∧
    ∀ e : Event, e.Enabled s → e.Ok s → (s.handle e).isSome := by
  obtain ⟨pos, h⟩ := inv_exec hpos hW multi hrun hok
  refine ⟨fun hall => ?_, h.gapped.increasing, fun p hp => ?_, fun e hen he => ?_⟩
  · have hlen : s.arrived.length = s.produced.length := by rw [hall, List.length_range]
    have hio := h.inOrder (by rw [hlen]; exact hall)
    rw [hio.gapless.up, hlen, h.place.queue, List.take_append_drop]
  · obtain ⟨i, hi, hget, hcomplete⟩ := h.gapped.up p hp
    refine ⟨List.mem_of_getElem? hget, fun hq => ?_, hcomplete⟩
    rw [h.place.queue] at hq
    obtain ⟨n, hn⟩ := List.mem_iff_getElem?.1 hq
    rw [List.getElem?_drop] at hn
    have heq := h.stream.increasing.inj hget hn
    have hmono := h.stream.mono (le_trans h.window.le h.high)
    omega
  · obtain ⟨s', o, -, hhandle, -⟩ := inv_handle h hen he
    rw [hhandle]
    rfl

/-- An SDU of one byte. -/
def byteSdu (sno : ℕ) : RlcSdu := .small sno 0

theorem link_kept_two_sdus :
    ∃ s os, machine.exec (initial 0 16 (by decide) false)
        [.enque (byteSdu 1), .enque (byteSdu 5), .request 3, .request 2, .request 9, .arrive 0,
          .arrive 1] = some (s, os) ∧
      s.arrived = List.range s.produced.length ∧ s.accepted = os ++ s.tx.sduQueue := by
  have hsome : (machine.exec (initial 0 16 (by decide) false)
    [.enque (byteSdu 1), .enque (byteSdu 5), .request 3, .request 2, .request 9, .arrive 0,
      .arrive 1]).isSome := rfl
  obtain ⟨⟨s, os⟩, hrun⟩ := Option.isSome_iff_exists.1 hsome
  have harrived : s.arrived = List.range s.produced.length := by
    obtain ⟨rfl, -⟩ := Prod.mk.inj (Option.some.inj hrun)
    rfl
  refine ⟨s, os, hrun, harrived, (link_kept (by decide) (by decide) false hrun ?_).1 harrived⟩
  have hmeets : machine.Meets (fun s e => Event.Ok s e) (initial 0 16 (by decide) false)
    [.enque (byteSdu 1), .enque (byteSdu 5), .request 3, .request 2, .request 9, .arrive 0,
      .arrive 1] := by decide +kernel
  exact fun s e s' o ht => hmeets.takes ht

/-- The PDU with this SDU only. -/
def bytePdu (sno : ℕ) : UmDataPdu := ⟨sno, 0, [(byteSdu sno, 1)]⟩

/-- The sender has put `n` SDUs into a PDU each, and nothing has arrived. -/
structure Lost (n : ℕ) (s : UmLink) : Prop where
  rx : s.rx = UmRxEntity.initial 16 (by decide) false
  queueSize : s.tx.queueSize = 0
  queue : s.tx.sduQueue = []
  frag : s.tx.fragmentInfo = none
  first : s.tx.firstIsFragment = false
  sno : s.tx.sno = n
  produced : s.produced = (List.range n).map bytePdu
  accepted : ∀ q ∈ s.accepted, q.snoMainPacket < n

theorem lost_next {n : ℕ} {s : UmLink} (h : Lost n s) (hn : n + 1 < 4294967296) :
    ∃ s', machine.exec s [.enque (byteSdu n), .request 3] = some (s', []) ∧ Lost (n + 1) s' := by
  have henque : s.tx.enque (byteSdu n) =
      ({ s.tx with sduQueue := [byteSdu n], queueLength := s.tx.queueLength + 2 }, true) := by
    unfold UmTxEntity.enque
    rw [if_pos (.inl h.queueSize), h.queue]
    rfl
  have hmake : (s.enqueTx (byteSdu n)).tx.rlcPduMake 3 =
      some ({ s.tx with sno := n + 1 }, some (bytePdu n)) := by
    simp only [enqueTx, henque, UmTxEntity.rlcPduMake, h.frag, h.sno]
    simp [UmTxEntity.fill, UmTxEntity.firstLength, byteSdu, bytePdu, RlcSdu.small, RLC_HEADER_UM,
      chunkBytes, h.queue, h.first, u32_of_lt hn]
  have hen : Event.Enabled s (.enque (byteSdu n)) := h.accepted
  refine ⟨{ s.enqueTx (byteSdu n) with
      tx := { s.tx with sno := n + 1 }
      produced := s.produced ++ [bytePdu n] },
    Machine.exec_cons_eq_some.2 ⟨_, [], [], step_eq_some.2 ⟨hen, rfl⟩,
    Machine.exec_cons_eq_some.2 ⟨_, [], [], step_eq_some.2 ⟨trivial, ?_⟩, rfl, rfl⟩, rfl⟩, ?_⟩
  · simp only [handle, hmake]
    rfl
  · refine ⟨h.rx, h.queueSize, h.queue, h.frag, h.first, rfl, ?_, fun q hq => ?_⟩
    · simp [h.produced, List.range_succ]
    · simp only [enqueTx, henque, if_true] at hq
      rcases List.mem_append.1 hq with hq | hq
      · exact Nat.lt_succ_of_lt (h.accepted q hq)
      · rw [List.mem_singleton.1 hq]
        exact Nat.lt_succ_self n

theorem lost_run (n : ℕ) (hn : n < 4294967296) :
    ∃ es s, machine.exec (initial 0 16 (by decide) false) es = some (s, []) ∧ Lost n s := by
  induction n with
  | zero =>
    refine ⟨[], _, rfl, rfl, rfl, rfl, rfl, rfl, rfl, rfl, fun q hq => ?_⟩
    cases hq
  | succ n ih =>
    obtain ⟨es, s, hex, h⟩ := ih (by omega)
    obtain ⟨s', hex', h'⟩ := lost_next h hn
    exact ⟨_, s', Machine.exec_append_eq_some.2 ⟨s, [], [], hex, hex', rfl⟩, h'⟩

/-- After `2 ^ 31` lost PDUs the next one throws at the receiver: as an `int` its distance is
negative. -/
theorem lost_burst_throws :
    ∃ es s pdu, machine.exec (initial 0 16 (by decide) false) es = some (s, []) ∧
      Event.Enabled s (.arrive 2147483648) ∧ s.produced[2147483648]? = some pdu ∧
      s.rx.enque pdu = .error .outOfRange := by
  obtain ⟨es, s, hex, h⟩ := lost_run 2147483649 (by decide)
  have hlen : s.produced.length = 2147483649 := by
    rw [h.produced, List.length_map, List.length_range]
  refine ⟨es, s, bytePdu 2147483648, hex, ?_, ?_, ?_⟩
  · show 2147483648 < s.produced.length
    omega
  · rw [h.produced, List.getElem?_map, List.getElem?_range (by decide)]
    rfl
  · rw [h.rx]
    rfl

end UmLink

end V2nLte
