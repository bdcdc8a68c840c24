import V2nLte.Rlc.AmReports
import Mathlib.Data.List.Perm.Subperm

/-!
# RLC AM from end to end

An `AmTxQueue`, an `AmRxQueue`, and in between the fragments and the commands to move the window
(MRW) of the one, and the status reports and the answers to commands of the other.  What has been
sent can be lost, doubled and reordered: any of it arrives, any number of times and in any order.
SDUs come, the MAC asks for PDUs and timers expire at any moment between that.

`exchange_sound` is about every run: what is passed up, what is pending, and that nothing throws.
-/

namespace V2nLte

/-- The PDU with one bit of header, which takes a byte. -/
def LteRlcAmPdu.short (pdu : LteRlcAmPdu) : LteRlcAmPdu := { pdu with chunkLength := 1 }

/-- A status report or an answer to a command, as it comes to the sender. -/
def AmRxOutput.answer : AmRxOutput → Option AmTxQueue.Event
  | .status firstSn lastSn bitmap => some (.ack firstSn lastSn bitmap)
  | .mrwAck snoMainPacket snoFragment => some (.mrwAck snoFragment snoMainPacket)
  | _ => none

namespace AmRxQueue

/-- By how many positions the window moves when it is told to start at `seqNum`. -/
def shiftTo (s : AmRxQueue) (seqNum : ℤ) : ℕ :=
  sub32 (ofInt32 seqNum) s.rxWindowDesc.firstSeqNum

/-- The window can be moved: it is known how to reach the sender, and if the window does move, no
mark stays behind, and what stays pending is of an SDU that goes on at the new start. -/
def CanMove (Q : AmRxParams) (s : AmRxQueue) (seqNum : ℤ) : Prop :=
  s.flowControlInfo = true ∧ (0 < i32 (s.shiftTo seqNum) →
    (∀ i < s.shiftTo seqNum, Q.rxWindowSize ≤ i + s.shiftTo seqNum → flag s.received i = false) ∧
    ∀ pdu ∈ leftPending s (s.shiftTo seqNum), seqNum ≤ pdu.lastSn)

instance (Q : AmRxParams) (s : AmRxQueue) (seqNum : ℤ) : Decidable (s.CanMove Q seqNum) :=
  inferInstanceAs (Decidable (_ ∧ _))

end AmRxQueue

/-- The two ends of a connection, and what has been sent between them. -/
structure AmLink where
  /-- The sender. -/
  tx : AmTxQueue
  /-- The receiver. -/
  rx : AmRxQueue
  /-- The PDUs that the sender has sent. -/
  toRx : List LteRlcAmPdu := []
  /-- What the receiver has answered. -/
  toTx : List AmTxQueue.Event := []
  /-- The SDUs that the sender has accepted. -/
  accepted : List LteRlcAmSdu := []

namespace AmLink

/-- What can happen on a connection; what needs the time has it. -/
inductive Event where
  /-- PDCP hands an SDU to the sender. -/
  | enque (d : LteRlcAmSdu)
  /-- The first retransmission timer expires. -/
  | pduTimer
  /-- The first MRW timer expires. -/
  | mrwTimer
  /-- The buffer status timer expires. -/
  | bufferStatusTimer
  /-- The MAC of the sender, which has been told that there is a PDU, asks for it. -/
  | sendPdus (size : ℤ)
  /-- The `i`-th PDU of the sender arrives. -/
  | toReceiver (now i : ℕ)
  /-- The timer of the receiver expires. -/
  | statusTimer (now : ℕ)
  /-- The `i`-th answer of the receiver arrives. -/
  | toSender (i : ℕ)

variable (P : AmTxParams) (Q : AmRxParams)

/-- The event can happen now. -/
def Event.Enabled (l : AmLink) : Event → Prop
  | .enque _ => True
  | .pduTimer => l.tx.pduTimer ≠ []
  | .mrwTimer => l.tx.mrwTimer ≠ []
  | .bufferStatusTimer => l.tx.bufferStatusTimer = true
  | .sendPdus _ => l.tx.pduBuffer ≠ []
  | .toReceiver _ i => i < l.toRx.length
  | .statusTimer _ => l.rx.timer = true
  | .toSender i => i < l.toTx.length

instance (l : AmLink) (e : Event) : Decidable (e.Enabled l) := by
  cases e <;> unfold Event.Enabled <;> infer_instance

/-- The PDUs that are sent down: the first one of the buffer, with a header of one bit if it does
not fit. -/
def sentDown (tx : AmTxQueue) : AmOutput → List LteRlcAmPdu
  | .sent pdu => [pdu]
  | .sentEmpty => tx.pduBuffer.head?.toList.map LteRlcAmPdu.short
  | _ => []

/-- An event at the sender at which nothing is sent down. -/
def atSender (l : AmLink) (e : AmTxQueue.Event) : Option (AmLink × List (List LteRlcAmPdu)) :=
  match (AmTxQueue.machine P).step l.tx e with
  | none => none
  | some (tx, _) => some ({ l with tx }, [])

/-- An event at the receiver, with the SDUs that it passes up. -/
def atReceiver (l : AmLink) (now : ℕ) (e : AmRxQueue.Event) :
    Option (AmLink × List (List LteRlcAmPdu)) :=
  match (AmRxQueue.machine Q).step l.rx (now, e) with
  | none => none
  | some (rx, out) =>
    some ({ l with rx, toTx := l.toTx ++ out.filterMap AmRxOutput.answer }, AmRxQueue.sdus out)

/-- The handler of an event with the SDUs that are passed up; an exception is `none`. -/
def handle (l : AmLink) : Event → Option (AmLink × List (List LteRlcAmPdu))
  | .enque d => { l with accepted := l.accepted ++ [d] }.atSender P (.enque d)
  | .pduTimer => l.atSender P .pduTimer
  | .mrwTimer => l.atSender P .mrwTimer
  | .bufferStatusTimer => l.atSender P .bufferStatusTimer
  | .sendPdus size =>
    match (AmTxQueue.machine P).step l.tx (.sendPdus size) with
    | none => none
    | some (tx, out) => some ({ l with tx, toRx := l.toRx ++ out.flatMap (sentDown l.tx) }, [])
  | .toReceiver now i =>
    match l.toRx[i]? with
    | none => none
    | some pdu => l.atReceiver Q now (.enque pdu)
  | .statusTimer now => l.atReceiver Q now .timer
  | .toSender i =>
    match l.toTx[i]? with
    | none => none
    | some e => l.atSender P e

/-- The connection as a machine. -/
def machine : Machine AmLink Event (List LteRlcAmPdu) where
  step l e := if e.Enabled l then l.handle P Q e else none

/-- The connection at the start. -/
def initial : AmLink where
  tx := AmTxQueue.initial P
  rx := AmRxQueue.initial Q

/-- The numbers do not run out at the sender, and the window of the receiver can be moved to where
it is told.  An SDU that comes has its RLC header at least. -/
def Event.Ok (l : AmLink) : Event → Prop
  | .enque d => 0 < d.byteLength ∧ d.snoMainPacket < 4294967295 ∧
    l.tx.txWindowDesc.seqNum + AmTxQueue.nrFragments P d < 2147483648
  | .pduTimer | .bufferStatusTimer | .toSender _ => l.tx.mrwDesc.mrwSeqNum < 2147483648
  | .toReceiver _ i => ∀ pdu ∈ l.toRx[i]?, pdu.amType = .MRW → l.rx.CanMove Q pdu.lastSn
  | .mrwTimer | .sendPdus _ | .statusTimer _ => True

instance (l : AmLink) (e : Event) : Decidable (e.Ok P Q l) := by
  cases e <;> unfold Event.Ok <;> infer_instance

/-! ### The SDUs that are passed up -/

open AmTxQueue (Sending Sendable Tells MayStart nrFragments)
open AmRxQueue (Receiving Reports Delivers)

variable {P Q} {L L' : Layout P} {h h' : AmRxQueue.History} {S S' : ℕ} {accepted : List LteRlcAmSdu}
  {sdus : List (List LteRlcAmPdu)} {starts passed : List ℕ}

/-- The SDUs that have been laid out, and those that have been passed up, by their first
fragments. -/
structure Passing (L : Layout P) (h : AmRxQueue.History) (S : ℕ) (accepted : List LteRlcAmSdu)
    (sdus : List (List LteRlcAmPdu)) (starts passed : List ℕ) : Prop where
  mem_starts : ∀ a, a ∈ starts ↔ a < S ∧ L.first a = a
  accepted : (starts.map L.sdu).Sublist accepted
  sdus : sdus.map (List.map LteRlcAmPdu.firstTry) = passed.map L.fragments
  nodup : passed.Nodup
  complete : ∀ a ∈ passed, L.first a = a ∧ L.Complete h.received a

theorem passing_initial (L : Layout P) : Passing L ⟨0, ∅⟩ 0 [] [] [] [] where
  mem_starts := fun a => ⟨nofun, fun ha => absurd ha.1 (Nat.not_lt_zero a)⟩
  accepted := List.Sublist.refl []
  sdus := rfl
  nodup := List.nodup_nil
  complete := nofun

/-- An SDU that has been passed up had been sent. -/
theorem Passing.lt (hp : Passing L h S accepted sdus starts passed)
    (hlt : ∀ t ∈ h.received, t < S) {a : ℕ} (ha : a ∈ passed) : a < S :=
  hlt a ((hp.complete a ha).2 a (L.first_le a) L.lt_next')

/-- Each SDU is passed up at most once. -/
theorem Passing.subperm (hp : Passing L h S accepted sdus starts passed)
    (hlt : ∀ t ∈ h.received, t < S) : (passed.map L.sdu).Subperm accepted := by
  obtain ⟨l, hperm, hsub⟩ : passed.Subperm starts := hp.nodup.subperm fun a ha =>
    (hp.mem_starts a).2 ⟨hp.lt hlt ha, (hp.complete a ha).1⟩
  exact ⟨l.map L.sdu, hperm.map L.sdu, (hsub.map L.sdu).trans hp.accepted⟩

/-- The receiver goes on, and passes nothing up. -/
theorem Passing.heard (hp : Passing L h S accepted sdus starts passed)
    (hreceived : h.received ⊆ h'.received) : Passing L h' S accepted sdus starts passed :=
  { hp with complete := fun a ha => ⟨(hp.complete a ha).1, fun t ht hlt =>
      hreceived ((hp.complete a ha).2 t ht hlt)⟩ }

/-- An SDU is passed up. -/
theorem Passing.passUp (hp : Passing L h S accepted sdus starts passed) {sn : ℕ}
    (hd : Delivers L h sn) {fragments : List LteRlcAmPdu}
    (hfragments : fragments.map LteRlcAmPdu.firstTry = L.fragments (L.first sn)) :
    Passing L (h.after (.fragment sn)) S accepted (sdus ++ [fragments]) starts
      (passed ++ [L.first sn]) := by
  have hp' := hp.heard (AmRxQueue.History.received_subset (.fragment sn))
  refine ⟨hp.mem_starts, hp.accepted, ?_, ?_, fun a ha => ?_⟩
  · rw [List.map_append, List.map_append, hp.sdus, List.map_singleton, List.map_singleton,
      hfragments]
  · rw [← List.concat_eq_append]
    exact hp.nodup.concat (hd.not_mem hp.complete)
  · rcases List.mem_append.1 ha with ha | ha
    · exact hp'.complete a ha
    · rw [List.mem_singleton.1 ha]
      exact ⟨L.first_first, hd.complete⟩

theorem fragments_agrees (ha : L.Agrees L' S) {a : ℕ} (hlt : L.next a ≤ S)
    (hfirst : L.first a = a) : L'.fragments a = L.fragments a := by
  have hnext : a < L.next a := L.lt_next'
  have hlen : L.next a = L.first a + L.total a := rfl
  unfold Layout.fragments
  rw [ha.total (by omega)]
  refine List.map_congr_left fun t ht => ha.pdu ?_
  have ht := List.mem_range'_1.1 ht
  omega

/-- One more SDU comes. -/
theorem Passing.enque (hp : Passing L h S accepted sdus starts passed)
    (hlt : ∀ t ∈ h.received, t < S) {d : LteRlcAmSdu} (ha : L.Agrees L' S)
    (hplaced : S' = S ∨ S < S' ∧ ∀ t, S ≤ t → t < S' → L'.first t = S ∧ L'.sdu t = d) :
    ∃ starts, Passing L' h S' (accepted ++ [d]) sdus starts passed := by
  have hsdus : starts.map L'.sdu = starts.map L.sdu :=
    List.map_congr_left fun a hmem => ha.sdu a ((hp.mem_starts a).1 hmem).1
  have hpassed : sdus.map (List.map LteRlcAmPdu.firstTry) = passed.map L'.fragments := by
    rw [hp.sdus]
    refine List.map_congr_left fun a hmem => (fragments_agrees ha ?_ (hp.complete a hmem).1).symm
    exact L.next_le_of_edge ha.edge (hp.lt hlt hmem)
  have hcomplete : ∀ a ∈ passed, L'.first a = a ∧ L'.Complete h.received a := fun a hmem => by
    obtain ⟨hfirst, hall⟩ := hp.complete a hmem
    have hlt := hp.lt hlt hmem
    exact ⟨(ha.first a hlt).trans hfirst, (ha.complete hlt).2 hall⟩
  rcases hplaced with rfl | ⟨hS, hd⟩
  · refine ⟨starts, fun a => ?_, ?_, hpassed, hp.nodup, hcomplete⟩
    · rw [hp.mem_starts]
      exact and_congr_right fun hlt => by rw [ha.first a hlt]
    · rw [hsdus]
      exact hp.accepted.trans (List.sublist_append_left accepted [d])
  · refine ⟨starts ++ [S], fun a => ?_, ?_, hpassed, hp.nodup, hcomplete⟩
    · rw [List.mem_append, List.mem_singleton, hp.mem_starts]
      constructor
      · rintro (⟨hlt, hfirst⟩ | rfl)
        · exact ⟨hlt.trans hS, (ha.first a hlt).trans hfirst⟩
        · exact ⟨hS, ha.edge'⟩
      · rintro ⟨hlt, hfirst⟩
        by_cases hold : a < S
        · exact .inl ⟨hold, (ha.first a hold).symm.trans hfirst⟩
        · -- only one SDU starts there
          exact .inr (hfirst.symm.trans (hd a (Nat.not_lt.1 hold) hlt).1)
    · rw [List.map_append, hsdus, List.map_singleton, (hd S le_rfl hS).2]
      exact hp.accepted.append_right [d]

/-! ### The invariant -/

/-- What is on the way to the receiver has been sent, maybe with a header of one bit. -/
def OnWay (L : Layout P) (h : AmRxQueue.History) (S : ℕ) (pdu : LteRlcAmPdu) : Prop :=
  ∃ q, Sendable L h S q ∧ (pdu = q ∨ pdu = q.short)

/-- What comes to the sender is so. -/
def Told (h : AmRxQueue.History) (S : ℕ) : AmTxQueue.Event → Prop
  | .ack firstSn lastSn bitmap => Tells h S firstSn lastSn bitmap
  | .mrwAck snoFragment _ => snoFragment ≤ h.start
  | _ => False

theorem Told.later {e : AmTxQueue.Event} (he : Told h S e) (hstart : h.start ≤ h'.start)
    (hreceived : h.received ⊆ h'.received) (hS : S ≤ S') : Told h' S' e := by
  cases e with
  | ack firstSn lastSn bitmap => exact AmTxQueue.Tells.later he hstart hreceived hS
  | mrwAck snoFragment snoMainPacket => exact le_trans he hstart
  | enque d => exact he
  | pduTimer => exact he
  | mrwTimer => exact he
  | bufferStatusTimer => exact he
  | sendPdus size => exact he
  | bufferControlPdu pdu => exact he

theorem told_answer {o : AmRxOutput} {e : AmTxQueue.Event} (ho : Reports h S o)
    (he : o.answer = some e) : Told h S e := by
  cases o with
  | status firstSn lastSn bitmap =>
    cases he
    exact ho
  | mrwAck snoMainPacket snoFragment =>
    cases he
    exact ho
  | sdu fragments => cases he
  | routed pdu => cases he

/-- What holds between two events. -/
structure Inv (Q : AmRxParams) (L : Layout P) (h : AmRxQueue.History) (l : AmLink)
    (sdus : List (List LteRlcAmPdu)) : Prop where
  sending : Sending L h l.tx
  receiving : Receiving L Q h l.tx.txWindowDesc.seqNum l.rx.firstTry
  pos : 0 < l.tx.txWindowDesc.seqNum → 0 < P.txWindowSize
  toRx : ∀ pdu ∈ l.toRx, OnWay L h l.tx.txWindowDesc.seqNum pdu
  toTx : ∀ e ∈ l.toTx, Told h l.tx.txWindowDesc.seqNum e
  passing : ∃ starts passed, Passing L h l.tx.txWindowDesc.seqNum l.accepted sdus starts passed

theorem inv_initial : Inv Q (Layout.blank P) ⟨0, ∅⟩ (initial P Q) [] where
  sending := AmTxQueue.sending_initial
  receiving := AmRxQueue.receiving_initial (Layout.blank P) Q
  pos := fun h => absurd h (lt_irrefl 0)
  toRx := nofun
  toTx := nofun
  passing := ⟨[], [], passing_initial (Layout.blank P)⟩

/-! ### The sender -/

variable {l : AmLink}

/-- The sender goes on, with the fragments that it has in flight. -/
theorem Inv.goesOn (hi : Inv Q L h l sdus) {tx : AmTxQueue} (hsending : Sending L h tx)
    (hseq : tx.txWindowDesc.seqNum = l.tx.txWindowDesc.seqNum) {toRx : List LteRlcAmPdu}
    (htoRx : ∀ pdu ∈ toRx, OnWay L h l.tx.txWindowDesc.seqNum pdu) :
    Inv Q L h { l with tx, toRx } sdus := by
  rw [← hseq] at htoRx
  refine ⟨hsending, ?_, ?_, htoRx, ?_, ?_⟩
  · exact hseq.symm ▸ hi.receiving
  · exact hseq.symm ▸ hi.pos
  · exact hseq.symm ▸ hi.toTx
  · exact hseq.symm ▸ hi.passing

theorem Inv.atSender (hi : Inv Q L h l sdus) {e : AmTxQueue.Event}
    (hs : Ensures (fun _ => False)
      (fun s' => Sending L h s' ∧ s'.txWindowDesc.seqNum = l.tx.txWindowDesc.seqNum)
      (AmTxQueue.handle P { l.tx with out := [] } e)) :
    ∃ l', l.atSender P e = some (l', []) ∧ Inv Q L h l' sdus := by
  obtain ⟨tx, htx, hsending, hseq⟩ := hs.exists_ok
  refine ⟨{ l with tx }, ?_, hi.goesOn hsending hseq hi.toRx⟩
  unfold AmLink.atSender AmTxQueue.machine
  dsimp only
  rw [htx]

/-- Nothing has been seen of the event yet. -/
theorem Inv.start (hi : Inv Q L h l sdus) : Sending L h { l.tx with out := [] } :=
  hi.sending.congr rfl

theorem inv_pduTimer (hi : Inv Q L h l sdus) (hen : l.tx.pduTimer ≠ [])
    (hok : l.tx.mrwDesc.mrwSeqNum < 2147483648) :
    ∃ l', l.atSender P .pduTimer = some (l', []) ∧ Inv Q L h l' sdus := by
  obtain ⟨sn, timers, htimer⟩ := List.exists_cons_of_ne_nil hen
  refine hi.atSender ?_
  have hmem : sn ∈ l.tx.pduTimer := htimer ▸ List.mem_cons_self
  have hhandle := AmTxQueue.pduTimerHandle_sending hi.start hmem hok
  unfold AmTxQueue.handle
  dsimp only at hhandle ⊢
  rw [htimer, List.erase_cons_head] at hhandle
  rw [htimer]
  exact hhandle.mono fun s' h' => ⟨h'.sending, congrArg RlcWindowDesc.seqNum h'.txWindowDesc⟩

theorem inv_mrwTimer (hi : Inv Q L h l sdus) (hen : l.tx.mrwTimer ≠ []) :
    ∃ l', l.atSender P .mrwTimer = some (l', []) ∧ Inv Q L h l' sdus := by
  obtain ⟨k, timers, htimer⟩ := List.exists_cons_of_ne_nil hen
  refine hi.atSender ?_
  have hhandle := AmTxQueue.mrwTimerHandle_sending hi.start htimer
  unfold AmTxQueue.handle
  dsimp only at hhandle ⊢
  rw [htimer]
  exact hhandle.mono fun s' h' => ⟨h'.sending, congrArg RlcWindowDesc.seqNum h'.txWindowDesc⟩

theorem inv_bufferStatusTimer (hi : Inv Q L h l sdus)
    (hok : l.tx.mrwDesc.mrwSeqNum < 2147483648) :
    ∃ l', l.atSender P .bufferStatusTimer = some (l', []) ∧ Inv Q L h l' sdus := by
  refine hi.atSender ?_
  refine Ensures.bind (AmTxQueue.checkForMrw_sending hi.start hok) fun s' h' => ?_
  exact ⟨h'.sending.congr rfl, congrArg RlcWindowDesc.seqNum h'.txWindowDesc⟩

theorem inv_toSender (hi : Inv Q L h l sdus) {e : AmTxQueue.Event}
    (he : Told h l.tx.txWindowDesc.seqNum e) (hok : l.tx.mrwDesc.mrwSeqNum < 2147483648) :
    ∃ l', l.atSender P e = some (l', []) ∧ Inv Q L h l' sdus := by
  refine hi.atSender ?_
  cases e with
  | ack firstSn lastSn bitmap =>
    exact Ensures.mono (AmTxQueue.handleAck_sending hi.start he hok) fun s' h' =>
      ⟨h'.sending, congrArg RlcWindowDesc.seqNum h'.txWindowDesc⟩
  | mrwAck snoFragment snoMainPacket => exact AmTxQueue.mrwAck_sending hi.start he snoMainPacket
  | enque d => exact he.elim
  | pduTimer => exact he.elim
  | mrwTimer => exact he.elim
  | bufferStatusTimer => exact he.elim
  | sendPdus size => exact he.elim
  | bufferControlPdu pdu => exact he.elim

theorem nrFragments_pos {d : LteRlcAmSdu} (hd : 0 < d.byteLength) : 0 < nrFragments P d :=
  Nat.div_pos (by omega) P.fragmentSize_pos

theorem OnWay.agrees {pdu : LteRlcAmPdu} (hpdu : OnWay L h S pdu) (ha : L.Agrees L' S)
    (hS : S ≤ S') : OnWay L' h S' pdu := by
  obtain ⟨q, hq, hpdu⟩ := hpdu
  exact ⟨q, (hq.agrees ha).later hS, hpdu⟩

/-- **An SDU comes.** -/
theorem inv_enque (hi : Inv Q L h l sdus) {d : LteRlcAmSdu} (hW : P.txWindowSize ≤ 200)
    (hpos : 0 < d.byteLength) (hsno : d.snoMainPacket < 4294967295)
    (hlt : l.tx.txWindowDesc.seqNum + nrFragments P d < 2147483648) :
    ∃ (L' : Layout P) (l' : AmLink),
      { l with accepted := l.accepted ++ [d] }.atSender P (.enque d) = some (l', []) ∧
      Inv Q L' h l' sdus := by
  obtain ⟨L', tx, htx, henqued⟩ :=
    AmTxQueue.enque_sending hi.start (nrFragments_pos hpos) hlt hsno hW
  have hsending := henqued.sending
  have hagrees : L.Agrees L' l.tx.txWindowDesc.seqNum := henqued.agrees
  have hbelow := hi.receiving.below
  have hplaced : tx.txWindowDesc.seqNum = l.tx.txWindowDesc.seqNum ∨
      l.tx.txWindowDesc.seqNum < tx.txWindowDesc.seqNum ∧
        ∀ t, l.tx.txWindowDesc.seqNum ≤ t → t < tx.txWindowDesc.seqNum →
          L'.first t = l.tx.txWindowDesc.seqNum ∧ L'.sdu t = d := by
    refine henqued.placed.imp_right fun hp => ⟨?_, hp.2⟩
    rw [hp.1]
    exact Nat.lt_add_of_pos_right (nrFragments_pos hpos)
  have hle : l.tx.txWindowDesc.seqNum ≤ tx.txWindowDesc.seqNum :=
    hplaced.elim Eq.ge fun hp => hp.1.le
  obtain ⟨starts, passed, hp⟩ := hi.passing
  obtain ⟨starts', hp'⟩ := hp.enque hbelow.received_lt hagrees hplaced
  refine ⟨L', { l with tx, accepted := l.accepted ++ [d] }, ?_, hsending,
    hi.receiving.agrees hagrees hle hsending.lt, fun hS => ?_,
    fun pdu hpdu => (hi.toRx pdu hpdu).agrees hagrees hle,
    fun e he => (hi.toTx e he).later le_rfl subset_rfl hle, ⟨starts', passed, hp'⟩⟩
  · unfold AmLink.atSender AmTxQueue.machine AmTxQueue.handle
    dsimp only
    rw [htx]
  · rcases hplaced with heq | ⟨hgt, -⟩
    · exact hi.pos (heq ▸ hS)
    · -- the SDU has got positions in the window
      have hused := hsending.used_eq
      have hused_le := hsending.ready.window.used_le
      have hstart := hsending.le_start
      have hstart_le := hbelow.start_le
      omega

/-- **The MAC asks for a PDU.** -/
theorem inv_sendPdus (hi : Inv Q L h l sdus) (hen : l.tx.pduBuffer ≠ []) (size : ℤ) :
    ∃ l', handle P Q l (.sendPdus size) = some (l', []) ∧ Inv Q L h l' sdus := by
  obtain ⟨pdu, pdus, hbuffer⟩ := List.exists_cons_of_ne_nil hen
  obtain ⟨tx, htx, hgoes⟩ := (AmTxQueue.sendPdus_sending hi.start hbuffer size).exists_ok
  have hseq : tx.txWindowDesc.seqNum = l.tx.txWindowDesc.seqNum :=
    congrArg RlcWindowDesc.seqNum hgoes.txWindowDesc
  have hpdu := hi.sending.buffer pdu (hbuffer ▸ List.mem_cons_self)
  have hsent : ∃ q, tx.out.flatMap (sentDown l.tx) = [q] ∧ (q = pdu ∨ q = pdu.short) := by
    unfold AmTxQueue.sendPdus at htx
    rw [hbuffer] at htx
    dsimp only at htx
    split at htx
    · cases htx
      refine ⟨pdu, ?_, .inl rfl⟩
      split
      · rfl
      · rfl
    · cases htx
      refine ⟨pdu.short, ?_, .inr rfl⟩
      change (l.tx.pduBuffer.head?.toList.map LteRlcAmPdu.short) ++ [] = _
      rw [hbuffer]
      rfl
  obtain ⟨q, hq, hqpdu⟩ := hsent
  refine ⟨{ l with tx, toRx := l.toRx ++ [q] }, ?_, hi.goesOn hgoes.sending hseq ?_⟩
  · unfold handle AmTxQueue.machine AmTxQueue.handle
    dsimp only
    rw [htx]
    dsimp only
    rw [hq]
  · exact List.forall_mem_append.2 ⟨hi.toRx, List.forall_mem_singleton.2 ⟨pdu, hpdu, hqpdu⟩⟩

/-! ### The receiver -/

theorem sdus_firstTry (out : List AmRxOutput) :
    AmRxQueue.sdus (out.map AmRxOutput.firstTry) =
      (AmRxQueue.sdus out).map (List.map LteRlcAmPdu.firstTry) := by
  unfold AmRxQueue.sdus
  rw [List.filterMap_map, List.map_filterMap]
  refine List.filterMap_congr fun o _ => ?_
  cases o with
  | sdu fragments => rfl
  | status firstSn lastSn bitmap => rfl
  | mrwAck snoMainPacket snoFragment => rfl
  | routed pdu => rfl

theorem answer_firstTry (o : AmRxOutput) : o.firstTry.answer = o.answer := by
  cases o with
  | sdu fragments => rfl
  | status firstSn lastSn bitmap => rfl
  | mrwAck snoMainPacket snoFragment => rfl
  | routed pdu => rfl

/-- What the receiver does with the first tries, it does with what comes. -/
theorem Inv.atReceiver (hi : Inv Q L h l sdus) {now : ℕ} {e : AmRxQueue.Event}
    (hen : e = .timer → l.rx.timer = true) {s' : AmRxQueue} {out : List AmRxOutput}
    (hs' : AmRxQueue.handle Q now l.rx.firstTry e.firstTry = .ok (s', out))
    (hr : Receiving L Q h' l.tx.txWindowDesc.seqNum s')
    (hreports : ∀ o ∈ out, Reports h' l.tx.txWindowDesc.seqNum o)
    (hstart : h.start ≤ h'.start) (hreceived : h.received ⊆ h'.received)
    (hpassing : ∀ sdus', sdus'.map (List.map LteRlcAmPdu.firstTry) = AmRxQueue.sdus out →
      ∃ starts passed,
        Passing L h' l.tx.txWindowDesc.seqNum l.accepted (sdus ++ sdus') starts passed) :
    ∃ l' sdus', l.atReceiver Q now e = some (l', sdus') ∧ Inv Q L h' l' (sdus ++ sdus') := by
  rw [AmRxQueue.handle_firstTry] at hs'
  obtain ⟨rx, out', hhandle, rfl, rfl⟩ : ∃ rx out', AmRxQueue.handle Q now l.rx e = .ok (rx, out') ∧
      rx.firstTry = s' ∧ out'.map AmRxOutput.firstTry = out := by
    cases hhandle : AmRxQueue.handle Q now l.rx e with
    | error err =>
      rw [hhandle] at hs'
      cases hs'
    | ok r =>
      rw [hhandle] at hs'
      cases hs'
      exact ⟨r.1, r.2, rfl, rfl, rfl⟩
  refine ⟨{ l with rx, toTx := l.toTx ++ out'.filterMap AmRxOutput.answer }, AmRxQueue.sdus out',
    ?_, hi.sending.heard hstart hreceived hr.below.start_le hr.begun, hr, hi.pos,
    fun pdu hpdu => ?_, List.forall_mem_append.2 ⟨fun e he => ?_, fun e he => ?_⟩,
    hpassing _ (sdus_firstTry out').symm⟩
  · unfold AmLink.atReceiver AmRxQueue.machine
    dsimp only
    have hruns : ¬(e = .timer ∧ l.rx.timer = false) := fun hstopped =>
      Bool.false_ne_true (hstopped.2.symm.trans (hen hstopped.1))
    rw [if_neg hruns, show (AmRxQueue.handle Q now l.rx e).toOption = some (rx, out') from
      toOption_eq_some.2 hhandle]
  · obtain ⟨q, hq, hpdu⟩ := hi.toRx pdu hpdu
    exact ⟨q, hq.heard hstart hreceived, hpdu⟩
  · exact (hi.toTx e he).later hstart hreceived le_rfl
  · obtain ⟨o, ho, he⟩ := List.mem_filterMap.1 he
    exact told_answer (hreports _ (List.mem_map_of_mem ho)) ((answer_firstTry o).trans he)

/-- **The timer of the receiver expires.** -/
theorem inv_statusTimer (hi : Inv Q L h l sdus) (hen : l.rx.timer = true) (now : ℕ) :
    ∃ l' sdus', l.atReceiver Q now .timer = some (l', sdus') ∧ Inv Q L h l' (sdus ++ sdus') := by
  obtain ⟨s', out, hs', hr, hreports, hnone⟩ :=
    AmRxQueue.handleMessage_receiving hi.receiving hen now
  refine hi.atReceiver (fun _ => hen) hs' hr hreports le_rfl subset_rfl fun sdus' hsdus => ?_
  rw [hnone, List.map_eq_nil_iff] at hsdus
  rw [hsdus, List.append_nil]
  exact hi.passing

/-- **A fragment comes.** -/
theorem inv_data (hi : Inv Q L h l sdus) (hle : P.txWindowSize ≤ Q.rxWindowSize) {t : ℕ}
    (ht : t < l.tx.txWindowDesc.seqNum) {pdu : LteRlcAmPdu} (hpdu : pdu.firstTry = L.pdu t)
    (now : ℕ) :
    ∃ h' l' sdus', l.atReceiver Q now (.enque pdu) = some (l', sdus') ∧
      Inv Q L h' l' (sdus ++ sdus') := by
  have hused := hi.sending.used_eq
  have hused_le := hi.sending.ready.window.used_le
  have hstart := hi.sending.le_start
  have hpos := hi.pos (by omega)
  obtain ⟨s', out, hs', hr, hreports, hout⟩ :=
    AmRxQueue.enqueData_receiving hi.receiving ht (by omega) (by omega) now
  have henque : AmRxQueue.handle Q now l.rx.firstTry (AmRxQueue.Event.enque pdu).firstTry =
      .ok (s', out) := by
    change AmRxQueue.enque Q now l.rx.firstTry pdu.firstTry = _
    rw [hpdu]
    exact hs'
  refine ⟨_, hi.atReceiver nofun henque hr hreports le_rfl
    (AmRxQueue.History.received_subset (.fragment t)) fun sdus' hsdus => ?_⟩
  obtain ⟨starts, passed, hp⟩ := hi.passing
  rcases hout with ⟨hd, hone⟩ | ⟨-, hnone⟩
  · rw [hone] at hsdus
    obtain ⟨fragments, rfl, hfragments⟩ := List.map_eq_singleton_iff.1 hsdus
    exact ⟨starts, _, hp.passUp hd hfragments⟩
  · rw [hnone, List.map_eq_nil_iff] at hsdus
    rw [hsdus, List.append_nil]
    exact ⟨starts, passed, hp.heard (AmRxQueue.History.received_subset (.fragment t))⟩

/-- Where the window is moved to does not depend on the tries. -/
theorem leftPending_firstTry (s : AmRxQueue) (pos : ℕ) :
    AmRxQueue.leftPending s.firstTry pos =
      (AmRxQueue.leftPending s pos).map LteRlcAmPdu.firstTry := by
  unfold AmRxQueue.leftPending
  rw [AmRxQueue.leavePositions_firstTry]
  rfl

/-- **A command to move the window comes.** -/
theorem inv_mrw (hi : Inv Q L h l sdus) (hle : P.txWindowSize ≤ Q.rxWindowSize) {k n : ℕ}
    (hn : n ≤ l.tx.txWindowDesc.seqNum) (hmay : MayStart L h n) {pdu : LteRlcAmPdu}
    (hpdu : pdu.short = (AmTxQueue.mrwPdu P k (i32 n)).short)
    (hcan : l.rx.CanMove Q (i32 n)) (now : ℕ) :
    ∃ h' l' sdus', l.atReceiver Q now (.enque pdu) = some (l', sdus') ∧
      Inv Q L h' l' (sdus ++ sdus') := by
  have hlt := hi.sending.lt
  have hused := hi.sending.used_eq
  have hused_le := hi.sending.ready.window.used_le
  have hstart := hi.sending.le_start
  have hr := hi.receiving
  have hstored := hr.holds.stored
  -- the command moves the window by `n - h.start` positions
  have hshift : h.start < n → l.rx.shiftTo (i32 n) = n - h.start ∧
      0 < i32 (l.rx.shiftTo (i32 n)) := fun hgt => by
    obtain ⟨hsub, hint⟩ := AmRxQueue.sub32_near (hr.near hn) hgt.le
    have hfirst : l.rx.rxWindowDesc.firstSeqNum = u32 h.start := hstored.first
    unfold AmRxQueue.shiftTo
    rw [ofInt32_i32, hfirst, hint]
    exact ⟨hsub, by omega⟩
  have hstale : h.start < n → AmRxQueue.NoStale Q h n := fun hgt t ht hW hmem => by
    obtain ⟨hpos, hmoves⟩ := hshift hgt
    have hnone := (hcan.2 hmoves).1 (t - h.start) (by omega) (by omega)
    have hmark := (hstored.received (t - h.start)).2 (by rwa [Nat.add_sub_cancel' (by omega)])
    rw [show flag l.rx.firstTry.received (t - h.start) = false from hnone] at hmark
    cases hmark
  have hgoes : h.start < n → ∀ pdu ∈ AmRxQueue.leftPending l.rx.firstTry (n - h.start),
      (n : ℤ) ≤ pdu.lastSn := fun hgt pdu hmem => by
    obtain ⟨hpos, hmoves⟩ := hshift hgt
    rw [leftPending_firstTry, ← hpos] at hmem
    obtain ⟨pdu', hmem', rfl⟩ := List.mem_map.1 hmem
    have hlast := (hcan.2 hmoves).2 pdu' hmem'
    rw [i32_of_lt (by omega)] at hlast
    exact hlast
  obtain ⟨s', out, hs', hr', hreports, hnone⟩ := AmRxQueue.enqueMrw_receiving hr hn (by omega) hmay
    hcan.1 hstale hgoes k now
  have henque : AmRxQueue.handle Q now l.rx.firstTry (AmRxQueue.Event.enque pdu).firstTry =
      .ok (s', out) := by
    cases pdu
    cases hpdu
    exact hs'
  refine ⟨_, hi.atReceiver nofun henque hr' hreports (le_max_left _ _) subset_rfl
    fun sdus' hsdus => ?_⟩
  rw [hnone, List.map_eq_nil_iff] at hsdus
  rw [hsdus, List.append_nil]
  obtain ⟨starts, passed, hp⟩ := hi.passing
  exact ⟨starts, passed, hp.heard subset_rfl⟩

/-! ### Runs -/

/-- **One event**: nothing throws, and the invariant is kept. -/
theorem inv_handle (hi : Inv Q L h l sdus) (hW : P.txWindowSize ≤ 200)
    (hle : P.txWindowSize ≤ Q.rxWindowSize) {e : Event} (hen : e.Enabled l) (hok : e.Ok P Q l) :
    ∃ l' sdus', l.handle P Q e = some (l', sdus') ∧
      ∃ (L' : Layout P) (h' : AmRxQueue.History), Inv Q L' h' l' (sdus ++ sdus') := by
  -- the events that bring nothing up
  have hsender : ∀ e, (∃ l', l.atSender P e = some (l', []) ∧ Inv Q L h l' sdus) →
      ∃ l' sdus', l.atSender P e = some (l', sdus') ∧
        ∃ (L' : Layout P) (h' : AmRxQueue.History), Inv Q L' h' l' (sdus ++ sdus') := by
    rintro e ⟨l', hl', hi'⟩
    exact ⟨l', [], hl', L, h, (List.append_nil sdus).symm ▸ hi'⟩
  cases e with
  | enque d =>
    obtain ⟨L', l', hl', hi'⟩ := inv_enque hi hW hok.1 hok.2.1 hok.2.2
    exact ⟨l', [], hl', L', h, (List.append_nil sdus).symm ▸ hi'⟩
  | pduTimer => exact hsender _ (inv_pduTimer hi hen hok)
  | mrwTimer => exact hsender _ (inv_mrwTimer hi hen)
  | bufferStatusTimer => exact hsender _ (inv_bufferStatusTimer hi hok)
  | sendPdus size =>
    obtain ⟨l', hl', hi'⟩ := inv_sendPdus hi hen size
    exact ⟨l', [], hl', L, h, (List.append_nil sdus).symm ▸ hi'⟩
  | statusTimer now =>
    obtain ⟨l', sdus', hl', hi'⟩ := inv_statusTimer hi hen now
    exact ⟨l', sdus', hl', L, h, hi'⟩
  | toSender i =>
    have hget : l.toTx[i]? = some l.toTx[i] := List.getElem?_eq_getElem hen
    unfold handle
    dsimp only
    rw [hget]
    exact hsender _ (inv_toSender hi (hi.toTx _ (List.getElem_mem hen)) hok)
  | toReceiver now i =>
    have hget : l.toRx[i]? = some l.toRx[i] := List.getElem?_eq_getElem hen
    unfold handle
    dsimp only
    rw [hget]
    obtain ⟨q, hq, hpdu⟩ := hi.toRx _ (List.getElem_mem hen)
    have hshort : l.toRx[i].short = q.short := by
      rcases hpdu with hpdu | hpdu
      · rw [hpdu]
      · rw [hpdu]
        rfl
    -- what arrives is a fragment or an MRW, perhaps sent again
    cases hq with
    | data t ht htry =>
      have hfirst : l.toRx[i].firstTry = L.pdu t := by
        rcases hpdu with hpdu | hpdu
        · rw [hpdu, htry]
        · rw [hpdu]
          exact congrArg LteRlcAmPdu.short htry
      obtain ⟨h', l', sdus', hl', hi'⟩ := inv_data hi hle ht hfirst now
      exact ⟨l', sdus', hl', L, h', hi'⟩
    | mrw k n hn hmay =>
      have hmrw := hok _ hget
      have htype : l.toRx[i].amType = .MRW := congrArg LteRlcAmPdu.amType hshort
      have hlast : l.toRx[i].lastSn = i32 n := congrArg LteRlcAmPdu.lastSn hshort
      obtain ⟨h', l', sdus', hl', hi'⟩ := inv_mrw hi hle hn hmay hshort (hlast ▸ hmrw htype) now
      exact ⟨l', sdus', hl', L, h', hi'⟩

theorem step_eq_some {l l' : AmLink} {e : Event} {o : List (List LteRlcAmPdu)} :
    (machine P Q).step l e = some (l', o) ↔ e.Enabled l ∧ l.handle P Q e = some (l', o) := by
  simp [machine]

theorem inv_exec (hW : P.txWindowSize ≤ 200) (hle : P.txWindowSize ≤ Q.rxWindowSize)
    {es : List Event} {os : List (List LteRlcAmPdu)}
    (hrun : (machine P Q).exec (initial P Q) es = some (l, os))
    (hok : ∀ s e s' o, (machine P Q).Takes (initial P Q) es s e s' o → e.Ok P Q s) :
    ∃ (L : Layout P) (h : AmRxQueue.History), Inv Q L h l os := by
  refine Machine.exec_induction_of (C := fun s e => Event.Ok P Q s e)
    (J := fun _ l os => ∃ (L : Layout P) (h : AmRxQueue.History), Inv Q L h l os)
    ⟨_, _, inv_initial⟩ ?_ hok hrun
  rintro es l os e l' o - ⟨L, h, hi⟩ hok hstep
  obtain ⟨hen, hhandle⟩ := step_eq_some.1 hstep
  obtain ⟨l₁, o₁, heq, hi'⟩ := inv_handle hi hW hle hen hok
  obtain ⟨rfl, rfl⟩ := Prod.mk.inj (Option.some.inj (heq.symm.trans hhandle))
  exact hi'

/-- The pending fragments are consecutive ones of one SDU, the last ones before the window of the
receiver, in which that SDU goes on. -/
def PendingAtStart (P : AmTxParams) (l : AmLink) : Prop :=
  ∃ (d : LteRlcAmSdu) (sn m n : ℕ),
    l.rx.pendingPduBuffer.map LteRlcAmPdu.firstTry =
      (List.range' m n).map (AmTxQueue.fragment P d sn (nrFragments P d)) ∧
    sn + m + n = l.rx.rxWindowDesc.firstSeqNum ∧ m + n < nrFragments P d ∧
    (0 < n → d ∈ l.accepted)

theorem Inv.pendingAtStart (hi : Inv Q L h l sdus) : PendingAtStart P l := by
  obtain ⟨a, hge, hle, hpending⟩ := hi.receiving.together
  obtain ⟨starts, passed, hp⟩ := hi.passing
  have hlt := hi.sending.lt
  have hstart := hi.sending.start_le
  have hnext : h.start < L.next h.start := L.lt_next'
  have hlen : L.next h.start = L.first h.start + nrFragments P (L.sdu h.start) := rfl
  have hfirst : l.rx.rxWindowDesc.firstSeqNum = h.start :=
    hi.receiving.holds.stored.first.trans (u32_of_lt (by omega))
  refine ⟨L.sdu h.start, L.first h.start, a - L.first h.start, h.start - a, ?_, by omega, by omega,
    fun hpos => ?_⟩
  · refine Eq.trans hpending ?_
    rw [← Layout.map_pdu (L := L) (by omega) fun t ht hts => ⟨L.first_eq (by omega) (by omega),
      L.sdu_eq (by omega) (by omega)⟩, Nat.add_sub_cancel' hge]
  · rw [← L.sdu_eq (le_refl (L.first h.start)) (by omega)]
    exact hp.accepted.subset (List.mem_map_of_mem
      ((hp.mem_starts _).2 ⟨by omega, L.first_first⟩))

/-- **RLC AM from end to end**, as long as the numbers suffice and the window of the receiver can be
moved to where it is told: whatever is lost, doubled or reordered, each SDU of the sender is passed
up at most once and as a whole, no fragments but those of the SDU at the start of the window are
pending, and no handler throws. -/
theorem exchange_sound (hW : P.txWindowSize ≤ 200) (hle : P.txWindowSize ≤ Q.rxWindowSize)
    {es : List Event} {os : List (List LteRlcAmPdu)}
    (hrun : (machine P Q).exec (initial P Q) es = some (l, os))
    (hok : ∀ s e s' o, (machine P Q).Takes (initial P Q) es s e s' o → e.Ok P Q s) :
    (∃ sent : List (LteRlcAmSdu × ℕ),
      os.map (List.map LteRlcAmPdu.firstTry) =
        sent.map (fun p => AmTxQueue.fragments P p.1 p.2) ∧
      (sent.map Prod.fst).Subperm l.accepted) ∧
    PendingAtStart P l ∧
    ∀ e : Event, e.Enabled l → e.Ok P Q l → (l.handle P Q e).isSome := by
  obtain ⟨L, h, hi⟩ := inv_exec hW hle hrun hok
  obtain ⟨starts, passed, hp⟩ := hi.passing
  have hreceived := hi.receiving.below.received_lt
  have hlt := hi.sending.lt
  refine ⟨⟨passed.map fun a => (L.sdu a, a), ?_, ?_⟩, hi.pendingAtStart, fun e hen hok => ?_⟩
  · rw [hp.sdus, List.map_map]
    refine List.map_congr_left fun a ha => ?_
    have ha' := hp.lt hreceived ha
    exact L.fragments_eq (hp.complete a ha).1 (by omega)
  · rw [List.map_map]
    exact hp.subperm hreceived
  · obtain ⟨l', o, hhandle, -⟩ := inv_handle hi hW hle hen hok
    rw [hhandle]
    rfl

/-- The first fragment is lost, the second SDU overtakes the first one, PDUs arrive twice, and the
window of both ends moves. -/
def overtaken : List Event :=
  [.enque ⟨0, 60⟩, .enque ⟨1, 30⟩, .sendPdus 100, .sendPdus 100, .sendPdus 100, .toReceiver 0 2,
    .toReceiver 1 2, .toReceiver 2 1, .pduTimer, .sendPdus 9, .sendPdus 100, .toReceiver 3 4,
    .toReceiver 4 3, .statusTimer 20, .toSender 0, .sendPdus 100, .toReceiver 21 5, .toSender 1,
    .toReceiver 22 5, .toReceiver 22 0]

theorem exchange_sound_overtaken : ∃ l os,
    (machine AmTxQueue.smallParams AmRxQueue.smallRxParams).exec
      (initial AmTxQueue.smallParams AmRxQueue.smallRxParams) overtaken = some (l, os) ∧
    os.map (List.map LteRlcAmPdu.snoFragment) = [[2], [0, 1]] ∧
    PendingAtStart AmTxQueue.smallParams l := by
  have hrun : ((machine AmTxQueue.smallParams AmRxQueue.smallRxParams).exec
      (initial AmTxQueue.smallParams AmRxQueue.smallRxParams) overtaken).map
        (fun r => r.2.map (List.map LteRlcAmPdu.snoFragment)) = some [[2], [0, 1]] := by
    decide +kernel
  obtain ⟨⟨l, os⟩, hexec, hout⟩ := Option.map_eq_some_iff.1 hrun
  have hmeets : (machine AmTxQueue.smallParams AmRxQueue.smallRxParams).Meets
      (fun l e => Event.Ok AmTxQueue.smallParams AmRxQueue.smallRxParams l e)
      (initial AmTxQueue.smallParams AmRxQueue.smallRxParams) overtaken := by decide +kernel
  exact ⟨l, os, hexec, hout, (exchange_sound (by decide) (by decide) hexec
    fun s e s' o ht => hmeets.takes ht).2.1⟩

/-- A sender that sends no fragment again. -/
def singleTryParams : AmTxParams := { AmTxQueue.smallParams with maxRtx := 0 }

/-- A sender with a window of more than 200 positions. -/
def wideParams : AmTxParams :=
  { AmTxQueue.smallParams with txWindowSize := 300, txWindowSize_lt := by decide }

/-- A receiver with a window of two positions. -/
def narrowRxParams : AmRxParams :=
  { AmRxQueue.smallRxParams with rxWindowSize := 2, rxWindowSize_lt := two_lt_int }

/-- After the run `e` can happen, and throws. -/
def throwsAfter (P : AmTxParams) (Q : AmRxParams) (es : List Event) (e : Event) : Bool :=
  ((machine P Q).exec (initial P Q) es).any fun r =>
    decide (e.Enabled r.1) && (r.1.handle P Q e).isNone

/-- The first fragments of two SDUs arrive.  The first SDU is discarded and the window moves past
it, then the second fragment of the other SDU is missing. -/
def skipped : List Event :=
  [.enque ⟨0, 60⟩, .enque ⟨1, 60⟩, .sendPdus 100, .sendPdus 100, .sendPdus 100, .sendPdus 100,
    .toReceiver 0 0, .toReceiver 1 2, .pduTimer, .sendPdus 100, .toReceiver 2 4, .toSender 0,
    .statusTimer 20, .toSender 1, .sendPdus 100, .toReceiver 21 5]

/-- Nine fragments arrive and leave the window, and eight more are sent. -/
def turnedOver : List Event :=
  .enque ⟨0, 270⟩ :: List.replicate 9 (.sendPdus 100) ++ (List.range 9).map (.toReceiver 0) ++
    [.statusTimer 20, .toSender 0, .sendPdus 100, .toReceiver 21 9, .toSender 1, .enque ⟨1, 240⟩] ++
    List.replicate 8 (.sendPdus 100)

/-- An SDU that comes late is passed up after the next one.  A fragment of an SDU that is skipped
stays pending with those of the next one, and the last fragment of that throws.  So does a fragment
at a position where a mark has stayed behind, a command that comes before any fragment, an SDU for a
window of more than 200 positions, and a fragment beyond a window that is smaller than that of the
sender. -/
theorem exchange_fails :
    ((machine AmTxQueue.smallParams AmRxQueue.smallRxParams).exec
      (initial AmTxQueue.smallParams AmRxQueue.smallRxParams)
      [.enque ⟨0, 30⟩, .enque ⟨1, 30⟩, .sendPdus 100, .sendPdus 100, .toReceiver 0 1,
        .toReceiver 1 0]).map (fun r => (r.2.map (List.map LteRlcAmPdu.snoMainPacket),
          r.1.accepted.map LteRlcAmSdu.snoMainPacket)) = some ([[1], [0]], [0, 1]) ∧
    ¬[1, 0].Sublist [0, 1] ∧
    ((machine singleTryParams AmRxQueue.smallRxParams).exec
      (initial singleTryParams AmRxQueue.smallRxParams) skipped).map
        (fun r => r.1.rx.pendingPduBuffer.map LteRlcAmPdu.snoMainPacket) = some [0, 1] ∧
    throwsAfter singleTryParams AmRxQueue.smallRxParams skipped (.toReceiver 22 3) ∧
    throwsAfter AmTxQueue.smallParams AmRxQueue.smallRxParams turnedOver (.toReceiver 30 17) ∧
    throwsAfter singleTryParams AmRxQueue.smallRxParams
      [.enque ⟨0, 30⟩, .sendPdus 100, .pduTimer, .sendPdus 100] (.toReceiver 0 1) ∧
    throwsAfter wideParams AmRxQueue.smallRxParams [] (.enque ⟨0, 7500⟩) ∧
    throwsAfter AmTxQueue.smallParams narrowRxParams
      [.enque ⟨0, 90⟩, .sendPdus 100, .sendPdus 100, .sendPdus 100] (.toReceiver 0 2) := by
  decide +kernel

end AmLink

end V2nLte
