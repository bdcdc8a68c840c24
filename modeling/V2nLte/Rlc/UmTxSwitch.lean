import V2nLte.Lte.NodeIds
import V2nLte.Machine.Basic
import V2nLte.Rlc.UmTx

/-!
# Mode switches at the sending side of RLC UM

When the direct connection of two UEs begins or ends, the entity of the old connection is emptied:
its SDUs are thrown away, or they are still sent, and until then the SDUs of the new connection are
put into its holding queue.  The entity of the new connection numbers its PDUs from `0` again.

What an entity has done is kept in an `UmTxAccount`, and after every operation its queue, its
counter and what it notes about a cut SDU agree with the account.

* `UmTxD2D.Represents.step` : every operation keeps this.
* `UmTxD2D.txQueue_represented` : so it is in every run, and every PDU has the next number of its
  numbering and fits the request.
* `UmTxD2D.numbered_again` : the same number is used again after a switch.
-/

namespace V2nLte

/-- The counter `queueLength_`, an `unsigned int`. -/
def UmTxEntity.queueLengthCounter (t : UmTxEntity) : ℕ := u32 t.queueLength

/-- `UmTxEntity` with what it needs for mode switches. -/
structure UmTxD2D where
  /-- The entity. -/
  tx : UmTxEntity
  /-- The end of the queue is to be reported. -/
  notifyEmptyBuffer : Bool := false
  /-- SDUs are held back. -/
  holdingDownstreamInPackets : Bool := false
  /-- The SDUs that are held back. -/
  sduHoldingQueue : List RlcSdu := []

/-- What the entity does. -/
inductive UmTxNote where
  | enqueued (pkt : RlcSdu)
  | refused (pkt : RlcSdu)
  /-- A PDU, for a request of some size. -/
  | pdu (pduLength : ℤ) (pdu : UmDataPdu)
  /-- The message of one bit that says that there is no room. -/
  | empty
  /-- The queue is cleared, with so many bytes that have not been sent. -/
  | cleared (bytes : ℕ)
  /-- The PDUs are numbered from `0` again. -/
  | restarted
  /-- The RLC is told that the buffer is empty. -/
  | resume
  deriving DecidableEq

namespace UmTxD2D

variable (t : UmTxD2D)

/-- An SDU arrives for the queue of SDUs. -/
def enque (pkt : RlcSdu) : UmTxD2D × List UmTxNote :=
  let (tx, accepted) := t.tx.enque pkt
  ({ t with tx }, if accepted then [.enqueued pkt] else [.refused pkt])

/-- `enqueHoldingPackets`. -/
def enqueHoldingPackets (pkt : RlcSdu) : UmTxD2D :=
  { t with sduHoldingQueue := t.sduHoldingQueue ++ [pkt] }

/-- Enqueue SDUs one after another. -/
def enqueAll : UmTxD2D → List RlcSdu → UmTxD2D × List UmTxNote
  | t, [] => (t, [])
  | t, pkt :: pkts =>
    let (t', o) := t.enque pkt
    let (t'', os) := enqueAll t' pkts
    (t'', o ++ os)

/-- `resumeDownstreamInPackets`. -/
def resumeDownstreamInPackets : UmTxD2D × List UmTxNote :=
  enqueAll { t with holdingDownstreamInPackets := false, sduHoldingQueue := [] } t.sduHoldingQueue

/-- What is sent for a request. -/
def reply (pduLength : ℤ) : Option UmDataPdu → UmTxNote
  | some pdu => .pdu pduLength pdu
  | none => .empty

/-- `rlcPduMake`; `samePeer` says whether the RLC finds this entity, too, when it resumes those of
the peer. -/
def rlcPduMake (pduLength : ℤ) (samePeer : Bool) : Option (UmTxD2D × List UmTxNote) :=
  match t.tx.rlcPduMake pduLength with
  | none => none
  | some (tx, r) =>
    let t := { t with tx }
    let o := [reply pduLength r]
    if t.notifyEmptyBuffer && t.tx.sduQueue.isEmpty then
      let t := { t with notifyEmptyBuffer := false }
      if samePeer && t.holdingDownstreamInPackets then
        let (t, o') := t.resumeDownstreamInPackets
        some (t, o ++ .resume :: o')
      else some (t, o ++ [.resume])
    else some (t, o)

/-- `clearQueue`. -/
def clearQueue : UmTxD2D × List UmTxNote :=
  ({ t with
    tx := { t.tx with
      sduQueue := [], fragmentInfo := none, queueLength := 0, firstIsFragment := false } },
    [.cleared t.tx.backlog])

/-- `rlcHandleD2DModeSwitch`; `emptying` is what the RLC answers to `isEmptyingTxBuffer`. -/
def rlcHandleD2DModeSwitch (ownerNodeId : MacNodeId) (oldConnection clearBuffer emptying : Bool) :
    UmTxD2D × List UmTxNote :=
  if oldConnection then
    if getNodeTypeById ownerNodeId = .ENODEB then (t, [])
    else if clearBuffer then t.clearQueue
    else if !t.tx.sduQueue.isEmpty then ({ t with notifyEmptyBuffer := true }, [])
    else (t, [])
  else
    let t := { t with tx := { t.tx with sno := 0 } }
    if !clearBuffer && emptying then ({ t with holdingDownstreamInPackets := true }, [.restarted])
    else (t, [.restarted])

/-- What can happen to the entity. -/
inductive Event where
  | enque (pkt : RlcSdu)
  | enqueHoldingPackets (pkt : RlcSdu)
  | rlcPduMake (pduLength : ℤ) (samePeer : Bool)
  | clearQueue
  | resumeDownstreamInPackets
  | startHoldingDownstreamInPackets
  | rlcHandleD2DModeSwitch (oldConnection clearBuffer emptying : Bool)

/-- The entity as a machine; an exception ends the run. -/
def machine (ownerNodeId : MacNodeId) : Machine UmTxD2D Event UmTxNote where
  step t
    | .enque pkt => some (t.enque pkt)
    | .enqueHoldingPackets pkt => some (t.enqueHoldingPackets pkt, [])
    | .rlcPduMake pduLength samePeer => t.rlcPduMake pduLength samePeer
    | .clearQueue => some t.clearQueue
    | .resumeDownstreamInPackets => some t.resumeDownstreamInPackets
    | .startHoldingDownstreamInPackets => some ({ t with holdingDownstreamInPackets := true }, [])
    | .rlcHandleD2DModeSwitch old clear emptying =>
      some (t.rlcHandleD2DModeSwitch ownerNodeId old clear emptying)

/-- A new entity with a queue of some size. -/
def new (queueSize : ℕ) : UmTxD2D where
  tx := { queueSize := queueSize }

end UmTxD2D

/-! ### The account -/

/-- What an entity has done. -/
structure UmTxAccount where
  /-- The SDUs taken since the queue was cleared. -/
  sdus : List RlcSdu := []
  /-- The bytes of the PDUs since then. -/
  sent : ℕ := 0
  /-- The PDUs since the numbering has been started again. -/
  numbered : ℕ := 0
  /-- The bytes of all the SDUs. -/
  totalEnqueued : ℕ := 0
  /-- The bytes of all the PDUs. -/
  totalSent : ℕ := 0
  /-- The bytes that were cleared. -/
  totalCleared : ℕ := 0

namespace UmTxAccount

/-- Enter a note. -/
def enter (c : UmTxAccount) : UmTxNote → UmTxAccount
  | .enqueued pkt =>
    { c with
      sdus := c.sdus ++ [pkt], totalEnqueued := c.totalEnqueued + pkt.lengthMainPacket }
  | .pdu _ pdu =>
    { c with
      sent := c.sent + chunkBytes pdu.sdus, numbered := c.numbered + 1
      totalSent := c.totalSent + chunkBytes pdu.sdus }
  | .cleared bytes => { c with sdus := [], sent := 0, totalCleared := c.totalCleared + bytes }
  | .restarted => { c with numbered := 0 }
  | _ => c

/-- The account after a run with the notes `os`. -/
def of (os : List UmTxNote) : UmTxAccount := os.foldl enter {}

/-- The bytes of SDUs. -/
def bytes (pkts : List RlcSdu) : ℕ := (pkts.map RlcSdu.lengthMainPacket).sum

/-- The front SDU of `t` has been partly sent: there are more bytes in PDUs than those of the SDUs
that have left the queue. -/
def PartlySent (c : UmTxAccount) (t : UmTxEntity) : Prop :=
  bytes (c.sdus.take (c.sdus.length - t.sduQueue.length)) < c.sent

end UmTxAccount

/-! ### The queue and the account -/

namespace UmTxD2D

open UmTxAccount

/-- **The entity agrees with its account.** -/
structure Represents (t : UmTxD2D) (c : UmTxAccount) : Prop where
  /-- The place in the stream of the SDUs up to which they are in PDUs. -/
  place : ∃ a, UmTxEntity.At c.sdus t.tx a ∧ c.sent = bytes (c.sdus.take a.1) + a.2
  queueLength : t.tx.queueLength = (t.tx.sduQueue.map RlcSdu.byteLength).sum
  sno : t.tx.sno = u32 c.numbered
  total : c.totalSent + t.tx.backlog + c.totalCleared = c.totalEnqueued

/-- A PDU has the next number, some data and at most the length that was asked for. -/
def Fine (c : UmTxAccount) : UmTxNote → Prop
  | .pdu pduLength pdu =>
    pdu.pduSequenceNumber = u32 c.numbered ∧ (pdu.byteLength : ℤ) ≤ pduLength ∧
      0 < chunkBytes pdu.sdus
  | _ => True

/-- All the notes are fine, the account being `c` before them. -/
def FineFrom (c : UmTxAccount) : List UmTxNote → Prop
  | [] => True
  | x :: os => Fine c x ∧ FineFrom (c.enter x) os

variable {t t' : UmTxD2D} {c : UmTxAccount} {o os : List UmTxNote} {sdus : List RlcSdu}

theorem fineFrom_append :
    FineFrom c (os ++ o) ↔ FineFrom c os ∧ FineFrom (os.foldl enter c) o := by
  induction os generalizing c with
  | nil => simp [FineFrom]
  | cons x os ih => simp [FineFrom, ih, and_assoc]

theorem bytes_append (p q : List RlcSdu) : bytes (p ++ q) = bytes p + bytes q := by
  simp [bytes]

/-- The chunks are the bytes between the two places. -/
theorem chunkBytes_of_cut {a b : ℕ × ℕ} {cs : List (RlcSdu × ℕ)} (h : Cut sdus a cs b) :
    bytes (sdus.take a.1) + a.2 + chunkBytes cs = bytes (sdus.take b.1) + b.2 := by
  induction h with
  | nil a => rfl
  | @whole k o p cs b hp ho h ih =>
    have htake : sdus.take (k + 1) = sdus.take k ++ [p] := by
      rw [List.take_add_one, hp]
      rfl
    rw [htake, bytes_append] at ih
    simp only [chunkBytes, List.map_cons, List.sum_cons, bytes, List.map_nil, List.sum_nil,
      Nat.add_zero] at ih ⊢
    omega
  | part hp hn ho =>
    simp only [chunkBytes, List.map_cons, List.map_nil, List.sum_cons, List.sum_nil]
    omega

/-- The loop of `rlcPduMake` keeps the counter right. -/
theorem queueLength_fill {q : List RlcSdu} {queueLength : ℕ} {fragmentInfo : Option (RlcSdu × ℕ)}
    {firstIsFragment : Bool} {pduLength : ℤ} {f : UmTxEntity.Filled}
    (h : UmTxEntity.fill q queueLength fragmentInfo firstIsFragment pduLength = some f)
    (hq : queueLength = (q.map RlcSdu.byteLength).sum) :
    f.queueLength = (f.sduQueue.map RlcSdu.byteLength).sum := by
  induction q generalizing queueLength fragmentInfo firstIsFragment pduLength f with
  | nil =>
    obtain rfl := Option.some.inj h
    exact hq
  | cons pkt q ih =>
    rw [UmTxEntity.fill] at h
    split at h
    · obtain rfl := Option.some.inj h
      exact hq
    · split at h
      · cases h
      · split at h
        · split at h
          · cases h
          · rename_i f' hf'
            obtain rfl := Option.some.inj h
            refine ih (f := f') hf' ?_
            rw [hq, List.map_cons, List.sum_cons, Nat.add_sub_cancel_left]
        · obtain rfl := Option.some.inj h
          exact hq

theorem queueLength_rlcPduMake {tx tx' : UmTxEntity} {pduLength : ℤ} {r : Option UmDataPdu}
    (h : tx.rlcPduMake pduLength = some (tx', r))
    (hq : tx.queueLength = (tx.sduQueue.map RlcSdu.byteLength).sum) :
    tx'.queueLength = (tx'.sduQueue.map RlcSdu.byteLength).sum := by
  unfold UmTxEntity.rlcPduMake at h
  split at h
  · cases h
  · rename_i f hf
    have hfill := queueLength_fill hf hq
    dsimp only at h
    split at h
    · obtain ⟨rfl, -⟩ := Prod.mk.inj (Option.some.inj h)
      exact hfill
    · obtain ⟨rfl, -⟩ := Prod.mk.inj (Option.some.inj h)
      exact hfill

/-- An operation that is not about the queue. -/
theorem Represents.of_eq (h : t.Represents c) (htx : t'.tx = t.tx) : t'.Represents c := by
  obtain ⟨hplace, hq, hsno, htotal⟩ := h
  exact ⟨htx ▸ hplace, htx ▸ hq, htx ▸ hsno, htx ▸ htotal⟩

theorem bytesLeft_append (q : List RlcSdu) (pkt : RlcSdu) (f : Option (RlcSdu × ℕ))
    (hf : q = [] → f = none) :
    UmTxEntity.bytesLeft (q ++ [pkt]) f = UmTxEntity.bytesLeft q f + pkt.lengthMainPacket := by
  cases q with
  | nil =>
    rw [hf rfl]
    simp [UmTxEntity.bytesLeft]
  | cons p q =>
    cases f with
    | none => simp [UmTxEntity.bytesLeft, Nat.add_assoc]
    | some f => simp [UmTxEntity.bytesLeft, Nat.add_assoc]

/-- Without an SDU nothing is cut. -/
theorem fragmentInfo_of_nil {a : ℕ × ℕ} {tx : UmTxEntity} (h : UmTxEntity.At sdus tx a)
    (hq : tx.sduQueue = []) : tx.fragmentInfo = none := by
  rcases h.frag with ⟨-, hnone, -⟩ | ⟨p, -, hp, -⟩
  · exact hnone
  · have hle : sdus.length ≤ a.1 := List.drop_eq_nil_iff.1 (h.queue.symm.trans hq)
    rw [List.getElem?_eq_none hle] at hp
    cases hp

theorem Represents.enque (h : t.Represents c) (pkt : RlcSdu) :
    (t.enque pkt).1.Represents ((t.enque pkt).2.foldl enter c) ∧ FineFrom c (t.enque pkt).2 := by
  obtain ⟨⟨a, hat, hsent⟩, hq, hsno, htotal⟩ := h
  cases hacc : (t.tx.enque pkt).2 with
  | false =>
    have hsame := UmTxEntity.enque_of_not_accepted hacc
    have henq : t.enque pkt = ({ t with tx := (t.tx.enque pkt).1 }, [.refused pkt]) := by
      simp [UmTxD2D.enque, hacc]
    rw [henq, hsame]
    exact ⟨⟨⟨a, hat, hsent⟩, hq, hsno, htotal⟩, trivial, trivial⟩
  | true =>
    have henq : t.enque pkt = ({ t with tx := (t.tx.enque pkt).1 }, [.enqueued pkt]) := by
      simp [UmTxD2D.enque, hacc]
    have htx : (t.tx.enque pkt).1 = { t.tx with
        sduQueue := t.tx.sduQueue ++ [pkt]
        queueLength := t.tx.queueLength + pkt.byteLength } := by
      unfold UmTxEntity.enque at hacc ⊢
      split at hacc
      · rw [if_pos ‹_›]
      · cases hacc
    have hat' := hat.enque hacc
    rw [henq]
    refine ⟨⟨⟨a, hat', ?_⟩, ?_, ?_, ?_⟩, trivial, trivial⟩
    · exact hsent.trans (by rw [List.foldl_cons, List.foldl_nil, enter,
        List.take_append_of_le_length hat.le])
    · dsimp only
      rw [htx]
      simp [hq]
    · exact (UmTxEntity.sno_enque t.tx pkt).trans hsno
    · have hleft := bytesLeft_append t.tx.sduQueue pkt t.tx.fragmentInfo (fragmentInfo_of_nil hat)
      simp only [List.foldl_cons, List.foldl_nil, enter, UmTxEntity.backlog, htx] at htotal ⊢
      omega

theorem Represents.enqueAll (h : t.Represents c) (pkts : List RlcSdu) :
    (t.enqueAll pkts).1.Represents ((t.enqueAll pkts).2.foldl enter c) ∧
      FineFrom c (t.enqueAll pkts).2 := by
  induction pkts generalizing t c with
  | nil => exact ⟨h, trivial⟩
  | cons pkt pkts ih =>
    obtain ⟨hrep, hfine⟩ := h.enque pkt
    obtain ⟨hrep', hfine'⟩ := ih hrep
    simp only [UmTxD2D.enqueAll, List.foldl_append]
    exact ⟨hrep', fineFrom_append.2 ⟨hfine, hfine'⟩⟩

theorem Represents.resumeDownstreamInPackets (h : t.Represents c) :
    t.resumeDownstreamInPackets.1.Represents (t.resumeDownstreamInPackets.2.foldl enter c) ∧
      FineFrom c t.resumeDownstreamInPackets.2 := by
  have h' : Represents
      { t with holdingDownstreamInPackets := false, sduHoldingQueue := [] } c := h.of_eq rfl
  exact h'.enqueAll t.sduHoldingQueue

theorem Represents.clearQueue (h : t.Represents c) :
    t.clearQueue.1.Represents (t.clearQueue.2.foldl enter c) ∧ FineFrom c t.clearQueue.2 := by
  obtain ⟨-, -, hsno, htotal⟩ := h
  refine ⟨⟨⟨(0, 0), ⟨Nat.le_refl 0, rfl, .inl ⟨rfl, rfl, rfl⟩⟩, rfl⟩, rfl, hsno, ?_⟩,
    trivial, trivial⟩
  simp only [UmTxD2D.clearQueue, List.foldl_cons, List.foldl_nil, enter, UmTxEntity.backlog,
    UmTxEntity.bytesLeft] at htotal ⊢
  omega

/-- A PDU is entered into the account. -/
theorem Represents.rlcPduMake_tx (h : t.Represents c) (pduLength : ℤ) :
    ∃ tx r, t.tx.rlcPduMake pduLength = some (tx, r) ∧
      Fine c (reply pduLength r) ∧
      ∀ t' : UmTxD2D, t'.tx = tx → t'.Represents (c.enter (reply pduLength r)) := by
  obtain ⟨⟨a, hat, hsent⟩, hq, hsno, htotal⟩ := h
  obtain ⟨tx, r, b, hmake, hspec⟩ := UmTxEntity.rlcPduMake_spec hat pduLength
  refine ⟨tx, r, hmake, ?_⟩
  have hq' := queueLength_rlcPduMake hmake hq
  have hback := hspec.backlog
  cases r with
  | none =>
    obtain ⟨rfl, hno⟩ := hspec.empty rfl
    refine ⟨trivial, ?_⟩
    rintro t' rfl
    refine ⟨⟨b, hspec.place, hsent⟩, hq', hno.trans hsno, ?_⟩
    simp only [UmTxEntity.replyBytes, Nat.add_zero] at hback
    rw [hback]
    exact htotal
  | some pdu =>
    obtain ⟨hno, hno', hne, hcut, -⟩ := hspec.data pdu rfl
    have hbytes := hspec.bytes
    have hpos : 0 < chunkBytes pdu.sdus :=
      Nat.pos_of_ne_zero fun h₀ => hne ((UmTxEntity.Cut.chunkBytes_eq_zero hcut).1 h₀)
    simp only [UmTxEntity.replyBytes] at hback hbytes
    refine ⟨⟨hno.trans hsno, ?_, hpos⟩, ?_⟩
    · rw [UmDataPdu.byteLength]
      push_cast
      omega
    · rintro t' rfl
      refine ⟨⟨b, hspec.place, ?_⟩, hq', ?_, ?_⟩
      · have hchunks := chunkBytes_of_cut hcut
        dsimp only [enter, reply]
        omega
      · dsimp only [enter, reply]
        rw [hno', hsno]
        simp [u32]
      · dsimp only [enter, reply]
        omega

theorem Represents.rlcPduMake (h : t.Represents c) (pduLength : ℤ) (samePeer : Bool) :
    ∃ t' o, t.rlcPduMake pduLength samePeer = some (t', o) ∧ t'.Represents (o.foldl enter c) ∧
      FineFrom c o := by
  obtain ⟨tx, r, hmake, hfine, hrep⟩ := h.rlcPduMake_tx pduLength
  unfold UmTxD2D.rlcPduMake
  rw [hmake]
  dsimp only
  split
  · split
    · obtain ⟨hrep', hfine'⟩ := (hrep { t with tx := tx, notifyEmptyBuffer := false }
        rfl).resumeDownstreamInPackets
      exact ⟨_, _, rfl, hrep', hfine, trivial, hfine'⟩
    · exact ⟨_, _, rfl, hrep { t with tx := tx, notifyEmptyBuffer := false } rfl, hfine, trivial,
        trivial⟩
  · exact ⟨_, _, rfl, hrep { t with tx := tx } rfl, hfine, trivial⟩

theorem Represents.rlcHandleD2DModeSwitch (h : t.Represents c) (ownerNodeId : MacNodeId)
    (old clear emptying : Bool) :
    (t.rlcHandleD2DModeSwitch ownerNodeId old clear emptying).1.Represents
        ((t.rlcHandleD2DModeSwitch ownerNodeId old clear emptying).2.foldl enter c) ∧
      FineFrom c (t.rlcHandleD2DModeSwitch ownerNodeId old clear emptying).2 := by
  have hrestart : ∀ t' : UmTxD2D, t'.tx = { t.tx with sno := 0 } →
      t'.Represents (c.enter .restarted) := by
    obtain ⟨⟨a, hat, hsent⟩, hq, hsno, htotal⟩ := h
    intro t' htx
    refine ⟨⟨a, ⟨hat.le, ?_, ?_⟩, hsent⟩, ?_, ?_, ?_⟩
    · rw [htx]
      exact hat.queue
    · rw [htx]
      exact hat.frag
    · rw [htx]
      exact hq
    · rw [htx]
      rfl
    · rw [htx]
      exact htotal
  unfold UmTxD2D.rlcHandleD2DModeSwitch
  split
  · split
    · exact ⟨h, trivial⟩
    · split
      · exact h.clearQueue
      · split
        · exact ⟨h.of_eq rfl, trivial⟩
        · exact ⟨h, trivial⟩
  · dsimp only
    split
    · exact ⟨hrestart _ rfl, trivial, trivial⟩
    · exact ⟨hrestart _ rfl, trivial, trivial⟩

/-- **The step**: no operation throws, and the entity and its account go on together. -/
theorem Represents.step (h : t.Represents c) (ownerNodeId : MacNodeId) (e : Event) :
    ∃ t' o, (machine ownerNodeId).step t e = some (t', o) ∧ t'.Represents (o.foldl enter c) ∧
      FineFrom c o := by
  cases e with
  | enque pkt => exact ⟨_, _, rfl, h.enque pkt⟩
  | enqueHoldingPackets pkt => exact ⟨_, _, rfl, h.of_eq rfl, trivial⟩
  | rlcPduMake pduLength samePeer => exact h.rlcPduMake pduLength samePeer
  | clearQueue => exact ⟨_, _, rfl, h.clearQueue⟩
  | resumeDownstreamInPackets => exact ⟨_, _, rfl, h.resumeDownstreamInPackets⟩
  | startHoldingDownstreamInPackets => exact ⟨_, _, rfl, h.of_eq rfl, trivial⟩
  | rlcHandleD2DModeSwitch old clear emptying =>
    exact ⟨_, _, rfl, h.rlcHandleD2DModeSwitch ownerNodeId old clear emptying⟩

theorem Represents.exec (h : t.Represents c) (ownerNodeId : MacNodeId) (es : List Event) :
    ∃ t' os, (machine ownerNodeId).exec t es = some (t', os) ∧
      t'.Represents (os.foldl enter c) ∧ FineFrom c os := by
  induction es generalizing t c with
  | nil => exact ⟨t, [], rfl, h, trivial⟩
  | cons e es ih =>
    obtain ⟨t₁, o, hst, hrep, hfine⟩ := h.step ownerNodeId e
    obtain ⟨t', os, hex, hrep', hfine'⟩ := ih hrep
    refine ⟨t', o ++ os, Machine.exec_cons_eq_some.2 ⟨t₁, o, os, hst, hex, rfl⟩, ?_, ?_⟩
    · rw [List.foldl_append]
      exact hrep'
    · exact fineFrom_append.2 ⟨hfine, hfine'⟩

theorem represents_new (queueSize : ℕ) : (new queueSize).Represents {} where
  place := ⟨(0, 0), ⟨Nat.le_refl 0, rfl, .inl ⟨rfl, rfl, rfl⟩⟩, rfl⟩
  queueLength := rfl
  sno := rfl
  total := rfl

/-- The queue, its counter and what is noted about a cut SDU, compared with what the entity has
done. -/
structure Represented (t : UmTxD2D) (c : UmTxAccount) : Prop where
  /-- The counter is right, as far as an `unsigned int` can be. -/
  queueLength : t.tx.queueLengthCounter = u32 (t.tx.sduQueue.map RlcSdu.byteLength).sum
  /-- A cut is noted iff the first SDU is marked as a fragment. -/
  fragmentInfo : t.tx.fragmentInfo.isSome = t.tx.firstIsFragment
  /-- It is marked iff some of it has been sent. -/
  partlySent : t.tx.firstIsFragment = true ↔ c.PartlySent t.tx
  /-- What is noted is of the first SDU, and some but not all of that is left. -/
  size : ∀ cut size, t.tx.fragmentInfo = some (cut, size) →
    t.tx.sduQueue.head? = some cut ∧ 0 < size ∧ size < cut.lengthMainPacket
  /-- What has been enqueued has been sent, is queued or has been cleared. -/
  payload : c.totalSent + t.tx.backlog + c.totalCleared = c.totalEnqueued

theorem Represents.agrees (h : t.Represents c) : t.Represented c := by
  obtain ⟨⟨⟨k, o⟩, hat, hsent⟩, hq, -, htotal⟩ := h
  have hk : c.sdus.length - t.tx.sduQueue.length = k := by
    have hle : k ≤ c.sdus.length := hat.le
    rw [hat.queue, List.length_drop]
    omega
  have hpartly : c.PartlySent t.tx ↔ 0 < o := by
    rw [PartlySent, hk, hsent]
    exact Nat.lt_add_right_iff_pos
  refine ⟨congrArg u32 hq, ?_, ?_, fun cut size hcut => ?_, htotal⟩
  · rcases hat.frag with ⟨-, hnone, hfirst⟩ | ⟨p, -, -, -, hsome, hfirst⟩
    · rw [hnone, hfirst]
      rfl
    · rw [hsome, hfirst]
      rfl
  · rw [hpartly, hat.frag.firstIsFragment, decide_eq_true_iff]
  · rcases hat.frag with ⟨-, hnone, -⟩ | ⟨p, hpos, hp, hlt, hsome, -⟩
    · rw [hnone] at hcut
      cases hcut
    · obtain ⟨rfl, rfl⟩ := Prod.mk.inj (Option.some.inj (hsome.symm.trans hcut))
      refine ⟨?_, Nat.sub_pos_of_lt hlt, Nat.sub_lt (Nat.zero_lt_of_lt hlt) hpos⟩
      rw [hat.queue, List.head?_drop, hp]

/-- **The transmit queue in every run**: the operations never throw, the queue agrees with what has
been done, and a PDU holds some data, is not longer than the request and has the number of PDUs
since the last start of the numbering as its sequence number. -/
theorem txQueue_represented (ownerNodeId : MacNodeId) (queueSize : ℕ) (es : List Event) :
    ∃ t os, (machine ownerNodeId).exec (new queueSize) es = some (t, os) ∧
      t.Represented (.of os) ∧
      ∀ os₁ x os₂, os = os₁ ++ x :: os₂ → Fine (.of os₁) x := by
  obtain ⟨t, os, hex, hrep, hfine⟩ := (represents_new queueSize).exec ownerNodeId es
  refine ⟨t, os, hex, hrep.agrees, ?_⟩
  rintro os₁ x os₂ rfl
  exact (fineFrom_append.1 hfine).2.1

/-- An SDU of 10 bytes with a header of one byte. -/
def tenBytes : RlcSdu where
  snoMainPacket := 1
  lengthMainPacket := 10
  byteLength := 11
  pos := by decide
  lt := by decide

/-- An SDU as large as possible. -/
def largeSdu : RlcSdu where
  snoMainPacket := 1
  lengthMainPacket := 2147483647
  byteLength := 2147483647
  pos := by decide
  lt := by decide

/-- **After a switch to the new connection the numbers are used again**; and without a limit of the
queue the counter begins again at `0` after 4 GiB. -/
theorem numbered_again :
    ((machine 1025).exec (new 0) [.enque tenBytes, .rlcPduMake 12 false,
        .rlcHandleD2DModeSwitch false true false, .enque tenBytes, .rlcPduMake 12 false]).map
        Prod.snd =
      some [.enqueued tenBytes, .pdu 12 ⟨0, 0, [(tenBytes, 10)]⟩, .restarted, .enqueued tenBytes,
        .pdu 12 ⟨0, 0, [(tenBytes, 10)]⟩] ∧
    ((machine 1025).exec (new 0) [.enque largeSdu, .enque largeSdu, .enque largeSdu]).map
        (fun r => (r.1.tx.queueLengthCounter, (r.1.tx.sduQueue.map RlcSdu.byteLength).sum)) =
      some (2147483645, 6442450941) := by
  refine ⟨?_, ?_⟩ <;> decide

end UmTxD2D

end V2nLte
