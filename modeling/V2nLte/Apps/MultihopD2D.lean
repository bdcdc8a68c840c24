import Mathlib.Algebra.Order.Ring.Int
import Mathlib.Algebra.Order.Ring.Rat
import Mathlib.Data.List.Perm.Basic
import V2nLte.Machine.Pool

/-!
# Flooding over several hops

`MultihopD2D` sends a message to its neighbours and relays, once and after a random delay, the
messages it receives.  With Trickle it keeps a copy, counts the duplicates and decides at the end
of an interval.

The broadcasts of all nodes may be received in any order, lost and duplicated.  What a node has
sent and scheduled is kept as a history.

* `MultihopD2D.Ok` : the books of a node, kept by every handler.
* `flooding_bounded` : every message is sent at most once by a node, no copy travels more than
  `ttl_` hops, and a copy with hops left leads to one relay or one decision.
-/

namespace V2nLte

/-- A position. -/
structure Coord where
  /-- In metres. -/
  x : ℚ
  /-- In metres. -/
  y : ℚ
  /-- In metres. -/
  z : ℚ
  deriving DecidableEq

/-- `MultihopD2DPacket`.  What is not set is zero. -/
structure MultihopD2DPacket where
  /-- The node that originated the message. -/
  srcId : ℕ
  /-- The identifier of the message. -/
  msgid : UInt32
  /-- Where the node was that originated it. -/
  srcCoord : Coord := ⟨0, 0, 0⟩
  /-- How far from there it is relayed. -/
  maxRadius : ℚ := 0
  /-- The hops that are left. -/
  ttl : ℤ := 0
  /-- The hops so far. -/
  hops : ℕ
  /-- The node that sent this copy. -/
  lastHopSenderId : ℕ
  /-- When the message was originated. -/
  payloadTimestamp : ℚ
  /-- In bytes. -/
  payloadSize : ℕ
  deriving DecidableEq

namespace MultihopD2D

/-- The parameters of an application. -/
structure Params where
  /-- The number of the application. -/
  senderAppId : UInt16
  /-- The node it runs on. -/
  lteNodeId : ℕ
  /-- The size of its messages, in bytes. -/
  msgSize : ℕ := 40
  /-- How far its messages are relayed, if positive. -/
  maxBroadcastRadius : ℚ := -1
  /-- How many hops its messages are relayed, if positive. -/
  ttl : ℤ := 3
  /-- How likely it does not relay a message. -/
  selfishProbability : ℚ := 0
  /-- Relaying is suppressed by other copies. -/
  trickleEnabled : Bool := false
  /-- How many other copies suppress it. -/
  k : ℕ := 3

end MultihopD2D

/-- The state of an application. -/
structure MultihopD2D where
  /-- Whether a received message has been relayed. -/
  relayedMsgMap : UInt32 → Option Bool := fun _ => none
  /-- How often a message has been received; counted with Trickle only. -/
  counter : UInt32 → ℕ := fun _ => 0
  /-- The first copy of a message; kept with Trickle only. -/
  last : UInt32 → Option MultihopD2DPacket := fun _ => none
  /-- The packets that wait for their backoff time. -/
  relayTimers : List MultihopD2DPacket := []
  /-- The messages whose Trickle interval is running. -/
  trickleTimers : List UInt32 := []
  /-- What has been sent so far. -/
  sent : List MultihopD2DPacket := []
  /-- The messages for which a relay or a Trickle timer has been scheduled so far. -/
  scheduled : List UInt32 := []

namespace MultihopD2D

/-- The message has been received before. -/
def isAlreadyReceived (st : MultihopD2D) (msgId : UInt32) : Bool :=
  (st.relayedMsgMap msgId).isSome

/-- The message has been received and not relayed. -/
def markAsReceived (msgId : UInt32) (st : MultihopD2D) : MultihopD2D :=
  { st with relayedMsgMap := Function.update st.relayedMsgMap msgId (some false) }

/-- The message has been relayed. -/
def markAsRelayed (msgId : UInt32) (st : MultihopD2D) : MultihopD2D :=
  { st with relayedMsgMap := Function.update st.relayedMsgMap msgId (some true) }

/-- `socket.sendTo`. -/
def sendTo (p : MultihopD2DPacket) (st : MultihopD2D) : MultihopD2D :=
  { st with sent := st.sent ++ [p] }

/-- The distance is below the radius; the radius is positive wherever this is asked. -/
def isWithinBroadcastArea (myCoord srcCoord : Coord) (maxRadius : ℚ) : Bool :=
  0 < maxRadius ∧ (myCoord.x - srcCoord.x) ^ 2 + (myCoord.y - srcCoord.y) ^ 2 +
    (myCoord.z - srcCoord.z) ^ 2 < maxRadius ^ 2

namespace Params

/-- The global identifier of a message. -/
def msgId (par : Params) (localMsgId : UInt16) : UInt32 :=
  (par.senderAppId.toUInt32 <<< 16) ||| localMsgId.toUInt32

/-- The first copy of a message. -/
def newPacket (par : Params) (localMsgId : UInt16) (now : ℚ) (myCoord : Coord) :
    MultihopD2DPacket where
  msgid := par.msgId localMsgId
  srcId := par.lteNodeId
  payloadTimestamp := now
  payloadSize := par.msgSize
  ttl := par.ttl - 1
  hops := 1
  lastHopSenderId := par.lteNodeId
  srcCoord := if par.maxBroadcastRadius > 0 then myCoord else ⟨0, 0, 0⟩
  maxRadius := if par.maxBroadcastRadius > 0 then par.maxBroadcastRadius else 0

/-- The header that a relay builds. -/
def relayed (par : Params) (src : MultihopD2DPacket) : MultihopD2DPacket where
  hops := src.hops + 1
  -- a new header has a time to live of 0
  ttl := if src.ttl > 0 then src.ttl - 1 else 0
  lastHopSenderId := par.lteNodeId
  srcId := src.srcId
  msgid := src.msgid
  payloadSize := src.payloadSize
  srcCoord := src.srcCoord
  maxRadius := src.maxRadius
  payloadTimestamp := src.payloadTimestamp

end Params

/-- The timer `selfSender_` has expired. -/
def sendPacket (par : Params) (localMsgId : UInt16) (now : ℚ) (myCoord : Coord)
    (st : MultihopD2D) : MultihopD2D :=
  markAsRelayed (par.msgId localMsgId) (sendTo (par.newPacket localMsgId now myCoord) st)

/-- `counter_[msgId] = 1` and a copy of the packet. -/
def storeCopy (p : MultihopD2DPacket) (st : MultihopD2D) : MultihopD2D :=
  { st with
    counter := Function.update st.counter p.msgid 1
    last := Function.update st.last p.msgid (some p) }

/-- Start the Trickle interval, or the backoff time of the packet. -/
def schedule (par : Params) (p : MultihopD2DPacket) (st : MultihopD2D) : MultihopD2D :=
  if par.trickleEnabled then
    { st with
      trickleTimers := st.trickleTimers ++ [p.msgid]
      scheduled := st.scheduled ++ [p.msgid] }
  else
    { st with
      relayTimers := st.relayTimers ++ [p]
      scheduled := st.scheduled ++ [p.msgid] }

/-- The packet is not relayed: the user is selfish, the node is too far away, or there are no
hops left.  `draw` is the random number. -/
def dropped (par : Params) (draw : ℚ) (myCoord : Coord) (p : MultihopD2DPacket) : Bool :=
  draw < par.selfishProbability ||
    (p.maxRadius > 0 && !isWithinBroadcastArea myCoord p.srcCoord p.maxRadius) ||
    p.ttl == 0

/-- A copy arrives.  The first one is relayed later if it is not dropped, the others are counted. -/
def handleRcvdPacket (par : Params) (draw : ℚ) (myCoord : Coord) (p : MultihopD2DPacket)
    (st : MultihopD2D) : MultihopD2D :=
  if st.isAlreadyReceived p.msgid then
    if par.trickleEnabled then
      { st with counter := Function.update st.counter p.msgid (st.counter p.msgid + 1) }
    else st
  else
    let st := markAsReceived p.msgid st
    let st := if par.trickleEnabled then storeCopy p st else st
    if dropped par draw myCoord p then st else schedule par p st

/-- Send a copy of the packet on. -/
def relayPacket (par : Params) (p : MultihopD2DPacket) (st : MultihopD2D) : MultihopD2D :=
  markAsRelayed p.msgid (sendTo (par.relayed p) st)

/-- `none` if there is no copy to relay. -/
def handleTrickleTimer (par : Params) (msgId : UInt32) (st : MultihopD2D) : Option MultihopD2D :=
  if st.counter msgId < par.k then
    match st.last msgId with
    | none => none
    | some p => some (relayPacket par p st)
  else some st

/-! ### The books of a node -/

/-- The copies of a message that a node has sent. -/
def copies (st : MultihopD2D) (id : UInt32) : List MultihopD2DPacket :=
  st.sent.filter fun p => p.msgid = id

/-- How often a message has been sent or may still be sent because of a timer. -/
def load (st : MultihopD2D) (id : UInt32) : ℕ :=
  st.sent.countP (fun p => p.msgid = id) + st.relayTimers.countP (fun p => p.msgid = id) +
    st.trickleTimers.count id

/-- The copies of a node satisfy `P`, only those with hops left wait, and a message counts at most
once. -/
structure Ok (P : MultihopD2DPacket → Prop) (st : MultihopD2D) : Prop where
  sent : ∀ p ∈ st.sent, P p
  relay : ∀ p ∈ st.relayTimers, P p ∧ p.ttl ≠ 0
  trickle : ∀ id ∈ st.trickleTimers, ∃ p, st.last id = some p ∧ p.msgid = id ∧ P p ∧ p.ttl ≠ 0
  once : ∀ id, st.load id ≤ 1
  unseen : ∀ id, st.relayedMsgMap id = none → st.load id = 0 ∧ st.scheduled.count id = 0

variable {par : Params} {P : MultihopD2DPacket → Prop} {st st' : MultihopD2D}
  {p : MultihopD2DPacket} {id : UInt32} {n : ℕ}

theorem ok_init : Ok P {} where
  sent := by simp
  relay := by simp
  trickle := by simp
  once := fun id => by simp [load]
  unseen := fun id _ => ⟨by simp [load], by simp⟩

theorem length_copies (st : MultihopD2D) (id : UInt32) :
    (st.copies id).length = st.sent.countP fun p => p.msgid = id :=
  List.countP_eq_length_filter.symm

/-- The timer of a packet expires. -/
def popRelay (n : ℕ) (st : MultihopD2D) : MultihopD2D :=
  { st with relayTimers := st.relayTimers.eraseIdx n }

/-- The Trickle interval of a message ends. -/
def popTrickle (n : ℕ) (st : MultihopD2D) : MultihopD2D :=
  { st with trickleTimers := st.trickleTimers.eraseIdx n }

theorem load_popRelay (h : st.relayTimers[n]? = some p) (id : UInt32) :
    (st.popRelay n).load id + (if p.msgid = id then 1 else 0) = st.load id := by
  have hcount := countP_of_getElem? (fun p : MultihopD2DPacket => p.msgid = id) h
  simp only [decide_eq_true_eq] at hcount
  simp only [load, popRelay]
  omega

theorem load_popTrickle {id' : UInt32} (h : st.trickleTimers[n]? = some id') (id : UInt32) :
    (st.popTrickle n).load id + (if id' = id then 1 else 0) = st.load id := by
  have hcount := countP_of_getElem? (fun i : UInt32 => i == id) h
  simp only [beq_iff_eq] at hcount
  simp only [load, popTrickle, List.count]
  omega

theorem Ok.popRelay (h : Ok P st) (hn : st.relayTimers[n]? = some p) : Ok P (st.popRelay n) where
  sent := h.sent
  relay := fun q hq => h.relay q (List.mem_of_mem_eraseIdx hq)
  trickle := h.trickle
  once := fun id => by
    have hload := load_popRelay hn id
    have honce := h.once id
    omega
  unseen := fun id hid => by
    have hload := load_popRelay hn id
    obtain ⟨hzero, hcount⟩ := h.unseen id hid
    exact ⟨by omega, hcount⟩

theorem Ok.popTrickle (h : Ok P st) (hn : st.trickleTimers[n]? = some id) :
    Ok P (st.popTrickle n) where
  sent := h.sent
  relay := h.relay
  trickle := fun id hid => h.trickle id (List.mem_of_mem_eraseIdx hid)
  once := fun id => by
    have hload := load_popTrickle hn id
    have honce := h.once id
    omega
  unseen := fun id hid => by
    have hload := load_popTrickle hn id
    obtain ⟨hzero, hcount⟩ := h.unseen id hid
    exact ⟨by omega, hcount⟩

theorem load_transmit (p : MultihopD2DPacket) (st : MultihopD2D) (id : UInt32) :
    (markAsRelayed p.msgid (sendTo p st)).load id =
      st.load id + if p.msgid = id then 1 else 0 := by
  simp only [load, markAsRelayed, sendTo, List.countP_append, List.countP_singleton,
    decide_eq_true_eq]
  omega

/-- A message that does not count yet is sent. -/
theorem Ok.transmit (h : Ok P st) (hp : P p) (hload : st.load p.msgid = 0) :
    Ok P (markAsRelayed p.msgid (sendTo p st)) where
  sent := by
    intro q hq
    rcases List.mem_append.1 hq with hq | hq
    · exact h.sent q hq
    · exact List.mem_singleton.1 hq ▸ hp
  relay := h.relay
  trickle := h.trickle
  once := by
    intro id
    have honce := h.once id
    rw [load_transmit]
    split_ifs with hid
    · subst hid
      omega
    · omega
  unseen := by
    intro id hid
    by_cases heq : id = p.msgid
    · simp [markAsRelayed, heq] at hid
    · have hold : st.relayedMsgMap id = none := by
        simpa [markAsRelayed, sendTo, Function.update_of_ne heq] using hid
      obtain ⟨hzero, hcount⟩ := h.unseen id hold
      refine ⟨?_, hcount⟩
      rw [load_transmit, if_neg fun h => heq h.symm, hzero]

/-! ### One event of a node -/

theorem Ok.sendPacket (h : Ok P st) {localMsgId : UInt16} {now : ℚ} {myCoord : Coord}
    (hnew : st.relayedMsgMap (par.msgId localMsgId) = none)
    (hp : P (par.newPacket localMsgId now myCoord)) :
    Ok P (sendPacket par localMsgId now myCoord st) :=
  h.transmit hp (h.unseen _ hnew).1

theorem Ok.relayPacket (h : Ok P st) (hP : ∀ p, P p → p.ttl ≠ 0 → P (par.relayed p))
    (hn : st.relayTimers[n]? = some p) :
    Ok P (MultihopD2D.relayPacket par p (st.popRelay n)) := by
  obtain ⟨hp, httl⟩ := h.relay p (List.mem_of_getElem? hn)
  have hload := load_popRelay hn p.msgid
  have honce := h.once p.msgid
  rw [if_pos rfl] at hload
  exact (h.popRelay hn).transmit (p := par.relayed p) (hP p hp httl)
    (show (st.popRelay n).load p.msgid = 0 by omega)

/-- At the end of an interval there is a copy to relay. -/
theorem Ok.handleTrickleTimer_cases (h : Ok P st) (par : Params)
    (hn : st.trickleTimers[n]? = some id) :
    ∃ p, p.msgid = id ∧ P p ∧ p.ttl ≠ 0 ∧
      (MultihopD2D.handleTrickleTimer par id (st.popTrickle n) =
          some (MultihopD2D.relayPacket par p (st.popTrickle n)) ∨
        MultihopD2D.handleTrickleTimer par id (st.popTrickle n) = some (st.popTrickle n)) := by
  obtain ⟨p, hlast, hid, hp, httl⟩ := h.trickle id (List.mem_of_getElem? hn)
  refine ⟨p, hid, hp, httl, ?_⟩
  unfold MultihopD2D.handleTrickleTimer
  split_ifs
  · rw [show (st.popTrickle n).last id = some p from hlast]
    exact .inl rfl
  · exact .inr rfl

theorem Ok.handleTrickleTimer (h : Ok P st) (hP : ∀ p, P p → p.ttl ≠ 0 → P (par.relayed p))
    (hn : st.trickleTimers[n]? = some id)
    (hst : MultihopD2D.handleTrickleTimer par id (st.popTrickle n) = some st') : Ok P st' := by
  obtain ⟨p, rfl, hp, httl, heq | heq⟩ := h.handleTrickleTimer_cases par hn
  · obtain rfl : _ = st' := Option.some.inj (heq.symm.trans hst)
    have hload := load_popTrickle hn p.msgid
    have honce := h.once p.msgid
    rw [if_pos rfl] at hload
    exact (h.popTrickle hn).transmit (p := par.relayed p) (hP p hp httl)
      (show (st.popTrickle n).load p.msgid = 0 by omega)
  · obtain rfl : _ = st' := Option.some.inj (heq.symm.trans hst)
    exact h.popTrickle hn

/-- The first copy of a message is stored and its timer is started. -/
theorem Ok.schedule (h : Ok P st) (hp : P p) (httl : p.ttl ≠ 0) (hload : st.load p.msgid = 0)
    (hseen : st.relayedMsgMap p.msgid ≠ none)
    (hlast : par.trickleEnabled = true → st.last p.msgid = some p) :
    Ok P (MultihopD2D.schedule par p st) := by
  -- the message is one that the node has seen
  have hold : ∀ id, st.relayedMsgMap id = none → id ≠ p.msgid := by
    rintro id hid rfl
    exact hseen hid
  unfold MultihopD2D.schedule
  split_ifs with htrickle
  · -- with the trickle algorithm the message gets a timer
    exact {
      sent := h.sent
      relay := h.relay
      trickle := fun id hid => by
        rcases List.mem_append.1 hid with hid | hid
        · exact h.trickle id hid
        · rw [List.mem_singleton.1 hid]
          exact ⟨p, hlast htrickle, rfl, hp, httl⟩
      once := fun id => by
        have honce := h.once id
        simp only [load] at hload honce
        simp only [load, List.count_append, List.count_singleton]
        split_ifs with hid
        · rw [beq_iff_eq] at hid
          subst hid
          omega
        · omega
      unseen := fun id hid => by
        obtain ⟨hzero, hcount⟩ := h.unseen id hid
        have hne : (p.msgid == id) = false := beq_eq_false_iff_ne.2 (hold id hid).symm
        simp only [load] at hzero
        simp only [load, List.count_append, List.count_singleton, hne, hcount]
        exact ⟨hzero, rfl⟩ }
  · -- without it a copy is queued to be relayed
    exact {
      sent := h.sent
      relay := fun q hq => by
        rcases List.mem_append.1 hq with hq | hq
        · exact h.relay q hq
        · rw [List.mem_singleton.1 hq]
          exact ⟨hp, httl⟩
      trickle := h.trickle
      once := fun id => by
        have honce := h.once id
        simp only [load] at hload honce
        simp only [load, List.countP_append, List.countP_singleton, decide_eq_true_eq]
        split_ifs with hid
        · subst hid
          omega
        · omega
      unseen := fun id hid => by
        obtain ⟨hzero, hcount⟩ := h.unseen id hid
        have hne : ¬ p.msgid = id := (hold id hid).symm
        have hne' : (p.msgid == id) = false := beq_eq_false_iff_ne.2 hne
        simp only [load] at hzero
        simp only [load, List.countP_append, List.countP_singleton, hne, List.count_append,
          List.count_singleton, hne', hcount]
        exact ⟨hzero, rfl⟩ }

theorem Ok.markAsReceived (h : Ok P st) (id : UInt32) : Ok P (markAsReceived id st) where
  sent := h.sent
  relay := h.relay
  trickle := h.trickle
  once := h.once
  unseen := fun id' hid => by
    by_cases heq : id' = id
    · simp [MultihopD2D.markAsReceived, heq] at hid
    · refine h.unseen id' ?_
      rwa [← Function.update_of_ne heq (some false) st.relayedMsgMap]

theorem Ok.storeCopy (h : Ok P st) (hload : st.load p.msgid = 0) : Ok P (storeCopy p st) where
  sent := h.sent
  relay := h.relay
  trickle := fun id hid => by
    have hne : id ≠ p.msgid := by
      rintro rfl
      have hpos := List.count_pos_iff.2 hid
      simp only [load] at hload
      simp only [MultihopD2D.storeCopy] at hpos
      omega
    simp only [MultihopD2D.storeCopy, Function.update_of_ne hne]
    exact h.trickle id hid
  once := h.once
  unseen := h.unseen

/-- The reception of a packet, case by case. -/
theorem handleRcvdPacket_cases (par : Params) (draw : ℚ) (myCoord : Coord)
    (p : MultihopD2DPacket) (st : MultihopD2D) :
    (∃ b, st.relayedMsgMap p.msgid = some b ∧ ∃ c,
      handleRcvdPacket par draw myCoord p st = { st with counter := c }) ∨
    st.relayedMsgMap p.msgid = none ∧ ∃ st₁ : MultihopD2D,
      st₁ = (if par.trickleEnabled then storeCopy p (markAsReceived p.msgid st)
        else markAsReceived p.msgid st) ∧
      handleRcvdPacket par draw myCoord p st =
        if dropped par draw myCoord p then st₁ else MultihopD2D.schedule par p st₁ := by
  unfold handleRcvdPacket isAlreadyReceived
  cases hmap : st.relayedMsgMap p.msgid with
  | none => exact .inr ⟨rfl, _, rfl, rfl⟩
  | some b =>
    refine .inl ⟨b, rfl, ?_⟩
    rw [Option.isSome_some, if_pos rfl]
    split_ifs
    · exact ⟨_, rfl⟩
    · exact ⟨st.counter, rfl⟩

theorem Ok.handleRcvdPacket (h : Ok P st) (hp : P p) {draw : ℚ} {myCoord : Coord} :
    Ok P (MultihopD2D.handleRcvdPacket par draw myCoord p st) := by
  rcases handleRcvdPacket_cases par draw myCoord p st with ⟨b, -, c, heq⟩ | ⟨hnone, st₁, hst₁, heq⟩
  · rw [heq]
    exact ⟨h.sent, h.relay, h.trickle, h.once, h.unseen⟩
  · have hload : st.load p.msgid = 0 := (h.unseen _ hnone).1
    have hmark := h.markAsReceived p.msgid
    have hok : Ok P st₁ := by
      rw [hst₁]
      split_ifs
      · exact hmark.storeCopy hload
      · exact hmark
    have hload₁ : st₁.load p.msgid = 0 := by
      rw [hst₁]
      split_ifs
      · exact hload
      · exact hload
    have hseen : st₁.relayedMsgMap p.msgid ≠ none := by
      rw [hst₁]
      split_ifs
      · simp [MultihopD2D.storeCopy, MultihopD2D.markAsReceived]
      · simp [MultihopD2D.markAsReceived]
    rw [heq]
    split_ifs with hdrop
    · exact hok
    · have httl : p.ttl ≠ 0 := by
        intro httl
        simp [dropped, httl] at hdrop
      refine hok.schedule hp httl hload₁ hseen fun htrickle => ?_
      rw [hst₁, if_pos htrickle]
      exact Function.update_self _ _ _

/-- A message that is sent, or will be, has been seen. -/
theorem Ok.seen (h : Ok P st) (hload : st.load id ≠ 0) : st.relayedMsgMap id ≠ none :=
  fun hnone => hload (h.unseen id hnone).1

theorem load_ne_zero_of_sent (hp : p ∈ st.sent) : st.load p.msgid ≠ 0 := by
  have hpos : 0 < st.sent.countP fun q => q.msgid = p.msgid :=
    List.countP_pos_iff.2 ⟨p, hp, decide_eq_true rfl⟩
  simp only [load]
  omega

theorem load_ne_zero_of_relay (hn : st.relayTimers[n]? = some p) : st.load p.msgid ≠ 0 := by
  have hload := load_popRelay hn p.msgid
  rw [if_pos rfl] at hload
  omega

theorem load_ne_zero_of_trickle (hn : st.trickleTimers[n]? = some id) : st.load id ≠ 0 := by
  have hload := load_popTrickle hn id
  rw [if_pos rfl] at hload
  omega

/-- What a handler that deals with the message `m` leaves of the state before it. -/
structure Later (m : UInt32) (st st' : MultihopD2D) : Prop where
  /-- What has been sent stays sent. -/
  sent : st.sent <+: st'.sent
  /-- What has been seen stays seen, and nothing more is scheduled for it. -/
  seen : ∀ id, st.relayedMsgMap id ≠ none →
    st'.relayedMsgMap id ≠ none ∧ st'.scheduled.count id = st.scheduled.count id
  /-- Only `m` may be new. -/
  marks : ∀ id, st'.relayedMsgMap id ≠ none → st.relayedMsgMap id ≠ none ∨ id = m

theorem Later.of_eq (m : UInt32) (hsent : st'.sent = st.sent)
    (hmap : st'.relayedMsgMap = st.relayedMsgMap) (hscheduled : st'.scheduled = st.scheduled) :
    Later m st st' :=
  ⟨hsent ▸ List.prefix_rfl, fun _ h => ⟨hmap ▸ h, by rw [hscheduled]⟩, fun _ h => .inl (hmap ▸ h)⟩

/-- To send a packet, after a timer has been removed or not. -/
theorem Later.transmit {st₀ : MultihopD2D} (p : MultihopD2DPacket) (hsent : st₀.sent = st.sent)
    (hmap : st₀.relayedMsgMap = st.relayedMsgMap) (hscheduled : st₀.scheduled = st.scheduled) :
    Later p.msgid st (markAsRelayed p.msgid (sendTo p st₀)) where
  sent := ⟨[p], by rw [← hsent]; rfl⟩
  seen := by
    intro id hid
    refine ⟨?_, by rw [← hscheduled]; rfl⟩
    by_cases heq : id = p.msgid
    · simp [markAsRelayed, heq]
    · simpa only [markAsRelayed, sendTo, Function.update_of_ne heq, hmap] using hid
  marks := by
    intro id hid
    by_cases heq : id = p.msgid
    · exact .inr heq
    · simp only [markAsRelayed, sendTo, Function.update_of_ne heq, hmap] at hid
      exact .inl hid

/-- The first copy of a message marks it, and schedules one timer unless it is dropped. -/
theorem handleRcvdPacket_of_new (par : Params) (draw : ℚ) (myCoord : Coord)
    (hnew : st.relayedMsgMap p.msgid = none) :
    (MultihopD2D.handleRcvdPacket par draw myCoord p st).relayedMsgMap =
        Function.update st.relayedMsgMap p.msgid (some false) ∧
      (MultihopD2D.handleRcvdPacket par draw myCoord p st).sent = st.sent ∧
      (MultihopD2D.handleRcvdPacket par draw myCoord p st).scheduled =
        st.scheduled ++ if dropped par draw myCoord p then [] else [p.msgid] := by
  rcases handleRcvdPacket_cases par draw myCoord p st with ⟨b, hsome, -⟩ | ⟨-, st₁, hst₁, heq⟩
  · rw [hnew] at hsome
    cases hsome
  · have hmap : st₁.relayedMsgMap = Function.update st.relayedMsgMap p.msgid (some false) := by
      rw [hst₁]
      split_ifs <;> rfl
    have hsent : st₁.sent = st.sent := by
      rw [hst₁]
      split_ifs <;> rfl
    have hscheduled : st₁.scheduled = st.scheduled := by
      rw [hst₁]
      split_ifs <;> rfl
    rw [heq]
    unfold MultihopD2D.schedule
    split_ifs
    · exact ⟨hmap, hsent, by rw [hscheduled, List.append_nil]⟩
    · exact ⟨hmap, hsent, by rw [hscheduled]⟩
    · exact ⟨hmap, hsent, by rw [hscheduled]⟩

theorem Later.handleRcvdPacket {draw : ℚ} {myCoord : Coord} :
    Later p.msgid st (MultihopD2D.handleRcvdPacket par draw myCoord p st) := by
  cases hmap : st.relayedMsgMap p.msgid with
  | some b =>
    rcases handleRcvdPacket_cases par draw myCoord p st with ⟨_, -, c, heq⟩ | ⟨hnone, -⟩
    · rw [heq]
      exact .of_eq _ rfl rfl rfl
    · rw [hmap] at hnone
      cases hnone
  | none =>
    obtain ⟨hmap', hsent, hscheduled⟩ := handleRcvdPacket_of_new par draw myCoord hmap
    refine ⟨hsent ▸ List.prefix_rfl, fun id hid => ?_, fun id hid => ?_⟩
    · have hne : id ≠ p.msgid := by
        rintro rfl
        exact hid hmap
      have hcount : (if dropped par draw myCoord p then [] else [p.msgid]).count id = 0 := by
        split_ifs
        · rfl
        · rw [List.count_eq_zero, List.mem_singleton]
          exact hne
      rw [hmap', Function.update_of_ne hne, hscheduled, List.count_append, hcount]
      exact ⟨hid, rfl⟩
    · by_cases heq : id = p.msgid
      · exact .inr heq
      · rw [hmap', Function.update_of_ne heq] at hid
        exact .inl hid

end MultihopD2D

/-! ### The network -/

open MultihopD2D (Params Ok Later)

/-- All nodes, and the identifiers of the messages that have been originated. -/
structure Flood (ι : Type) where
  /-- The application of each node. -/
  node : ι → MultihopD2D
  /-- The messages so far. -/
  originated : List UInt32

/-- What can happen. -/
inductive FloodEvent (ι : Type) where
  /-- A node originates a message. -/
  | sendPacket (i : ι) (localMsgId : UInt16) (now : ℚ) (myCoord : Coord)
  /-- Node `i` receives the `n`-th copy that node `j` has sent. -/
  | receive (i j : ι) (n : ℕ) (draw : ℚ) (myCoord : Coord)
  /-- The `n`-th backoff timer of node `i` expires. -/
  | relayTimer (i : ι) (n : ℕ)
  /-- The `n`-th Trickle interval of node `i` ends. -/
  | trickleTimer (i : ι) (n : ℕ)

namespace Flood

variable {ι : Type} [DecidableEq ι]

/-- The nodes before the first message. -/
def init (ι : Type) : Flood ι := ⟨fun _ => {}, []⟩

/-- The state of one node changes. -/
def setNode (s : Flood ι) (i : ι) (st : MultihopD2D) : Flood ι :=
  { s with node := Function.update s.node i st }

@[simp] theorem setNode_node_self (s : Flood ι) (i : ι) (st : MultihopD2D) :
    (s.setNode i st).node i = st := Function.update_self _ _ _

theorem setNode_node_of_ne (s : Flood ι) {i i' : ι} (h : i' ≠ i) (st : MultihopD2D) :
    (s.setNode i st).node i' = s.node i' := Function.update_of_ne h _ _

/-- One event; the identifiers of originated messages are distinct. -/
def step (par : ι → Params) (s : Flood ι) : FloodEvent ι → Option (Flood ι)
  | .sendPacket i localMsgId now myCoord =>
    if (par i).msgId localMsgId ∈ s.originated then none
    else some { s.setNode i (MultihopD2D.sendPacket (par i) localMsgId now myCoord (s.node i)) with
      originated := (par i).msgId localMsgId :: s.originated }
  | .receive i j n draw myCoord =>
    match (s.node j).sent[n]? with
    | none => none
    | some p =>
      if 0 ≤ draw ∧ draw < 1 then
        some (s.setNode i (MultihopD2D.handleRcvdPacket (par i) draw myCoord p (s.node i)))
      else none
  | .relayTimer i n =>
    match (s.node i).relayTimers[n]? with
    | none => none
    | some p => some (s.setNode i (MultihopD2D.relayPacket (par i) p ((s.node i).popRelay n)))
  | .trickleTimer i n =>
    match (s.node i).trickleTimers[n]? with
    | none => none
    | some id =>
      (MultihopD2D.handleTrickleTimer (par i) id ((s.node i).popTrickle n)).map (s.setNode i)

/-- The nodes with a broadcast channel that loses, reorders and repeats. -/
def network (par : ι → Params) : Machine (Flood ι) (FloodEvent ι) Empty where
  step s e := (step par s e).map fun s' => (s', [])

variable {par : ι → Params} {P : MultihopD2DPacket → Prop} {s s' : Flood ι} {e : FloodEvent ι}

/-- All books are in order, and what a node has seen has been originated. -/
structure FloodOk (P : MultihopD2DPacket → Prop) (s : Flood ι) : Prop where
  node : ∀ i, Ok P (s.node i)
  known : ∀ i id, (s.node i).relayedMsgMap id ≠ none → id ∈ s.originated

omit [DecidableEq ι] in
theorem floodOk_init : FloodOk P (init ι) :=
  ⟨fun _ => MultihopD2D.ok_init, fun _ _ h => absurd rfl h⟩

theorem FloodOk.setNode (h : FloodOk P s) {i : ι} {st : MultihopD2D} {m : UInt32}
    {originated : List UInt32} (hst : Ok P st) (hlater : Later m (s.node i) st)
    (hm : m ∈ originated) (hsub : ∀ id ∈ s.originated, id ∈ originated) :
    FloodOk P { s.setNode i st with originated := originated } where
  node := by
    intro i'
    by_cases hi : i' = i
    · subst hi
      exact (s.setNode_node_self i' st).symm ▸ hst
    · exact (s.setNode_node_of_ne hi st).symm ▸ h.node i'
  known := by
    intro i' id hid
    by_cases hi : i' = i
    · subst hi
      change ((s.setNode i' st).node i').relayedMsgMap id ≠ none at hid
      rw [setNode_node_self] at hid
      rcases hlater.marks id hid with hid | rfl
      · exact hsub id (h.known i' id hid)
      · exact hm
    · change ((s.setNode i st).node i').relayedMsgMap id ≠ none at hid
      rw [s.setNode_node_of_ne hi] at hid
      exact hsub id (h.known i' id hid)

theorem later_setNode {i : ι} {st : MultihopD2D} {m : UInt32} (hlater : Later m (s.node i) st)
    (i' : ι) : Later m (s.node i') ((s.setNode i st).node i') := by
  by_cases hi : i' = i
  · subst hi
    rwa [setNode_node_self]
  · rw [s.setNode_node_of_ne hi]
    exact .of_eq m rfl rfl rfl

/-- **One event** keeps the books in order, and the nodes forget nothing. -/
theorem floodOk_step (hnew : ∀ i l now c, P ((par i).newPacket l now c))
    (hrelay : ∀ i p, P p → p.ttl ≠ 0 → P ((par i).relayed p)) (h : FloodOk P s)
    (hst : step par s e = some s') :
    FloodOk P s' ∧ ∃ m, ∀ i, Later m (s.node i) (s'.node i) := by
  cases e with
  | sendPacket i l now c =>
    simp only [step] at hst
    split_ifs at hst with horig
    cases hst
    -- an id that has not been used is one that no node has seen
    have hunseen : (s.node i).relayedMsgMap ((par i).msgId l) = none := by
      by_contra hseen
      exact horig (h.known i _ hseen)
    have hlater : Later ((par i).msgId l) (s.node i)
        (MultihopD2D.sendPacket (par i) l now c (s.node i)) :=
      .transmit ((par i).newPacket l now c) rfl rfl rfl
    refine ⟨h.setNode ((h.node i).sendPacket hunseen (hnew i l now c)) hlater
      List.mem_cons_self fun id hid => List.mem_cons_of_mem _ hid, (par i).msgId l, ?_⟩
    exact later_setNode hlater
  | receive i j n draw c =>
    simp only [step] at hst
    split at hst
    · cases hst
    · rename_i p hp
      split_ifs at hst
      cases hst
      -- a copy on the air was sent by a node that has seen its message
      have hmem := List.mem_of_getElem? hp
      have hknown := h.known j p.msgid ((h.node j).seen (MultihopD2D.load_ne_zero_of_sent hmem))
      have hlater : Later p.msgid (s.node i)
        (MultihopD2D.handleRcvdPacket (par i) draw c p (s.node i)) := .handleRcvdPacket
      refine ⟨h.setNode ((h.node i).handleRcvdPacket ((h.node j).sent p hmem)) hlater hknown
        fun id hid => hid, p.msgid, ?_⟩
      exact later_setNode hlater
  | relayTimer i n =>
    simp only [step] at hst
    split at hst
    · cases hst
    · rename_i p hp
      cases hst
      have hknown := h.known i p.msgid ((h.node i).seen (MultihopD2D.load_ne_zero_of_relay hp))
      have hlater : Later p.msgid (s.node i)
          (MultihopD2D.relayPacket (par i) p ((s.node i).popRelay n)) :=
        .transmit ((par i).relayed p) rfl rfl rfl
      refine ⟨h.setNode ((h.node i).relayPacket (hrelay i) hp) hlater hknown
        fun id hid => hid, p.msgid, ?_⟩
      exact later_setNode hlater
  | trickleTimer i n =>
    simp only [step] at hst
    split at hst
    · cases hst
    · rename_i id hid
      obtain ⟨st', hst', rfl⟩ := Option.map_eq_some_iff.1 hst
      have hknown := h.known i id ((h.node i).seen (MultihopD2D.load_ne_zero_of_trickle hid))
      have hok := (h.node i).handleTrickleTimer (hrelay i) hid hst'
      have hlater : Later id (s.node i) st' := by
        obtain ⟨p, rfl, -, -, heq | heq⟩ := (h.node i).handleTrickleTimer_cases (par i) hid
        · obtain rfl : _ = st' := Option.some.inj (heq.symm.trans hst')
          exact .transmit ((par i).relayed p) rfl rfl rfl
        · obtain rfl : _ = st' := Option.some.inj (heq.symm.trans hst')
          exact .of_eq p.msgid rfl rfl rfl
      refine ⟨h.setNode hok hlater hknown fun id hid => hid, id, ?_⟩
      exact later_setNode hlater

/-- Of a message that a node has seen, the copies sent are kept and nothing is scheduled any
more. -/
structure Since (i : ι) (id : UInt32) (sent : List MultihopD2DPacket) (k : ℕ) (s : Flood ι) :
    Prop where
  sent : sent <+: (s.node i).sent
  seen : (s.node i).relayedMsgMap id ≠ none
  scheduled : (s.node i).scheduled.count id = k

omit [DecidableEq ι] in
theorem Since.later {i : ι} {id m : UInt32} {sent : List MultihopD2DPacket} {k : ℕ}
    (h : Since i id sent k s) (hlater : Later m (s.node i) (s'.node i)) :
    Since i id sent k s' := by
  obtain ⟨hseen, hcount⟩ := hlater.seen id h.seen
  exact ⟨h.sent.trans hlater.sent, hseen, hcount.trans h.scheduled⟩

variable {es : List (FloodEvent ι)} {os : List Empty}

theorem step_of_network {o : List Empty} (h : (network par).step s e = some (s', o)) :
    step par s e = some s' := by
  obtain ⟨s₁, hs₁, heq⟩ := Option.map_eq_some_iff.1 h
  cases heq
  exact hs₁

/-- The books are in order after every run. -/
theorem floodOk_exec (hnew : ∀ i l now c, P ((par i).newPacket l now c))
    (hrelay : ∀ i p, P p → p.ttl ≠ 0 → P ((par i).relayed p)) {s₀ : Flood ι} (h₀ : FloodOk P s₀)
    (h : (network par).exec s₀ es = some (s, os)) : FloodOk P s := by
  refine Machine.exec_invariant h₀ (fun s e s' o hs hst => ?_) h
  exact (floodOk_step hnew hrelay hs (step_of_network hst)).1

theorem since_exec (hnew : ∀ i l now c, P ((par i).newPacket l now c))
    (hrelay : ∀ i p, P p → p.ttl ≠ 0 → P ((par i).relayed p)) {s₀ : Flood ι} (h₀ : FloodOk P s₀)
    {i : ι} {id : UInt32} {sent : List MultihopD2DPacket} {k : ℕ} (hsince : Since i id sent k s₀)
    (h : (network par).exec s₀ es = some (s, os)) : Since i id sent k s := by
  have hboth : FloodOk P s ∧ Since i id sent k s := by
    refine Machine.exec_invariant (I := fun s => FloodOk P s ∧ Since i id sent k s) ⟨h₀, hsince⟩
      (fun s e s' o hs hst => ?_) h
    obtain ⟨hok, m, hlater⟩ := floodOk_step hnew hrelay hs.1 (step_of_network hst)
    exact ⟨hok, hs.2.later (hlater i)⟩
  exact hboth.2

/-- A step that a run takes, with the books before it, and the run after it. -/
theorem takes_split (hnew : ∀ i l now c, P ((par i).newPacket l now c))
    (hrelay : ∀ i p, P p → p.ttl ≠ 0 → P ((par i).relayed p))
    (h : (network par).exec (init ι) es = some (s, os)) {s₁ s₂ : Flood ι} {o : List Empty}
    (ht : (network par).Takes (init ι) es s₁ e s₂ o) :
    FloodOk P s₁ ∧ step par s₁ e = some s₂ ∧
      ∃ es₂ os₂, (network par).exec s₂ es₂ = some (s, os₂) := by
  obtain ⟨hst, ⟨es₁, os₁, hex₁⟩, hex₂⟩ := ht.split h
  exact ⟨floodOk_exec hnew hrelay floodOk_init hex₁, step_of_network hst, hex₂⟩

/-- The hops of a copy and those it has left add up to `T`. -/
def Fits (T : ℤ) (p : MultihopD2DPacket) : Prop := (p.hops : ℤ) + p.ttl = T ∧ 0 ≤ p.ttl

omit [DecidableEq ι] in
theorem fits_newPacket {T : ℤ} (hT : 1 ≤ T) (httl : ∀ i, (par i).ttl = T) (i : ι) (l : UInt16)
    (now : ℚ) (c : Coord) : Fits T ((par i).newPacket l now c) := by
  have hi := httl i
  simp only [Fits, Params.newPacket, hi]
  omega

omit [DecidableEq ι] in
theorem fits_relayed {T : ℤ} (i : ι) (p : MultihopD2DPacket) (hp : Fits T p) (hne : p.ttl ≠ 0) :
    Fits T ((par i).relayed p) := by
  obtain ⟨hsum, hpos⟩ := hp
  have hlt : p.ttl > 0 := lt_of_le_of_ne hpos hne.symm
  simp only [Fits, Params.relayed, if_pos hlt]
  push_cast
  omega

/-- A message that is new at a node and not dropped there is scheduled once. -/
theorem since_of_receive {s₁ s₂ : Flood ι} (hok : FloodOk P s₁) {i j : ι} {n : ℕ} {draw : ℚ}
    {c : Coord} {p : MultihopD2DPacket} (hst : step par s₁ (.receive i j n draw c) = some s₂)
    (hp : (s₁.node j).sent[n]? = some p) (hnew : (s₁.node i).relayedMsgMap p.msgid = none)
    (hdrop : 0 ≤ draw → MultihopD2D.dropped (par i) draw c p = false) :
    Since i p.msgid [] 1 s₂ := by
  simp only [step, hp] at hst
  split_ifs at hst with hdraw
  cases hst
  obtain ⟨hmap, -, hscheduled⟩ :=
    MultihopD2D.handleRcvdPacket_of_new (par i) draw c hnew
  refine ⟨List.nil_prefix, ?_, ?_⟩
  · rw [setNode_node_self, hmap, Function.update_self]
    exact Option.some_ne_none false
  · rw [setNode_node_self, hscheduled, List.count_append, ((hok.node i).unseen _ hnew).2,
      hdrop hdraw.1]
    simp

/-- **Flooding is bounded.**  Whatever is received, lost or repeated and in whichever order the
timers expire: a node sends a message at most once, its own message once and without scheduling a
relay; a copy has made and has left `ttl_` hops together; and, without selfish users and without a
radius, the first copy of a message leads to exactly one timer if it has hops left. -/
theorem flooding_bounded (par : ι → Params) (T : ℤ) (hT : 1 ≤ T) (httl : ∀ i, (par i).ttl = T)
    (es : List (FloodEvent ι)) (s : Flood ι) (os : List Empty)
    (h : (network par).exec (init ι) es = some (s, os)) :
    (∀ i id, ((s.node i).copies id).length ≤ 1) ∧
    (∀ i l now c s₁ s₂ o, (network par).Takes (init ι) es s₁ (.sendPacket i l now c) s₂ o →
      (s.node i).copies ((par i).msgId l) = [(par i).newPacket l now c] ∧
        (s.node i).scheduled.count ((par i).msgId l) = 0) ∧
    (∀ i, ∀ p ∈ (s.node i).sent, (p.hops : ℤ) + p.ttl = T ∧ (p.hops : ℤ) ≤ T) ∧
    ((∀ i, (par i).selfishProbability = 0 ∧ (par i).maxBroadcastRadius ≤ 0) →
      ∀ i j n draw c s₁ s₂ o p, (network par).Takes (init ι) es s₁ (.receive i j n draw c) s₂ o →
        (s₁.node j).sent[n]? = some p → (s₁.node i).relayedMsgMap p.msgid = none →
        (p.hops : ℤ) < T → (s.node i).scheduled.count p.msgid = 1) := by
  have hok := floodOk_exec (fits_newPacket hT httl) fits_relayed floodOk_init h
  have hlength : ∀ i id, ((s.node i).copies id).length ≤ 1 := by
    intro i id
    have honce := (hok.node i).once id
    rw [MultihopD2D.length_copies]
    simp only [MultihopD2D.load] at honce
    omega
  refine ⟨hlength, ?_, ?_, ?_⟩
  · intro i l now c s₁ s₂ o ht
    obtain ⟨hok₁, hst, es₂, os₂, hex⟩ := takes_split (fits_newPacket hT httl) fits_relayed h ht
    obtain ⟨hok₂, -⟩ := floodOk_step (fits_newPacket hT httl) fits_relayed hok₁ hst
    have hsince : Since i ((par i).msgId l) ((s₁.node i).sent ++ [(par i).newPacket l now c]) 0
        s₂ := by
      simp only [step] at hst
      split_ifs at hst with horig
      cases hst
      have hunseen : (s₁.node i).relayedMsgMap ((par i).msgId l) = none := by
        by_contra hseen
        exact horig (hok₁.known i _ hseen)
      refine ⟨?_, ?_, ?_⟩
      · exact (setNode_node_self s₁ i _).symm ▸ List.prefix_rfl
      · change ((s₁.setNode i _).node i).relayedMsgMap _ ≠ none
        rw [setNode_node_self]
        simp [MultihopD2D.sendPacket, MultihopD2D.markAsRelayed]
      · exact (setNode_node_self s₁ i _).symm ▸ ((hok₁.node i).unseen _ hunseen).2
    have hend := since_exec (fits_newPacket hT httl) fits_relayed hok₂ hsince hex
    refine ⟨?_, hend.scheduled⟩
    have hmem : (par i).newPacket l now c ∈ (s.node i).copies ((par i).msgId l) :=
      List.mem_filter.2 ⟨hend.sent.subset (by simp), decide_eq_true rfl⟩
    obtain ⟨p, hp⟩ := List.length_eq_one_iff.1
      (le_antisymm (hlength i ((par i).msgId l)) (List.length_pos_of_mem hmem))
    rw [hp, List.mem_singleton] at hmem
    rw [hp, hmem]
  · intro i p hp
    obtain ⟨hsum, hpos⟩ := (hok.node i).sent p hp
    exact ⟨hsum, by omega⟩
  · intro hoff i j n draw c s₁ s₂ o p ht hp hunseen hhops
    obtain ⟨hok₁, hst, es₂, os₂, hex⟩ := takes_split (fits_newPacket hT httl) fits_relayed h ht
    obtain ⟨hok₂, -⟩ := floodOk_step (fits_newPacket hT httl) fits_relayed hok₁ hst
    -- no radius is set, also in the copies
    have hradius : FloodOk (fun p => p.maxRadius ≤ 0) s₁ := by
      obtain ⟨hok', -⟩ := takes_split (P := fun p => p.maxRadius ≤ 0)
        (fun i l now c => by simp [Params.newPacket, not_lt.2 (hoff i).2]) (fun i p hp _ => hp) h ht
      exact hok'
    have hmax := (hradius.node j).sent p (List.mem_of_getElem? hp)
    obtain ⟨hsum, hpos⟩ := (hok₁.node j).sent p (List.mem_of_getElem? hp)
    have hsince := since_of_receive hok₁ hst hp hunseen fun hdraw => by
      have hsel : ¬ draw < (par i).selfishProbability := (hoff i).1 ▸ not_lt.2 hdraw
      have hleft : p.ttl ≠ 0 := by omega
      simp [MultihopD2D.dropped, hsel, not_lt.2 hmax, hleft]
    exact (since_exec (fits_newPacket hT httl) fits_relayed hok₂ hsince hex).scheduled

/-- Of three nodes there is a first one. -/
instance (priority := 2000) neZero_three : NeZero 3 := ⟨by decide⟩

/-- Three nodes, the third with Trickle. -/
def threeNodes (i : Fin 3) : Params where
  senderAppId := UInt16.ofNat i
  lteNodeId := 1025 + i
  ttl := 2
  trickleEnabled := i = 2

/-- The first node originates a message, the second relays it, the third decides to relay it, and
the first hears it back. -/
def threeNodesRun : List (FloodEvent (Fin 3)) :=
  [.sendPacket 0 7 0 ⟨0, 0, 0⟩, .receive 1 0 0 0 ⟨1, 0, 0⟩, .receive 2 0 0 0 ⟨2, 0, 0⟩,
    .relayTimer 1 0, .receive 0 1 0 0 ⟨0, 0, 0⟩, .receive 2 1 0 0 ⟨2, 0, 0⟩, .trickleTimer 2 0]

theorem flooding_bounded_threeNodes :
    ∃ s, (network threeNodes).exec (init (Fin 3)) threeNodesRun = some (s, []) ∧
      (∀ i id, ((s.node i).copies id).length ≤ 1) ∧ (s.node 2).scheduled = [7] := by
  obtain ⟨s, hs⟩ : ∃ s, (network threeNodes).exec (init (Fin 3)) threeNodesRun = some (s, []) :=
    ⟨_, rfl⟩
  refine ⟨s, hs, (flooding_bounded threeNodes 2 (by decide) (fun _ => rfl) _ s _ hs).1, ?_⟩
  have hend : ((network threeNodes).exec (init (Fin 3)) threeNodesRun).map
      (fun r => (r.1.node 2).scheduled) = some [7] := by decide +kernel
  rw [hs] at hend
  exact Option.some.inj hend

end Flood

end V2nLte
