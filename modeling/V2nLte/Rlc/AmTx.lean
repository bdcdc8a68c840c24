import V2nLte.Machine.Basic
import V2nLte.Machine.Ensures
import V2nLte.Machine.Word
import Mathlib.Data.List.Forall2

/-!
# The sending side of RLC AM

`AmTxQueue` cuts the SDUs of one connection into fragments of `fragmentSize` bytes and puts them
into a transmission window, where they stay until the receiver has acknowledged them or they are
given up.  A window position is retransmitted when its timer expires; after `maxRtx`
retransmissions all fragments of its SDU are discarded, and the receiver is told to move its
window (MRW).  The window itself moves when the MRW is acknowledged.

The timers of a `TMultiTimer` all run for the same time, so they expire in the order in which
they were started and are lists here.  `ASSERT` is empty in a release build and is left out, and
so are the tags of the packets.

## Main results

* `AmTxQueue.accepted_kept` : every accepted SDU is queued, in the window or discarded, in every
  run where each SDU leaves at least one position of the window free.
* `AmTxQueue.second_sdu_dropped` : an SDU that does not fit is taken out of the queue and lost.
-/

namespace V2nLte

/-! ### Packets -/

/-- The types of AM PDUs. -/
inductive LteAmType where
  | DATA
  | ACK
  | MRW
  | MRW_ACK
  deriving DecidableEq

/-- An SDU, with its RLC header. -/
structure LteRlcAmSdu where
  /-- The sequence number PDCP has given to it. -/
  snoMainPacket : ℕ
  /-- Its bytes. -/
  byteLength : ℕ
  deriving DecidableEq

/-- A PDU that the entity sends: a fragment of an SDU, or a command to move the window. -/
structure LteRlcAmPdu where
  /-- Data or a command. -/
  amType : LteAmType
  /-- The number of fragments of its SDU. -/
  totalFragments : ℕ
  /-- Its sequence number. -/
  snoFragment : ℕ
  /-- The sequence number of the first fragment of the SDU. -/
  firstSn : ℤ
  /-- The sequence number of the last fragment of the SDU. -/
  lastSn : ℤ
  /-- The sequence number of the SDU. -/
  snoMainPacket : ℕ
  /-- How often it has been sent again. -/
  txNumber : ℕ := 0
  /-- The bytes of the header. -/
  chunkLength : ℕ := 1
  /-- Where in the SDU the data starts. -/
  offset : ℕ := 0
  /-- The bytes of data. -/
  length : ℕ := 0
  deriving DecidableEq

namespace LteRlcAmPdu

/-- The length of the packet, header included. -/
def byteLength (pdu : LteRlcAmPdu) : ℕ := pdu.chunkLength + pdu.length

end LteRlcAmPdu

/-! ### Object arrays -/

/-- A `cArray`: every position holds an object or is free. -/
abbrev CArray (α : Type) := List (Option α)

namespace CArray

variable {α : Type}

/-- The element at a position, if there is one. -/
def get (xs : CArray α) (i : ℕ) : Option α := (xs[i]?).join

/-- Take out the element at a position. -/
def remove (xs : CArray α) (i : ℕ) : CArray α := xs.set i none

/-- Put `a` at a position that is free. -/
def addAt (xs : CArray α) (i : ℕ) (a : α) : CArray α :=
  (xs ++ List.replicate (i + 1 - xs.length) none).set i (some a)

/-- Put `a` at the first position that is free. -/
def add : CArray α → α → CArray α
  | [], a => [some a]
  | none :: xs, a => some a :: xs
  | some b :: xs, a => some b :: add xs a

@[simp] theorem get_nil : get ([] : CArray α) = fun _ => none := rfl

theorem get_remove (xs : CArray α) (i : ℕ) :
    (xs.remove i).get = Function.update xs.get i none := by
  funext j
  unfold get remove
  rw [Function.update_apply, List.getElem?_set]
  by_cases hij : i = j
  · subst hij
    rw [if_pos rfl, if_pos rfl]
    split <;> rfl
  · rw [if_neg hij, if_neg (Ne.symm hij)]

theorem get_addAt (xs : CArray α) (i : ℕ) (a : α) :
    (xs.addAt i a).get = Function.update xs.get i (some a) := by
  funext j
  unfold get addAt
  rw [Function.update_apply, List.getElem?_set]
  by_cases hij : i = j
  · subst hij
    rw [if_pos rfl, if_pos rfl, if_pos (by simp; omega)]
    rfl
  · rw [if_neg hij, if_neg (Ne.symm hij), List.getElem?_append]
    split
    · rfl
    · rename_i hlen
      rw [List.getElem?_replicate, List.getElem?_eq_none (Nat.not_lt.1 hlen)]
      split <;> rfl

/-- The first position that is free is the one to which `add` puts the object. -/
theorem get_add {xs : CArray α} {i : ℕ} (hbefore : ∀ j < i, (xs.get j).isSome)
    (hfree : xs.get i = none) (a : α) : (xs.add a).get = Function.update xs.get i (some a) := by
  induction xs generalizing i with
  | nil =>
    obtain rfl : i = 0 := by
      by_contra hi
      simpa using hbefore 0 (Nat.pos_of_ne_zero hi)
    funext j
    cases j <;> rfl
  | cons x xs ih =>
    cases x with
    | none =>
      obtain rfl : i = 0 := by
        by_contra hi
        simpa [get] using hbefore 0 (Nat.pos_of_ne_zero hi)
      funext j
      cases j <;> rfl
    | some b =>
      cases i with
      | zero => simp [get] at hfree
      | succ i =>
        have h := ih (fun j hj => by simpa [get] using hbefore (j + 1) (Nat.succ_lt_succ hj))
          (by simpa [get] using hfree)
        funext j
        cases j with
        | zero => rfl
        | succ j =>
          have hj := congrFun h j
          simp only [Function.update_apply, Nat.add_right_cancel_iff] at hj ⊢
          exact hj

end CArray

/-! ### Marks -/

/-- The marks as a function of the position. -/
def flag (xs : List Bool) : ℕ → Bool := fun i => xs.getD i false

theorem flag_set {xs : List Bool} {i : ℕ} {b : Bool} (hi : i < xs.length) :
    flag (xs.set i b) = Function.update (flag xs) i b := by
  funext j
  unfold flag
  rw [Function.update_apply, List.getD_eq_getElem?_getD, List.getD_eq_getElem?_getD,
    List.getElem?_set]
  by_cases hij : i = j
  · subst hij
    rw [if_pos rfl, if_pos rfl, if_pos hi]
    rfl
  · rw [if_neg hij, if_neg (Ne.symm hij)]

theorem flag_replicate {n : ℕ} : flag (List.replicate n false) = fun _ => false := by
  funext j
  unfold flag
  rw [List.getD_eq_getElem?_getD, List.getElem?_replicate]
  split <;> rfl

/-! ### The entity -/

/-- The parameters of the entity. -/
structure AmTxParams where
  /-- How often a fragment is sent again. -/
  maxRtx : ℤ
  /-- The bytes of a fragment. -/
  fragmentSize : ℕ
  /-- A fragment has some data. -/
  fragmentSize_pos : 0 < fragmentSize
  /-- The number of positions in the window, an `int` of the NED file. -/
  txWindowSize : ℕ
  /-- It is not above `INT_MAX`. -/
  txWindowSize_lt : txWindowSize < 2147483648

/-- How far the current SDU has been put into the window. -/
structure RlcFragDesc where
  /-- The fragments of the SDU. -/
  totalFragments : ℕ := 0
  /-- The fragments that are in the window. -/
  fragCounter : ℕ := 0
  /-- The sequence number of the first one. -/
  firstSn : ℕ := 0

/-- The transmission window. -/
structure RlcWindowDesc where
  /-- The sequence number of the first position. -/
  firstSeqNum : ℕ := 0
  /-- The next sequence number. -/
  seqNum : ℕ := 0

/-- The commands to move the window. -/
structure MrwDesc where
  /-- The number of the next command. -/
  mrwSeqNum : ℕ := 0
  /-- The number of the last command. -/
  lastMrw : ℕ := 0

/-- What can be seen of the entity. -/
inductive AmOutput where
  /-- A fragment is put into the window for the first time. -/
  | put (pdu : LteRlcAmPdu)
  /-- The SDU with this sequence number is discarded. -/
  | discarded (snoMainPacket : ℕ)
  /-- The MAC is told that there is data. -/
  | newData
  /-- A PDU is sent down. -/
  | sent (pdu : LteRlcAmPdu)
  /-- The first PDU does not fit: one bit is sent down. -/
  | sentEmpty
  deriving DecidableEq

/-- The exceptions of the entity. -/
inductive AmError where
  /-- A `vector` is accessed outside of its range. -/
  | outOfRange
  /-- "Illegal i". -/
  | illegalIndex
  /-- The position of a `cArray` is an `int`, and less than 0. -/
  | negativePosition
  /-- A queue or list that must not be empty is. -/
  | emptyQueue
  /-- "Pdu sequence numbers must be check". -/
  | wrongSequenceNumber
  /-- A PDU at a position that must be free. -/
  | busyPosition
  /-- A PDU is added at a position that is marked received or discarded. -/
  | markedPosition
  /-- There is no PDU at a position that must have one. -/
  | missingPdu
  /-- A timer that is running is started. -/
  | timerBusy
  /-- A sequence number outside of the window. -/
  | outOfWindow
  /-- A timer for a PDU that has been received. -/
  | alreadyReceived
  deriving DecidableEq

/-- An AM sender. -/
structure AmTxQueue where
  /-- The SDU that is being put into the window. -/
  currentSdu : Option LteRlcAmSdu := none
  /-- Its fragments that are not in the window. -/
  fragmentList : Option (List LteRlcAmPdu) := none
  /-- Their positions. -/
  txWindowIndexList : List ℕ := []
  /-- How far it has come. -/
  fragDesc : RlcFragDesc := {}
  /-- The SDUs that wait for the window. -/
  sduQueue : List LteRlcAmSdu := []
  /-- The window. -/
  pduRtxQueue : CArray LteRlcAmPdu := []
  /-- The commands that have not been answered. -/
  mrwRtxQueue : CArray LteRlcAmPdu := []
  /-- The PDUs that wait for a request of the MAC. -/
  pduBuffer : List LteRlcAmPdu := []
  /-- The positions whose fragments have been acknowledged. -/
  received : List Bool
  /-- The positions whose fragments have been given up. -/
  discarded : List Bool
  /-- Where the window is. -/
  txWindowDesc : RlcWindowDesc := {}
  /-- The numbers of the commands. -/
  mrwDesc : MrwDesc := {}
  /-- The sequence numbers of the fragments whose timers run. -/
  pduTimer : List ℕ := []
  /-- The commands whose timers run. -/
  mrwTimer : List ℕ := []
  /-- Whether the timer for the buffer status runs. -/
  bufferStatusTimer : Bool := false
  /-- What the event that is handled has done so far. -/
  out : List AmOutput := []

/-- `vector::at`. -/
def readAt (xs : List Bool) (i : ℕ) : Except AmError Bool :=
  match xs[i]? with
  | some b => .ok b
  | none => .error .outOfRange

/-- Assignment to `vector::at`. -/
def writeAt (xs : List Bool) (i : ℕ) (b : Bool) : Except AmError (List Bool) :=
  if i < xs.length then .ok (xs.set i b) else .error .outOfRange

/-- `TMultiTimer::add`. -/
def timerAdd (timer : List ℕ) (event : ℕ) : Except AmError (List ℕ) :=
  if event ∈ timer then .error .timerBusy else .ok (timer ++ [event])

namespace AmTxQueue

variable (P : AmTxParams)

/-- `initialize`. -/
def initial : AmTxQueue where
  received := List.replicate P.txWindowSize false
  discarded := List.replicate (P.txWindowSize + 1) false

/-- The number of positions of the window that are in use. -/
def used (s : AmTxQueue) : ℕ := sub32 s.txWindowDesc.seqNum s.txWindowDesc.firstSeqNum

/-- Add an output. -/
def emit (s : AmTxQueue) (o : AmOutput) : AmTxQueue := { s with out := s.out ++ [o] }

/-- Keep a PDU for the MAC, which is told of the first one. -/
def bufferPdu (s : AmTxQueue) (pdu : LteRlcAmPdu) : AmTxQueue :=
  if s.pduBuffer = [] then { s with pduBuffer := [pdu], out := s.out ++ [.newData] }
  else { s with pduBuffer := s.pduBuffer ++ [pdu] }

/-! ### Fragmentation -/

/-- The number of fragments of an SDU. -/
def nrFragments (d : LteRlcAmSdu) : ℕ := (d.byteLength + P.fragmentSize - 1) / P.fragmentSize

/-- The `i`-th of `total` fragments of an SDU whose first one has sequence number `sn`. -/
def fragment (d : LteRlcAmSdu) (sn total i : ℕ) : LteRlcAmPdu where
  amType := .DATA
  totalFragments := total
  snoFragment := u32 (sn + i)
  firstSn := i32 sn
  lastSn := i32 sn + total - 1
  snoMainPacket := d.snoMainPacket
  offset := i * P.fragmentSize
  length := if i + 1 = total then d.byteLength - i * P.fragmentSize else P.fragmentSize

/-- `fragmentFrame`: the fragments of an SDU and their positions in the window. -/
def fragmentFrame (s : AmTxQueue) (d : LteRlcAmSdu) (total : ℕ) :
    Except AmError (List LteRlcAmPdu × List ℕ) :=
  let indices := (List.range total).map fun i =>
    sub32 (u32 (s.txWindowDesc.seqNum + i)) s.txWindowDesc.firstSeqNum
  if indices.any (200 ≤ ·) then .error .illegalIndex
  else .ok ((List.range total).map (fragment P d s.txWindowDesc.seqNum total), indices)

/-- The part of `addPdus` that takes the next SDU.  An SDU that does not fit has left the queue
by then. -/
def nextSdu (s : AmTxQueue) : Except AmError AmTxQueue :=
  match s.currentSdu, s.sduQueue with
  | some _, _ => .ok s
  | none, [] => .error .emptyQueue
  | none, d :: sdus =>
    let s := { s with sduQueue := sdus }
    if u32 (s.txWindowDesc.seqNum + nrFragments P d) <
        u32 (s.txWindowDesc.firstSeqNum + P.txWindowSize) then do
      let (fragments, indices) ← fragmentFrame P s d (nrFragments P d)
      .ok { s with
        fragDesc := { totalFragments := nrFragments P d, firstSn := s.txWindowDesc.seqNum }
        currentSdu := some d
        fragmentList := some fragments
        txWindowIndexList := indices }
    else .ok s

/-- The fragment has been put into the window: count it, and be done with the SDU if it was the
last one. -/
def addFragment (s : AmTxQueue) (rest : List LteRlcAmPdu) : AmTxQueue :=
  if s.fragDesc.totalFragments ≤ s.fragDesc.fragCounter + 1 ∨ rest = [] then
    { s with fragmentList := none, txWindowIndexList := [], fragDesc := {}, currentSdu := none }
  else
    { s with
      fragmentList := some rest
      fragDesc := { s.fragDesc with fragCounter := s.fragDesc.fragCounter + 1 } }

/-- A position that is given to a new fragment must not be marked. -/
def checkUnmarked (s : AmTxQueue) (i : ℕ) : Except AmError Unit := do
  let received ← readAt s.received i
  if received then .error .markedPosition
  else do
    let discarded ← readAt s.discarded i
    if discarded then .error .markedPosition else .ok ()

/-- The part of `addPdus` that puts one fragment into the window. -/
def putPdu (s : AmTxQueue) (pdu : LteRlcAmPdu) (rest : List LteRlcAmPdu) :
    Except AmError AmTxQueue :=
  match s.txWindowIndexList with
  | [] => .error .emptyQueue
  | i :: indices =>
    if pdu.snoFragment ≠ s.txWindowDesc.seqNum then .error .wrongSequenceNumber
    else if (s.pduRtxQueue.get i).isSome then .error .busyPosition
    else if 200 ≤ i then .error .illegalIndex
    else do
      checkUnmarked s i
      let pduTimer ← timerAdd s.pduTimer s.txWindowDesc.seqNum
      let s := { s with
        txWindowIndexList := indices
        pduRtxQueue := s.pduRtxQueue.addAt i pdu
        pduTimer }
      let s := (s.emit (.put pdu)).addFragment rest
      .ok (bufferPdu { s with
        txWindowDesc := { s.txWindowDesc with seqNum := u32 (s.txWindowDesc.seqNum + 1) }
        bufferStatusTimer := true } pdu)

/-- The loop of `addPdus`.  Every turn but the last one takes a position of the window, so there
are at most `txWindowSize` of them. -/
def addPdusLoop : ℕ → AmTxQueue → Except AmError AmTxQueue
  | 0, s => .ok s
  | n + 1, s =>
    if s.used < P.txWindowSize then
      if s.currentSdu = none ∧ s.sduQueue = [] ∧
          (s.fragmentList = none ∨ s.fragmentList = some []) then .ok s
      else do
        let s ← nextSdu P s
        match s.fragmentList with
        | none => .ok s
        | some [] => .error .emptyQueue
        | some (pdu :: rest) => do addPdusLoop n (← putPdu s pdu rest)
    else .ok s

/-- Fill the window with fragments. -/
def addPdus (s : AmTxQueue) : Except AmError AmTxQueue := addPdusLoop P P.txWindowSize s

/-- An SDU arrives. -/
def enque (s : AmTxQueue) (d : LteRlcAmSdu) : Except AmError AmTxQueue :=
  let s := { s with sduQueue := s.sduQueue ++ [d] }
  if s.currentSdu = none ∧ s.used < P.txWindowSize then addPdus P s else .ok s

/-! ### Moving the window -/

/-- The command to start the window at `sn`. -/
def mrwPdu (mrwSeqNum : ℕ) (sn : ℤ) : LteRlcAmPdu where
  amType := .MRW
  totalFragments := 1
  snoFragment := mrwSeqNum
  snoMainPacket := mrwSeqNum
  firstSn := 0
  lastSn := sn
  chunkLength := P.fragmentSize

/-- `sendMrw`: tell the receiver to start its window at `sn`. -/
def sendMrw (s : AmTxQueue) (sn : ℤ) : Except AmError AmTxQueue :=
  let mrwSeqNum := s.mrwDesc.mrwSeqNum
  let pdu := mrwPdu P mrwSeqNum sn
  if i32 mrwSeqNum < 0 then .error .negativePosition
  else if (s.mrwRtxQueue.get mrwSeqNum).isSome then .error .busyPosition
  else do
    let mrwTimer ← timerAdd s.mrwTimer mrwSeqNum
    .ok (bufferPdu { s with
      mrwRtxQueue := s.mrwRtxQueue.addAt mrwSeqNum pdu
      mrwTimer
      mrwDesc := { mrwSeqNum := u32 (mrwSeqNum + 1), lastMrw := mrwSeqNum } } pdu)

/-- The number of positions from `i` on, of the next `n`, that are discarded or received without
a gap. -/
def doneFrom (s : AmTxQueue) : ℕ → ℕ → Except AmError ℕ
  | 0, _ => .ok 0
  | n + 1, i => do
    let discarded ← readAt s.discarded i
    let done ← if discarded then .ok true else readAt s.received i
    if done then return (← doneFrom s n (i + 1)) + 1 else return 0

/-- Move the window if its first positions are done with. -/
def checkForMrw (s : AmTxQueue) : Except AmError AmTxQueue := do
  let n ← s.doneFrom s.used 0
  if 0 < n then sendMrw P s (i32 (s.txWindowDesc.firstSeqNum + n)) else .ok s

/-- Stop the timer of position `i`, if it runs. -/
def stopTimer (s : AmTxQueue) (i : ℕ) : AmTxQueue :=
  { s with pduTimer := s.pduTimer.erase (u32 (i + s.txWindowDesc.firstSeqNum)) }

/-- The fragments of SDU `sno` that follow position `i`, among the next `n`, are discarded. -/
def discardForward (sno : ℕ) : ℕ → ℕ → AmTxQueue → Except AmError AmTxQueue
  | 0, _, s => .ok s
  | n + 1, i, s =>
    match s.pduRtxQueue.get i with
    | none => .ok s
    | some pdu =>
      if pdu.snoMainPacket = sno then do
        let wasDiscarded ← readAt s.discarded i
        let s' := { s with discarded := s.discarded.set i true }
        discardForward sno n (i + 1) (if wasDiscarded then s else s'.stopTimer i)
      else .ok s

/-- The fragments of SDU `sno` that precede position `i` are discarded. -/
def discardBackward (sno : ℕ) : ℕ → AmTxQueue → Except AmError AmTxQueue
  | 0, s => .ok s
  | i + 1, s =>
    match s.pduRtxQueue.get i with
    | none => .error .missingPdu
    | some pdu =>
      if pdu.snoMainPacket = sno then do
        let discarded ← writeAt s.discarded i true
        discardBackward sno i (stopTimer { s with discarded } i)
      else .ok s

/-- `discard`: give up the SDU of the PDU with sequence number `sn`. -/
def discard (s : AmTxQueue) (sn : ℕ) : Except AmError AmTxQueue :=
  -- a negative index is at least 2^31 as an `unsigned int`
  let i := sub32 sn s.txWindowDesc.firstSeqNum
  if P.txWindowSize ≤ i then .error .outOfWindow
  else do
    let discarded ← writeAt s.discarded i true
    match s.pduRtxQueue.get i with
    | none => .error .missingPdu
    | some pdu =>
      let s := { s with discarded, pduTimer := s.pduTimer.erase sn }
      let s ← discardForward pdu.snoMainPacket (s.used - (i + 1)) (i + 1) s
      let s ← discardBackward pdu.snoMainPacket i s
      checkForMrw P (s.emit (.discarded pdu.snoMainPacket))

/-- Position `i` leaves the window. -/
def freePosition (s : AmTxQueue) (i : ℕ) : Except AmError AmTxQueue :=
  match s.pduRtxQueue.get i with
  | none => .error .missingPdu
  | some _ => do
    let received ← writeAt s.received i false
    let discarded ← writeAt s.discarded i false
    .ok (stopTimer { s with pduRtxQueue := s.pduRtxQueue.remove i, received, discarded } i)

/-- Position `i` becomes position `i - pos`. -/
def shiftPosition (pos : ℕ) (s : AmTxQueue) (i : ℕ) : Except AmError AmTxQueue :=
  match s.pduRtxQueue.get i with
  | none => .error .missingPdu
  | some pdu =>
    if ((s.pduRtxQueue.remove i).get (i - pos)).isSome then .error .busyPosition
    else do
      let wasReceived ← readAt s.received i
      let received ← writeAt s.received (i - pos) wasReceived
      let wasDiscarded ← readAt s.discarded i
      let discarded ← writeAt s.discarded (i - pos) wasDiscarded
      let received ← writeAt received i false
      let discarded ← writeAt discarded i false
      .ok { s with
        pduRtxQueue := (s.pduRtxQueue.remove i).addAt (i - pos) pdu
        received, discarded }

/-- Position `i` was not in use. -/
def cleanPosition (s : AmTxQueue) (i : ℕ) : Except AmError AmTxQueue :=
  if (s.pduRtxQueue.get i).isSome then .error .busyPosition
  else do
    let received ← writeAt s.received i false
    let discarded ← writeAt s.discarded i false
    .ok { s with received, discarded }

/-- `moveTxWindow`: start the window at `sn`. -/
def moveTxWindow (s : AmTxQueue) (sn : ℕ) : Except AmError AmTxQueue :=
  if i32 (sub32 sn s.txWindowDesc.firstSeqNum) ≤ 0 then .ok s
  else do
    let pos := sub32 sn s.txWindowDesc.firstSeqNum
    let s ← (List.range pos).foldlM freePosition s
    let s ← (List.range' pos (s.used - pos)).foldlM (shiftPosition pos) s
    let s ← (List.range' s.used (P.txWindowSize - s.used)).foldlM cleanPosition s
    addPdus P { s with
      txWindowDesc := { s.txWindowDesc with
        firstSeqNum := u32 (s.txWindowDesc.firstSeqNum + pos) } }

/-! ### Acknowledgements and timers -/

/-- Position `i` has been received. -/
def markReceived (s : AmTxQueue) (i : ℕ) : Except AmError AmTxQueue := do
  let received ← readAt s.received i
  if received then .ok s
  else .ok (stopTimer { s with received := s.received.set i true } i)

/-- The acknowledgement of one PDU arrives. -/
def recvAck (s : AmTxQueue) (sn : ℤ) : Except AmError AmTxQueue :=
  let i := sub32 (ofInt32 sn) s.txWindowDesc.firstSeqNum
  if i32 i < 0 then .ok s
  else if P.txWindowSize ≤ i then .error .outOfWindow
  else s.markReceived i

/-- A cumulative acknowledgement arrives. -/
def recvCumulativeAck (s : AmTxQueue) (sn : ℤ) : Except AmError AmTxQueue :=
  if ofInt32 sn < s.txWindowDesc.firstSeqNum ∨ sn < 0 then .ok s
  else if u32 (s.txWindowDesc.firstSeqNum + P.txWindowSize) < ofInt32 sn then .error .outOfWindow
  else do
    let n := sub32 (ofInt32 sn) s.txWindowDesc.firstSeqNum
    let s ← (List.range (n + 1)).foldlM markReceived s
    checkForMrw P s

/-- The ACK of a receiver: all up to `lastSn`, and what the bitmap marks from `firstSn` on. -/
def handleAck (s : AmTxQueue) (firstSn lastSn : ℤ) (bitmap : List Bool) :
    Except AmError AmTxQueue := do
  let s ← recvCumulativeAck P s lastSn
  (List.range bitmap.length).foldlM
    (fun s i => if bitmap.getD i false then recvAck P s (firstSn + i) else .ok s) s

/-- The acknowledgement of a command to move the window arrives. -/
def recvMrwAck (s : AmTxQueue) (sn : ℕ) : AmTxQueue :=
  match s.mrwRtxQueue.get sn with
  | none => s
  | some _ => { s with mrwRtxQueue := s.mrwRtxQueue.remove sn, mrwTimer := s.mrwTimer.erase sn }

/-- The retransmission timer of `sn` has expired; `handle` has taken it out of the list. -/
def pduTimerHandle (s : AmTxQueue) (sn : ℕ) : Except AmError AmTxQueue :=
  let i := sub32 sn s.txWindowDesc.firstSeqNum
  if P.txWindowSize ≤ i then .error .outOfWindow
  else
    match s.pduRtxQueue.get i with
    | none => .error .missingPdu
    | some pdu => do
      let received ← readAt s.received i
      if received then .error .alreadyReceived
      else if P.maxRtx < pdu.txNumber + 1 then discard P s sn
      else do
        let pdu := { pdu with txNumber := (pdu.txNumber + 1) % 65536 }
        let pduTimer ← timerAdd s.pduTimer sn
        .ok (bufferPdu { s with
          pduRtxQueue := (s.pduRtxQueue.remove i).add pdu
          pduTimer } pdu)

/-- The timer of the MRW `sn` has expired; `handle` has taken it out of the list. -/
def mrwTimerHandle (s : AmTxQueue) (sn : ℕ) : Except AmError AmTxQueue :=
  match s.mrwRtxQueue.get sn with
  | none => .error .missingPdu
  | some pdu =>
    if sn < s.mrwDesc.lastMrw then .ok { s with mrwRtxQueue := s.mrwRtxQueue.remove sn }
    else do
      let mrwTimer ← timerAdd s.mrwTimer sn
      .ok (bufferPdu { s with mrwTimer } pdu)

/-- `sendPdus`: the MAC asks for a PDU of at most `size` bytes. -/
def sendPdus (s : AmTxQueue) (size : ℤ) : Except AmError AmTxQueue :=
  match s.pduBuffer with
  | [] => .error .emptyQueue
  | pdu :: pdus =>
    if (pdu.byteLength : ℤ) ≤ size then
      let s := ({ s with pduBuffer := pdus }).emit (.sent pdu)
      .ok (if pdus = [] then s else s.emit .newData)
    else .ok ((s.emit .sentEmpty).emit .newData)

/-! ### Events -/

/-- What happens to the entity. -/
inductive Event where
  /-- An SDU comes from PDCP. -/
  | enque (sdu : LteRlcAmSdu)
  /-- The receiver has moved its window. -/
  | mrwAck (snoFragment snoMainPacket : ℕ)
  /-- The receiver acknowledges PDUs. -/
  | ack (firstSn lastSn : ℤ) (bitmap : List Bool)
  /-- The first retransmission timer expires. -/
  | pduTimer
  /-- The first MRW timer expires. -/
  | mrwTimer
  /-- The buffer status timer expires. -/
  | bufferStatusTimer
  /-- The MAC asks for a PDU. -/
  | sendPdus (size : ℤ)
  /-- The receiving entity of the connection sends a control PDU. -/
  | bufferControlPdu (pdu : LteRlcAmPdu)

/-- The handlers. -/
def handle (s : AmTxQueue) : Event → Except AmError AmTxQueue
  | .enque d => enque P s d
  | .mrwAck snoFragment snoMainPacket => do
    let s ← moveTxWindow P s snoFragment
    .ok (s.recvMrwAck snoMainPacket)
  | .ack firstSn lastSn bitmap => handleAck P s firstSn lastSn bitmap
  | .pduTimer =>
    match s.pduTimer with
    | [] => .error .emptyQueue
    | sn :: timers => pduTimerHandle P { s with pduTimer := timers } sn
  | .mrwTimer =>
    match s.mrwTimer with
    | [] => .error .emptyQueue
    | sn :: timers => mrwTimerHandle { s with mrwTimer := timers } sn
  | .bufferStatusTimer => do
    let s ← checkForMrw P s
    .ok { s with bufferStatusTimer := false }
  | .sendPdus size => s.sendPdus size
  | .bufferControlPdu pdu => .ok (s.bufferPdu pdu)

/-- The entity as a machine; a run ends where a handler throws. -/
def machine : Machine AmTxQueue Event AmOutput where
  step s e :=
    match handle P { s with out := [] } e with
    | .ok s' => some (s', s'.out)
    | .error _ => none

/-! ### What happens to the accepted SDUs -/

/-- The SDUs that `enque` has accepted. -/
def accepted (es : List Event) : List LteRlcAmSdu :=
  es.filterMap fun
    | .enque d => some d
    | _ => none

/-- The fragments that have been put into the window. -/
def puts (os : List AmOutput) : List LteRlcAmPdu :=
  os.filterMap fun
    | .put pdu => some pdu
    | _ => none

/-- `block` is all of the SDU `d`, in fragments with contiguous, increasing sequence numbers. -/
structure Fragmentation (d : LteRlcAmSdu) (block : List LteRlcAmPdu) : Prop where
  length : block.length = nrFragments P d
  snoFragment : ∃ sn, ∀ (i : ℕ) (pdu : LteRlcAmPdu), block[i]? = some pdu → pdu.snoFragment = sn + i
  snoMainPacket : ∀ pdu ∈ block, pdu.snoMainPacket = d.snoMainPacket
  /-- Every fragment starts where the one before it ends, and the last one ends the SDU. -/
  bytes : ∀ (i : ℕ) (pdu : LteRlcAmPdu), block[i]? = some pdu → pdu.offset = i * P.fragmentSize ∧
    pdu.offset + pdu.length = min ((i + 1) * P.fragmentSize) d.byteLength

/-- Every SDU of `sdus` is still queued, or has been put into the window as a whole, or has been
discarded. -/
def Accounted (sdus : List LteRlcAmSdu) (s : AmTxQueue) (os : List AmOutput) : Prop :=
  ∃ (inWindow dropped : List LteRlcAmSdu) (blocks : List (List LteRlcAmPdu)),
    sdus.Perm (inWindow ++ dropped ++ s.sduQueue) ∧
    List.Forall₂ (Fragmentation P) inWindow blocks ∧ blocks.flatten.Sublist (puts os) ∧
    ∀ d ∈ dropped, AmOutput.discarded d.snoMainPacket ∈ os

/-- The SDU leaves a position of the window free, and the sequence numbers do not wrap in the
middle of it. -/
def Fits (s : AmTxQueue) (d : LteRlcAmSdu) : Prop :=
  s.used + nrFragments P d < P.txWindowSize ∧
  s.txWindowDesc.seqNum + nrFragments P d ≤ 4294967296 ∧
  u32 (s.txWindowDesc.seqNum + nrFragments P d) <
    u32 (s.txWindowDesc.firstSeqNum + P.txWindowSize)

instance (s : AmTxQueue) (d : LteRlcAmSdu) : Decidable (Fits P s d) :=
  inferInstanceAs (Decidable (_ ∧ _))

/-- Every SDU that comes fits. -/
def Event.Ok (s : AmTxQueue) : Event → Prop
  | .enque d => Fits P s d
  | _ => True

instance (s : AmTxQueue) (e : Event) : Decidable (e.Ok P s) := by
  cases e <;> unfold Event.Ok <;> infer_instance

/-! ### The handlers that put nothing into the window -/

/-- The part of the state that the way of an SDU into the window is about. -/
def sduPart (s : AmTxQueue) :
    Option LteRlcAmSdu × Option (List LteRlcAmPdu) × List LteRlcAmSdu × ℕ × List LteRlcAmPdu :=
  (s.currentSdu, s.fragmentList, s.sduQueue, s.txWindowDesc.seqNum, puts s.out)

/-- If the computation returns, it has left the SDUs alone. -/
abbrev Keeps (s : AmTxQueue) (x : Except AmError AmTxQueue) : Prop :=
  Ensures (fun _ => True) (fun s' => s'.sduPart = s.sduPart) x

variable {P} {s s' : AmTxQueue} {d : LteRlcAmSdu} {pdu : LteRlcAmPdu}

theorem Keeps.bind {x : Except AmError AmTxQueue} {f : AmTxQueue → Except AmError AmTxQueue}
    (hx : Keeps s x) (hf : ∀ s', Keeps s' (f s')) : Keeps s (x >>= f) :=
  Ensures.bind hx fun s' h => (hf s').mono fun _ h' => h'.trans h

theorem Keeps.foldlM {β : Type} {g : AmTxQueue → β → Except AmError AmTxQueue} {xs : List β}
    (hg : ∀ s b, Keeps s (g s b)) : Keeps s (xs.foldlM g s) :=
  Ensures.foldlM rfl fun s' b h => (hg s' b).mono fun _ h' => h'.trans h

@[simp] theorem puts_append (os os' : List AmOutput) : puts (os ++ os') = puts os ++ puts os' :=
  List.filterMap_append

@[simp] theorem puts_put : puts [.put pdu] = [pdu] := rfl

@[simp] theorem sduPart_bufferPdu : (s.bufferPdu pdu).sduPart = s.sduPart := by
  unfold bufferPdu
  split
  · simp [sduPart, puts]
  · rfl

@[simp] theorem sduPart_stopTimer {i : ℕ} : (s.stopTimer i).sduPart = s.sduPart := rfl

theorem sendMrw_keeps (sn : ℤ) : Keeps s (sendMrw P s sn) := by
  unfold sendMrw
  dsimp only
  split
  · trivial
  · split
    · trivial
    · exact Ensures.after fun _ => sduPart_bufferPdu

theorem checkForMrw_keeps : Keeps s (checkForMrw P s) := by
  refine Ensures.after fun n => ?_
  split
  · exact sendMrw_keeps _
  · rfl

theorem discardForward_keeps {sno : ℕ} (n i : ℕ) : Keeps s (discardForward sno n i s) := by
  induction n generalizing i s with
  | zero => rfl
  | succ n ih =>
    unfold discardForward
    split
    · rfl
    · split
      · refine Ensures.after fun wasDiscarded => (ih (i + 1)).mono fun s' h => ?_
        cases wasDiscarded
        · exact h
        · exact h
      · rfl

theorem discardBackward_keeps {sno : ℕ} (i : ℕ) : Keeps s (discardBackward sno i s) := by
  induction i generalizing s with
  | zero => rfl
  | succ i ih =>
    unfold discardBackward
    split
    · trivial
    · split
      · exact Ensures.after fun discarded => ih.mono fun s' h => h
      · rfl

theorem discard_keeps (sn : ℕ) : Keeps s (discard P s sn) := by
  unfold discard
  dsimp only
  split
  · trivial
  · refine Ensures.after fun discarded => ?_
    split
    · trivial
    · rename_i pdu _
      have hmarks : Keeps s (discardForward pdu.snoMainPacket
          (s.used - (sub32 sn s.txWindowDesc.firstSeqNum + 1))
          (sub32 sn s.txWindowDesc.firstSeqNum + 1)
          { s with discarded, pduTimer := s.pduTimer.erase sn }) :=
        (discardForward_keeps _ _).mono fun s' h => h
      refine hmarks.bind fun s₁ => (discardBackward_keeps _).bind fun s₂ => ?_
      refine checkForMrw_keeps.mono fun s' h => h.trans ?_
      simp [sduPart, emit, puts]

theorem freePosition_keeps (i : ℕ) : Keeps s (s.freePosition i) := by
  unfold freePosition
  split
  · trivial
  · exact Ensures.after fun _ => Ensures.after fun _ => rfl

theorem shiftPosition_keeps {pos : ℕ} (i : ℕ) : Keeps s (shiftPosition pos s i) := by
  unfold shiftPosition
  split
  · trivial
  · split
    · trivial
    · exact Ensures.after fun _ => Ensures.after fun _ => Ensures.after fun _ =>
        Ensures.after fun _ => Ensures.after fun _ => Ensures.after fun _ => rfl

theorem cleanPosition_keeps (i : ℕ) : Keeps s (s.cleanPosition i) := by
  unfold cleanPosition
  split
  · trivial
  · exact Ensures.after fun _ => Ensures.after fun _ => rfl

theorem markReceived_keeps (i : ℕ) : Keeps s (s.markReceived i) := by
  refine Ensures.after fun received => ?_
  split
  · rfl
  · rfl

theorem recvAck_keeps (sn : ℤ) : Keeps s (recvAck P s sn) := by
  unfold recvAck
  dsimp only
  split
  · rfl
  · split
    · trivial
    · exact markReceived_keeps _

theorem recvCumulativeAck_keeps (sn : ℤ) : Keeps s (recvCumulativeAck P s sn) := by
  unfold recvCumulativeAck
  split
  · rfl
  · split
    · trivial
    · exact (Keeps.foldlM fun _ i => markReceived_keeps i).bind fun _ => checkForMrw_keeps

theorem handleAck_keeps (firstSn lastSn : ℤ) (bitmap : List Bool) :
    Keeps s (handleAck P s firstSn lastSn bitmap) := by
  refine (recvCumulativeAck_keeps lastSn).bind fun s' => Keeps.foldlM fun s'' i => ?_
  split
  · exact recvAck_keeps _
  · rfl

theorem sduPart_recvMrwAck (sn : ℕ) : (s.recvMrwAck sn).sduPart = s.sduPart := by
  unfold recvMrwAck
  split
  · rfl
  · rfl

theorem pduTimerHandle_keeps (sn : ℕ) : Keeps s (pduTimerHandle P s sn) := by
  unfold pduTimerHandle
  dsimp only
  split
  · trivial
  · split
    · trivial
    · refine Ensures.after fun received => ?_
      split
      · trivial
      · split
        · exact discard_keeps sn
        · exact Ensures.after fun _ => sduPart_bufferPdu

theorem mrwTimerHandle_keeps (sn : ℕ) : Keeps s (s.mrwTimerHandle sn) := by
  unfold mrwTimerHandle
  split
  · trivial
  · split
    · rfl
    · exact Ensures.after fun _ => sduPart_bufferPdu

theorem sendPdus_keeps (size : ℤ) : Keeps s (s.sendPdus size) := by
  unfold sendPdus
  split
  · trivial
  · split
    · dsimp only [Ensures]
      split <;> simp [sduPart, emit, puts]
    · simp [sduPart, emit, puts]

/-! ### Putting an SDU into the window -/

/-- There is no SDU that waits, as a whole or in part. -/
structure Idle (s : AmTxQueue) : Prop where
  currentSdu : s.currentSdu = none
  fragmentList : s.fragmentList = none
  sduQueue : s.sduQueue = []

theorem Idle.congr (h : s.Idle) (hs : s'.sduPart = s.sduPart) : s'.Idle := by
  simp only [sduPart, Prod.mk.injEq] at hs
  exact ⟨hs.1.trans h.currentSdu, hs.2.1.trans h.fragmentList, hs.2.2.1.trans h.sduQueue⟩

/-- `addPdus` has nothing to do. -/
theorem addPdusLoop_idle {n : ℕ} (h : s.Idle) : addPdusLoop P n s = .ok s := by
  cases n with
  | zero => rfl
  | succ n =>
    unfold addPdusLoop
    rw [if_pos (⟨h.currentSdu, h.sduQueue, Or.inl h.fragmentList⟩ :
      s.currentSdu = none ∧ s.sduQueue = [] ∧ _)]
    split <;> rfl

theorem moveTxWindow_keeps (h : s.Idle) (sn : ℕ) : Keeps s (moveTxWindow P s sn) := by
  unfold moveTxWindow
  split
  · rfl
  · refine Ensures.bind (Keeps.foldlM fun _ i => freePosition_keeps i) fun s₁ h₁ => ?_
    refine Ensures.bind (Keeps.foldlM fun _ i => shiftPosition_keeps i) fun s₂ h₂ => ?_
    refine Ensures.bind (Keeps.foldlM fun _ i => cleanPosition_keeps i) fun s₃ h₃ => ?_
    have hs : s₃.sduPart = s.sduPart := h₃.trans (h₂.trans h₁)
    unfold addPdus
    rw [addPdusLoop_idle]
    · exact hs
    · exact (h.congr hs).congr rfl

@[simp] theorem bufferPdu_currentSdu : (s.bufferPdu pdu).currentSdu = s.currentSdu := by
  unfold bufferPdu; split <;> rfl

@[simp] theorem bufferPdu_fragmentList : (s.bufferPdu pdu).fragmentList = s.fragmentList := by
  unfold bufferPdu; split <;> rfl

@[simp] theorem bufferPdu_fragDesc : (s.bufferPdu pdu).fragDesc = s.fragDesc := by
  unfold bufferPdu; split <;> rfl

@[simp] theorem bufferPdu_sduQueue : (s.bufferPdu pdu).sduQueue = s.sduQueue := by
  unfold bufferPdu; split <;> rfl

@[simp] theorem bufferPdu_txWindowDesc : (s.bufferPdu pdu).txWindowDesc = s.txWindowDesc := by
  unfold bufferPdu; split <;> rfl

@[simp] theorem puts_bufferPdu : puts (s.bufferPdu pdu).out = puts s.out := by
  unfold bufferPdu
  split
  · simp [puts]
  · rfl

variable {rest : List LteRlcAmPdu}

@[simp] theorem addFragment_sduQueue : (s.addFragment rest).sduQueue = s.sduQueue := by
  unfold addFragment; split <;> rfl

@[simp] theorem addFragment_txWindowDesc :
    (s.addFragment rest).txWindowDesc = s.txWindowDesc := by
  unfold addFragment; split <;> rfl

@[simp] theorem addFragment_out : (s.addFragment rest).out = s.out := by
  unfold addFragment; split <;> rfl

theorem addFragment_nil :
    (s.addFragment []).currentSdu = none ∧ (s.addFragment []).fragmentList = none := by
  unfold addFragment
  rw [if_pos (Or.inr rfl)]
  exact ⟨rfl, rfl⟩

theorem addFragment_of_lt (hrest : rest ≠ [])
    (hlt : s.fragDesc.fragCounter + 1 < s.fragDesc.totalFragments) :
    (s.addFragment rest).currentSdu = s.currentSdu ∧
      (s.addFragment rest).fragmentList = some rest ∧
      (s.addFragment rest).fragDesc =
        { s.fragDesc with fragCounter := s.fragDesc.fragCounter + 1 } := by
  unfold addFragment
  rw [if_neg (by rw [not_or]; exact ⟨by omega, hrest⟩)]
  exact ⟨rfl, rfl, rfl⟩

/-- What a turn of the loop does with the fragment it takes. -/
structure Put (s : AmTxQueue) (pdu : LteRlcAmPdu) (rest : List LteRlcAmPdu) (s' : AmTxQueue) :
    Prop where
  txWindowDesc : s'.txWindowDesc =
    { s.txWindowDesc with seqNum := u32 (s.txWindowDesc.seqNum + 1) }
  sduQueue : s'.sduQueue = s.sduQueue
  puts : puts s'.out = puts s.out ++ [pdu]
  last : rest = [] → s'.currentSdu = none ∧ s'.fragmentList = none
  more : rest ≠ [] → s.fragDesc.fragCounter + 1 < s.fragDesc.totalFragments →
    s'.currentSdu = s.currentSdu ∧ s'.fragmentList = some rest ∧
      s'.fragDesc = { s.fragDesc with fragCounter := s.fragDesc.fragCounter + 1 }

theorem putPdu_spec : Ensures (fun _ => True) (Put s pdu rest) (putPdu s pdu rest) := by
  unfold putPdu
  split
  · trivial
  split
  · trivial
  split
  · trivial
  split
  · trivial
  refine Ensures.after fun _ => Ensures.after fun pduTimer => ?_
  refine Ensures.ok.2 ⟨by simp [emit], by simp [emit], by simp [emit], ?_, ?_⟩
  · rintro rfl
    simpa using addFragment_nil
  · intro hrest hlt
    simp only [bufferPdu_currentSdu, bufferPdu_fragmentList, bufferPdu_fragDesc]
    exact addFragment_of_lt hrest hlt

theorem used_succ (h : s'.txWindowDesc =
      { s.txWindowDesc with seqNum := u32 (s.txWindowDesc.seqNum + 1) })
    (hs : s.used + 1 < 4294967296) : s'.used = s.used + 1 := by
  unfold used at *
  rw [h]
  dsimp only
  unfold sub32 u32 at *
  omega

/-- A turn of the loop while an SDU is put into a window that is not full. -/
theorem addPdusLoop_turn (hrest : s.fragmentList = some (pdu :: rest))
    (hsdu : s.currentSdu ≠ none) {n : ℕ} (hused : s.used < P.txWindowSize) :
    addPdusLoop P (n + 1) s = putPdu s pdu rest >>= addPdusLoop P n := by
  have hnext : nextSdu P s = .ok s := by
    unfold nextSdu
    cases h : s.currentSdu with
    | none => exact absurd h hsdu
    | some d => rfl
  rw [addPdusLoop, if_pos hused, if_neg (fun h => hsdu h.1), hnext]
  show (match s.fragmentList with
    | none => _
    | some [] => _
    | some (pdu :: rest) => _) = _
  rw [hrest]

/-- All fragments of the current SDU are in the window, and nothing waits. -/
structure Placed (s : AmTxQueue) (fragments : List LteRlcAmPdu) (s' : AmTxQueue) : Prop where
  idle : s'.Idle
  puts : puts s'.out = puts s.out ++ fragments
  seqNum : s'.txWindowDesc.seqNum = u32 (s.txWindowDesc.seqNum + fragments.length)

/-- **The rest of an SDU that fits goes into the window.**  By induction on the fragments that are
left; the window is not full before a turn, and when they are all in it there is nothing to do. -/
theorem addPdusLoop_placed (hrest : s.fragmentList = some (pdu :: rest))
    (hsdu : s.currentSdu ≠ none) (hqueue : s.sduQueue = []) {n : ℕ} (hn : rest.length < n)
    (hcount : s.fragDesc.fragCounter + 1 + rest.length = s.fragDesc.totalFragments)
    (hfits : s.used + 1 + rest.length < P.txWindowSize) :
    Ensures (fun _ => True) (Placed s (pdu :: rest)) (addPdusLoop P n s) := by
  have hW := P.txWindowSize_lt
  induction rest generalizing s pdu n with
  | nil =>
    obtain ⟨n, rfl⟩ : ∃ m, n = m + 1 := ⟨n - 1, by omega⟩
    rw [addPdusLoop_turn hrest hsdu (by omega)]
    refine Ensures.bind putPdu_spec fun s' h => ?_
    have hidle : s'.Idle := ⟨(h.last rfl).1, (h.last rfl).2, h.sduQueue.trans hqueue⟩
    rw [addPdusLoop_idle hidle]
    exact ⟨hidle, h.puts, by rw [h.txWindowDesc]; rfl⟩
  | cons next rest ih =>
    obtain ⟨n, rfl⟩ : ∃ m, n = m + 1 := ⟨n - 1, by omega⟩
    simp only [List.length_cons] at hn hcount hfits
    rw [addPdusLoop_turn hrest hsdu (by omega)]
    refine Ensures.bind putPdu_spec fun s' h => ?_
    obtain ⟨hcur, hlist, hdesc⟩ := h.more (by simp) (by omega)
    have hused := used_succ h.txWindowDesc (by omega)
    refine (ih hlist (hcur ▸ hsdu) (h.sduQueue.trans hqueue) (by omega)
      (by rw [hdesc]; dsimp only; omega) (by omega)).mono fun s'' h' => ?_
    refine ⟨h'.idle, by simp [h'.puts, h.puts], ?_⟩
    rw [h'.seqNum, h.txWindowDesc]
    simp only [List.length_cons, u32]
    omega

/-- The fragments of an SDU that is taken at sequence number `sn`. -/
def fragments (P : AmTxParams) (d : LteRlcAmSdu) (sn : ℕ) : List LteRlcAmPdu :=
  (List.range (nrFragments P d)).map (fragment P d sn (nrFragments P d))

@[simp] theorem fragments_length {sn : ℕ} : (fragments P d sn).length = nrFragments P d := by
  simp [fragments]

/-- The only SDU of the queue has been cut into fragments. -/
structure Taken (P : AmTxParams) (s : AmTxQueue) (d : LteRlcAmSdu) (s' : AmTxQueue) : Prop where
  currentSdu : s'.currentSdu = some d
  fragmentList : s'.fragmentList = some (fragments P d s.txWindowDesc.seqNum)
  sduQueue : s'.sduQueue = []
  totalFragments : s'.fragDesc.totalFragments = nrFragments P d
  fragCounter : s'.fragDesc.fragCounter = 0
  txWindowDesc : s'.txWindowDesc = s.txWindowDesc
  out : s'.out = s.out

theorem nextSdu_spec (hcur : s.currentSdu = none) (hqueue : s.sduQueue = [d])
    (hfits : Fits P s d) : Ensures (fun _ => True) (Taken P s d) (nextSdu P s) := by
  unfold nextSdu
  rw [hcur, hqueue]
  dsimp only
  rw [if_pos hfits.2.2]
  unfold fragmentFrame
  dsimp only
  split
  · trivial
  · exact ⟨rfl, rfl, rfl, rfl, rfl, rfl, rfl⟩

/-- **The only SDU in the queue is put into the window as a whole if it fits.** -/
theorem addPdus_spec (hcur : s.currentSdu = none) (hqueue : s.sduQueue = [d])
    (hfits : Fits P s d) :
    Ensures (fun _ => True) (Placed s (fragments P d s.txWindowDesc.seqNum)) (addPdus P s) := by
  obtain ⟨hfree, -, -⟩ := id hfits
  obtain ⟨W, hW⟩ : ∃ W, P.txWindowSize = W + 1 := ⟨P.txWindowSize - 1, by omega⟩
  unfold addPdus
  rw [hW, addPdusLoop, if_pos (by omega), if_neg (by simp [hqueue])]
  refine Ensures.bind (nextSdu_spec hcur hqueue hfits) fun s₁ h => ?_
  rw [h.fragmentList]
  have hused : s₁.used = s.used := by rw [used, h.txWindowDesc, used]
  have hsdu : s₁.currentSdu ≠ none := by rw [h.currentSdu]; exact Option.some_ne_none d
  cases hfrag : fragments P d s.txWindowDesc.seqNum with
  | nil => trivial
  | cons pdu rest =>
    have hlen : rest.length + 1 = nrFragments P d := by
      rw [← List.length_cons, ← hfrag, fragments_length]
    have hlist : s₁.fragmentList = some (pdu :: rest) := h.fragmentList.trans (by rw [hfrag])
    have hcount : s₁.fragDesc.fragCounter + 1 + rest.length = s₁.fragDesc.totalFragments := by
      rw [h.fragCounter, h.totalFragments]; omega
    change Ensures _ _ (putPdu s₁ pdu rest >>= addPdusLoop P W)
    rw [← addPdusLoop_turn hlist hsdu (by omega)]
    refine (addPdusLoop_placed hlist hsdu h.sduQueue (by omega) hcount (by omega)).mono ?_
    exact fun s' h' => ⟨h'.idle, by rw [h'.puts, h.out], by rw [h'.seqNum, h.txWindowDesc]⟩

theorem enque_spec (hidle : s.Idle) (hfits : Fits P s d) :
    Ensures (fun _ => True) (Placed s (fragments P d s.txWindowDesc.seqNum)) (enque P s d) := by
  have hused : s.used < P.txWindowSize := Nat.lt_of_le_of_lt (Nat.le_add_right _ _) hfits.1
  have hqueue : s.sduQueue ++ [d] = [d] := by rw [hidle.sduQueue, List.nil_append]
  unfold enque
  dsimp only
  rw [if_pos ⟨hidle.currentSdu, hused⟩]
  refine Ensures.mono (addPdus_spec (d := d) hidle.currentSdu hqueue hfits) fun s' h => ?_
  exact ⟨h.idle, h.puts, h.seqNum⟩

/-- **The fragments of an SDU are all of it.** -/
theorem fragmentation {sn : ℕ} (hsn : sn + nrFragments P d ≤ 4294967296) :
    Fragmentation P d (fragments P d sn) := by
  have hget : ∀ (i : ℕ) (pdu : LteRlcAmPdu), (fragments P d sn)[i]? = some pdu →
      i < nrFragments P d ∧ fragment P d sn (nrFragments P d) i = pdu := by
    intro i pdu h
    obtain ⟨hi, rfl⟩ := List.getElem?_eq_some_iff.1 h
    rw [fragments_length] at hi
    exact ⟨hi, by simp [fragments]⟩
  constructor
  · exact fragments_length
  · refine ⟨sn, fun i pdu h => ?_⟩
    obtain ⟨hi, rfl⟩ := hget i pdu h
    exact u32_of_lt (by omega)
  · intro pdu h
    obtain ⟨i, -, rfl⟩ := List.mem_map.1 h
    rfl
  · intro i pdu h
    obtain ⟨hi, rfl⟩ := hget i pdu h
    refine ⟨rfl, ?_⟩
    have hpos := P.fragmentSize_pos
    have hle : nrFragments P d * P.fragmentSize ≤ d.byteLength + P.fragmentSize - 1 :=
      Nat.div_mul_le_self _ _
    have hlt : d.byteLength + P.fragmentSize - 1 < (nrFragments P d + 1) * P.fragmentSize :=
      Nat.lt_mul_of_div_lt (Nat.lt_succ_self _) hpos
    have hi' : (i + 1) * P.fragmentSize ≤ nrFragments P d * P.fragmentSize :=
      Nat.mul_le_mul_right _ hi
    dsimp only [fragment]
    rw [Nat.succ_mul] at hlt hi' ⊢
    split
    · rename_i hlast
      rw [← hlast, Nat.succ_mul] at hlt
      omega
    · have hi'' : (i + 2) * P.fragmentSize ≤ nrFragments P d * P.fragmentSize :=
        Nat.mul_le_mul_right _ (by omega)
      rw [Nat.add_mul] at hi''
      omega

/-! ### Runs -/

/-- All accepted SDUs are in the window. -/
structure Inv (P : AmTxParams) (sdus : List LteRlcAmSdu) (s : AmTxQueue) (os : List AmOutput) :
    Prop where
  idle : s.Idle
  blocks : ∃ blocks, List.Forall₂ (Fragmentation P) sdus blocks ∧ puts os = blocks.flatten

theorem handle_keeps {e : Event} (hidle : s.Idle) (he : ∀ d, e ≠ .enque d) :
    Keeps s (handle P s e) := by
  cases e with
  | enque d => exact absurd rfl (he d)
  | mrwAck snoFragment snoMainPacket =>
    exact (moveTxWindow_keeps hidle snoFragment).bind fun s' => sduPart_recvMrwAck _
  | ack firstSn lastSn bitmap => exact handleAck_keeps firstSn lastSn bitmap
  | pduTimer =>
    simp only [handle]
    split
    · trivial
    · exact (pduTimerHandle_keeps _).mono fun s' h => h
  | mrwTimer =>
    simp only [handle]
    split
    · trivial
    · exact (mrwTimerHandle_keeps _).mono fun s' h => h
  | bufferStatusTimer => exact checkForMrw_keeps.bind fun s' => rfl
  | sendPdus size => exact sendPdus_keeps size
  | bufferControlPdu pdu => exact sduPart_bufferPdu

theorem step_eq_some {e : Event} {o : List AmOutput} :
    (machine P).step s e = some (s', o) ↔
      handle P { s with out := [] } e = .ok s' ∧ s'.out = o := by
  unfold machine
  dsimp only
  split
  · rename_i s₁ h
    rw [h]
    simp only [Option.some.injEq, Prod.mk.injEq, Except.ok.injEq]
    constructor
    · rintro ⟨rfl, rfl⟩; exact ⟨rfl, rfl⟩
    · rintro ⟨rfl, rfl⟩; exact ⟨rfl, rfl⟩
  · rename_i err h
    simp [h]

/-- **One step.**  An SDU that comes fits and is put into the window; nothing else touches the
SDUs. -/
theorem Inv.step {sdus : List LteRlcAmSdu} {os o : List AmOutput} {e : Event}
    (h : Inv P sdus s os) (he : e.Ok P s) (hstep : (machine P).step s e = some (s', o)) :
    Inv P (sdus ++ accepted [e]) s' (os ++ o) := by
  obtain ⟨hhandle, rfl⟩ := step_eq_some.1 hstep
  obtain ⟨blocks, hblocks, hputs⟩ := h.blocks
  have hidle : ({ s with out := [] } : AmTxQueue).Idle := 
    ⟨h.idle.currentSdu, h.idle.fragmentList, h.idle.sduQueue⟩
  by_cases henque : ∃ d, e = .enque d
  · obtain ⟨d, rfl⟩ := henque
    have hspec := enque_spec hidle (show Fits P { s with out := [] } d from he)
    change enque P { s with out := [] } d = _ at hhandle
    rw [hhandle] at hspec
    refine ⟨hspec.idle, blocks ++ [fragments P d s.txWindowDesc.seqNum], ?_, ?_⟩
    · exact List.rel_append hblocks (List.Forall₂.cons (fragmentation he.2.1) List.Forall₂.nil)
    · rw [puts_append, hputs, hspec.puts, List.flatten_append]
      simp [puts]
  · have hkeeps := handle_keeps (P := P) hidle fun d hd => henque ⟨d, hd⟩
    rw [hhandle] at hkeeps
    have hacc : accepted [e] = [] := by
      cases e with
      | enque d => exact absurd ⟨d, rfl⟩ henque
      | _ => rfl
    have ho : puts s'.out = [] := by
      simp only [Ensures, sduPart, Prod.mk.injEq] at hkeeps
      exact hkeeps.2.2.2.2
    refine ⟨hidle.congr hkeeps, blocks, ?_, ?_⟩
    · rwa [hacc, List.append_nil]
    · rw [puts_append, ho, List.append_nil, hputs]

/-- **No accepted SDU is lost**, in every run where each SDU that comes leaves a position of the
window free. -/
theorem accepted_kept (P : AmTxParams) {es : List Event} {os : List AmOutput}
    (hrun : (machine P).exec (initial P) es = some (s, os))
    (hok : ∀ s e s' o, (machine P).Takes (initial P) es s e s' o → e.Ok P s) :
    Accounted P (accepted es) s os := by
  have hinv : (∀ s e s' o, (machine P).Takes (initial P) es s e s' o → e.Ok P s) →
      Inv P (accepted es) s os := by
    refine Machine.exec_induction (J := fun es s os =>
      (∀ s e s' o, (machine P).Takes (initial P) es s e s' o → e.Ok P s) →
        Inv P (accepted es) s os) (fun _ => ⟨⟨rfl, rfl, rfl⟩, [], List.Forall₂.nil, rfl⟩) ?_ hrun
    intro es s os e s' o hex ih hstep hok
    have h := ih fun s e s' o ht => hok s e s' o ht.append_right
    have hacc : accepted (es ++ [e]) = accepted es ++ accepted [e] := List.filterMap_append
    rw [hacc]
    exact h.step (hok s e s' o (Machine.takes_concat hex hstep)) hstep
  obtain ⟨hidle, blocks, hblocks, hputs⟩ := hinv hok
  refine ⟨accepted es, [], blocks, ?_, hblocks, hputs ▸ List.Sublist.refl _, by simp⟩
  rw [hidle.sduQueue, List.append_nil, List.append_nil]

/-- Fragments of 30 bytes, three retransmissions, and a window of 16 positions. -/
def smallParams : AmTxParams where
  maxRtx := 3
  fragmentSize := 30
  fragmentSize_pos := by decide
  txWindowSize := 16
  txWindowSize_lt := by decide

/-- Two SDUs of 300 bytes; the receiver acknowledges the first one before the second one comes. -/
def burst : List Event :=
  [.enque ⟨0, 300⟩, .sendPdus 100, .pduTimer, .ack 0 9 [], .mrwAck 10 0, .enque ⟨1, 300⟩]

theorem burst_ok :
    (machine smallParams).Meets (fun s e => e.Ok smallParams s) (initial smallParams) burst := by
  decide +kernel

theorem accepted_kept_burst :
    ∃ s os, (machine smallParams).exec (initial smallParams) burst = some (s, os) ∧
      Accounted smallParams [⟨0, 300⟩, ⟨1, 300⟩] s os := by
  have hsome : ((machine smallParams).exec (initial smallParams) burst).isSome := by decide +kernel
  obtain ⟨⟨s, os⟩, hrun⟩ := Option.isSome_iff_exists.1 hsome
  exact ⟨s, os, hrun, accepted_kept smallParams hrun fun s e s' o ht => burst_ok.takes ht⟩

/-- As long as nothing is queued or discarded, the window has seen all fragments. -/
theorem Accounted.fragments_le {sdus : List LteRlcAmSdu} {os : List AmOutput}
    (h : Accounted P sdus s os) (hqueue : s.sduQueue = [])
    (hdiscarded : ∀ sno, AmOutput.discarded sno ∉ os) :
    (sdus.map (nrFragments P)).sum ≤ (puts os).length := by
  obtain ⟨inWindow, dropped, blocks, hperm, hblocks, hsub, hdropped⟩ := h
  have hnil : dropped = [] := List.eq_nil_iff_forall_not_mem.2 fun d hd =>
    hdiscarded _ (hdropped d hd)
  rw [hqueue, hnil, List.append_nil, List.append_nil] at hperm
  have hlen : ∀ {ds bs}, List.Forall₂ (Fragmentation P) ds bs →
      (ds.map (nrFragments P)).sum = bs.flatten.length := by
    intro ds bs hds
    induction hds with
    | nil => rfl
    | cons hd _ ih => simp [ih, hd.length]
  rw [(hperm.map _).sum_nat, hlen hblocks]
  exact hsub.length_le

/-- Of two SDUs of 300 bytes that come one after the other the second one is lost: it is not
queued, no fragment of it is in the window, and nothing has been discarded. -/
theorem second_sdu_dropped :
    ∃ s os, (machine smallParams).exec (initial smallParams)
        [.enque ⟨0, 300⟩, .enque ⟨1, 300⟩] = some (s, os) ∧
      ¬ Accounted smallParams [⟨0, 300⟩, ⟨1, 300⟩] s os := by
  have hrun : ((machine smallParams).exec (initial smallParams)
      [.enque ⟨0, 300⟩, .enque ⟨1, 300⟩]).map
        (fun r => (r.1.sduQueue, (puts r.2).length, r.2.all (fun o =>
          match o with | .discarded _ => false | _ => true))) = some ([], 10, true) := by
    decide +kernel
  obtain ⟨⟨s, os⟩, hexec, hout⟩ := Option.map_eq_some_iff.1 hrun
  simp only [Prod.mk.injEq] at hout
  obtain ⟨hqueue, hputs, hall⟩ := hout
  refine ⟨s, os, hexec, fun h => ?_⟩
  have hle := h.fragments_le hqueue fun sno hmem => by
    simpa using List.all_eq_true.1 hall _ hmem
  rw [hputs] at hle
  exact absurd hle (by decide)

end AmTxQueue

end V2nLte
