import V2nLte.Rlc.AmTx

/-!
# The receiving side of RLC AM

`AmRxQueue` keeps the fragments of SDUs in a window of positions.  When a fragment comes, it looks
for the first fragment of the SDU before it and for the last one after it, and passes the SDU up if
there is no gap between them.  The fragments stay in the window until the sender commands to move
it (MRW).  Fragments that leave the window before their SDU is complete are kept in a pending
buffer, and are put before those in the window when the fragment at the start of the window
completes the SDU.

The tags of the packets and the statistics are left out, and so are `discard` and
`computeWindowShift`, which are not called.  Times are natural numbers.
-/

namespace V2nLte

namespace LteRlcAmPdu

/-- The PDU is the only fragment of its SDU. -/
def isWhole (pdu : LteRlcAmPdu) : Prop := pdu.firstSn = pdu.lastSn

/-- The PDU is the first fragment of its SDU. -/
def isFirst (pdu : LteRlcAmPdu) : Prop := ofInt32 pdu.firstSn = pdu.snoFragment

/-- The PDU is the last fragment of its SDU. -/
def isLast (pdu : LteRlcAmPdu) : Prop := ofInt32 pdu.lastSn = pdu.snoFragment

instance (pdu : LteRlcAmPdu) : Decidable pdu.isWhole := inferInstanceAs (Decidable (_ = _))

instance (pdu : LteRlcAmPdu) : Decidable pdu.isFirst := inferInstanceAs (Decidable (_ = _))

instance (pdu : LteRlcAmPdu) : Decidable pdu.isLast := inferInstanceAs (Decidable (_ = _))

end LteRlcAmPdu

/-- The last position that is in use, plus one. -/
def CArray.size {α : Type} (xs : CArray α) : ℕ := (xs.reverse.dropWhile Option.isNone).length

/-! ### The entity -/

/-- The parameters of the entity. -/
structure AmRxParams where
  /-- The number of positions in the window, an `int` of the NED file. -/
  rxWindowSize : ℕ
  /-- It is not above `INT_MAX`. -/
  rxWindowSize_lt : rxWindowSize < 2147483648
  /-- The least time between two status reports. -/
  ackReportInterval : ℕ

/-- What can be seen of the entity. -/
inductive AmRxOutput where
  /-- The SDU of these fragments is passed up. -/
  | sdu (fragments : List LteRlcAmPdu)
  /-- An ACK for the sender. -/
  | status (firstSn lastSn : ℤ) (bitmap : List Bool)
  /-- A command to move the window is answered. -/
  | mrwAck (snoMainPacket snoFragment : ℕ)
  /-- A control PDU is passed to the sender of this side. -/
  | routed (pdu : LteRlcAmPdu)
  deriving DecidableEq

/-- The exceptions of the entity. -/
inductive AmRxError where
  /-- A `vector` is accessed outside of its range. -/
  | outOfRange
  /-- There is no object where one is needed. -/
  | nullPointer
  /-- A PDU at a position that must be free. -/
  | busyPosition
  /-- "received PDU with position .. out of the window". -/
  | outOfWindow
  /-- "the received PDU .. overlaps with an old one". -/
  | overlap
  /-- "first SDU error". -/
  | firstSdu
  /-- "fragmentation error", of the backward search. -/
  | fragmentation
  /-- "sequence error", of the backward search. -/
  | sequence
  /-- "SDU numbers differ", of the forward search. -/
  | sduNumbers
  /-- "PDU sequencer error", of the forward search. -/
  | sequencer
  /-- The pending buffer "has fragments for SDU .. while trying to pass up" another one. -/
  | pendingFragments
  /-- A window that is moved by more than its size. -/
  | badShift
  deriving DecidableEq

/-- An AM receiver. -/
structure AmRxQueue where
  /-- Where the window is. -/
  rxWindowDesc : RlcWindowDesc := {}
  /-- When the last status report was sent. -/
  lastSentAck : ℕ := 0
  /-- The SDU in the middle of which the window starts, -1 if there is none. -/
  firstSdu : ℤ := 0
  /-- Whether the timer for status reports runs. -/
  timer : Bool := false
  /-- The window. -/
  pduBuffer : CArray LteRlcAmPdu := []
  /-- Fragments that have left the window before their SDU was complete. -/
  pendingPduBuffer : List LteRlcAmPdu := []
  /-- The positions whose fragments have been received. -/
  received : List Bool
  /-- The positions whose fragments have been given up. -/
  discarded : List Bool
  /-- Whether it is known how to reach the sender. -/
  flowControlInfo : Bool := false

namespace AmRxQueue

variable (Q : AmRxParams)

/-- `initialize`. -/
def initial : AmRxQueue where
  received := List.replicate Q.rxWindowSize false
  discarded := List.replicate Q.rxWindowSize false

/-- The object at position `i`, which must not be a null pointer. -/
def pduAt (s : AmRxQueue) (i : ℕ) : Except AmRxError LteRlcAmPdu :=
  match s.pduBuffer.get i with
  | some pdu => .ok pdu
  | none => .error .nullPointer

/-- `vector::at`. -/
def boolAt (xs : List Bool) (i : ℕ) : Except AmRxError Bool :=
  match xs[i]? with
  | some b => .ok b
  | none => .error .outOfRange

/-- `sendStatusReport`, which does nothing if the last report was sent too short a time ago. -/
def sendStatusReport (now : ℕ) (s : AmRxQueue) : Except AmRxError (AmRxQueue × List AmRxOutput) :=
  if now - s.lastSentAck < Q.ackReportInterval then .ok (s, [])
  else if s.received = [] then .error .outOfRange
  else
    let cumulative := (s.received.takeWhile id).length
    let bitmap := s.received.dropWhile id
    let next := s.rxWindowDesc.firstSeqNum + cumulative
    .ok ({ s with lastSentAck := now },
      [.status (if bitmap = [] then 0 else i32 next) (i32 (sub32 next 1)) bitmap])

/-! ### Passing up an SDU -/

/-- The loop of `passUp` that collects the fragments of SDU `pkId`, at most `n` positions from
`auxIndex` on, until there are `total`. -/
def collect (s : AmRxQueue) (pkId total : ℕ) :
    ℕ → ℕ → List LteRlcAmPdu → Except AmRxError (List LteRlcAmPdu)
  | 0, _, frameBuff => .ok frameBuff
  | n + 1, auxIndex, frameBuff =>
    if total ≤ frameBuff.length then .ok frameBuff
    else do
      let pdu ← s.pduAt auxIndex
      collect s pkId total n (if s.pduBuffer.size ≤ auxIndex + 1 then 0 else auxIndex + 1)
        (if pdu.snoMainPacket = pkId then frameBuff ++ [pdu] else frameBuff)

/-- `passUp`: pass up the SDU whose first fragment in the window is at `index`. -/
def passUp (now : ℕ) (s : AmRxQueue) (index : ℕ) :
    Except AmRxError (AmRxQueue × List AmRxOutput) := do
  let header ← s.pduAt index
  if header.isWhole then do
    let (s, report) ← sendStatusReport Q now s
    .ok (s, .sdu [header] :: report)
  else if index = 0 ∧ ¬header.isFirst then
    -- its first fragments have left the window
    if s.pendingPduBuffer.any (·.snoMainPacket ≠ header.snoMainPacket) then
      .error .pendingFragments
    else do
      let frameBuff ← collect s header.snoMainPacket header.totalFragments s.pduBuffer.size index
        s.pendingPduBuffer
      if frameBuff = [] then .error .outOfRange
      else do
        let (s, report) ← sendStatusReport Q now { s with pendingPduBuffer := [] }
        .ok (s, .sdu frameBuff :: report)
  else do
    let frameBuff ← collect s header.snoMainPacket header.totalFragments s.pduBuffer.size index []
    if frameBuff = [] then .error .outOfRange
    else do
      let (s, report) ← sendStatusReport Q now s
      .ok (s, .sdu frameBuff :: report)

/-- The backward search: the position of the first fragment of the SDU of `pdu`, if all positions
between that and `i` have been received. -/
def searchFirst (s : AmRxQueue) (pdu : LteRlcAmPdu) : ℕ → Except AmRxError (Option ℕ)
  | 0 => .ok none
  | i + 1 => do
    let received ← boolAt s.received i
    if received then do
      let tempPdu ← s.pduAt i
      if tempPdu.snoMainPacket ≠ pdu.snoMainPacket then .error .fragmentation
      else if tempPdu.isFirst then .ok (some i)
      else if tempPdu.isLast ∨ tempPdu.isWhole then .error .sequence
      else searchFirst s pdu i
    else .ok none

/-- The forward search: whether the last fragment of the SDU of `pdu` is among the `n` positions
from `i` on, and all before it have been received. -/
def searchLast (s : AmRxQueue) (pdu : LteRlcAmPdu) : ℕ → ℕ → Except AmRxError Bool
  | 0, _ => .ok false
  | n + 1, i => do
    let received ← boolAt s.received i
    if received then do
      let tempPdu ← s.pduAt i
      if tempPdu.snoMainPacket ≠ pdu.snoMainPacket then .error .sduNumbers
      else if tempPdu.isLast then .ok true
      else if tempPdu.isFirst ∨ tempPdu.isWhole then .error .sequencer
      else searchLast s pdu n (i + 1)
    else .ok false

/-- The position of the first fragment of the SDU of `pdu`, which is at `index`. -/
def firstIndex (s : AmRxQueue) (pdu : LteRlcAmPdu) (index : ℕ) :
    Except AmRxError (Option ℕ) :=
  if pdu.isFirst then .ok (some index)
  else if index = 0 then
    if s.firstSdu = i32 pdu.snoMainPacket then .ok (some 0) else .error .firstSdu
  else searchFirst s pdu index

/-- `checkCompleteSdu`: pass up the SDU of the PDU at `index` if it is complete. -/
def checkCompleteSdu (now : ℕ) (s : AmRxQueue) (index : ℕ) :
    Except AmRxError (AmRxQueue × List AmRxOutput) := do
  let pdu ← s.pduAt index
  let s := if s.firstSdu = -1 then { s with firstSdu := i32 pdu.snoMainPacket } else s
  if pdu.isWhole then passUp Q now s index
  else do
    let first ← firstIndex s pdu index
    match first with
    | none => .ok (s, [])
    | some first =>
      if pdu.isLast then passUp Q now s first
      else do
        let complete ← searchLast s pdu (Q.rxWindowSize - (index + 1)) (index + 1)
        if complete then passUp Q now s first else .ok (s, [])

/-! ### Moving the window -/

/-- The object at position `i` leaves the window.  `firstSdu` is the SDU it belongs to if that goes
on after it. -/
def leavePosition (s : AmRxQueue) (i : ℕ) : AmRxQueue :=
  match s.pduBuffer.get i with
  | none => { s with firstSdu := -1 }
  | some pdu =>
    if pdu.isLast ∨ pdu.isWhole then
      { s with
        pduBuffer := s.pduBuffer.remove i
        pendingPduBuffer := []
        firstSdu := -1 }
    else
      { s with
        pduBuffer := s.pduBuffer.remove i
        pendingPduBuffer := s.pendingPduBuffer ++ [pdu]
        firstSdu := i32 pdu.snoMainPacket }

/-- The marks of position `i` become those of position `i - pos`. -/
def shiftMark (xs : List Bool) (pos i : ℕ) : Except AmRxError (List Bool) := do
  let b ← boolAt xs i
  .ok ((xs.set (i - pos) b).set i false)

/-- Position `i` becomes position `i - pos`. -/
def shiftPosition (pos : ℕ) (s : AmRxQueue) (i : ℕ) : Except AmRxError AmRxQueue := do
  let received ← shiftMark s.received pos i
  let discarded ← shiftMark s.discarded pos i
  match s.pduBuffer.get i with
  | none => .ok { s with received, discarded }
  | some pdu =>
    if ((s.pduBuffer.remove i).get (i - pos)).isSome then .error .busyPosition
    else .ok { s with
      pduBuffer := (s.pduBuffer.remove i).addAt (i - pos) pdu
      received, discarded }

/-- `moveRxWindow`: start the window at `seqNum`. -/
def moveRxWindow (s : AmRxQueue) (seqNum : ℤ) : Except AmRxError AmRxQueue :=
  let pos := sub32 (ofInt32 seqNum) s.rxWindowDesc.firstSeqNum
  if i32 pos ≤ 0 then .ok s
  else if Q.rxWindowSize < pos then .error .badShift
  else do
    let s := (List.range pos).foldl leavePosition s
    let s ← (List.range' pos (Q.rxWindowSize - pos)).foldlM (shiftPosition pos) s
    .ok { s with
      rxWindowDesc.firstSeqNum := u32 (s.rxWindowDesc.firstSeqNum + pos) }

/-! ### Events -/

/-- A PDU for position `index` of the window. -/
def buffer (now : ℕ) (s : AmRxQueue) (pdu : LteRlcAmPdu) (index : ℕ) :
    Except AmRxError (AmRxQueue × List AmRxOutput) := do
  let received ← boolAt s.received index
  if received then do
    let buffered ← s.pduAt index
    if buffered.snoMainPacket = pdu.snoMainPacket then .ok (s, []) else .error .overlap
  else if (s.pduBuffer.get index).isSome then .error .busyPosition
  else checkCompleteSdu Q now { s with
    pduBuffer := s.pduBuffer.addAt index pdu
    received := s.received.set index true } index

/-- The part of `enque` that is about a data PDU. -/
def enqueData (now : ℕ) (s : AmRxQueue) (pdu : LteRlcAmPdu) :
    Except AmRxError (AmRxQueue × List AmRxOutput) :=
  let s := { s with timer := true, flowControlInfo := true }
  let index := sub32 pdu.snoFragment s.rxWindowDesc.firstSeqNum
  if i32 index < 0 then .ok (s, [])
  else if Q.rxWindowSize ≤ index then .error .outOfWindow
  else if pdu.snoFragment = s.rxWindowDesc.seqNum then
    buffer Q now { s with rxWindowDesc.seqNum := u32 (s.rxWindowDesc.seqNum + 1) } pdu index
  else do
    -- out of sequence
    let (s, report) ← sendStatusReport Q now
      { s with rxWindowDesc.seqNum := u32 (pdu.snoFragment + 1) }
    let (s, out) ← buffer Q now s pdu index
    .ok (s, report ++ out)

/-- `enque`. -/
def enque (now : ℕ) (s : AmRxQueue) (pdu : LteRlcAmPdu) :
    Except AmRxError (AmRxQueue × List AmRxOutput) :=
  match pdu.amType with
  | .DATA => enqueData Q now s pdu
  | .MRW => do
    let s ← moveRxWindow Q s pdu.lastSn
    if s.flowControlInfo then
      .ok (s, [.mrwAck pdu.snoMainPacket s.rxWindowDesc.firstSeqNum])
    else .error .nullPointer
  | .ACK | .MRW_ACK => .ok (s, [.routed pdu])

/-- `handleMessage`: the timer has expired; it is started again if there are PDUs in the window. -/
def handleMessage (now : ℕ) (s : AmRxQueue) : Except AmRxError (AmRxQueue × List AmRxOutput) := do
  let (s, report) ← sendStatusReport Q now { s with timer := false }
  .ok ({ s with
    timer := (List.range Q.rxWindowSize).any fun i => (s.pduBuffer.get i).isSome }, report)

/-- What happens to the entity. -/
inductive Event where
  /-- A PDU comes. -/
  | enque (pdu : LteRlcAmPdu)
  /-- The timer expires. -/
  | timer
  deriving DecidableEq

/-- The handlers. -/
def handle (now : ℕ) (s : AmRxQueue) : Event → Except AmRxError (AmRxQueue × List AmRxOutput)
  | .enque pdu => enque Q now s pdu
  | .timer => handleMessage Q now s

/-- The entity as a machine, with the times of the events; a run ends where a handler throws. -/
def machine : Machine AmRxQueue (ℕ × Event) AmRxOutput where
  step s e :=
    if e.2 = .timer ∧ s.timer = false then none
    else (handle Q e.1 s e.2).toOption

end AmRxQueue

end V2nLte
