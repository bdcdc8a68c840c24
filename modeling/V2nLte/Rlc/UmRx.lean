import V2nLte.Rlc.UmTx
import V2nLte.Machine.Basic
import V2nLte.Machine.Ensures
import Mathlib.Logic.Function.Basic

/-!
# The receiving side of RLC UM

`UmRxEntity` puts the PDUs of one connection back into order and takes the SDUs out of them.  It
keeps a window of PDUs that starts at the sequence number `firstSno`; `firstSnoForReordering`
(VR(UR)) is the first PDU that is still waited for, `highestReceivedSno` (VR(UH)) follows the
highest PDU seen.  The timer t-reordering gives up waiting for everything below `reorderingSno`
(VR(UX)).

The sequence numbers are `unsigned int`s and the positions in the window `int`s.  Exceptions are
values of `RxError`.  The statistics are left out, and with them the counters that only they
read.
-/

namespace V2nLte

/-- The window of an entity. -/
structure RlcUmRxWindowDesc where
  /-- The sequence number of the first PDU in the window. -/
  firstSno : ℕ := 0
  /-- VR(UR). -/
  firstSnoForReordering : ℕ := 0
  /-- VR(UX). -/
  reorderingSno : ℕ := 0
  /-- VR(UH). -/
  highestReceivedSno : ℕ := 0
  /-- The number of PDUs in the window. -/
  windowSize : ℕ
  /-- It is the parameter `rxWindowSize`, an `int`. -/
  windowSize_lt : windowSize < 2147483648

/-- Start the window at `i`. -/
def RlcUmRxWindowDesc.clear (w : RlcUmRxWindowDesc) (i : ℕ) : RlcUmRxWindowDesc :=
  { w with firstSno := i, firstSnoForReordering := i, reorderingSno := i, highestReceivedSno := i }

/-- The exceptions of the entity. -/
inductive RxError where
  /-- A position outside of `received_`, or a negative one. -/
  | outOfRange
  /-- `pduBuffer_.addAt` at a position that is taken. -/
  | busyPosition
  /-- `moveRxWindow` by more than the window. -/
  | badShift
  /-- There is no PDU where one is marked as received. -/
  | noPdu
  /-- A loop that does not end. -/
  | endless
  /-- "failed reassembly". -/
  | failedReassembly
  /-- "FI field was not valid". -/
  | badFraming
  deriving DecidableEq

/-- The exceptions that are about the contents of a PDU. -/
def RxError.OfContents (e : RxError) : Prop := e = .failedReassembly ∨ e = .badFraming

/-! ### Taking SDUs out of a PDU -/

/-- What a chunk is of its SDU. -/
inductive Part where
  | whole
  | first
  | mid
  | last
  deriving DecidableEq

/-- What the only chunk of a PDU is of its SDU. -/
def onlyPart : ℕ → Option Part
  | 0 => some .whole
  | 1 => some .first
  | 2 => some .last
  | 3 => some .mid
  | _ => none

/-- What the first of several chunks is of its SDU. -/
def firstPart : ℕ → Option Part
  | 0 => some .whole
  | 1 => some .whole
  | 2 => some .last
  | 3 => some .last
  | _ => none

/-- What the last of several chunks is of its SDU. -/
def lastPart : ℕ → Option Part
  | 0 => some .whole
  | 2 => some .whole
  | 1 => some .first
  | 3 => some .first
  | _ => none

/-- What the `i`-th of `numSdu` chunks is of its SDU. -/
def partOf (fi numSdu i : ℕ) : Option Part :=
  if i = 0 then
    if numSdu = 1 then onlyPart fi else firstPart fi
  else if i + 1 = numSdu then lastPart fi
  else some .whole

/-- Take a chunk out of a PDU: what is waiting for its missing part afterwards, and the SDU that
goes to PDCP, if any. -/
def takePart (buffered : Option (RlcSdu × ℕ)) (c : RlcSdu × ℕ) :
    Part → Except RxError (Option (RlcSdu × ℕ) × List RlcSdu)
  | .whole =>
    if c.2 ≠ c.1.lengthMainPacket then .error .failedReassembly
    else .ok (none, [c.1])
  | .first => .ok (some c, [])
  | .mid =>
    match buffered with
    | none => .ok (none, [])
    -- a fragment of another SDU is dropped, and so is the one that was buffered
    | some (pkt, size) =>
      if c.1.snoMainPacket ≠ pkt.snoMainPacket then .ok (none, [])
      else .ok (some (pkt, size + c.2), [])
  | .last =>
    match buffered with
    | none => .ok (none, [])
    | some (pkt, size) =>
      if c.1.snoMainPacket ≠ pkt.snoMainPacket then .ok (none, [])
      -- fragments in between have been lost
      else if u32 (size + c.2) < c.1.lengthMainPacket then .ok (none, [])
      else if c.1.lengthMainPacket < u32 (size + c.2) then .error .failedReassembly
      else .ok (none, [c.1])

/-- The loop over the chunks of a PDU, from the `i`-th on. -/
def takeSdus (fi numSdu : ℕ) : ℕ → Option (RlcSdu × ℕ) → List (RlcSdu × ℕ) →
    Except RxError (Option (RlcSdu × ℕ) × List RlcSdu)
  | _, buffered, [] => .ok (buffered, [])
  | i, buffered, c :: cs =>
    match partOf fi numSdu i with
    | none => .error .badFraming
    | some part => do
      let (buffered, out) ← takePart buffered c part
      let (buffered, out') ← takeSdus fi numSdu (i + 1) buffered cs
      .ok (buffered, out ++ out')

/-! ### The entity -/

/-- `UmRxEntity`. -/
structure UmRxEntity where
  /-- The window. -/
  rxWindowDesc : RlcUmRxWindowDesc
  /-- The PDUs of the window that were received and not reassembled yet. -/
  received : List Bool
  /-- The PDUs themselves. -/
  pduBuffer : ℕ → Option UmDataPdu := fun _ => none
  /-- t-reordering is running. -/
  tReordering : Bool := false
  /-- The SDU that waits for its missing part, and how much of it is there. -/
  buffered : Option (RlcSdu × ℕ) := none
  /-- A multicast connection has started. -/
  init : Bool := false
  /-- The connection is a D2D multicast. -/
  isD2DMultiConnection : Bool := false
  /-- The next SDU is the first one after a D2D mode switch. -/
  resetFlag : Bool := false

namespace UmRxEntity

/-- The entity at the start. -/
def initial (W : ℕ) (hW : W < 2147483648) (multi : Bool) : UmRxEntity where
  rxWindowDesc := { windowSize := W, windowSize_lt := hW }
  received := List.replicate W false
  isD2DMultiConnection := multi

variable (s : UmRxEntity)

/-- `received_.at(i)` for an `unsigned int`. -/
def receivedAt (i : ℕ) : Except RxError Bool :=
  match s.received[i]? with
  | none => .error .outOfRange
  | some r => .ok r

/-- What waits for its missing part when `pdu` is taken.  Right after a mode switch it is not
completed by the last part of an SDU. -/
def awaiting (pdu : UmDataPdu) : Option (RlcSdu × ℕ) :=
  if s.resetFlag ∧ pdu.sdus ≠ [] ∧ partOf pdu.framingInfo pdu.sdus.length 0 = some .last then
    none
  else s.buffered

/-- Consider the PDU at position `index` for reassembly. -/
def reassemble (index : ℕ) : Except RxError (UmRxEntity × List RlcSdu) := do
  if ← s.receivedAt index then
    match s.pduBuffer index with
    | none => .error .noPdu
    | some pdu =>
      let (buffered, out) ←
        takeSdus pdu.framingInfo pdu.sdus.length 0 (s.awaiting pdu) pdu.sdus
      .ok ({ s with
        buffered
        resetFlag := s.resetFlag && pdu.sdus.isEmpty
        pduBuffer := Function.update s.pduBuffer index none
        received := s.received.set index false }, out)
  else .ok (s, [])

/-- `reassemble` for `n` positions from `i` on. -/
def reassembleRange (i : ℕ) : ℕ → UmRxEntity → Except RxError (UmRxEntity × List RlcSdu)
  | 0, s => .ok (s, [])
  | n + 1, s => do
    let (s, out) ← s.reassemble i
    let (s, out') ← reassembleRange (i + 1) n s
    .ok (s, out ++ out')

/-- The buffer with the PDU at position `i` moved by `pos` towards the front. -/
def movePdu (pos i : ℕ) : Except RxError (ℕ → Option UmDataPdu) :=
  match s.pduBuffer i with
  | none => .ok s.pduBuffer
  | some pdu =>
    let removed := Function.update s.pduBuffer i none
    if (removed (i - pos)).isSome then .error .busyPosition
    else .ok (Function.update removed (i - pos) (some pdu))

/-- Move the PDU at position `i`, and its flag, by `pos` towards the front. -/
def moveSlot (pos : ℕ) (s : UmRxEntity) (i : ℕ) : Except RxError UmRxEntity := do
  let pduBuffer ← s.movePdu pos i
  let r ← s.receivedAt i
  .ok { s with pduBuffer, received := (s.received.set (i - pos) r).set i false }

/-- Move the window forward by `pos`. -/
def moveRxWindow (pos : ℤ) : Except RxError UmRxEntity :=
  if pos ≤ 0 then .ok s
  else if s.rxWindowDesc.windowSize < pos.toNat then .error .badShift
  else do
    let s ← (List.range' pos.toNat (s.rxWindowDesc.windowSize - pos.toNat)).foldlM
      (moveSlot pos.toNat) s
    .ok { s with rxWindowDesc.firstSno := u32 (s.rxWindowDesc.firstSno + pos.toNat) }

/-- How far one turn of the loop of `enque` may move the window: `shift`, or a whole window. -/
def stepSize (shift : ℤ) : ℤ :=
  if shift.toNat < s.rxWindowDesc.windowSize then shift else s.rxWindowDesc.windowSize

/-- The window does not go ahead of the received PDU. -/
def capStep (tsn : ℕ) (p : ℤ) : ℤ :=
  if tsn < u32 (s.rxWindowDesc.firstSno + p.toNat) then i32 (sub32 tsn s.rxWindowDesc.firstSno)
  else p

/-- The loop of `enque` that moves the window by `shift` positions, at most a whole window at a
time, and not beyond `tsn`. -/
def shiftLoop (tsn : ℕ) : ℕ → ℤ → UmRxEntity → Except RxError (UmRxEntity × List RlcSdu)
  | fuel, shift, s =>
    if shift ≤ 0 then .ok (s, [])
    else
      match fuel with
      | 0 => .error .endless
      | fuel + 1 => do
        let p := s.stepSize shift
        let shift := shift - p
        let p := s.capStep tsn p
        let (s, out) ← reassembleRange 0 p.toNat s
        let s ← s.moveRxWindow p
        let (s, out') ← shiftLoop tsn fuel shift s
        .ok (s, out ++ out')

/-- A PDU at or beyond VR(UH) moves the window. -/
def advanceWindow (tsn : ℕ) : Except RxError (UmRxEntity × List RlcSdu) :=
  if tsn < s.rxWindowDesc.highestReceivedSno then .ok (s, [])
  else
    let old := s.rxWindowDesc.highestReceivedSno
    let s := { s with rxWindowDesc.highestReceivedSno := u32 (tsn + 1) }
    let w := s.rxWindowDesc
    if u32 (w.firstSno + w.windowSize) < w.highestReceivedSno then do
      let shift := i32 (sub32 w.highestReceivedSno old)
      let (s, out) ← shiftLoop tsn shift.toNat shift s
      let w := s.rxWindowDesc
      .ok ({ s with
        rxWindowDesc.firstSnoForReordering := max w.firstSnoForReordering w.firstSno }, out)
    else .ok (s, [])

/-- Put a PDU into the buffer. -/
def store (pdu : UmDataPdu) : Except RxError UmRxEntity :=
  let index := i32 (sub32 pdu.pduSequenceNumber s.rxWindowDesc.firstSno)
  if index < 0 then .error .outOfRange
  else if (s.pduBuffer index.toNat).isSome then .error .busyPosition
  else if s.received.length ≤ index.toNat then .error .outOfRange
  else
    .ok { s with
      pduBuffer := Function.update s.pduBuffer index.toNat (some pdu)
      received := s.received.set index.toNat true }

/-- Move VR(UR) to the first PDU that is missing, and at least to `bound`, but not beyond VR(UH).
Every turn reads one more position of `received_`, so there are not more turns than that. -/
def advance (bound : ℕ) : ℕ → UmRxEntity → Except RxError UmRxEntity
  | 0, _ => .error .endless
  | fuel + 1, s => do
    let w := s.rxWindowDesc
    let r ← s.receivedAt (sub32 w.firstSnoForReordering w.firstSno)
    if r ∨ w.firstSnoForReordering < bound then
      let s := { s with
        rxWindowDesc.firstSnoForReordering := u32 (w.firstSnoForReordering + 1) }
      if s.rxWindowDesc.firstSnoForReordering = w.highestReceivedSno then .ok s
      else advance bound fuel s
    else .ok s

/-- Move VR(UR) and reassemble the PDUs it has passed. -/
def deliver (bound : ℕ) : Except RxError (UmRxEntity × List RlcSdu) := do
  let old := s.rxWindowDesc.firstSnoForReordering
  let s ← advance bound (s.received.length + 1) s
  let w := s.rxWindowDesc
  let index := sub32 old w.firstSno
  reassembleRange index (sub32 w.firstSnoForReordering w.firstSno - index) s

/-- The last part of `enque`: stop t-reordering if it is not needed any more, and start it if it
is. -/
def handleReordering : UmRxEntity :=
  let w := s.rxWindowDesc
  let busy := s.tReordering &&
    !(w.reorderingSno ≤ w.firstSnoForReordering || w.reorderingSno < w.firstSno ||
      w.highestReceivedSno < w.reorderingSno)
  if busy = false ∧ w.firstSnoForReordering < w.highestReceivedSno then
    { s with tReordering := true, rxWindowDesc.reorderingSno := w.highestReceivedSno }
  else { s with tReordering := busy }

/-- The first PDU of a multicast starts the window, which then has one position only. -/
def startMulti (tsn : ℕ) : UmRxEntity :=
  if s.init = false ∧ s.isD2DMultiConnection then
    { s with
      rxWindowDesc := { s.rxWindowDesc.clear tsn with windowSize := 1, windowSize_lt := one_lt_int }
      init := true }
  else s

/-- The PDU is in the buffer already. -/
def alreadyReceived (tsn : ℕ) : Except RxError Bool :=
  let w := s.rxWindowDesc
  if w.firstSnoForReordering ≤ tsn ∧ tsn < w.highestReceivedSno then
    let index := i32 (sub32 tsn w.firstSno)
    if index < 0 then .error .outOfRange else s.receivedAt index.toNat
  else .ok false

/-- `enque`, from the position of the PDU on. -/
def receive (pdu : UmDataPdu) : Except RxError (UmRxEntity × List RlcSdu) := do
  let tsn := pdu.pduSequenceNumber
  if ← s.alreadyReceived tsn then .ok (s, [])
  else if tsn < s.rxWindowDesc.firstSnoForReordering then .ok (s, [])
  else
    let (s, out) ← s.advanceWindow tsn
    let s ← s.store pdu
    let (s, out') ← s.deliver 0
    .ok (s.handleReordering, out ++ out')

/-- A PDU arrives. -/
def enque (pdu : UmDataPdu) : Except RxError (UmRxEntity × List RlcSdu) :=
  (s.startMulti pdu.pduSequenceNumber).receive pdu

/-- The timer t-reordering expires. -/
def handleTimer : Except RxError (UmRxEntity × List RlcSdu) := do
  let s := { s with tReordering := false }
  let (s, out) ← s.deliver s.rxWindowDesc.reorderingSno
  let w := s.rxWindowDesc
  if w.firstSnoForReordering < w.highestReceivedSno then
    .ok ({ s with rxWindowDesc.reorderingSno := w.highestReceivedSno, tReordering := true }, out)
  else .ok (s, out)

end UmRxEntity

end V2nLte
