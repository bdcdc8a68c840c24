import V2nLte.Lte.Binder
import V2nLte.Machine.Basic
import V2nLte.Machine.OrderedMap
import V2nLte.Machine.Word

/-!
# The H-ARQ processes of a UE and its eNB

The number of a H-ARQ process is not part of an uplink grant.  The UE and the eNB count the TTIs on
their own: `currentHarq_` starts with the first grant and goes on in every TTI, `harqStatus_` starts
with the first PDU and goes on in every TTI with a H-ARQ buffer for the UE.  A retransmission is
granted for the process that comes two TTIs after the one of the status.

A frame is on the air for one TTI.  It arrives when the main loops of the next TTI have run, in any
order with the other ones.

## Main results

* `HarqSync.in_step` : the UE is one process ahead of the serving eNB, in every run, and a grant for
  a retransmission is used in the TTI of its process.

After a handover the counters are not started again.  But the binder has no next hop for the UE any
more, so that no eNB lets a frame of it through, and no H-ARQ buffer is made.

What the schedulers, the channel and the H-ARQ buffers decide is an input of the TTI.  There are no
periodic grants and no D2D, and all RAC requests succeed.  The UEs other than the one that is
followed only matter for the tables of the eNBs.
-/

namespace V2nLte

/-- The network around a UE. -/
structure HarqNet where
  /-- `UE_TX_HARQ_PROCESSES`, `harqProcesses_` and `ENB_RX_HARQ_PROCESSES`. -/
  processes : ℕ
  /-- The first grant is used in the process `UE_TX_HARQ_PROCESSES - 2`. -/
  two_le : 2 ≤ processes
  /-- The numbers of the processes are `unsigned char`s. -/
  le_256 : processes ≤ 256
  /-- The UE. -/
  ue : MacNodeId
  /-- The eNBs. -/
  cells : List MacNodeId
  /-- Their ids are in the range of eNBs. -/
  type_of_mem : ∀ e ∈ cells, getNodeTypeById e = .ENODEB
  /-- The eNB that serves the UE at first. -/
  home : MacNodeId
  /-- It is one of the eNBs. -/
  home_mem : home ∈ cells

/-- What is sent between the UE and the eNBs. -/
inductive UlFrame where
  | pdu (destId : MacNodeId)
  | rac (destId : MacNodeId)
  | racResponse (sourceId : MacNodeId)
  /-- A grant; if it is for a retransmission, the eNB has made it for this process. -/
  | grant (sourceId : MacNodeId) (acid : Option ℕ)
  deriving DecidableEq

/-! ### The UE -/

/-- The MAC of the UE. -/
structure LteMacUe where
  /-- The serving eNB. -/
  cellId : MacNodeId
  /-- The number of connections with data. -/
  macBuffers : ℕ := 0
  /-- The grant to be used, with the process it was made for. -/
  schedulingGrant : Option (Option ℕ) := none
  /-- The process of this TTI. -/
  currentHarq : ℕ := 0
  /-- The UE has used a grant since it came to this cell. -/
  firstTx : Bool := false
  /-- There is a H-ARQ buffer for the eNB. -/
  harqTxBuffers : Bool := false
  /-- It has a unit that is selected for transmission. -/
  selected : Bool := false
  /-- The numbers of SDUs, for each connection that is served. -/
  scheduleList : List ℕ := []
  /-- The SDUs that the RLC has still to deliver. -/
  requestedSdus : ℕ := 0
  /-- A report is to be sent. -/
  bsrTriggered : Bool := false
  /-- A RAC request is under way. -/
  racRequested : Bool := false
  /-- The TTIs that are left for its answer. -/
  raRespTimer : ℕ := 0

/-- What is decided for the UE in a TTI. -/
structure UeInput where
  /-- The current process has a unit to be sent again. -/
  retx : Bool
  /-- The SDUs that `LcgScheduler::schedule` takes from each connection with data. -/
  sdus : List ℕ
  /-- The connections that it leaves with data. -/
  left : ℕ
  /-- The current process has an empty unit. -/
  emptyUnit : Bool

namespace LteMacUe

/-- `raRespWinStart_`. -/
def raRespWinStart : ℕ := 3

/-- `checkRAC`. -/
def checkRAC (ue : LteMacUe) : LteMacUe × List UlFrame :=
  if 0 < ue.raRespTimer then ({ ue with raRespTimer := ue.raRespTimer - 1 }, [])
  else if ue.racRequested then ({ ue with racRequested := false }, [])
  else if 0 < ue.macBuffers then
    ({ ue with racRequested := true, raRespTimer := raRespWinStart }, [.rac ue.cellId])
  else (ue, [])

/-- `macPduMake`: there is a PDU if a connection has an SDU for it, or if a BSR is to be sent.  A
new H-ARQ buffer has empty units. -/
def macPduMake (emptyUnit : Bool) (ue : LteMacUe) : LteMacUe :=
  if ue.scheduleList.any fun sduPerCid => sduPerCid ≠ 0 || ue.bsrTriggered then
    { ue with
      harqTxBuffers := true
      selected := ue.selected || emptyUnit || !ue.harqTxBuffers
      bsrTriggered := false }
  else ue

/-- The next H-ARQ process. -/
def nextHarq (N : ℕ) (ue : LteMacUe) : LteMacUe :=
  { ue with currentHarq := u8 ((ue.currentHarq + 1) % N) }

/-- `handleUpperMessage`, for an SDU. -/
def handleUpperMessage (N : ℕ) (emptyUnit : Bool) (ue : LteMacUe) : LteMacUe :=
  let ue := { ue with requestedSdus := ue.requestedSdus - 1 }
  if ue.requestedSdus = 0 then (ue.macPduMake emptyUnit).nextHarq N else ue

/-- The part of `handleSelfMessage` for a TTI with a grant. -/
def useGrant (N : ℕ) (i : UeInput) (ue : LteMacUe) : LteMacUe :=
  let ue :=
    if ue.firstTx then ue else { ue with firstTx := true, currentHarq := u8 (N - 2) }
  if ue.harqTxBuffers && i.retx then { ue with selected := true }
  else
    let ue := { ue with scheduleList := i.sdus, macBuffers := i.left }
    -- `macSduRequest` asks once for each connection
    let ue := { ue with requestedSdus := ue.scheduleList.length }
    if ue.requestedSdus = 0 then ue.macPduMake i.emptyUnit else ue

/-- `handleSelfMessage`. -/
def handleSelfMessage (N : ℕ) (i : UeInput) (ue : LteMacUe) : LteMacUe × List UlFrame :=
  let (ue, sent) := if ue.schedulingGrant.isNone then ue.checkRAC else (ue, [])
  let ue := { ue with requestedSdus := 0 }
  let ue := if ue.schedulingGrant.isSome then ue.useGrant N i else ue
  if ue.requestedSdus = 0 then (ue.nextHarq N, sent) else (ue, sent)

/-- `flushHarqBuffers`. -/
def flushHarqBuffers (ue : LteMacUe) : LteMacUe × List UlFrame :=
  ({ ue with selected := false, schedulingGrant := none },
    if ue.selected then [.pdu ue.cellId] else [])

/-- A TTI: the main loop, the SDUs that it has asked for and, with a grant, the flush message. -/
def tti (N : ℕ) (i : UeInput) (ue : LteMacUe) : LteMacUe × List UlFrame :=
  let (ue₁, sent) := ue.handleSelfMessage N i
  let ue₂ := (handleUpperMessage N i.emptyUnit)^[ue₁.requestedSdus] ue₁
  if ue.schedulingGrant.isSome then
    (ue₂.flushHarqBuffers.1, sent ++ ue₂.flushHarqBuffers.2)
  else (ue₂, sent)

/-- `macHandleGrant`. -/
def macHandleGrant (acid : Option ℕ) (ue : LteMacUe) : LteMacUe :=
  { ue with schedulingGrant := some acid, racRequested := false }

/-- `macHandleRac`, for a RAC request that has succeeded. -/
def macHandleRac (ue : LteMacUe) : LteMacUe := { ue with bsrTriggered := true }

/-- `deleteQueues`. -/
def deleteQueues (ue : LteMacUe) : LteMacUe :=
  { ue with macBuffers := 0, harqTxBuffers := false, selected := false }

/-- `doHandover`. -/
def doHandover (targetEnb : MacNodeId) (ue : LteMacUe) : LteMacUe := { ue with cellId := targetEnb }

end LteMacUe

/-! ### The eNBs -/

/-- The MAC of an eNB with its uplink scheduler. -/
structure HarqEnb where
  /-- The H-ARQ buffers, with the number of their processes. -/
  harqRxBuffers : OrderedMap MacNodeId ℕ := []
  /-- The process of each UE that is on now. -/
  harqStatus : OrderedMap MacNodeId ℕ := []
  /-- The RAC requests. -/
  racStatus : List MacNodeId := []
  /-- A BSR of the UE has come. -/
  bsrbuf : MacNodeId → Bool := fun _ => false

/-- What is decided for an eNB in a TTI. -/
structure EnbInput where
  /-- A PDU of the UE with a BSR is taken out of its H-ARQ buffer. -/
  bsr : MacNodeId → Bool
  /-- There is a block for the RAC request of the UE. -/
  racBlock : MacNodeId → Bool
  /-- `racschedule` leaves no block free. -/
  full : Bool
  /-- The process of the UE has a corrupted unit, and there are blocks to send it again. -/
  rtx : MacNodeId → ℕ → Bool
  /-- A connection of the UE gets a grant. -/
  data : MacNodeId → Bool

namespace HarqEnb

/-- `updateHarqDescs`. -/
def updateHarqDescs (enb : HarqEnb) : HarqEnb :=
  { enb with
    harqStatus := enb.harqRxBuffers.foldl (fun status it =>
      status.put it.1 (match status.find it.1 with
        | some acid => u8 ((acid + 1) % it.2)
        | none => 0)) enb.harqStatus }

/-- The grant of `rtxschedule` for the UE `v`. -/
def rtxschedule (e v : MacNodeId) (i : EnbInput) (enb : HarqEnb) : List UlFrame :=
  match enb.harqRxBuffers.find v, enb.harqStatus.find v with
  | some processes, some currentAcid =>
    let acid := u8 ((currentAcid + 2) % processes)
    if i.rtx v acid then [.grant e (some acid)] else []
  | _, _ => []

/-- The grants for the UE `v`: for its RAC request and, if there is room left, for its
retransmission and for its connections. -/
def schedule (e v : MacNodeId) (i : EnbInput) (enb : HarqEnb) : List UlFrame :=
  (if v ∈ enb.racStatus ∧ i.racBlock v = true then [.grant e none] else []) ++
    if i.full then []
    else enb.rtxschedule e v i ++
      if enb.bsrbuf v && i.data v then [.grant e none] else []

/-- `handleSelfMessage` for the uplink, with the grants for the UE `v`. -/
def tti (e v : MacNodeId) (i : EnbInput) (enb : HarqEnb) : HarqEnb × List UlFrame :=
  let enb := { enb with
    bsrbuf := fun n => enb.bsrbuf n || i.bsr n && (enb.harqRxBuffers.find n).isSome }
  let enb := enb.updateHarqDescs
  ({ enb with racStatus := [] }, enb.schedule e v i)

/-- A PDU of the UE `v` arrives: there is a H-ARQ buffer from now on. -/
def insertPdu (N : ℕ) (v : MacNodeId) (enb : HarqEnb) : HarqEnb :=
  if (enb.harqRxBuffers.find v).isSome then enb
  else { enb with harqRxBuffers := enb.harqRxBuffers.put v N }

/-- `signalRac`. -/
def signalRac (v : MacNodeId) (enb : HarqEnb) : HarqEnb :=
  { enb with racStatus := enb.racStatus.insert v }

/-- `deleteQueues`: the H-ARQ status stays. -/
def deleteQueues (v : MacNodeId) (enb : HarqEnb) : HarqEnb :=
  { enb with
    harqRxBuffers := enb.harqRxBuffers.erase v
    racStatus := enb.racStatus.filter fun n => n ≠ v
    bsrbuf := Function.update enb.bsrbuf v false }

end HarqEnb

/-! ### The network -/

/-- The UE, the eNBs, the binder, and the frames in between. -/
structure HarqSync where
  /-- The binder. -/
  binder : LteBinder
  /-- The UE. -/
  ue : LteMacUe
  /-- The eNBs. -/
  enbs : MacNodeId → HarqEnb := fun _ => {}
  /-- The frames that have been sent since the last main loops have begun. -/
  air : List UlFrame := []
  /-- The frames that arrive before the next main loops. -/
  arriving : List UlFrame := []

namespace HarqSync

/-- What happens in the network. -/
inductive Event where
  /-- The main loops of the UE and of all the eNBs. -/
  | tti (ue : UeInput) (enbs : MacNodeId → EnbInput)
  /-- A frame arrives. -/
  | arrival (frame : UlFrame)
  /-- New data comes from RLC: so many connections have data now. -/
  | newData (backlogged : ℕ)
  | handover (targetEnb : MacNodeId)
  /-- A PDU or a RAC request of another UE arrives, and another UE leaves the cell. -/
  | otherPdu (e v : MacNodeId)
  | otherRac (e v : MacNodeId)
  | otherLeaves (e v : MacNodeId)

variable (P : HarqNet) (s : HarqSync)

/-- Change an eNB. -/
def setEnb (e : MacNodeId) (enb : HarqEnb) : HarqSync :=
  { s with enbs := Function.update s.enbs e enb }

/-- The main loops.  All frames of the last TTI have arrived. -/
def tti (i : UeInput) (j : MacNodeId → EnbInput) : HarqSync :=
  let (ue, sent) := s.ue.tti P.processes i
  { s with
    ue := ue
    enbs := fun e => if e ∈ P.cells then ((s.enbs e).tti e P.ue (j e)).1 else s.enbs e
    air := sent ++ P.cells.flatMap fun e => ((s.enbs e).tti e P.ue (j e)).2
    arriving := s.air }

/-- `handleAirFrame`, at the PHY of the receiver, and the MAC behind it.  An eNB drops the frames of
a UE with another next hop, the UE those of another eNB. -/
def arrive : UlFrame → HarqSync
  | .pdu e =>
    if s.binder.getNextHop P.ue = some e then
      s.setEnb e ((s.enbs e).insertPdu P.processes P.ue)
    else s
  | .rac e =>
    if s.binder.getNextHop P.ue = some e then
      { s.setEnb e ((s.enbs e).signalRac P.ue) with air := s.air ++ [.racResponse e] }
    else s
  | .racResponse e => if e = s.ue.cellId then { s with ue := s.ue.macHandleRac } else s
  | .grant e acid => if e = s.ue.cellId then { s with ue := s.ue.macHandleGrant acid } else s

/-- `LtePhyUe::doHandover`. -/
def handover (targetEnb : MacNodeId) : HarqSync :=
  let s := s.setEnb s.ue.cellId ((s.enbs s.ue.cellId).deleteQueues P.ue)
  { s with
    binder := s.binder.unregisterNextHop s.ue.cellId P.ue
    ue := s.ue.deleteQueues.doHandover targetEnb }

/-- Handle an event. -/
def handle : Event → Option HarqSync
  | .tti i j =>
    if s.arriving = [] ∧ i.sdus.length = s.ue.macBuffers ∧ i.left ≤ s.ue.macBuffers then
      some (s.tti P i j)
    else none
  | .arrival frame =>
    if frame ∈ s.arriving then
      some ({ s with arriving := s.arriving.erase frame }.arrive P frame)
    else none
  | .newData backlogged =>
    if s.ue.macBuffers ≤ backlogged then
      some { s with ue := { s.ue with macBuffers := backlogged } }
    else none
  | .handover targetEnb =>
    if targetEnb ∈ P.cells ∧ targetEnb ≠ s.ue.cellId then some (s.handover P targetEnb) else none
  | .otherPdu e v =>
    if v ≠ P.ue then some (s.setEnb e ((s.enbs e).insertPdu P.processes v)) else none
  | .otherRac e v => if v ≠ P.ue then some (s.setEnb e ((s.enbs e).signalRac v)) else none
  | .otherLeaves e v => if v ≠ P.ue then some (s.setEnb e ((s.enbs e).deleteQueues v)) else none

/-- The network as a machine. -/
def machine : Machine HarqSync Event Empty where
  step s e := (s.handle P e).map fun s' => (s', [])

/-- The UE has been registered, with the binder `b`. -/
def initial (b : LteBinder) : HarqSync where
  binder := b.registerNextHop P.home P.ue
  ue := { cellId := P.home }

end HarqSync

/-! ### A TTI of the UE -/

namespace LteMacUe

variable {N : ℕ} {i : UeInput} {ue : LteMacUe} {emptyUnit : Bool}

@[simp] theorem cellId_macPduMake : (ue.macPduMake emptyUnit).cellId = ue.cellId := by
  unfold macPduMake; split <;> rfl

@[simp] theorem firstTx_macPduMake : (ue.macPduMake emptyUnit).firstTx = ue.firstTx := by
  unfold macPduMake; split <;> rfl

@[simp] theorem currentHarq_macPduMake :
    (ue.macPduMake emptyUnit).currentHarq = ue.currentHarq := by
  unfold macPduMake; split <;> rfl

@[simp] theorem requestedSdus_macPduMake :
    (ue.macPduMake emptyUnit).requestedSdus = ue.requestedSdus := by
  unfold macPduMake; split <;> rfl

/-- With a BSR to be sent, and no H-ARQ buffer yet, a PDU is selected for transmission. -/
theorem selected_macPduMake (hbsr : ue.bsrTriggered = true) (hlist : ue.scheduleList ≠ [])
    (hnew : ue.harqTxBuffers = false) : (ue.macPduMake emptyUnit).selected = true := by
  obtain ⟨sduPerCid, rest, hcons⟩ := List.exists_cons_of_ne_nil hlist
  unfold macPduMake
  rw [if_pos (by simp [hcons, hbsr])]
  simp [hnew]

/-- When the last of the SDUs has come, the PDU is made and the process is over. -/
theorem answered (n : ℕ) (h : ue.requestedSdus = n + 1) :
    (handleUpperMessage N emptyUnit)^[n + 1] ue =
      (({ ue with requestedSdus := 0 } : LteMacUe).macPduMake emptyUnit).nextHarq N := by
  induction n generalizing ue with
  | zero => simp [handleUpperMessage, h]
  | succ n ih =>
    have hstep : handleUpperMessage N emptyUnit ue = { ue with requestedSdus := n + 1 } := by
      simp [handleUpperMessage, h]
    rw [Function.iterate_succ_apply, hstep, ih rfl]

/-- **A TTI without a grant.** -/
theorem tti_of_no_grant (h : ue.schedulingGrant = none) :
    ue.tti N i = (({ ue.checkRAC.1 with requestedSdus := 0 } : LteMacUe).nextHarq N,
      ue.checkRAC.2) := by
  have hgrant : ue.checkRAC.1.schedulingGrant = none := by
    unfold checkRAC; split_ifs <;> exact h
  simp [tti, handleSelfMessage, h, hgrant, nextHarq]

/-- A TTI with a grant, when the grant has been looked at. -/
theorem tti_of_isSome (h : ue.schedulingGrant.isSome = true) {u v : LteMacUe}
    (hu : ({ ue with requestedSdus := 0 } : LteMacUe).useGrant N i = u)
    (hv : (if u.requestedSdus = 0 then u.nextHarq N else u) = v) :
    ue.tti N i = ((handleUpperMessage N i.emptyUnit)^[v.requestedSdus] v).flushHarqBuffers := by
  have hnone : ue.schedulingGrant.isNone = false := by simpa using h
  simp only [tti, handleSelfMessage, hnone, h, Bool.false_eq_true, if_false, if_true, hu]
  rw [← hv]
  split <;> simp

/-- A grant is used with the current process, which the first one sets. -/
theorem useGrant_spec {u : LteMacUe} :
    ∃ w : LteMacUe, w.firstTx = true ∧ w.cellId = u.cellId ∧
      w.currentHarq = (if u.firstTx then u.currentHarq else u8 (N - 2)) ∧
      w.harqTxBuffers = u.harqTxBuffers ∧ w.bsrTriggered = u.bsrTriggered ∧
      w.requestedSdus = u.requestedSdus ∧
      u.useGrant N i =
        if w.harqTxBuffers && i.retx then { w with selected := true }
        else if i.sdus.length = 0 then
          ({ w with scheduleList := i.sdus, macBuffers := i.left, requestedSdus := i.sdus.length } :
            LteMacUe).macPduMake i.emptyUnit
        else { w with
          scheduleList := i.sdus, macBuffers := i.left, requestedSdus := i.sdus.length } := by
  refine ⟨if u.firstTx then u else { u with firstTx := true, currentHarq := u8 (N - 2) },
    ?_, ?_, ?_, ?_, ?_, ?_, rfl⟩ <;> cases hfirst : u.firstTx <;> simp [hfirst]

/-- **A TTI with a grant.** -/
theorem tti_of_grant {acid : Option ℕ} (h : ue.schedulingGrant = some acid) :
    ∃ v : LteMacUe, ue.tti N i = (v.nextHarq N).flushHarqBuffers ∧ v.firstTx = true ∧
      v.cellId = ue.cellId ∧
      v.currentHarq = (if ue.firstTx then ue.currentHarq else u8 (N - 2)) ∧
      (ue.harqTxBuffers = false → ue.bsrTriggered = true → i.sdus ≠ [] → v.selected = true) := by
  have hsome : ue.schedulingGrant.isSome = true := by rw [h]; rfl
  obtain ⟨w, hfirst, hcell, hharq, htx, hbsr, hreq, huse⟩ :=
    useGrant_spec (N := N) (i := i) (u := { ue with requestedSdus := 0 })
  by_cases hretx : (w.harqTxBuffers && i.retx) = true
  · rw [if_pos hretx] at huse
    refine ⟨{ w with selected := true }, ?_, hfirst, hcell, hharq, fun _ _ _ => rfl⟩
    rw [tti_of_isSome hsome huse (if_pos hreq)]
    have hnext : (({ w with selected := true } : LteMacUe).nextHarq N).requestedSdus = 0 := hreq
    rw [hnext]
    rfl
  · rw [if_neg hretx] at huse
    refine ⟨({ w with scheduleList := i.sdus, macBuffers := i.left, requestedSdus := 0 } :
      LteMacUe).macPduMake i.emptyUnit, ?_, by simpa using hfirst, by simpa using hcell,
      by simpa using hharq, fun hnew hb hne =>
        selected_macPduMake (hbsr.trans hb) hne (htx.trans hnew)⟩
    cases hlen : i.sdus.length with
    | zero =>
      rw [hlen, if_pos rfl] at huse
      rw [tti_of_isSome hsome huse (if_pos (by simp))]
      simp [nextHarq]
    | succ n =>
      rw [hlen, if_neg n.succ_ne_zero] at huse
      rw [tti_of_isSome hsome huse (if_neg n.succ_ne_zero), answered n rfl]

/-- What a TTI without a grant leaves and sends. -/
theorem tti_idle (h : ue.schedulingGrant = none) :
    (ue.tti N i).1.cellId = ue.cellId ∧ (ue.tti N i).1.schedulingGrant = none ∧
      (ue.tti N i).1.firstTx = ue.firstTx ∧
      (ue.tti N i).1.currentHarq = u8 ((ue.currentHarq + 1) % N) ∧
      (ue.tti N i).1.harqTxBuffers = ue.harqTxBuffers ∧
      (ue.tti N i).1.bsrTriggered = ue.bsrTriggered ∧
      (ue.tti N i).1.macBuffers = ue.macBuffers ∧
      ∀ f ∈ (ue.tti N i).2, f = .rac ue.cellId ∧ 0 < ue.macBuffers := by
  rw [tti_of_no_grant h]
  unfold checkRAC
  split_ifs with htimer hreq hdata <;> simp [nextHarq, *]

/-- What a TTI with a grant leaves and sends. -/
theorem tti_granted {acid : Option ℕ} (h : ue.schedulingGrant = some acid) :
    (ue.tti N i).1.cellId = ue.cellId ∧ (ue.tti N i).1.schedulingGrant = none ∧
      (ue.tti N i).1.firstTx = true ∧
      (ue.tti N i).1.currentHarq =
        u8 (((if ue.firstTx then ue.currentHarq else u8 (N - 2)) + 1) % N) ∧
      (∀ f ∈ (ue.tti N i).2, f = .pdu ue.cellId) ∧
      (ue.harqTxBuffers = false → ue.bsrTriggered = true → i.sdus ≠ [] →
        .pdu ue.cellId ∈ (ue.tti N i).2) := by
  obtain ⟨v, htti, hfirst, hcell, hharq, hsel⟩ := tti_of_grant (N := N) (i := i) h
  have hsent : (ue.tti N i).2 = if v.selected then [.pdu ue.cellId] else [] := by
    rw [htti, ← hcell]
    rfl
  refine ⟨by rw [htti]; exact hcell, by rw [htti]; rfl, by rw [htti]; exact hfirst, ?_, ?_, ?_⟩
  · rw [htti, ← hharq]
    rfl
  · rw [hsent]
    split <;> simp
  · intro hnew hbsr hne
    rw [hsent, if_pos (hsel hnew hbsr hne)]
    exact List.mem_singleton_self _

end LteMacUe

/-! ### A TTI of an eNB -/

/-- What an eNB has for a UE. -/
structure UeAtEnb where
  /-- The number of processes in its H-ARQ buffer. -/
  rx : Option ℕ
  /-- The process that is on now. -/
  status : Option ℕ
  /-- A RAC request of it has come. -/
  rac : Bool
  /-- A report of it has come. -/
  bsr : Bool

namespace HarqEnb

variable {e v w : MacNodeId} {enb : HarqEnb} {i : EnbInput} {f : UlFrame}

/-- What the eNB has for the UE `v`. -/
def view (v : MacNodeId) (enb : HarqEnb) : UeAtEnb where
  rx := enb.harqRxBuffers.find v
  status := enb.harqStatus.find v
  rac := enb.racStatus.contains v
  bsr := enb.bsrbuf v

/-- The frames of other UEs do not matter. -/
theorem view_insertPdu_of_ne {N : ℕ} (h : v ≠ w) :
    (enb.insertPdu N w).view v = enb.view v := by
  unfold insertPdu
  split
  · rfl
  · simp [view, OrderedMap.find_put, h]

theorem view_signalRac_of_ne (h : v ≠ w) : (enb.signalRac w).view v = enb.view v := by
  simp [view, signalRac, h]

theorem view_deleteQueues_of_ne (h : v ≠ w) : (enb.deleteQueues w).view v = enb.view v := by
  simp [view, deleteQueues, OrderedMap.find_erase, h]

/-- A H-ARQ buffer that is there already is kept. -/
theorem view_insertPdu_self {N : ℕ} : (enb.insertPdu N v).view v =
    { enb.view v with rx := some ((enb.view v).rx.getD N) } := by
  unfold insertPdu
  cases hrx : enb.harqRxBuffers.find v <;> simp [view, OrderedMap.find_put, hrx]

theorem view_signalRac_self : (enb.signalRac v).view v = { enb.view v with rac := true } := by
  simp [view, signalRac]

theorem sorted_insertPdu {N : ℕ} (h : enb.harqRxBuffers.Sorted) :
    (enb.insertPdu N w).harqRxBuffers.Sorted := by
  unfold insertPdu
  split
  · exact h
  · exact h.put _ _

/-- The process number that comes after a status. -/
def nextAcid (processes : ℕ) : Option ℕ → ℕ
  | some acid => u8 ((acid + 1) % processes)
  | none => 0

theorem harqStatus_updateHarqDescs :
    enb.updateHarqDescs.harqStatus =
      enb.harqRxBuffers.foldl (fun status it =>
        status.put it.1 (nextAcid it.2 (status.find it.1))) enb.harqStatus := by
  unfold updateHarqDescs nextAcid
  rfl

/-- **The H-ARQ status of a UE** is counted on as long as there is a buffer for it. -/
theorem view_tti (h : enb.harqRxBuffers.Sorted) :
    (enb.tti e v i).1.view v =
      { rx := (enb.view v).rx
        status := match (enb.view v).rx with
          | some processes => some (nextAcid processes (enb.view v).status)
          | none => (enb.view v).status
        rac := false
        bsr := (enb.view v).bsr || i.bsr v && (enb.view v).rx.isSome } := by
  have hfind := OrderedMap.find_foldl_put nextAcid h enb.harqStatus v
  simp only [view, tti, harqStatus_updateHarqDescs, List.contains_nil]
  rw [hfind]
  cases hrx : enb.harqRxBuffers.find v <;> simp [updateHarqDescs, hrx]

/-- **The grants of a TTI.** -/
theorem mem_tti (hf : f ∈ (enb.tti e v i).2) :
    f = .grant e none ∧ ((enb.view v).rac = true ∨ ((enb.tti e v i).1.view v).bsr = true) ∨
      ∃ processes acid, f = .grant e (some (u8 ((acid + 2) % processes))) ∧
        ((enb.tti e v i).1.view v).rx = some processes ∧
        ((enb.tti e v i).1.view v).status = some acid := by
  simp only [tti, schedule, List.mem_append] at hf
  rcases hf with hrac | hgrant
  · split at hrac
    · rename_i hcond
      rw [List.mem_singleton.1 hrac]
      exact .inl ⟨rfl, .inl (List.contains_iff_mem.2 hcond.1)⟩
    · cases hrac
  · split at hgrant
    · cases hgrant
    rcases List.mem_append.1 hgrant with hrtx | hdata
    · unfold rtxschedule at hrtx
      split at hrtx
      · rename_i processes acid hrx hstatus
        dsimp only at hrtx
        split at hrtx
        · rw [List.mem_singleton.1 hrtx]
          exact .inr ⟨processes, acid, rfl, hrx, hstatus⟩
        · cases hrtx
      · cases hrtx
    · split at hdata
      · rename_i hcond
        rw [List.mem_singleton.1 hdata]
        exact .inl ⟨rfl, .inr (Bool.and_eq_true_iff.1 hcond).1⟩
      · cases hdata

end HarqEnb

/-! ### The phases of a UE and its eNB -/

namespace HarqSync

variable {P : HarqNet} {s : HarqSync}

/-- What the eNB `e` has for the UE. -/
def view (P : HarqNet) (s : HarqSync) (e : MacNodeId) : UeAtEnb := (s.enbs e).view P.ue

/-- There has been no grant yet.  One only comes for a RAC request with data, and the BSR is
triggered by then. -/
structure Idle (P : HarqNet) (s : HarqSync) : Prop where
  firstTx : s.ue.firstTx = false
  harqTxBuffers : s.ue.harqTxBuffers = false
  rx : (s.view P s.ue.cellId).rx = none
  status : (s.view P s.ue.cellId).status = none
  bsr : (s.view P s.ue.cellId).bsr = false
  air : ∀ d, UlFrame.pdu d ∉ s.air
  arriving : ∀ d, UlFrame.pdu d ∉ s.arriving
  rac : ∀ d, UlFrame.rac d ∈ s.air ∨ UlFrame.rac d ∈ s.arriving → 0 < s.ue.macBuffers
  racStatus : (s.view P s.ue.cellId).rac = true →
    0 < s.ue.macBuffers ∧ (s.ue.bsrTriggered = true ∨ .racResponse s.ue.cellId ∈ s.air)
  grantAir : ∀ acid, .grant s.ue.cellId acid ∈ s.air →
    0 < s.ue.macBuffers ∧ (s.ue.bsrTriggered = true ∨ .racResponse s.ue.cellId ∈ s.arriving)
  grantArriving : ∀ acid, .grant s.ue.cellId acid ∈ s.arriving →
    0 < s.ue.macBuffers ∧ s.ue.bsrTriggered = true
  held : s.ue.schedulingGrant.isSome = true → 0 < s.ue.macBuffers ∧ s.ue.bsrTriggered = true

/-- The PDU of the first grant has been sent. -/
structure Sent (P : HarqNet) (s : HarqSync) : Prop where
  firstTx : s.ue.firstTx = true
  currentHarq : s.ue.currentHarq = P.processes - 1
  rx : (s.view P s.ue.cellId).rx = none
  status : (s.view P s.ue.cellId).status = none
  air : .pdu s.ue.cellId ∈ s.air
  arriving : ∀ d, UlFrame.pdu d ∉ s.arriving

/-- It arrives. -/
structure Received (P : HarqNet) (s : HarqSync) : Prop where
  firstTx : s.ue.firstTx = true
  currentHarq : s.ue.currentHarq = 0
  rx : .pdu s.ue.cellId ∈ s.arriving ∧ (s.view P s.ue.cellId).rx = none ∨
    (s.view P s.ue.cellId).rx = some P.processes
  status : (s.view P s.ue.cellId).status = none

/-- Both sides count. -/
structure Running (P : HarqNet) (s : HarqSync) : Prop where
  firstTx : s.ue.firstTx = true
  rx : (s.view P s.ue.cellId).rx = some P.processes
  currentHarq : ∃ acid, (s.view P s.ue.cellId).status = some acid ∧
    s.ue.currentHarq = (acid + 1) % P.processes

/-- The phase of the UE and the eNB that serves it. -/
inductive Phase (P : HarqNet) (s : HarqSync) : Prop
  | idle (h : Idle P s)
  | sent (h : Sent P s)
  | received (h : Received P s)
  | running (h : Running P s)

/-- The process of a grant for a retransmission is the one of the TTI in which it is used.  The
current process is that of the TTI to come. -/
structure InTime (P : HarqNet) (s : HarqSync) : Prop where
  air : ∀ e acid, .grant e (some acid) ∈ s.air →
    s.ue.firstTx = true ∧ acid = (s.ue.currentHarq + 1) % P.processes
  arriving : ∀ e acid, .grant e (some acid) ∈ s.arriving →
    s.ue.firstTx = true ∧ acid = s.ue.currentHarq
  held : ∀ acid, s.ue.schedulingGrant = some (some acid) →
    s.ue.firstTx = true ∧ acid = s.ue.currentHarq

/-- The invariant of a run.  After a handover the UE has no next hop. -/
structure Inv (P : HarqNet) (s : HarqSync) : Prop where
  cell : s.ue.cellId ∈ P.cells
  currentHarq : s.ue.currentHarq < P.processes
  sorted : ∀ e, (s.enbs e).harqRxBuffers.Sorted
  nextHop : s.binder.getNextHop P.ue = some s.ue.cellId ∨ s.binder.getNextHop P.ue = some 0
  rx : ∀ e ∈ P.cells, ∀ n, (s.view P e).rx = some n →
    s.binder.getNextHop P.ue = some e
  phase : s.binder.getNextHop P.ue = some s.ue.cellId → Phase P s
  inTime : InTime P s

theorem ne_zero_of_mem {e : MacNodeId} (he : e ∈ P.cells) : e ≠ 0 := by
  rintro rfl
  exact absurd (P.type_of_mem 0 he) (by decide)

/-- Only the eNB that serves the UE lets its frames through. -/
theorem Inv.eq_cellId (hI : Inv P s) {e : MacNodeId} (he : e ∈ P.cells)
    (hhop : s.binder.getNextHop P.ue = some e) : e = s.ue.cellId := by
  rcases hI.nextHop with hcell | hzero
  · exact Option.some.inj (hhop.symm.trans hcell)
  · exact absurd (Option.some.inj (hhop.symm.trans hzero)) (ne_zero_of_mem he)

/-- **Where the eNB has a status, the UE is one process ahead.** -/
theorem Phase.ahead (h : Phase P s) {acid : ℕ}
    (hstatus : (s.view P s.ue.cellId).status = some acid) :
    s.ue.firstTx = true ∧ s.ue.currentHarq = (acid + 1) % P.processes ∧
      (s.view P s.ue.cellId).rx = some P.processes := by
  cases h with
  | idle h => rw [h.status] at hstatus; cases hstatus
  | sent h => rw [h.status] at hstatus; cases hstatus
  | received h => rw [h.status] at hstatus; cases hstatus
  | running h =>
    obtain ⟨acid', hacid, hcur⟩ := h.currentHarq
    obtain rfl := Option.some.inj (hacid.symm.trans hstatus)
    exact ⟨h.firstTx, hcur, h.rx⟩

theorem inv_initial (b : LteBinder) : Inv P (initial P b) where
  cell := P.home_mem
  currentHarq := lt_of_lt_of_le Nat.zero_lt_two P.two_le
  sorted e := OrderedMap.sorted_nil
  nextHop := .inl LteBinder.getNextHop_registerNextHop_self
  rx e he n hn := by cases hn
  phase _ := .idle
    { firstTx := rfl
      harqTxBuffers := rfl
      rx := rfl
      status := rfl
      bsr := rfl
      air := fun _ => List.not_mem_nil
      arriving := fun _ => List.not_mem_nil
      rac := by rintro d (h | h) <;> cases h
      racStatus := fun h => by cases h
      grantAir := fun _ h => by cases h
      grantArriving := fun _ h => by cases h
      held := fun h => by cases h }
  inTime :=
    { air := fun _ _ h => by cases h
      arriving := fun _ _ h => by cases h
      held := fun _ h => by cases h }

/-! ### The main loops -/

section Tti

variable {i : UeInput} {j : MacNodeId → EnbInput} {e : MacNodeId} {f : UlFrame}

theorem u8_mod (n : ℕ) : u8 (n % P.processes) = n % P.processes :=
  u8_of_lt (lt_of_lt_of_le (Nat.mod_lt _ (lt_of_lt_of_le Nat.zero_lt_two P.two_le)) P.le_256)

@[simp] theorem ue_tti : (s.tti P i j).ue = (s.ue.tti P.processes i).1 := rfl

@[simp] theorem arriving_tti : (s.tti P i j).arriving = s.air := rfl

@[simp] theorem binder_tti : (s.tti P i j).binder = s.binder := rfl

@[simp] theorem cellId_tti : (s.tti P i j).ue.cellId = s.ue.cellId := by
  rw [ue_tti]
  cases h : s.ue.schedulingGrant with
  | none => exact (LteMacUe.tti_idle h).1
  | some acid => exact (LteMacUe.tti_granted h).1

/-- The grant is gone after the TTI. -/
@[simp] theorem schedulingGrant_tti : (s.tti P i j).ue.schedulingGrant = none := by
  rw [ue_tti]
  cases h : s.ue.schedulingGrant with
  | none => exact (LteMacUe.tti_idle h).2.1
  | some acid => exact (LteMacUe.tti_granted h).2.1

/-- The UE counts on after its first grant. -/
theorem currentHarq_tti_of_firstTx (h : s.ue.firstTx = true) :
    (s.tti P i j).ue.firstTx = true ∧
      (s.tti P i j).ue.currentHarq = (s.ue.currentHarq + 1) % P.processes := by
  rw [ue_tti]
  cases hgrant : s.ue.schedulingGrant with
  | none =>
    obtain ⟨-, -, hfirst, hharq, -⟩ := LteMacUe.tti_idle (N := P.processes) (i := i) hgrant
    exact ⟨hfirst.trans h, hharq.trans (u8_mod _)⟩
  | some acid =>
    obtain ⟨-, -, hfirst, hharq, -⟩ := LteMacUe.tti_granted (N := P.processes) (i := i) hgrant
    rw [if_pos h] at hharq
    exact ⟨hfirst, hharq.trans (u8_mod _)⟩

theorem currentHarq_tti_lt : (s.tti P i j).ue.currentHarq < P.processes := by
  have hlt (n : ℕ) : u8 (n % P.processes) < P.processes := by
    rw [u8_mod]
    exact Nat.mod_lt _ (lt_of_lt_of_le Nat.zero_lt_two P.two_le)
  rw [ue_tti]
  cases hgrant : s.ue.schedulingGrant with
  | none =>
    obtain ⟨-, -, -, hharq, -⟩ := LteMacUe.tti_idle (N := P.processes) (i := i) hgrant
    exact hharq ▸ hlt _
  | some acid =>
    obtain ⟨-, -, -, hharq, -⟩ := LteMacUe.tti_granted (N := P.processes) (i := i) hgrant
    exact hharq ▸ hlt _

/-- The frames of a TTI are those of the UE and the grants of the eNBs. -/
theorem mem_air_tti : f ∈ (s.tti P i j).air ↔
    f ∈ (s.ue.tti P.processes i).2 ∨ ∃ e ∈ P.cells, f ∈ ((s.enbs e).tti e P.ue (j e)).2 := by
  simp [tti]

theorem view_tti (he : e ∈ P.cells) :
    (s.tti P i j).view P e = ((s.enbs e).tti e P.ue (j e)).1.view P.ue := by
  simp [view, tti, he]

theorem rx_tti (he : e ∈ P.cells) (hs : (s.enbs e).harqRxBuffers.Sorted) :
    ((s.tti P i j).view P e).rx = (s.view P e).rx := by
  rw [view_tti he, HarqEnb.view_tti hs]
  rfl

/-- The status does not change without a H-ARQ buffer. -/
theorem status_tti_of_none (he : e ∈ P.cells) (hs : (s.enbs e).harqRxBuffers.Sorted)
    (hrx : (s.view P e).rx = none) :
    ((s.tti P i j).view P e).status = (s.view P e).status := by
  unfold view at hrx
  rw [view_tti he, HarqEnb.view_tti hs, hrx]
  rfl

theorem status_tti_of_some (he : e ∈ P.cells) (hs : (s.enbs e).harqRxBuffers.Sorted) {n : ℕ}
    (hrx : (s.view P e).rx = some n) :
    ((s.tti P i j).view P e).status = some (HarqEnb.nextAcid n (s.view P e).status) := by
  unfold view at hrx
  rw [view_tti he, HarqEnb.view_tti hs, hrx]
  rfl

theorem rac_tti (he : e ∈ P.cells) (hs : (s.enbs e).harqRxBuffers.Sorted) :
    ((s.tti P i j).view P e).rac = false := by
  rw [view_tti he, HarqEnb.view_tti hs]

/-- A BSR only comes with a PDU. -/
theorem bsr_tti_of_none (he : e ∈ P.cells) (hs : (s.enbs e).harqRxBuffers.Sorted)
    (hrx : (s.view P e).rx = none) : ((s.tti P i j).view P e).bsr = (s.view P e).bsr := by
  unfold view at hrx
  rw [view_tti he, HarqEnb.view_tti hs, hrx]
  simp [view]

/-- A grant is sent by the eNB of its source. -/
theorem grant_mem_air_tti {acid : Option ℕ} (h : .grant e acid ∈ (s.tti P i j).air) :
    e ∈ P.cells ∧ .grant e acid ∈ ((s.enbs e).tti e P.ue (j e)).2 := by
  rcases mem_air_tti.1 h with hue | ⟨e', he', henb⟩
  · cases hgrant : s.ue.schedulingGrant with
    | none => cases ((LteMacUe.tti_idle hgrant).2.2.2.2.2.2.2 _ hue).1
    | some held => cases (LteMacUe.tti_granted hgrant).2.2.2.2.1 _ hue
  · have heq : e = e' := by
      rcases HarqEnb.mem_tti henb with ⟨hf, -⟩ | ⟨n, a, hf, -⟩ <;> injection hf
    subst heq
    exact ⟨he', henb⟩

/-- A frame that is not a grant is sent by the UE. -/
theorem mem_ue_of_mem_air_tti (h : f ∈ (s.tti P i j).air) (hf : ∀ e acid, f ≠ .grant e acid) :
    f ∈ (s.ue.tti P.processes i).2 := by
  rcases mem_air_tti.1 h with hue | ⟨e, -, henb⟩
  · exact hue
  · rcases HarqEnb.mem_tti henb with ⟨hgrant, -⟩ | ⟨n, a, hgrant, -⟩ <;>
      exact absurd hgrant (hf _ _)

/-- Without a grant the UE stays idle. -/
theorem Idle.tti_of_no_grant (h : Idle P s) (he : s.ue.cellId ∈ P.cells)
    (hs : (s.enbs s.ue.cellId).harqRxBuffers.Sorted) (harr : s.arriving = [])
    (hgrant : s.ue.schedulingGrant = none) : Idle P (s.tti P i j) := by
  have hrx := (rx_tti (i := i) (j := j) he hs).trans h.rx
  have hbsrbuf := (bsr_tti_of_none (i := i) (j := j) he hs h.rx).trans h.bsr
  obtain ⟨-, -, hfirst, -, htx, hbsr, hbuf, hsent⟩ :=
    LteMacUe.tti_idle (N := P.processes) (i := i) hgrant
  refine ⟨hfirst.trans h.firstTx, htx.trans h.harqTxBuffers, by rwa [cellId_tti], ?_,
    by rwa [cellId_tti], ?_, h.air, ?_, ?_, ?_, ?_, ?_⟩
  · rw [cellId_tti]
    exact (status_tti_of_none he hs h.rx).trans h.status
  · -- a UE without a grant sends nothing but a request
    intro d hair
    cases (hsent _ (mem_ue_of_mem_air_tti hair fun _ _ hf => by cases hf)).1
  · rintro d (hair | harriving)
    · rw [ue_tti, hbuf]
      exact (hsent _ (mem_ue_of_mem_air_tti hair fun _ _ hf => by cases hf)).2
    · rw [ue_tti, hbuf]
      exact h.rac d (.inl harriving)
  · -- the eNB has answered the requests
    intro hrac
    rw [cellId_tti, rac_tti he hs] at hrac
    cases hrac
  · -- a grant for a RAC request
    intro acid hair
    rw [cellId_tti] at hair
    rw [ue_tti, hbuf, hbsr, (LteMacUe.tti_idle hgrant).1]
    rcases HarqEnb.mem_tti (grant_mem_air_tti hair).2 with ⟨-, hrac | hbsr'⟩ | ⟨n, a, -, hrx', -⟩
    · exact h.racStatus hrac
    · rw [← view_tti he, hbsrbuf] at hbsr'
      cases hbsr'
    · rw [← view_tti he, hrx] at hrx'
      cases hrx'
  · -- what is still on the way to the UE has been there before
    intro acid harriving
    rw [cellId_tti] at harriving
    rw [ue_tti, hbuf, hbsr]
    obtain ⟨hdata, htrig | hresp⟩ := h.grantAir acid harriving
    · exact ⟨hdata, htrig⟩
    · rw [harr] at hresp
      cases hresp
  · intro hheld
    rw [schedulingGrant_tti] at hheld
    cases hheld

/-- The first grant is used for a PDU with the BSR. -/
theorem Idle.tti_of_grant (h : Idle P s) (he : s.ue.cellId ∈ P.cells)
    (hs : (s.enbs s.ue.cellId).harqRxBuffers.Sorted) (hsdus : i.sdus.length = s.ue.macBuffers)
    {acid : Option ℕ} (hgrant : s.ue.schedulingGrant = some acid) : Sent P (s.tti P i j) := by
  obtain ⟨hdata, hbsr⟩ := h.held (by rw [hgrant]; rfl)
  obtain ⟨-, -, hfirst, hharq, -, hpdu⟩ :=
    LteMacUe.tti_granted (N := P.processes) (i := i) hgrant
  have hne : i.sdus ≠ [] := by
    rw [← List.length_pos_iff, hsdus]
    exact hdata
  refine ⟨hfirst, ?_, ?_, ?_, ?_, h.air⟩
  · have htwo := P.two_le
    have hle := P.le_256
    rw [h.firstTx, if_neg Bool.false_ne_true, u8_mod, u8_of_lt (by omega),
      Nat.mod_eq_of_lt (by omega)] at hharq
    rw [ue_tti, hharq]
    omega
  · rw [cellId_tti]
    exact (rx_tti he hs).trans h.rx
  · rw [cellId_tti]
    exact (status_tti_of_none he hs h.rx).trans h.status
  · rw [cellId_tti]
    exact mem_air_tti.2 (.inl (hpdu h.harqTxBuffers hbsr hne))

theorem Sent.tti (h : Sent P s) (he : s.ue.cellId ∈ P.cells)
    (hs : (s.enbs s.ue.cellId).harqRxBuffers.Sorted) : Received P (s.tti P i j) where
  firstTx := (currentHarq_tti_of_firstTx h.firstTx).1
  currentHarq := by
    have htwo := P.two_le
    rw [(currentHarq_tti_of_firstTx h.firstTx).2, h.currentHarq, Nat.sub_add_cancel (by omega),
      Nat.mod_self]
  rx := .inl (by rw [cellId_tti]; exact ⟨h.air, (rx_tti he hs).trans h.rx⟩)
  status := by
    rw [cellId_tti]
    exact (status_tti_of_none he hs h.rx).trans h.status

theorem Received.tti (h : Received P s) (he : s.ue.cellId ∈ P.cells)
    (hs : (s.enbs s.ue.cellId).harqRxBuffers.Sorted) (harr : s.arriving = []) :
    Running P (s.tti P i j) := by
  have hrx : (s.view P s.ue.cellId).rx = some P.processes := by
    rcases h.rx with ⟨hpdu, -⟩ | hrx
    · rw [harr] at hpdu
      cases hpdu
    · exact hrx
  refine ⟨(currentHarq_tti_of_firstTx h.firstTx).1, ?_, 0, ?_, ?_⟩
  · rw [cellId_tti]
    exact (rx_tti he hs).trans hrx
  · rw [cellId_tti, status_tti_of_some he hs hrx, h.status]
    rfl
  · rw [(currentHarq_tti_of_firstTx h.firstTx).2, h.currentHarq]

theorem Running.tti (h : Running P s) (he : s.ue.cellId ∈ P.cells)
    (hs : (s.enbs s.ue.cellId).harqRxBuffers.Sorted) : Running P (s.tti P i j) := by
  obtain ⟨acid, hstatus, hcur⟩ := h.currentHarq
  refine ⟨(currentHarq_tti_of_firstTx h.firstTx).1, ?_, (acid + 1) % P.processes, ?_, ?_⟩
  · rw [cellId_tti]
    exact (rx_tti he hs).trans h.rx
  · rw [cellId_tti, status_tti_of_some he hs h.rx, hstatus]
    exact congrArg some (u8_mod _)
  · rw [(currentHarq_tti_of_firstTx h.firstTx).2, hcur]

theorem Phase.tti (h : Phase P s) (he : s.ue.cellId ∈ P.cells)
    (hs : (s.enbs s.ue.cellId).harqRxBuffers.Sorted) (harr : s.arriving = [])
    (hsdus : i.sdus.length = s.ue.macBuffers) : Phase P (s.tti P i j) := by
  cases h with
  | idle h =>
    cases hgrant : s.ue.schedulingGrant with
    | none => exact .idle (h.tti_of_no_grant he hs harr hgrant)
    | some acid => exact .sent (h.tti_of_grant he hs hsdus hgrant)
  | sent h => exact .received (h.tti he hs)
  | received h => exact .running (h.tti he hs harr)
  | running h => exact .running (h.tti he hs)

/-- **The main loops keep the invariant.**  The process of a new grant is read off the status that
the eNB has in the same TTI. -/
theorem Inv.tti (hI : Inv P s) (harr : s.arriving = [])
    (hsdus : i.sdus.length = s.ue.macBuffers) : Inv P (s.tti P i j) := by
  have hphase (hhop : s.binder.getNextHop P.ue = some s.ue.cellId) : Phase P (s.tti P i j) :=
    (hI.phase hhop).tti hI.cell (hI.sorted _) harr hsdus
  have hrx (e : MacNodeId) (he : e ∈ P.cells) (n : ℕ)
      (hn : ((s.tti P i j).view P e).rx = some n) : s.binder.getNextHop P.ue = some e :=
    hI.rx e he n ((rx_tti he (hI.sorted e)).symm.trans hn)
  refine ⟨by rw [cellId_tti]; exact hI.cell, currentHarq_tti_lt, ?_, ?_, hrx, ?_, ?_⟩
  · intro e
    simp only [HarqSync.tti]
    split <;> exact hI.sorted e
  · rw [cellId_tti]
    exact hI.nextHop
  · intro hhop
    rw [cellId_tti] at hhop
    exact hphase hhop
  · refine ⟨?_, ?_, ?_⟩
    · intro e acid hair
      obtain ⟨he, hgrant⟩ := grant_mem_air_tti hair
      rcases HarqEnb.mem_tti hgrant with ⟨hf, -⟩ | ⟨n, a, hf, hn, hstatus⟩
      · cases hf
      · obtain rfl : acid = u8 ((a + 2) % n) := by
          injection hf with _ hacid
          exact Option.some.inj hacid
        rw [← view_tti he] at hn hstatus
        -- the eNB is the one that serves the UE
        have hhop := hrx e he n hn
        obtain rfl := hI.eq_cellId he hhop
        obtain ⟨hfirst, hcur, hN⟩ := (hphase hhop).ahead (by rw [cellId_tti]; exact hstatus)
        rw [cellId_tti] at hN
        obtain rfl : P.processes = n := Option.some.inj (hN.symm.trans hn)
        exact ⟨hfirst, by rw [hcur, u8_mod, Nat.mod_add_mod]⟩
    · intro e acid harriving
      obtain ⟨hfirst, rfl⟩ := hI.inTime.air e acid harriving
      exact ⟨(currentHarq_tti_of_firstTx hfirst).1, (currentHarq_tti_of_firstTx hfirst).2.symm⟩
    · intro acid hheld
      rw [schedulingGrant_tti] at hheld
      cases hheld

end Tti

/-! ### The arrival of a frame -/

section Arrival

variable {e d : MacNodeId} {f : UlFrame} {enb : HarqEnb}

theorem view_setEnb_self : (s.setEnb e enb).view P e = enb.view P.ue := by
  simp [view, setEnb]

theorem view_setEnb_of_ne (h : d ≠ e) : (s.setEnb e enb).view P d = s.view P d := by
  simp [view, setEnb, h]

theorem sorted_setEnb (hs : ∀ d, (s.enbs d).harqRxBuffers.Sorted) (h : enb.harqRxBuffers.Sorted)
    (d : MacNodeId) : ((s.setEnb e enb).enbs d).harqRxBuffers.Sorted := by
  by_cases hd : d = e
  · simpa [setEnb, hd] using h
  · simpa [setEnb, hd] using hs d

/-- The frame `f` is not on its way any more. -/
def drop (s : HarqSync) (f : UlFrame) : HarqSync := { s with arriving := s.arriving.erase f }

theorem mem_of_mem_drop {f' : UlFrame} (h : f' ∈ (s.drop f).arriving) : f' ∈ s.arriving :=
  List.mem_of_mem_erase h

theorem mem_drop {f' : UlFrame} (h : f' ∈ s.arriving) (hne : f' ≠ f) :
    f' ∈ (s.drop f).arriving :=
  (List.mem_erase_of_ne hne).2 h

theorem InTime.drop (h : InTime P s) : InTime P (s.drop f) :=
  ⟨h.air, fun e acid hf => h.arriving e acid (mem_of_mem_drop hf), h.held⟩

/-- A frame may go when nobody waits for it any more. -/
theorem Phase.drop (h : Phase P s)
    (hpdu : f = .pdu s.ue.cellId → (s.view P s.ue.cellId).rx ≠ none)
    (hresp : f = .racResponse s.ue.cellId → s.ue.bsrTriggered = true) : Phase P (s.drop f) := by
  cases h with
  | idle h =>
    refine .idle { h with
      arriving := fun d hd => h.arriving d (mem_of_mem_drop hd)
      rac := fun d hd => h.rac d (hd.imp_right mem_of_mem_drop)
      grantAir := fun acid hacid => ?_
      grantArriving := fun acid hacid => h.grantArriving acid (mem_of_mem_drop hacid) }
    obtain ⟨hdata, hbsr | hmem⟩ := h.grantAir acid hacid
    · exact ⟨hdata, .inl hbsr⟩
    · by_cases heq : f = .racResponse s.ue.cellId
      · exact ⟨hdata, .inl (hresp heq)⟩
      · exact ⟨hdata, .inr (mem_drop hmem (Ne.symm heq))⟩
  | sent h => exact .sent { h with arriving := fun d hd => h.arriving d (mem_of_mem_drop hd) }
  | received h =>
    refine .received { h with rx := ?_ }
    rcases h.rx with ⟨hmem, hrx⟩ | hrx
    · exact .inl ⟨mem_drop hmem fun heq => hpdu heq.symm hrx, hrx⟩
    · exact .inr hrx
  | running h => exact .running { h with }

theorem Inv.drop (hI : Inv P s)
    (hpdu : s.binder.getNextHop P.ue = some s.ue.cellId → f = .pdu s.ue.cellId →
      (s.view P s.ue.cellId).rx ≠ none)
    (hresp : f = .racResponse s.ue.cellId → s.ue.bsrTriggered = true) : Inv P (s.drop f) :=
  { hI with
    phase := fun hhop => (hI.phase hhop).drop (hpdu hhop) hresp
    inTime := hI.inTime.drop }

/-- The first PDU makes the H-ARQ buffer. -/
theorem Phase.insertPdu (h : Phase P s) (hf : .pdu s.ue.cellId ∈ s.arriving) :
    Phase P (s.setEnb s.ue.cellId ((s.enbs s.ue.cellId).insertPdu P.processes P.ue)) := by
  have hview : (s.setEnb s.ue.cellId
      ((s.enbs s.ue.cellId).insertPdu P.processes P.ue)).view P s.ue.cellId =
        { s.view P s.ue.cellId with
          rx := some ((s.view P s.ue.cellId).rx.getD P.processes) } := by
    rw [view_setEnb_self, HarqEnb.view_insertPdu_self]
    rfl
  cases h with
  | idle h => exact absurd hf (h.arriving _)
  | sent h => exact absurd hf (h.arriving _)
  | received h =>
    refine .received { h with rx := .inr ?_, status := (congrArg _ hview).trans h.status }
    refine (congrArg UeAtEnb.rx hview).trans ?_
    rcases h.rx with ⟨-, hrx⟩ | hrx <;> rw [hrx] <;> rfl
  | running h =>
    refine .running { h with rx := ?_, currentHarq := ?_ }
    · refine (congrArg UeAtEnb.rx hview).trans ?_
      rw [h.rx]
      rfl
    · obtain ⟨acid, hacid, hcur⟩ := h.currentHarq
      exact ⟨acid, (congrArg UeAtEnb.status hview).trans hacid, hcur⟩

/-- A RAC request is answered in the same TTI. -/
theorem Phase.signalRac (h : Phase P s) (hf : .rac d ∈ s.arriving) :
    Phase P { s.setEnb s.ue.cellId ((s.enbs s.ue.cellId).signalRac P.ue) with
      air := s.air ++ [.racResponse s.ue.cellId] } := by
  have hview : (s.setEnb s.ue.cellId
      ((s.enbs s.ue.cellId).signalRac P.ue)).view P s.ue.cellId =
        { s.view P s.ue.cellId with rac := true } := by
    rw [view_setEnb_self, HarqEnb.view_signalRac_self]
    rfl
  have hrx := congrArg UeAtEnb.rx hview
  have hstatus := congrArg UeAtEnb.status hview
  cases h with
  | idle h =>
    exact .idle { h with
      rx := hrx.trans h.rx
      status := hstatus.trans h.status
      bsr := (congrArg UeAtEnb.bsr hview).trans h.bsr
      air := fun d hd => h.air d (by simpa using hd)
      rac := fun d hd => h.rac d (hd.imp_left fun hd => by simpa using hd)
      racStatus := fun _ =>
        ⟨h.rac d (.inr hf), .inr (List.mem_append_right _ List.mem_cons_self)⟩
      grantAir := fun acid hacid =>
        h.grantAir acid ((List.mem_append.1 hacid).resolve_right (by simp)) }
  | sent h =>
    exact .sent { h with
      rx := hrx.trans h.rx
      status := hstatus.trans h.status
      air := List.mem_append_left _ h.air }
  | received h =>
    exact .received { h with
      rx := h.rx.imp (fun hpdu => ⟨hpdu.1, hrx.trans hpdu.2⟩) hrx.trans
      status := hstatus.trans h.status }
  | running h =>
    obtain ⟨acid, hacid, hcur⟩ := h.currentHarq
    exact .running ⟨h.firstTx, hrx.trans h.rx, acid, hstatus.trans hacid, hcur⟩

theorem Phase.macHandleRac (h : Phase P s) :
    Phase P { s with ue := s.ue.macHandleRac } := by
  cases h with
  | idle h =>
    exact .idle { h with
      racStatus := fun hrac => ⟨(h.racStatus hrac).1, .inl rfl⟩
      grantAir := fun acid hacid => ⟨(h.grantAir acid hacid).1, .inl rfl⟩
      grantArriving := fun acid hacid => ⟨(h.grantArriving acid hacid).1, rfl⟩
      held := fun hheld => ⟨(h.held hheld).1, rfl⟩ }
  | sent h => exact .sent { h with }
  | received h => exact .received { h with }
  | running h => exact .running { h with }

theorem Phase.macHandleGrant (h : Phase P s) {acid : Option ℕ}
    (hf : .grant s.ue.cellId acid ∈ s.arriving) :
    Phase P { s with ue := s.ue.macHandleGrant acid } := by
  cases h with
  | idle h => exact .idle { h with held := fun _ => h.grantArriving acid hf }
  | sent h => exact .sent { h with }
  | received h => exact .received { h with }
  | running h => exact .running { h with }

theorem Inv.insertPdu (hI : Inv P s) (hhop : s.binder.getNextHop P.ue = some e)
    (hf : .pdu e ∈ s.arriving) :
    Inv P (s.setEnb e ((s.enbs e).insertPdu P.processes P.ue)) := by
  refine { hI with
    sorted := sorted_setEnb hI.sorted (HarqEnb.sorted_insertPdu (hI.sorted e))
    rx := fun d hd n hn => ?_
    phase := fun hcell => ?_
    inTime := ⟨hI.inTime.air, hI.inTime.arriving, hI.inTime.held⟩ }
  · by_cases hde : d = e
    · rwa [hde]
    · rw [view_setEnb_of_ne hde] at hn
      exact hI.rx d hd n hn
  · obtain rfl : s.ue.cellId = e := Option.some.inj (hcell.symm.trans hhop)
    exact (hI.phase hcell).insertPdu hf

theorem Inv.signalRac (hI : Inv P s) (hhop : s.binder.getNextHop P.ue = some e)
    (hf : .rac e ∈ s.arriving) :
    Inv P { s.setEnb e ((s.enbs e).signalRac P.ue) with air := s.air ++ [.racResponse e] } := by
  refine { hI with
    sorted := sorted_setEnb hI.sorted (hI.sorted e)
    rx := fun d hd n hn => ?_
    phase := fun hcell => ?_
    inTime := ⟨fun d acid hacid => ?_, hI.inTime.arriving, hI.inTime.held⟩ }
  · refine hI.rx d hd n (Eq.trans ?_ hn)
    by_cases hde : d = e
    · rw [hde]
      exact (congrArg UeAtEnb.rx (view_setEnb_self.trans HarqEnb.view_signalRac_self)).symm
    · exact congrArg UeAtEnb.rx (view_setEnb_of_ne hde).symm
  · obtain rfl : s.ue.cellId = e := Option.some.inj (hcell.symm.trans hhop)
    exact (hI.phase hcell).signalRac hf
  · exact hI.inTime.air d acid ((List.mem_append.1 hacid).resolve_right (by simp))

/-- A frame arrives. -/
theorem Inv.arrive (hI : Inv P s) (hf : f ∈ s.arriving) : Inv P (s.arrive P f) := by
  cases f with
  | pdu e =>
    simp only [HarqSync.arrive]
    split
    · rename_i hhop
      exact hI.insertPdu hhop hf
    · exact hI
  | rac e =>
    simp only [HarqSync.arrive]
    split
    · rename_i hhop
      exact hI.signalRac hhop hf
    · exact hI
  | racResponse e =>
    simp only [HarqSync.arrive]
    split
    · exact { hI with
        phase := fun hhop => (hI.phase hhop).macHandleRac
        inTime := ⟨hI.inTime.air, hI.inTime.arriving, hI.inTime.held⟩ }
    · exact hI
  | grant e acid =>
    simp only [HarqSync.arrive]
    split
    · rename_i hcell
      subst hcell
      exact { hI with
        phase := fun hhop => (hI.phase hhop).macHandleGrant hf
        inTime := ⟨hI.inTime.air, hI.inTime.arriving, fun p hp => by
          obtain rfl : acid = some p := Option.some.inj hp
          exact hI.inTime.arriving _ p hf⟩ }
    · exact hI

@[simp] theorem binder_arrive : (s.arrive P f).binder = s.binder := by
  cases f <;> simp only [HarqSync.arrive] <;> split <;> rfl

@[simp] theorem cellId_arrive : (s.arrive P f).ue.cellId = s.ue.cellId := by
  cases f <;> simp only [HarqSync.arrive] <;> split <;> rfl

/-- A frame that has arrived is not on its way any more. -/
theorem Inv.arrival (hI : Inv P s) (hf : f ∈ s.arriving) : Inv P ((s.drop f).arrive P f) := by
  have hdrop : (s.drop f).arrive P f = (s.arrive P f).drop f := by
    cases f <;> simp only [HarqSync.arrive, HarqSync.drop] <;> split <;> rename_i h <;>
      simp only [h, if_true, if_false] <;> rfl
  rw [hdrop]
  refine (hI.arrive hf).drop ?_ ?_
  · rw [binder_arrive, cellId_arrive]
    rintro hhop rfl
    simp only [HarqSync.arrive, if_pos hhop]
    rw [view_setEnb_self, HarqEnb.view_insertPdu_self]
    exact Option.some_ne_none _
  · rw [cellId_arrive]
    rintro rfl
    simp only [HarqSync.arrive, if_true]
    rfl

end Arrival

/-! ### The other events -/

section Others

variable {e t : MacNodeId} {enb : HarqEnb} {n : ℕ}

/-- What an eNB does for another UE. -/
theorem Inv.setEnb (hI : Inv P s) (hview : enb.view P.ue = s.view P e)
    (hs : enb.harqRxBuffers.Sorted) : Inv P (s.setEnb e enb) := by
  have hall : (s.setEnb e enb).view P = s.view P := by
    funext d
    by_cases hd : d = e
    · rw [hd, view_setEnb_self, hview]
    · exact view_setEnb_of_ne hd
  have hrx := congrArg UeAtEnb.rx (congrFun hall s.ue.cellId)
  have hstatus := congrArg UeAtEnb.status (congrFun hall s.ue.cellId)
  refine { hI with
    sorted := sorted_setEnb hI.sorted hs
    rx := by rw [hall]; exact hI.rx
    phase := fun hhop => ?_
    inTime := ⟨hI.inTime.air, hI.inTime.arriving, hI.inTime.held⟩ }
  cases hI.phase hhop with
  | idle h =>
    exact .idle { h with
      rx := hrx.trans h.rx
      status := hstatus.trans h.status
      bsr := by rw [hall]; exact h.bsr
      racStatus := by rw [hall]; exact h.racStatus }
  | sent h => exact .sent { h with rx := hrx.trans h.rx, status := hstatus.trans h.status }
  | received h =>
    exact .received { h with
      rx := h.rx.imp (fun hpdu => ⟨hpdu.1, hrx.trans hpdu.2⟩) hrx.trans
      status := hstatus.trans h.status }
  | running h =>
    obtain ⟨acid, hacid, hcur⟩ := h.currentHarq
    exact .running ⟨h.firstTx, hrx.trans h.rx, acid, hstatus.trans hacid, hcur⟩

/-- New data comes from RLC. -/
theorem Inv.newData (hI : Inv P s) (hle : s.ue.macBuffers ≤ n) :
    Inv P { s with ue := { s.ue with macBuffers := n } } := by
  refine { hI with
    phase := fun hhop => ?_
    inTime := ⟨hI.inTime.air, hI.inTime.arriving, hI.inTime.held⟩ }
  cases hI.phase hhop with
  | idle h =>
    exact .idle { h with
      rac := fun d hd => (h.rac d hd).trans_le hle
      racStatus := fun hrac => (h.racStatus hrac).imp_left fun hpos => hpos.trans_le hle
      grantAir := fun acid hacid => (h.grantAir acid hacid).imp_left fun hpos => hpos.trans_le hle
      grantArriving := fun acid hacid =>
        (h.grantArriving acid hacid).imp_left fun hpos => hpos.trans_le hle
      held := fun hheld => (h.held hheld).imp_left fun hpos => hpos.trans_le hle }
  | sent h => exact .sent { h with }
  | received h => exact .received { h with }
  | running h => exact .running { h with }

/-- A handover leaves the UE without a next hop, and the old eNB without its H-ARQ buffer. -/
theorem Inv.handover (hI : Inv P s) (ht : t ∈ P.cells) : Inv P (s.handover P t) := by
  have hhop : (s.handover P t).binder.getNextHop P.ue = some 0 := by
    rcases hI.nextHop with h | h <;> exact LteBinder.getNextHop_unregisterNextHop_of_some h
  refine ⟨ht, hI.currentHarq, ?_, .inr hhop, ?_, ?_, ?_⟩
  · exact sorted_setEnb hI.sorted ((hI.sorted _).erase _)
  · intro e he n hn
    exfalso
    have hview : (s.handover P t).view P e = (s.setEnb s.ue.cellId
      ((s.enbs s.ue.cellId).deleteQueues P.ue)).view P e := rfl
    rw [hview] at hn
    by_cases hcell : e = s.ue.cellId
    · subst hcell
      rw [view_setEnb_self] at hn
      simp [HarqEnb.view, HarqEnb.deleteQueues, OrderedMap.find_erase] at hn
    · rw [view_setEnb_of_ne hcell] at hn
      exact hcell (hI.eq_cellId he (hI.rx e he n hn))
  · intro hcell
    exact absurd (Option.some.inj (hcell.symm.trans hhop)) (ne_zero_of_mem ht)
  · exact ⟨hI.inTime.air, hI.inTime.arriving, hI.inTime.held⟩

end Others

/-- **Every event keeps the invariant.** -/
theorem Inv.handle {event : Event} {s' : HarqSync} (hI : Inv P s)
    (h : s.handle P event = some s') : Inv P s' := by
  cases event <;> simp only [HarqSync.handle, Option.ite_none_right_eq_some] at h <;>
    obtain ⟨hguard, heq⟩ := h <;> obtain rfl := Option.some.inj heq
  case tti i j => exact hI.tti hguard.1 hguard.2.1
  case arrival f => exact hI.arrival hguard
  case newData n => exact hI.newData hguard
  case handover t => exact hI.handover hguard.1
  case otherPdu e v =>
    exact hI.setEnb (HarqEnb.view_insertPdu_of_ne hguard.symm)
      (HarqEnb.sorted_insertPdu (hI.sorted e))
  case otherRac e v =>
    exact hI.setEnb (HarqEnb.view_signalRac_of_ne hguard.symm) (hI.sorted e)
  case otherLeaves e v =>
    exact hI.setEnb (HarqEnb.view_deleteQueues_of_ne hguard.symm) ((hI.sorted e).erase v)

/-- **The UE and its eNB stay on the same H-ARQ process**, in every run: where the serving eNB has a
buffer and a status, the UE is one process ahead, and a grant for a retransmission is used in the
TTI of the process that it was made for. -/
theorem in_step (P : HarqNet) (b : LteBinder) {es : List Event} {os : List Empty}
    (hrun : (machine P).exec (initial P b) es = some (s, os)) :
    (∀ processes acid, (s.enbs s.ue.cellId).harqRxBuffers.find P.ue = some processes →
      (s.enbs s.ue.cellId).harqStatus.find P.ue = some acid →
        ((s.ue.currentHarq : ℤ) - acid) % P.processes = 1) ∧
      ∀ acid, s.ue.schedulingGrant = some (some acid) →
        s.ue.firstTx = true ∧ s.ue.currentHarq = acid := by
  have hI : Inv P s := Machine.exec_invariant (inv_initial b) (fun t event t' o ht hst => by
    obtain ⟨t'', hhandle, heq⟩ := Option.map_eq_some_iff.1 hst
    obtain ⟨rfl, -⟩ := Prod.mk.inj heq
    exact ht.handle hhandle) hrun
  refine ⟨fun processes acid hrx hstatus => ?_, fun acid hheld => ?_⟩
  · obtain ⟨-, hcur, -⟩ := (hI.phase (hI.rx _ hI.cell processes hrx)).ahead hstatus
    have htwo : (2 : ℤ) ≤ P.processes := by exact_mod_cast P.two_le
    rw [hcur, Int.natCast_emod, Int.emod_sub_emod]
    push_cast
    rw [add_sub_cancel_left]
    exact Int.emod_eq_of_lt (by decide) (by omega)
  · obtain ⟨hfirst, hacid⟩ := hI.inTime.held acid hheld
    exact ⟨hfirst, hacid.symm⟩

/-- Two eNBs and the UE `1025`. -/
def twoEnbs : HarqNet where
  processes := 8
  two_le := by decide
  le_256 := by decide
  ue := 1025
  cells := [1, 2]
  type_of_mem e he := by
    rcases List.mem_pair.1 he with rfl | rfl <;> decide
  home := 1
  home_mem := by decide

/-- A TTI in which the grants for RAC requests and retransmissions are made. -/
def busyTti : Event :=
  .tti { retx := false, sdus := [1], left := 1, emptyUnit := true } fun _ =>
    { bsr := fun _ => false, racBlock := fun _ => true, full := false, rtx := fun _ _ => true,
      data := fun _ => false }

/-- A RAC request, its response, the grant, the PDU, another RAC request, and a grant for the
process `2`. -/
def firstRetransmission : List Event :=
  [.newData 1, busyTti, busyTti, .arrival (.rac 1), busyTti, .arrival (.racResponse 1), busyTti,
    .arrival (.grant 1 none), busyTti, busyTti, .arrival (.pdu 1), busyTti, .arrival (.rac 1),
    busyTti, .arrival (.grant 1 (some 2))]

theorem in_step_firstRetransmission :
    ∃ s, (machine twoEnbs).exec (initial twoEnbs {}) firstRetransmission = some (s, []) ∧
      (s.enbs 1).harqRxBuffers.find 1025 = some 8 ∧ (s.enbs 1).harqStatus.find 1025 = some 1 ∧
      s.ue.schedulingGrant = some (some 2) ∧ ((s.ue.currentHarq : ℤ) - 1) % 8 = 1 ∧
      s.ue.currentHarq = 2 := by
  have hrun : ((machine twoEnbs).exec (initial twoEnbs {}) firstRetransmission).map (fun r =>
      ((r.1.enbs 1).harqRxBuffers.find 1025, (r.1.enbs 1).harqStatus.find 1025,
        r.1.ue.cellId, r.1.ue.schedulingGrant)) = some (some 8, some 1, 1, some (some 2)) := by
    decide +kernel
  obtain ⟨⟨s, os⟩, hex, heq⟩ := Option.map_eq_some_iff.1 hrun
  simp only [Prod.mk.injEq] at heq
  obtain ⟨hrx, hstatus, hcell, hheld⟩ := heq
  obtain ⟨hahead, hused⟩ := in_step twoEnbs {} hex
  rw [hcell] at hahead
  have hos : os = [] := List.eq_nil_iff_forall_not_mem.2 fun o => o.elim
  exact ⟨s, hos ▸ hex, hrx, hstatus, hheld, hahead 8 1 hrx hstatus, (hused 2 hheld).2⟩

end HarqSync

end V2nLte
