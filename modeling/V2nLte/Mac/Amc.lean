import V2nLte.Lte.Network
import V2nLte.Machine.Collections
import V2nLte.Machine.Ensures

/-!
# The tables of the AMC

For each direction `LteAmc` numbers the UEs it has seen (`nodeIndex`, `revNodeIndex`) and keeps
vectors that are indexed by these numbers: the transmission parameters chosen for this TTI and,
for each antenna, the feedback history, a row of buffers with one entry for each transmission
mode.  A UE that leaves keeps its number; its rows are cleared, and filled again if it comes back.

`LteAmc` also asks the binder for the next hop of a UE and for its module; the binder changes
between two calls in any way it likes.  The pilot is `AmcPilotAuto`.  The times and the confidence
of a summary are left out.

## Main results

* `LteAmc.tables_kept` : the tables fit together and no call is out of range, in every run where
  no call is made for a UE that is known but not attached.
* `LteAmc.late_feedback_throws` : feedback that arrives after its UE was detached.
* `LteAmc.answers_ofPilot` : the modes that it answers with are those that
  `V2nLte.Mac.DlRequests` takes for granted (`UserTxParams.OfPilot`).
-/

namespace V2nLte

/-! ### Feedback -/

/-- The transmission modes. -/
inductive TxMode where
  | SINGLE_ANTENNA_PORT0
  | SINGLE_ANTENNA_PORT5
  | TRANSMIT_DIVERSITY
  | OL_SPATIAL_MULTIPLEXING
  | CL_SPATIAL_MULTIPLEXING
  | MULTI_USER
  | UNKNOWN_TX_MODE
  deriving DecidableEq

/-- The number of the mode. -/
def TxMode.toNat : TxMode → ℕ
  | .SINGLE_ANTENNA_PORT0 => 0
  | .SINGLE_ANTENNA_PORT5 => 1
  | .TRANSMIT_DIVERSITY => 2
  | .OL_SPATIAL_MULTIPLEXING => 3
  | .CL_SPATIAL_MULTIPLEXING => 4
  | .MULTI_USER => 5
  | .UNKNOWN_TX_MODE => 6

/-- `DL_NUM_TXMODE` and `UL_NUM_TXMODE`. -/
def NUM_TXMODE : ℕ := TxMode.toNat .MULTI_USER + 1

theorem TxMode.toNat_lt {m : TxMode} (h : m ≠ .UNKNOWN_TX_MODE) : m.toNat < NUM_TXMODE := by
  cases m <;> first | decide | exact absurd rfl h

/-- How the CQI is chosen among those of the bands. -/
inductive PilotComputationModes where
  | MIN_CQI
  | MAX_CQI
  | AVG_CQI
  deriving DecidableEq

/-- Feedback about `B` bands.  What is not reported is `none`. -/
structure LteFeedback (B : ℕ) where
  /-- The rank indicator. -/
  rank : Option ℕ := none
  /-- One for each codeword. -/
  wideBandCqi : Option (List ℕ) := none
  /-- For each codeword, one for each band. -/
  perBandCqi : Option (List (Fin B → ℕ)) := none
  /-- On the preferred bands, one for each codeword. -/
  preferredCqi : Option (List ℕ) := none
  /-- The precoding matrix for all the bands. -/
  wideBandPmi : Option ℕ := none
  /-- The precoding matrix for each band. -/
  perBandPmi : Option (Fin B → ℕ) := none
  /-- The precoding matrix for the preferred bands. -/
  preferredPmi : Option ℕ := none
  /-- The preferred bands. -/
  preferredBands : List (Fin B) := []
  /-- The transmission mode that it is about. -/
  txMode : TxMode
  /-- The antenna that it is about. -/
  antennaId : ℕ
  /-- There are at most two codewords. -/
  codewords : (∀ l ∈ wideBandCqi, l.length ≤ 2) ∧ (∀ l ∈ perBandCqi, l.length ≤ 2) ∧
    ∀ l ∈ preferredCqi, l.length ≤ 2

/-- What is known about the channel. -/
structure LteSummaryFeedback (B : ℕ) where
  /-- The rank. -/
  ri : ℕ := 1
  /-- The quality, by codeword and band. -/
  cqi : Fin 2 → Fin B → ℕ := fun _ _ => 0
  /-- The precoding matrix of each band. -/
  pmi : Fin B → ℕ := fun _ => 0

/-- A buffer of feedback with its summary. -/
structure LteSummaryBuffer (B : ℕ) where
  /-- How many reports are kept. -/
  bufferSize : ℕ
  /-- The reports, the oldest first. -/
  buffer : List (LteFeedback B) := []
  /-- What they come to. -/
  cumulativeSummary : LteSummaryFeedback B := {}

variable {B : ℕ}

/-- The CQIs after a feedback. -/
def summaryCqi (cqi : Fin 2 → Fin B → ℕ) (fb : LteFeedback B) : Fin 2 → Fin B → ℕ := fun cw b =>
  match fb.perBandCqi with
  | some bandCqi => (bandCqi[(cw : ℕ)]?).elim (cqi cw b) (· b)
  | none =>
    let wb := (fb.wideBandCqi.bind (·[(cw : ℕ)]?)).getD (cqi cw b)
    if b ∈ fb.preferredBands then (fb.preferredCqi.bind (·[(cw : ℕ)]?)).getD wb else wb

/-- The PMIs after a feedback. -/
def summaryPmi (pmi : Fin B → ℕ) (fb : LteFeedback B) : Fin B → ℕ := fun b =>
  match fb.perBandPmi with
  | some bandPmi => bandPmi b
  | none =>
    let wb := fb.wideBandPmi.getD (pmi b)
    if b ∈ fb.preferredBands then fb.preferredPmi.getD wb else wb

/-- `LteSummaryBuffer::put`, with `createSummary`. -/
def LteSummaryBuffer.put (s : LteSummaryBuffer B) (fb : LteFeedback B) : LteSummaryBuffer B :=
  let buffer := if 0 < s.bufferSize then s.buffer ++ [fb] else s.buffer
  { s with
    buffer := if s.bufferSize < buffer.length then buffer.tail else buffer
    cumulativeSummary :=
      { ri := fb.rank.getD s.cumulativeSummary.ri
        cqi := summaryCqi s.cumulativeSummary.cqi fb
        pmi := summaryPmi s.cumulativeSummary.pmi fb } }

/-- The transmission parameters of a UE; the defaults are those of `restoreDefaultValues`. -/
structure UserTxParams (B : ℕ) where
  /-- The transmission mode. -/
  txMode : TxMode := .SINGLE_ANTENNA_PORT0
  /-- The rank. -/
  ri : ℕ := 1
  /-- The quality of each codeword. -/
  cqiVector : List ℕ := [0]
  /-- The precoding matrix. -/
  pmi : ℕ := 0
  /-- The bands that may be used. -/
  allowedBands : List (Fin B) := []
  /-- They have been computed in this TTI. -/
  isSet : Bool := false
  /-- The antennas that may be used. -/
  antennaSet : List ℕ := [MACRO]

/-- A mode that the pilot chooses, or that of the default parameters. -/
def UserTxParams.OfPilot {B : ℕ} (p : UserTxParams B) : Prop :=
  p.txMode = .SINGLE_ANTENNA_PORT0 ∨ p.txMode = .TRANSMIT_DIVERSITY

/-! ### The tables of one direction -/

/-- The parameters of an AMC. -/
structure AmcParams where
  /-- The id of the eNB. -/
  nodeId : MacNodeId
  /-- The number of bands. -/
  numBands : ℕ
  /-- There is a band. -/
  numBands_pos : 0 < numBands
  /-- The number of antennas, with `MACRO`. -/
  numAntennas : ℕ
  /-- There is an antenna. -/
  numAntennas_pos : 0 < numAntennas
  /-- The size of the feedback buffers. -/
  fbhbCapacity : Direction → ℕ
  /-- The bands that the pilot may use for a node. -/
  usableBands : MacNodeId → Option (List (Fin numBands))
  /-- How the pilot computes the parameters. -/
  mode : PilotComputationModes

/-- The exceptions of the AMC. -/
inductive AmcError where
  /-- `std::out_of_range`. -/
  | outOfRange
  /-- `LteBinder::getNextHop`: "bad slave id". -/
  | badSlaveId
  deriving DecidableEq

variable (P : AmcParams)

/-- A row of buffers for each UE, for each antenna. -/
abbrev History := ℕ → Option (List (List (LteSummaryBuffer P.numBands)))

/-- The tables of one direction. -/
structure AmcTables where
  /-- The UEs and their indices. -/
  users : AmcUsers
  /-- The parameters, by index. -/
  txParams : List (UserTxParams P.numBands)
  /-- The feedback, by antenna, mode and index. -/
  feedbackHistory : History P

/-- Assignment to `vector::at`. -/
def setAt {α : Type} (xs : List α) (i : ℕ) (a : α) : Except AmcError (List α) :=
  if i < xs.length then .ok (xs.set i a) else .error .outOfRange

/-- Replace the rows of every antenna of `remoteSet`. -/
def eachAntenna (f : Option (List (List (LteSummaryBuffer P.numBands))) →
    Except AmcError (List (List (LteSummaryBuffer P.numBands)))) (h : History P) :
    Except AmcError (History P) :=
  (List.range P.numAntennas).foldlM (fun h r => do
    let rows ← f (h r)
    .ok (Function.update h r (some rows))) h

/-- The row of a UE that has sent no feedback. -/
def emptyRow (dir : Direction) : List (LteSummaryBuffer P.numBands) :=
  List.replicate NUM_TXMODE { bufferSize := P.fbhbCapacity dir }

namespace AmcTables

variable {P}

/-- The tables at the start, for the UEs that the binder has deployed at the eNB. -/
def initial (P : AmcParams) (dir : Direction) (row : MacNodeId → Option Bool) : AmcTables P where
  users := AmcUsers.deployed row
  txParams := List.replicate (AmcUsers.deployed row).revNodeIndex.length {}
  -- an antenna gets its vector with the first UE
  feedbackHistory r :=
    if r < P.numAntennas ∧ (AmcUsers.deployed row).revNodeIndex ≠ [] then
      some (List.replicate (AmcUsers.deployed row).revNodeIndex.length (emptyRow P dir))
    else none

/-- `attachUser`. -/
def attachUser (a : AmcTables P) (dir : Direction) (n : MacNodeId) :
    Except AmcError (AmcTables P) :=
  match a.users.connectedUe n, a.users.nodeIndex n with
  | some _, some i => do
    -- the UE has been here before
    let txParams ← setAt a.txParams i {}
    let feedbackHistory ←
      eachAntenna P (fun rows => setAt (rows.getD []) i (emptyRow P dir)) a.feedbackHistory
    .ok { users := a.users.attachUser n, txParams, feedbackHistory }
  | some _, none => .error .outOfRange
  | none, _ => do
    let feedbackHistory ←
      eachAntenna P (fun rows => .ok (rows.getD [] ++ [emptyRow P dir])) a.feedbackHistory
    .ok { users := a.users.attachUser n, txParams := a.txParams ++ [{}], feedbackHistory }

/-- `detachUser`. -/
def detachUser (a : AmcTables P) (n : MacNodeId) : Except AmcError (AmcTables P) :=
  match a.users.nodeIndex n with
  | none => .ok a
  | some i => do
    let feedbackHistory ← eachAntenna P (fun rows =>
      match rows with
      | none => .error .outOfRange
      | some rows => setAt rows i []) a.feedbackHistory
    let txParams ← setAt a.txParams i {}
    .ok { users := a.users.detachUser n, txParams, feedbackHistory }

/-- `pushFeedback`. -/
def pushFeedback (a : AmcTables P) (id : MacNodeId) (fb : LteFeedback P.numBands) :
    Except AmcError (AmcTables P) :=
  match a.users.nodeIndex id with
  | none => .ok a
  | some i =>
    let rows := (a.feedbackHistory fb.antennaId).getD []
    match rows[i]? with
    | none => .error .outOfRange
    | some row =>
      match row[fb.txMode.toNat]? with
      | none => .error .outOfRange
      | some buffer =>
        let row := row.set fb.txMode.toNat (buffer.put fb)
        .ok { a with
          feedbackHistory :=
            Function.update a.feedbackHistory fb.antennaId (some (rows.set i row)) }

/-- The summary of the feedback of `id`, which is the next hop already. -/
def feedbackOf (a : AmcTables P) (id : MacNodeId) (antenna : ℕ) (txMode : TxMode) :
    Except AmcError (LteSummaryFeedback P.numBands) :=
  match a.users.nodeIndex id with
  | none => .ok {}
  | some i =>
    match ((a.feedbackHistory antenna).bind (·[i]?)).bind (·[txMode.toNat]?) with
    | none => .error .outOfRange
    | some buffer => .ok buffer.cumulativeSummary

/-- The transmission parameters of `id` if it has an index, which is the next hop already. -/
def paramsOf (a : AmcTables P) (id : MacNodeId) :
    Except AmcError (Option (UserTxParams P.numBands)) :=
  match a.users.nodeIndex id with
  | none => .ok none
  | some i =>
    match a.txParams[i]? with
    | none => .error .outOfRange
    | some info => .ok (some info)

/-- `setTxParams`, for the next hop. -/
def setTxParams (a : AmcTables P) (id : MacNodeId) (info : UserTxParams P.numBands) :
    Except AmcError (AmcTables P) :=
  match a.users.nodeIndex id with
  | none => .ok a
  | some i => do
    let txParams ← setAt a.txParams i info
    .ok { a with txParams }

/-- `cleanAmcStructures`. -/
def clean (a : AmcTables P) : AmcTables P := { a with txParams := a.txParams.map fun _ => {} }

end AmcTables

/-! ### The AMC -/

/-- The AMC of an eNB and what it reads of the rest of the simulation. -/
structure LteAmc where
  /-- The tables of the uplink. -/
  ul : AmcTables P
  /-- The tables of the downlink. -/
  dl : AmcTables P
  /-- The binder. -/
  binder : LteBinder
  /-- The modules that exist. -/
  modules : OmnetId → Bool

/-- What a call returns. -/
inductive AmcOutput where
  | feedback (summary : LteSummaryFeedback P.numBands)
  | txParams (info : UserTxParams P.numBands)

namespace LteAmc

variable {P}

/-- The tables of a direction. -/
def tables (s : LteAmc P) : Direction → AmcTables P
  | .UL => s.ul
  | .DL => s.dl

/-- Replace the tables of a direction. -/
def setTables (s : LteAmc P) (a : AmcTables P) : Direction → LteAmc P
  | .UL => { s with ul := a }
  | .DL => { s with dl := a }

/-- The AMC at the start. -/
def initial (P : AmcParams) (binder : LteBinder) (modules : OmnetId → Bool) : LteAmc P where
  ul := AmcTables.initial P .UL (binder.dMap P.nodeId)
  dl := AmcTables.initial P .DL (binder.dMap P.nodeId)
  binder := binder
  modules := modules

/-- `getNextHop`: a UE of this cell is its own next hop. -/
def getNextHop (s : LteAmc P) (dst : MacNodeId) : Except AmcError MacNodeId :=
  match s.binder.getNextHop dst with
  | none => .error .badSlaveId
  | some nh => .ok (if nh = P.nodeId then dst else nh)

/-- `getFeedback`. -/
def getFeedback (s : LteAmc P) (id : MacNodeId) (antenna : ℕ) (txMode : TxMode)
    (dir : Direction) : Except AmcError (LteSummaryFeedback P.numBands) := do
  let nh ← s.getNextHop id
  (s.tables dir).feedbackOf nh antenna txMode

/-- `AmcPilotAuto::getUsableBands`: the usable bands of the node or, for a UE, of its cell. -/
def getUsableBands (s : LteAmc P) (id : MacNodeId) :
    Except AmcError (Option (List (Fin P.numBands))) :=
  match P.usableBands id with
  | some bands => .ok (some bands)
  | none =>
    if getNodeTypeById id = .UE then
      match s.binder.getNextHop id with
      | none => .error .badSlaveId
      | some cellId => .ok (P.usableBands cellId)
    else .ok none

/-- The first of the bands whose CQI is the best one. -/
def chooseBand (better : ℕ → ℕ → Bool) (cqi : Fin P.numBands → ℕ) (first : Fin P.numBands)
    (bands : List (Fin P.numBands)) : Fin P.numBands :=
  bands.foldl (fun chosen b => if better (cqi b) (cqi chosen) then b else chosen) first

/-- The band that the pilot chooses among the usable ones, or among all. -/
def chosenBand (P : AmcParams) (cqi : Fin P.numBands → ℕ)
    (usableBands : Option (List (Fin P.numBands))) : Fin P.numBands :=
  let bands :=
    match usableBands with
    | some (b :: bs) => b :: bs
    | _ => List.finRange P.numBands
  let first := bands.headD ⟨0, P.numBands_pos⟩
  match P.mode with
  | .MAX_CQI => chooseBand (fun s chosen => decide (chosen < s)) cqi first bands
  | .MIN_CQI => chooseBand (fun s chosen => decide (s < chosen)) cqi first bands
  | .AVG_CQI => ⟨0, P.numBands_pos⟩

/-- `AmcPilotAuto::computeTxParams`. -/
def pilotComputeTxParams (s : LteAmc P) (id : MacNodeId) (dir : Direction) :
    Except AmcError (LteAmc P × UserTxParams P.numBands) := do
  let nh ← s.getNextHop id
  let known ← (s.tables dir).paramsOf nh
  match known.filter (·.isSet) with
  | some info => .ok (s, info)
  | none => do
    let sfb ← s.getFeedback id MACRO .TRANSMIT_DIVERSITY dir
    let usableB ← s.getUsableBands id
    let band := chosenBand P (sfb.cqi 0) usableB
    let info : UserTxParams P.numBands :=
      { txMode := .TRANSMIT_DIVERSITY, ri := sfb.ri, cqiVector := [sfb.cqi 0 band],
        pmi := sfb.pmi band, allowedBands := [band], isSet := true, antennaSet := [MACRO] }
    let a ← (s.tables dir).setTxParams nh info
    .ok (s.setTables a dir, info)

/-- The UE is registered and its module exists. -/
def alive (s : LteAmc P) (id : MacNodeId) : Bool :=
  s.binder.getOmnetId id ≠ 0 && s.modules (s.binder.getOmnetId id)

/-- `computeTxParams`. -/
def computeTxParams (s : LteAmc P) (id : MacNodeId) (dir : Direction) :
    Except AmcError (LteAmc P × UserTxParams P.numBands) :=
  if s.alive id then do
    let nh ← s.getNextHop id
    s.pilotComputeTxParams nh dir
  else .ok (s, {})

/-- What happens to the AMC. -/
inductive Event (P : AmcParams) where
  | attachUser (nodeId : MacNodeId) (dir : Direction)
  | detachUser (nodeId : MacNodeId) (dir : Direction)
  | pushFeedback (id : MacNodeId) (dir : Direction) (fb : LteFeedback P.numBands)
  | getFeedback (id : MacNodeId) (antenna : ℕ) (txMode : TxMode) (dir : Direction)
  | computeTxParams (id : MacNodeId) (dir : Direction)
  | cleanAmcStructures (dir : Direction)
  /-- The binder or the modules change. -/
  | environment (binder : LteBinder) (modules : OmnetId → Bool)

/-- The calls. -/
def handle (s : LteAmc P) : Event P → Except AmcError (LteAmc P × List (AmcOutput P))
  | .attachUser n dir => do
    let a ← (s.tables dir).attachUser dir n
    .ok (s.setTables a dir, [])
  | .detachUser n dir => do
    let a ← (s.tables dir).detachUser n
    .ok (s.setTables a dir, [])
  | .pushFeedback id dir fb => do
    let a ← (s.tables dir).pushFeedback id fb
    .ok (s.setTables a dir, [])
  | .getFeedback id antenna txMode dir => do
    let sfb ← s.getFeedback id antenna txMode dir
    .ok (s, [.feedback sfb])
  | .computeTxParams id dir => do
    let (s, info) ← s.computeTxParams id dir
    .ok (s, [.txParams info])
  | .cleanAmcStructures dir => .ok (s.setTables (s.tables dir).clean dir, [])
  | .environment binder modules => .ok ({ s with binder, modules }, [])

/-- The AMC as a machine; a run ends where a call throws. -/
def machine (P : AmcParams) : Machine (LteAmc P) (Event P) (AmcOutput P) where
  step s e := (s.handle e).toOption

end LteAmc

/-! ### Tables that fit together -/

namespace AmcTables

variable {P} {a a' : AmcTables P} {n k id : MacNodeId} {dir : Direction} {i : ℕ}

/-- The numbers of the UEs and the vectors indexed by them fit together. -/
structure Consistent (a : AmcTables P) : Prop where
  /-- The index map and the reverse index are inverse to each other. -/
  nodeIndex : ∀ n i, a.users.nodeIndex n = some i ↔ a.users.revNodeIndex[i]? = some n
  /-- There are transmission parameters for every index. -/
  txParams : a.txParams.length = a.users.revNodeIndex.length
  /-- And there is a row of feedback for every index, on every antenna. -/
  feedbackHistory : ∀ r < P.numAntennas,
    ((a.feedbackHistory r).getD []).length = a.users.revNodeIndex.length
  /-- The row of an attached UE has an entry for each transmission mode. -/
  row : ∀ r < P.numAntennas, ∀ n i, a.users.attached n → a.users.nodeIndex n = some i →
    ∃ row, ((a.feedbackHistory r).getD [])[i]? = some row ∧ row.length = NUM_TXMODE

/-- A UE that has an index is attached, and the antenna and the mode exist. -/
def Answerable (a : AmcTables P) (id : MacNodeId) (antenna : ℕ) (txMode : TxMode) : Prop :=
  (a.users.nodeIndex id).isSome = true →
    a.users.attached id ∧ antenna < P.numAntennas ∧ txMode ≠ .UNKNOWN_TX_MODE

instance (a : AmcTables P) (id : MacNodeId) (antenna : ℕ) (txMode : TxMode) :
    Decidable (a.Answerable id antenna txMode) :=
  inferInstanceAs (Decidable (_ → a.users.connectedUe id = some true ∧ _ ∧ _))

end AmcTables

/-! ### What a call does to the numbers -/

namespace AmcUsers

variable {a : AmcUsers} {n : MacNodeId}

theorem attachUser_known (h : (a.connectedUe n).isSome = true) :
    (a.attachUser n).nodeIndex = a.nodeIndex ∧
      (a.attachUser n).revNodeIndex = a.revNodeIndex := by
  unfold attachUser
  rw [dif_pos h]
  exact ⟨rfl, rfl⟩

theorem attachUser_new (h : a.connectedUe n = none) :
    (a.attachUser n).nodeIndex = Function.update a.nodeIndex n (some a.revNodeIndex.length) ∧
      (a.attachUser n).revNodeIndex = a.revNodeIndex ++ [n] := by
  unfold attachUser
  rw [dif_neg (by simp [h])]
  exact ⟨rfl, rfl⟩

@[simp] theorem detachUser_nodeIndex : (a.detachUser n).nodeIndex = a.nodeIndex := by
  unfold detachUser
  split <;> rfl

@[simp] theorem detachUser_revNodeIndex : (a.detachUser n).revNodeIndex = a.revNodeIndex := by
  unfold detachUser
  split <;> rfl

end AmcUsers

theorem setAt_ok {α : Type} {xs : List α} {i : ℕ} {a : α} (h : i < xs.length) :
    setAt xs i a = .ok (xs.set i a) := if_pos h

section EachAntenna

variable {P} {f : Option (List (List (LteSummaryBuffer P.numBands))) →
  Except AmcError (List (List (LteSummaryBuffer P.numBands)))} {h : History P}
  {g : ℕ → List (List (LteSummaryBuffer P.numBands))}

theorem foldlM_update_ok {rs : List ℕ} (hrs : rs.Nodup) (hf : ∀ r ∈ rs, f (h r) = .ok (g r)) :
    rs.foldlM (fun (h : History P) r => do
      let rows ← f (h r)
      (.ok (Function.update h r (some rows)) : Except AmcError (History P))) h =
      .ok fun r => if r ∈ rs then some (g r) else h r := by
  induction rs generalizing h with
  | nil => simp [pure, Except.pure]
  | cons r rs ih =>
    obtain ⟨hr, hrs⟩ := List.nodup_cons.1 hrs
    rw [List.foldlM_cons, hf r List.mem_cons_self]
    show rs.foldlM _ (Function.update h r (some (g r))) = _
    rw [ih hrs]
    · congr 1
      funext r'
      by_cases hr' : r' = r
      · subst hr'; simp [hr]
      · simp [hr']
    · intro r' hmem
      have hne : r' ≠ r := fun heq => hr (heq ▸ hmem)
      rw [Function.update_of_ne hne]
      exact hf r' (List.mem_cons_of_mem r hmem)

/-- **The loop over the antennas**, when it does not throw for any of them. -/
theorem eachAntenna_ok (hf : ∀ r < P.numAntennas, f (h r) = .ok (g r)) :
    eachAntenna P f h = .ok fun r => if r < P.numAntennas then some (g r) else h r := by
  unfold eachAntenna
  rw [foldlM_update_ok List.nodup_range fun r hr => hf r (List.mem_range.1 hr)]
  simp only [List.mem_range]

end EachAntenna

namespace AmcTables

variable {P} {a a' : AmcTables P} {n k id : MacNodeId} {dir : Direction} {i : ℕ}

theorem Consistent.lt_length (h : a.Consistent) (hi : a.users.nodeIndex n = some i) :
    i < a.users.revNodeIndex.length :=
  (List.getElem?_eq_some_iff.1 ((h.nodeIndex n i).1 hi)).1

/-- Two UEs have different indices. -/
theorem Consistent.index_inj (h : a.Consistent) (hn : a.users.nodeIndex n = some i)
    (hk : a.users.nodeIndex k = some i) : n = k := by
  have hn' := (h.nodeIndex n i).1 hn
  rw [(h.nodeIndex k i).1 hk] at hn'
  exact (Option.some.inj hn').symm

/-- The rows of an antenna that has a row for a UE. -/
theorem Consistent.rows (h : a.Consistent) {r : ℕ} (hr : r < P.numAntennas)
    (hi : a.users.nodeIndex n = some i) :
    ∃ rows, a.feedbackHistory r = some rows ∧ rows.length = a.users.revNodeIndex.length := by
  have hlen := h.feedbackHistory r hr
  have hlt := h.lt_length hi
  cases hrows : a.feedbackHistory r with
  | none => rw [hrows] at hlen; simp at hlen; simp [← hlen] at hlt
  | some rows => exact ⟨rows, rfl, by simpa [hrows] using hlen⟩

theorem initial_consistent (row : MacNodeId → Option Bool) :
    (AmcTables.initial P dir row).Consistent := by
  have hindex : ∀ n i, (AmcUsers.deployed row).nodeIndex n = some i ↔
      (AmcUsers.deployed row).revNodeIndex[i]? = some n := by
    intro n i
    unfold AmcUsers.deployed
    dsimp only
    rw [← mem_idxOf_iff ((List.nodup_finRange _).filter _), List.mem_filter]
    split
    · rename_i hn
      simp [hn]
    · rename_i hn
      simp [hn]
  have hrow : ∀ r < P.numAntennas, ((AmcTables.initial P dir row).feedbackHistory r).getD [] =
      List.replicate (AmcUsers.deployed row).revNodeIndex.length (emptyRow P dir) := by
    intro r hr
    dsimp only [AmcTables.initial]
    by_cases hnil : (AmcUsers.deployed row).revNodeIndex = []
    · rw [if_neg (fun h => h.2 hnil), hnil, List.length_nil, List.replicate_zero,
        Option.getD_none]
    · rw [if_pos ⟨hr, hnil⟩, Option.getD_some]
  refine ⟨hindex, ?_, fun r hr => ?_, fun r hr n i _ hi => ?_⟩
  · simp only [AmcTables.initial, List.length_replicate]
  · rw [hrow r hr, List.length_replicate]
    rfl
  · have hi' := (List.getElem?_eq_some_iff.1 ((hindex n i).1 hi)).1
    refine ⟨emptyRow P dir, ?_, List.length_replicate⟩
    rw [hrow r hr, List.getElem?_replicate, if_pos hi']

/-- A UE that comes back keeps its index and gets a fresh row. -/
theorem Consistent.attachUser_known (h : a.Consistent) {b : Bool}
    (hn : a.users.connectedUe n = some b) :
    ∃ a', a.attachUser dir n = .ok a' ∧ a'.Consistent := by
  have hknown : (a.users.connectedUe n).isSome = true := by simp [hn]
  obtain ⟨i, hi⟩ := Option.isSome_iff_exists.1 (a.users.known n ▸ hknown)
  obtain ⟨hindex, hrev⟩ := AmcUsers.attachUser_known hknown
  have hlt := h.lt_length hi
  have hrows : ∀ r < P.numAntennas,
      setAt ((a.feedbackHistory r).getD []) i (emptyRow P dir) =
        .ok (((a.feedbackHistory r).getD []).set i (emptyRow P dir)) := fun r hr =>
    setAt_ok (by rw [h.feedbackHistory r hr]; exact hlt)
  unfold attachUser
  rw [hn, hi]
  dsimp only
  rw [setAt_ok (by rw [h.txParams]; exact hlt), eachAntenna_ok hrows]
  refine ⟨_, rfl, ?_, ?_, ?_, ?_⟩
  · simpa only [hindex, hrev] using h.nodeIndex
  · simp [hrev, h.txParams]
  · intro r hr
    simp [hr, hrev, h.feedbackHistory r hr]
  · intro r hr k j hk hj
    simp only [if_pos hr, Option.getD_some, hindex] at hj ⊢
    by_cases hji : j = i
    · subst hji
      exact ⟨emptyRow P dir,
        List.getElem?_set_self (by rw [h.feedbackHistory r hr]; exact hlt), List.length_replicate⟩
    · -- another UE, which was attached before
      have hkn : k ≠ n := fun heq => hji (Option.some.inj ((heq ▸ hj).symm.trans hi))
      obtain ⟨row, hrow, hlen⟩ := h.row r hr k j
        ((AmcUsers.attached_attachUser.1 hk).resolve_left hkn) hj
      exact ⟨row, by rw [List.getElem?_set_ne (Ne.symm hji), hrow], hlen⟩

/-- A new UE gets the next index. -/
theorem Consistent.attachUser_new (h : a.Consistent) (hn : a.users.connectedUe n = none) :
    ∃ a', a.attachUser dir n = .ok a' ∧ a'.Consistent := by
  have hnone : a.users.nodeIndex n = none := by
    have := a.users.known n
    rw [hn] at this
    simpa using this.symm
  obtain ⟨hindex, hrev⟩ := AmcUsers.attachUser_new hn
  have hrows : ∀ r < P.numAntennas,
      (Except.ok ((a.feedbackHistory r).getD [] ++ [emptyRow P dir]) : Except AmcError _) =
        .ok ((a.feedbackHistory r).getD [] ++ [emptyRow P dir]) := fun _ _ => rfl
  unfold attachUser
  rw [hn]
  dsimp only
  rw [eachAntenna_ok hrows]
  -- the new UE has the index that comes next
  refine ⟨_, rfl, ?_, ?_, ?_, ?_⟩
  · intro k j
    dsimp only
    rw [hindex, hrev, getElem?_concat_eq_some]
    by_cases hk : k = n
    · subst hk
      have hold : a.users.revNodeIndex[j]? ≠ some k := fun hj => by
        have := (h.nodeIndex k j).2 hj
        rw [hnone] at this
        cases this
      simp [hold, eq_comm]
    · have hnk : ¬n = k := fun heq => hk heq.symm
      rw [Function.update_of_ne hk, h.nodeIndex k j]
      simp [hnk]
  · simp [hrev, h.txParams]
  · intro r hr
    simp [hr, hrev, h.feedbackHistory r hr]
  · -- it starts with an empty row of reports, the others keep theirs
    intro r hr k j hk hj
    simp only [if_pos hr, Option.getD_some, hindex] at hj ⊢
    simp only [getElem?_concat_eq_some, h.feedbackHistory r hr]
    by_cases hkn : k = n
    · subst hkn
      rw [Function.update_self] at hj
      exact ⟨emptyRow P dir, Or.inr ⟨(Option.some.inj hj).symm, rfl⟩, List.length_replicate⟩
    · rw [Function.update_of_ne hkn] at hj
      obtain ⟨row, hrow, hlen⟩ := h.row r hr k j
        ((AmcUsers.attached_attachUser.1 hk).resolve_left hkn) hj
      exact ⟨row, Or.inl hrow, hlen⟩

theorem Consistent.attachUser_ok (h : a.Consistent) (dir : Direction) (n : MacNodeId) :
    ∃ a', a.attachUser dir n = .ok a' ∧ a'.Consistent := by
  cases hn : a.users.connectedUe n with
  | none => exact h.attachUser_new hn
  | some b => exact h.attachUser_known hn

theorem Consistent.detachUser_ok (h : a.Consistent) (n : MacNodeId) :
    ∃ a', a.detachUser n = .ok a' ∧ a'.Consistent := by
  unfold detachUser
  cases hi : a.users.nodeIndex n with
  | none => exact ⟨a, rfl, h⟩
  | some i =>
    have hlt := h.lt_length hi
    have hrows : ∀ r < P.numAntennas,
        (match a.feedbackHistory r with
          | none => .error .outOfRange
          | some rows => setAt rows i [] : Except AmcError _) =
          .ok (((a.feedbackHistory r).getD []).set i []) := by
      intro r hr
      obtain ⟨rows, hrows, hlen⟩ := h.rows hr hi
      rw [hrows]
      exact setAt_ok (by rw [hlen]; exact hlt)
    dsimp only
    rw [eachAntenna_ok hrows, setAt_ok (by rw [h.txParams]; exact hlt)]
    refine ⟨_, rfl, ?_, ?_, ?_, ?_⟩
    · simpa using h.nodeIndex
    · simp [h.txParams]
    · intro r hr
      simp [hr, h.feedbackHistory r hr]
    · intro r hr k j hk hj
      obtain ⟨hkn, hatt⟩ := AmcUsers.attached_detachUser.1 hk
      simp only [if_pos hr, Option.getD_some, AmcUsers.detachUser_nodeIndex] at hj ⊢
      have hji : i ≠ j := fun heq => hkn (h.index_inj (heq ▸ hj) hi)
      obtain ⟨row, hrow, hlen⟩ := h.row r hr k j hatt hj
      exact ⟨row, by rw [List.getElem?_set_ne hji, hrow], hlen⟩

/-- A row of an attached UE has a buffer for every mode that is known. -/
theorem Consistent.buffer (h : a.Consistent) (hatt : a.users.attached id)
    (hi : a.users.nodeIndex id = some i) {r : ℕ} (hr : r < P.numAntennas) {m : TxMode}
    (hm : m ≠ .UNKNOWN_TX_MODE) :
    ∃ row buffer, ((a.feedbackHistory r).getD [])[i]? = some row ∧
      row[m.toNat]? = some buffer ∧ row.length = NUM_TXMODE := by
  obtain ⟨row, hrow, hlen⟩ := h.row r hr id i hatt hi
  have hlt : m.toNat < row.length := hlen ▸ TxMode.toNat_lt hm
  exact ⟨row, row[m.toNat], hrow, List.getElem?_eq_getElem hlt, hlen⟩

theorem Consistent.pushFeedback_ok (h : a.Consistent) {fb : LteFeedback P.numBands}
    (hid : a.Answerable id fb.antennaId fb.txMode) :
    ∃ a', a.pushFeedback id fb = .ok a' ∧ a'.Consistent := by
  unfold pushFeedback
  cases hi : a.users.nodeIndex id with
  | none => exact ⟨a, rfl, h⟩
  | some i =>
    obtain ⟨hatt, hr, hm⟩ := hid (by rw [hi]; rfl)
    obtain ⟨row, buffer, hrow, hbuffer, hlen⟩ := h.buffer hatt hi hr hm
    dsimp only
    rw [hrow]
    dsimp only
    rw [hbuffer]
    refine ⟨_, rfl, h.nodeIndex, h.txParams, ?_, ?_⟩
    · intro r hr'
      by_cases hrr : r = fb.antennaId
      · subst hrr
        simp [h.feedbackHistory _ hr']
      · simp [hrr, h.feedbackHistory r hr']
    · intro r hr' k j hk hj
      obtain ⟨old, hold, holdlen⟩ := h.row r hr' k j hk hj
      by_cases hrr : r = fb.antennaId
      · subst hrr
        simp only [Function.update_self, Option.getD_some]
        by_cases hji : i = j
        · subst hji
          have hlt : i < ((a.feedbackHistory fb.antennaId).getD []).length := by
            rw [h.feedbackHistory _ hr]; exact h.lt_length hi
          exact ⟨_, List.getElem?_set_self hlt, by simp [hlen]⟩
        · exact ⟨old, by rw [List.getElem?_set_ne hji, hold], holdlen⟩
      · exact ⟨old, by simp only [Function.update_of_ne hrr, hold], holdlen⟩

theorem Consistent.feedbackOf_ok (h : a.Consistent) {r : ℕ} {m : TxMode}
    (hid : a.Answerable id r m) :
    ∃ sfb, a.feedbackOf id r m = .ok sfb := by
  unfold feedbackOf
  cases hi : a.users.nodeIndex id with
  | none => exact ⟨_, rfl⟩
  | some i =>
    obtain ⟨hatt, hr, hm⟩ := hid (by rw [hi]; rfl)
    obtain ⟨row, buffer, hrow, hbuffer, -⟩ := h.buffer hatt hi hr hm
    obtain ⟨rows, hrows, -⟩ := h.rows hr hi
    rw [hrows, Option.getD_some] at hrow
    simp [hrows, hrow, hbuffer]

theorem Consistent.paramsOf_ok (h : a.Consistent) (id : MacNodeId) :
    ∃ info, a.paramsOf id = .ok info := by
  unfold paramsOf
  cases hi : a.users.nodeIndex id with
  | none => exact ⟨_, rfl⟩
  | some i =>
    have hlt : i < a.txParams.length := h.txParams ▸ h.lt_length hi
    simp [hlt]

theorem Consistent.setTxParams_ok (h : a.Consistent) (id : MacNodeId)
    (info : UserTxParams P.numBands) :
    ∃ a', a.setTxParams id info = .ok a' ∧ a'.Consistent := by
  unfold setTxParams
  cases hi : a.users.nodeIndex id with
  | none => exact ⟨a, rfl, h⟩
  | some i =>
    dsimp only
    rw [setAt_ok (by rw [h.txParams]; exact h.lt_length hi)]
    exact ⟨_, rfl, h.nodeIndex, by simp [h.txParams], h.feedbackHistory, h.row⟩

theorem Consistent.clean_consistent (h : a.Consistent) : a.clean.Consistent :=
  ⟨h.nodeIndex, by simp [clean, h.txParams], h.feedbackHistory, h.row⟩

end AmcTables

/-! ### Runs -/

namespace LteAmc

variable {P} {s : LteAmc P} {id : MacNodeId} {dir : Direction}

/-- No call is made for a UE that has an index but is not attached, and the antennas and the
transmission modes exist. -/
def Event.Ok (s : LteAmc P) : Event P → Prop
  | .pushFeedback id dir fb => (s.tables dir).Answerable id fb.antennaId fb.txMode
  | .getFeedback id antenna txMode dir =>
    match s.getNextHop id with
    | .ok nh => (s.tables dir).Answerable nh antenna txMode
    | .error _ => True
  | .computeTxParams id dir =>
    s.alive id = true →
      match s.getNextHop id >>= s.getNextHop with
      | .ok nh => (s.tables dir).Answerable nh MACRO .TRANSMIT_DIVERSITY
      | .error _ => True
  | _ => True

instance (s : LteAmc P) (e : Event P) : Decidable (e.Ok s) := by
  cases e <;> unfold Event.Ok
  all_goals (repeat' split) <;> infer_instance

/-- The tables of both directions fit together. -/
def Consistent (s : LteAmc P) : Prop := ∀ dir, (s.tables dir).Consistent

theorem Consistent.setTables (h : s.Consistent) {a : AmcTables P} (ha : a.Consistent) :
    (s.setTables a dir).Consistent := by
  intro dir'
  cases dir <;> cases dir'
  · exact ha
  · exact h .DL
  · exact h .UL
  · exact ha

/-- What the binder can throw. -/
theorem getNextHop_spec :
    Ensures (· = .badSlaveId) (fun nh => s.getNextHop id = .ok nh) (s.getNextHop id) := by
  unfold getNextHop
  split <;> rfl

theorem getUsableBands_spec : Ensures (· = .badSlaveId) (fun _ => True) (s.getUsableBands id) := by
  unfold getUsableBands
  split
  · trivial
  · split
    · split
      · rfl
      · trivial
    · trivial

theorem getFeedback_spec (h : s.Consistent) {antenna : ℕ} {txMode : TxMode}
    (hid : match s.getNextHop id with
      | .ok nh => (s.tables dir).Answerable nh antenna txMode
      | .error _ => True) :
    Ensures (· = .badSlaveId) (fun _ => True) (s.getFeedback id antenna txMode dir) := by
  refine Ensures.bind getNextHop_spec fun nh hnh => ?_
  rw [hnh] at hid
  obtain ⟨sfb, hsfb⟩ := (h dir).feedbackOf_ok hid
  rw [hsfb]
  trivial

theorem pilotComputeTxParams_spec (h : s.Consistent)
    (hid : match s.getNextHop id with
      | .ok nh => (s.tables dir).Answerable nh MACRO .TRANSMIT_DIVERSITY
      | .error _ => True) :
    Ensures (· = .badSlaveId) (fun r => r.1.Consistent) (s.pilotComputeTxParams id dir) := by
  refine Ensures.bind getNextHop_spec fun nh _ => ?_
  obtain ⟨known, hknown⟩ := (h dir).paramsOf_ok nh
  rw [hknown]
  show Ensures _ _ (match known.filter (·.isSet) with
    | some info => _
    | none => _)
  split
  · exact h
  · refine Ensures.bind (getFeedback_spec h hid) fun sfb _ => ?_
    refine Ensures.bind getUsableBands_spec fun usableB _ => ?_
    obtain ⟨a', ha', hcons⟩ := (h dir).setTxParams_ok nh _
    dsimp only
    rw [ha']
    exact h.setTables hcons

/-- **One call.**  It throws only what the binder throws, and the tables still fit together. -/
theorem handle_spec (h : s.Consistent) {e : Event P} (he : e.Ok s) :
    Ensures (· = .badSlaveId) (fun r => r.1.Consistent) (s.handle e) := by
  cases e with
  | attachUser n dir =>
    obtain ⟨a', ha', hcons⟩ := (h dir).attachUser_ok dir n
    simp only [handle, ha']
    exact h.setTables hcons
  | detachUser n dir =>
    obtain ⟨a', ha', hcons⟩ := (h dir).detachUser_ok n
    simp only [handle, ha']
    exact h.setTables hcons
  | pushFeedback id dir fb =>
    obtain ⟨a', ha', hcons⟩ := (h dir).pushFeedback_ok he
    simp only [handle, ha']
    exact h.setTables hcons
  | getFeedback id antenna txMode dir =>
    exact Ensures.bind (getFeedback_spec h he) fun sfb _ => h
  | computeTxParams id dir =>
    refine Ensures.bind (P := fun r => r.1.Consistent) ?_ fun r hr => hr
    unfold computeTxParams
    split
    · rename_i halive
      refine Ensures.bind getNextHop_spec fun nh hnh => pilotComputeTxParams_spec h ?_
      have hid := he halive
      rwa [hnh] at hid
    · exact h
  | cleanAmcStructures dir => exact h.setTables (h dir).clean_consistent
  | environment binder modules => exact fun dir => by cases dir; exacts [h .UL, h .DL]

/-- **The tables fit together after every run, and the next call is not out of range**, if no
call is made for a UE that has left. -/
theorem tables_kept {binder : LteBinder} {modules : OmnetId → Bool}
    {es : List (Event P)} {os : List (AmcOutput P)}
    (hrun : (machine P).exec (initial P binder modules) es = some (s, os))
    (hok : ∀ s e s' o, (machine P).Takes (initial P binder modules) es s e s' o → e.Ok s) :
    (∀ dir, (s.tables dir).Consistent) ∧
      ∀ e : Event P, e.Ok s → s.handle e ≠ .error .outOfRange := by
  have hcons : s.Consistent := by
    have hvisits : (machine P).Visits (initial P binder modules) es s :=
      ⟨es, [], os, (List.append_nil es).symm, hrun⟩
    refine hvisits.invariant (I := Consistent) ?_ fun s e s' o ht h => ?_
    · intro dir
      cases dir
      · exact AmcTables.initial_consistent _
      · exact AmcTables.initial_consistent _
    · have he := hok s e s' o ht
      obtain ⟨es₁, es₂, os₁, -, -, hstep⟩ := ht
      have hspec := handle_spec h he
      cases hhandle : s.handle e with
      | error err => simp [machine, hhandle, Except.toOption] at hstep
      | ok r =>
        rw [hhandle] at hspec
        have : r = (s', o) := by simpa [machine, hhandle, Except.toOption] using hstep
        rw [this] at hspec
        exact hspec
  refine ⟨hcons, fun e he herr => ?_⟩
  have hspec := handle_spec hcons he
  rw [herr] at hspec
  cases hspec

/-! ### The modes of the pilot -/

/-- The stored parameters have modes that the pilot chooses. -/
def StoresOfPilot (a : AmcTables P) : Prop := ∀ info ∈ a.txParams, info.OfPilot

theorem storesOfPilot_setAt {xs ys : List (UserTxParams P.numBands)} {i : ℕ}
    {info : UserTxParams P.numBands} (hxs : ∀ x ∈ xs, x.OfPilot) (hinfo : info.OfPilot)
    (h : setAt xs i info = .ok ys) : ∀ y ∈ ys, y.OfPilot := by
  intro y hy
  rw [setAt] at h
  split at h
  · cases h
    rcases List.mem_or_eq_of_mem_set hy with hmem | rfl
    · exact hxs y hmem
    · exact hinfo
  · cases h

theorem storesOfPilot_setTxParams {a a' : AmcTables P} {info : UserTxParams P.numBands}
    (h : StoresOfPilot a) (hinfo : info.OfPilot) (ha' : a.setTxParams id info = .ok a') :
    StoresOfPilot a' := by
  rw [AmcTables.setTxParams] at ha'
  split at ha'
  · cases ha'
    exact h
  · obtain ⟨ys, hys, ha'⟩ := bind_eq_ok.1 ha'
    cases ha'
    exact storesOfPilot_setAt h hinfo hys

theorem storesOfPilot_attachUser {a a' : AmcTables P} (h : StoresOfPilot a)
    (ha' : a.attachUser dir id = .ok a') : StoresOfPilot a' := by
  rw [AmcTables.attachUser] at ha'
  split at ha'
  · obtain ⟨ys, hys, ha'⟩ := bind_eq_ok.1 ha'
    obtain ⟨feedbackHistory, -, ha'⟩ := bind_eq_ok.1 ha'
    cases ha'
    exact storesOfPilot_setAt h (.inl rfl) hys
  · cases ha'
  · obtain ⟨feedbackHistory, -, ha'⟩ := bind_eq_ok.1 ha'
    cases ha'
    intro info hinfo
    rcases List.mem_append.1 hinfo with hmem | hmem
    · exact h info hmem
    · rw [List.mem_singleton.1 hmem]
      exact .inl rfl

theorem storesOfPilot_detachUser {a a' : AmcTables P} (h : StoresOfPilot a)
    (ha' : a.detachUser id = .ok a') : StoresOfPilot a' := by
  rw [AmcTables.detachUser] at ha'
  split at ha'
  · cases ha'
    exact h
  · obtain ⟨feedbackHistory, -, ha'⟩ := bind_eq_ok.1 ha'
    obtain ⟨ys, hys, ha'⟩ := bind_eq_ok.1 ha'
    cases ha'
    exact storesOfPilot_setAt h (.inl rfl) hys

theorem storesOfPilot_pushFeedback {a a' : AmcTables P} {fb : LteFeedback P.numBands}
    (h : StoresOfPilot a) (ha' : a.pushFeedback id fb = .ok a') : StoresOfPilot a' := by
  rw [AmcTables.pushFeedback] at ha'
  split at ha'
  · cases ha'
    exact h
  · dsimp only at ha'
    split at ha'
    · cases ha'
    · split at ha'
      · cases ha'
      · cases ha'
        exact h

theorem storesOfPilot_setTables (h : ∀ dir, StoresOfPilot (s.tables dir)) {a : AmcTables P}
    (ha : StoresOfPilot a) (d : Direction) : StoresOfPilot ((s.setTables a dir).tables d) := by
  cases dir <;> cases d
  · exact ha
  · exact h .DL
  · exact h .UL
  · exact ha

theorem storesOfPilot_initial (row : MacNodeId → Option Bool) :
    StoresOfPilot (AmcTables.initial P dir row) := by
  unfold StoresOfPilot AmcTables.initial
  intro info hinfo
  dsimp only at hinfo
  obtain ⟨-, hinfo⟩ := List.mem_replicate.1 hinfo
  rw [hinfo]
  exact .inl rfl

/-- The pilot returns the parameters that are stored or the ones it stores. -/
theorem pilotComputeTxParams_ofPilot {s' : LteAmc P} {info : UserTxParams P.numBands}
    (h : ∀ dir, StoresOfPilot (s.tables dir))
    (hs' : s.pilotComputeTxParams id dir = .ok (s', info)) :
    (∀ dir, StoresOfPilot (s'.tables dir)) ∧ info.OfPilot := by
  obtain ⟨nh, -, hs'⟩ := bind_eq_ok.1 hs'
  obtain ⟨known, hknown, hs'⟩ := bind_eq_ok.1 hs'
  split at hs' <;> rename_i hfilter
  · cases hs'
    obtain ⟨rfl, -⟩ := Option.filter_eq_some_iff.1 hfilter
    rw [AmcTables.paramsOf] at hknown
    refine ⟨h, ?_⟩
    split at hknown
    · cases hknown
    · split at hknown <;> rename_i hat
      · cases hknown
      · cases hknown
        exact h dir _ (List.mem_of_getElem? hat)
  · obtain ⟨sfb, -, hs'⟩ := bind_eq_ok.1 hs'
    obtain ⟨usableB, -, hs'⟩ := bind_eq_ok.1 hs'
    obtain ⟨a, ha, hs'⟩ := bind_eq_ok.1 hs'
    cases hs'
    exact ⟨storesOfPilot_setTables h (storesOfPilot_setTxParams (h dir) (.inr rfl) ha), .inr rfl⟩

theorem handle_ofPilot {e : Event P} {s' : LteAmc P} {o : List (AmcOutput P)}
    (h : ∀ dir, StoresOfPilot (s.tables dir)) (hs' : s.handle e = .ok (s', o)) :
    (∀ dir, StoresOfPilot (s'.tables dir)) ∧ ∀ info, .txParams info ∈ o → info.OfPilot := by
  cases e with
  | attachUser n dir =>
    obtain ⟨a, ha, hs'⟩ := bind_eq_ok.1 hs'
    cases hs'
    exact ⟨storesOfPilot_setTables h (storesOfPilot_attachUser (h dir) ha), nofun⟩
  | detachUser n dir =>
    obtain ⟨a, ha, hs'⟩ := bind_eq_ok.1 hs'
    cases hs'
    exact ⟨storesOfPilot_setTables h (storesOfPilot_detachUser (h dir) ha), nofun⟩
  | pushFeedback id dir fb =>
    obtain ⟨a, ha, hs'⟩ := bind_eq_ok.1 hs'
    cases hs'
    exact ⟨storesOfPilot_setTables h (storesOfPilot_pushFeedback (h dir) ha), nofun⟩
  | getFeedback id antenna txMode dir =>
    obtain ⟨sfb, -, hs'⟩ := bind_eq_ok.1 hs'
    cases hs'
    exact ⟨h, fun info hinfo => nomatch List.mem_singleton.1 hinfo⟩
  | computeTxParams id dir =>
    obtain ⟨⟨s₁, info⟩, hcompute, hs'⟩ := bind_eq_ok.1 hs'
    cases hs'
    -- an answer is the one that is stored, or has just been computed from the pilot
    have hkept : (∀ dir, StoresOfPilot (s'.tables dir)) ∧ info.OfPilot := by
      rw [LteAmc.computeTxParams] at hcompute
      split at hcompute
      · obtain ⟨nh, -, hcompute⟩ := bind_eq_ok.1 hcompute
        exact pilotComputeTxParams_ofPilot h hcompute
      · cases hcompute
        exact ⟨h, .inl rfl⟩
    refine ⟨hkept.1, fun info' hinfo => ?_⟩
    cases List.mem_singleton.1 hinfo
    exact hkept.2
  | cleanAmcStructures dir =>
    cases hs'
    refine ⟨storesOfPilot_setTables h fun info hinfo => ?_, nofun⟩
    obtain ⟨_, -, rfl⟩ := List.mem_map.1 hinfo
    exact .inl rfl
  | environment binder modules =>
    cases hs'
    exact ⟨fun dir => by cases dir; exacts [h .UL, h .DL], nofun⟩

/-- **The AMC answers with modes that the pilot chooses**, after every run: `MULTI_USER` is not one
of them, so that a scheduler never comes to its MU-MIMO branches. -/
theorem answers_ofPilot {binder : LteBinder} {modules : OmnetId → Bool}
    {es : List (Event P)} {os : List (AmcOutput P)}
    (hrun : (machine P).exec (initial P binder modules) es = some (s, os)) :
    ∀ info, .txParams info ∈ os → info.OfPilot := by
  refine (Machine.exec_induction (J := fun _ s os => (∀ dir, StoresOfPilot (s.tables dir)) ∧
    ∀ info, .txParams info ∈ os → info.OfPilot) ⟨fun dir => ?_, nofun⟩
    (fun es s os e s' o _ ih hst => ?_) hrun).2
  · cases dir
    · exact storesOfPilot_initial _
    · exact storesOfPilot_initial _
  · cases hhandle : s.handle e with
    | error err => simp [machine, hhandle, Except.toOption] at hst
    | ok r =>
      have hr : r = (s', o) := by simpa [machine, hhandle, Except.toOption] using hst
      rw [hr] at hhandle
      obtain ⟨hstores, hout⟩ := handle_ofPilot ih.1 hhandle
      refine ⟨hstores, fun info hinfo => ?_⟩
      rcases List.mem_append.1 hinfo with hmem | hmem
      · exact ih.2 info hmem
      · exact hout info hmem

/-- An eNB with one band, one antenna and no UE. -/
def emptyCell : AmcParams where
  nodeId := 1
  numBands := 1
  numBands_pos := by decide
  numAntennas := 1
  numAntennas_pos := by decide
  fbhbCapacity := fun _ => 5
  usableBands := fun _ => none
  mode := .MIN_CQI

/-- A wide-band CQI for transmit diversity. -/
def report : LteFeedback 1 where
  wideBandCqi := some [7]
  txMode := .TRANSMIT_DIVERSITY
  antennaId := MACRO
  codewords := by simp

/-- The eNB `1` and the UE `1025` in its cell. -/
def oneUe : LteBinder := (((({} : LteBinder).registerNode 1 .ENODEB 0).1).registerNode 2 .UE 1).1

/-- A UE enters the cell, reports its channel, leaves and comes back. -/
def visit : List (Event emptyCell) :=
  [.environment oneUe fun _ => true, .attachUser 1025 .UL, .pushFeedback 1025 .UL report,
    .computeTxParams 1025 .UL, .detachUser 1025 .UL, .attachUser 1025 .UL,
    .pushFeedback 1025 .UL report, .getFeedback 1025 MACRO .TRANSMIT_DIVERSITY .UL]

/-- Its AMC at the start. -/
def start : LteAmc emptyCell :=
  let users : AmcUsers := ⟨fun _ => none, fun _ => none, [], fun _ => rfl⟩
  let tables : AmcTables emptyCell := ⟨users, [], fun _ => none⟩
  ⟨tables, tables, {}, fun _ => false⟩

theorem initial_emptyCell : initial emptyCell {} (fun _ => false) = start := by
  have husers : AmcUsers.deployed (fun _ => none) =
      ⟨fun _ => none, fun _ => none, [], fun _ => rfl⟩ := by
    simp only [AmcUsers.deployed, Option.isSome_none, List.filter_false]
    rfl
  simp only [initial, AmcTables.initial, husers, ne_eq, not_true_eq_false, and_false, if_false,
    List.length_nil, List.replicate_zero]
  rfl

theorem visit_ok : (machine emptyCell).Meets (fun s e => e.Ok s) start visit := by
  decide +kernel

theorem tables_kept_visit :
    ∃ s os, (machine emptyCell).exec (initial emptyCell {} fun _ => false) visit =
        some (s, os) ∧ ∀ dir, (s.tables dir).Consistent := by
  have hsome : ((machine emptyCell).exec start visit).isSome := by decide +kernel
  obtain ⟨⟨s, os⟩, hrun⟩ := Option.isSome_iff_exists.1 hsome
  rw [← initial_emptyCell] at hrun
  refine ⟨s, os, hrun, (tables_kept hrun fun s e s' o ht => ?_).1⟩
  rw [initial_emptyCell] at ht
  exact visit_ok.takes ht

/-- Feedback that arrives after its UE was detached finds a row without entries. -/
theorem late_feedback_throws :
    ∃ s os, (machine emptyCell).exec (initial emptyCell {} fun _ => false)
        [.attachUser 1025 .UL, .detachUser 1025 .UL] = some (s, os) ∧
      (s.ul.users.nodeIndex 1025).isSome = true ∧
      s.handle (.pushFeedback 1025 .UL report) = .error .outOfRange := by
  rw [initial_emptyCell]
  exact ⟨_, _, rfl, rfl, rfl⟩

end LteAmc

end V2nLte
