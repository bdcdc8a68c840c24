import V2nLte.Mac.GrantRecords
import V2nLte.Mac.HarqBufferTx
import V2nLte.Machine.OrderedMap

/-!
# The downlink scheduler and the SDU requests

In every TTI `rtxschedule` gives the UEs whose PDUs have to be sent again their blocks, and then
connections get grants.  For every entry of the schedule list `macSduRequest` asks the RLC for all
the bytes that the UE has been allocated, less the MAC header.

A UE that has a codeword, be it for a retransmission or for one of its connections, gets no grant
any more.  So a UE has at most one entry, with the bytes of the one grant that made it.

* `Retransmitted` : what `rtxschedule` changes.
* `requests_fit` : what is asked for fits into what has been allocated.

The MU-MIMO branches never run: `AmcPilotAuto` does not choose the mode (`answers_ofPilot`).
-/

namespace V2nLte

open Finset

/-- `HarqTxBuffers`. -/
abbrev HarqTxBuffers := OrderedMap MacNodeId LteHarqBufferTx

/-- The exceptions of the downlink scheduler. -/
inductive DlError where
  | scheduler (e : SchedulerError)
  | harq (e : HarqError)
  /-- "erroneus codeword count". -/
  | codewordCount
  deriving DecidableEq

/-- The downlink scheduler: what `scheduleGrant` reads and the usable bands of the pilot. -/
structure DlEnv where
  /-- What `scheduleGrant` reads. -/
  env : SchedulerEnv
  /-- `getPilotUsableBands`. -/
  usableBands : MacNodeId → Option (List Band)

/-- The scheduler and the H-ARQ buffers of its MAC. -/
structure DlState where
  /-- The scheduler. -/
  sched : LteSchedulerEnb
  /-- The H-ARQ buffers of the UEs. -/
  harqTxBuffers : HarqTxBuffers

/-- `getBytes`. -/
def LteAllocationModule.getBytes (a : LteAllocationModule) (antenna : ℕ) (band : Band)
    (nodeId : MacNodeId) : ℕ :=
  (a.allocatedRbsPerBand (a.getOFDMPlane nodeId) antenna band).ueAllocatedBytesMap nodeId

namespace DlEnv

variable (D : DlEnv)

/-! ### Retransmissions -/

/-- `getBandLimit`. -/
def getBandLimit (ueId : MacNodeId) : Option (List BandLimit) :=
  (D.usableBands ueId).map fun usable => (List.range D.env.numBands).map fun i =>
    { band := i, limit := if i ∈ usable then -1 else -2 }

/-- The limits for a codeword; those of `getBandLimit` are for the first one only. -/
def limitsFor (bandLim : Option (List BandLimit)) (cw : ℕ) :
    Except SchedulerError (List BandLimit) :=
  match bandLim with
  | none => .ok (SchedulerEnv.unlimited (List.range D.env.numBands))
  | some [] => .ok []
  | some (l :: ls) => if cw = 0 then .ok (l :: ls) else .error .outOfRange

/-- The bytes that a retransmission can have of a band. -/
def rtxAvailable (a : LteAllocationModule) (nodeId : MacNodeId) (antenna : ℕ) (limitBl : Bool)
    (cw allocatedCw : ℕ) (l : BandLimit) : Except SchedulerError ℕ := do
  let available ←
    -- with a codeword already there, what has been allocated for it
    if allocatedCw ≠ 0 then
      .ok (D.env.computeBytesOnNRbs nodeId l.band cw (a.getBlocks antenna l.band nodeId) .DL)
    else D.env.availableBytes a nodeId antenna l.band cw .DL (if limitBl then l.limit else -1)
  return if 0 ≤ l.limit ∧ ¬limitBl ∧ l.limit < available then l.limit.toNat else available

/-- The band loop of a retransmission: the bytes that are left, and the blocks and bytes
assigned. -/
def rtxBands (a : LteAllocationModule) (nodeId : MacNodeId) (antenna : ℕ) (limitBl : Bool)
    (cw allocatedCw : ℕ) : List BandLimit → ℕ → Except SchedulerError (ℕ × List (ℕ × ℕ))
  | [], bytes => .ok (bytes, [])
  | l :: ls, bytes =>
    if l.limit = -2 then rtxBands a nodeId antenna limitBl cw allocatedCw ls bytes
    else do
      let available ← D.rtxAvailable a nodeId antenna limitBl cw allocatedCw l
      let allocation := if available < bytes then available else bytes
      let assigned :=
        if allocatedCw = 0 then
          [(D.env.computeReqRbs nodeId l.band cw allocation .DL, allocation)]
        else []
      if bytes - allocation = 0 then return (0, assigned)
      else
        let (left, more) ←
          rtxBands a nodeId antenna limitBl cw allocatedCw ls (bytes - allocation)
        return (left, assigned ++ more)

/-- Book what has been assigned.  The `i`-th request goes to the `i`-th band of the list, also
when bands before it have been skipped. -/
def rtxBook (nodeId : MacNodeId) (antenna : ℕ) :
    List (BandLimit × (ℕ × ℕ)) → LteAllocationModule → Except SchedulerError LteAllocationModule
  | [], a => .ok a
  | (l, blocks, bytes) :: rest, a => do
    let (a', _) ← a.addBlocks antenna l.band nodeId blocks bytes
    rtxBook nodeId antenna rest a'

/-- `schedulePerAcidRtx`, with the bytes it returns. -/
def schedulePerAcidRtx (st : DlState) (nodeId : MacNodeId) (cw acid : ℕ)
    (bandLim : Option (List BandLimit)) (antenna : ℕ) (limitBl : Bool) :
    Except DlError (DlState × ℕ) := do
  let codewords := (D.env.computeTxParams nodeId .DL).getLayers.length
  let remappedCw := if codewords = 1 then 0 else cw
  let limits ← (D.limitsFor bandLim remappedCw).mapError .scheduler
  let a := D.env.prepareAllocator st.sched.allocator nodeId .DL antenna
  let prepared := { st with sched := { st.sched with allocator := a } }
  match st.harqTxBuffers.find nodeId with
  | none => .error (.scheduler .outOfRange)
  | some currHarq =>
    let allocatedCw := st.sched.allocatedCws nodeId
    let (left, assigned) ←
      (D.rtxBands a nodeId antenna limitBl remappedCw allocatedCw limits
        (currHarq.pduLength acid cw)).mapError .scheduler
    -- the retransmission has to fit as a whole
    if 0 < left then return (prepared, 0)
    else
      let a ← (rtxBook nodeId antenna (limits.zip assigned) a).mapError .scheduler
      let codewords := if allocatedCw ≠ 0 then codewords - 1 else codewords
      if allocatedCw ≠ 0 ∧ codewords = 0 then .error .codewordCount
      else
        let currHarq ← (currHarq.markSelected acid cw codewords).mapError .harq
        return ({
            sched := { st.sched with
              allocator := a
              allocatedCws := Function.update st.sched.allocatedCws nodeId (allocatedCw + 1) }
            harqTxBuffers := st.harqTxBuffers.put nodeId currHarq },
          currHarq.pduLength acid cw)

/-- The status of a unit. -/
def unitStatus (m : HarqTxBuffers) (nodeId : MacNodeId) (acid cw : ℕ) : TxHarqPduStatus :=
  match m.find nodeId with
  | none => .EMPTY
  | some b => ((b.processes acid).units cw).status

/-- The loop over the codewords of a process. -/
def rtxCodewords (nodeId : MacNodeId) (acid codewords : ℕ) :
    List ℕ → DlState → Except DlError DlState
  | [], st => .ok st
  | cw :: cws, st =>
    if st.sched.allocatedCws nodeId = codewords then .ok st
    else if unitStatus st.harqTxBuffers nodeId acid cw ≠ .BUFFERED then
      rtxCodewords nodeId acid codewords cws st
    else do
      let (st', bytes) ←
        D.schedulePerAcidRtx st nodeId cw acid (D.getBandLimit nodeId) MACRO false
      -- if there was a service, this process is done
      if 0 < bytes then return st' else rtxCodewords nodeId acid codewords cws st'

/-- The loop over the processes of a UE. -/
def rtxProcesses (nodeId : MacNodeId) (codewords : ℕ) :
    List ℕ → DlState → Except DlError DlState
  | [], st => .ok st
  | acid :: acids, st =>
    if st.sched.allocatedCws nodeId = codewords then .ok st
    else do
      let st' ← D.rtxCodewords nodeId acid codewords (List.range codewords) st
      rtxProcesses nodeId codewords acids st'

/-- The processes of one UE. -/
def rtxUe (nodeId : MacNodeId) (st : DlState) : Except DlError DlState :=
  D.rtxProcesses nodeId (D.env.computeTxParams nodeId .DL).getLayers.length
    (List.range ((st.harqTxBuffers.find nodeId).elim 0 (·.numProc))) st

/-- The loop over the UEs. -/
def rtxUes : List MacNodeId → DlState → Except DlError DlState
  | [], st => .ok st
  | [n], st =>
    if D.env.binder.getOmnetId n = 0 then
      .ok { st with harqTxBuffers := st.harqTxBuffers.erase n }
    else D.rtxUe n st
  | n :: m :: ns, st =>
    if D.env.binder.getOmnetId n = 0 then
      -- the iterator has moved on to the next UE, which the increment of the loop skips
      rtxUes ns { st with harqTxBuffers := st.harqTxBuffers.erase n }
    else do
      let st' ← D.rtxUe n st
      rtxUes (m :: ns) st'

/-- `rtxschedule`, with its answer: no block is left. -/
def rtxschedule (st : DlState) : Except DlError (DlState × Bool) := do
  let st' ← D.rtxUes (st.harqTxBuffers.map Prod.fst) st
  let availableBlocks ← st'.sched.allocator.computeTotalRbs.mapError .scheduler
  return (st', availableBlocks == 0)

/-! ### Grants and requests -/

/-- The environment of the grants: the H-ARQ buffers are as `rtxschedule` has left them. -/
def grantEnv (m : HarqTxBuffers) : SchedulerEnv :=
  { D.env with harqTxBuffers := fun n => (m.find n).map (·.firstAvailable) }

/-- A call of `scheduleGrant` by a scheduling discipline. -/
structure DlCall where
  /-- The connection. -/
  cid : MacCid
  /-- How much is offered to it. -/
  bytes : ℕ
  /-- The bands that it may use, if they are limited. -/
  bandLim : Option (List BandLimit) := none

/-- The calls of a TTI. -/
def dlCalls (m : HarqTxBuffers) : Machine LteSchedulerEnb DlCall SchedulerEnv.ScheduleReport where
  step s c :=
    match (D.grantEnv m).scheduleGrant s c.cid c.bytes c.bandLim MACRO false with
    | .ok (s', g, _) => some (s', [⟨c.cid, g.granted⟩])
    | .error _ => none

end DlEnv

/-- The bytes of a UE on all the bands, an `unsigned int`. -/
def LteSchedulerEnb.allocatedBytes (s : LteSchedulerEnb) (numBands : ℕ) (ueId : MacNodeId) : ℕ :=
  (List.range numBands).foldl (fun n b => u32 (n + s.allocator.getBytes MACRO b ueId)) 0

/-- The `sduSize` that `macSduRequest` asks for, for an entry of the schedule list. -/
def LteSchedulerEnb.sduSize (s : LteSchedulerEnb) (numBands : ℕ) (cid : MacCid) : ℕ :=
  sub32 (s.allocatedBytes numBands (MacCidToNodeId cid)) MAC_HEADER

/-! ### The bytes of the UEs -/

namespace LteAllocationModule

variable {a a' : LteAllocationModule} {numBands antenna blocks bytes i : ℕ} {band b : Band}
  {nodeId n : MacNodeId}

/-- An allocator without pairs. -/
structure Plain (a : LteAllocationModule) (numBands : ℕ) : Prop where
  wf : a.Wf
  bands : a.bands = numBands
  primary : ∀ n, (a.allocatedRbsUe n).secondaryUser = false

theorem plain_initAndReset (resourceBlocks numBands : ℕ) :
    (initAndReset resourceBlocks numBands).Plain numBands :=
  ⟨wf_initAndReset _ _, rfl, fun _ => rfl⟩

/-- The bytes of a UE on all the bands. -/
def totalBytes (a : LteAllocationModule) (numBands : ℕ) (n : MacNodeId) : ℕ :=
  ∑ b ∈ range numBands, a.getBytes MACRO b n

/-- What has happened to the bytes when a UE has got some. -/
structure Given (a a' : LteAllocationModule) (numBands : ℕ) (nodeId : MacNodeId) (bytes : ℕ) :
    Prop where
  plain : a'.Plain numBands
  total : ∀ n, a'.totalBytes numBands n =
    a.totalBytes numBands n + if n = nodeId then bytes else 0

theorem Plain.given_self (h : a.Plain numBands) (nodeId : MacNodeId) :
    a.Given a numBands nodeId 0 :=
  ⟨h, fun _ => by rw [ite_self, Nat.add_zero]⟩

theorem Given.trans {a'' : LteAllocationModule} {bytes' : ℕ}
    (h : a.Given a' numBands nodeId bytes) (h' : a'.Given a'' numBands nodeId bytes') :
    a.Given a'' numBands nodeId (bytes + bytes') where
  plain := h'.plain
  total n := by
    rw [h'.total, h.total, Nat.add_assoc]
    split <;> rfl

theorem getBytes_noteBlocks (h : ∀ n, (a.allocatedRbsUe n).secondaryUser = false) :
    (a.noteBlocks MACRO band nodeId blocks bytes).getBytes MACRO b n =
      a.getBytes MACRO b n + if b = band then if n = nodeId then bytes else 0 else 0 := by
  have hplane : ∀ m, a.getOFDMPlane m = .MAIN_PLANE := fun m => by
    rw [getOFDMPlane, h m]
    rfl
  have hnote : (a.noteBlocks MACRO band nodeId blocks bytes).getOFDMPlane n = .MAIN_PLANE := by
    simp only [getOFDMPlane, noteBlocks, Function.update_apply]
    split
    · simp only [AllocatedRbsPerUeInfo.add, h]
      rfl
    · rw [h]
      rfl
  rw [getBytes, hnote, getBytes, hplane]
  simp only [noteBlocks, hplane, true_and]
  by_cases hb : b = band
  · rw [if_pos hb, if_pos hb]
    simp only [AllocatedRbsPerBandInfo.add, Function.update_apply]
    split <;> rename_i hn
    · rw [hn]
    · rfl
  · rw [if_neg hb, if_neg hb]
    rfl

/-- **A request that is answered**: all of it is given, or nothing. -/
theorem Plain.addBlocks (h : a.Plain numBands) {r : LteAllocationModule × Bool}
    (hr : a.addBlocks MACRO band nodeId blocks bytes = .ok r) :
    r.1.Plain numBands ∧ (∀ n, n ≠ nodeId → r.1.totalBytes numBands n = a.totalBytes numBands n) ∧
      (blocks ≤ a.availableBlocks nodeId MACRO band →
        a.Given r.1 numBands nodeId bytes) := by
  obtain ⟨hwf, -, hbands, -⟩ := h.wf.addBlocks (h.wf.antennas_pos nodeId) hr
  unfold LteAllocationModule.addBlocks at hr
  split at hr <;> rename_i hband
  · cases hr
  split at hr <;> rename_i hreq
  · cases hr
    refine ⟨h, fun _ _ => rfl, fun hblocks => ?_⟩
    -- a request that fits is refused only if it is for no bytes
    have hzero : bytes = 0 := by
      rcases hreq with hreq | hreq
      · omega
      · exact hreq
    rw [hzero]
    exact h.given_self nodeId
  · cases hr
    have hplain : (a.noteBlocks MACRO band nodeId blocks bytes).Plain numBands := by
      refine ⟨hwf, hbands.trans h.bands, fun n => ?_⟩
      simp only [noteBlocks, Function.update_apply]
      split
      · exact h.primary nodeId
      · exact h.primary n
    have htotal : ∀ n, (a.noteBlocks MACRO band nodeId blocks bytes).totalBytes numBands n =
        a.totalBytes numBands n + if n = nodeId then bytes else 0 := by
      intro n
      have hmem : band ∈ range numBands := mem_range.2 (h.bands ▸ Nat.lt_of_not_le hband)
      simp only [totalBytes, getBytes_noteBlocks h.primary, sum_add_distrib, sum_ite_eq', hmem,
        if_true]
    refine ⟨hplain, fun n hn => ?_, fun _ => ⟨hplain, htotal⟩⟩
    rw [htotal, if_neg hn, Nat.add_zero]

end LteAllocationModule

theorem SchedulerEnv.prepareAllocator_of_plain {E : SchedulerEnv} {a : LteAllocationModule}
    {numBands : ℕ} (h : a.Plain numBands) {nodeId : MacNodeId} {dir : FlowDirection}
    (hpilot : (E.computeTxParams nodeId dir).OfPilot) :
    E.prepareAllocator a nodeId dir MACRO = a := by
  have hmode : (E.computeTxParams nodeId dir).txMode ≠ .MULTI_USER := by
    rcases hpilot with hmode | hmode <;> rw [hmode] <;> exact nofun
  rw [prepareAllocator, if_neg fun hpair => hmode hpair.2.1]
  exact h.wf.setRemoteAntenna_main nodeId

/-- The scheduler at the start of a TTI: `schedule` clears the list and the codewords and resets
the allocator. -/
def LteSchedulerEnb.startTti (s : LteSchedulerEnb) (resourceBlocks numBands : ℕ) :
    LteSchedulerEnb :=
  { s with
    allocator := .initAndReset resourceBlocks numBands
    allocatedCws := fun _ => 0
    scheduleList := fun _ _ => none }

/-- The scheduler with the tables of the AMC. -/
def DlEnv.withAmc (D : DlEnv) (T : TbsTables) : DlEnv := { D with env := D.env.withAmc T }

/-! ### What the retransmissions change -/

namespace DlEnv

variable {D : DlEnv} {st st' : DlState} {nodeId n : MacNodeId} {cw acid antenna bytes : ℕ}
  {bandLim : Option (List BandLimit)} {limitBl full : Bool}

/-- **A retransmission** takes place, with one more codeword for the UE, or it changes nothing but
the antennas and pairs. -/
theorem schedulePerAcidRtx_cases
    (h : D.schedulePerAcidRtx st nodeId cw acid bandLim antenna limitBl = .ok (st', bytes)) :
    (st'.sched = { st.sched with
        allocator := D.env.prepareAllocator st.sched.allocator nodeId .DL antenna } ∧
      st'.harqTxBuffers = st.harqTxBuffers) ∨
    ∃ requests a b b' availableTbs,
      rtxBook nodeId antenna requests
          (D.env.prepareAllocator st.sched.allocator nodeId .DL antenna) = .ok a ∧
        st.harqTxBuffers.find nodeId = some b ∧
        b.markSelected acid cw availableTbs = .ok b' ∧
        st'.sched = { st.sched with
          allocator := a
          allocatedCws := Function.update st.sched.allocatedCws nodeId
            (st.sched.allocatedCws nodeId + 1) } ∧
        st'.harqTxBuffers = st.harqTxBuffers.put nodeId b' := by
  obtain ⟨limits, -, h⟩ := bind_eq_ok.1 h
  dsimp only at h
  split at h
  · cases h
  rename_i b hb
  obtain ⟨⟨left, assigned⟩, -, h⟩ := bind_eq_ok.1 h
  split at h
  · cases h
    exact .inl ⟨rfl, rfl⟩
  obtain ⟨a, ha, h⟩ := bind_eq_ok.1 h
  generalize (if st.sched.allocatedCws nodeId ≠ 0 then _ else _) = codewords at h
  split at h
  · cases h
  obtain ⟨b', hb', h⟩ := bind_eq_ok.1 h
  cases h
  exact .inr ⟨_, a, b, b', _, mapError_eq_ok.1 ha, hb, mapError_eq_ok.1 hb', rfl, rfl⟩

section Rule

variable {R : DlState → DlState → Prop} (hrefl : ∀ st, R st st)
  (htrans : ∀ st st' st'', R st st' → R st' st'' → R st st'')
  (hstep : ∀ st nodeId cw acid st' bytes,
    D.schedulePerAcidRtx st nodeId cw acid (D.getBandLimit nodeId) MACRO false = .ok (st', bytes) →
      R st st')
  (herase : ∀ st n, R st { st with harqTxBuffers := st.harqTxBuffers.erase n })

include hrefl htrans hstep

theorem rtxCodewords_rule {codewords : ℕ} {cws : List ℕ}
    (h : D.rtxCodewords nodeId acid codewords cws st = .ok st') : R st st' := by
  induction cws generalizing st with
  | nil =>
    cases h
    exact hrefl _
  | cons cw cws ih =>
    rw [rtxCodewords] at h
    split at h
    · cases h
      exact hrefl _
    split at h
    · exact ih h
    · obtain ⟨⟨st₁, bytes⟩, hst₁, h⟩ := bind_eq_ok.1 h
      dsimp only at h
      split at h
      · cases h
        exact hstep _ _ _ _ _ _ hst₁
      · exact htrans _ _ _ (hstep _ _ _ _ _ _ hst₁) (ih h)

theorem rtxProcesses_rule {codewords : ℕ} {acids : List ℕ}
    (h : D.rtxProcesses nodeId codewords acids st = .ok st') : R st st' := by
  induction acids generalizing st with
  | nil =>
    cases h
    exact hrefl _
  | cons acid acids ih =>
    rw [rtxProcesses] at h
    split at h
    · cases h
      exact hrefl _
    · obtain ⟨st₁, hst₁, h⟩ := bind_eq_ok.1 h
      exact htrans _ _ _ (rtxCodewords_rule hrefl htrans hstep hst₁) (ih h)

include herase

theorem rtxUes_rule {ns : List MacNodeId} (h : D.rtxUes ns st = .ok st') : R st st' := by
  induction ns, st using rtxUes.induct D with
  | case1 st =>
    cases h
    exact hrefl _
  | case2 n st hleft =>
    rw [rtxUes, if_pos hleft] at h
    cases h
    exact herase _ n
  | case3 n st hleft =>
    rw [rtxUes, if_neg hleft] at h
    exact rtxProcesses_rule hrefl htrans hstep h
  | case4 n m ns st hleft ih =>
    rw [rtxUes, if_pos hleft] at h
    exact htrans _ _ _ (herase st n) (ih h)
  | case5 n m ns st hleft ih =>
    rw [rtxUes, if_neg hleft] at h
    obtain ⟨st₁, hst₁, h⟩ := bind_eq_ok.1 h
    exact htrans _ _ _ (rtxProcesses_rule hrefl htrans hstep hst₁) (ih _ h)

/-- **The rule for `rtxschedule`**: what every retransmission and every removal of a UE keeps. -/
theorem rtxschedule_rule (h : D.rtxschedule st = .ok (st', full)) : R st st' := by
  obtain ⟨st₁, hst₁, h⟩ := bind_eq_ok.1 h
  obtain ⟨blocks, -, h⟩ := bind_eq_ok.1 h
  cases h
  exact rtxUes_rule hrefl htrans hstep herase hst₁

end Rule

/-- The schedule list is as before, and so is the buffer of every UE that has no codeword yet,
unless the UE has left. -/
structure Retransmitted (st st' : DlState) : Prop where
  list : st'.sched.scheduleList = st.sched.scheduleList
  vbuf : st'.sched.vbuf = st.sched.vbuf
  buffers : ∀ n, st'.sched.allocatedCws n = 0 → st.sched.allocatedCws n = 0 ∧
    (st'.harqTxBuffers.find n = st.harqTxBuffers.find n ∨ st'.harqTxBuffers.find n = none)
  wf : (∀ n, ∀ b ∈ st.harqTxBuffers.find n, b.Wf) →
    ∀ n, ∀ b ∈ st'.harqTxBuffers.find n, b.Wf

theorem Retransmitted.trans {st'' : DlState} (h : Retransmitted st st')
    (h' : Retransmitted st' st'') : Retransmitted st st'' where
  list := h'.list.trans h.list
  vbuf := h'.vbuf.trans h.vbuf
  buffers n hn := by
    obtain ⟨hcws', hfind' | hnone⟩ := h'.buffers n hn
    · obtain ⟨hcws, hfind⟩ := h.buffers n hcws'
      rw [hfind']
      exact ⟨hcws, hfind⟩
    · exact ⟨(h.buffers n hcws').1, .inr hnone⟩
  wf hb := h'.wf (h.wf hb)

theorem schedulePerAcidRtx_retransmitted
    (h : D.schedulePerAcidRtx st nodeId cw acid bandLim antenna limitBl = .ok (st', bytes)) :
    Retransmitted st st' := by
  rcases schedulePerAcidRtx_cases h with
    ⟨hsched, hbufs⟩ | ⟨requests, a, b, b', availableTbs, -, hb, hb', hsched, hbufs⟩
  · constructor
    · rw [hsched]
    · rw [hsched]
    · intro n hn
      rw [hsched] at hn
      rw [hbufs]
      exact ⟨hn, .inl rfl⟩
    · rw [hbufs]
      exact id
  · constructor
    · rw [hsched]
    · rw [hsched]
    · intro n hn
      rw [hsched] at hn
      dsimp only at hn
      rw [Function.update_apply] at hn
      split at hn <;> rename_i hne
      · exact absurd hn (Nat.succ_ne_zero _)
      · rw [hbufs, OrderedMap.find_put, if_neg hne]
        exact ⟨hn, .inl rfl⟩
    · intro hc n c hfind
      rw [hbufs, OrderedMap.find_put] at hfind
      split at hfind
      · cases hfind
        exact (hc nodeId b hb).markSelected hb'
      · exact hc n c hfind

theorem rtxschedule_retransmitted (h : D.rtxschedule st = .ok (st', full)) :
    Retransmitted st st' := by
  refine rtxschedule_rule (R := Retransmitted)
    (fun st => ⟨rfl, rfl, fun n hn => ⟨hn, .inl rfl⟩, id⟩) (fun _ _ _ => Retransmitted.trans)
    (fun st nodeId cw acid st' bytes h => schedulePerAcidRtx_retransmitted h)
    (fun st n => ⟨rfl, rfl, fun m hm => ⟨hm, ?_⟩, fun hc m b hfind => ?_⟩) h
  · rw [OrderedMap.find_erase]
    split
    · exact .inr rfl
    · exact .inl rfl
  · rw [OrderedMap.find_erase] at hfind
    split at hfind
    · cases hfind
    · exact hc m b hfind

theorem rtxBook_spec {requests : List (BandLimit × (ℕ × ℕ))} {a a' : LteAllocationModule}
    {numBands : ℕ} (hplain : a.Plain numBands) (h : rtxBook nodeId MACRO requests a = .ok a') :
    a'.Plain numBands ∧ ∀ n, n ≠ nodeId → a'.totalBytes numBands n = a.totalBytes numBands n := by
  induction requests generalizing a with
  | nil =>
    cases h
    exact ⟨hplain, fun _ _ => rfl⟩
  | cons request requests ih =>
    obtain ⟨⟨a₁, answer⟩, ha₁, h⟩ := bind_eq_ok.1 h
    obtain ⟨hplain₁, hothers, -⟩ := hplain.addBlocks ha₁
    obtain ⟨hplain', hrest⟩ := ih hplain₁ h
    exact ⟨hplain', fun n hn => (hrest n hn).trans (hothers n hn)⟩

/-- A UE without a codeword has the bytes it had. -/
def KeepsBytes (numBands : ℕ) (st st' : DlState) : Prop :=
  st.sched.allocator.Plain numBands →
    st'.sched.allocator.Plain numBands ∧ ∀ n, st'.sched.allocatedCws n = 0 →
      st.sched.allocatedCws n = 0 ∧
        st'.sched.allocator.totalBytes numBands n = st.sched.allocator.totalBytes numBands n

theorem rtxschedule_keepsBytes (hpilot : ∀ n, (D.env.computeTxParams n .DL).OfPilot)
    (numBands : ℕ) (h : D.rtxschedule st = .ok (st', full)) : KeepsBytes numBands st st' := by
  refine rtxschedule_rule (R := KeepsBytes numBands)
    (fun st hplain => ⟨hplain, fun n hn => ⟨hn, rfl⟩⟩)
    (fun st₁ st₂ st₃ h₁₂ h₂₃ hplain => ?_) (fun st nodeId cw acid st' bytes hrtx hplain => ?_)
    (fun st n hplain => ⟨hplain, fun n hn => ⟨hn, rfl⟩⟩) h
  · obtain ⟨hplain₂, hkept₂⟩ := h₁₂ hplain
    obtain ⟨hplain₃, hkept₃⟩ := h₂₃ hplain₂
    refine ⟨hplain₃, fun n hn => ?_⟩
    obtain ⟨hn₂, htotal₃⟩ := hkept₃ n hn
    obtain ⟨hn₁, htotal₂⟩ := hkept₂ n hn₂
    exact ⟨hn₁, htotal₃.trans htotal₂⟩
  · have hprep := SchedulerEnv.prepareAllocator_of_plain hplain (hpilot nodeId)
    rcases schedulePerAcidRtx_cases hrtx with
      ⟨hsched, -⟩ | ⟨requests, a, b, b', availableTbs, ha, -, -, hsched, -⟩
    · rw [hsched, hprep]
      exact ⟨hplain, fun n hn => ⟨hn, rfl⟩⟩
    · rw [hprep] at ha
      obtain ⟨hplain', hothers⟩ := rtxBook_spec hplain ha
      rw [hsched]
      refine ⟨hplain', fun n hn => ?_⟩
      dsimp only at hn
      rw [Function.update_apply] at hn
      split at hn <;> rename_i hne
      · exact absurd hn (Nat.succ_ne_zero _)
      · exact ⟨hn, hothers n hne⟩

end DlEnv

/-! ### What a grant changes -/

namespace SchedulerEnv

variable {E : SchedulerEnv} {nodeId : MacNodeId} {dir : FlowDirection} {limitBl : Bool}
  {q numBands : ℕ} {ls : List BandLimit} {st : BandLoop} {r : BandLoop × List BandLimit × Bool}

theorem availableBytes_eq {a : LteAllocationModule} {antenna : ℕ} {b : Band} {cw : ℕ} {limit : ℤ}
    {c : ℕ} (hc : E.availableBytes a nodeId antenna b cw dir limit = .ok c) :
    ∃ blocks ≤ a.availableBlocks nodeId antenna b,
      c = E.computeBytesOnNRbs nodeId b cw blocks dir := by
  rw [availableBytes] at hc
  dsimp only at hc
  split at hc
  · cases hc
  · cases hc
    refine ⟨_, ?_, rfl⟩
    split
    · omega
    · exact Nat.le_refl _

/-- What a band holds, under any limit, fits into its free blocks. -/
theorem availableBytes_fits (hfit : E.BlocksFit) {a : LteAllocationModule} {antenna : ℕ}
    {b : Band} {cw : ℕ} {limit : ℤ} {c bytes : ℕ}
    (hc : E.availableBytes a nodeId antenna b cw dir limit = .ok c) (hpos : 0 < bytes)
    (hle : bytes ≤ c) :
    E.computeReqRbs nodeId b cw bytes dir ≤ a.availableBlocks nodeId antenna b := by
  obtain ⟨blocks, hblocks, rfl⟩ := availableBytes_eq hc
  exact (hfit _ _ _ _ _ _ hpos hle).trans hblocks

/-- **What the band loop counts is what the UE is given**, under any limits. -/
theorem grantBands_given (hfit : E.BlocksFit) (hplain : st.allocator.Plain numBands)
    (hst : u32 st.cwAllocatedBytes = st.cwAllocatedBytes)
    (h : E.grantBands nodeId dir MACRO limitBl q ls st = .ok r) :
    ∃ bytes, st.allocator.Given r.1.allocator numBands nodeId bytes ∧
      r.1.cwAllocatedBytes = u32 (st.cwAllocatedBytes + bytes) := by
  induction ls generalizing st r with
  | nil =>
    cases h
    exact ⟨0, hplain.given_self nodeId, hst.symm⟩
  | cons l ls ih =>
    rcases grantBands_cases h with ⟨-, r', hr', h₁, -⟩ | ⟨c, a, -, hc, -, ha, hrest⟩
    · rw [h₁]
      exact ih hplain hst hr'
    have hle := capped_le limitBl l.limit c q
    generalize min (if ¬limitBl = true ∧ 0 ≤ l.limit ∧ l.limit < c then l.limit.toNat
      else c) q = uBytes at hle ha hrest
    have hgiven : st.allocator.Given a.1 numBands nodeId uBytes := by
      obtain ⟨hplain', -, hfits⟩ := hplain.addBlocks ha
      rcases Nat.eq_zero_or_pos uBytes with hzero | hpos
      · -- no bytes: the request is refused
        rw [hzero] at ha ⊢
        rw [LteAllocationModule.addBlocks] at ha
        split at ha
        · cases ha
        · rw [if_pos (.inr rfl)] at ha
          cases ha
          exact hplain.given_self nodeId
      · exact hfits (availableBytes_fits hfit hc hpos hle)
    rcases hrest with ⟨-, h₁, -⟩ | ⟨-, r', hr', h₁, -⟩
    · rw [h₁]
      exact ⟨uBytes, hgiven, rfl⟩
    · obtain ⟨bytes, hrest, hcount⟩ := ih (by exact hgiven.plain) (by simp only [u32]; omega) hr'
      rw [h₁]
      refine ⟨uBytes + bytes, hgiven.trans hrest, hcount.trans ?_⟩
      simp only [u32]
      omega

end SchedulerEnv

namespace DlEnv

variable {D : DlEnv} {m : HarqTxBuffers} {s s' : LteSchedulerEnb} {c : DlCall}
  {o : List SchedulerEnv.ScheduleReport} {numBands : ℕ}

/-- **A call of `scheduleGrant`** grants bytes to a UE without a codeword, or the schedule list and
the codewords stay as they are. -/
theorem dlCalls_step (hdir : D.env.direction = .DL)
    (h : (D.dlCalls m).step s c = some (s', o)) :
    ∃ granted, o = [⟨c.cid, granted⟩] ∧
      ((granted = 0 ∧ s'.scheduleList = s.scheduleList ∧ s'.allocatedCws = s.allocatedCws) ∨
        (0 < granted ∧ s.allocatedCws (MacCidToNodeId c.cid) = 0 ∧
          s'.allocatedCws = Function.update s.allocatedCws (MacCidToNodeId c.cid) 1 ∧
          s'.scheduleList = Function.update s.scheduleList c.cid
            (Function.update (s.scheduleList c.cid) 0
              (some (SchedulerEnv.listed s c.cid + 1))))) := by
  simp only [dlCalls] at h
  split at h <;> rename_i hgrant
  · cases h
    refine ⟨_, rfl, ?_⟩
    rcases SchedulerEnv.scheduleGrant_cases (c := ⟨c.cid, c.bytes, MACRO, false⟩) hgrant with
      hun | ⟨b, r, -, hloop, hserved⟩
    · exact .inl ⟨hun.granted, hun.list, hun.cws⟩
    · have hdl : (D.grantEnv m).dirOf c.cid = .DL := by
        rw [SchedulerEnv.dirOf, show (D.grantEnv m).direction = .DL from hdir]
      obtain ⟨hfresh, -, hgranted, hcws, hlist⟩ := hserved
      dsimp only at hfresh hcws hlist
      rw [hdl] at hlist
      rcases Nat.eq_zero_or_pos r.1.cwAllocatedBytes with hzero | hpos
      · have hnot : ¬0 < r.1.cwAllocatedBytes := by omega
        rw [if_neg hnot] at hcws hlist
        exact .inl ⟨hgranted.trans hzero, hlist, hcws⟩
      · rw [if_pos hpos] at hcws hlist
        exact .inr ⟨hgranted ▸ hpos, hfresh, hcws, hlist⟩
  · cases h

theorem dlCalls_given (hfit : D.env.BlocksFit)
    (hpilot : ∀ n, (D.env.computeTxParams n .DL).OfPilot) (hdir : D.env.direction = .DL)
    (hplain : s.allocator.Plain numBands) (h : (D.dlCalls m).step s c = some (s', o)) :
    ∃ bytes, o = [⟨c.cid, u32 bytes⟩] ∧
      s.allocator.Given s'.allocator numBands (MacCidToNodeId c.cid) bytes := by
  simp only [dlCalls] at h
  split at h <;> rename_i hgrant
  · cases h
    have hprep : (D.grantEnv m).allocatorOf s ⟨c.cid, c.bytes, MACRO, false⟩ = s.allocator := by
      have hdl : (D.grantEnv m).dirOf c.cid = .DL := by
        rw [SchedulerEnv.dirOf, show (D.grantEnv m).direction = .DL from hdir]
      rw [SchedulerEnv.allocatorOf, hdl]
      exact SchedulerEnv.prepareAllocator_of_plain hplain (hpilot _)
    rcases SchedulerEnv.scheduleGrant_cases (c := ⟨c.cid, c.bytes, MACRO, false⟩) hgrant with
      hun | ⟨b, r, -, hloop, hserved⟩
    · refine ⟨0, by rw [hun.granted]; rfl, ?_⟩
      have ha := hun.allocator
      rw [hprep, or_self] at ha
      rw [ha]
      exact hplain.given_self _
    · rw [hprep] at hloop
      have hfit : (D.grantEnv m).BlocksFit := hfit
      obtain ⟨bytes, hgiven, hcount⟩ :=
        SchedulerEnv.grantBands_given hfit (by exact hplain) (by rfl) hloop
      rw [Nat.zero_add] at hcount
      refine ⟨bytes, by rw [hserved.granted, hcount], ?_⟩
      rw [hserved.allocator]
      exact hgiven
  · cases h

/-! ### One entry for each UE -/

/-- The schedule list has at most one entry for a UE, and none for a UE that had a codeword before
the grants. -/
structure OneEntry (s₁ s : LteSchedulerEnb) : Prop where
  unlisted : ∀ n, s.allocatedCws n = 0 → s₁.allocatedCws n = 0 ∧
    ∀ cid cw, MacCidToNodeId cid = n → s.scheduleList cid cw = none
  listed : ∀ cid cw k, s.scheduleList cid cw = some k →
    cw = 0 ∧ k = 1 ∧ s₁.allocatedCws (MacCidToNodeId cid) = 0
  unique : ∀ cid cid' cw cw', (s.scheduleList cid cw).isSome → (s.scheduleList cid' cw').isSome →
    MacCidToNodeId cid = MacCidToNodeId cid' → cid = cid'

theorem oneEntry_initial {s₁ : LteSchedulerEnb} (hlist : ∀ cid cw, s₁.scheduleList cid cw = none) :
    OneEntry s₁ s₁ where
  unlisted _ hn := ⟨hn, fun cid cw _ => hlist cid cw⟩
  listed cid cw k hk := nomatch (hlist cid cw).symm.trans hk
  unique cid _ cw _ h := by
    rw [hlist] at h
    cases h

theorem OneEntry.step (hdir : D.env.direction = .DL) {s₁ : LteSchedulerEnb} (h : OneEntry s₁ s)
    (hst : (D.dlCalls m).step s c = some (s', o)) : OneEntry s₁ s' := by
  obtain ⟨granted, -, ⟨-, hlist, hcws⟩ | ⟨-, hfresh, hcws, hlist⟩⟩ := dlCalls_step hdir hst
  · refine ⟨?_, ?_, ?_⟩
    · rw [hcws, hlist]
      exact h.unlisted
    · rw [hlist]
      exact h.listed
    · rw [hlist]
      exact h.unique
  obtain ⟨hfresh₁, hnone⟩ := h.unlisted _ hfresh
  -- the UE had no entry, and the new one is for the first codeword
  have hsome : ∀ cid cw k, s'.scheduleList cid cw = some k →
      (cid = c.cid ∧ cw = 0 ∧ k = 1) ∨
        (MacCidToNodeId cid ≠ MacCidToNodeId c.cid ∧ s.scheduleList cid cw = some k) := by
    intro cid cw k hk
    rw [hlist, Function.update_apply] at hk
    split at hk <;> rename_i hcid
    · rw [Function.update_apply] at hk
      split at hk <;> rename_i hcw
      · rw [SchedulerEnv.listed, hnone c.cid 0 rfl] at hk
        cases hk
        exact .inl ⟨hcid, hcw, rfl⟩
      · cases (hnone c.cid cw rfl).symm.trans hk
    · refine .inr ⟨fun hnode => ?_, hk⟩
      cases (hnone cid cw hnode).symm.trans hk
  refine ⟨fun n hn => ?_, fun cid cw k hk => ?_, fun cid cid' cw cw' hs hs' hnode => ?_⟩
  · rw [hcws, Function.update_apply] at hn
    split at hn <;> rename_i hne
    · cases hn
    · refine ⟨(h.unlisted n hn).1, fun cid cw hcid => ?_⟩
      have hcid' : cid ≠ c.cid := fun heq => hne (heq ▸ hcid.symm)
      rw [hlist, Function.update_of_ne hcid']
      exact (h.unlisted n hn).2 cid cw hcid
  · rcases hsome cid cw k hk with ⟨rfl, rfl, rfl⟩ | ⟨-, hk⟩
    · exact ⟨rfl, rfl, hfresh₁⟩
    · exact h.listed cid cw k hk
  · obtain ⟨k, hk⟩ := Option.isSome_iff_exists.1 hs
    obtain ⟨k', hk'⟩ := Option.isSome_iff_exists.1 hs'
    rcases hsome cid cw k hk with ⟨rfl, -⟩ | ⟨hne, hk⟩ <;>
      rcases hsome cid' cw' k' hk' with ⟨rfl, -⟩ | ⟨hne', hk'⟩
    · rfl
    · exact absurd hnode.symm hne'
    · exact absurd hnode hne
    · exact h.unique cid cid' cw cw' (by rw [hk]; rfl) (by rw [hk']; rfl) hnode

/-- **The entries stay apart over any calls.** -/
theorem oneEntry_of_exec (hdir : D.env.direction = .DL) {s₁ : LteSchedulerEnb}
    (hlist : ∀ cid cw, s₁.scheduleList cid cw = none) {calls : List DlCall}
    {os : List SchedulerEnv.ScheduleReport}
    (hrun : (D.dlCalls m).exec s₁ calls = some (s, os)) : OneEntry s₁ s :=
  Machine.exec_invariant (I := OneEntry s₁) (oneEntry_initial hlist)
    (fun _ _ _ _ h hst => h.step hdir hst) hrun

/-! ### The requests -/

/-- What is recorded of the bytes: a UE without a codeword has none, modulo `2 ^ 32`, and an entry
of the schedule list has been reported with the bytes of its UE. -/
structure BytesReported (numBands : ℕ) (s : LteSchedulerEnb)
    (os : List SchedulerEnv.ScheduleReport) : Prop where
  plain : s.allocator.Plain numBands
  none : ∀ n, s.allocatedCws n = 0 → u32 (s.allocator.totalBytes numBands n) = 0
  reported : ∀ cid cw, (s.scheduleList cid cw).isSome →
    0 < u32 (s.allocator.totalBytes numBands (MacCidToNodeId cid)) ∧
      ⟨cid, u32 (s.allocator.totalBytes numBands (MacCidToNodeId cid))⟩ ∈ os

theorem BytesReported.step (hfit : D.env.BlocksFit)
    (hpilot : ∀ n, (D.env.computeTxParams n .DL).OfPilot) (hdir : D.env.direction = .DL)
    {s₁ : LteSchedulerEnb} {os : List SchedulerEnv.ScheduleReport} (hentry : OneEntry s₁ s)
    (h : BytesReported numBands s os) (hst : (D.dlCalls m).step s c = some (s', o)) :
    BytesReported numBands s' (os ++ o) := by
  obtain ⟨bytes, ho, hgiven⟩ := dlCalls_given hfit hpilot hdir h.plain hst
  obtain ⟨granted, ho', hcase⟩ := dlCalls_step hdir hst
  obtain rfl : granted = u32 bytes := by
    rw [ho] at ho'
    simpa using ho'.symm
  have hother : ∀ n, n ≠ MacCidToNodeId c.cid →
      s'.allocator.totalBytes numBands n = s.allocator.totalBytes numBands n := fun n hn => by
    rw [hgiven.total, if_neg hn, Nat.add_zero]
  -- a call without a grant changes no sum
  rcases hcase with ⟨hzero, hlist, hcws⟩ | ⟨hpos, hfresh, hcws, hlist⟩
  · have htotal : ∀ n, u32 (s'.allocator.totalBytes numBands n) =
        u32 (s.allocator.totalBytes numBands n) := by
      intro n
      rw [hgiven.total]
      simp only [u32] at hzero ⊢
      split <;> omega
    refine ⟨hgiven.plain, fun n hn => ?_, fun cid cw hcid => ?_⟩
    · rw [hcws] at hn
      rw [htotal]
      exact h.none n hn
    · rw [hlist] at hcid
      rw [htotal]
      obtain ⟨hpos, hmem⟩ := h.reported cid cw hcid
      exact ⟨hpos, List.mem_append_left _ hmem⟩
  · -- a call with a grant books its bytes for its UE, which had none
    have htotal : u32 (s'.allocator.totalBytes numBands (MacCidToNodeId c.cid)) = u32 bytes := by
      have hnone := h.none _ hfresh
      rw [hgiven.total, if_pos rfl]
      simp only [u32] at hnone ⊢
      omega
    refine ⟨hgiven.plain, fun n hn => ?_, fun cid cw hcid => ?_⟩
    · rw [hcws, Function.update_apply] at hn
      split at hn <;> rename_i hne
      · cases hn
      · rw [hother n hne]
        exact h.none n hn
    · by_cases hcid' : cid = c.cid
      · subst hcid'
        rw [htotal, ho]
        exact ⟨hpos, List.mem_append_right _ (List.mem_singleton_self _)⟩
      · rw [hlist, Function.update_of_ne hcid'] at hcid
        have hne : MacCidToNodeId cid ≠ MacCidToNodeId c.cid := by
          intro hnode
          rw [(hentry.unlisted _ hfresh).2 cid cw hnode] at hcid
          cases hcid
        rw [hother _ hne]
        obtain ⟨hpos, hmem⟩ := h.reported cid cw hcid
        exact ⟨hpos, List.mem_append_left _ hmem⟩

/-- The sum of `macSduRequest` is the bytes of the UE, modulo `2 ^ 32`. -/
theorem allocatedBytes_eq (s : LteSchedulerEnb) (numBands : ℕ) (n : MacNodeId) :
    s.allocatedBytes numBands n = u32 (s.allocator.totalBytes numBands n) := by
  rw [LteSchedulerEnb.allocatedBytes, LteAllocationModule.totalBytes]
  induction numBands with
  | zero => rfl
  | succ k ih =>
    rw [List.range_succ, List.foldl_append, ih, sum_range_succ]
    simp only [List.foldl_cons, List.foldl_nil, u32]
    omega

/-- A unit of the UE is selected for a retransmission. -/
def SelectedForRtx (m m' : HarqTxBuffers) (n : MacNodeId) : Prop :=
  ∃ acid cw, unitStatus m n acid cw = .BUFFERED ∧ unitStatus m' n acid cw = .SELECTED

/-- A UE that is selected for a retransmission has a codeword. -/
theorem Retransmitted.cws_of_selected {st st' : DlState} {n : MacNodeId}
    (h : Retransmitted st st') (hn : SelectedForRtx st.harqTxBuffers st'.harqTxBuffers n) :
    st'.sched.allocatedCws n ≠ 0 := by
  obtain ⟨acid, cw, hbuffered, hselected⟩ := hn
  intro hcws
  rcases (h.buffers n hcws).2 with hfind | hnone
  · rw [unitStatus, hfind] at hselected
    rw [unitStatus, hselected] at hbuffered
    cases hbuffered
  · rw [unitStatus, hnone] at hselected
    cases hselected

/-- **The downlink requests fit.**  After `rtxschedule` and any calls of `scheduleGrant` that grant
at least a header, a UE has at most one entry in the schedule list and none if a retransmission of
it has been selected, and what `macSduRequest` asks for its entries, with a header, is at most what
has been allocated to it. -/
theorem requests_fit (D : DlEnv) (T : TbsTables) (hdir : D.env.direction = .DL)
    (hpilot : ∀ n, (D.env.computeTxParams n .DL).OfPilot) {s₀ s : LteSchedulerEnb}
    {m : HarqTxBuffers} {resourceBlocks : ℕ} {st : DlState} {full : Bool} {calls : List DlCall}
    {os : List SchedulerEnv.ScheduleReport}
    (hrtx : (D.withAmc T).rtxschedule ⟨s₀.startTti resourceBlocks D.env.numBands, m⟩ =
      .ok (st, full))
    (hrun : ((D.withAmc T).dlCalls st.harqTxBuffers).exec st.sched calls = some (s, os))
    (hlarge : ∀ o ∈ os, 0 < o.granted → MAC_HEADER ≤ o.granted) :
    (∀ cid cid' cw cw', (s.scheduleList cid cw).isSome → (s.scheduleList cid' cw').isSome →
      MacCidToNodeId cid = MacCidToNodeId cid' → cid = cid' ∧ cw = cw') ∧
    (∀ n, SelectedForRtx m st.harqTxBuffers n →
      ∀ cid cw, MacCidToNodeId cid = n → s.scheduleList cid cw = none) ∧
    ∀ n (S : Finset (MacCid × ℕ)), (∀ e ∈ S, MacCidToNodeId e.1 = n) →
      (∃ e ∈ S, (s.scheduleList e.1 e.2).isSome) →
        MAC_HEADER ≤ s.allocatedBytes D.env.numBands n ∧
          ∑ e ∈ S with (s.scheduleList e.1 e.2).isSome, s.sduSize D.env.numBands e.1 + MAC_HEADER ≤
            s.allocator.totalBytes D.env.numBands n := by
  have hrt := rtxschedule_retransmitted hrtx
  have hnone : ∀ cid cw, st.sched.scheduleList cid cw = none := fun cid cw => by rw [hrt.list]; rfl
  obtain ⟨hplain, hbytes⟩ := rtxschedule_keepsBytes (D := D.withAmc T) hpilot D.env.numBands hrtx
    (LteAllocationModule.plain_initAndReset _ _)
  have hentry : OneEntry st.sched s := oneEntry_of_exec (D := D.withAmc T) hdir hnone hrun
  have hreported : BytesReported D.env.numBands s os := by
    have hfit : (D.withAmc T).env.BlocksFit := D.env.withAmc_fits T
    refine (Machine.exec_induction (J := fun _ s os => OneEntry st.sched s ∧
      BytesReported D.env.numBands s os) ⟨oneEntry_initial hnone, hplain, fun n hn => ?_, ?_⟩
      (fun _ _ _ _ _ _ _ ih hst => ?_) hrun).2
    · rw [(hbytes n hn).2, LteAllocationModule.totalBytes]
      exact congrArg u32 (sum_eq_zero fun b _ => rfl)
    · intro cid cw hcid
      rw [hnone] at hcid
      cases hcid
    · exact ⟨ih.1.step (D := D.withAmc T) hdir hst,
        ih.2.step (D := D.withAmc T) hfit hpilot hdir ih.1 hst⟩
  have hone : ∀ cid cid' cw cw', (s.scheduleList cid cw).isSome →
      (s.scheduleList cid' cw').isSome → MacCidToNodeId cid = MacCidToNodeId cid' →
        cid = cid' ∧ cw = cw' := by
    intro cid cid' cw cw' hs hs' hnode
    obtain ⟨k, hk⟩ := Option.isSome_iff_exists.1 hs
    obtain ⟨k', hk'⟩ := Option.isSome_iff_exists.1 hs'
    exact ⟨hentry.unique cid cid' cw cw' hs hs' hnode,
      (hentry.listed cid cw k hk).1.trans (hentry.listed cid' cw' k' hk').1.symm⟩
  refine ⟨hone, fun n hn cid cw hcid => ?_, fun n S hS hex => ?_⟩
  · by_contra hsome
    obtain ⟨k, hk⟩ := Option.ne_none_iff_exists'.1 hsome
    exact hrt.cws_of_selected hn (hcid ▸ (hentry.listed cid cw k hk).2.2)
  · obtain ⟨e, he, hsome⟩ := hex
    have hnode := hS e he
    -- `e` is the only entry of the UE
    have hsingle : (S.filter fun e => (s.scheduleList e.1 e.2).isSome) = {e} := by
      ext e'
      rw [mem_filter, mem_singleton]
      constructor
      · rintro ⟨he', hsome'⟩
        obtain ⟨hcid, hcw⟩ := hone e'.1 e.1 e'.2 e.2 hsome' hsome ((hS e' he').trans hnode.symm)
        exact Prod.ext hcid hcw
      · rintro rfl
        exact ⟨he, hsome⟩
    obtain ⟨hpos, hmem⟩ := hreported.reported e.1 e.2 hsome
    have hheader := hlarge _ hmem hpos
    rw [hnode, ← allocatedBytes_eq] at hheader
    change MAC_HEADER ≤ s.allocatedBytes D.env.numBands n at hheader
    refine ⟨hheader, ?_⟩
    have hle : s.allocatedBytes D.env.numBands n ≤ s.allocator.totalBytes D.env.numBands n := by
      rw [allocatedBytes_eq]
      exact Nat.mod_le _ _
    have hlt : s.allocatedBytes D.env.numBands n < 4294967296 := by
      rw [allocatedBytes_eq]
      exact u32_lt _
    rw [hsingle, sum_singleton, LteSchedulerEnb.sduSize, hnode, sub32_of_le hheader hlt]
    omega

/-- A downlink cell with two bands for the UE `1025`. -/
def downlinkCell : DlEnv where
  env := { SchedulerEnv.uplinkCell with direction := .DL }
  usableBands _ := none

/-- Two connections of the UE with eleven bytes each. -/
def twoConnections : LteSchedulerEnb where
  allocator := .initAndReset 0 0
  vbuf cid := if cid = 65536 * 1025 + 5 ∨ cid = 65536 * 1025 + 6 then some ⟨[11]⟩ else none

/-- The UE has a buffer without PDUs. -/
def oneBuffer : HarqTxBuffers := [(1025, { numProc := 8 })]

/-- The first of the two connections gets twenty bytes, ten on each band; it is asked for
eighteen. -/
theorem requests_fit_twoConnections :
    ∃ s os,
      (downlinkCell.withAmc SchedulerEnv.sixteenBits).rtxschedule
          ⟨twoConnections.startTti 10 2, oneBuffer⟩ =
        .ok (⟨twoConnections.startTti 10 2, oneBuffer⟩, false) ∧
      ((downlinkCell.withAmc SchedulerEnv.sixteenBits).dlCalls (oneBuffer)).exec
          (twoConnections.startTti 10 2)
          [{ cid := 65536 * 1025 + 5, bytes := 0 }, { cid := 65536 * 1025 + 6, bytes := 0 }] =
        some (s, os) ∧
      ∑ e ∈ {(65536 * 1025 + 5, 0), (65536 * 1025 + 6, 0)} with (s.scheduleList e.1 e.2).isSome,
        s.sduSize 2 e.1 + MAC_HEADER ≤ s.allocator.totalBytes 2 1025 := by
  have hrtx : (downlinkCell.withAmc SchedulerEnv.sixteenBits).rtxschedule
      ⟨twoConnections.startTti 10 2, oneBuffer⟩ =
        .ok (⟨twoConnections.startTti 10 2, oneBuffer⟩, false) := rfl
  have hrun : ((downlinkCell.withAmc SchedulerEnv.sixteenBits).dlCalls (oneBuffer)).exec
      (twoConnections.startTti 10 2)
      [{ cid := 65536 * 1025 + 5, bytes := 0 }, { cid := 65536 * 1025 + 6, bytes := 0 }] =
        some (_, [⟨65536 * 1025 + 5, 20⟩, ⟨65536 * 1025 + 6, 0⟩]) := rfl
  have hfit := (requests_fit downlinkCell SchedulerEnv.sixteenBits rfl (fun _ => .inl rfl) hrtx hrun
    (by decide)).2.2 1025 {(65536 * 1025 + 5, 0), (65536 * 1025 + 6, 0)} (by decide)
  exact ⟨_, _, hrtx, hrun, (hfit ⟨(65536 * 1025 + 5, 0), by decide, rfl⟩).2⟩

end DlEnv

end V2nLte
