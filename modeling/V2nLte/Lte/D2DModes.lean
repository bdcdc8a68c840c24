import V2nLte.Lte.Unregister

/-!
# The modes of direct flows

Two UEs talk to each other through their eNB (`IM`) or directly (`DM`); the binder keeps the mode of
every flow in `d2dPeeringMap`.  It is set at three places: `checkD2DCapability` enters a flow with
its first packet, the mode selection of an eNB (`D2DModeSelectionBestCqi`) goes over the flows in
its cell from time to time, and `LtePhyUeD2D` has the flows of a UE switched to `IM` when the UE
starts a handover.  The first two compare the next hops of the peers.  But `doHandover` only
unregisters the next hop of the UE, so that it is `0` from the first handover on.

## Main results

* `D2DNet.direct_within_cell_iff` : exactly when direct flows stay within one cell, in a run and
  whenever the handovers that have begun in it are over.
* `D2DNet.direct_across_cells` : two UEs that have changed places, and a flow entered during a
  handover.
-/

namespace V2nLte

namespace BinderState

/-! ### Mode selection -/

/-- Change the modes of the flows. -/
def mapModes (f : MacNodeId → MacNodeId → LteD2DMode → LteD2DMode) (s : BinderState) :
    BinderState :=
  { s with d2dPeeringMap := fun srcId dstId => (s.d2dPeeringMap srcId dstId).map (f srcId dstId) }

/-- `LtePhyBase::getAmcModule`. -/
def getAmcModule (s : BinderState) (id : MacNodeId) : Option AmcDirections :=
  if s.getOmnetId id = 0 then none
  else if getNodeTypeById id ≠ .ENODEB then none
  else ((s.modules (s.getOmnetId id)).bind MacModule.enb).bind EnbSide.amc

end BinderState

/-- `D2DModeSelectionBase::doModeSwitchAtHandover`: at the start of a handover all flows of the
node are switched to `IM`, at its end those within one cell to `DM`. -/
def D2DModeSelectionBase.doModeSwitchAtHandover (nodeId : MacNodeId) (handoverCompleted : Bool)
    (s : BinderState) : BinderState :=
  let newMode : LteD2DMode := if handoverCompleted then .DM else .IM
  s.mapModes fun srcId dstId oldMode =>
    if srcId ≠ nodeId ∧ dstId ≠ nodeId then oldMode
    else if oldMode = newMode then oldMode
    else if newMode = .DM ∧ s.getNextHop srcId ≠ s.getNextHop dstId then oldMode
    else newMode

namespace D2DModeSelectionBestCqi

/-- `doModeSelection` at the eNB `cellId`.  `bitsUl` and `bitsD2D` are the bits of a UE on one
resource block in the two directions, as its AMC computes them. -/
def doModeSelection (cellId : MacNodeId) (bitsUl bitsD2D : MacNodeId → ℕ) (s : BinderState) :
    BinderState :=
  s.mapModes fun srcId dstId oldMode =>
    if s.getNextHop srcId ≠ some cellId then oldMode
    else if s.getNextHop dstId ≠ some cellId then oldMode
    else if s.ueHandoverTriggered dstId || s.ueHandoverTriggered srcId then oldMode
    else if bitsUl srcId > bitsD2D srcId then .IM
    else .DM

/-- `doModeSwitchAtHandover`: at the end of a handover the switch is left to the next
`doModeSelection`. -/
def doModeSwitchAtHandover (nodeId : MacNodeId) (handoverCompleted : Bool) (s : BinderState) :
    BinderState :=
  if handoverCompleted then s
  else D2DModeSelectionBase.doModeSwitchAtHandover nodeId handoverCompleted s

end D2DModeSelectionBestCqi

/-! ### The network -/

/-- The PHY of a UE. -/
structure LtePhyUeD2D where
  /-- The cell of the UE. -/
  masterId : MacNodeId
  /-- The cell it changes to. -/
  candidateMasterId : MacNodeId
  /-- The message `handoverTrigger` is scheduled. -/
  handoverTrigger : Bool := false
  /-- The message `doModeSwitchAtHandover` is scheduled. -/
  doModeSwitchAtHandover : Bool := false

/-- The binder and the PHYs of the UEs. -/
structure D2DNet where
  /-- The binder. -/
  binder : BinderState := {}
  /-- The UEs. -/
  ues : MacNodeId → Option LtePhyUeD2D := fun _ => none

namespace D2DNet

/-- What happens in the network. -/
inductive Event where
  | registerEnb (omnetId : OmnetId) (mac : MacModule)
  | registerUe (omnetId : OmnetId) (mac : MacModule) (masterId : MacNodeId)
  /-- The PDCP layer of a UE gets a packet for another UE. -/
  | checkD2DCapability (src dst : MacNodeId)
  | modeSelectionTick (cellId : MacNodeId) (bitsUl bitsD2D : MacNodeId → ℕ)
  /-- The candidate is the strongest eNB heard. -/
  | triggerHandover (u candidateMasterId : MacNodeId)
  | doHandover (u : MacNodeId)
  | doModeSwitchAtHandover (u : MacNodeId)

variable (s : D2DNet)

/-- A new node is entered, with its MAC. -/
def registerNode (omnetId : OmnetId) (mac : MacModule) (type : LteNodeType)
    (masterId : MacNodeId) : D2DNet :=
  { s with
    binder := { s.binder with
      toLteBinder := (s.binder.toLteBinder.registerNode omnetId type masterId).1
      modules := Function.update s.binder.modules omnetId (some mac) } }

/-- Change a UE. -/
def setUe (u : MacNodeId) (ue : LtePhyUeD2D) : D2DNet :=
  { s with ues := Function.update s.ues u (some ue) }

/-- Change the directory part of the binder. -/
def setBinder (b : LteBinder) : D2DNet := { s with binder := { s.binder with toLteBinder := b } }

/-- `LtePhyUeD2D::triggerHandover`; it fails if the serving eNB is gone, or if the assertion of
`LtePhyUe::triggerHandover` does. -/
def triggerHandover (u : MacNodeId) (ue : LtePhyUeD2D) : Option D2DNet :=
  if (s.binder.modules (s.binder.getOmnetId ue.masterId)).isNone then none
  else if ue.masterId = ue.candidateMasterId then none
  else
    let s := { s with binder := D2DModeSelectionBestCqi.doModeSwitchAtHandover u false s.binder }
    let s := s.setBinder (s.binder.toLteBinder.addUeHandoverTriggered u)
    some (s.setUe u { ue with handoverTrigger := true })

/-- `LtePhyUe::doHandover`, for the binder and the UE: the handover is given up if the candidate is
not an eNB with an AMC. -/
def switchCell (u : MacNodeId) (ue : LtePhyUeD2D) : LteBinder × LtePhyUeD2D :=
  let b := s.binder.toLteBinder
  if getNodeTypeById ue.candidateMasterId ≠ .ENODEB then (b.removeUeHandoverTriggered u, ue)
  else if (s.binder.getAmcModule ue.candidateMasterId).isNone then
    (b.removeUeHandoverTriggered u, ue)
  else
    ((b.unregisterNextHop ue.masterId u).removeUeHandoverTriggered u,
      { ue with masterId := ue.candidateMasterId })

/-- `LtePhyUeD2D::doHandover`. -/
def doHandover (u : MacNodeId) (ue : LtePhyUeD2D) : D2DNet :=
  let (b, ue) := s.switchCell u ue
  (s.setBinder b).setUe u { ue with handoverTrigger := false, doModeSwitchAtHandover := true }

/-- Handle an event.  New nodes have ids and modules that are not in use; the candidate is an eNB of
the network, and a UE hears of no other one while it is in a handover. -/
def handle : Event → Option D2DNet
  | .registerEnb omnetId mac =>
    if (s.binder.nodeIds s.binder.enbCounter).isNone ∧ omnetId ≠ 0 ∧
        (s.binder.modules omnetId).isNone then
      some (s.registerNode omnetId mac .ENODEB 0)
    else none
  | .registerUe omnetId mac masterId =>
    if (s.binder.nodeIds s.binder.ueCounter).isNone ∧ omnetId ≠ 0 ∧
        (s.binder.modules omnetId).isNone then
      some ((s.registerNode omnetId mac .UE masterId).setUe s.binder.ueCounter
        { masterId := masterId, candidateMasterId := masterId })
    else none
  | .checkD2DCapability src dst =>
    if (s.ues src).isSome ∧ (s.ues dst).isSome then
      (s.binder.checkD2DCapability src dst).toOption.map fun b => { s with binder := b }
    else none
  | .modeSelectionTick cellId bitsUl bitsD2D =>
    if (s.binder.getAmcModule cellId).isSome then
      some { s with
        binder := D2DModeSelectionBestCqi.doModeSelection cellId bitsUl bitsD2D s.binder }
    else none
  | .triggerHandover u candidateMasterId =>
    (s.ues u).bind fun ue =>
      if !ue.handoverTrigger ∧ (s.binder.getAmcModule candidateMasterId).isSome then
        s.triggerHandover u { ue with candidateMasterId := candidateMasterId }
      else none
  | .doHandover u =>
    (s.ues u).bind fun ue => if ue.handoverTrigger then some (s.doHandover u ue) else none
  | .doModeSwitchAtHandover u =>
    (s.ues u).bind fun ue =>
      if ue.doModeSwitchAtHandover then
        some ({ s with
          binder := D2DModeSelectionBestCqi.doModeSwitchAtHandover u true s.binder }.setUe u
            { ue with doModeSwitchAtHandover := false })
      else none

/-- The network as a machine. -/
def machine : Machine D2DNet Event Empty where
  step s e := (s.handle e).map fun s' => (s', [])

/-! ### What is asked of the modes -/

/-- Direct flows stay within one cell, as long as neither peer is in a handover. -/
def DirectWithinCell : Prop :=
  ∀ src dst a b, s.binder.d2dPeeringMap src dst = some .DM → s.ues src = some a →
    s.ues dst = some b → a.handoverTrigger = false → b.handoverTrigger = false →
    a.masterId = b.masterId

end D2DNet

/-- The eNB that serves the UE when its handover is over. -/
def LtePhyUeD2D.nextMasterId (ue : LtePhyUeD2D) : MacNodeId :=
  if ue.handoverTrigger then ue.candidateMasterId else ue.masterId

namespace BinderState

/-- The first packet from `src` to `dst` enters the flow in direct mode: it has no entry, the two
have the same next hop, the receiver can talk to others directly and the sender starts so. -/
def EntersDirect (s : BinderState) (src dst : MacNodeId) : Prop :=
  s.d2dPeeringMap src dst = none ∧ s.getNextHop src = s.getNextHop dst ∧
    (s.modules (s.macOf dst)).any (·.isD2DCapable) = true ∧
    (s.modules (s.macOf src)).any (·.d2dInitialMode) = true

variable {s s' : BinderState} {src dst k : MacNodeId} {p : Option OmnetId}

theorem macOf_cached (s : BinderState) (k : MacNodeId) :
    ({ s with
      macNodeIdToModule := Function.update s.macNodeIdToModule k (some (s.getOmnetId k)) } :
        BinderState).macOf = fun j => if j = k then s.getOmnetId k else s.macOf j := by
  funext j
  by_cases hj : j = k
  · subst hj
    simp [macOf]
  · simp [macOf, hj]

theorem mapModes_eq_some {f : MacNodeId → MacNodeId → LteD2DMode → LteD2DMode}
    {mode : LteD2DMode} (h : (s.mapModes f).d2dPeeringMap src dst = some mode) :
    ∃ oldMode, s.d2dPeeringMap src dst = some oldMode ∧ f src dst oldMode = mode :=
  Option.map_eq_some_iff.1 h

theorem setMode_self {mode : LteD2DMode} :
    (s.setMode src dst mode).d2dPeeringMap src dst = some mode := by
  simp [setMode]

theorem setMode_of_ne {mode : LteD2DMode} {src' dst' : MacNodeId}
    (h : ¬(src' = src ∧ dst' = dst)) :
    (s.setMode src dst mode).d2dPeeringMap src' dst' = s.d2dPeeringMap src' dst' := by
  by_cases hsrc : src' = src
  · subst hsrc
    simp [setMode, show dst' ≠ dst from fun hdst => h ⟨rfl, hdst⟩]
  · simp [setMode, hsrc]

/-- A lookup of a MAC changes the cache only, and finds what it would find again. -/
theorem getMacFromMacNodeId_cases (h : s.getMacFromMacNodeId k = .ok (s', p)) :
    (∃ cache, s' = { s with macNodeIdToModule := cache }) ∧ s'.macOf = s.macOf ∧
      ∀ x ∈ p, x = s.macOf k := by
  unfold getMacFromMacNodeId at h
  split at h
  · cases h
    exact ⟨⟨_, rfl⟩, rfl, fun x hx => by cases hx⟩
  · cases hcache : s.macNodeIdToModule k with
    | some q =>
      rw [hcache] at h
      cases h
      refine ⟨⟨_, rfl⟩, rfl, fun x hx => ?_⟩
      obtain rfl := Option.some.inj hx
      simp [macOf, hcache]
    | none =>
      rw [hcache] at h
      dsimp only at h
      split_ifs at h
      cases h
      have hmac : s.macOf k = s.getOmnetId k := by simp [macOf, hcache]
      refine ⟨⟨_, rfl⟩, ?_, fun x hx => ?_⟩
      · rw [macOf_cached]
        funext j
        by_cases hj : j = k
        · subst hj
          rw [if_pos rfl, hmac]
        · rw [if_neg hj]
      · obtain rfl := Option.some.inj hx
        exact hmac.symm

/-- The MAC that a lookup has found. -/
theorem bind_modules_of_lookup {m : MacModule} (h : s.getMacFromMacNodeId k = .ok (s', p))
    (hm : p.bind s'.modules = some m) : s.modules (s.macOf k) = some m := by
  obtain ⟨⟨cache, rfl⟩, -, hp⟩ := getMacFromMacNodeId_cases h
  obtain ⟨x, hx, hm⟩ := Option.bind_eq_some_iff.1 hm
  rwa [← hp x hx]

/-- **What the first packet of a flow enters.** -/
theorem checkD2DCapability_cases (h : s.checkD2DCapability src dst = .ok s') :
    (∃ cache, s' = { s with macNodeIdToModule := cache } ∧ ¬s.EntersDirect src dst) ∨
    ∃ cache mode, s' = ({ s with macNodeIdToModule := cache }).setMode src dst mode ∧
      s.d2dPeeringMap src dst = none ∧ (mode = .DM ↔ s.EntersDirect src dst) := by
  unfold checkD2DCapability at h
  split_ifs at h with hids hentry
  · cases h
    refine .inl ⟨_, rfl, fun hd => ?_⟩
    rw [hd.1] at hentry
    cases hentry
  · -- the mode of the pair has not been decided yet
    have hnone : s.d2dPeeringMap src dst = none := Option.not_isSome_iff_eq_none.1 hentry
    obtain ⟨⟨s₁, p⟩, hdst, h⟩ := bind_eq_ok.1 h
    obtain ⟨⟨c₁, hs₁⟩, hmac, -⟩ := getMacFromMacNodeId_cases hdst
    dsimp only at h
    split at h
    · cases h
    · rename_i dstMac hm
      have hdstMac := bind_modules_of_lookup hdst hm
      subst hs₁
      split_ifs at h with hcapable hhop
      · -- both ends can do D2D and have the same next hop
        obtain ⟨⟨s₂, q⟩, hsrc, h⟩ := bind_eq_ok.1 h
        obtain ⟨⟨c₂, rfl⟩, -, -⟩ := getMacFromMacNodeId_cases hsrc
        dsimp only at h
        split at h
        · cases h
        · rename_i srcMac hn
          have hsrcMac := bind_modules_of_lookup hsrc hn
          rw [hmac] at hsrcMac
          have hsrcMac : s.modules (s.macOf src) = some srcMac := hsrcMac
          cases h
          refine .inr ⟨c₂, _, rfl, hnone, ?_⟩
          simp only [EntersDirect, hnone, hdstMac, hsrcMac, hcapable, Option.any_some, true_and]
          cases hmode : srcMac.d2dInitialMode with
          | false => simp
          | true => simpa using hhop
      · -- different next hops: infrastructure mode
        cases h
        refine .inr ⟨c₁, .IM, rfl, hnone, ?_⟩
        refine ⟨fun h => (by cases h), fun h => absurd h.2.1 hhop⟩
      · -- the other end cannot do D2D
        cases h
        refine .inl ⟨c₁, rfl, fun h => hcapable ?_⟩
        simpa [hdstMac] using h.2.2.1

end BinderState

namespace D2DNet

/-- A flow that is entered in direct mode is between UEs that the same eNB serves, or will when
their handovers are over. -/
def EntersWithinCell (s : D2DNet) : Event → Prop
  | .checkD2DCapability src dst => s.binder.EntersDirect src dst →
      (s.ues src).map (·.nextMasterId) = (s.ues dst).map (·.nextMasterId)
  | _ => True

/-! ### The invariant -/

variable {s s' : D2DNet} {u v : MacNodeId} {ue ue' : LtePhyUeD2D} {b : LteBinder}

/-- What the binder knows of the UEs. -/
structure Inv (s : D2DNet) : Prop where
  registered : ∀ u, (s.ues u).isSome = true → (s.binder.nodeIds u).isSome = true
  /-- The next hop of a UE is its eNB up to the first handover. -/
  nextHop : ∀ u, ∀ ue ∈ s.ues u,
    s.binder.getNextHop u = some ue.masterId ∨ s.binder.getNextHop u = some 0
  triggered : ∀ u, s.binder.ueHandoverTriggered u = (s.ues u).any (·.handoverTrigger)
  candidate : ∀ u, ∀ ue ∈ s.ues u, ue.handoverTrigger = true →
    (s.binder.getAmcModule ue.candidateMasterId).isSome = true
  peers : ∀ src dst, (s.binder.d2dPeeringMap src dst).isSome = true →
    (s.ues src).isSome = true ∧ (s.ues dst).isSome = true

/-- Direct flows are between UEs that the same eNB will serve when their handovers are over. -/
def DirectNext (s : D2DNet) : Prop :=
  ∀ src dst, s.binder.d2dPeeringMap src dst = some .DM →
    (s.ues src).map (·.nextMasterId) = (s.ues dst).map (·.nextMasterId)

theorem DirectNext.directWithinCell (h : s.DirectNext) : s.DirectWithinCell := by
  intro src dst a b hdm ha hb hta htb
  have heq := h src dst hdm
  rw [ha, hb] at heq
  simpa [LtePhyUeD2D.nextMasterId, hta, htb] using heq

theorem inv_init : Inv {} where
  registered _ hu := by cases hu
  nextHop _ _ hue := by cases hue
  triggered _ := rfl
  candidate _ _ hue := by cases hue
  peers _ _ h := by cases h

theorem getAmcModule_congr {b b' : BinderState} (hn : b'.nodeIds = b.nodeIds)
    (hm : b'.modules = b.modules) : b'.getAmcModule = b.getAmcModule := by
  funext id
  unfold BinderState.getAmcModule LteBinder.getOmnetId
  rw [hn, hm]

theorem nodeType_of_getAmcModule {b : BinderState} {id : MacNodeId}
    (h : (b.getAmcModule id).isSome = true) : getNodeTypeById id = .ENODEB := by
  by_contra htype
  rw [BinderState.getAmcModule, if_pos htype, ite_self] at h
  cases h

theorem ne_zero_of_getAmcModule {b : BinderState} {id : MacNodeId}
    (h : (b.getAmcModule id).isSome = true) : id ≠ 0 := by
  intro h₀
  have htype := nodeType_of_getAmcModule h
  rw [h₀] at htype
  exact absurd htype (by decide)

/-- A change of the modes, and of the cache. -/
theorem Inv.congr (h : Inv s) {b : BinderState} (hlte : b.toLteBinder = s.binder.toLteBinder)
    (hmodules : b.modules = s.binder.modules)
    (hpeers : ∀ src dst, (b.d2dPeeringMap src dst).isSome = true →
      (s.ues src).isSome = true ∧ (s.ues dst).isSome = true) :
    Inv { s with binder := b } where
  registered u hu := by rw [hlte]; exact h.registered u hu
  nextHop u ue hue := by rw [hlte]; exact h.nextHop u ue hue
  triggered u := by rw [hlte]; exact h.triggered u
  candidate u ue hue ht := by
    rw [getAmcModule_congr (congrArg _ hlte) hmodules]
    exact h.candidate u ue hue ht
  peers := hpeers

theorem Inv.mapModes (h : Inv s) (f : MacNodeId → MacNodeId → LteD2DMode → LteD2DMode) :
    Inv { s with binder := s.binder.mapModes f } := by
  refine h.congr rfl rfl fun src dst hsome => h.peers src dst ?_
  simpa [BinderState.mapModes] using hsome

/-- A change of one UE, and of what the binder knows of it. -/
theorem Inv.update (h : Inv s) (hue : s.ues u = some ue)
    (hnodeIds : b.nodeIds = s.binder.nodeIds)
    (hother : ∀ v ≠ u, b.getNextHop v = s.binder.getNextHop v ∧
      b.ueHandoverTriggered v = s.binder.ueHandoverTriggered v)
    (hhop : b.getNextHop u = some ue'.masterId ∨ b.getNextHop u = some 0)
    (htriggered : b.ueHandoverTriggered u = ue'.handoverTrigger)
    (hcandidate : ue'.handoverTrigger = true →
      (s.binder.getAmcModule ue'.candidateMasterId).isSome = true) :
    Inv ((s.setBinder b).setUe u ue') := by
  -- the modules stay where they are, and so do the eNBs
  have hamc : ((s.setBinder b).setUe u ue').binder.getAmcModule = s.binder.getAmcModule :=
    getAmcModule_congr hnodeIds rfl
  have hisSome : ∀ v, (((s.setBinder b).setUe u ue').ues v).isSome = (s.ues v).isSome := by
    intro v
    by_cases hv : v = u
    · subst hv
      simp [setUe, setBinder, hue]
    · simp [setUe, setBinder, hv]
  constructor
  · -- who is registered
    intro v hv
    rw [hisSome] at hv
    have hreg := h.registered v hv
    rwa [← hnodeIds] at hreg
  · -- the next hop of a UE is its cell, or 0
    intro v ue₁ hv
    by_cases hvu : v = u
    · subst hvu
      obtain rfl : ue' = ue₁ := by simpa [setUe] using hv
      exact hhop
    · have hv : s.ues v = some ue₁ := by simpa [setUe, setBinder, hvu] using hv
      have hhop := h.nextHop v ue₁ hv
      rwa [← (hother v hvu).1] at hhop
  · -- the flag of the binder is the flag of the UE
    intro v
    by_cases hvu : v = u
    · subst hvu
      simpa [setUe, setBinder] using htriggered
    · have htriggered := h.triggered v
      rw [← (hother v hvu).2] at htriggered
      simpa [setUe, setBinder, hvu] using htriggered
  · -- the eNB that a UE is about to enter exists
    intro v ue₁ hv ht
    rw [hamc]
    by_cases hvu : v = u
    · subst hvu
      obtain rfl : ue' = ue₁ := by simpa [setUe] using hv
      exact hcandidate ht
    · exact h.candidate v ue₁ (by simpa [setUe, setBinder, hvu] using hv) ht
  · -- modes are decided between UEs only
    intro src dst hsome
    rw [hisSome, hisSome]
    exact h.peers src dst hsome

/-! ### New nodes -/

section NewNode

variable {omnetId : OmnetId} {mac : MacModule} {type : LteNodeType} {masterId : MacNodeId}

theorem nodeIds_registerNode :
    (s.registerNode omnetId mac type masterId).binder.nodeIds =
      Function.update s.binder.nodeIds (s.binder.newId type).2 (some omnetId) :=
  LteBinder.nodeIds_registerNode

theorem getNextHop_registerNode_of_ne {x : MacNodeId} (hv : v ≠ (b.newId type).2)
    (h : b.getNextHop v = some x) :
    (b.registerNode omnetId type masterId).1.getNextHop v = some x := by
  cases type with
  | UNKNOWN_NODE_TYPE => exact h
  | UE | RELAY | ENODEB => exact LteBinder.getNextHop_registerNextHop_of_ne hv h

theorem triggered_registerNode :
    (b.registerNode omnetId type masterId).1.ueHandoverTriggered = b.ueHandoverTriggered := by
  cases type <;> rfl

/-- The AMCs of the eNBs stay where they are. -/
theorem getAmcModule_registerNode {id : MacNodeId}
    (hfree : (s.binder.nodeIds (s.binder.newId type).2).isNone = true)
    (hmodule : (s.binder.modules omnetId).isNone = true)
    (h : (s.binder.getAmcModule id).isSome = true) :
    ((s.registerNode omnetId mac type masterId).binder.getAmcModule id).isSome = true := by
  unfold BinderState.getAmcModule at h ⊢
  have homnet : (s.registerNode omnetId mac type masterId).binder.getOmnetId id =
      s.binder.getOmnetId id := by
    refine LteBinder.getOmnetId_registerNode.trans (if_neg fun hid => ?_)
    have h₀ : s.binder.getOmnetId id = 0 := by
      rw [LteBinder.getOmnetId, hid, Option.isNone_iff_eq_none.1 hfree]
      rfl
    rw [if_pos h₀] at h
    cases h
  have hmodules : (s.registerNode omnetId mac type masterId).binder.modules
      (s.binder.getOmnetId id) = s.binder.modules (s.binder.getOmnetId id) := by
    refine Function.update_of_ne (fun hid => ?_) _ _
    rw [hid, Option.isNone_iff_eq_none.1 hmodule, Option.bind_none, Option.bind_none, ite_self,
      ite_self] at h
    cases h
  rwa [homnet, hmodules]

theorem Inv.registerNode (h : Inv s)
    (hfree : (s.binder.nodeIds (s.binder.newId type).2).isNone = true)
    (hmodule : (s.binder.modules omnetId).isNone = true) :
    Inv (s.registerNode omnetId mac type masterId) where
  registered u hu := by
    rw [nodeIds_registerNode]
    by_cases hid : u = (s.binder.newId type).2
    · rw [hid, Function.update_self]
      rfl
    · rw [Function.update_of_ne hid]
      exact h.registered u hu
  nextHop u ue hue := by
    have hid : u ≠ (s.binder.newId type).2 := by
      rintro rfl
      have hreg := h.registered _ (Option.isSome_of_mem hue)
      rw [Option.isNone_iff_eq_none.1 hfree] at hreg
      cases hreg
    exact (h.nextHop u ue hue).imp (getNextHop_registerNode_of_ne hid)
      (getNextHop_registerNode_of_ne hid)
  triggered u := (congrFun triggered_registerNode u).trans (h.triggered u)
  candidate u ue hue ht := getAmcModule_registerNode hfree hmodule (h.candidate u ue hue ht)
  peers := h.peers

/-- A new UE has a next hop, and no flows. -/
theorem Inv.newUe (h : Inv s) (hnew : s.ues u = none)
    (hreg : (s.binder.nodeIds u).isSome = true)
    (hhop : s.binder.getNextHop u = some masterId) :
    Inv (s.setUe u { masterId := masterId, candidateMasterId := masterId }) := by
  have hisSome : ∀ v, (s.ues v).isSome = true → ((s.setUe u
      { masterId := masterId, candidateMasterId := masterId }).ues v).isSome = true := by
    intro v hv
    by_cases hvu : v = u
    · subst hvu
      simp [setUe]
    · simpa [setUe, hvu] using hv
  constructor
  · intro v hv
    by_cases hvu : v = u
    · subst hvu
      exact hreg
    · exact h.registered v (by simpa [setUe, hvu] using hv)
  · intro v ue hue
    by_cases hvu : v = u
    · subst hvu
      obtain rfl : _ = ue := by simpa [setUe] using hue
      exact .inl hhop
    · exact h.nextHop v ue (by simpa [setUe, hvu] using hue)
  · intro v
    refine (h.triggered v).trans ?_
    by_cases hvu : v = u
    · subst hvu
      simp [setUe, hnew]
    · simp [setUe, hvu]
  · intro v ue hue ht
    by_cases hvu : v = u
    · subst hvu
      obtain rfl : _ = ue := by simpa [setUe] using hue
      cases ht
    · exact h.candidate v ue (by simpa [setUe, hvu] using hue) ht
  · intro src dst hsome
    obtain ⟨hsrc, hdst⟩ := h.peers src dst hsome
    exact ⟨hisSome src hsrc, hisSome dst hdst⟩

end NewNode

/-! ### Handovers -/

/-- As the candidate is an eNB, the handover is not given up. -/
theorem doHandover_of_candidate
    (h : (s.binder.getAmcModule ue.candidateMasterId).isSome = true) :
    s.doHandover u ue = (s.setBinder ((s.binder.toLteBinder.unregisterNextHop ue.masterId
      u).removeUeHandoverTriggered u)).setUe u { ue with
        masterId := ue.candidateMasterId
        handoverTrigger := false
        doModeSwitchAtHandover := true } := by
  have htype := nodeType_of_getAmcModule h
  have hamc : ¬(s.binder.getAmcModule ue.candidateMasterId).isNone = true := by
    rw [Option.isNone_iff_eq_none, ← Option.not_isSome_iff_eq_none, not_not]
    exact h
  simp only [doHandover, switchCell]
  rw [if_neg (not_not.2 htype), if_neg hamc]

theorem Inv.triggerHandover (h : Inv s) (hue : s.ues u = some ue) {id : MacNodeId}
    (hcandidate : (s.binder.getAmcModule id).isSome = true)
    (hst : s.triggerHandover u { ue with candidateMasterId := id } = some s') : Inv s' := by
  unfold D2DNet.triggerHandover at hst
  split_ifs at hst
  cases hst
  have hinv : Inv { s with
      binder := D2DModeSelectionBestCqi.doModeSwitchAtHandover u false s.binder } := h.mapModes _
  exact hinv.update hue rfl (fun v hv => ⟨rfl, Function.update_of_ne hv _ _⟩)
    (h.nextHop u ue hue) (Function.update_self ..) fun _ => hcandidate

theorem Inv.doHandover (h : Inv s) (hue : s.ues u = some ue) (ht : ue.handoverTrigger = true) :
    Inv (s.doHandover u ue) := by
  rw [doHandover_of_candidate (h.candidate u ue hue ht)]
  refine h.update hue rfl (fun v hv => ⟨?_, Function.update_of_ne hv _ _⟩) ?_
    (Function.update_self ..) fun hf => by cases hf
  · exact LteBinder.getNextHop_unregisterNextHop_of_ne (m := ue.masterId) hv
  · obtain hhop | hhop := h.nextHop u ue hue
    · exact .inr (LteBinder.getNextHop_unregisterNextHop_of_some (m := ue.masterId) hhop)
    · exact .inr (LteBinder.getNextHop_unregisterNextHop_of_some (m := ue.masterId) hhop)

theorem step_eq_some {e : Event} {o : List Empty} (hst : machine.step s e = some (s', o)) :
    s.handle e = some s' ∧ o = [] := by
  obtain ⟨s₁, h₁, heq⟩ := Option.map_eq_some_iff.1 hst
  obtain ⟨rfl, rfl⟩ := Prod.mk.inj heq
  exact ⟨h₁, rfl⟩

/-- **What the binder knows of the UEs stays right**, whatever happens. -/
theorem Inv.handle (h : Inv s) {e : Event} (hst : s.handle e = some s') : Inv s' := by
  cases e with
  | registerEnb omnetId mac =>
    simp only [D2DNet.handle] at hst
    split_ifs at hst with hfree
    cases hst
    exact h.registerNode hfree.1 hfree.2.2
  | registerUe omnetId mac masterId =>
    simp only [D2DNet.handle] at hst
    split_ifs at hst with hfree
    cases hst
    -- the id of a new UE is not in use
    have hnew : s.ues s.binder.ueCounter = none := by
      by_contra hne
      have hreg := h.registered _ (Option.isSome_iff_ne_none.2 hne)
      rw [Option.isNone_iff_eq_none.1 hfree.1] at hreg
      cases hreg
    have hinv : Inv (s.registerNode omnetId mac .UE masterId) :=
      h.registerNode hfree.1 hfree.2.2
    refine hinv.newUe hnew ?_ ?_
    · rw [nodeIds_registerNode]
      show (Function.update s.binder.nodeIds s.binder.ueCounter (some omnetId)
        s.binder.ueCounter).isSome = true
      rw [Function.update_self]
      rfl
    · exact LteBinder.getNextHop_registerNextHop_self
  | checkD2DCapability src dst =>
    simp only [D2DNet.handle] at hst
    split_ifs at hst with hues
    obtain ⟨b, hb, rfl⟩ := Option.map_eq_some_iff.1 hst
    obtain ⟨cache, rfl, -⟩ | ⟨cache, mode, rfl, -⟩ :=
      BinderState.checkD2DCapability_cases (toOption_eq_some.1 hb)
    · exact h.congr rfl rfl h.peers
    · refine h.congr rfl rfl fun src' dst' hsome => ?_
      by_cases hpair : src' = src ∧ dst' = dst
      · rw [hpair.1, hpair.2]
        exact hues
      · refine h.peers src' dst' ?_
        rwa [BinderState.setMode_of_ne hpair] at hsome
  | modeSelectionTick cellId bitsUl bitsD2D =>
    simp only [D2DNet.handle] at hst
    split_ifs at hst
    cases hst
    exact h.mapModes _
  | triggerHandover u candidateMasterId =>
    obtain ⟨ue, hue, hst⟩ := Option.bind_eq_some_iff.1 hst
    split_ifs at hst with hcandidate
    exact h.triggerHandover hue hcandidate.2 hst
  | doHandover u =>
    obtain ⟨ue, hue, hst⟩ := Option.bind_eq_some_iff.1 hst
    split_ifs at hst with ht
    cases hst
    exact h.doHandover hue ht
  | doModeSwitchAtHandover u =>
    obtain ⟨ue, hue, hst⟩ := Option.bind_eq_some_iff.1 hst
    split_ifs at hst
    cases hst
    refine h.update hue rfl (fun v _ => ⟨rfl, rfl⟩) (h.nextHop u ue hue) ?_
      (h.candidate u ue hue)
    rw [h.triggered, hue]
    rfl

/-! ### Direct flows -/

theorem nextMasterId_setUe (hue : s.ues u = some ue) (ue' : LtePhyUeD2D)
    (h : ue'.nextMasterId = ue.nextMasterId) (v : MacNodeId) :
    ((s.setUe u ue').ues v).map (·.nextMasterId) = (s.ues v).map (·.nextMasterId) := by
  by_cases hv : v = u
  · subst hv
    simp [setUe, hue, h]
  · simp [setUe, hv]

/-- At the start of a handover the flows of the UE leave direct mode. -/
theorem direct_of_switch {b : BinderState} {src dst : MacNodeId}
    (h : (D2DModeSelectionBestCqi.doModeSwitchAtHandover u false b).d2dPeeringMap src dst =
      some .DM) :
    b.d2dPeeringMap src dst = some .DM ∧ src ≠ u ∧ dst ≠ u := by
  obtain ⟨mode, hmode, h⟩ := BinderState.mapModes_eq_some h
  by_cases hu : src ≠ u ∧ dst ≠ u
  · rw [if_pos hu] at h
    exact ⟨h ▸ hmode, hu⟩
  · rw [if_neg hu] at h
    cases mode <;> simp at h

/-- The mode selection of an eNB makes a flow direct only if both peers are in its cell. -/
theorem Inv.direct_of_selection (h : Inv s) {cellId src dst : MacNodeId}
    {bitsUl bitsD2D : MacNodeId → ℕ} (hcell : cellId ≠ 0)
    (hdm : (D2DModeSelectionBestCqi.doModeSelection cellId bitsUl bitsD2D
      s.binder).d2dPeeringMap src dst = some .DM) :
    s.binder.d2dPeeringMap src dst = some .DM ∨
      (s.ues src).map (·.nextMasterId) = (s.ues dst).map (·.nextMasterId) := by
  -- a UE whose next hop is the eNB has not moved, and one without handover does not move
  have hserved : ∀ v, (s.ues v).isSome = true → s.binder.getNextHop v = some cellId →
      s.binder.ueHandoverTriggered v = false →
      (s.ues v).map (·.nextMasterId) = some cellId := by
    intro v hv hhop htriggered
    obtain ⟨ue, hue⟩ := Option.isSome_iff_exists.1 hv
    rw [h.triggered, hue, Option.any_some] at htriggered
    have hmaster : cellId = ue.masterId := by
      obtain hm | hm := h.nextHop v ue hue
      · exact Option.some.inj (hhop.symm.trans hm)
      · exact absurd (Option.some.inj (hhop.symm.trans hm)) hcell
    rw [hue, Option.map_some, LtePhyUeD2D.nextMasterId, htriggered, if_neg Bool.false_ne_true,
      hmaster]
  obtain ⟨mode, hmode, hdm⟩ := BinderState.mapModes_eq_some hdm
  obtain ⟨hsrc, hdst⟩ := h.peers src dst (hmode ▸ rfl)
  split_ifs at hdm with h₁ h₂ h₃
  · exact .inl (hdm ▸ hmode)
  · exact .inl (hdm ▸ hmode)
  · exact .inl (hdm ▸ hmode)
  · obtain ⟨htd, hts⟩ := Bool.or_eq_false_iff.1 (Bool.eq_false_iff.2 h₃)
    rw [hserved src hsrc (not_not.1 h₁) hts, hserved dst hdst (not_not.1 h₂) htd]
    exact .inr rfl

/-- **Direct flows stay direct within a cell**, as long as those that are entered are. -/
theorem DirectNext.handle (h : s.DirectNext) (hinv : Inv s) {e : Event}
    (hC : s.EntersWithinCell e) (hst : s.handle e = some s') : s'.DirectNext := by
  intro src dst hdm
  cases e with
  | registerEnb omnetId mac =>
    simp only [D2DNet.handle] at hst
    split_ifs at hst
    cases hst
    exact h src dst hdm
  | registerUe omnetId mac masterId =>
    simp only [D2DNet.handle] at hst
    split_ifs at hst with hfree
    cases hst
    have hold : s.binder.d2dPeeringMap src dst = some .DM := hdm
    -- a new UE has no mode with anyone
    have hne : ∀ v, (s.ues v).isSome = true → v ≠ s.binder.ueCounter := by
      rintro v hv rfl
      have hreg := hinv.registered _ hv
      rw [Option.isNone_iff_eq_none.1 hfree.1] at hreg
      cases hreg
    obtain ⟨hsrc, hdst⟩ := hinv.peers src dst (hold ▸ rfl)
    simpa [setUe, registerNode, hne src hsrc, hne dst hdst] using h src dst hold
  | checkD2DCapability src' dst' =>
    simp only [D2DNet.handle] at hst
    split_ifs at hst with hues
    obtain ⟨b, hb, rfl⟩ := Option.map_eq_some_iff.1 hst
    obtain ⟨cache, rfl, -⟩ | ⟨cache, mode, rfl, -, hmode⟩ :=
      BinderState.checkD2DCapability_cases (toOption_eq_some.1 hb)
    · exact h src dst hdm
    · -- only the pair asked for can have got the direct mode
      by_cases hpair : src = src' ∧ dst = dst'
      · obtain ⟨rfl, rfl⟩ := hpair
        rw [BinderState.setMode_self] at hdm
        exact hC (hmode.1 (Option.some.inj hdm))
      · rw [BinderState.setMode_of_ne hpair] at hdm
        exact h src dst hdm
  | modeSelectionTick cellId bitsUl bitsD2D =>
    simp only [D2DNet.handle] at hst
    split_ifs at hst with hcell
    -- the selection of a cell looks at the next hops of its own UEs
    cases hst
    obtain hold | hsame := hinv.direct_of_selection (ne_zero_of_getAmcModule hcell) hdm
    · exact h src dst hold
    · exact hsame
  | triggerHandover u candidateMasterId =>
    obtain ⟨ue, hue, hst⟩ := Option.bind_eq_some_iff.1 hst
    split_ifs at hst with hcandidate
    unfold D2DNet.triggerHandover at hst
    split_ifs at hst
    cases hst
    -- the handover switches the pairs of its UE to infrastructure mode
    obtain ⟨hold, hsrc, hdst⟩ := direct_of_switch hdm
    simpa [setUe, setBinder, hsrc, hdst] using h src dst hold
  | doHandover u =>
    obtain ⟨ue, hue, hst⟩ := Option.bind_eq_some_iff.1 hst
    split_ifs at hst with ht
    cases hst
    rw [doHandover_of_candidate (hinv.candidate u ue hue ht)] at hdm ⊢
    -- the UE arrives where it was going, so the cell it is bound for stays
    have hnext := nextMasterId_setUe hue { ue with
      masterId := ue.candidateMasterId
      handoverTrigger := false
      doModeSwitchAtHandover := true } (by simp [LtePhyUeD2D.nextMasterId, ht])
    exact (hnext src).trans ((h src dst hdm).trans (hnext dst).symm)
  | doModeSwitchAtHandover u =>
    obtain ⟨ue, hue, hst⟩ := Option.bind_eq_some_iff.1 hst
    split_ifs at hst
    cases hst
    have hnext := nextMasterId_setUe hue { ue with doModeSwitchAtHandover := false } rfl
    exact (hnext src).trans ((h src dst hdm).trans (hnext dst).symm)

/-! ### Runs -/

theorem Inv.exec {es : List Event} {os : List Empty} (h : Inv s)
    (hex : machine.exec s es = some (s', os)) : Inv s' :=
  Machine.exec_invariant h (fun _ _ _ _ hinv hst => hinv.handle (step_eq_some hst).1) hex

/-- A UE is not in a handover. -/
def Settled (s : D2DNet) (u : MacNodeId) : Prop := ∀ ue ∈ s.ues u, ue.handoverTrigger = false

/-- The handover of a UE comes to its end, if it is in one.  Nothing else changes. -/
theorem Inv.settles (h : Inv s) (u : MacNodeId) :
    ∃ (us : List MacNodeId) (s' : D2DNet),
      machine.exec s (us.map .doHandover) = some (s', []) ∧ s'.Settled u ∧
      (∀ v, s.Settled v → s'.Settled v) ∧
      s'.binder.d2dPeeringMap = s.binder.d2dPeeringMap ∧
      ∀ v, (s'.ues v).map (·.nextMasterId) = (s.ues v).map (·.nextMasterId) := by
  by_cases hsettled : s.Settled u
  · exact ⟨[], s, rfl, hsettled, fun _ hv => hv, rfl, fun _ => rfl⟩
  · obtain ⟨ue, hue, ht⟩ : ∃ ue, s.ues u = some ue ∧ ue.handoverTrigger = true := by
      simpa [Settled] using hsettled
    have hstep : machine.step s (.doHandover u) = some (s.doHandover u ue, []) := by
      simp [machine, D2DNet.handle, hue, ht]
    have heq := doHandover_of_candidate (u := u) (h.candidate u ue hue ht)
    have hues : (s.doHandover u ue).ues = Function.update s.ues u (some { ue with
        masterId := ue.candidateMasterId
        handoverTrigger := false
        doModeSwitchAtHandover := true }) := by
      rw [heq]
      rfl
    refine ⟨[u], s.doHandover u ue, ?_, ?_, fun v hv => ?_, ?_, fun v => ?_⟩
    · exact Machine.exec_cons_eq_some.2 ⟨_, [], [], hstep, rfl, rfl⟩
    · intro ue' hue'
      rw [hues, Function.update_self] at hue'
      obtain rfl := Option.some.inj hue'
      rfl
    · intro ue' hue'
      by_cases hvu : v = u
      · subst hvu
        exact absurd hv hsettled
      · rw [hues, Function.update_of_ne hvu] at hue'
        exact hv ue' hue'
    · rw [heq]
      rfl
    · rw [hues]
      refine nextMasterId_setUe hue _ ?_ v
      simp [LtePhyUeD2D.nextMasterId, ht]

/-- A flow that is entered in direct mode between UEs that go to different cells ends up across
them. -/
theorem Inv.across (h : Inv s) {src dst : MacNodeId}
    (hdm : s.binder.d2dPeeringMap src dst = some .DM)
    (hne : (s.ues src).map (·.nextMasterId) ≠ (s.ues dst).map (·.nextMasterId)) :
    ∃ (us : List MacNodeId) (s' : D2DNet),
      machine.exec s (us.map .doHandover) = some (s', []) ∧ ¬s'.DirectWithinCell := by
  obtain ⟨us₁, s₁, hex₁, hsrc, -, hmap₁, hnext₁⟩ := h.settles src
  have hinv₁ := h.exec hex₁
  obtain ⟨us₂, s₂, hex₂, hdst, hkept, hmap₂, hnext₂⟩ := hinv₁.settles dst
  refine ⟨us₁ ++ us₂, s₂, ?_, fun hwithin => hne ?_⟩
  · rw [List.map_append]
    exact Machine.exec_append_eq_some.2 ⟨s₁, [], [], hex₁, hex₂, rfl⟩
  · rw [← hnext₁ src, ← hnext₁ dst, ← hnext₂ src, ← hnext₂ dst]
    rw [← hmap₁, ← hmap₂] at hdm
    obtain ⟨hs, hd⟩ := (hinv₁.exec hex₂).peers src dst (hdm ▸ rfl)
    obtain ⟨a, ha⟩ := Option.isSome_iff_exists.1 hs
    obtain ⟨b, hb⟩ := Option.isSome_iff_exists.1 hd
    have hta := hkept src hsrc a ha
    have htb := hdst b hb
    have hmaster := hwithin src dst a b hdm ha hb hta htb
    simp [ha, hb, LtePhyUeD2D.nextMasterId, hta, htb, hmaster]

/-- **When direct flows stay within one cell.**  They do, in every state of a run and whenever
handovers that have begun are then carried out, exactly if every flow that a first packet enters in
direct mode is between UEs that the same eNB serves, or will serve after their handovers. -/
theorem direct_within_cell_iff (es : List Event) :
    (∀ s e s' o, machine.Takes {} es s e s' o → s.EntersWithinCell e) ↔
      ∀ (es₁ es₂ : List Event) (us : List MacNodeId) (s os), es = es₁ ++ es₂ →
        machine.exec {} (es₁ ++ us.map .doHandover) = some (s, os) → s.DirectWithinCell := by
  constructor
  · rintro hC es₁ es₂ us s os rfl hex
    obtain ⟨s₁, os₁, os₂, hex₁, hex₂, -⟩ := Machine.exec_append_eq_some.1 hex
    have hnext₁ : s₁.DirectNext := by
      refine Machine.exec_induction_of (C := fun s e => s.EntersWithinCell e)
        (J := fun _ s _ => s.DirectNext) (fun _ _ hdm => by cases hdm) ?_
        (fun s e s' o ht => hC s e s' o ht.append_right) hex₁
      intro es s os e s' o hex ih hC hst
      exact ih.handle (inv_init.exec hex) hC (step_eq_some hst).1
    -- to carry handovers out is always allowed
    have hboth : Inv s ∧ s.DirectNext := by
      refine Machine.exec_induction_of (C := fun _ e => ∃ u, e = .doHandover u)
        (J := fun _ s _ => Inv s ∧ s.DirectNext) ⟨inv_init.exec hex₁, hnext₁⟩ ?_ ?_ hex₂
      · rintro es s os e s' o - ⟨hinv, hnext⟩ ⟨u, rfl⟩ hst
        have hst := (step_eq_some hst).1
        exact ⟨hinv.handle hst, hnext.handle (e := .doHandover u) hinv trivial hst⟩
      · intro s e s' o ht
        obtain ⟨u, -, rfl⟩ := List.mem_map.1 ht.mem
        exact ⟨u, rfl⟩
    exact hboth.2.directWithinCell
  · rintro hall s e s' o ⟨es₁, es₂, os, rfl, hex, hst⟩
    cases e with
    | checkD2DCapability src dst =>
      intro henters
      by_contra hne
      have hinv := inv_init.exec hex
      obtain ⟨hhandle, rfl⟩ := step_eq_some hst
      have hinv' := hinv.handle hhandle
      simp only [D2DNet.handle] at hhandle
      split_ifs at hhandle
      obtain ⟨b, hb, rfl⟩ := Option.map_eq_some_iff.1 hhandle
      obtain ⟨cache, rfl, hnot⟩ | ⟨cache, mode, rfl, -, hmode⟩ :=
        BinderState.checkD2DCapability_cases (toOption_eq_some.1 hb)
      · exact hnot henters
      · obtain rfl := hmode.2 henters
        obtain ⟨us, s₂, hex₂, hacross⟩ := hinv'.across BinderState.setMode_self hne
        refine hacross (hall (es₁ ++ [.checkD2DCapability src dst]) es₂ us s₂ os (by simp) ?_)
        exact Machine.exec_append_eq_some.2 ⟨_, os, [], Machine.exec_concat_eq_some.2
          ⟨s, os, [], hex, hst, by simp⟩, hex₂, by simp⟩
    | registerEnb | registerUe | modeSelectionTick | triggerHandover | doHandover
    | doModeSwitchAtHandover => trivial

/-- The MAC of an eNB without users. -/
def enbMac : MacModule where
  enb := some
    { amc := some ⟨.deployed fun _ => none, .deployed fun _ => none, .deployed fun _ => none⟩
      bsrbuf := fun _ => false
      activeDl := fun _ => false
      activeUl := fun _ => false
      racStatus := fun _ => false }

/-- The MAC of a UE whose flows start in direct mode. -/
def ueMac : MacModule where
  isD2DCapable := true
  d2dInitialMode := true

/-- The eNBs `1` and `2`, with a UE in the cell of `1` and a UE in the given cell. -/
def twoCells (cell : MacNodeId) : List Event :=
  [.registerEnb 1 enbMac, .registerEnb 2 enbMac, .registerUe 3 ueMac 1, .registerUe 4 ueMac cell]

/-- Two UEs change places, and then the first one talks to the second. -/
def bothMoved : List Event :=
  twoCells 2 ++ [.triggerHandover 1025 2, .doHandover 1025, .doModeSwitchAtHandover 1025,
    .triggerHandover 1026 1, .doHandover 1026, .doModeSwitchAtHandover 1026,
    .checkD2DCapability 1025 1026]

/-- A UE talks to another one in its cell while it is leaving it. -/
def oneMoving : List Event :=
  twoCells 1 ++ [.triggerHandover 1025 2, .checkD2DCapability 1025 1026, .doHandover 1025,
    .doModeSwitchAtHandover 1025]

/-- The mode of the flow from the UE `1025` to `1026`, and of both the cell and whether they are in
a handover. -/
def flow (s : D2DNet) :
    Option LteD2DMode × Option (MacNodeId × Bool) × Option (MacNodeId × Bool) :=
  (s.binder.d2dPeeringMap 1025 1026,
    (s.ues 1025).map fun ue => (ue.masterId, ue.handoverTrigger),
    (s.ues 1026).map fun ue => (ue.masterId, ue.handoverTrigger))

theorem not_directWithinCell_of_flow
    (h : s.flow = (some .DM, some (2, false), some (1, false))) : ¬s.DirectWithinCell := by
  intro hwithin
  obtain ⟨hdm, hrest⟩ := Prod.mk.inj h
  obtain ⟨hsrc, hdst⟩ := Prod.mk.inj hrest
  obtain ⟨a, ha, hax⟩ := Option.map_eq_some_iff.1 hsrc
  obtain ⟨b, hb, hbx⟩ := Option.map_eq_some_iff.1 hdst
  obtain ⟨hma, hta⟩ := Prod.mk.inj hax
  obtain ⟨hmb, htb⟩ := Prod.mk.inj hbx
  have hsame := hwithin 1025 1026 a b hdm ha hb hta htb
  rw [hma, hmb] at hsame
  exact absurd hsame (by decide)

/-- **Direct flows across two cells**: after both UEs have moved their next hops are both `0`, and a
flow that is entered during a handover is not looked at when the handover is over. -/
theorem direct_across_cells :
    (∃ s os, machine.exec {} bothMoved = some (s, os) ∧ ¬s.DirectWithinCell) ∧
      ∃ s os, machine.exec {} oneMoving = some (s, os) ∧ ¬s.DirectWithinCell := by
  have hboth : (machine.exec {} bothMoved).map (fun r => r.1.flow) =
      some (some .DM, some (2, false), some (1, false)) := by decide +kernel
  have hone : (machine.exec {} oneMoving).map (fun r => r.1.flow) =
      some (some .DM, some (2, false), some (1, false)) := by decide +kernel
  obtain ⟨r₁, hr₁, hflow₁⟩ := Option.map_eq_some_iff.1 hboth
  obtain ⟨r₂, hr₂, hflow₂⟩ := Option.map_eq_some_iff.1 hone
  exact ⟨⟨r₁.1, r₁.2, hr₁, not_directWithinCell_of_flow hflow₁⟩,
    r₂.1, r₂.2, hr₂, not_directWithinCell_of_flow hflow₂⟩

end D2DNet

end V2nLte
