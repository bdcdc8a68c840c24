import V2nLte.Lte.Abort

/-!
# The timers of a handover

`LtePhyUe` decides on handovers.  A broadcast of an eNB that is stronger than the candidate, by the
hysteresis, makes it the new candidate and schedules `handoverStarter`; when that fires,
`triggerHandover` schedules `handoverTrigger`; when that fires, `doHandover` enters the new cell.
Both can be left early, depending on what they find of the network.

* `LtePhyUe.machine` : the module, for any answers of the network.
* `LtePhyUe.handover_safe` : in every run the two timers exclude each other, one handover is under
  way at most and the assertion of `triggerHandover` holds.
* `LteNet.handover_safe_network` : so it is for every UE of the network.
-/

namespace V2nLte

/-- What the handover uses of `LtePhyUe`. -/
structure LtePhyUe where
  /-- The UE may change its cell. -/
  enableHandover : Bool := true
  /-- The RSSI is divided by it to get the threshold. -/
  hysteresisFactor : ℚ := 10
  /-- The cell of the UE. -/
  masterId : MacNodeId
  /-- The best cell so far. -/
  candidateMasterId : MacNodeId
  /-- The RSSI of the cell. -/
  currentMasterRssi : ℚ
  /-- The RSSI of the candidate. -/
  candidateMasterRssi : ℚ
  /-- By how much a candidate has to be better. -/
  hysteresisTh : ℚ := 0
  /-- `handoverStarter` is scheduled. -/
  handoverStarter : Bool := false
  /-- `handoverTrigger` is scheduled. -/
  handoverTrigger : Bool := false
  deriving DecidableEq

/-- What `doHandover` finds of the candidate. -/
structure CandidateParts where
  /-- Its AMC is found. -/
  amc : Bool := true
  /-- Its module is found. -/
  module : Bool := true
  /-- Its MAC is found. -/
  mac : Bool := true
  /-- Its cell is found. -/
  cellInfo : Bool := true

namespace LtePhyUe

variable (s : LtePhyUe)

/-- `updateHysteresisTh`. -/
def updateHysteresisTh (v : ℚ) : ℚ := if s.hysteresisFactor = 0 then 0 else v / s.hysteresisFactor

/-- `handoverHandler`: a broadcast of the node `src`. -/
def handoverHandler (src : MacNodeId) (rssi : ℚ) : LtePhyUe :=
  if !s.enableHandover then s
  else if s.candidateMasterRssi + s.hysteresisTh < rssi then
    if src = s.masterId then
      { s with
        currentMasterRssi := rssi, candidateMasterId := s.masterId
        candidateMasterRssi := rssi, hysteresisTh := s.updateHysteresisTh rssi
        handoverStarter := false }
    else if getNodeTypeById src ≠ .ENODEB then s
    else
      { s with
        candidateMasterId := src, candidateMasterRssi := rssi
        hysteresisTh := s.updateHysteresisTh rssi, handoverStarter := true }
  else if src = s.masterId then
    { s with
      currentMasterRssi := rssi, candidateMasterRssi := rssi
      hysteresisTh := s.updateHysteresisTh rssi }
  else s

/-- `handleAirFrame` for a `HANDOVERPKT`; `present` says whether the binder knows the source. -/
def handleAirFrame (src : MacNodeId) (present : Bool) (rssi : ℚ) : LtePhyUe :=
  if !present then s
  else if s.handoverTrigger then s
  else s.handoverHandler src rssi

/-- `triggerHandover`, without an answer if its assertion fails; `masterMod` says whether the module
of the master is still there. -/
def triggerHandover (masterMod : Bool) : Option (LtePhyUe × HandoverReturn) :=
  if s.masterId = s.candidateMasterId then none
  else if masterMod then some ({ s with handoverTrigger := true }, .scheduled)
  else some (s, .sourceModuleGone)

/-- The serving cell is changed. -/
def switchCell : LtePhyUe :=
  { s with
    masterId := s.candidateMasterId
    currentMasterRssi := s.candidateMasterRssi
    hysteresisTh := s.updateHysteresisTh s.candidateMasterRssi }

/-- `doHandover`. -/
def doHandover (parts : CandidateParts) : LtePhyUe × HandoverReturn :=
  if getNodeTypeById s.candidateMasterId ≠ .ENODEB then (s, .candidateNotEnb)
  else if !parts.amc then (s, .candidateAmcMissing)
  else if !parts.module then (s.switchCell, .candidateModuleGone)
  else if !parts.mac then (s.switchCell, .candidateMacMissing)
  else if !parts.cellInfo then (s.switchCell, .candidateCellInfoMissing)
  else (s.switchCell, .completed)

/-- What can happen to the module. -/
inductive Event where
  /-- A `HANDOVERPKT`. -/
  | handoverPacket (src : MacNodeId) (present : Bool) (rssi : ℚ)
  /-- The message `handoverStarter`. -/
  | handoverStarter (masterMod : Bool)
  /-- The message `handoverTrigger`. -/
  | handoverTrigger (parts : CandidateParts)

/-- The module as a machine; it puts out how `triggerHandover` and `doHandover` return. -/
def machine : Machine LtePhyUe Event HandoverReturn where
  step s
    | .handoverPacket src present rssi => some (s.handleAirFrame src present rssi, [])
    | .handoverStarter masterMod =>
      if s.handoverStarter then
        (triggerHandover { s with handoverStarter := false } masterMod).map fun r => (r.1, [r.2])
      else none
    | .handoverTrigger parts =>
      if s.handoverTrigger then
        let r := doHandover { s with handoverTrigger := false } parts
        some (r.1, [r.2])
      else none

end LtePhyUe

/-- `doHandover` has returned. -/
def HandoverReturn.ends : HandoverReturn → Bool
  | .scheduled | .sourceModuleGone => false
  | _ => true

theorem HandoverReturn.count_of_ends {r : HandoverReturn} (h : r.ends = true) :
    [r].count .scheduled + 1 = [r].countP HandoverReturn.ends := by
  cases r with
  | scheduled => cases h
  | sourceModuleGone => cases h
  | _ => rfl

namespace LtePhyUe

/-- What every event keeps. -/
structure Safe (s : LtePhyUe) : Prop where
  /-- The two timers exclude each other. -/
  timers : s.handoverStarter = true → s.handoverTrigger = false
  candidate : s.handoverStarter = true → s.candidateMasterId ≠ s.masterId

variable {s s' : LtePhyUe} {src : MacNodeId} {present masterMod : Bool} {rssi : ℚ}
  {parts : CandidateParts} {e : Event} {o os : List HandoverReturn} {r : HandoverReturn}

/-- What a broadcast does to the timers. -/
theorem handoverHandler_cases (s : LtePhyUe) (src : MacNodeId) (rssi : ℚ) :
    (s.handoverHandler src rssi).masterId = s.masterId ∧
      (s.handoverHandler src rssi).handoverTrigger = s.handoverTrigger ∧
      ((s.handoverHandler src rssi).handoverStarter = false ∨
        ((s.handoverHandler src rssi).candidateMasterId = s.candidateMasterId ∧
          (s.handoverHandler src rssi).handoverStarter = s.handoverStarter) ∨
        (src ≠ s.masterId ∧ (s.handoverHandler src rssi).candidateMasterId = src)) := by
  unfold handoverHandler
  split
  · exact ⟨rfl, rfl, .inr (.inl ⟨rfl, rfl⟩)⟩
  · split
    · split
      · exact ⟨rfl, rfl, .inl rfl⟩
      · rename_i hsrc
        split
        · exact ⟨rfl, rfl, .inr (.inl ⟨rfl, rfl⟩)⟩
        · exact ⟨rfl, rfl, .inr (.inr ⟨hsrc, rfl⟩)⟩
    · split
      · exact ⟨rfl, rfl, .inr (.inl ⟨rfl, rfl⟩)⟩
      · exact ⟨rfl, rfl, .inr (.inl ⟨rfl, rfl⟩)⟩

theorem Safe.handleAirFrame (h : s.Safe) : (s.handleAirFrame src present rssi).Safe := by
  unfold LtePhyUe.handleAirFrame
  split
  · exact h
  · split
    · exact h
    · rename_i htrigger
      obtain ⟨hmaster, hsame, hcases⟩ := handoverHandler_cases s src rssi
      constructor
      · intro _
        rw [hsame]
        exact Bool.eq_false_iff.2 htrigger
      · intro hstarter
        rw [hmaster]
        rcases hcases with hoff | ⟨hcand, hstarter'⟩ | ⟨hsrc, hcand⟩
        · rw [hoff] at hstarter
          cases hstarter
        · rw [hcand]
          exact h.candidate (hstarter'.symm.trans hstarter)
        · rw [hcand]
          exact hsrc

/-- The assertion of `triggerHandover` holds when `handoverStarter` fires. -/
theorem Safe.exists_triggerHandover (h : s.Safe) (hstarter : s.handoverStarter = true)
    (masterMod : Bool) :
    ∃ r, triggerHandover { s with handoverStarter := false } masterMod = some r := by
  unfold triggerHandover
  dsimp only
  rw [if_neg (h.candidate hstarter).symm]
  split
  · exact ⟨_, rfl⟩
  · exact ⟨_, rfl⟩

/-- When `handoverStarter` is not scheduled there is nothing to keep. -/
theorem safe_of_starter (h : s.handoverStarter = false) : s.Safe where
  timers hstarter := by rw [h] at hstarter; cases hstarter
  candidate hstarter := by rw [h] at hstarter; cases hstarter

/-- The ends of `triggerHandover`. -/
theorem triggerHandover_cases (h : s.triggerHandover masterMod = some (s', r)) :
    s'.handoverStarter = s.handoverStarter ∧
      (s'.handoverTrigger = true ∧ r = .scheduled ∨
        s'.handoverTrigger = s.handoverTrigger ∧ r = .sourceModuleGone) := by
  unfold triggerHandover at h
  split at h
  · cases h
  · split at h
    · obtain ⟨rfl, rfl⟩ := Prod.mk.inj (Option.some.inj h)
      exact ⟨rfl, .inl ⟨rfl, rfl⟩⟩
    · obtain ⟨rfl, rfl⟩ := Prod.mk.inj (Option.some.inj h)
      exact ⟨rfl, .inr ⟨rfl, rfl⟩⟩

/-- However `doHandover` ends, it does not touch the timers. -/
theorem doHandover_spec (s : LtePhyUe) (parts : CandidateParts) :
    (s.doHandover parts).1.handoverStarter = s.handoverStarter ∧
      (s.doHandover parts).1.handoverTrigger = s.handoverTrigger ∧
      (s.doHandover parts).2.ends = true := by
  unfold doHandover
  split
  · exact ⟨rfl, rfl, rfl⟩
  · split
    · exact ⟨rfl, rfl, rfl⟩
    · split
      · exact ⟨rfl, rfl, rfl⟩
      · split
        · exact ⟨rfl, rfl, rfl⟩
        · split
          · exact ⟨rfl, rfl, rfl⟩
          · exact ⟨rfl, rfl, rfl⟩

/-- **The step.**  Besides, a handover is counted as begun when it is scheduled, and as ended when
`doHandover` returns. -/
theorem Safe.step (h : s.Safe) (hst : machine.step s e = some (s', o)) :
    s'.Safe ∧ o.count .scheduled + s.handoverTrigger.toNat =
      o.countP HandoverReturn.ends + s'.handoverTrigger.toNat := by
  cases e with
  | handoverPacket src present rssi =>
    -- a broadcast may start a handover, it triggers none
    obtain ⟨rfl, rfl⟩ := Prod.mk.inj (Option.some.inj hst)
    refine ⟨h.handleAirFrame, ?_⟩
    have htrigger : (s.handleAirFrame src present rssi).handoverTrigger = s.handoverTrigger := by
      unfold LtePhyUe.handleAirFrame
      split
      · rfl
      · split
        · rfl
        · exact (handoverHandler_cases s src rssi).2.1
    rw [htrigger]
    rfl
  | handoverStarter masterMod =>
    dsimp only [machine] at hst
    split at hst
    · rename_i hstarter
      obtain ⟨⟨s₁, r⟩, hr, heq⟩ := Option.map_eq_some_iff.1 hst
      obtain ⟨rfl, rfl⟩ := Prod.mk.inj heq
      -- the start either triggers the handover or gives it up
      obtain ⟨hoff, ⟨htrigger, rfl⟩ | ⟨htrigger, rfl⟩⟩ := triggerHandover_cases hr
      · refine ⟨safe_of_starter hoff, ?_⟩
        dsimp only
        rw [h.timers hstarter, htrigger]
        rfl
      · refine ⟨safe_of_starter hoff, ?_⟩
        dsimp only
        rw [htrigger]
        rfl
    · cases hst
  | handoverTrigger parts =>
    dsimp only [machine] at hst
    -- the handover ends in some way
    split at hst
    · rename_i htrigger
      obtain ⟨rfl, rfl⟩ := Prod.mk.inj (Option.some.inj hst)
      obtain ⟨hstarter', htrigger', hends⟩ :=
        doHandover_spec { s with handoverTrigger := false } parts
      -- the two timers never run together
      have hoff : s.handoverStarter = false := by
        by_contra hon
        have hclash := h.timers (Bool.not_eq_false _ ▸ hon)
        rw [htrigger] at hclash
        cases hclash
      refine ⟨safe_of_starter (hstarter'.trans hoff), ?_⟩
      rw [htrigger, htrigger']
      exact (HandoverReturn.count_of_ends hends).trans (Nat.add_zero _).symm
    · cases hst

/-- A UE that is in no handover. -/
structure Idle (s : LtePhyUe) : Prop where
  /-- The candidate is the master. -/
  candidate : s.candidateMasterId = s.masterId
  /-- The timer that starts a handover is not set. -/
  starter : s.handoverStarter = false
  /-- Nor is the one that ends it. -/
  trigger : s.handoverTrigger = false

/-- The number of handovers under way, by how `triggerHandover` and `doHandover` have returned. -/
def underWay (os : List HandoverReturn) : ℕ := os.count .scheduled - os.countP HandoverReturn.ends

/-- **Handovers are safe.**  In every run of a UE, whatever its modules find of the network, the
two timers are never scheduled at the same time, one handover is under way at most, no more have
ended than have begun, and when `handoverStarter` is scheduled the candidate is not the master, so
that the assertion of `triggerHandover` holds. -/
theorem handover_safe {s₀ : LtePhyUe} (h₀ : s₀.Idle) {es : List Event}
    (h : machine.exec s₀ es = some (s, os)) :
    ¬(s.handoverStarter = true ∧ s.handoverTrigger = true) ∧
      os.countP HandoverReturn.ends ≤ os.count .scheduled ∧
      underWay os = s.handoverTrigger.toNat ∧
      (s.handoverStarter = true → s.candidateMasterId ≠ s.masterId ∧
        ∀ masterMod, (machine.step s (.handoverStarter masterMod)).isSome = true) := by
  have hinv : s.Safe ∧
      os.count .scheduled = os.countP HandoverReturn.ends + s.handoverTrigger.toNat := by
    refine Machine.exec_induction (J := fun _ s os => s.Safe ∧
      os.count .scheduled = os.countP HandoverReturn.ends + s.handoverTrigger.toNat) ?_ ?_ h
    · exact ⟨safe_of_starter h₀.starter, by rw [h₀.trigger]; rfl⟩
    · rintro es s os e s' o - ⟨hsafe, hcount⟩ hst
      obtain ⟨hsafe', hcount'⟩ := hsafe.step hst
      refine ⟨hsafe', ?_⟩
      rw [List.count_append, List.countP_append]
      omega
  obtain ⟨hsafe, hcount⟩ := hinv
  refine ⟨?_, by omega, ?_, fun hstarter => ⟨hsafe.candidate hstarter, fun masterMod => ?_⟩⟩
  · rintro ⟨hstarter, htrigger⟩
    rw [hsafe.timers hstarter] at htrigger
    cases htrigger
  · rw [underWay]
    omega
  · obtain ⟨r, hr⟩ := hsafe.exists_triggerHandover hstarter masterMod
    dsimp only [machine]
    rw [if_pos hstarter, hr]
    rfl

/-- A UE that is served by the eNB 1. -/
def served : LtePhyUe where
  masterId := 1
  candidateMasterId := 1
  currentMasterRssi := 0
  candidateMasterRssi := 0

/-- The eNB 2 is heard, and the handover to it is given up when the module of the eNB is gone. -/
def givenUp : List Event :=
  [.handoverPacket 2 true 20, .handoverStarter true, .handoverPacket 1 true 90,
    .handoverTrigger { module := false }, .handoverPacket 1 true 30]

theorem handover_safe_givenUp : ∃ s, machine.exec served givenUp =
      some (s, [.scheduled, .candidateModuleGone]) ∧ s.masterId = 2 ∧ s.handoverStarter = true ∧
      ¬(s.handoverStarter = true ∧ s.handoverTrigger = true) := by
  have hrun : (machine.exec served givenUp).map (fun r =>
      (r.1.masterId, r.1.handoverStarter, r.2)) =
      some (2, true, [.scheduled, .candidateModuleGone]) := by decide +kernel
  obtain ⟨⟨s, os⟩, hex, heq⟩ := Option.map_eq_some_iff.1 hrun
  obtain ⟨hmaster, hstarter, rfl⟩ : s.masterId = 2 ∧ s.handoverStarter = true ∧
      os = [.scheduled, .candidateModuleGone] := by simpa using heq
  exact ⟨s, hex, hmaster, hstarter, (handover_safe ⟨rfl, rfl, rfl⟩ hex).1⟩

end LtePhyUe

/-! ### The UEs of the network -/

/-- The part of a UE of the network that decides on handovers. -/
def Ue.phy (ue : Ue) : LtePhyUe where
  enableHandover := ue.enableHandover
  hysteresisFactor := LteNet.hysteresisFactor
  masterId := ue.masterId
  candidateMasterId := ue.candidateMasterId
  currentMasterRssi := ue.currentMasterRssi
  candidateMasterRssi := ue.candidateMasterRssi
  hysteresisTh := ue.hysteresisTh
  handoverStarter := ue.handoverStarter
  handoverTrigger := ue.handoverTrigger

namespace LteNet

variable {s s' : LteNet} {u : MacNodeId} {ue ue' : Ue} {e : LteEvent} {o : List LteOut}

theorem phy_handoverHandler (ue : Ue) (src : MacNodeId) (rssi : ℚ) :
    (handoverHandler ue src rssi).phy = ue.phy.handoverHandler src rssi := by
  unfold handoverHandler LtePhyUe.handoverHandler
  simp only [apply_ite Ue.phy]
  rfl

theorem phy_hearBroadcast (s : LteNet) (ue : Ue) (src : MacNodeId) (rssi : ℚ) :
    (s.hearBroadcast ue src rssi).phy =
      ue.phy.handleAirFrame src (s.binder.getOmnetId src ≠ 0) rssi := by
  unfold hearBroadcast LtePhyUe.handleAirFrame
  rw [apply_ite Ue.phy, apply_ite Ue.phy, phy_handoverHandler]
  by_cases h : s.binder.getOmnetId src = 0
  · rw [if_pos h]
    simp [h]
  · rw [if_neg h]
    simp [h]
    rfl

theorem phy_triggerHandover (hst : s.triggerHandover u ue = some (s', o)) :
    ∃ masterMod ue' r, s'.ues = Function.update s.ues u (some ue') ∧
      ue.phy.triggerHandover masterMod = some (ue'.phy, r) := by
  have hassert : ue.phy.masterId ≠ ue.phy.candidateMasterId := by
    intro heq
    have heq : ue.masterId = ue.candidateMasterId := heq
    rw [triggerHandover, if_pos heq] at hst
    cases hst
  rcases triggerHandover_cases hst with habort | ⟨⟨id, ip, rfl⟩, -⟩
  · obtain ⟨rfl, -⟩ := Prod.mk.inj habort
    refine ⟨false, { ue with ueHold := true }, .sourceModuleGone, rfl, ?_⟩
    rw [LtePhyUe.triggerHandover, if_neg hassert]
    rfl
  · refine ⟨true, { ue with ueHold := true, handoverTrigger := true }, .scheduled, ?_, ?_⟩
    · rw [ues_setUe, ues_modifyModule, ues_setUe, ues_setBinder, Function.update_idem]
    · rw [LtePhyUe.triggerHandover, if_neg hassert]
      rfl

theorem phy_doHandover (hue : s.ues u = some ue) (hst : s.doHandover u ue = some (s', o)) :
    ∃ parts ue', s'.ues = Function.update s.ues u (some ue') ∧
      (ue.phy.doHandover parts).1 = ue'.phy := by
  by_cases h : CarriesOut s ue
  · have hues := ues_switchCell_eq s u ue
    have hphy : ue.phy.doHandover {} = (ue.phy.switchCell, .completed) := by
      have henb : getNodeTypeById ue.phy.candidateMasterId = .ENODEB := h.1
      rw [LtePhyUe.doHandover, if_neg (not_not_intro henb)]
      rfl
    rw [doHandover_eq h hues] at hst
    rcases enterCell_cases hst with ⟨r, -, habort⟩ | ⟨⟨p, hues'⟩, -, -⟩
    · obtain ⟨rfl, -⟩ := Prod.mk.inj habort
      exact ⟨{}, _, hues, congrArg Prod.fst hphy⟩
    · rw [hues, Function.update_idem] at hues'
      exact ⟨{}, _, hues', congrArg Prod.fst hphy⟩
  · obtain ⟨r, -, habort⟩ := doHandover_of_not_carriesOut hst h
    obtain ⟨rfl, -⟩ := Prod.mk.inj habort
    refine ⟨{ amc := false }, ue, (Function.update_eq_self_iff.2 hue.symm).symm, ?_⟩
    rw [LtePhyUe.doHandover]
    split
    · rfl
    · rfl

/-- What an event of the network does to a UE, seen from its PHY. -/
inductive PhyChange : Option Ue → Option Ue → Prop
  | arrives {ue : Ue} : ue.handoverStarter = false → PhyChange none (some ue)
  | leaves {ue : Ue} : PhyChange (some ue) none
  | stays {ue ue' : Ue} : ue'.phy = ue.phy → PhyChange (some ue) (some ue')
  | event {ue ue' : Ue} (e : LtePhyUe.Event) (o : List HandoverReturn) :
      LtePhyUe.machine.step ue.phy e = some (ue'.phy, o) → PhyChange (some ue) (some ue')

/-- **A UE of the network behaves like its PHY**: an event of the network does not concern it, or
is an event of the PHY. -/
theorem phy_step (hst : lte.step s e = some (s', o)) :
    s'.ues = s.ues ∨ ∃ u w, s'.ues = Function.update s.ues u w ∧ PhyChange (s.ues u) w := by
  cases lteStep_of_step hst with
  | registerEnb => exact .inl rfl
  | @registerUe master rssi enable address _ hnew =>
    obtain ⟨ue, hues, -, hstarter⟩ := ues_registerUe s master rssi enable address
    refine .inr ⟨_, _, hues, ?_⟩
    rw [hnew]
    exact .arrives hstarter
  | @broadcast u src rssi ue hue =>
    refine .inr ⟨u, _, rfl, ?_⟩
    rw [hue]
    refine .event (.handoverPacket src (s.binder.getOmnetId src ≠ 0) rssi) [] ?_
    rw [phy_hearBroadcast]
    rfl
  -- the UE forgets the timer that has fired before it looks
  | @handoverStarter u ue ue' _ _ hue hstarter hue' hst' =>
    obtain ⟨masterMod, ue₁, r, hues, hphy⟩ := phy_triggerHandover hst'
    refine .inr ⟨u, _, hues, ?_⟩
    rw [hue]
    refine .event (.handoverStarter masterMod) [r] ?_
    subst hue'
    change (if ue.handoverStarter = true then _ else _) = _
    rw [if_pos hstarter]
    exact Option.map_eq_some_iff.2 ⟨_, hphy, rfl⟩
  | @handoverTrigger u ue ue' _ _ hue htrigger hue' hst' =>
    obtain ⟨parts, ue₁, hues, hphy⟩ := phy_doHandover (Function.update_self _ _ _) hst'
    rw [ues_setUe, Function.update_idem] at hues
    refine .inr ⟨u, _, hues, ?_⟩
    rw [hue]
    refine .event (.handoverTrigger parts) [(ue'.phy.doHandover parts).2] ?_
    subst hue'
    change (if ue.handoverTrigger = true then _ else _) = _
    rw [if_pos htrigger, ← hphy]
    rfl
  | @hold u ue pkt hue =>
    refine .inr ⟨u, _, rfl, ?_⟩
    rw [hue]
    exact .stays rfl
  | pass => exact .inl rfl
  | @finishUe u ue hue =>
    refine .inr ⟨u, _, ues_finishUe, ?_⟩
    rw [hue]
    exact .leaves
  | deleteEnb => exact .inl rfl

/-- **Handovers are safe in the network.** -/
theorem handover_safe_network {es : List LteEvent} {os : List LteOut}
    (h : lte.exec {} es = some (s, os)) : ∀ u ue, s.ues u = some ue → ue.phy.Safe := by
  refine Machine.exec_invariant (I := fun s : LteNet => ∀ u ue, s.ues u = some ue → ue.phy.Safe)
    (fun u ue hue => ?_) (fun s e s' o hs hst v ue' hue' => ?_) h
  · cases hue
  rcases phy_step hst with hsame | ⟨u, w, hues, hchange⟩
  · rw [hsame] at hue'
    exact hs v ue' hue'
  · rw [hues] at hue'
    by_cases hv : v = u
    · rw [hv, Function.update_self] at hue'
      generalize hold : s.ues u = old at hchange
      cases hchange with
      | arrives hstarter =>
        obtain rfl := Option.some.inj hue'
        exact LtePhyUe.safe_of_starter hstarter
      | leaves => cases hue'
      | stays hphy =>
        obtain rfl := Option.some.inj hue'
        rw [hphy]
        exact hs u _ hold
      | event e' o' hst' =>
        obtain rfl := Option.some.inj hue'
        exact ((hs u _ hold).step hst').1
    · rw [Function.update_of_ne hv] at hue'
      exact hs v ue' hue'

end LteNet

end V2nLte
