import V2nLte.Lte.Serving

/-!
# Handovers that are given up

`triggerHandover` and `doHandover` have six `return`s that give a handover up.  All of them only
take the UE out of the binder's list of handovers.  What `triggerHandover` has done before is not
undone: the UE goes on holding its packets from IP, since `signalHandoverCompleteUe` is called at
the end of `doHandover` only.

`aborted_handover_not_restored` says that after none of them the UE is back where it was.
-/

namespace V2nLte

open LteNet

/-- The UE `u` is served by `old` and in no handover, as before `triggerHandover`. -/
structure Restored (s : LteNet) (u old : MacNodeId) : Prop where
  /-- PHY and MAC have the old master and the UE holds no packets. -/
  ue : ∃ ue, s.ues u = some ue ∧ ue.ueHold = false ∧ ue.masterId = old ∧ ue.cellId = old
  /-- The binder does not list the UE. -/
  notTriggered : s.binder.ueHandoverTriggered u = false
  /-- The old master does not forward packets for the UE. -/
  notForwarded : ∀ k nic ip, s.getModule (s.binder.getOmnetId old) = some k →
    k.lteNic = some nic → nic.ip2lte = some ip → ip.hoForwarding u = none
  /-- The UE is attached in the AMC of the old master. -/
  attached : ∀ dir, s.attached old u dir
  /-- It is in the cell info of the old master. -/
  cellInfo : ∃ k c, s.getModule (s.binder.getOmnetId old) = some k ∧ k.cellInfo = some c ∧
    c.lambdaMap u = true
  /-- Its next hop is the old master. -/
  nextHop : s.binder.getNextHop u = some old

/-- A UE whose handover is under way holds its packets. -/
def Holding (s : LteNet) : Prop :=
  ∀ u ue, s.ues u = some ue → ue.handoverTrigger = true → ue.ueHold = true

variable {s s' : LteNet} {u : MacNodeId} {ue : Ue} {e : LteEvent} {o : List LteOut}
  {r : HandoverReturn}

theorem Holding.update (h : Holding s) (hues : s'.ues = Function.update s.ues u (some ue))
    (hue : ue.handoverTrigger = true → ue.ueHold = true) : Holding s' := by
  intro v uev huev
  rw [hues] at huev
  by_cases hv : v = u
  · subst hv
    rw [Function.update_self, Option.some.injEq] at huev
    exact huev ▸ hue
  · rw [Function.update_of_ne hv] at huev
    exact h v uev huev

theorem timers_hearBroadcast (s : LteNet) (ue : Ue) (src : MacNodeId) (rssi : ℚ) :
    (s.hearBroadcast ue src rssi).handoverTrigger = ue.handoverTrigger ∧
      (s.hearBroadcast ue src rssi).ueHold = ue.ueHold := by
  unfold hearBroadcast handoverHandler
  split_ifs <;> exact ⟨rfl, rfl⟩

theorem ues_registerUe (s : LteNet) (master : MacNodeId) (rssi : ℚ) (enable : Bool)
    (address : Ipv4Address) : ∃ ue, (s.registerUe master rssi enable address).ues =
      Function.update s.ues s.binder.ueCounter (some ue) ∧ ue.handoverTrigger = false ∧
        ue.handoverStarter = false := by
  have hues : ∀ (s : LteNet) (u : MacNodeId) (p : Option OmnetId) (ue : Ue),
      (((s.attachNewUe u master address).setLambda p u true).setUe u ue).ues =
        Function.update s.ues u (some ue) := by
    intro s u p ue
    rw [ues_setUe, ues_setLambda, ues_attachNewUe]
  exact ⟨_, hues (s.withUe master) _ _ _, rfl, rfl⟩

/-- After `triggerHandover` the UE holds its packets. -/
theorem ues_triggerHandover (hst : s.triggerHandover u ue = some (s', o)) :
    ∃ ue', s'.ues = Function.update s.ues u (some ue') ∧ ue'.ueHold = true ∧
      ∀ v r, .handover v r ∈ o → r.aborted = true → v = u := by
  rcases triggerHandover_cases hst with habort | ⟨⟨id, ip, rfl⟩, hscheduled⟩
  · obtain ⟨rfl, rfl⟩ := Prod.mk.inj habort
    exact ⟨_, rfl, rfl, fun v r hr _ => handover_of_mem_abort hr⟩
  · refine ⟨{ ue with ueHold := true, handoverTrigger := true }, ?_, rfl, fun v r hr ha => ?_⟩
    · rw [ues_setUe, ues_modifyModule, ues_setUe, ues_setBinder, Function.update_idem]
    · rw [hscheduled v r hr] at ha
      cases ha

theorem Holding.step (h : Holding s) (hst : lte.step s e = some (s', o)) : Holding s' := by
  cases lteStep_of_step hst with
  | registerEnb => exact h
  | @registerUe master rssi enable address =>
    obtain ⟨ue, hues, htrigger, -⟩ := ues_registerUe s master rssi enable address
    refine h.update hues fun htrue => ?_
    rw [htrigger] at htrue
    cases htrue
  | @broadcast u src rssi ue hue =>
    obtain ⟨htrigger, hhold⟩ := timers_hearBroadcast s ue src rssi
    refine h.update rfl ?_
    rw [htrigger, hhold]
    exact h u ue hue
  | handoverStarter _ _ _ hst =>
    obtain ⟨ue₁, hues, hhold, -⟩ := ues_triggerHandover hst
    exact h.update hues fun _ => hhold
  | handoverTrigger _ _ hue' hst =>
    -- the timer has just fired
    obtain ⟨ue₁, hues, htrigger, -⟩ := ues_doHandover (Function.update_self _ _ _) hst
    rw [ues_setUe, Function.update_idem] at hues
    refine h.update hues fun htrue => ?_
    rw [htrigger, hue'] at htrue
    cases htrue
  | hold hue hhold => exact h.update rfl fun _ => hhold
  | pass => exact h
  | @finishUe u ue hue =>
    intro v uev huev
    rw [ues_finishUe] at huev
    by_cases hv : v = u
    · rw [hv, Function.update_self] at huev
      cases huev
    · rw [Function.update_of_ne hv] at huev
      exact h v uev huev
  | deleteEnb => exact h

/-- After a handover has been given up the UE goes on holding its packets. -/
theorem Holding.hold_of_abort (h : Holding s) (hst : lte.step s e = some (s', o))
    (hr : .handover u r ∈ o) (ha : r.aborted = true) :
    ∃ ue, s'.ues u = some ue ∧ ue.ueHold = true := by
  cases lteStep_of_step hst with
  | handoverStarter _ _ _ hst =>
    obtain ⟨ue₁, hues, hhold, hself⟩ := ues_triggerHandover hst
    obtain rfl := hself u r hr ha
    exact ⟨ue₁, by rw [hues, Function.update_self], hhold⟩
  | @handoverTrigger _ ue _ _ _ hue htrigger hue' hst =>
    obtain ⟨ue₁, hues, -, habort⟩ := ues_doHandover (Function.update_self _ _ _) hst
    obtain ⟨rfl, hhold⟩ := habort u r hr ha
    refine ⟨ue₁, by rw [hues, Function.update_self], ?_⟩
    rw [hhold, hue']
    exact h u ue hue htrigger
  | pass => simp at hr
  | _ => cases hr

/-- **No aborted handover is undone.**  Whenever `triggerHandover` or `doHandover` gives a
handover up, in any run, the UE is not back in the state from before. -/
theorem aborted_handover_not_restored (es : List LteEvent) (s s' : LteNet) (e : LteEvent)
    (o : List LteOut) (u old : MacNodeId) (r : HandoverReturn) (ht : lte.Takes {} es s e s' o)
    (hr : .handover u r ∈ o) (ha : r.aborted = true) : ¬ Restored s' u old := by
  have hholding : Holding s := by
    refine ht.visits.invariant ?_ ?_
    · intro v ue hue
      cases hue
    · rintro s e s' o ⟨es₁, es₂, os, -, -, hst⟩ h
      exact h.step hst
  obtain ⟨es₁, es₂, os, -, -, hst⟩ := ht
  intro hrestored
  obtain ⟨ue, hue, hhold⟩ := hholding.hold_of_abort hst hr ha
  obtain ⟨ue', hue', hnot, -⟩ := hrestored.ue
  obtain rfl : ue = ue' := Option.some.inj (hue.symm.trans hue')
  rw [hhold] at hnot
  cases hnot

/-- The handover starts and the eNB 2 is deleted. -/
def candidateGone : List LteEvent := [.handoverStarter 1025, .deleteEnb 2]

theorem restored_twoCells : Restored (twoCells.setUe 1025 heardSecond) 1025 1 := by
  have hforward : ((((twoCells.setUe 1025 heardSecond).getModule
      ((twoCells.setUe 1025 heardSecond).binder.getOmnetId 1)).bind EnbModule.lteNic).bind
        EnbNic.ip2lte).map (fun ip => ip.hoForwarding 1025) = some none := by decide +kernel
  have hattached : ((twoCells.setUe 1025 heardSecond).getAmcModule 1).map
      (fun a => (a.ul.connectedUe 1025, a.dl.connectedUe 1025)) = some (some true, some true) := by
    decide +kernel
  have hcell : (((twoCells.setUe 1025 heardSecond).getModule
      ((twoCells.setUe 1025 heardSecond).binder.getOmnetId 1)).bind EnbModule.cellInfo).map
        (fun c => c.lambdaMap 1025) = some true := by decide +kernel
  refine ⟨⟨heardSecond, by rw [ues_setUe, Function.update_self], rfl, rfl, rfl⟩,
    by decide +kernel, fun k nic ip hk hnic hip => ?_, fun dir => ?_, ?_, by decide +kernel⟩
  · rw [hk, Option.bind_some, hnic, Option.bind_some, hip, Option.map_some] at hforward
    exact Option.some.inj hforward
  · obtain ⟨a, ha, hboth⟩ := Option.map_eq_some_iff.1 hattached
    obtain ⟨hul, hdl⟩ := Prod.mk.inj hboth
    refine ⟨a, ha, ?_⟩
    cases dir with
    | UL => exact hul
    | DL => exact hdl
  · obtain ⟨c, hc, hlambda⟩ := Option.map_eq_some_iff.1 hcell
    obtain ⟨k, hk, hc⟩ := Option.bind_eq_some_iff.1 hc
    exact ⟨k, c, hk, hc, hlambda⟩

theorem handoverTrigger_candidateGone : ∃ s os s',
    lte.exec (twoCells.setUe 1025 heardSecond) candidateGone = some (s, os) ∧
      lte.step s (.handoverTrigger 1025) =
        some (s', [.handover 1025 .candidateAmcMissing]) ∧
      (s'.ues 1025).map Ue.ueHold = some true := by
  have hrun : ((lte.exec (twoCells.setUe 1025 heardSecond) candidateGone).bind fun r =>
      (lte.step r.1 (.handoverTrigger 1025)).map fun r' =>
        (r'.2, (r'.1.ues 1025).map Ue.ueHold)) =
      some ([.handover 1025 .candidateAmcMissing], some true) := by decide +kernel
  obtain ⟨⟨s, os⟩, hs, hrun⟩ := Option.bind_eq_some_iff.1 hrun
  obtain ⟨⟨s', o⟩, hst, hrun⟩ := Option.map_eq_some_iff.1 hrun
  obtain ⟨rfl, hhold⟩ := Prod.mk.inj hrun
  exact ⟨s, os, s', hs, hst, hhold⟩

/-- The run up to the broadcast of the second eNB. -/
def hearsSecond : List LteEvent :=
  [.registerEnb {}, .registerEnb {}, .registerUe 1 10 true 1, .broadcast 1025 2 30]

theorem exec_hearsSecond :
    lte.exec {} hearsSecond = some (twoCells.setUe 1025 heardSecond, []) := by
  have hsplit : hearsSecond =
      [.registerEnb {}, .registerEnb {}, .registerUe 1 10 true 1] ++ [.broadcast 1025 2 30] := rfl
  rw [hsplit]
  exact Machine.exec_concat_eq_some.2 ⟨twoCells, [], [], exec_twoCells, broadcast_twoCells, rfl⟩

theorem aborted_handover_not_restored_candidateGone : ∃ s s' o,
    lte.Takes {} (hearsSecond ++ candidateGone ++ [.handoverTrigger 1025]) s
      (.handoverTrigger 1025) s' o ∧ .handover 1025 .candidateAmcMissing ∈ o ∧
      ¬ Restored s' 1025 1 := by
  obtain ⟨s, os, s', hs, hst, -⟩ := handoverTrigger_candidateGone
  have ht := Machine.takes_concat
    (Machine.exec_append_eq_some.2 ⟨_, _, _, exec_hearsSecond, hs, rfl⟩) hst
  have hr : LteOut.handover 1025 .candidateAmcMissing ∈
      [LteOut.handover 1025 .candidateAmcMissing] := List.mem_singleton_self _
  exact ⟨s, s', _, ht, hr, aborted_handover_not_restored _ s s' _ _ 1025 1 _ ht hr rfl⟩

/-- The eNB 2 is deleted while a UE is on its way there: after the abort the UE, which was well
served before, goes on holding its packets. -/
theorem hold_kept_after_abort : ∃ s os s₁ os₁ s', lte.exec {} hearsSecond = some (s, os) ∧
    Restored s 1025 1 ∧ lte.exec s candidateGone = some (s₁, os₁) ∧
    lte.step s₁ (.handoverTrigger 1025) = some (s', [.handover 1025 .candidateAmcMissing]) ∧
    ¬ Restored s' 1025 1 := by
  obtain ⟨s, os, s', hs, hst, hhold⟩ := handoverTrigger_candidateGone
  refine ⟨_, _, s, os, s', exec_hearsSecond, restored_twoCells, hs, hst, fun hrestored => ?_⟩
  obtain ⟨ue, hue, hnot, -⟩ := hrestored.ue
  rw [hue, Option.map_some, hnot] at hhold
  cases hhold

end V2nLte
