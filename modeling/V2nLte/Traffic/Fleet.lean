import V2nLte.Traffic.ScenarioManager
import Mathlib.Algebra.Order.BigOperators.Group.Finset

/-!
# The fleet and the road

SUMO moves the vehicles; the scenario manager learns of them only from what SUMO answers to its
subscriptions.  Here the answers fit together, as those of SUMO do: a vehicle is on the road from
its departure to its arrival, less its teleports, and each vehicle that is subscribed to reports.

* `fleet_tracks_road` : after each time step the manager is subscribed to just the vehicles on the
  road, and has just those that are in the region of interest and of a type with a module.
* `fails_iff_parked_without_module` : a time step fails exactly if a vehicle that has no module
  begins or ends a stay in a parking area; there is no other way to fail.
* `shutdown_iff` : the manager shuts down exactly after a time step in which as many vehicles have
  arrived as there were on the road, whether or not others are teleporting.
-/

namespace V2nLte

variable {V : Type} [LinearOrder V]

/-- What SUMO reports in one time step, to the subscriptions of `init_traci` and to those to
vehicles. -/
structure SumoReport (V : Type) where
  /-- The time. -/
  simTime : ℚ
  /-- The vehicles that have come onto the road. -/
  departed : List V := []
  /-- The vehicles that have left it. -/
  arrived : List V := []
  /-- The vehicles in a collision. -/
  colliding : List V := []
  /-- The vehicles that are taken from the road. -/
  teleportStarting : List V := []
  /-- The vehicles that are put back. -/
  teleportEnding : List V := []
  /-- The vehicles that begin to park. -/
  parkingStarting : List V := []
  /-- The vehicles that no longer park. -/
  parkingEnding : List V := []
  /-- The vehicles that there are. -/
  idList : List V := []
  /-- The vehicles whose subscriptions are answered. -/
  reporting : List V := []
  /-- The answers. -/
  answer : V → List VehicleVariable := fun _ => []

namespace SumoReport

variable (vType : V → String) (par : ManagerPar)

/-- The answer of SUMO, in the order of the subscriptions. -/
def timestep (r : SumoReport V) : Timestep V where
  simTime := r.simTime
  results :=
    .sim [.departed r.departed, .arrived r.arrived, .timeStep r.simTime, .colliding r.colliding,
      .teleportStarting r.teleportStarting, .teleportEnding r.teleportEnding,
      .parkingStarting r.parkingStarting, .parkingEnding r.parkingEnding] ::
    .idList r.idList :: r.reporting.map fun v => .vehicle v (r.answer v)
  answer := r.answer
  getTypeId := vType

/-- The vehicles that begin or end a stay in a parking area. -/
def parked (r : SumoReport V) : List V := r.parkingStarting ++ r.parkingEnding

/-- A vehicle is of a type that gets a module. -/
def Typed (v : V) : Bool :=
  (ScenarioManager.moduleFor par (vType v)).any fun names => names.1 ≠ "0"

/-- A vehicle is in the region of interest, and of a type that gets a module. -/
def wanted (r : SumoReport V) (v : V) : Bool :=
  (ScenarioManager.readVariables true {} (r.answer v)).any (ScenarioManager.inRoi par) &&
    Typed vType par v

/-- A vehicle reports all its variables, and a position on the playground. -/
def Readable (r : SumoReport V) (v : V) : Bool :=
  (ScenarioManager.readVariables true {} (r.answer v)).any fun st =>
    st.numRead = 8 && 0 ≤ (par.coordinateTransformation.traci2omnet st.position).x &&
      0 ≤ (par.coordinateTransformation.traci2omnet st.position).y

/-- The report fits the vehicles that have been on the road. -/
structure Orderly (road : Finset V) (r : SumoReport V) : Prop where
  nodup : r.idList.Nodup
  /-- The numbers of vehicles are unsigned numbers of 32 bits. -/
  small : road.card + r.departed.length + r.teleportEnding.length < 2 ^ 32
  /-- So many vehicles have come and gone. -/
  count : r.idList.length + r.arrived.length + r.teleportStarting.length =
    road.card + r.departed.length + r.teleportEnding.length
  leave : ∀ v ∈ road, v ∈ r.idList ∨ v ∈ r.arrived ∨ v ∈ r.teleportStarting
  report : ∀ v ∈ road, v ∈ r.idList → v ∈ r.arrived ∨ v ∈ r.reporting
  readable : ∀ v ∈ r.idList, r.Readable par v
  types : ∀ v ∈ r.idList, (ScenarioManager.moduleFor par (vType v)).isSome
  parked : ∀ v ∈ r.parked, v ∉ r.arrived ∧ v ∉ r.teleportStarting

end SumoReport

namespace ScenarioManager

open Handler

variable {vType : V → String} {par : ManagerPar} {r : SumoReport V} {s₀ s : ScenarioManager V}
  {v : V} {road gone unsub sub settled : Finset V} {c : ℕ} {b : Bool}

/-- The manager has the vehicle, with a module or without. -/
def Has (s : ScenarioManager V) (v : V) : Prop :=
  (s.hosts.find v).isSome ∨ v ∈ s.unEquippedHosts

/-! ### The vehicles that have gone -/

/-- What is left of the vehicles of `s₀` when those in `gone` have gone; `c` is the number of
vehicles and `b` whether the manager shuts down. -/
structure Swept (s₀ : ScenarioManager V) (gone unsub : Finset V) (c : ℕ) (b : Bool)
    (s : ScenarioManager V) : Prop where
  hosts : ∀ v, s.hosts.find v = if v ∈ gone then none else s₀.hosts.find v
  unEquippedHosts : s.unEquippedHosts = s₀.unEquippedHosts \ gone
  subscribedVehicles : s.subscribedVehicles = s₀.subscribedVehicles \ unsub
  activeVehicleCount : s.activeVehicleCount = c
  autoShutdownTriggered : s.autoShutdownTriggered = b

theorem giveUp_eq (v : V) (s : ScenarioManager V) :
    (giveUp v s).value = some () ∧ (giveUp v s).state = { s with
      hosts := if (s.hosts.find v).isSome then s.hosts.erase v else s.hosts
      unEquippedHosts := s.unEquippedHosts.erase v } := by
  unfold giveUp
  cases hv : s.hosts.find v with
  | none => simp [bind_apply, hv]
  | some mod => simp [bind_apply, hv, deleteManagedModule_eq hv]

theorem Swept.giveUp (h : Swept s₀ gone unsub c b s) (v : V) :
    Swept s₀ (insert v gone) unsub c b (giveUp v s).state := by
  rw [(giveUp_eq v s).2]
  refine ⟨fun w => ?_, ?_, h.subscribedVehicles, h.activeVehicleCount, h.autoShutdownTriggered⟩
  · have hfind : (if (s.hosts.find v).isSome then s.hosts.erase v else s.hosts).find w =
        if w = v then none else s.hosts.find w := by
      split
      · exact OrderedMap.find_erase _ _ _
      · rename_i hnone
        simp only [Bool.not_eq_true, Option.isSome_eq_false_iff, Option.isNone_iff_eq_none] at hnone
        split
        · rename_i hw
          rw [hw, hnone]
        · rfl
    rw [hfind, h.hosts]
    by_cases hw : w = v
    · simp [hw]
    · simp [hw]
  · rw [h.unEquippedHosts]
    ext w
    simp only [Finset.mem_erase, Finset.mem_sdiff, Finset.mem_insert]
    tauto

theorem Swept.arrive (h : Swept s₀ gone unsub c b s) (v : V) :
    (arrive v s).value = some () ∧
      Swept s₀ (insert v gone) (insert v unsub) c b (arrive v s).state := by
  have hsub : Swept s₀ gone (insert v unsub) c b
      { s with subscribedVehicles := s.subscribedVehicles.erase v } := by
    refine ⟨h.hosts, h.unEquippedHosts, ?_, h.activeVehicleCount, h.autoShutdownTriggered⟩
    rw [h.subscribedVehicles]
    ext w
    simp only [Finset.mem_erase, Finset.mem_sdiff, Finset.mem_insert]
    tauto
  have hgive := giveUp_eq v { s with subscribedVehicles := s.subscribedVehicles.erase v }
  unfold ScenarioManager.arrive
  rw [bind_apply]
  exact ⟨hgive.1, hsub.giveUp v⟩

variable {E : ScenarioManager V → List (ManagerEffect V) → Prop} {ids : List V}

theorem swept_arrive_all : Triple (fun s _ => Swept s₀ gone unsub c b s) (eachOf arrive ids)
    (fun _ s _ => Swept s₀ (gone ∪ ids.toFinset) (unsub ∪ ids.toFinset) c b s) E := by
  refine Triple.pre ?_ (Triple.eachOf (I := fun l s _ =>
    Swept s₀ (gone ∪ l.toFinset) (unsub ∪ l.toFinset) c b s) fun l₁ v l₂ _ => ?_)
  · intro s _ h
    simpa using h
  · refine Triple.of_returns fun s _ h => ⟨(), (h.arrive v).1, ?_⟩
    have hnext := (h.arrive v).2
    rwa [← Finset.union_insert, ← Finset.union_insert, ← List.toFinset_cons,
      List.toFinset_eq_of_perm _ _ (List.perm_append_singleton v l₁).symm] at hnext

theorem swept_giveUp_all : Triple (fun s _ => Swept s₀ gone unsub c b s) (eachOf giveUp ids)
    (fun _ s _ => Swept s₀ (gone ∪ ids.toFinset) unsub c b s) E := by
  refine Triple.pre ?_ (Triple.eachOf (I := fun l s _ =>
    Swept s₀ (gone ∪ l.toFinset) unsub c b s) fun l₁ v l₂ _ => ?_)
  · intro s _ h
    simpa using h
  · refine Triple.of_returns fun s _ h => ⟨(), (giveUp_eq v s).1, ?_⟩
    have hnext := h.giveUp v
    rwa [← Finset.union_insert, ← List.toFinset_cons,
      List.toFinset_eq_of_perm _ _ (List.perm_append_singleton v l₁).symm] at hnext

/-- A vehicle can begin or end its stay in a parking area exactly if it has a module. -/
theorem swept_park_all {parked : Bool} (hids : ∀ v ∈ ids, v ∉ gone) :
    Triple (fun s _ => Swept s₀ gone unsub c b s) (eachOf (park parked) ids)
      (fun _ s _ => Swept s₀ gone unsub c b s ∧ ∀ v ∈ ids, (s₀.hosts.find v).isSome)
      (fun _ _ => ∃ v ∈ ids, s₀.hosts.find v = none) := by
  refine Triple.pre ?_ (Triple.eachOf (I := fun l s _ =>
    Swept s₀ gone unsub c b s ∧ ∀ v ∈ l, (s₀.hosts.find v).isSome) fun l₁ v l₂ hl => ?_)
  · intro s _ h
    exact ⟨h, by simp⟩
  · have hv : v ∈ ids := by simp [hl]
    rintro s os ⟨h, hdone⟩
    have hfind := h.hosts v
    rw [if_neg (hids v hv)] at hfind
    unfold park
    rw [bind_apply]
    simp only [get_apply, hfind]
    cases hmod : s₀.hosts.find v with
    | none => exact ⟨v, hv, hmod⟩
    | some mod =>
      refine ⟨h, fun w hw => ?_⟩
      rcases List.mem_append.1 hw with hw | hw
      · exact hdone w hw
      · rw [List.mem_singleton.1 hw, hmod]
        rfl

theorem swept_collide_all : Triple (fun s _ => Swept s₀ gone unsub c b s) (eachOf collide ids)
    (fun _ s _ => Swept s₀ gone unsub c b s) E := by
  refine Triple.eachOf (I := fun _ s _ => Swept s₀ gone unsub c b s) fun l₁ v l₂ _ => ?_
  refine Triple.of_returns fun s _ h => ?_
  unfold collide
  rw [bind_apply]
  simp only [get_apply]
  cases s.hosts.find v with
  | none => exact ⟨(), rfl, h⟩
  | some mod => exact ⟨(), rfl, h⟩

/-- The manager shuts down after this report. -/
def ShutsDown (par : ManagerPar) (road : Finset V) (r : SumoReport V) : Prop :=
  par.autoShutdown = true ∧ r.arrived ≠ [] ∧ road.card + r.departed.length ≤ r.arrived.length

instance : Decidable (ShutsDown par road r) := inferInstanceAs (Decidable (_ ∧ _ ∧ _))

/-- Parking changes nothing, and every vehicle that parks has a module. -/
theorem parking_spec {gone arrived : Finset V} {n : ℕ} {b : Bool}
    (hgone : ∀ v ∈ r.parked, v ∉ gone) :
    Triple (fun s _ => Swept s₀ gone arrived n b s)
      (eachOf (processSimVariable par (r.timestep vType))
        [.parkingStarting r.parkingStarting, .parkingEnding r.parkingEnding])
      (fun _ s _ => Swept s₀ gone arrived n b s ∧ ∀ v ∈ r.parked, (s₀.hosts.find v).isSome)
      (fun _ _ => ∃ v ∈ r.parked, s₀.hosts.find v = none) := by
  refine Triple.eachOf_cons (fun s _ => Swept s₀ gone arrived n b s ∧
    ∀ v ∈ r.parkingStarting, (s₀.hosts.find v).isSome) ?_ ?_
  · refine Triple.bind (Triple.throws ?_ (swept_park_all fun v hv => hgone v ?_)) fun _ =>
      Triple.modify fun s _ h => ?_
    · rintro s - ⟨v, hv, hnone⟩
      exact ⟨v, List.mem_append_left _ hv, hnone⟩
    · exact List.mem_append_left _ hv
    · exact ⟨⟨h.1.hosts, h.1.unEquippedHosts, h.1.subscribedVehicles, h.1.activeVehicleCount,
        h.1.autoShutdownTriggered⟩, h.2⟩
  refine Triple.eachOf_cons (fun s _ => Swept s₀ gone arrived n b s ∧
    ∀ v ∈ r.parked, (s₀.hosts.find v).isSome) ?_ Triple.eachOf_nil
  refine Triple.bind (Triple.throws ?_ (Triple.frame (swept_park_all fun v hv => hgone v ?_)))
    fun _ => Triple.modify fun s _ h => ?_
  · rintro s - ⟨v, hv, hnone⟩
    exact ⟨v, List.mem_append_right _ hv, hnone⟩
  · exact List.mem_append_right _ hv
  · exact ⟨⟨h.1.1.hosts, h.1.1.unEquippedHosts, h.1.1.subscribedVehicles,
      h.1.1.activeVehicleCount, h.1.1.autoShutdownTriggered⟩,
      List.forall_mem_append.2 ⟨h.2, h.1.2⟩⟩

/-- What the variables of the simulation do. -/
theorem sim_spec (ho : r.Orderly vType par road) (hcount : s₀.activeVehicleCount = road.card) :
    Triple (fun s _ => s = s₀)
      (eachOf (processSimVariable par (r.timestep vType))
        [.departed r.departed, .arrived r.arrived, .timeStep r.simTime, .colliding r.colliding,
          .teleportStarting r.teleportStarting, .teleportEnding r.teleportEnding,
          .parkingStarting r.parkingStarting, .parkingEnding r.parkingEnding])
      (fun _ s _ => Swept s₀ (r.arrived.toFinset ∪ r.teleportStarting.toFinset) r.arrived.toFinset
          r.idList.length (s₀.autoShutdownTriggered || decide (ShutsDown par road r)) s ∧
        ∀ v ∈ r.parked, (s₀.hosts.find v).isSome)
      (fun _ _ => ∃ v ∈ r.parked, s₀.hosts.find v = none) := by
  have hsmall := ho.small
  have hnum := ho.count
  generalize hdown : (s₀.autoShutdownTriggered || decide (ShutsDown par road r)) = b'
  have hgone : ∀ v ∈ r.parked, v ∉ ∅ ∪ r.arrived.toFinset ∪ r.teleportStarting.toFinset := by
    intro v hv
    obtain ⟨harrived, hteleport⟩ := ho.parked v hv
    simp [harrived, hteleport]
  -- the number of vehicles after each of the variables
  let c₁ := road.card + r.departed.length
  let c₂ := sub32 c₁ r.arrived.length
  let c₃ := sub32 c₂ r.teleportStarting.length
  have hlast : u32 (c₃ + r.teleportEnding.length) = r.idList.length := by
    simp only [c₃, c₂, c₁, sub32, u32]
    omega
  refine Triple.eachOf_cons (fun s _ => Swept s₀ ∅ ∅ c₁ s₀.autoShutdownTriggered s) ?_ ?_
  · refine Triple.modify fun s _ h => ?_
    subst h
    have hu : u32 (s.activeVehicleCount + r.departed.length) = c₁ := by
      rw [hcount, u32_of_lt (by omega)]
    refine ⟨by simp, by simp, by simp, hu, rfl⟩
  refine Triple.eachOf_cons
    (fun s _ => Swept s₀ (∅ ∪ r.arrived.toFinset) (∅ ∪ r.arrived.toFinset) c₂ b' s) ?_ ?_
  · refine Triple.bind swept_arrive_all fun _ => Triple.modify fun s _ h => ?_
    refine ⟨h.hosts, h.unEquippedHosts, h.subscribedVehicles, ?_, ?_⟩
    · simp only [h.activeVehicleCount, c₂]
    · have hshut : (0 < r.arrived.length && c₁ ≤ r.arrived.length && par.autoShutdown) =
          decide (ShutsDown par road r) := by
        rw [Bool.eq_iff_iff, decide_eq_true_iff, ShutsDown]
        simp only [c₁, Bool.and_eq_true, decide_eq_true_eq, List.length_pos_iff]
        tauto
      simp only [h.activeVehicleCount, h.autoShutdownTriggered, hshut, hdown]
  refine Triple.eachOf_cons
    (fun s _ => Swept s₀ (∅ ∪ r.arrived.toFinset) (∅ ∪ r.arrived.toFinset) c₂ b' s) ?_ ?_
  · have htime : processSimVariable par (r.timestep vType) (.timeStep r.simTime) = pure () := by
      simp [processSimVariable, assert, SumoReport.timestep]
    rw [htime]
    exact Triple.pure fun _ _ h => h
  refine Triple.eachOf_cons
    (fun s _ => Swept s₀ (∅ ∪ r.arrived.toFinset) (∅ ∪ r.arrived.toFinset) c₂ b' s)
    swept_collide_all ?_
  refine Triple.eachOf_cons (fun s _ => Swept s₀
    (∅ ∪ r.arrived.toFinset ∪ r.teleportStarting.toFinset) (∅ ∪ r.arrived.toFinset) c₃ b' s) ?_ ?_
  · refine Triple.bind swept_giveUp_all fun _ => Triple.modify fun s _ h => ?_
    refine ⟨h.hosts, h.unEquippedHosts, h.subscribedVehicles, ?_, h.autoShutdownTriggered⟩
    simp only [h.activeVehicleCount, c₃]
  let Left (s : ScenarioManager V) : Prop := Swept s₀
    (∅ ∪ r.arrived.toFinset ∪ r.teleportStarting.toFinset) (∅ ∪ r.arrived.toFinset)
    r.idList.length b' s
  refine Triple.eachOf_cons (fun s _ => Left s) ?_ ?_
  · refine Triple.modify fun s _ h => ?_
    refine ⟨h.hosts, h.unEquippedHosts, h.subscribedVehicles, ?_, h.autoShutdownTriggered⟩
    simp only [h.activeVehicleCount, hlast]
  refine Triple.post ?_ (parking_spec hgone)
  rintro - s - ⟨h, hparked⟩
  refine ⟨?_, hparked⟩
  simpa only [Left, Finset.empty_union] using h

/-! ### The vehicles that report -/

/-- The manager is subscribed to the vehicles in `sub`, it has the right ones of those in `settled`,
and no vehicle that is not on the road. -/
structure Stage (vType : V → String) (par : ManagerPar) (r : SumoReport V) (b : Bool)
    (sub settled : Finset V) (s : ScenarioManager V) : Prop where
  subscribedVehicles : s.subscribedVehicles = sub
  known : ∀ v, s.Has v → v ∈ r.idList ∧ SumoReport.Typed vType par v = true
  apart : ∀ v ∈ s.unEquippedHosts, s.hosts.find v = none
  settled : ∀ v ∈ settled, s.Has v ↔ r.wanted vType par v = true
  activeVehicleCount : s.activeVehicleCount = r.idList.length
  autoShutdownTriggered : s.autoShutdownTriggered = b

/-- Nothing but what concerns `v` has changed, and that is settled. -/
theorem Stage.change (h : Stage vType par r b sub settled s) (hv : v ∈ r.idList)
    {s' : ScenarioManager V}
    (hbooks : s'.subscribedVehicles = s.subscribedVehicles ∧
      s'.activeVehicleCount = s.activeVehicleCount ∧
      s'.autoShutdownTriggered = s.autoShutdownTriggered)
    (hother : ∀ w, w ≠ v → s'.hosts.find w = s.hosts.find w ∧
      (w ∈ s'.unEquippedHosts ↔ w ∈ s.unEquippedHosts))
    (hapart : v ∈ s'.unEquippedHosts → s'.hosts.find v = none)
    (hsettled : s'.Has v ↔ r.wanted vType par v = true) :
    Stage vType par r b sub (insert v settled) s' := by
  have hhas : ∀ w, w ≠ v → (s'.Has w ↔ s.Has w) := by
    intro w hw
    obtain ⟨hfind, hmem⟩ := hother w hw
    rw [Has, Has, hfind, hmem]
  refine ⟨hbooks.1.trans h.subscribedVehicles, fun w hw => ?_, fun w hw => ?_, fun w hw => ?_,
    hbooks.2.1.trans h.activeVehicleCount, hbooks.2.2.trans h.autoShutdownTriggered⟩
  · by_cases heq : w = v
    · subst heq
      have hwanted := hsettled.1 hw
      rw [SumoReport.wanted, Bool.and_eq_true] at hwanted
      exact ⟨hv, hwanted.2⟩
    · exact h.known w ((hhas w heq).1 hw)
  · by_cases heq : w = v
    · subst heq
      exact hapart hw
    · obtain ⟨hfind, hmem⟩ := hother w heq
      rw [hfind]
      exact h.apart w (hmem.1 hw)
  · by_cases heq : w = v
    · subst heq
      exact hsettled
    · rw [hhas w heq]
      exact h.settled w ((Finset.mem_insert.1 hw).resolve_left heq)

/-- A vehicle that stays as it is. -/
theorem Stage.keep (h : Stage vType par r b sub settled s) (hv : v ∈ r.idList)
    (hsettled : s.Has v ↔ r.wanted vType par v = true) :
    Stage vType par r b sub (insert v settled) s :=
  h.change hv ⟨rfl, rfl, rfl⟩ (fun _ _ => ⟨rfl, Iff.rfl⟩) (h.apart v) hsettled

theorem Stage.leaveRoi (h : Stage vType par r b sub settled s) (hv : v ∈ r.idList)
    (hwanted : r.wanted vType par v = false) :
    (leaveRoi v s).value = some () ∧
      Stage vType par r b sub (insert v settled) (leaveRoi v s).state := by
  unfold ScenarioManager.leaveRoi
  rw [get_bind_apply]
  cases hfind : s.hosts.find v with
  | none =>
    simp only [Option.isSome_none, Bool.false_eq_true, if_false, modify_apply, true_and]
    refine h.change hv ⟨rfl, rfl, rfl⟩ (fun w hw => ⟨rfl, ?_⟩) (fun _ => hfind) ?_
    · simp [hw]
    · simp [Has, hfind, hwanted]
  | some mod =>
    have hnot : v ∉ s.unEquippedHosts := fun hmem => by simp [h.apart v hmem] at hfind
    simp only [Option.isSome_some, if_true, deleteManagedModule_eq hfind, true_and]
    refine h.change hv ⟨rfl, rfl, rfl⟩ (fun w hw => ⟨?_, Iff.rfl⟩) (fun hmem => absurd hmem hnot) ?_
    · rw [OrderedMap.find_erase, if_neg hw]
    · simp [Has, OrderedMap.find_erase, hnot, hwanted]

theorem Stage.addModule (h : Stage vType par r b sub settled s) (hv : v ∈ r.idList)
    (hfind : s.hosts.find v = none) (hnot : v ∉ s.unEquippedHosts)
    (hwanted : r.wanted vType par v = true) (type name displayString : String) (p : Coord)
    (st : VehicleStatus) :
    (addModule par v type name displayString p st s).value = some () ∧
      Stage vType par r b sub (insert v settled)
        (addModule par v type name displayString p st s).state := by
  unfold ScenarioManager.addModule
  rw [get_bind_apply]
  simp only [hfind, Option.isSome_none, Bool.false_eq_true, if_false]
  split
  · refine ⟨rfl, h.change hv ⟨rfl, rfl, rfl⟩ (fun w hw => ⟨rfl, ?_⟩) (fun _ => hfind) ?_⟩
    · simp [hw]
    · simp [Has, hwanted]
  · refine ⟨rfl, h.change hv ⟨rfl, rfl, rfl⟩ (fun w hw => ⟨?_, Iff.rfl⟩)
      (fun hmem => absurd hmem hnot) ?_⟩
    · exact (OrderedMap.find_put _ _ _ _).trans (if_neg hw)
    · simp [bind_apply, Has, OrderedMap.find_put, hwanted]

/-- What remains to be done when all variables of a vehicle have been read. -/
theorem processVehicleSubscription_eq {t : Timestep V} {vars : List VehicleVariable}
    {st : VehicleStatus} (hin : v ∈ s.subscribedVehicles)
    (hread : readVariables true {} vars = some st) (hnum : st.numRead = 8)
    (hx : 0 ≤ (par.coordinateTransformation.traci2omnet st.position).x)
    (hy : 0 ≤ (par.coordinateTransformation.traci2omnet st.position).y) :
    processVehicleSubscription par t v vars s =
      (if !inRoi par st then leaveRoi v
        else if v ∈ s.unEquippedHosts then pure ()
        else driveModule par t v (par.coordinateTransformation.traci2omnet st.position) st) s := by
  have hskip : ¬ (v ∉ s.subscribedVehicles ∨ st.numRead ≠ 8) := by simp [hin, hnum]
  have hbad : ¬ ((par.coordinateTransformation.traci2omnet st.position).x < 0 ∨
      (par.coordinateTransformation.traci2omnet st.position).y < 0) := by
    rintro (h | h)
    · exact absurd h (not_lt.2 hx)
    · exact absurd h (not_lt.2 hy)
  unfold processVehicleSubscription
  rw [get_bind_apply, decide_eq_true hin, hread]
  simp only [if_neg hskip, if_neg hbad]

/-- A vehicle the manager is subscribed to is settled by its report. -/
theorem Stage.settle (ho : r.Orderly vType par road) (h : Stage vType par r b sub settled s)
    (hsub : v ∈ sub) (hv : v ∈ r.idList) :
    (processVehicleSubscription par (r.timestep vType) v (r.answer v) s).value = some () ∧
      Stage vType par r b sub (insert v settled)
        (processVehicleSubscription par (r.timestep vType) v (r.answer v) s).state := by
  obtain ⟨st, hread, hst⟩ := (Option.any_eq_true _ _).1 (ho.readable v hv)
  simp only [Bool.and_eq_true, decide_eq_true_eq] at hst
  obtain ⟨⟨hnum, hx⟩, hy⟩ := hst
  have hin : v ∈ s.subscribedVehicles := h.subscribedVehicles ▸ hsub
  have hwanted : r.wanted vType par v = (inRoi par st && SumoReport.Typed vType par v) := by
    simp [SumoReport.wanted, hread]
  rw [processVehicleSubscription_eq hin hread hnum hx hy]
  by_cases hroi : inRoi par st = true
  · simp only [hroi, Bool.true_and] at hwanted
    simp only [hroi, Bool.not_true, Bool.false_eq_true, if_false]
    by_cases hun : v ∈ s.unEquippedHosts
    · have htyped := (h.known v (.inr hun)).2
      simp only [hun, if_true]
      exact ⟨rfl, h.keep hv (by simp [Has, hun, hwanted, htyped])⟩
    · simp only [hun, if_false]
      unfold driveModule
      rw [get_bind_apply]
      cases hfind : s.hosts.find v with
      | some mod =>
        have htyped := (h.known v (.inl (by simp [hfind]))).2
        exact ⟨rfl, h.keep hv (by simp [Has, hfind, hwanted, htyped])⟩
      | none =>
        obtain ⟨⟨type, name, displayString⟩, hmodule⟩ := Option.isSome_iff_exists.1 (ho.types v hv)
        have htype : (r.timestep vType).getTypeId v = vType v := rfl
        simp only [htype, hmodule]
        by_cases hzero : type = "0"
        · simp only [hzero, ne_eq, not_true_eq_false, if_false]
          refine ⟨rfl, h.keep hv ?_⟩
          simp [Has, hfind, hun, hwanted, SumoReport.Typed, hmodule, hzero]
        · simp only [ne_eq, hzero, not_false_eq_true, if_true]
          refine h.addModule hv hfind hun ?_ type name displayString _ st
          simp [hwanted, SumoReport.Typed, hmodule, hzero]
  · -- outside the region the module is removed
    simp only [Bool.not_eq_true] at hroi
    simp only [hroi, Bool.false_and] at hwanted
    simp only [hroi, Bool.not_false, if_true]
    exact h.leaveRoi hv hwanted

theorem readVariables_unwanted (st : VehicleStatus) (vars : List VehicleVariable) :
    ∃ st', readVariables false st vars = some st' := by
  induction vars generalizing st with
  | nil => exact ⟨st, rfl⟩
  | cons x vars ih => cases x <;> exact ih _

/-- A vehicle the manager is not subscribed to is ignored. -/
theorem processVehicleSubscription_ignored {t : Timestep V} {vars : List VehicleVariable}
    (hout : v ∉ s.subscribedVehicles) :
    processVehicleSubscription par t v vars s = ⟨some (), s, []⟩ := by
  obtain ⟨st, hread⟩ := readVariables_unwanted {} vars
  unfold processVehicleSubscription
  rw [get_bind_apply, decide_eq_false hout, hread]
  simp only [hout, not_false_eq_true, true_or, if_true]
  rfl

theorem Stage.subscribe (ho : r.Orderly vType par road) (h : Stage vType par r b sub settled s)
    (hv : v ∈ r.idList) :
    (subscribeToVehicleVariables par (r.timestep vType) v s).value = some () ∧
      Stage vType par r b (insert v sub) (insert v settled)
        (subscribeToVehicleVariables par (r.timestep vType) v s).state := by
  have hnext : Stage vType par r b (insert v sub) settled
      { s with subscribedVehicles := insert v s.subscribedVehicles } :=
    ⟨congrArg (insert v) h.subscribedVehicles, h.known, h.apart, h.settled, h.activeVehicleCount,
      h.autoShutdownTriggered⟩
  exact hnext.settle ho (Finset.mem_insert_self v sub) hv

theorem stage_subscribe_all (ho : r.Orderly vType par road) (hids : ∀ v ∈ ids, v ∈ r.idList) :
    Triple (fun s _ => Stage vType par r b sub settled s)
      (eachOf (subscribeToVehicleVariables par (r.timestep vType)) ids)
      (fun _ s _ => Stage vType par r b (sub ∪ ids.toFinset) (settled ∪ ids.toFinset) s) E := by
  refine Triple.pre ?_ (Triple.eachOf (I := fun l s _ =>
    Stage vType par r b (sub ∪ l.toFinset) (settled ∪ l.toFinset) s) fun l₁ v l₂ hl => ?_)
  · intro s _ h
    simpa using h
  · refine Triple.of_returns fun s _ h => ?_
    have hnext := h.subscribe ho (v := v) (hids v (by simp [hl]))
    refine ⟨(), hnext.1, ?_⟩
    have hstage := hnext.2
    rwa [← Finset.union_insert, ← Finset.union_insert, ← List.toFinset_cons,
      List.toFinset_eq_of_perm _ _ (List.perm_append_singleton v l₁).symm] at hstage

theorem stage_unsubscribe_all :
    Triple (fun s _ => Stage vType par r b sub settled s)
      (eachOf unsubscribeFromVehicleVariables ids)
      (fun _ s _ => Stage vType par r b (sub \ ids.toFinset) settled s) E := by
  refine Triple.pre ?_ (Triple.eachOf (I := fun l s _ =>
    Stage vType par r b (sub \ l.toFinset) settled s) fun l₁ v l₂ _ => ?_)
  · intro s _ h
    simpa using h
  · refine Triple.of_returns fun s _ h => ⟨(), rfl, ?_⟩
    refine ⟨?_, h.known, h.apart, h.settled, h.activeVehicleCount, h.autoShutdownTriggered⟩
    change s.subscribedVehicles.erase v = _
    rw [h.subscribedVehicles]
    ext w
    simp only [Finset.mem_erase, Finset.mem_sdiff, List.mem_toFinset, List.mem_append,
      List.mem_singleton]
    tauto

/-- What the list of ids does. -/
theorem stage_processIdList (ho : r.Orderly vType par road) :
    Triple (fun s _ => Stage vType par r b sub settled s)
      (processIdList par (r.timestep vType) r.idList)
      (fun _ s _ => Stage vType par r b r.idList.toFinset
        (settled ∪ r.idList.toFinset \ sub) s) E := by
  unfold processIdList
  refine Triple.get_bind fun s₁ => Triple.given (R := s₁.subscribedVehicles = sub ∧
    s₁.activeVehicleCount = r.idList.length) ?_ fun h₁ => ?_
  · rintro s os ⟨rfl, h⟩
    exact ⟨h.subscribedVehicles, h.activeVehicleCount⟩
  have hassert : assert par (r.idList.length = s₁.activeVehicleCount) =
      (pure () : Action V Unit) := by
    simp [assert, h₁.2]
  rw [hassert, h₁.1]
  refine Triple.bind (Triple.pure (Q := fun _ s _ => Stage vType par r b sub settled s)
    fun s _ h => h.2) fun _ => ?_
  refine Triple.bind (stage_subscribe_all ho fun v hv => ?_) fun _ => Triple.get_bind fun s₂ =>
    Triple.given (R := s₂.subscribedVehicles = sub ∪ r.idList.toFinset) ?_ fun h₂ => ?_
  · exact List.mem_toFinset.1 (Finset.mem_sdiff.1 ((Finset.mem_sort _).1 hv)).1
  · rintro s os ⟨rfl, h⟩
    rw [h.subscribedVehicles, Finset.sort_toFinset, Finset.union_sdiff_self_eq_union]
  · rw [h₂]
    refine Triple.post ?_ (Triple.pre (fun s _ h => h.2) stage_unsubscribe_all)
    rintro - s - h
    rw [Finset.sort_toFinset, Finset.sort_toFinset, Finset.union_sdiff_self_eq_union,
      sdiff_sdiff_right_self, Finset.inf_eq_inter] at h
    rwa [Finset.inter_eq_right.2 Finset.subset_union_right] at h

/-- What the reports of the vehicles do. -/
theorem stage_report_all (ho : r.Orderly vType par road) :
    Triple (fun s _ => Stage vType par r b r.idList.toFinset settled s)
      (eachOf (processSubcriptionResult par (r.timestep vType))
        (ids.map fun v => .vehicle v (r.answer v)))
      (fun _ s _ => Stage vType par r b r.idList.toFinset
        (settled ∪ ids.toFinset ∩ r.idList.toFinset) s) E := by
  rw [eachOf_map]
  refine Triple.pre ?_ (Triple.eachOf (I := fun l s _ => Stage vType par r b r.idList.toFinset
    (settled ∪ l.toFinset ∩ r.idList.toFinset) s) fun l₁ v l₂ hl => ?_)
  · intro s _ h
    simpa using h
  · refine Triple.of_returns fun s _ h => ?_
    simp only [processSubcriptionResult]
    rw [List.toFinset_append, List.toFinset_cons, List.toFinset_nil, insert_empty_eq]
    by_cases hv : v ∈ r.idList.toFinset
    · have hnext := h.settle ho hv (List.mem_toFinset.1 hv)
      refine ⟨(), hnext.1, ?_⟩
      rw [Finset.union_inter_distrib_right, Finset.singleton_inter_of_mem hv, ← Finset.union_assoc,
        Finset.union_comm _ {v}, ← Finset.insert_eq]
      exact hnext.2
    · rw [processVehicleSubscription_ignored (h.subscribedVehicles ▸ hv),
        Finset.union_inter_distrib_right, Finset.singleton_inter_of_notMem hv, Finset.union_empty]
      exact ⟨(), rfl, h⟩

/-! ### The whole report -/

/-- The manager agrees with the road. -/
structure Agrees (vType : V → String) (par : ManagerPar) (road : Finset V)
    (s : ScenarioManager V) : Prop where
  subscribedVehicles : s.subscribedVehicles = road
  known : ∀ v, s.Has v → v ∈ road ∧ SumoReport.Typed vType par v = true
  apart : ∀ v ∈ s.unEquippedHosts, s.hosts.find v = none
  activeVehicleCount : s.activeVehicleCount = road.card

theorem agrees_init : Agrees vType par ∅ ({} : ScenarioManager V) where
  subscribedVehicles := rfl
  known v hv := by simp [Has] at hv
  apart v hv := by simp at hv
  activeVehicleCount := rfl

theorem Stage.agrees (ho : r.Orderly vType par road)
    (h : Stage vType par r b r.idList.toFinset settled s) :
    Agrees vType par r.idList.toFinset s where
  subscribedVehicles := h.subscribedVehicles
  known v hv := (h.known v hv).imp_left List.mem_toFinset.2
  apart := h.apart
  activeVehicleCount := by
    rw [h.activeVehicleCount, List.toFinset_card_of_nodup ho.nodup]

theorem Swept.stage (ho : r.Orderly vType par road) (hs : Agrees vType par road s₀)
    (h : Swept s₀ (r.arrived.toFinset ∪ r.teleportStarting.toFinset) r.arrived.toFinset
      r.idList.length b s) :
    Stage vType par r b (road \ r.arrived.toFinset) ∅ s where
  subscribedVehicles := by rw [h.subscribedVehicles, hs.subscribedVehicles]
  known v hv := by
    have hold : s₀.Has v ∧ v ∉ r.arrived.toFinset ∪ r.teleportStarting.toFinset := by
      rcases hv with hfind | hmem
      · rw [h.hosts] at hfind
        split at hfind
        · cases hfind
        · exact ⟨.inl hfind, ‹_›⟩
      · rw [h.unEquippedHosts, Finset.mem_sdiff] at hmem
        exact ⟨.inr hmem.1, hmem.2⟩
    obtain ⟨hroad, htyped⟩ := hs.known v hold.1
    simp only [Finset.mem_union, List.mem_toFinset, not_or] at hold
    exact ⟨(ho.leave v hroad).resolve_right (not_or.2 hold.2), htyped⟩
  apart v hv := by
    rw [h.unEquippedHosts, Finset.mem_sdiff] at hv
    rw [h.hosts, if_neg hv.2]
    exact hs.apart v hv.1
  settled v hv := by simp at hv
  activeVehicleCount := h.activeVehicleCount
  autoShutdownTriggered := h.autoShutdownTriggered

/-- **What a report does**, and when it fails. -/
theorem processResults_spec (ho : r.Orderly vType par road) (hs : Agrees vType par road s₀) :
    Triple (fun s _ => s = s₀) (processResults par (r.timestep vType))
      (fun _ s _ => Stage vType par r (s₀.autoShutdownTriggered || decide (ShutsDown par road r))
          r.idList.toFinset r.idList.toFinset s ∧ ∀ v ∈ r.parked, (s₀.hosts.find v).isSome)
      (fun _ _ => ∃ v ∈ r.parked, s₀.hosts.find v = none) := by
  refine Triple.eachOf_cons _ (sim_spec ho hs.activeVehicleCount) ?_
  refine Triple.pre (fun s _ h => And.imp_left (Swept.stage ho hs) h) ?_
  refine Triple.eachOf_cons _ (Triple.frame (stage_processIdList ho)) ?_
  refine Triple.post ?_ (Triple.frame (stage_report_all ho))
  rintro - s - ⟨h, hparked⟩
  refine ⟨⟨h.subscribedVehicles, h.known, h.apart, fun v hv => h.settled v ?_,
    h.activeVehicleCount, h.autoShutdownTriggered⟩, hparked⟩
  have hreport := ho.report v
  simp only [List.mem_toFinset, Finset.mem_union, Finset.mem_sdiff, Finset.mem_inter,
    Finset.notMem_empty, false_or] at hv ⊢
  tauto

end ScenarioManager

/-! ### Runs -/

/-- The vehicles on the road after the reports `rs`. -/
def roadAfter (rs : List (SumoReport V)) : Finset V :=
  rs.foldl (fun _ r => r.idList.toFinset) ∅

/-- Each of the reports fits the vehicles on the road before it. -/
def OrderlyFrom (vType : V → String) (par : ManagerPar) :
    Finset V → List (SumoReport V) → Prop
  | _, [] => True
  | road, r :: rs => r.Orderly vType par road ∧ OrderlyFrom vType par r.idList.toFinset rs

/-- The first report comes with the connection, the others with the time steps. -/
def reportEvent (vType : V → String) (first : Bool) (r : SumoReport V) : ManagerEvent V :=
  if first then .connectAndStart (r.timestep vType) else .executeOneTimestep (r.timestep vType)

/-- The events of a run with the reports `rs`. -/
def reportEvents (vType : V → String) : List (SumoReport V) → List (ManagerEvent V)
  | [] => []
  | r :: rs => reportEvent vType true r :: rs.map (reportEvent vType false)

open ScenarioManager

variable {vType : V → String} {par : ManagerPar} {r : SumoReport V} {rs : List (SumoReport V)}
  {s s' : ManagerRun V} {os o : List (ManagerEffect V)} {road : Finset V}

@[simp] theorem roadAfter_concat : roadAfter (rs ++ [r]) = r.idList.toFinset := by
  simp [roadAfter]

theorem orderlyFrom_concat : OrderlyFrom vType par road (rs ++ [r]) ↔
    OrderlyFrom vType par road rs ∧
      r.Orderly vType par (rs.foldl (fun _ r => r.idList.toFinset) road) := by
  induction rs generalizing road with
  | nil => simp [OrderlyFrom]
  | cons q rs ih => simp only [List.cons_append, OrderlyFrom, ih, List.foldl_cons, and_assoc]

omit [LinearOrder V] in
theorem reportEvents_concat : reportEvents vType (rs ++ [r]) =
    reportEvents vType rs ++ [reportEvent vType rs.isEmpty r] := by
  cases rs with
  | nil => rfl
  | cons q rs => simp [reportEvents]

/-- How far a run has come. -/
structure Progress (vType : V → String) (par : ManagerPar) (rs : List (SumoReport V))
    (s : ManagerRun V) : Prop where
  connect : s.connectAndStartTrigger = rs.isEmpty
  agrees : s.failed = false → Agrees vType par (roadAfter rs) s.manager
  fleet : s.failed = false → ∀ r ∈ rs.getLast?, ∀ v ∈ r.idList,
    s.manager.Has v ↔ r.wanted vType par v = true
  shutdown : s.failed = false → (s.manager.autoShutdownTriggered = true ↔
    ∃ rs₁ r rs₂, rs = rs₁ ++ r :: rs₂ ∧ ShutsDown par (roadAfter rs₁) r)

/-- A report is processed if no exception has ended the simulation and the trigger is set. -/
theorem step_report (par : ManagerPar) (vType : V → String) (r : SumoReport V)
    (hf : s.failed = false) (hc : s.connectAndStartTrigger = rs.isEmpty)
    (ht : rs.isEmpty = true ∨ s.executeOneTimestepTrigger = true) :
    ∃ s' o, (scenarioManager par).step s (reportEvent vType rs.isEmpty r) = some (s', o) ∧
      s'.manager = (processResults par (r.timestep vType) s.manager).state ∧
      s'.connectAndStartTrigger = false ∧
      s'.failed = (processResults par (r.timestep vType) s.manager).value.isNone := by
  cases hrs : rs.isEmpty with
  | true =>
    rw [hrs] at hc
    simp only [scenarioManager, reportEvent, hf, hc, if_true, Bool.false_eq_true, if_false,
      ManagerEvent.timestep]
    exact ⟨_, _, rfl, rfl, rfl, rfl⟩
  | false =>
    rw [hrs] at hc
    have ht : s.executeOneTimestepTrigger = true := ht.resolve_left (by simp [hrs])
    simp only [scenarioManager, reportEvent, hf, hc, ht, Bool.not_true, Bool.false_eq_true,
      if_false, ManagerEvent.timestep]
    exact ⟨_, _, rfl, rfl, rfl, rfl⟩

/-- What a step needs. -/
theorem triggers_of_step
    (h : (scenarioManager par).step s (reportEvent vType rs.isEmpty r) = some (s', o)) :
    s.failed = false ∧ (rs.isEmpty = true ∨ s.executeOneTimestepTrigger = true) := by
  cases hf : s.failed with
  | true => simp [scenarioManager, hf] at h
  | false =>
    refine ⟨rfl, ?_⟩
    cases hrs : rs.isEmpty with
    | true => exact .inl rfl
    | false =>
      cases ht : s.executeOneTimestepTrigger with
      | true => exact .inr rfl
      | false => simp [scenarioManager, hf, hrs, ht, reportEvent] at h

/-- How a report ends. -/
theorem report_cases (ho : r.Orderly vType par road) (hs : Agrees vType par road s.manager) :
    ((processResults par (r.timestep vType) s.manager).value = some () ∧
      (∀ v ∈ r.parked, (s.manager.hosts.find v).isSome) ∧
      Stage vType par r (s.manager.autoShutdownTriggered || decide (ShutsDown par road r))
        r.idList.toFinset r.idList.toFinset
        (processResults par (r.timestep vType) s.manager).state) ∨
    (processResults par (r.timestep vType) s.manager).value = none ∧
      ∃ v ∈ r.parked, s.manager.hosts.find v = none := by
  have hspec := processResults_spec ho hs s.manager [] rfl
  cases hv : (processResults par (r.timestep vType) s.manager).value with
  | none =>
    rw [hv] at hspec
    exact .inr ⟨rfl, hspec⟩
  | some u =>
    rw [hv] at hspec
    exact .inl ⟨rfl, hspec.2, hspec.1⟩

omit [LinearOrder V] in
/-- Where the last report that shuts the manager down stands. -/
theorem shutsDown_concat {P : List (SumoReport V) → SumoReport V → Prop} :
    (∃ rs₁ q rs₂, rs ++ [r] = rs₁ ++ q :: rs₂ ∧ P rs₁ q) ↔
      (∃ rs₁ q rs₂, rs = rs₁ ++ q :: rs₂ ∧ P rs₁ q) ∨ P rs r := by
  constructor
  · rintro ⟨rs₁, q, rs₂, heq, hP⟩
    rcases List.eq_nil_or_concat rs₂ with rfl | ⟨rs₃, q', rfl⟩
    · obtain ⟨rfl, hq⟩ := List.append_inj' heq rfl
      rw [List.singleton_inj.1 hq]
      exact .inr hP
    · have hrs : rs ++ [r] = (rs₁ ++ q :: rs₃) ++ [q'] := by simpa using heq
      exact .inl ⟨rs₁, q, rs₃, (List.append_inj' hrs rfl).1, hP⟩
  · rintro (⟨rs₁, q, rs₂, rfl, hP⟩ | hP)
    · exact ⟨rs₁, q, rs₂ ++ [r], by simp, hP⟩
    · exact ⟨rs, r, [], rfl, hP⟩

theorem progress_init : Progress vType par [] ({} : ManagerRun V) where
  connect := rfl
  agrees _ := agrees_init
  fleet _ r hr := by simp at hr
  shutdown _ := by simp

theorem Progress.step (h : Progress vType par rs s) (ho : r.Orderly vType par (roadAfter rs))
    (hst : (scenarioManager par).step s (reportEvent vType rs.isEmpty r) = some (s', o)) :
    Progress vType par (rs ++ [r]) s' ∧
      (s'.failed = true ↔ ∃ v ∈ r.parked, s.manager.hosts.find v = none) := by
  obtain ⟨hf, ht⟩ := triggers_of_step hst
  obtain ⟨s₁, o₁, hst₁, hmanager, hconnect, hfailed⟩ :=
    step_report par vType r hf h.connect ht
  obtain ⟨rfl, -⟩ := Prod.mk.inj (Option.some.inj (hst.symm.trans hst₁))
  rcases report_cases ho (h.agrees hf) with ⟨hvalue, hparked, hstage⟩ | ⟨hvalue, v, hv, hnone⟩
  · rw [hvalue] at hfailed
    rw [← hmanager] at hstage
    refine ⟨⟨by simp [hconnect], fun _ => ?_, fun _ q hq v hv => ?_, fun _ => ?_⟩, ?_⟩
    · rw [roadAfter_concat]
      exact hstage.agrees ho
    · obtain rfl : r = q := by simpa using hq
      exact hstage.settled v (List.mem_toFinset.2 hv)
    · rw [shutsDown_concat, hstage.autoShutdownTriggered, Bool.or_eq_true, h.shutdown hf,
        decide_eq_true_iff]
    · simp only [hfailed, Option.isNone_some, Bool.false_eq_true, false_iff]
      rintro ⟨v, hv, hnone⟩
      simpa [hnone] using hparked v hv
  · have htrue : s'.failed = true := by rw [hfailed, hvalue]; rfl
    have hnever {P : Prop} (hfalse : s'.failed = false) : P := by simp [htrue] at hfalse
    exact ⟨⟨by simp [hconnect], hnever, hnever, hnever⟩, by simpa [htrue] using ⟨v, hv, hnone⟩⟩

theorem exec_progress (ho : OrderlyFrom vType par ∅ rs)
    (h : (scenarioManager par).exec {} (reportEvents vType rs) = some (s, os)) :
    Progress vType par rs s := by
  induction rs using List.reverseRecOn generalizing s os with
  | nil =>
    obtain ⟨rfl, -⟩ := Prod.mk.inj (Option.some.inj h)
    exact progress_init
  | append_singleton rs r ih =>
    rw [reportEvents_concat] at h
    obtain ⟨s₁, o₁, o₂, hex, hst, -⟩ := Machine.exec_concat_eq_some.1 h
    obtain ⟨hbefore, hlast⟩ := orderlyFrom_concat.1 ho
    exact ((ih hbefore hex).step hlast hst).1

/-- **The fleet tracks the road.**  After every time step the manager is subscribed to just the
vehicles on the road and has counted them, and of them it has, with a module or without, just those
that are in the region of interest and of a type that gets a module. -/
theorem fleet_tracks_road (ho : OrderlyFrom vType par ∅ (rs ++ [r]))
    (h : (scenarioManager par).exec {} (reportEvents vType (rs ++ [r])) = some (s, os))
    (hf : s.failed = false) :
    s.manager.subscribedVehicles = r.idList.toFinset ∧
      s.manager.activeVehicleCount = r.idList.length ∧
      (∀ v ∈ s.manager.unEquippedHosts, s.manager.hosts.find v = none) ∧
      ∀ v, (s.manager.hosts.find v).isSome ∨ v ∈ s.manager.unEquippedHosts ↔
        v ∈ r.idList ∧ r.wanted vType par v = true := by
  have hprogress := exec_progress ho h
  have hagrees := hprogress.agrees hf
  have hfleet := hprogress.fleet hf r (by simp)
  rw [roadAfter_concat] at hagrees
  have horderly := (orderlyFrom_concat.1 ho).2
  refine ⟨hagrees.subscribedVehicles, ?_, hagrees.apart, fun v => ⟨fun hv => ?_, fun hv => ?_⟩⟩
  · rw [hagrees.activeVehicleCount, List.toFinset_card_of_nodup horderly.nodup]
  · have hmem := List.mem_toFinset.1 (hagrees.known v hv).1
    exact ⟨hmem, (hfleet v hmem).1 hv⟩
  · exact (hfleet v hv.1).2 hv.2

/-- Two vehicles depart; the first gets a module. -/
def twoDepartures : List (SumoReport ℕ) :=
  [{ simTime := 0 },
    { simTime := 1, departed := [7], idList := [7], answer := fun _ => standing ⟨1, 1⟩ },
    { simTime := 2, departed := [8], idList := [7, 8], reporting := [7],
      answer := fun _ => standing ⟨2, 1⟩ }]

theorem orderly_twoDepartures : OrderlyFrom (fun _ => "car") halfEquipped ∅ twoDepartures := by
  refine ⟨?_, ?_, ?_, trivial⟩ <;> constructor <;> decide +kernel

/-- The end of a run, as far as it is computed. -/
theorem exists_exec (rs : List (SumoReport ℕ)) (f t d : Bool)
    (h : ((scenarioManager halfEquipped).exec {} (reportEvents (fun _ => "car") rs)).map
      (fun x => (x.1.failed, x.1.executeOneTimestepTrigger, x.1.manager.autoShutdownTriggered)) =
        some (f, t, d)) :
    ∃ s os, (scenarioManager halfEquipped).exec {} (reportEvents (fun _ => "car") rs) =
      some (s, os) ∧ s.failed = f ∧ s.executeOneTimestepTrigger = t ∧
        s.manager.autoShutdownTriggered = d := by
  obtain ⟨⟨s, os⟩, hexec, hend⟩ := Option.map_eq_some_iff.1 h
  obtain ⟨hf, hrest⟩ := Prod.mk.inj hend
  exact ⟨s, os, hexec, hf, Prod.mk.inj hrest⟩

/-- The first vehicle arrives. -/
def firstArrived : SumoReport ℕ :=
  { simTime := 3, arrived := [7], idList := [8], reporting := [8]
    answer := fun _ => standing ⟨3, 1⟩ }

theorem fleet_tracks_road_firstArrived :
    ∃ (s : ManagerRun ℕ) (os : List (ManagerEffect ℕ)),
      (scenarioManager halfEquipped).exec {}
        (reportEvents (fun _ => "car") (twoDepartures ++ [firstArrived])) = some (s, os) ∧
      s.manager.subscribedVehicles = {8} ∧
      ∀ v, (s.manager.hosts.find v).isSome ∨ v ∈ s.manager.unEquippedHosts ↔ v = 8 := by
  have ho : OrderlyFrom (fun _ => "car") halfEquipped ∅ (twoDepartures ++ [firstArrived]) := by
    refine orderlyFrom_concat.2 ⟨orderly_twoDepartures, ?_⟩
    constructor <;> decide +kernel
  obtain ⟨s, os, hexec, hf, -, -⟩ := exists_exec (twoDepartures ++ [firstArrived]) false true false
    (by decide +kernel)
  obtain ⟨hsub, -, -, hfleet⟩ := fleet_tracks_road ho hexec hf
  refine ⟨s, os, hexec, hsub, fun v => (hfleet v).trans ⟨fun hv => ?_, ?_⟩⟩
  · exact List.mem_singleton.1 hv.1
  · rintro rfl
    exact ⟨List.mem_singleton.2 rfl, by decide +kernel⟩

/-- **When a time step fails.**  As long as the manager has neither failed nor shut down it handles
the next report of SUMO, and fails exactly if a vehicle that has no module begins or ends a stay in
a parking area. -/
theorem fails_iff_parked_without_module (ho : OrderlyFrom vType par ∅ (rs ++ [r]))
    (h : (scenarioManager par).exec {} (reportEvents vType rs) = some (s, os))
    (hf : s.failed = false) (ht : s.executeOneTimestepTrigger = true) :
    ∃ s' o, (scenarioManager par).step s (reportEvent vType rs.isEmpty r) = some (s', o) ∧
      (s'.failed = true ↔ ∃ v ∈ r.parked, s.manager.hosts.find v = none) := by
  obtain ⟨hbefore, hlast⟩ := orderlyFrom_concat.1 ho
  have hprogress := exec_progress hbefore h
  obtain ⟨s', o, hst, -⟩ := step_report par vType r hf hprogress.connect (.inr ht)
  exact ⟨s', o, hst, (hprogress.step hlast hst).2⟩

/-- The first vehicle arrives, and the second, which has no module, parks. -/
def secondParks : SumoReport ℕ :=
  { simTime := 3, arrived := [7], parkingStarting := [8], idList := [8], reporting := [8]
    answer := fun _ => standing ⟨3, 1⟩ }

theorem fails_iff_parked_without_module_secondParks :
    ∃ (s : ManagerRun ℕ) (os : List (ManagerEffect ℕ)),
      (scenarioManager halfEquipped).exec {} (reportEvents (fun _ => "car") twoDepartures) =
        some (s, os) ∧
      ∃ s' o, (scenarioManager halfEquipped).step s
        (.executeOneTimestep (secondParks.timestep fun _ => "car")) = some (s', o) ∧
          (s'.failed = true ↔ s.manager.hosts.find 8 = none) := by
  have ho : OrderlyFrom (fun _ => "car") halfEquipped ∅ (twoDepartures ++ [secondParks]) := by
    refine orderlyFrom_concat.2 ⟨orderly_twoDepartures, ?_⟩
    constructor <;> decide +kernel
  obtain ⟨s, os, hexec, hf, ht, -⟩ := exists_exec twoDepartures false true false
    (by decide +kernel)
  obtain ⟨s', o, hst, hfailed⟩ := fails_iff_parked_without_module ho hexec hf ht
  refine ⟨s, os, hexec, s', o, hst, hfailed.trans ?_⟩
  simp [SumoReport.parked, secondParks]

/-- **When the manager shuts down**: after a report by which vehicles have arrived, and as many as
there were on the road before it and have departed since.  Vehicles that teleport do not count. -/
theorem shutdown_iff (ho : OrderlyFrom vType par ∅ rs)
    (h : (scenarioManager par).exec {} (reportEvents vType rs) = some (s, os))
    (hf : s.failed = false) :
    s.manager.autoShutdownTriggered = true ↔ ∃ rs₁ r rs₂, rs = rs₁ ++ r :: rs₂ ∧
      par.autoShutdown = true ∧ r.arrived ≠ [] ∧
        (roadAfter rs₁).card + r.departed.length ≤ r.arrived.length :=
  (exec_progress ho h).shutdown hf

/-- Both vehicles arrive. -/
def bothArrive : SumoReport ℕ := { simTime := 3, arrived := [7, 8] }

theorem shutdown_iff_bothArrive :
    ∃ rs₁ r rs₂, twoDepartures ++ [bothArrive] = rs₁ ++ r :: rs₂ ∧
      halfEquipped.autoShutdown = true ∧ r.arrived ≠ [] ∧
        (roadAfter rs₁).card + r.departed.length ≤ r.arrived.length := by
  have ho : OrderlyFrom (fun _ => "car") halfEquipped ∅ (twoDepartures ++ [bothArrive]) := by
    refine orderlyFrom_concat.2 ⟨orderly_twoDepartures, ?_⟩
    constructor <;> decide +kernel
  obtain ⟨s, os, hexec, hf, -, hdown⟩ :=
    exists_exec (twoDepartures ++ [bothArrive]) false false true (by decide +kernel)
  exact (shutdown_iff ho hexec hf).1 hdown

end V2nLte
