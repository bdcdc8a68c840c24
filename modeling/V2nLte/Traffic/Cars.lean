import V2nLte.Machine.Collections
import V2nLte.Traffic.AppLife
import V2nLte.Traffic.Fleet

/-!
# The cars of the scenario manager

The manager does not delete the module of a vehicle that it gives up.  The application in it goes
on and asks the manager at each of its reports whether the vehicle is still there; if not, it takes
the module out of the LTE network and deletes it.  Here are the manager, the modules it makes and
their applications together, with the times of the self-messages; between two of these the routes
from the server arrive at any time.

* `managed_alive` : the module that the manager has for a vehicle has not been deleted.
* `calls_soon_after` : a TraCI call for a vehicle without a module at the manager comes from a
  route, and the vehicle was given up no longer than a report interval ago.
* `departed_shuts_down` : a report interval after a vehicle is given up, if it has not come back,
  the modules it has had are shut down.

A vehicle that comes back before the next report of its old module is found there, too: it then has
two modules, and the old one goes on.
-/

namespace V2nLte

open VehicleApp Handler

/-! ### The manager and the cars -/

variable {V : Type}

/-- What is given from outside. -/
structure CarPar (V : Type) where
  /-- The parameters of the manager. -/
  manager : ManagerPar
  /-- The surroundings of the application in a module for a vehicle. -/
  app : ℕ → V → VehiclePar
  /-- The time between two reports of an application. -/
  reportInterval : ℚ
  /-- It is not negative. -/
  nonneg : 0 ≤ reportInterval
  /-- The share of the applications that take part. -/
  penetrationRate : ℚ
  /-- The table of the edges. -/
  edgeIndex : EdgeIndex

/-- A module that has been made for a vehicle. -/
structure Car (V : Type) where
  /-- The vehicle. -/
  nodeId : V
  /-- Its application. -/
  app : VehicleApp
  /-- How far the module has come. -/
  phase : Phase := .running
  /-- When the self-message that is scheduled arrives. -/
  due : ℚ

/-- A self-message is scheduled. -/
def Car.scheduled (c : Car V) : Bool :=
  c.phase = .running && (c.app.reportTimer || c.app.deleteSelfMsg)

/-- The event can arrive at `t`; what the manager does is not an event of the car. -/
def Car.enabled (c : Car V) (t : ℚ) : VehicleEvent → Bool
  | .reportTimer _ => c.app.reportTimer && c.due = t
  | .deleteSelf => c.app.deleteSelfMsg && c.due = t
  | .routeArrived .. => true
  | .hostRemoved | .finish => false

/-- When the next self-message arrives. -/
def CarPar.nextDue (par : CarPar V) (t : ℚ) (c : Car V) (a : VehicleApp) : VehicleEvent → ℚ
  | .reportTimer _ => if a.deleteSelfMsg then t else t + par.reportInterval
  | _ => c.due

/-- An event arrives at the module `mod`. -/
def CarPar.handle (par : CarPar V) (mod : ℕ) (managed : Bool) (t : ℚ) (c : Car V)
    (e : VehicleEvent) : Car V × List Effect :=
  let r := Vehicle.handler (par.app mod c.nodeId) managed e { c.app with simTime := t }
  ({ c with
      app := r.state
      phase := if r.value.isSome then Vehicle.nextPhase e else .aborted
      due := par.nextDue t c r.state e }, r.out)

/-- A module as it is made; `uniform` is the random number of its application. -/
def CarPar.newCar (par : CarPar V) (t uniform : ℚ) (v : V) : Car V where
  nodeId := v
  app := VehicleApp.init par.penetrationRate uniform par.edgeIndex t
  due := t + par.reportInterval

/-- The manager, all the modules it has made, and the time. -/
structure Cars (V : Type) where
  /-- The manager. -/
  run : ManagerRun V := {}
  /-- The modules, by their numbers. -/
  cars : List (Car V) := []
  /-- The time. -/
  now : ℚ := 0
  /-- An exception has ended the simulation. -/
  ended : Bool := false

/-- What can happen. -/
inductive CarEvent (V : Type) where
  /-- A trigger of the manager, with the random numbers of the applications it makes. -/
  | manager (e : ManagerEvent V) (uniform : V → ℚ)
  | car (t : ℚ) (mod : ℕ) (e : VehicleEvent)

/-- What the manager or a module puts out. -/
inductive CarOutput (V : Type) where
  | manager (x : ManagerEffect V)
  | car (mod : ℕ) (x : Effect)

/-- The time of an event. -/
def CarEvent.time : CarEvent V → ℚ
  | .manager e _ => e.timestep.simTime
  | .car t _ _ => t

/-- No self-message arrives before `t`. -/
def Cars.upTo (s : Cars V) (t : ℚ) : Bool :=
  s.now ≤ t && s.cars.all fun c => !c.scheduled || t ≤ c.due

variable [LinearOrder V]

/-- `getManagedHosts().count(mobility->getExternalId())`. -/
def Cars.managed (s : Cars V) (c : Car V) : Bool := (s.run.manager.hosts.find c.nodeId).isSome

/-- The manager and its cars as a machine; an output is given with its time. -/
def CarPar.machine (par : CarPar V) : Machine (Cars V) (CarEvent V) (ℚ × CarOutput V) where
  step s e :=
    if s.ended || !s.upTo e.time then none
    else
      match e with
      | .manager e uniform =>
        match (scenarioManager par.manager).step s.run e with
        | none => none
        | some (run, o) =>
          -- the applications are initialised while the manager adds their modules
          let t := e.timestep.simTime
          let made := (o.filterMap ScenarioManager.madeFor).map fun v => par.newCar t (uniform v) v
          some (⟨run, s.cars ++ made, t, run.failed⟩, o.map fun x => (t, .manager x))
      | .car t mod e =>
        match s.cars[mod]? with
        | none => none
        | some c =>
          if c.phase = .running && c.enabled t e then
            let r := par.handle mod (s.managed c) t c e
            some ({ s with
              cars := s.cars.set mod r.1, now := t, ended := r.1.phase = .aborted },
              r.2.map fun x => (t, .car mod x))
          else none

/-! ### Which module is of which vehicle -/

namespace ScenarioManager

variable {par : ManagerPar} {s s' : ScenarioManager V} {o os : List (ManagerEffect V)} {n : ℕ}
  {x : ManagerEffect V} {v : V} {mod : ℕ} {ids : List V}

/-- The modules have been made for the vehicles `ids`. -/
structure Made (ids : List V) (s : ScenarioManager V) : Prop where
  length : ids.length = s.nextNodeVectorIndex
  hosts : ∀ v mod, s.hosts.find v = some mod → ids[mod]? = some v

omit [LinearOrder V] in
theorem madeFor_eq_none (h : ∀ mod, act x ≠ some (mod, .made)) : madeFor x = none := by
  cases x <;> simp_all [act, madeFor]

omit [LinearOrder V] in
theorem eq_moduleRemoved (h : act x = some (mod, .givenUp)) : x = .moduleRemoved mod := by
  cases x <;> simp_all [act]

/-- What becomes of the modules and the vehicles while the manager handles a report. -/
structure Handled (ids : List V) (s s' : ScenarioManager V) (o : List (ManagerEffect V)) :
    Prop where
  made : Made (ids ++ o.filterMap madeFor) s'
  /-- A vehicle that has no module any more has been given up. -/
  removed : ∀ v, (s.hosts.find v).isSome ∨ v ∈ o.filterMap madeFor → s'.hosts.find v = none →
    ∃ mod, .moduleRemoved mod ∈ o ∧ (ids ++ o.filterMap madeFor)[mod]? = some v
  /-- A vehicle that has a module had it already, or it is new. -/
  since : ∀ v mod, s'.hosts.find v = some mod →
    s.hosts.find v = some mod ∨ s.nextNodeVectorIndex ≤ mod ∧ v ∈ o.filterMap madeFor
  next : s.nextNodeVectorIndex ≤ s'.nextNodeVectorIndex

theorem Handled.same {s'' : ScenarioManager V} {o' : List (ManagerEffect V)}
    (h : Handled ids s s' o) (hnext : s''.nextNodeVectorIndex = s'.nextNodeVectorIndex)
    (hhosts : s''.hosts = s'.hosts) (ho : o'.filterMap madeFor = []) :
    Handled ids s s'' (o ++ o') := by
  have hmade : (o ++ o').filterMap madeFor = o.filterMap madeFor := by
    rw [List.filterMap_append, ho, List.append_nil]
  refine ⟨⟨?_, ?_⟩, ?_, ?_, hnext ▸ h.next⟩
  · rw [hmade, hnext]
    exact h.made.length
  · rw [hmade, hhosts]
    exact h.made.hosts
  · rw [hmade, hhosts]
    intro v hv hnone
    obtain ⟨mod, hmem, hid⟩ := h.removed v hv hnone
    exact ⟨mod, List.mem_append_left o' hmem, hid⟩
  · rw [hmade, hhosts]
    exact h.since

theorem Handled.step {s'' : ScenarioManager V} {o' : List (ManagerEffect V)} {k : ℕ}
    (h : Handled ids s s' o) (hR : Change par s' s'' o' k) : Handled ids s s'' (o ++ o') := by
  cases hR with
  | books hs ho =>
    obtain ⟨hnext, hhosts, -⟩ : s''.nextNodeVectorIndex = s'.nextNodeVectorIndex ∧
        s''.hosts = s'.hosts ∧ s''.unEquippedHosts = s'.unEquippedHosts := by simpa [fleet] using hs
    refine h.same hnext hhosts (List.filterMap_eq_nil_iff.2 fun x hx => madeFor_eq_none ?_)
    simp [ho x hx]
  | driven hv hx => exact h.same rfl rfl (by simp [madeFor_eq_none, hx])
  | leftOut hv hu hshare => exact h.same rfl rfl rfl
  | forgotten hv => exact h.same rfl rfl rfl
  -- the module of a new vehicle gets the next index
  | @added x v hv hu hshare hx hid =>
    have hmade : (o ++ [x]).filterMap madeFor = o.filterMap madeFor ++ [v] := by simp [hid]
    refine ⟨⟨?_, fun w mod hw => ?_⟩, fun w hw hnone => ?_, fun w mod hw => ?_,
      h.next.trans (Nat.le_succ _)⟩
    · rw [hmade, ← List.append_assoc, List.length_append, h.made.length]
      rfl
    · rw [hmade, ← List.append_assoc]
      rw [OrderedMap.find_put] at hw
      split at hw
      · rename_i heq
        rw [← Option.some.inj hw, ← h.made.length, heq]
        simp
      · exact getElem?_append_of_some (h.made.hosts w mod hw) _
    · rw [OrderedMap.find_put] at hnone
      split at hnone
      · cases hnone
      · rename_i hne
        rw [hmade] at hw ⊢
        obtain ⟨mod, hmem, hget⟩ := h.removed w (by simpa [hne] using hw) hnone
        refine ⟨mod, List.mem_append_left _ hmem, ?_⟩
        rw [← List.append_assoc]
        exact getElem?_append_of_some hget _
    · rw [hmade]
      rw [OrderedMap.find_put] at hw
      split at hw
      · rename_i heq
        exact .inr ⟨Option.some.inj hw ▸ h.next, by simp [heq]⟩
      · exact (h.since w mod hw).imp_right fun hnew => ⟨hnew.1, List.mem_append_left _ hnew.2⟩
  -- the module is removed, but its index is not given to another
  | @givenUp x v m u hv hu hx =>
    obtain rfl := eq_moduleRemoved hx
    have hmade : (o ++ [ManagerEffect.moduleRemoved m]).filterMap madeFor =
        o.filterMap madeFor := by
      simp [madeFor]
    refine ⟨⟨by rw [hmade]; exact h.made.length, fun w mod hw => ?_⟩, fun w hw hnone => ?_,
      fun w mod hw => ?_, h.next⟩
    · rw [OrderedMap.find_erase] at hw
      split at hw
      · cases hw
      · rw [hmade]
        exact h.made.hosts w mod hw
    · rw [hmade] at hw ⊢
      by_cases heq : w = v
      · exact ⟨m, by simp, heq ▸ h.made.hosts v m hv⟩
      · rw [OrderedMap.find_erase, if_neg heq] at hnone
        obtain ⟨mod, hmem, hget⟩ := h.removed w hw hnone
        exact ⟨mod, List.mem_append_left _ hmem, hget⟩
    · rw [hmade]
      rw [OrderedMap.find_erase] at hw
      split at hw
      · cases hw
      · exact h.since w mod hw

theorem Made.handled (h : Made ids s) (hc : Chain (Change par) s n s' o) : Handled ids s s' o :=
  Chain.invariant (J := fun s' o _ => Handled ids s s' o)
    ⟨by simpa using h, fun v hv hnone => by simp [hnone] at hv, fun _ _ hw => .inl hw, le_rfl⟩
    (fun _ _ _ _ _ _ hh hR => hh.step hR) hc

end ScenarioManager

/-! ### What is known of the cars -/

section Invariant

open ScenarioManager

variable {par : CarPar V} {s s' s₁ s₂ : Cars V} {os o os₁ os₂ : List (ℚ × CarOutput V)}
  {c c' : Car V} {mod : ℕ} {t : ℚ} {v : V} {e : VehicleEvent} {es es₁ es₂ : List (CarEvent V)}

/-- The manager has given up a module of the vehicle at `t`. -/
def Cars.GivenUp (s : Cars V) (os : List (ℚ × CarOutput V)) (v : V) (t : ℚ) : Prop :=
  ∃ mod, (t, .manager (.moduleRemoved mod)) ∈ os ∧ (s.cars.map Car.nodeId)[mod]? = some v

/-- What is known of the module `mod`. -/
structure CarOk (par : CarPar V) (s : Cars V) (os : List (ℚ × CarOutput V)) (mod : ℕ)
    (c : Car V) : Prop where
  rest : c.phase = .running → Rest (par.app mod c.nodeId).mac c.app
  due : c.scheduled = true → s.now ≤ c.due ∧ c.due ≤ s.now + par.reportInterval
  /-- The application finds out about the end of its vehicle in time. -/
  known : c.phase = .running → c.app.isEquipped = true → s.managed c = false →
    ∃ t ≤ s.now, s.GivenUp os c.nodeId t ∧ c.due ≤ t + par.reportInterval
  served : s.run.manager.hosts.find c.nodeId = some mod →
    c.app.lteShutdown = false ∧ c.phase ≠ .finished
  finished : c.phase = .finished →
    c.app.lteShutdown = true ∧ c.app.isEquipped = false ∧ RowOut c.app

/-- The modules of the manager and what is known of each. -/
structure CarsOk (par : CarPar V) (s : Cars V) (os : List (ℚ × CarOutput V)) : Prop where
  made : Made (s.cars.map Car.nodeId) s.run.manager
  car : ∀ mod c, s.cars[mod]? = some c → CarOk par s os mod c
  aborted : ∀ c ∈ s.cars, c.phase = .aborted → s.ended = true

/-- What an event of a car is. -/
theorem step_car (h : par.machine.step s (.car t mod e) = some (s', o)) :
    s.ended = false ∧ s.upTo t = true ∧ ∃ c, s.cars[mod]? = some c ∧ c.phase = .running ∧
      c.enabled t e = true ∧
      s' = { s with
        cars := s.cars.set mod (par.handle mod (s.managed c) t c e).1
        now := t
        ended := (par.handle mod (s.managed c) t c e).1.phase = .aborted } ∧
      o = (par.handle mod (s.managed c) t c e).2.map fun x => (t, .car mod x) := by
  simp only [CarPar.machine, CarEvent.time] at h
  split at h
  · cases h
  · rename_i hcan
    split at h
    · cases h
    · rename_i c hc
      split at h
      · rename_i hgo
        obtain ⟨rfl, rfl⟩ := Prod.mk.inj (Option.some.inj h)
        simp only [Bool.or_eq_true, Bool.not_eq_true', not_or, Bool.not_eq_true,
          Bool.not_eq_false] at hcan
        simp only [Bool.and_eq_true, decide_eq_true_eq] at hgo
        exact ⟨hcan.1, hcan.2, c, hc, hgo.1, hgo.2, rfl, rfl⟩
      · cases h

/-- What an event of the manager is. -/
theorem step_trigger {m : ManagerEvent V} {uniform : V → ℚ}
    (h : par.machine.step s (.manager m uniform) = some (s', o)) :
    s.ended = false ∧ s.upTo m.timestep.simTime = true ∧ ∃ run outs,
      (scenarioManager par.manager).step s.run m = some (run, outs) ∧
      s' = ⟨run, s.cars ++ (outs.filterMap madeFor).map fun v =>
          par.newCar m.timestep.simTime (uniform v) v, m.timestep.simTime, run.failed⟩ ∧
      o = outs.map fun x => (m.timestep.simTime, .manager x) := by
  simp only [CarPar.machine, CarEvent.time] at h
  split at h
  · cases h
  · rename_i hcan
    split at h
    · cases h
    · rename_i run outs hst
      obtain ⟨rfl, rfl⟩ := Prod.mk.inj (Option.some.inj h)
      simp only [Bool.or_eq_true, Bool.not_eq_true', not_or, Bool.not_eq_true,
        Bool.not_eq_false] at hcan
      exact ⟨hcan.1, hcan.2, run, outs, hst, rfl, rfl⟩

omit [LinearOrder V] in
theorem upTo_iff : s.upTo t = true ↔
    s.now ≤ t ∧ ∀ c ∈ s.cars, c.scheduled = true → t ≤ c.due := by
  simp only [Cars.upTo, Bool.and_eq_true, decide_eq_true_eq, List.all_eq_true, Bool.or_eq_true,
    Bool.not_eq_true']
  refine and_congr_right fun _ => forall₂_congr fun c _ => ?_
  cases c.scheduled <;> simp

omit [LinearOrder V] in
/-- Every module that runs waits for a self-message. -/
theorem Car.scheduled_of_rest {mac : Option MacNodeId} (h : Rest mac c.app)
    (hrun : c.phase = .running) : c.scheduled = true := by
  simp only [Car.scheduled, hrun, decide_true, Bool.true_and, h.reportTimer, h.deleteSelfMsg]
  cases c.app.lteShutdown && mac.isSome <;> rfl

/-- The manager handles a report. -/
theorem handled_of_step {ids : List V} {m : ManagerEvent V} {run run' : ManagerRun V}
    {outs : List (ManagerEffect V)} (h : Made ids run.manager)
    (hst : (scenarioManager par.manager).step run m = some (run', outs)) :
    Handled ids run.manager run'.manager outs := by
  rcases step_manager hst with ⟨hs, rfl⟩ | ⟨hs, rfl⟩
  · rw [hs]
    exact h.handled (.nil : Chain (Change par.manager) run.manager 0 run.manager [])
  · have hperforms : Performs (Change par.manager) (exits par.manager m.timestep)
        (processResults par.manager m.timestep) := performs_processResults
    obtain ⟨n, -, hchain⟩ := hperforms run.manager
    exact h.handled (hs ▸ hchain)

/-- What an event does to a car at rest, by the event. -/
inductive CarTurn (par : CarPar V) (mod : ℕ) (managed : Bool) (t : ℚ) (c : Car V) :
    VehicleEvent → Car V → List Effect → Prop
  | present {c' : Car V} {out : List Effect} {r : ReportReplies} (hm : managed = true)
      (hrun : c'.phase = .running) (hlife : c'.app.life = c.app.life)
      (htimer : c'.app.reportTimer = c.app.reportTimer) (hdue : c'.due = t + par.reportInterval) :
      CarTurn par mod managed t c (.reportTimer r) c' out
  | gone {c' : Car V} {out : List Effect} {r : ReportReplies} (hm : managed = false)
      (hrun : c'.phase = .running) (hrest : Rest (par.app mod c.nodeId).mac c'.app)
      (hshutdown : c'.app.lteShutdown = true)
      (hdue : c'.due = if (par.app mod c.nodeId).mac.isSome then t else t + par.reportInterval)
      (hsilent : ∀ x, .traci x ∉ out) : CarTurn par mod managed t c (.reportTimer r) c' out
  | route {c' : Car V} {out : List Effect} {msg : ServerRouteMsg} {r : RouteReplies}
      (hrun : c'.phase = .running) (hlife : c'.app.life = c.app.life)
      (htimer : c'.app.reportTimer = c.app.reportTimer) (hdue : c'.due = c.due)
      (hsilent : c.app.isEquipped = false → ∀ x, .traci x ∉ out) :
      CarTurn par mod managed t c (.routeArrived msg r) c' out
  | deleted {c' : Car V} {out : List Effect} (hself : c.app.deleteSelfMsg = true)
      (hfinished : c'.phase = .finished) (hshutdown : c'.app.lteShutdown = c.app.lteShutdown)
      (hequipped : c'.app.isEquipped = c.app.isEquipped) (hrow : RowOut c'.app)
      (hsilent : ∀ x, .traci x ∉ out) : CarTurn par mod managed t c .deleteSelf c' out
  /-- A TraCI call has thrown. -/
  | thrownReport {c' : Car V} {out : List Effect} {r : ReportReplies} (hm : managed = true)
      (haborted : c'.phase = .aborted) (hlife : c'.app.life = c.app.life) :
      CarTurn par mod managed t c (.reportTimer r) c' out
  | thrownRoute {c' : Car V} {out : List Effect} {msg : ServerRouteMsg} {r : RouteReplies}
      (hequipped : c.app.isEquipped = true) (haborted : c'.phase = .aborted)
      (hlife : c'.app.life = c.app.life) :
      CarTurn par mod managed t c (.routeArrived msg r) c' out

omit [LinearOrder V] in
theorem carTurn_handle {managed : Bool} (hrest : Rest (par.app mod c.nodeId).mac c.app)
    (hen : c.enabled t e = true) :
    CarTurn par mod managed t c e (par.handle mod managed t c e).1
      (par.handle mod managed t c e).2 := by
  set a : VehicleApp := { c.app with simTime := t } with ha
  have hresta : Rest (par.app mod c.nodeId).mac a := hrest.congr rfl rfl
  cases e with
  -- what the manager does is not an event of the car
  | hostRemoved => cases hen
  | finish => cases hen
  | reportTimer r =>
    simp only [Car.enabled, Bool.and_eq_true, decide_eq_true_eq] at hen
    cases managed with
    | true =>
      obtain ⟨hlife, htimer⟩ := handleReportTimer_present (par.app mod c.nodeId) r a
      cases hv : (handleReportTimer (par.app mod c.nodeId) true r a).value with
      | none => exact .thrownReport rfl (by simp [CarPar.handle, Vehicle.handler, ← ha, hv]) hlife
      | some u =>
        have hscheduled : a.deleteScheduled = !a.reportTimer := by
          rw [hresta.deleteScheduled, hresta.reportTimer, Bool.not_not]
        rw [hv, hscheduled, Bool.not_not] at htimer
        have hself : (handleReportTimer (par.app mod c.nodeId) true r a).state.deleteSelfMsg =
            false := by
          have hsame := congrArg (·.2.2.2) hlife
          simp only [life] at hsame
          rw [hsame, hresta.deleteSelfMsg, ← hresta.deleteScheduled, hscheduled, Bool.not_eq_false']
          exact hen.1
        refine .present rfl ?_ hlife (htimer rfl) ?_
        · simp [CarPar.handle, Vehicle.handler, ← ha, hv, Vehicle.nextPhase]
        · simp [CarPar.handle, Vehicle.handler, CarPar.nextDue, ← ha, hself]
    | false =>
      obtain ⟨hvalue, hshutdown, hafter⟩ := handleReportTimer_gone r hresta hen.1
      refine .gone rfl ?_ hafter hshutdown ?_
        (Triple.apply noTraci_reportTimer_gone (s := a) (l := []) fun _ => List.not_mem_nil)
      · simp [CarPar.handle, Vehicle.handler, ← ha, hvalue, Vehicle.nextPhase]
      · simp only [CarPar.handle, Vehicle.handler, CarPar.nextDue, ← ha, hafter.deleteSelfMsg,
          hshutdown, Bool.true_and]
  | routeArrived msg r =>
    obtain ⟨hlife, htimer⟩ : AtPoint a.life a.reportTimer (socketDataArrived msg r a).state
        (socketDataArrived msg r a).out :=
      Triple.apply (steady_socketDataArrived msg r) (s := a) (l := []) ⟨rfl, rfl⟩
    have hcall : (∃ x, Effect.traci x ∈ (socketDataArrived msg r a).out) →
        c.app.isEquipped = true := fun h => (traci_socketDataArrived.1 h).1
    cases hv : (socketDataArrived msg r a).value with
    | none =>
      refine .thrownRoute (Bool.eq_true_of_not_eq_false fun hequipped => ?_)
        (by simp [CarPar.handle, Vehicle.handler, ← ha, hv]) hlife
      have hnot : a.isEquipped = false := hequipped
      rw [socketDataArrived_unequipped hnot] at hv
      cases hv
    | some u =>
      refine .route ?_ hlife htimer rfl fun hnot x hx => ?_
      · simp [CarPar.handle, Vehicle.handler, ← ha, hv, Vehicle.nextPhase]
      · rw [hcall ⟨x, hx⟩] at hnot
        cases hnot
  | deleteSelf =>
    simp only [Car.enabled, Bool.and_eq_true, decide_eq_true_eq] at hen
    obtain ⟨hvalue, hshutdown, hequipped, hrow⟩ :=
      handleDeleteSelf_spec (par.app mod c.nodeId) a
    refine .deleted hen.1 ?_ hshutdown hequipped hrow
      (Triple.apply noTraci_deleteSelf (s := a) (l := []) fun _ => List.not_mem_nil)
    simp [CarPar.handle, Vehicle.handler, ← ha, hvalue, Vehicle.nextPhase]

omit [LinearOrder V] in
theorem Cars.GivenUp.later (h : s.GivenUp os v t) (o : List (ℚ × CarOutput V))
    {ids : List V} (hids : s'.cars.map Car.nodeId = s.cars.map Car.nodeId ++ ids) :
    s'.GivenUp (os ++ o) v t := by
  obtain ⟨mod, hmem, hget⟩ := h
  exact ⟨mod, List.mem_append_left o hmem, hids ▸ getElem?_append_of_some hget _⟩

theorem CarsOk.running (h : CarsOk par s os) (hc : s.cars[mod]? = some c)
    (hrun : c.phase = .running) (hupTo : s.upTo t = true) :
    t ≤ c.due ∧ c.due ≤ s.now + par.reportInterval := by
  have hscheduled := Car.scheduled_of_rest ((h.car mod c hc).rest hrun) hrun
  exact ⟨(upTo_iff.1 hupTo).2 c (List.mem_of_getElem? hc) hscheduled,
    ((h.car mod c hc).due hscheduled).2⟩

/-- A trigger of the manager. -/
theorem CarsOk.trigger (h : CarsOk par s os) {m : ManagerEvent V} {uniform : V → ℚ}
    (hst : par.machine.step s (.manager m uniform) = some (s', o)) : CarsOk par s' (os ++ o) := by
  obtain ⟨hended, hupTo, run, outs, hrun, rfl, rfl⟩ := step_trigger hst
  set t := m.timestep.simTime with ht
  have hnow : s.now ≤ t := (upTo_iff.1 hupTo).1
  have hh := handled_of_step h.made hrun
  have hids : (s.cars ++ (outs.filterMap madeFor).map fun v =>
      par.newCar t (uniform v) v).map Car.nodeId =
        s.cars.map Car.nodeId ++ outs.filterMap madeFor := by
    simp [CarPar.newCar, Function.comp_def]
  have hlength : s.cars.length = s.run.manager.nextNodeVectorIndex := by
    rw [← h.made.length, List.length_map]
  -- a vehicle that has lost its module has been given up now
  have hremoved : ∀ v, (s.run.manager.hosts.find v).isSome ∨ v ∈ outs.filterMap madeFor →
      run.manager.hosts.find v = none → Cars.GivenUp ⟨run, s.cars ++ (outs.filterMap madeFor).map
        fun v => par.newCar t (uniform v) v, t, run.failed⟩
        (os ++ outs.map fun x => (t, CarOutput.manager x)) v t := by
    intro v hv hnone
    obtain ⟨mod, hmem, hget⟩ := hh.removed v hv hnone
    refine ⟨mod, List.mem_append_right os (List.mem_map_of_mem hmem), ?_⟩
    rw [hids]
    exact hget
  refine ⟨by rw [hids]; exact hh.made, fun mod c hc => ?_, fun c hc haborted => ?_⟩
  · by_cases hmod : mod < s.cars.length
    · -- a module that the manager had made before
      rw [List.getElem?_append_left hmod] at hc
      have hok := h.car mod c hc
      refine ⟨hok.rest, fun hscheduled => ?_, fun hphase hequipped hmanaged => ?_, fun hfind => ?_,
        hok.finished⟩
      · exact ⟨(upTo_iff.1 hupTo).2 c (List.mem_of_getElem? hc) hscheduled,
          (hok.due hscheduled).2.trans (by gcongr)⟩
      · have hnone : run.manager.hosts.find c.nodeId = none := by
          simpa [Cars.managed] using hmanaged
        cases hbefore : s.managed c with
        | true =>
          refine ⟨t, le_rfl, hremoved _ (.inl hbefore) hnone, ?_⟩
          exact (h.running hc hphase hupTo).2.trans (by gcongr)
        | false =>
          obtain ⟨t', hle, hgiven, hdue⟩ := hok.known hphase hequipped hbefore
          exact ⟨t', hle.trans hnow, hgiven.later _ hids, hdue⟩
      · rcases hh.since _ _ hfind with hfind | ⟨hle, -⟩
        · exact hok.served hfind
        · omega
    · -- a module that it has made in this trigger
      rw [List.getElem?_append_right (by omega), List.getElem?_map, Option.map_eq_some_iff] at hc
      obtain ⟨v, hv, rfl⟩ := hc
      refine ⟨fun _ => ⟨rfl, rfl, rfl, fun hshut => by cases hshut⟩, fun _ => ?_,
        fun _ _ hmanaged => ?_, fun _ => ⟨rfl, by simp [CarPar.newCar]⟩, fun hfinished => ?_⟩
      · exact ⟨le_add_of_nonneg_right par.nonneg, le_rfl⟩
      · refine ⟨t, le_rfl, hremoved v (.inr (List.mem_of_getElem? hv)) ?_, le_rfl⟩
        simpa [Cars.managed, CarPar.newCar] using hmanaged
      · simp [CarPar.newCar] at hfinished
  · rcases List.mem_append.1 hc with hc | hc
    · rw [h.aborted c hc haborted] at hended
      cases hended
    · obtain ⟨v, -, rfl⟩ := List.mem_map.1 hc
      simp [CarPar.newCar] at haborted

/-- What is to be known of a car that still runs. -/
theorem CarOk.running (hrun : c.phase = .running)
    (hrest : Rest (par.app mod c.nodeId).mac c.app)
    (hdue : s.now ≤ c.due ∧ c.due ≤ s.now + par.reportInterval)
    (hknown : c.app.isEquipped = true → s.managed c = false →
      ∃ t ≤ s.now, s.GivenUp os c.nodeId t ∧ c.due ≤ t + par.reportInterval)
    (hserved : s.run.manager.hosts.find c.nodeId = some mod → c.app.lteShutdown = false) :
    CarOk par s os mod c where
  rest _ := hrest
  due _ := hdue
  known _ := hknown
  served hfind := ⟨hserved hfind, by rw [hrun]; exact nofun⟩
  finished hfinished := by
    rw [hrun] at hfinished
    cases hfinished

/-- What is to be known of a car that has come to its end, or that an exception has stopped. -/
theorem CarOk.stopped (hphase : c.phase ≠ .running)
    (hserved : s.run.manager.hosts.find c.nodeId = some mod →
      c.app.lteShutdown = false ∧ c.phase ≠ .finished)
    (hfinished : c.phase = .finished →
      c.app.lteShutdown = true ∧ c.app.isEquipped = false ∧ RowOut c.app) :
    CarOk par s os mod c where
  rest hrun := absurd hrun hphase
  due hscheduled := by simp [Car.scheduled, hphase] at hscheduled
  known hrun := absurd hrun hphase
  served := hserved
  finished := hfinished

/-- An event keeps what is known of its car. -/
theorem CarOk.turn {out : List Effect} (h : CarOk par s os mod c) (hrun : c.phase = .running)
    (hid : c'.nodeId = c.nodeId) (hupTo : s.upTo t = true) (hc : c ∈ s.cars)
    (hen : c.enabled t e = true) (hturn : CarTurn par mod (s.managed c) t c e c' out)
    (hmanager : s'.run.manager = s.run.manager)
    (hids : s'.cars.map Car.nodeId = s.cars.map Car.nodeId) (hnow : s'.now = t) :
    CarOk par s' (os ++ o) mod c' := by
  have hrest := h.rest hrun
  have hscheduled := Car.scheduled_of_rest hrest hrun
  have hmanaged : s'.managed c' = s.managed c := by simp only [Cars.managed, hmanager, hid]
  have hpast : s.now ≤ t := (upTo_iff.1 hupTo).1
  have hnext : c'.due = t + par.reportInterval →
      s'.now ≤ c'.due ∧ c'.due ≤ s'.now + par.reportInterval := by
    intro heq
    rw [heq, hnow]
    exact ⟨le_add_of_nonneg_right par.nonneg, le_rfl⟩
  have hserved : c'.app.lteShutdown = c.app.lteShutdown →
      s'.run.manager.hosts.find c'.nodeId = some mod → c'.app.lteShutdown = false := by
    intro hshutdown hfind
    rw [hmanager, hid] at hfind
    exact hshutdown.trans (h.served hfind).1
  cases hturn with
  | present hm hrun' hlife htimer hdue' =>
    refine CarOk.running hrun' ?_ (hnext hdue') (fun _ hnot => ?_)
      (hserved (congrArg (·.2.1) hlife))
    · rw [hid]
      exact hrest.congr hlife htimer
    · rw [hmanaged, hm] at hnot
      cases hnot
  | gone hm hrun' hrest' hshutdown hdue' hsilent =>
    refine CarOk.running hrun' (by rw [hid]; exact hrest') ?_ (fun hequipped _ => ?_)
      fun hfind => ?_
    · split at hdue'
      · rw [hdue', hnow]
        exact ⟨le_rfl, le_add_of_nonneg_right par.nonneg⟩
      · exact hnext hdue'
    · rw [hrest'.isEquipped hshutdown] at hequipped
      cases hequipped
    · -- the manager would still have the vehicle
      simp [Cars.managed, ← hid, ← hmanager, hfind] at hm
  | route hrun' hlife htimer hdue' hsilent =>
    refine CarOk.running hrun' ?_ ?_ (fun hequipped hnot => ?_) (hserved (congrArg (·.2.1) hlife))
    · rw [hid]
      exact hrest.congr hlife htimer
    · -- the next self-message stays where it is
      rw [hdue', hnow]
      exact ⟨(upTo_iff.1 hupTo).2 c hc hscheduled, (h.due hscheduled).2.trans (by gcongr)⟩
    · obtain ⟨t', hle, hgiven, hle'⟩ := h.known hrun ((congrArg (·.1) hlife).symm.trans hequipped)
        (hmanaged ▸ hnot)
      exact ⟨t', hnow ▸ hle.trans hpast, hid ▸ hgiven.later o (by rw [hids, List.append_nil]),
        hdue' ▸ hle'⟩
  | deleted hself hfinished hshutdown hequipped hrow hsilent =>
    have hshut : c.app.lteShutdown = true := by
      rw [hrest.deleteSelfMsg, Bool.and_eq_true] at hself
      exact hself.1
    refine CarOk.stopped (by rw [hfinished]; exact nofun) (fun hfind => ?_)
      fun _ => ⟨hshutdown.trans hshut, hequipped.trans (hrest.isEquipped hshut), hrow⟩
    rw [hmanager, hid] at hfind
    rw [(h.served hfind).1] at hshut
    cases hshut
  | thrownReport hm haborted hlife | thrownRoute hequipped haborted hlife =>
    -- nothing is known of an application that an exception has stopped, but that it is not deleted
    refine CarOk.stopped (by rw [haborted]; exact nofun)
      (fun hfind => ⟨hserved (congrArg (·.2.1) hlife) hfind, by rw [haborted]; exact nofun⟩)
      fun hfinished => ?_
    rw [haborted] at hfinished
    cases hfinished

/-- Time passes for a car. -/
theorem CarOk.wait (h : CarOk par s os mod c) (hupTo : s.upTo t = true) (hc : c ∈ s.cars)
    (hmanager : s'.run.manager = s.run.manager)
    (hids : s'.cars.map Car.nodeId = s.cars.map Car.nodeId) (hnow : s'.now = t) :
    CarOk par s' (os ++ o) mod c := by
  have hpast : s.now ≤ t := (upTo_iff.1 hupTo).1
  refine ⟨h.rest, fun hscheduled => ?_, fun hrun hequipped hnot => ?_, hmanager ▸ h.served,
    h.finished⟩
  · rw [hnow]
    exact ⟨(upTo_iff.1 hupTo).2 c hc hscheduled, (h.due hscheduled).2.trans (by gcongr)⟩
  · rw [Cars.managed, hmanager] at hnot
    obtain ⟨t', hle, hgiven, hle'⟩ := h.known hrun hequipped hnot
    exact ⟨t', hnow ▸ hle.trans hpast, hgiven.later o (by rw [hids, List.append_nil]), hle'⟩

/-- An event of a car. -/
theorem CarsOk.event (h : CarsOk par s os)
    (hst : par.machine.step s (.car t mod e) = some (s', o)) : CarsOk par s' (os ++ o) := by
  obtain ⟨hended, hupTo, c, hc, hrun, hen, rfl, rfl⟩ := step_car hst
  have hmem := List.mem_of_getElem? hc
  have hids : (s.cars.set mod (par.handle mod (s.managed c) t c e).1).map Car.nodeId =
      s.cars.map Car.nodeId := by
    rw [List.map_set]
    refine List.ext_getElem? fun i => ?_
    rw [List.getElem?_set]
    split
    · rename_i hi
      subst hi
      have hlt := (List.getElem?_eq_some_iff.1 hc).1
      rw [if_pos (by simpa using hlt), List.getElem?_map, hc]
      rfl
    · rfl
  refine ⟨by rw [hids]; exact h.made, fun mod' c' hc' => ?_, fun c' hc' haborted => ?_⟩
  · rw [List.getElem?_set] at hc'
    split at hc'
    · rename_i hmod
      subst hmod
      split at hc'
      · obtain rfl := Option.some.inj hc'
        exact (h.car mod c hc).turn hrun rfl hupTo hmem hen
          (carTurn_handle ((h.car mod c hc).rest hrun) hen) rfl hids rfl
      · cases hc'
    · exact (h.car mod' c' hc').wait hupTo (List.mem_of_getElem? hc') rfl hids rfl
  · rcases List.mem_or_eq_of_mem_set hc' with hc' | rfl
    · rw [h.aborted c' hc' haborted] at hended
      cases hended
    · simp [haborted]

theorem carsOk_init (par : CarPar V) : CarsOk par ({} : Cars V) [] :=
  ⟨⟨rfl, fun v mod hv => by simp [OrderedMap.find] at hv⟩, fun mod c hc => by simp at hc,
    fun c hc => by simp at hc⟩

/-- What is known of the modules, a step later. -/
theorem CarsOk.step {x : CarEvent V} (h : CarsOk par s os)
    (hst : par.machine.step s x = some (s', o)) : CarsOk par s' (os ++ o) := by
  cases x with
  | manager m uniform => exact h.trigger hst
  | car t mod e => exact h.event hst

/-- What is known of the modules after a run. -/
theorem carsOk_of_exec (h : par.machine.exec {} es = some (s, os)) : CarsOk par s os :=
  Machine.exec_induction (J := fun _ s os => CarsOk par s os) (carsOk_init par)
    (fun _ _ _ _ _ _ _ hJ hst => hJ.step hst) h

/-! ### The departure of a vehicle -/

/-- A TraCI call for a vehicle without a module at the manager comes from a route, and the vehicle
was given up no longer than a report interval ago. -/
theorem calls_soon_after {x : TraciCall} (h : par.machine.exec {} es = some (s, os))
    (hst : par.machine.step s (.car t mod e) = some (s', o))
    (hx : (t, .car mod (.traci x)) ∈ o) :
    ∃ c, s.cars[mod]? = some c ∧ (s.managed c = true ∨ (∃ msg r, e = .routeArrived msg r) ∧
      ∃ t', t - par.reportInterval ≤ t' ∧ t' ≤ t ∧ s.GivenUp os c.nodeId t') := by
  have hok := carsOk_of_exec h
  obtain ⟨-, hupTo, c, hc, hrun, hen, rfl, rfl⟩ := step_car hst
  refine ⟨c, hc, ?_⟩
  have hout : .traci x ∈ (par.handle mod (s.managed c) t c e).2 := by simpa using hx
  cases hm : s.managed c with
  | true => exact .inl rfl
  | false =>
    -- an application that is equipped has not yet found out that its vehicle is gone
    have hsoon : c.app.isEquipped = true →
        ∃ t', t - par.reportInterval ≤ t' ∧ t' ≤ t ∧ s.GivenUp os c.nodeId t' := by
      intro hequipped
      obtain ⟨t', hle, hgiven, hdue⟩ := (hok.car mod c hc).known hrun hequipped hm
      have hnow := (hok.running hc hrun hupTo).1
      exact ⟨t', by linarith, hle.trans (upTo_iff.1 hupTo).1, hgiven⟩
    rw [hm] at hout
    have hturn : CarTurn par mod false t c e _ _ :=
      carTurn_handle ((hok.car mod c hc).rest hrun) hen
    cases hturn with
    | present hm' => cases hm'
    | thrownReport hm' => cases hm'
    | gone _ _ _ _ _ hsilent => exact absurd hout (hsilent x)
    | deleted _ _ _ _ _ hsilent => exact absurd hout (hsilent x)
    | route _ _ _ _ hsilent =>
      refine .inr ⟨⟨_, _, rfl⟩, hsoon (Bool.eq_true_of_not_eq_false fun hnot => ?_)⟩
      exact hsilent hnot x hout
    | thrownRoute hequipped => exact .inr ⟨⟨_, _, rfl⟩, hsoon hequipped⟩

/-- The report interval of the cars. -/
def secondsBetween : ℚ := 5 / 2

theorem secondsBetween_nonneg : 0 ≤ secondsBetween := by norm_num [secondsBetween]

/-- Cars with a LTE card that all take part. -/
def lteCars : CarPar ℕ where
  manager := halfEquipped
  app _ _ := ⟨"car[0]".toList, "veh7".toList, some 1025⟩
  reportInterval := secondsBetween
  nonneg := secondsBetween_nonneg
  penetrationRate := 1
  edgeIndex := indexAB

/-- The vehicle 7 departs and arrives between two of its reports. -/
def sevenLeaves : List (CarEvent ℕ) := twoVehiclesRun.map fun m => .manager m fun _ => 0

/-- The car is of the vehicle 7, and the manager has no module for it. -/
def sevenGone (s : Cars ℕ) (c : Car ℕ) : Bool := c.nodeId = 7 && !s.managed c

/-- A call for the vehicle. -/
def isRoadIdCall : ℚ × CarOutput ℕ → Bool
  | (t, .car 0 (.traci .getRoadId)) => t = 13 / 4
  | _ => false

theorem mem_of_any_isRoadIdCall {os : List (ℚ × CarOutput ℕ)} (h : os.any isRoadIdCall = true) :
    (13 / 4, .car 0 (.traci .getRoadId)) ∈ os := by
  obtain ⟨x, hx, hcall⟩ := List.any_eq_true.1 h
  unfold isRoadIdCall at hcall
  split at hcall
  · rw [← of_decide_eq_true hcall]
    exact hx
  · cases hcall

/-- A route arrives for the vehicle that has left. -/
theorem calls_soon_after_sevenLeaves :
    ∃ s os, lteCars.machine.exec {} sevenLeaves = some (s, os) ∧
      ∃ t', 13 / 4 - secondsBetween ≤ t' ∧ t' ≤ 13 / 4 ∧ s.GivenUp os 7 t' := by
  have hrun : (lteCars.machine.exec {} sevenLeaves).any (fun r =>
      r.1.cars[0]?.any (sevenGone r.1) &&
        (lteCars.machine.step r.1 (.car (13 / 4) 0 (.routeArrived routeToA ⟨none, none, none⟩))).any
          fun r' => r'.2.any isRoadIdCall) = true := by decide +kernel
  obtain ⟨⟨s, os⟩, hexec, hend⟩ := (Option.any_eq_true _ _).1 hrun
  obtain ⟨hgone, hstep⟩ := Bool.and_eq_true_iff.1 hend
  obtain ⟨⟨s', o⟩, hst, hcall⟩ := (Option.any_eq_true _ _).1 hstep
  obtain ⟨c, hc, hseven⟩ := (Option.any_eq_true _ _).1 hgone
  obtain ⟨c', hc', hsoon⟩ := calls_soon_after hexec hst (mem_of_any_isRoadIdCall hcall)
  obtain rfl := Option.some.inj (hc.symm.trans hc')
  simp only [sevenGone, Bool.and_eq_true, decide_eq_true_eq, Bool.not_eq_true'] at hseven
  rcases hsoon with hmanaged | ⟨-, t', hafter, hbefore, hgiven⟩
  · rw [hseven.2] at hmanaged
    cases hmanaged
  · exact ⟨s, os, hexec, t', hafter, hbefore, hseven.1 ▸ hgiven⟩

/-- The application finds out by `d` that its vehicle is gone. -/
def CarPar.Winds (par : CarPar V) (d : ℚ) (mod : ℕ) (s : Cars V) (c : Car V) : Prop :=
  c.phase = .running ∧ c.due ≤ d ∨
  c.phase = .running ∧ c.app.lteShutdown = true ∧ (par.app mod c.nodeId).mac = none ∨
  c.phase = .finished ∨
  c.phase = .aborted ∧ s.now ≤ d

omit [LinearOrder V] in
/-- What an event does to a car of a vehicle that is gone. -/
theorem CarPar.Winds.turn {out : List Effect} {d : ℚ} (h : par.Winds d mod s c)
    (hrest : Rest (par.app mod c.nodeId).mac c.app) (hrun : c.phase = .running)
    (hid : c'.nodeId = c.nodeId) (hdue : t ≤ c.due) (hturn : CarTurn par mod false t c e c' out)
    (hnow : s'.now = t) : par.Winds d mod s' c' := by
  have hstage : c.due ≤ d ∨ c.app.lteShutdown = true ∧ (par.app mod c.nodeId).mac = none := by
    simpa [Winds, hrun] using h
  cases hturn with
  | present hm => cases hm
  | thrownReport hm => cases hm
  | gone _ hrun' _ hshutdown hdue' _ =>
    cases hmac : (par.app mod c.nodeId).mac with
    | none => exact .inr (.inl ⟨hrun', hshutdown, hid ▸ hmac⟩)
    | some nid =>
      -- the deletion comes at once, and so in time
      rw [hmac] at hdue' hstage
      have hd : c.due ≤ d := by simpa using hstage
      exact .inl ⟨hrun', hdue'.le.trans (hdue.trans hd)⟩
  | route hrun' hlife _ hdue' _ =>
    refine hstage.elim (fun hd => .inl ⟨hrun', hdue'.le.trans hd⟩) fun ⟨hshut, hmac⟩ => ?_
    exact .inr (.inl ⟨hrun', (congrArg (·.2.1) hlife).trans hshut, hid ▸ hmac⟩)
  | deleted _ hfinished => exact .inr (.inr (.inl hfinished))
  | thrownRoute hequipped haborted =>
    refine .inr (.inr (.inr ⟨haborted, ?_⟩))
    -- an application that is shut down takes no routes
    refine hstage.elim (fun hd => hnow.le.trans (hdue.trans hd)) fun ⟨hshut, _⟩ => ?_
    rw [hrest.isEquipped hshut] at hequipped
    cases hequipped

/-- The module `mod` is of a vehicle that is gone, and its application finds out by `d`. -/
def CarPar.Leaving (par : CarPar V) (d : ℚ) (mod : ℕ) (v : V) (s : Cars V) : Prop :=
  s.run.manager.hosts.find v = none ∧
    ∃ c, s.cars[mod]? = some c ∧ c.nodeId = v ∧ par.Winds d mod s c

/-- A step, unless the vehicle comes back in it. -/
theorem CarPar.Leaving.step {d : ℚ} {x : CarEvent V} (h : par.Leaving d mod v s)
    (hok : CarsOk par s os) (hst : par.machine.step s x = some (s', o))
    (hgone : ∀ t y, (t, .manager y) ∈ o → madeFor y ≠ some v) : par.Leaving d mod v s' := by
  obtain ⟨hnone, c, hc, rfl, hwinds⟩ := h
  cases x with
  | manager m uniform =>
    obtain ⟨hended, hupTo, run, outs, hrun, rfl, rfl⟩ := step_trigger hst
    have hnew : c.nodeId ∉ outs.filterMap madeFor := by
      intro hmem
      obtain ⟨y, hy, hmade⟩ := List.mem_filterMap.1 hmem
      exact hgone _ y (List.mem_map_of_mem hy) hmade
    refine ⟨?_, c, getElem?_append_of_some hc _, rfl, ?_⟩
    · refine Option.eq_none_iff_forall_ne_some.2 fun mod' hfind => ?_
      rcases (handled_of_step hok.made hrun).since _ _ hfind with hbefore | ⟨-, hmem⟩
      · simp [hnone] at hbefore
      · exact hnew hmem
    · refine hwinds.imp_right (Or.imp_right (Or.imp_right fun ⟨haborted, _⟩ => ?_))
      rw [hok.aborted c (List.mem_of_getElem? hc) haborted] at hended
      cases hended
  | car t mod' e =>
    obtain ⟨hended, hupTo, c', hc', hrun, hen, rfl, rfl⟩ := step_car hst
    refine ⟨hnone, ?_⟩
    by_cases hmod : mod' = mod
    · subst hmod
      obtain rfl := Option.some.inj (hc.symm.trans hc')
      have hm : s.managed c = false := by simp [Cars.managed, hnone]
      have hrest := (hok.car mod' c hc).rest hrun
      rw [hm]
      refine ⟨_, List.getElem?_set_self (List.getElem?_eq_some_iff.1 hc).1, rfl, ?_⟩
      exact hwinds.turn hrest hrun rfl (hok.running hc hrun hupTo).1 (carTurn_handle hrest hen) rfl
    · refine ⟨c, by rw [List.getElem?_set_ne hmod]; exact hc, rfl, ?_⟩
      refine hwinds.imp_right (Or.imp_right (Or.imp_right fun ⟨haborted, _⟩ => ?_))
      rw [hok.aborted c (List.mem_of_getElem? hc) haborted] at hended
      cases hended

/-- A report interval after a vehicle is given up, if it has not come back, each module it has had
is out of the network, and deleted with its row written if it is one with a MAC. -/
theorem departed_shuts_down (h₁ : par.machine.exec {} es₁ = some (s₁, os₁))
    (h₂ : par.machine.exec s₁ es₂ = some (s₂, os₂)) (hc : s₁.cars[mod]? = some c)
    (hgone : s₁.managed c = false)
    (hback : ∀ t x, (t, .manager x) ∈ os₂ → madeFor x ≠ some c.nodeId)
    (hlate : s₁.now + par.reportInterval < s₂.now) :
    ∃ c', s₂.cars[mod]? = some c' ∧ c'.nodeId = c.nodeId ∧ c'.app.lteShutdown = true ∧
      c'.app.isEquipped = false ∧
      ((par.app mod c.nodeId).mac.isSome → c'.phase = .finished ∧ RowOut c'.app) := by
  have hok₁ := carsOk_of_exec h₁
  set d := s₁.now + par.reportInterval with hd
  have hstart : par.Leaving d mod c.nodeId s₁ := by
    refine ⟨by simpa [Cars.managed] using hgone, c, hc, rfl, ?_⟩
    cases hphase : c.phase with
    | running =>
      exact .inl ⟨hphase, ((hok₁.car mod c hc).due
        (Car.scheduled_of_rest ((hok₁.car mod c hc).rest hphase) hphase)).2⟩
    | finished => exact .inr (.inr (.inl hphase))
    | aborted => exact .inr (.inr (.inr ⟨hphase, le_add_of_nonneg_right par.nonneg⟩))
  obtain ⟨hok₂, hleaving⟩ := Machine.exec_induction
    (J := fun _ s os => CarsOk par s (os₁ ++ os) ∧
      ((∀ t x, (t, .manager x) ∈ os → madeFor x ≠ some c.nodeId) → par.Leaving d mod c.nodeId s))
    ⟨by simpa using hok₁, fun _ => hstart⟩
    (fun es s os x s' o _ hJ hst => by
      refine ⟨by rw [← List.append_assoc]; exact hJ.1.step hst, fun hnot => ?_⟩
      exact (hJ.2 fun t y hy => hnot t y (List.mem_append_left o hy)).step hJ.1 hst
        fun t y hy => hnot t y (List.mem_append_right os hy)) h₂
  obtain ⟨-, c', hc', hid, hwinds⟩ := hleaving hback
  have hok := hok₂.car mod c' hc'
  refine ⟨c', hc', hid, ?_⟩
  rcases hwinds with ⟨hrun, hdue⟩ | ⟨hrun, hshut, hmac⟩ | hfinished | ⟨-, hnow⟩
  · -- its self-message would be overdue
    have hsoon := (hok.due (Car.scheduled_of_rest (hok.rest hrun) hrun)).1
    exact absurd (hlate.trans_le (hsoon.trans hdue)) (lt_irrefl d)
  · refine ⟨hshut, (hok.rest hrun).isEquipped hshut, fun hsome => ?_⟩
    simp [← hid, hmac] at hsome
  · obtain ⟨hshut, hequipped, hrow⟩ := hok.finished hfinished
    exact ⟨hshut, hequipped, fun _ => ⟨hfinished, hrow⟩⟩
  · exact absurd (hlate.trans_le hnow) (lt_irrefl d)

/-- The first report after the departure, and the time step after it. -/
def sevenReports : List (CarEvent ℕ) :=
  [.car (7 / 2) 0 (.reportTimer ⟨none, none, none, none, none, none, none⟩),
    .car (7 / 2) 0 .deleteSelf,
    .manager (.executeOneTimestep ⟨6, [.sim [], .idList [8], .vehicle 8 (standing ⟨3, 1⟩)],
      fun _ => [], fun _ => "car"⟩) fun _ => 0]

/-- The vehicle 7 does not come back in the output. -/
def notBack : ℚ × CarOutput ℕ → Bool
  | (_, .manager x) => madeFor x ≠ some 7
  | _ => true

theorem departed_shuts_down_sevenReports :
    ∃ s os s' os' c, lteCars.machine.exec {} sevenLeaves = some (s, os) ∧
      lteCars.machine.exec s sevenReports = some (s', os') ∧ s'.cars[0]? = some c ∧
        c.nodeId = 7 ∧ c.app.lteShutdown = true ∧ c.app.isEquipped = false ∧
          c.phase = .finished ∧ RowOut c.app := by
  have hrun : (lteCars.machine.exec {} sevenLeaves).any (fun r =>
      r.1.cars[0]?.any (sevenGone r.1) &&
        (lteCars.machine.exec r.1 sevenReports).any fun r' =>
          r'.2.all notBack && decide (r.1.now + lteCars.reportInterval < r'.1.now)) = true := by
    decide +kernel
  obtain ⟨⟨s, os⟩, hexec, hend⟩ := (Option.any_eq_true _ _).1 hrun
  obtain ⟨hgone, hlater⟩ := Bool.and_eq_true_iff.1 hend
  obtain ⟨⟨s', os'⟩, hexec', hend'⟩ := (Option.any_eq_true _ _).1 hlater
  obtain ⟨hback, hlate⟩ := Bool.and_eq_true_iff.1 hend'
  obtain ⟨c, hc, hseven⟩ := (Option.any_eq_true _ _).1 hgone
  simp only [sevenGone, Bool.and_eq_true, decide_eq_true_eq, Bool.not_eq_true'] at hseven
  obtain ⟨c', hc', hid, hshut, hequipped, hdeleted⟩ :=
    departed_shuts_down hexec hexec' hc hseven.2
      (fun t x hx => by simpa [notBack, hseven.1] using List.all_eq_true.1 hback _ hx)
      (of_decide_eq_true hlate)
  exact ⟨s, os, s', os', c', hexec, hexec', hc', hid.trans hseven.1, hshut, hequipped,
    hdeleted rfl⟩

/-- The module that the manager has for a vehicle is the vehicle's and has not been deleted, its
stack is in the network, and its next report is due within a report interval. -/
theorem managed_alive (h : par.machine.exec {} es = some (s, os))
    (hv : s.run.manager.hosts.find v = some mod) :
    ∃ c, s.cars[mod]? = some c ∧ c.nodeId = v ∧ c.app.lteShutdown = false ∧
      c.phase ≠ .finished ∧ (s.ended = false → c.phase = .running ∧ c.app.reportTimer = true ∧
        s.now ≤ c.due ∧ c.due ≤ s.now + par.reportInterval) := by
  have hok := carsOk_of_exec h
  have hget := hok.made.hosts v mod hv
  rw [List.getElem?_map, Option.map_eq_some_iff] at hget
  obtain ⟨c, hc, rfl⟩ := hget
  have hcar := hok.car mod c hc
  obtain ⟨hshut, hphase⟩ := hcar.served hv
  refine ⟨c, hc, rfl, hshut, hphase, fun hended => ?_⟩
  have hrun : c.phase = .running := by
    cases hp : c.phase with
    | running => rfl
    | finished => exact absurd hp hphase
    | aborted =>
      rw [hok.aborted c (List.mem_of_getElem? hc) hp] at hended
      cases hended
  have hrest := hcar.rest hrun
  exact ⟨hrun, by rw [hrest.reportTimer, hshut]; rfl,
    hcar.due (Car.scheduled_of_rest hrest hrun)⟩

theorem managed_alive_seven :
    ∃ s os c, lteCars.machine.exec {} (sevenLeaves.take 2) = some (s, os) ∧
      s.cars[0]? = some c ∧ c.nodeId = 7 ∧ c.phase = .running := by
  have hrun : (lteCars.machine.exec {} (sevenLeaves.take 2)).any (fun r =>
      decide (r.1.run.manager.hosts.find 7 = some 0) && !r.1.ended) = true := by decide +kernel
  obtain ⟨⟨s, os⟩, hexec, hend⟩ := (Option.any_eq_true _ _).1 hrun
  simp only [Bool.and_eq_true, decide_eq_true_eq, Bool.not_eq_true'] at hend
  obtain ⟨c, hc, hid, -, -, hrunning⟩ := managed_alive hexec hend.1
  exact ⟨s, os, c, hexec, hc, hid, (hrunning hend.2).1⟩

end Invariant

end V2nLte
