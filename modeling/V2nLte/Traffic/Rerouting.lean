import V2nLte.Machine.Pool
import V2nLte.Traffic.Reroute
import V2nLte.Traffic.VehicleFrame
import V2nLte.Traffic.Weights

/-!
# The vehicles and the server together

The traffic server and any number of vehicles exchange reports and routes through a network that
delivers datagrams in any order and may lose them.  A step of the system is a step of one of the
modules, as `server` and `vehicle` have it; its outputs go into the network.

The server and the vehicles keep books of their own: the server remembers when it has sent a route
to whom, and a vehicle counts the routes that it receives.  Over a run of the whole system these
books fit together.

* `commands_fit_road` : what a vehicle asks SUMO to drive is a part of the road network from where
  the vehicle is, and the answer to a report of this vehicle.
* `rows_fit_server` : the numbers in the statistics of a vehicle are bounded by what the server has
  sent it and by its interval between routes.
-/

namespace V2nLte

open TrafficServer VehicleApp Handler

/-! ### The system -/

variable {V : Type}

/-- What is given from outside. -/
structure ReroutingPar (V : Type) where
  /-- The parameters of the server. -/
  server : ServerPar
  /-- The surroundings of each vehicle. -/
  vehicle : V → VehiclePar
  /-- The address of each vehicle, as the server prints it. -/
  address : V → Text
  /-- The port of its socket. -/
  port : V → ℤ

/-- The server, the vehicles and the messages between them. -/
structure Rerouting (V : Type) where
  /-- The server. -/
  server : TrafficServer
  /-- The vehicles. -/
  vehicles : V → Vehicle
  /-- The reports on their way, each with its sender. -/
  reports : List (V × VehicleReportMsg) := []
  /-- The routes on their way. -/
  routes : List RouteSent := []
  /-- The time of the last event. -/
  now : ℚ := 0
  /-- An exception has ended the simulation. -/
  ended : Bool := false

/-- What can happen. -/
inductive ReroutingEvent (V : Type) where
  /-- A vehicle handles an event other than the arrival of a route. -/
  | vehicle (v : V) (e : VehicleEvent)
  /-- The report at this position arrives at the server. -/
  | reportArrives (i : ℕ)
  /-- The route at this position arrives at a vehicle. -/
  | routeArrives (v : V) (i : ℕ) (r : RouteReplies)
  /-- The report at this position is lost. -/
  | reportLost (i : ℕ)
  /-- The route at this position is lost. -/
  | routeLost (i : ℕ)
  /-- The decay timer of the server. -/
  | decayTimer
  /-- The timer that resets its reroute counter. -/
  | rerouteCounterReset

/-- What the modules put out. -/
inductive ReroutingOut (V : Type) where
  /-- A vehicle does something. -/
  | effect (v : V) (o : Effect)
  /-- The server sends a route. -/
  | sent (r : RouteSent)

/-- The reports among the outputs of a vehicle. -/
def reportsOf (os : List Effect) : List VehicleReportMsg :=
  os.filterMap fun
    | .report msg => some msg
    | _ => none

/-- An event is the arrival of a route. -/
def VehicleEvent.isRoute : VehicleEvent → Bool
  | .routeArrived .. => true
  | _ => false

namespace Rerouting

variable [DecidableEq V] (par : ReroutingPar V)

/-- A vehicle has handled an event at time `t`. -/
def afterVehicle (s : Rerouting V) (t : ℚ) (v : V) (a : Vehicle) (os : List Effect) :
    Rerouting V :=
  { s with
    vehicles := Function.update s.vehicles v a
    reports := s.reports ++ (reportsOf os).map fun msg => (v, msg)
    now := t
    ended := decide (a.phase = .aborted) }

/-- The server has handled an event at time `t`. -/
def afterServer (s : Rerouting V) (t : ℚ) (sv : TrafficServer) (rs : List RouteSent) :
    Rerouting V :=
  { s with server := sv, routes := s.routes ++ rs, now := t }

/-- A vehicle handles an event at time `t`. -/
def vehicleStep (s : Rerouting V) (t : ℚ) (v : V) (e : VehicleEvent) :
    Option (Rerouting V × List (ReroutingOut V)) :=
  ((V2nLte.vehicle (par.vehicle v)).step (s.vehicles v) (t, e)).map fun r =>
    (s.afterVehicle t v r.1 r.2, r.2.map (.effect v))

/-- The server handles an event. -/
def serverStep (s : Rerouting V) (e : ServerEvent) :
    Option (Rerouting V × List (ReroutingOut V)) :=
  ((V2nLte.server par.server).step s.server e).map fun r =>
    (s.afterServer e.time r.1 r.2, r.2.map .sent)

/-- The system; every event has its time. -/
def machine : Machine (Rerouting V) (ℚ × ReroutingEvent V) (ReroutingOut V) where
  step s e :=
    if s.ended = true ∨ e.1 < s.now then none
    else
      match e.2 with
      -- a route reaches a vehicle through the network only
      | .vehicle v e' => if e'.isRoute then none else s.vehicleStep par e.1 v e'
      | .reportArrives i =>
        match s.reports[i]? with
        | none => none
        | some m =>
          { s with reports := s.reports.eraseIdx i }.serverStep par
            (.report e.1 (par.address m.1) (par.port m.1) m.2)
      | .routeArrives v i r =>
        match s.routes[i]? with
        | none => none
        | some m =>
          -- a datagram goes to the vehicle with the address it is for
          if m.address = par.address v then
            { s with routes := s.routes.eraseIdx i }.vehicleStep par e.1 v (.routeArrived m.msg r)
          else none
      | .reportLost i => some ({ s with reports := s.reports.eraseIdx i, now := e.1 }, [])
      | .routeLost i => some ({ s with routes := s.routes.eraseIdx i, now := e.1 }, [])
      | .decayTimer => s.serverStep par (.decayTimer e.1)
      | .rerouteCounterReset => s.serverStep par (.rerouteCounterReset e.1)

/-- The system at the start of the simulation: every vehicle is there from some time on. -/
def init (net : RoadNet) (index : EdgeIndex) (penetrationRate : ℚ) (uniform start : V → ℚ) :
    Rerouting V where
  server := TrafficServer.init net
  vehicles v := Vehicle.init penetrationRate (uniform v) index (start v)

/-! ### The steps -/

/-- The steps of the system, by the module that takes them. -/
inductive Step (s : Rerouting V) (t : ℚ) :
    ReroutingEvent V → Rerouting V → List (ReroutingOut V) → Prop
  /-- A vehicle handles an event of its own. -/
  | vehicle {v : V} {e : VehicleEvent} {a : Vehicle} {os : List Effect} :
      e.isRoute = false →
      (V2nLte.vehicle (par.vehicle v)).step (s.vehicles v) (t, e) = some (a, os) →
      Step s t (.vehicle v e) (s.afterVehicle t v a os) (os.map (.effect v))
  /-- A route arrives at a vehicle. -/
  | route {v : V} {i : ℕ} {r : RouteReplies} {m : RouteSent} {a : Vehicle} {os : List Effect} :
      s.routes[i]? = some m → m.address = par.address v →
      (V2nLte.vehicle (par.vehicle v)).step (s.vehicles v) (t, .routeArrived m.msg r) =
        some (a, os) →
      Step s t (.routeArrives v i r)
        ({ s with routes := s.routes.eraseIdx i }.afterVehicle t v a os) (os.map (.effect v))
  /-- A report arrives at the server. -/
  | report {i : ℕ} {m : V × VehicleReportMsg} {sv : TrafficServer} {rs : List RouteSent} :
      s.reports[i]? = some m →
      (V2nLte.server par.server).step s.server
        (.report t (par.address m.1) (par.port m.1) m.2) = some (sv, rs) →
      Step s t (.reportArrives i)
        ({ s with reports := s.reports.eraseIdx i }.afterServer t sv rs) (rs.map .sent)
  /-- A timer of the server fires. -/
  | timer {e : ReroutingEvent V} {e' : ServerEvent} {sv : TrafficServer} :
      e'.time = t → (V2nLte.server par.server).step s.server e' = some (sv, []) →
      Step s t e (s.afterServer t sv []) []
  /-- A message is lost. -/
  | lost {e : ReroutingEvent V} {reports : List (V × VehicleReportMsg)} {routes : List RouteSent} :
      reports.Sublist s.reports → routes.Sublist s.routes →
      Step s t e { s with reports, routes, now := t } []

variable {par} {s s' : Rerouting V} {t : ℚ} {e : ReroutingEvent V} {o : List (ReroutingOut V)}

/-- A timer makes the server send nothing. -/
theorem timer_quiet {q : ServerPar} {sv sv' : TrafficServer} {rs : List RouteSent}
    {e : ServerEvent} (he : ∀ t addr port msg, e ≠ .report t addr port msg)
    (h : (V2nLte.server q).step sv e = some (sv', rs)) : rs = [] := by
  rcases rs with - | ⟨r, rs⟩
  · rfl
  · obtain ⟨t, addr, port, msg, -, rfl, -⟩ := answer_of_step h List.mem_cons_self
    exact absurd rfl (he t addr port msg)

theorem step_of_machine (h : (machine par).step s (t, e) = some (s', o)) :
    s.ended = false ∧ s.now ≤ t ∧ Step par s t e s' o := by
  simp only [machine] at h
  split at h
  · cases h
  rename_i hgo
  obtain ⟨hended, hnow⟩ := not_or.1 hgo
  refine ⟨by simpa using hended, not_lt.1 hnow, ?_⟩
  cases e with
  -- a vehicle acts on its own
  | vehicle v e' =>
    simp only at h
    split at h
    · cases h
    · rename_i hroute
      obtain ⟨⟨a, os⟩, hst, heq⟩ := Option.map_eq_some_iff.1 h
      obtain ⟨rfl, rfl⟩ := Prod.mk.inj heq
      exact .vehicle (by simpa using hroute) hst
  | reportArrives i =>
    cases hi : s.reports[i]? with
    | none => simp [hi] at h
    | some m =>
      simp only [hi] at h
      obtain ⟨⟨sv, rs⟩, hst, heq⟩ := Option.map_eq_some_iff.1 h
      obtain ⟨rfl, rfl⟩ := Prod.mk.inj heq
      exact .report hi hst
  | routeArrives v i r =>
    cases hi : s.routes[i]? with
    | none => simp [hi] at h
    | some m =>
      simp only [hi] at h
      split at h
      · rename_i haddr
        obtain ⟨⟨a, os⟩, hst, heq⟩ := Option.map_eq_some_iff.1 h
        obtain ⟨rfl, rfl⟩ := Prod.mk.inj heq
        exact .route hi haddr hst
      · cases h
  -- what is lost leaves the network
  | reportLost i =>
    obtain ⟨rfl, rfl⟩ := Prod.mk.inj (Option.some.inj h)
    exact .lost (List.eraseIdx_sublist _ _) (List.Sublist.refl _)
  | routeLost i =>
    obtain ⟨rfl, rfl⟩ := Prod.mk.inj (Option.some.inj h)
    exact .lost (List.Sublist.refl _) (List.eraseIdx_sublist _ _)
  | decayTimer =>
    obtain ⟨⟨sv, rs⟩, hst, heq⟩ := Option.map_eq_some_iff.1 h
    obtain ⟨rfl, rfl⟩ := Prod.mk.inj heq
    obtain rfl := timer_quiet (by simp) hst
    exact .timer rfl hst
  | rerouteCounterReset =>
    obtain ⟨⟨sv, rs⟩, hst, heq⟩ := Option.map_eq_some_iff.1 h
    obtain ⟨rfl, rfl⟩ := Prod.mk.inj heq
    obtain rfl := timer_quiet (by simp) hst
    exact .timer rfl hst

/-! ### What is counted -/

/-- What a vehicle has put out. -/
def effectsOf (v : V) (os : List (ReroutingOut V)) : List Effect :=
  os.filterMap fun
    | .effect v' o => if v' = v then some o else none
    | .sent _ => none

/-- The routes that the server has sent. -/
def sentOf (os : List (ReroutingOut V)) : List RouteSent :=
  os.filterMap fun
    | .effect .. => none
    | .sent r => some r

/-- The routes for an address. -/
def routesTo (addr : Text) (rs : List RouteSent) : ℕ := rs.countP fun r => r.address = addr

/-- The reports of a vehicle. -/
def reportsBy (v : V) (ms : List (V × VehicleReportMsg)) : ℕ := ms.countP fun m => m.1 = v

section Counting

variable {v w : V} {os os' : List (ReroutingOut V)} {l : List Effect} {rs rs' : List RouteSent}
  {addr : Text}

theorem effectsOf_append : effectsOf v (os ++ os') = effectsOf v os ++ effectsOf v os' :=
  List.filterMap_append

@[simp] theorem effectsOf_effect_self : effectsOf v (l.map (.effect v)) = l := by
  simp [effectsOf, List.filterMap_map]

@[simp] theorem effectsOf_effect_of_ne (h : w ≠ v) : effectsOf v (l.map (.effect w)) = [] := by
  simp [effectsOf, List.filterMap_map, h]

@[simp] theorem effectsOf_sent : effectsOf v (rs.map .sent) = [] := by
  simp [effectsOf, List.filterMap_map]

omit [DecidableEq V] in
theorem sentOf_append : sentOf (os ++ os') = sentOf os ++ sentOf os' := List.filterMap_append

omit [DecidableEq V] in
@[simp] theorem sentOf_effect : sentOf (l.map (.effect v)) = [] := by
  simp [sentOf, List.filterMap_map]

omit [DecidableEq V] in
@[simp] theorem sentOf_sent : sentOf (rs.map (.sent : RouteSent → ReroutingOut V)) = rs := by
  simp [sentOf, List.filterMap_map]

theorem routesTo_append : routesTo addr (rs ++ rs') = routesTo addr rs + routesTo addr rs' :=
  List.countP_append

theorem reportsBy_append {ms ms' : List (V × VehicleReportMsg)} :
    reportsBy v (ms ++ ms') = reportsBy v ms + reportsBy v ms' := List.countP_append

theorem reportsOf_append {os os' : List Effect} :
    reportsOf (os ++ os') = reportsOf os ++ reportsOf os' := List.filterMap_append

theorem mem_reportsOf {msg : VehicleReportMsg} : msg ∈ reportsOf l ↔ .report msg ∈ l := by
  simp only [reportsOf, List.mem_filterMap]
  constructor
  · rintro ⟨o, ho, heq⟩
    cases o <;> simp_all
  · exact fun h => ⟨_, h, rfl⟩

theorem reportsBy_map (ms : List VehicleReportMsg) :
    reportsBy v (ms.map fun msg => (w, msg)) = if w = v then ms.length else 0 := by
  by_cases h : w = v <;> simp [reportsBy, List.countP_map, Function.comp_def, h]

end Counting

/-- Times that are `d` apart do not fit into a short interval. -/
theorem apart_le {d lo hi : ℚ} {rs : List RouteSent} (hne : rs ≠ [])
    (hapart : rs.Pairwise fun a b => a.time + d ≤ b.time)
    (hlo : ∀ r ∈ rs, lo ≤ r.time) (hhi : ∀ r ∈ rs, r.time ≤ hi) :
    ((rs.length : ℚ) - 1) * d ≤ hi - lo := by
  induction rs generalizing lo with
  | nil => exact absurd rfl hne
  | cons a rs ih =>
    obtain ⟨hnext, hrest⟩ := List.pairwise_cons.1 hapart
    have ha := hlo a List.mem_cons_self
    by_cases hrs : rs = []
    · have ha' := hhi a List.mem_cons_self
      simp only [hrs, List.length_cons, List.length_nil]
      push_cast
      linarith
    · have h := ih hrs hrest hnext fun r hr => hhi r (List.mem_cons_of_mem _ hr)
      rw [List.length_cons]
      push_cast
      linarith

/-! ### The books fit together -/

/-- A route that the server computes for a report, `sv` being its state when it has recorded the
report. -/
structure Answers (q : ServerPar) (net : RoadNet) (sv : TrafficServer) (msg : VehicleReportMsg)
    (r : RouteSent) (route : List ℕ) : Prop where
  msg_eq : r.msg = routeMsg route
  computed : route = sv.dijkstra q msg.edgeIndex.toNat msg.destEdgeIndex.toNat
    (hashVehicleKey r.address)
  isRoute : Route (TrafficServer.init net) msg.edgeIndex.toNat msg.destEdgeIndex.toNat route
  nodup : route.Nodup
  lt : ∀ i ∈ route, i < net.edges.length
  distance : q.minRouteDistance ≤ (TrafficServer.init net).routeDistance route

/-- The books of the server and of the vehicles, the outputs so far and the messages on their
way. -/
structure Fits (par : ReroutingPar V) (net : RoadNet) (index : EdgeIndex) (s : Rerouting V)
    (os : List (ReroutingOut V)) : Prop where
  sameNet : s.server.net = net
  clock : 0 ≤ s.now
  throttled : Throttled par.server s.server (sentOf os)
  times : ∀ r ∈ sentOf os, 0 ≤ r.time ∧ r.time ≤ s.now
  index : ∀ v, (s.vehicles v).app.edgeIndex = index
  reports : ∀ m ∈ s.reports, .report m.2 ∈ effectsOf m.1 os
  routes : ∀ r ∈ s.routes, r ∈ sentOf os
  /-- A vehicle has received no more routes than were sent to it. -/
  received : ∀ v, (s.vehicles v).app.routesReceived + routesTo (par.address v) s.routes ≤
    routesTo (par.address v) (sentOf os)
  /-- The server has sent no more routes to a vehicle than this has reported. -/
  reported : ∀ v, routesTo (par.address v) (sentOf os) + reportsBy v s.reports ≤
    (reportsOf (effectsOf v os)).length
  stats : ∀ v, ∃ q, StatsOk q (s.vehicles v).managed (s.vehicles v).app (effectsOf v os)
  row : ∀ v, ∀ row ∈ rows (effectsOf v os),
    row.routesReceived ≤ routesTo (par.address v) (sentOf os) ∧
      (0 ≤ par.server.rerouteInterval →
        (row.routesReceived - 1) * par.server.rerouteInterval ≤ row.arrivalTime)

section Books

variable {v w : V} {os : List (ReroutingOut V)} {l : List Effect} {a a' : Vehicle}
  {net : RoadNet} {index : EdgeIndex} {vpar : VehiclePar} {ev : VehicleEvent}

/-- The rows of a vehicle are about its number of routes and the present time. -/
theorem unaffected_books (vpar : VehiclePar) (a : VehicleApp) : Unaffected vpar fun a' os =>
    a'.edgeIndex = a.edgeIndex ∧ a'.routesReceived = a.routesReceived ∧ a'.simTime = a.simTime ∧
      (∀ row ∈ rows os, row.routesReceived = a.routesReceived ∧ row.arrivalTime = a.simTime) ∧
      ∀ edges, .traci (.changeVehicleRoute edges) ∉ os where
  modify a₁ a₂ os h₁ h₂ h₃ h := ⟨h₁.trans h.1, h₂.trans h.2.1, h₃.trans h.2.2.1, h.2.2.2⟩
  query a' os c hc h := by
    refine ⟨h.1, h.2.1, h.2.2.1, by simpa using h.2.2.2.1, fun edges hmem => ?_⟩
    rcases List.mem_append.1 hmem with hmem | hmem
    · exact h.2.2.2.2 edges hmem
    · exact hc edges (Effect.traci.inj (List.mem_singleton.1 hmem)).symm
  report a' os msg h := by simpa using h
  row a' os h := by
    refine ⟨h.1, h.2.1, h.2.2.1, fun row hrow => ?_, by simpa using h.2.2.2.2⟩
    rw [rows_append, List.mem_append, rows_csvRow, List.mem_singleton] at hrow
    rcases hrow with hrow | rfl
    · exact h.2.2.2.1 row hrow
    · exact ⟨h.2.1, h.2.2.1⟩
  unregisterNode a' os nid h := by simpa using h
  stopTtiTick a' os h := by simpa using h

/-- The books of a vehicle after an event that is not the arrival of a route. -/
theorem books_of_own (he : ev.isRoute = false) (h : (vehicle vpar).step a (t, ev) = some (a', l)) :
    a'.app.edgeIndex = a.app.edgeIndex ∧ a'.app.routesReceived = a.app.routesReceived ∧
      (∀ row ∈ rows l, row.routesReceived = a.app.routesReceived ∧ row.arrivalTime = t) ∧
      ∀ edges, .traci (.changeVehicleRoute edges) ∉ l := by
  obtain ⟨-, -, -, hhandle⟩ := vehicle_step h
  have hne : ∀ msg r, ev ≠ .routeArrived msg r := by
    rintro msg r rfl
    cases he
  have hbooks := Triple.apply
    ((unaffected_books vpar (a.advance t).app).keeps_handler (a.advance t).managed hne)
    (l := []) (s := (a.advance t).app) ⟨rfl, rfl, rfl, by simp, by simp⟩
  simp only [Vehicle.handle, Prod.mk.injEq] at hhandle
  obtain ⟨rfl, rfl⟩ := hhandle
  exact ⟨hbooks.1, hbooks.2.1, hbooks.2.2.2⟩

/-- The books of a vehicle after the arrival of a route. -/
theorem books_of_route {msg : ServerRouteMsg} {r : RouteReplies}
    (h : (vehicle vpar).step a (t, .routeArrived msg r) = some (a', l)) :
    a'.app.edgeIndex = a.app.edgeIndex ∧ a'.app.routesReceived ≤ a.app.routesReceived + 1 ∧
      rows l = [] := by
  obtain ⟨-, -, -, hhandle⟩ := vehicle_step h
  simp only [Vehicle.handle, Vehicle.handler, Prod.mk.injEq] at hhandle
  obtain ⟨rfl, rfl⟩ := hhandle
  exact socketDataArrived_app msg r (a.advance t).app

/-- The server has had the time for the routes that it has sent. -/
theorem Fits.interval (h : Fits par net index s os) (hd : 0 ≤ par.server.rerouteInterval)
    (addr : Text) :
    ((routesTo addr (sentOf os) : ℚ) - 1) * par.server.rerouteInterval ≤ s.now := by
  have hnow := h.clock
  by_cases hne : (sentOf os).filter (fun r => r.address = addr) = []
  · rw [routesTo, List.countP_eq_length_filter, hne]
    simp only [List.length_nil]
    push_cast
    linarith
  · rw [routesTo, List.countP_eq_length_filter]
    have hmem : ∀ r ∈ (sentOf os).filter fun r => r.address = addr,
        r ∈ sentOf os ∧ r.address = addr := by
      intro r hr
      simpa using List.mem_filter.1 hr
    have hapart : ((sentOf os).filter fun r => r.address = addr).Pairwise
        fun a b => a.time + par.server.rerouteInterval ≤ b.time := by
      refine ((h.throttled.apart.filter _).imp_of_mem ?_)
      intro a b ha hb hab
      exact hab ((hmem a ha).2.trans (hmem b hb).2.symm)
    have hle := apart_le hne hapart (fun r hr => (h.times r (hmem r hr).1).1)
      fun r hr => (h.times r (hmem r hr).1).2
    linarith

/-- A row that is written now keeps to the interval of the server. -/
theorem Fits.newRow (h : Fits par net index s os) (ht : s.now ≤ t) {addr : Text} {n : ℤ}
    (hn : n ≤ routesTo addr (sentOf os)) :
    0 ≤ par.server.rerouteInterval → (n - 1) * par.server.rerouteInterval ≤ t := by
  intro hd
  have hint := h.interval hd addr
  have hcast : (n : ℚ) ≤ routesTo addr (sentOf os) := by exact_mod_cast hn
  have hmul := mul_le_mul_of_nonneg_right hcast hd
  linarith

/-- The rows are those of the run so far, and those that the vehicle writes now. -/
theorem Fits.rowsAfter (h : Fits par net index s os) (ht : s.now ≤ t) {n : ℤ}
    (hn : n ≤ routesTo (par.address v) (sentOf os))
    (hrow : ∀ row ∈ rows l, row.routesReceived = n ∧ row.arrivalTime = t) {w : V} {row : CsvRow}
    (hmem : row ∈ rows (effectsOf w (os ++ l.map (.effect v)))) :
    row.routesReceived ≤ routesTo (par.address w) (sentOf os) ∧
      (0 ≤ par.server.rerouteInterval →
        (row.routesReceived - 1) * par.server.rerouteInterval ≤ row.arrivalTime) := by
  rw [effectsOf_append] at hmem
  by_cases hw : w = v
  · subst hw
    rw [effectsOf_effect_self, rows_append, List.mem_append] at hmem
    rcases hmem with hmem | hmem
    · exact h.row w row hmem
    · obtain ⟨hrec, harr⟩ := hrow row hmem
      have hle : row.routesReceived ≤ routesTo (par.address w) (sentOf os) := hrec ▸ hn
      exact ⟨hle, harr ▸ h.newRow ht hle⟩
  · rw [effectsOf_effect_of_ne (Ne.symm hw), List.append_nil] at hmem
    exact h.row w row hmem

/-- A vehicle has handled an event. -/
theorem Fits.afterVehicle (h : Fits par net index s os) (ht : s.now ≤ t)
    (hst : (vehicle (par.vehicle v)).step (s.vehicles v) (t, ev) = some (a, l))
    {routes : List RouteSent} (hsub : routes.Sublist s.routes)
    (hindex : a.app.edgeIndex = (s.vehicles v).app.edgeIndex)
    (hreceived : a.app.routesReceived + routesTo (par.address v) routes ≤
      (s.vehicles v).app.routesReceived + routesTo (par.address v) s.routes)
    (hrow : ∀ row ∈ rows l,
      row.routesReceived = (s.vehicles v).app.routesReceived ∧ row.arrivalTime = t) :
    Fits par net index ({ s with routes }.afterVehicle t v a l) (os ++ l.map (.effect v)) := by
  have hsent : sentOf (os ++ l.map (.effect v)) = sentOf os := by simp [sentOf_append]
  have hself : effectsOf v (os ++ l.map (.effect v)) = effectsOf v os ++ l := by
    simp [effectsOf_append]
  have hother : ∀ w, w ≠ v → effectsOf w (os ++ l.map (.effect v)) = effectsOf w os := by
    intro w hw
    simp [effectsOf_append, Ne.symm hw]
  have hmono : ∀ w o, o ∈ effectsOf w os → o ∈ effectsOf w (os ++ l.map (.effect v)) := by
    intro w o ho
    rw [effectsOf_append]
    exact List.mem_append_left _ ho
  have hreceived_le := h.received v
  constructor
  · exact h.sameNet
  · exact h.clock.trans ht
  · rw [hsent]; exact h.throttled
  · rw [hsent]
    exact fun r hr => ⟨(h.times r hr).1, (h.times r hr).2.trans ht⟩
  · intro w
    by_cases hw : w = v
    · subst hw
      simp only [Rerouting.afterVehicle, Function.update_self]
      exact hindex.trans (h.index w)
    · simpa [Rerouting.afterVehicle, hw] using h.index w
  · -- what is in the network has been sent
    intro m hm
    rcases List.mem_append.1 hm with hm | hm
    · exact hmono _ _ (h.reports m hm)
    · obtain ⟨msg, hmsg, rfl⟩ := List.mem_map.1 hm
      rw [hself]
      exact List.mem_append_right _ (mem_reportsOf.1 hmsg)
  · rw [hsent]
    exact fun r hr => h.routes r (hsub.subset hr)
  · -- what a vehicle has received and what is on its way to it
    intro w
    rw [hsent]
    by_cases hw : w = v
    · subst hw
      simp only [Rerouting.afterVehicle, Function.update_self]
      exact hreceived.trans hreceived_le
    · have hle : routesTo (par.address w) routes ≤ routesTo (par.address w) s.routes :=
        hsub.countP_le
      have hw' := h.received w
      simp only [Rerouting.afterVehicle, Function.update_of_ne hw]
      omega
  · intro w
    have hle := h.reported w
    rw [hsent]
    by_cases hw : w = v
    · subst hw
      simp only [Rerouting.afterVehicle, reportsBy_append, reportsBy_map, hself, reportsOf_append,
        List.length_append, if_true]
      omega
    · simp only [Rerouting.afterVehicle, reportsBy_append, reportsBy_map, hother w hw,
        if_neg (Ne.symm hw)]
      omega
  · intro w
    by_cases hw : w = v
    · subst hw
      obtain ⟨q, hq⟩ := h.stats w
      rw [hself]
      refine ⟨q, ?_⟩
      simp only [Rerouting.afterVehicle, Function.update_self]
      exact hq.step hst
    · rw [hother w hw]
      simpa [Rerouting.afterVehicle, hw] using h.stats w
  · intro w row hmem
    rw [hsent]
    exact h.rowsAfter ht (show (s.vehicles v).app.routesReceived ≤ _ by omega) hrow hmem

/-- What the server sends in answer to a report. -/
theorem answers_of_step {q : ServerPar} {sv sv' : TrafficServer} {rs : List RouteSent}
    {addr : Text} {port : ℤ} {msg : VehicleReportMsg} (hnet : sv.net = net)
    (h : (V2nLte.server q).step sv (.report t addr port msg) = some (sv', rs)) :
    sv'.net = net ∧ rs.length ≤ 1 ∧ ∀ r ∈ rs, r.time = t ∧ r.address = addr ∧ ∃ route,
      Answers q net ((sv.advance t).recordReport msg.edgeIndex.toNat addr port msg) msg r
        route := by
  cases (serverStep_of_step h).2 with
  | drop => exact ⟨hnet, by simp, by simp⟩
  | record hs₁ => exact ⟨by rw [hs₁]; exact hnet, by simp, by simp⟩
  | spare hs₁ => exact ⟨by rw [hs₁]; exact hnet, by simp, by simp⟩
  | @send _ _ _ _ s₁ hs₁ hr hne hsend =>
    have hs₁net : s₁.net = net := by rw [hs₁]; exact hnet
    refine ⟨hs₁net, by simp, ?_⟩
    simp only [List.mem_singleton]
    rintro r rfl
    have he : msg.edgeIndex.toNat < s₁.net.edges.length := by
      have hlow := hr.1
      have hhigh := hr.2.1
      rw [hs₁net, ← hnet]
      have hnet' : (sv.advance t).net.edges.length = sv.net.edges.length := rfl
      omega
    obtain ⟨-, hnodup, hlt⟩ := route_spec he rfl
      (List.ne_nil_of_length_pos (Nat.lt_of_lt_of_le Nat.zero_lt_two hsend.length))
    have hroute : Route s₁ msg.edgeIndex.toNat msg.destEdgeIndex.toNat
        (s₁.dijkstra q msg.edgeIndex.toNat msg.destEdgeIndex.toNat (hashVehicleKey addr)) := by
      have hne : s₁.dijkstra q msg.edgeIndex.toNat msg.destEdgeIndex.toNat
          (hashVehicleKey addr) ≠ [] :=
        List.ne_nil_of_length_pos (Nat.zero_lt_of_lt hsend.length)
      exact ⟨Dijkstra.path_head he neighbors_lt hne, Dijkstra.path_last he neighbors_lt hne,
        Dijkstra.path_chain he neighbors_lt⟩
    have hdistance := hsend.distance
    subst hs₁net
    rw [← hs₁]
    exact ⟨rfl, rfl, _, rfl, rfl, ⟨hroute.head, hroute.last, hroute.chain⟩, hnodup, hlt,
      hdistance⟩

/-- The server has handled an event, and sent routes to the sender of a report that has
arrived. -/
theorem Fits.afterServer (h : Fits par net index s os) (hinj : Function.Injective par.address)
    (ht : s.now ≤ t) {sv : TrafficServer} {rs : List RouteSent} {ev : ServerEvent}
    (hst : (V2nLte.server par.server).step s.server ev = some (sv, rs)) (hsv : sv.net = net)
    {reports : List (V × VehicleReportMsg)} (hsub : reports.Sublist s.reports)
    (hrs : ∀ r ∈ rs, r.time = t ∧ ∃ w, r.address = par.address w ∧
      reportsBy w reports + rs.length ≤ reportsBy w s.reports) :
    Fits par net index ({ s with reports }.afterServer t sv rs) (os ++ rs.map .sent) := by
  have hsent : sentOf (os ++ rs.map .sent) = sentOf os ++ rs := by simp [sentOf_append]
  have heffects : ∀ w, effectsOf w (os ++ rs.map .sent) = effectsOf w os := by
    intro w
    simp [effectsOf_append]
  have hle : ∀ w, routesTo (par.address w) (sentOf os) ≤
      routesTo (par.address w) (sentOf os ++ rs) := by
    intro w
    rw [routesTo_append]
    exact Nat.le_add_right _ _
  constructor
  · exact hsv
  · exact h.clock.trans ht
  · rw [hsent]; exact h.throttled.step hst
  · rw [hsent]
    intro r hr
    rcases List.mem_append.1 hr with hr | hr
    · exact ⟨(h.times r hr).1, (h.times r hr).2.trans ht⟩
    · rw [(hrs r hr).1]
      exact ⟨h.clock.trans ht, le_refl _⟩
  · exact h.index
  · intro m hm
    rw [heffects]
    exact h.reports m (hsub.subset hm)
  · -- the new routes are on their way
    rw [hsent]
    intro r hr
    rcases List.mem_append.1 hr with hr | hr
    · exact List.mem_append_left _ (h.routes r hr)
    · exact List.mem_append_right _ hr
  · intro w
    have hw := h.received w
    rw [hsent]
    simp only [Rerouting.afterServer, routesTo_append]
    push_cast
    omega
  · -- each route answers a report
    intro w
    have hw := h.reported w
    have hrest : reportsBy w reports ≤ reportsBy w s.reports := hsub.countP_le
    have hnew : routesTo (par.address w) rs ≤ rs.length := List.countP_le_length
    rw [hsent, heffects, routesTo_append]
    simp only [Rerouting.afterServer]
    by_cases hzero : routesTo (par.address w) rs = 0
    · omega
    · -- the report that is answered has left the network
      obtain ⟨r, hr, hrw⟩ := List.countP_pos_iff.1 (Nat.pos_of_ne_zero hzero)
      obtain ⟨-, w', haddr, hcount⟩ := hrs r hr
      obtain rfl : w' = w := hinj (haddr.symm.trans (by simpa using hrw))
      omega
  · intro w
    rw [heffects]
    exact h.stats w
  · intro w row hmem
    rw [heffects] at hmem
    rw [hsent]
    obtain ⟨hrec, harr⟩ := h.row w row hmem
    have hw := hle w
    exact ⟨by omega, harr⟩

/-- A message is lost. -/
theorem Fits.lost (h : Fits par net index s os) (ht : s.now ≤ t)
    {reports : List (V × VehicleReportMsg)} {routes : List RouteSent}
    (hreports : reports.Sublist s.reports) (hroutes : routes.Sublist s.routes) :
    Fits par net index { s with reports, routes, now := t } os where
  sameNet := h.sameNet
  clock := h.clock.trans ht
  throttled := h.throttled
  times r hr := ⟨(h.times r hr).1, (h.times r hr).2.trans ht⟩
  index := h.index
  reports m hm := h.reports m (hreports.subset hm)
  routes r hr := h.routes r (hroutes.subset hr)
  received w := by
    have hw := h.received w
    have hle : routesTo (par.address w) routes ≤ routesTo (par.address w) s.routes :=
      hroutes.countP_le
    simp only
    omega
  reported w := by
    have hw := h.reported w
    have hle : reportsBy w reports ≤ reportsBy w s.reports := hreports.countP_le
    simp only
    omega
  stats := h.stats
  row := h.row

/-- A timer does not change the road network of the server. -/
theorem net_of_step {q : ServerPar} {sv sv' : TrafficServer} {rs : List RouteSent}
    {ev : ServerEvent} (h : (V2nLte.server q).step sv ev = some (sv', rs)) : sv'.net = sv.net := by
  cases (serverStep_of_step h).2 with
  | drop => rfl
  | record hs₁ => rw [hs₁]; rfl
  | spare hs₁ => rw [hs₁]; rfl
  | send hs₁ => rw [hs₁]; rfl
  | decay => rfl
  | reset => rfl

theorem Fits.step (h : Fits par net index s os) (hinj : Function.Injective par.address)
    (hst : (machine par).step s (t, e) = some (s', o)) :
    Fits par net index s' (os ++ o) := by
  obtain ⟨-, ht, hstep⟩ := step_of_machine hst
  cases hstep with
  | @vehicle v ev a l hroute hv =>
    obtain ⟨hindex, hrec, hrow, -⟩ := books_of_own hroute hv
    exact h.afterVehicle ht hv (List.Sublist.refl s.routes) hindex (by rw [hrec]) hrow
  | @route v i r m a l hi haddr hv =>
    obtain ⟨hindex, hrec, hrow⟩ := books_of_route hv
    refine h.afterVehicle ht hv (List.eraseIdx_sublist s.routes i) hindex ?_ (by simp [hrow])
    have hcount := countP_of_getElem? (fun r => r.address = par.address v) hi
    simp only [haddr, decide_true, if_true] at hcount
    simp only [routesTo]
    omega
  | @report i m sv rs hi hsv =>
    obtain ⟨hnet, hone, hrs⟩ := answers_of_step h.sameNet hsv
    refine h.afterServer hinj ht hsv hnet (List.eraseIdx_sublist s.reports i) fun r hr => ?_
    obtain ⟨htime, haddr, -⟩ := hrs r hr
    refine ⟨htime, m.1, haddr, ?_⟩
    have hcount := countP_of_getElem? (fun m' : V × VehicleReportMsg => m'.1 = m.1) hi
    simp only [decide_true, if_true] at hcount
    simp only [reportsBy]
    omega
  | @timer _ ev sv hev hsv =>
    have hnet : sv.net = net := (net_of_step hsv).trans h.sameNet
    exact h.afterServer hinj ht hsv hnet (List.Sublist.refl s.reports) (by simp)
  | lost hreports hroutes =>
    rw [List.append_nil]
    exact h.lost ht hreports hroutes

variable {penetrationRate : ℚ} {uniform start : V → ℚ} {es : List (ℚ × ReroutingEvent V)}

theorem fits_init : Fits par net index (init net index penetrationRate uniform start) [] where
  sameNet := rfl
  clock := le_refl _
  throttled := ⟨fun _ _ hk => by simp [init, TrafficServer.init] at hk, by simp [sentOf],
    List.Pairwise.nil⟩
  times := by simp [sentOf]
  index _ := rfl
  reports := by simp [init]
  routes := by simp [init]
  received _ := by simp [init, Vehicle.init, VehicleApp.init, routesTo]
  reported _ := by simp [init, routesTo, reportsBy, sentOf]
  stats v := ⟨_, statsOk_init penetrationRate (uniform v) index (start v)⟩
  row _ := by simp [effectsOf]

/-- **The books of the server and of the vehicles fit together** over every run. -/
theorem fits_exec (hinj : Function.Injective par.address)
    (h : (machine par).exec (init net index penetrationRate uniform start) es = some (s, os)) :
    Fits par net index s os :=
  Machine.exec_induction (J := fun _ s os => Fits par net index s os) fits_init
    (fun _ _ _ _ _ _ _ ih hst => ih.step hinj hst) h

/-- In the run of `es` from `s₀`, the server has sent the route `r` when the report `msg` of the
vehicle `v` arrived, and this is what it computed then. -/
def AnswerTo (par : ReroutingPar V) (net : RoadNet) (s₀ : Rerouting V)
    (es : List (ℚ × ReroutingEvent V)) (v : V) (msg : VehicleReportMsg) (r : RouteSent)
    (route : List ℕ) : Prop :=
  ∃ s t i s' o, (machine par).Takes s₀ es s (t, .reportArrives i) s' o ∧
    s.reports[i]? = some (v, msg) ∧ .sent r ∈ o ∧ r.address = par.address v ∧
      Answers par.server net ((s.server.advance t).recordReport msg.edgeIndex.toNat
        (par.address v) (par.port v) msg) msg r route

/-- Every route that the server has sent is the answer to a report. -/
theorem answerTo_of_sent (hinj : Function.Injective par.address)
    (h : (machine par).exec (init net index penetrationRate uniform start) es = some (s, os))
    {r : RouteSent} (hr : r ∈ sentOf os) : ∃ v msg route, .report msg ∈ effectsOf v os ∧
      AnswerTo par net (init net index penetrationRate uniform start) es v msg r route := by
  have hmem : .sent r ∈ os := by
    obtain ⟨x, hx, heq⟩ := List.mem_filterMap.1 hr
    cases x with
    | effect => cases heq
    | sent r' => exact Option.some.inj heq ▸ hx
  obtain ⟨s₁, ⟨t₁, e₁⟩, s₂, o, htakes, ho⟩ := Machine.exists_takes_of_mem h hmem
  obtain ⟨es₁, os₁, os₂, hex, rfl⟩ := htakes.outputs h
  have hfits := fits_exec hinj hex
  obtain ⟨-, -, -, -, -, hst⟩ := id htakes
  obtain ⟨-, -, hstep⟩ := step_of_machine hst
  cases hstep with
  | vehicle | route => simp at ho
  | timer | lost => cases ho
  | @report i m sv rs hi hsv =>
    obtain ⟨-, -, hrs⟩ := answers_of_step hfits.sameNet hsv
    obtain ⟨-, haddr, route, hans⟩ := hrs r (by simpa using ho)
    refine ⟨m.1, m.2, route, ?_, s₁, t₁, i, _, _, htakes, hi, ho, haddr, hans⟩
    rw [effectsOf_append]
    exact List.mem_append_left _ (hfits.reports m (List.mem_of_getElem? hi))

/-! ### The results -/

omit [DecidableEq V] in
/-- One edge leads to another. -/
def Leads (net : RoadNet) (a b : Text) : Prop :=
  ∃ i j, a = net.edgeId i ∧ b = net.edgeId j ∧ j ∈ (TrafficServer.init net).neighbors i

/-- **Vehicles are only sent along roads that they are on.**  In every run of the system, with any
number of vehicles, messages that overtake each other and messages that are lost, whenever a
vehicle asks SUMO to drive a route, then it is at the start of this route, the edges of the route
lead to each other, and they are the end of the first 64 edges of the route that the server computed
when it answered a report of this vehicle, from where it was to where it was going then. -/
theorem commands_fit_road (hinj : Function.Injective par.address) (hnet : SameNet net index)
    (h : (machine par).exec (init net index penetrationRate uniform start) es = some (s, os))
    (hst : (machine par).step s (t, e) = some (s', o)) {edges : List Text}
    (hc : .traci (.changeVehicleRoute edges) ∈ effectsOf v o) :
    ∃ i r current m msg route, e = .routeArrives v i r ∧ r.roadId = some current ∧
      s.routes[i]? = some m ∧ .report msg ∈ effectsOf v os ∧
      AnswerTo par net (init net index penetrationRate uniform start) es v msg m route ∧
      Route (TrafficServer.init net) msg.edgeIndex.toNat msg.destEdgeIndex.toNat route ∧
      route.Nodup ∧ edges <:+ (route.take 64).map net.edgeId ∧
      edges.head? = some current ∧ 2 ≤ edges.length ∧ edges.length ≤ 64 ∧
      edges.IsChain (Leads net) := by
  have hfits := fits_exec hinj h
  obtain ⟨-, -, hstep⟩ := step_of_machine hst
  cases hstep with
  | @vehicle w ev a l hroute hv =>
    by_cases hw : w = v
    · subst hw
      rw [effectsOf_effect_self] at hc
      exact absurd hc ((books_of_own hroute hv).2.2.2 edges)
    · simp [effectsOf_effect_of_ne hw] at hc
  | @route w i r m a l hi haddr hv =>
    by_cases hw : w = v
    · subst hw
      rw [effectsOf_effect_self] at hc
      obtain ⟨-, -, -, hhandle⟩ := vehicle_step hv
      simp only [Vehicle.handle, Vehicle.handler, Prod.mk.injEq] at hhandle
      obtain ⟨-, rfl⟩ := hhandle
      obtain ⟨all, current, hedges, hroad, heq, hlen⟩ := command_of_socketDataArrived hc
      -- the message is the answer to a report of this vehicle
      obtain ⟨w', msg, route, hmsg, hanswer⟩ :=
        answerTo_of_sent hinj h (hfits.routes m (List.mem_of_getElem? hi))
      obtain ⟨_, _, _, _, _, -, -, -, haddr', hans⟩ := id hanswer
      obtain rfl : w' = w := hinj (haddr'.symm.trans haddr)
      have hindex : ((s.vehicles w').advance t).app.edgeIndex = index := hfits.index w'
      have hall : edgeList index (routeMsg route) = some ((route.take 64).map net.edgeId) :=
        edgeList_routeMsg net.edgeId fun i hi => hnet.lookup (hans.lt i hi)
      rw [hindex, hans.msg_eq, hall, Option.some.injEq] at hedges
      have hsuffix : edges <:+ (route.take 64).map net.edgeId := by
        rw [heq, ← hedges]
        exact List.dropWhile_suffix _
      have hle := hsuffix.length_le
      rw [List.length_map, List.length_take] at hle
      refine ⟨i, r, current, m, msg, route, rfl, hroad, hi, hmsg, hanswer, hans.isRoute,
        hans.nodup, hsuffix, ?_, hlen, by omega, ?_⟩
      · have hne : all.dropWhile (fun x => decide (x ≠ current)) ≠ [] :=
          heq ▸ List.ne_nil_of_length_pos (Nat.zero_lt_of_lt hlen)
        have hhead := List.head_dropWhile_not (fun x => decide (x ≠ current)) hne
        rw [heq, List.head?_eq_some_head hne]
        simpa using hhead
      · have hchain : ((route.take 64).map net.edgeId).IsChain (Leads net) :=
          List.isChain_map_of_isChain net.edgeId (fun a b hab => ⟨a, b, rfl, rfl, hab⟩)
            (hans.isRoute.chain.take 64)
        exact hchain.suffix hsuffix
    · simp [effectsOf_effect_of_ne hw] at hc
  | report => simp at hc
  | timer => simp [effectsOf] at hc
  | lost => simp [effectsOf] at hc

/-- Two vehicles. -/
def twoVehicles : ReroutingPar Bool where
  server := ⟨1, 30, 150, fun _ => 1⟩
  vehicle _ := ⟨"car[0]".toList, "veh0".toList, some 1025⟩
  address v := if v then "10.0.0.1".toList else "10.0.0.2".toList
  port _ := 4000

theorem address_twoVehicles : Function.Injective twoVehicles.address := by decide

/-- The system with these vehicles on a network of two edges. -/
def twoVehiclesStart : Rerouting Bool :=
  init twoEdgeNet twoEdgeNet.index 1 (fun _ => 0) fun _ => 0

/-- One of them reports, and the report arrives. -/
def reportArrived : List (ℚ × ReroutingEvent Bool) :=
  [(1, .vehicle true (.reportTimer onEdgeA)), (2, .reportArrives 0)]

/-- The route arrives while the vehicle is still on the edge `a`. -/
def routeArrives : ReroutingEvent Bool := .routeArrives true 0 ⟨some "a".toList, some true, none⟩

/-- The vehicle is sent along the two edges. -/
theorem commands_fit_road_twoVehicles : ∃ s os s' o,
    (machine twoVehicles).exec twoVehiclesStart reportArrived = some (s, os) ∧
    (machine twoVehicles).step s (3, routeArrives) = some (s', o) ∧
    .traci (.changeVehicleRoute ["a".toList, "b".toList]) ∈ effectsOf true o ∧
    ∃ i r current m msg route, routeArrives = .routeArrives true i r ∧ r.roadId = some current ∧
      s.routes[i]? = some m ∧ .report msg ∈ effectsOf true os ∧
      AnswerTo twoVehicles twoEdgeNet twoVehiclesStart reportArrived true msg m route ∧
      Route (TrafficServer.init twoEdgeNet) msg.edgeIndex.toNat msg.destEdgeIndex.toNat route ∧
      route.Nodup ∧ ["a".toList, "b".toList] <:+ (route.take 64).map twoEdgeNet.edgeId ∧
      ["a".toList, "b".toList].head? = some current ∧ 2 ≤ ["a".toList, "b".toList].length ∧
      ["a".toList, "b".toList].length ≤ 64 ∧
      ["a".toList, "b".toList].IsChain (Leads twoEdgeNet) := by
  have hrun : (((machine twoVehicles).exec twoVehiclesStart reportArrived).bind fun r =>
      ((machine twoVehicles).step r.1 (3, routeArrives)).map fun r' => effectsOf true r'.2) =
        some [.traci .getRoadId, .traci (.changeVehicleRoute ["a".toList, "b".toList])] := by
    decide +kernel
  obtain ⟨⟨s, os⟩, h, hrun⟩ := Option.bind_eq_some_iff.1 hrun
  obtain ⟨⟨s', o⟩, hst, ho⟩ := Option.map_eq_some_iff.1 hrun
  have hc : .traci (.changeVehicleRoute ["a".toList, "b".toList]) ∈ effectsOf true o := by
    rw [ho]
    simp
  exact ⟨s, os, s', o, h, hst, hc, commands_fit_road address_twoVehicles
    (sameNet_index (by decide +kernel) rfl) h hst hc⟩

/-- **The statistics of the vehicles fit the books of the server.**  In every run of the system a
row counts at most as many routes as the server has sent to the vehicle, which are at most as many
as the vehicle has sent reports, and at most as many as the interval between two routes allows until
the row is written. -/
theorem rows_fit_server (hinj : Function.Injective par.address)
    (hd : 0 ≤ par.server.rerouteInterval)
    (h : (machine par).exec (init net index penetrationRate uniform start) es = some (s, os))
    {row : CsvRow} (hrow : row ∈ rows (effectsOf v os)) :
    row.routesApplied + row.routesFallback ≤ row.routesReceived ∧
    row.routesReceived ≤ routesTo (par.address v) (sentOf os) ∧
    routesTo (par.address v) (sentOf os) ≤ (reportsOf (effectsOf v os)).length ∧
    (row.routesReceived - 1) * par.server.rerouteInterval ≤ row.arrivalTime := by
  have hfits := fits_exec hinj h
  obtain ⟨q, hstats⟩ := hfits.stats v
  obtain ⟨hreceived, harrival⟩ := hfits.row v row hrow
  have hreported := hfits.reported v
  exact ⟨(hstats.row row hrow).routes, hreceived, by omega, harrival hd⟩

/-- The vehicle applies the route, leaves and writes its row. -/
def wholeTrip : List (ℚ × ReroutingEvent Bool) :=
  reportArrived ++ [(3, routeArrives), (4, .vehicle true .hostRemoved),
    (5, .vehicle true (.reportTimer onEdgeA))]

theorem rows_fit_server_twoVehicles : ∃ s os,
    (machine twoVehicles).exec twoVehiclesStart wholeTrip = some (s, os) ∧
    ∃ row ∈ rows (effectsOf true os), row.routesReceived = 1 ∧
      row.routesApplied + row.routesFallback ≤ row.routesReceived ∧
      row.routesReceived ≤ routesTo (twoVehicles.address true) (sentOf os) ∧
      routesTo (twoVehicles.address true) (sentOf os) ≤
        (reportsOf (effectsOf true os)).length ∧
      (row.routesReceived - 1) * twoVehicles.server.rerouteInterval ≤ row.arrivalTime := by
  have hrun : (((machine twoVehicles).exec twoVehiclesStart wholeTrip).map fun r =>
      (rows (effectsOf true r.2)).map CsvRow.routesReceived) = some [1] := by
    decide +kernel
  obtain ⟨⟨s, os⟩, h, hrows⟩ := Option.map_eq_some_iff.1 hrun
  obtain ⟨row, hrow, hone⟩ := List.mem_map.1 (hrows ▸ List.mem_singleton_self (1 : ℤ))
  exact ⟨s, os, h, row, hrow, hone,
    rows_fit_server address_twoVehicles (by decide +kernel) h hrow⟩

end Books

end Rerouting

end V2nLte
