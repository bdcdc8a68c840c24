import V2nLte.Lte.Common
import V2nLte.Machine.Basic
import V2nLte.Machine.Handler
import V2nLte.Traffic.Server

/-!
# The vehicle application

`VehicleApp` runs in every vehicle: it reports the vehicle's edge and destination to the server,
applies the routes the server sends, and writes one line of statistics when the vehicle leaves.
SUMO is reached through TraCI calls; each call answers or throws, and what it answers is part of
the event that is handled (`ReportReplies`, `RouteReplies`).  The handlers are written in the
monad `Handler`, so that an exception leaves the changes made before it in place.

`vehicle` is the module with its surroundings as an event machine: besides the application it
has the scenario manager's entry for the vehicle, which goes away when the vehicle leaves SUMO,
and the life of the module (`Phase`).  The application's `mobility` and its scenario manager
always exist (`initialize` casts the one and the other is created with the network), so the
tests for null pointers have no counterpart here.
-/

namespace V2nLte

/-! ### What the application puts out -/

/-- The TraCI queries and commands of the application. -/
inductive TraciCall where
  | getRoadId
  | getSpeed
  | getLaneId
  | getPlannedRoadIds
  | getCurrentTravelTime (edgeId : Text)
  | changeVehicleRoute (edges : List Text)
  | changeTarget (edgeId : Text)
  deriving DecidableEq

/-- A row of the statistics file. -/
structure CsvRow where
  /-- The module name of the vehicle. -/
  vehicleId : Text
  /-- Its id in SUMO. -/
  sumoId : Text
  /-- Whether it took part in the rerouting. -/
  isEquipped : Bool
  /-- When it was first seen on an edge. -/
  departTime : ℚ
  /-- When it was found to be gone. -/
  arrivalTime : ℚ
  /-- The time in between. -/
  duration : ℚ
  /-- Routes received. -/
  routesReceived : ℤ
  /-- Routes applied as they were sent. -/
  routesApplied : ℤ
  /-- Routes of which only the destination was used. -/
  routesFallback : ℤ
  /-- Lane changes. -/
  laneChanges : ℤ
  /-- The first edge. -/
  departEdge : Text
  /-- The last edge. -/
  destEdge : Text
  deriving DecidableEq

/-- What the application does to the rest of the simulation. -/
inductive Effect where
  /-- A TraCI query or command for this vehicle. -/
  | traci (c : TraciCall)
  /-- A report to the server. -/
  | report (msg : VehicleReportMsg)
  /-- `appendCsvRow`. -/
  | csvRow (row : CsvRow)
  /-- `LteBinder::unregisterNode`. -/
  | unregisterNode (nid : MacNodeId)
  /-- `LteMacBase::stopTtiTick`. -/
  | stopTtiTick
  deriving DecidableEq

/-- What the TraCI calls of one report answer, in the order in which they are made; `none` is an
exception. -/
structure ReportReplies where
  /-- To `getRoadId` in `tryInitStats`. -/
  initRoadId : Option Text
  /-- To `getRoadId` in the update of `lastEdge`. -/
  lastRoadId : Option Text
  /-- To `getRoadId` for the report itself. -/
  roadId : Option Text
  /-- To `getSpeed`. -/
  speed : Option ℚ
  /-- To `getLaneId`. -/
  laneId : Option Text
  /-- To `getPlannedRoadIds`. -/
  plannedRoadIds : Option (List Text)
  /-- To `getCurrentTravelTime`. -/
  travelTime : Option ℚ

/-- What the TraCI calls for one route answer. -/
structure RouteReplies where
  /-- To `getRoadId`. -/
  roadId : Option Text
  /-- To `changeVehicleRoute`: whether the route was accepted. -/
  changeVehicleRoute : Option Bool
  /-- To `changeTarget`. -/
  changeTarget : Option Unit

/-! ### State -/

/-- The surroundings of the application that do not change. -/
structure VehiclePar where
  /-- `getParentModule()->getFullName()`. -/
  vehId : Text
  /-- The id of the vehicle in SUMO. -/
  externalId : Text
  /-- The node id of the MAC, if the vehicle has a LTE network card with a MAC. -/
  mac : Option MacNodeId

/-- The application. -/
structure VehicleApp where
  /-- The vehicle takes part in the rerouting. -/
  isEquipped : Bool
  /-- The edge numbers. -/
  edgeIndex : EdgeIndex
  /-- The lane at the last report. -/
  lastLaneID : Text := []
  /-- Lane changes seen. -/
  laneChangeCounter : ℤ := 0
  /-- `departTime` and `departEdge` are set. -/
  statsInitialized : Bool := false
  /-- The row has been written. -/
  statsWritten : Bool := false
  /-- The LTE stack has been shut down. -/
  lteShutdown : Bool := false
  /-- The message `deleteSelf` is scheduled. -/
  deleteSelfMsg : Bool := false
  /-- The deletion of the module has been planned. -/
  deleteScheduled : Bool := false
  /-- When the vehicle was first seen on an edge. -/
  departTime : ℚ := -1
  /-- That edge. -/
  departEdge : Text := []
  /-- The edge at the last report. -/
  lastEdge : Text := []
  /-- Routes received. -/
  routesReceived : ℤ := 0
  /-- Routes applied as they were sent. -/
  routesApplied : ℤ := 0
  /-- Routes of which only the destination was used. -/
  routesFallback : ℤ := 0
  /-- The destination in the last report. -/
  lastDestEdge : Text := []
  /-- The message `reportTimer` is scheduled. -/
  reportTimer : Bool := true
  /-- `simTime()`. -/
  simTime : ℚ

namespace VehicleApp

/-- The application after `initialize` at time `now`; `uniform` is the random number it draws. -/
def init (penetrationRate uniform : ℚ) (edgeIndex : EdgeIndex) (now : ℚ) : VehicleApp where
  isEquipped := decide (1 ≤ penetrationRate) || decide (uniform < penetrationRate)
  edgeIndex := edgeIndex
  simTime := now

open Handler

/-- The handlers of the application. -/
abbrev Action := Handler VehicleApp Effect

/-- A TraCI call. -/
def traci {α : Type} (c : TraciCall) (reply : Option α) : Action α := call (.traci c) reply

/-- `edgeId.empty() || edgeId[0] == ':'`. -/
def offRoad (edgeId : Text) : Bool := edgeId.isEmpty || startsWithColon edgeId

/-! ### Statistics and shutdown -/

/-- Take the first edge the vehicle is seen on as its departure. -/
def tryInitStats (r : ReportReplies) : Action Unit := do
  let app ← get
  if app.statsInitialized then pure ()
  else
    orElse
      (do
        let edgeId ← traci .getRoadId r.initRoadId
        if offRoad edgeId then pure ()
        else modify fun a => { a with
          departTime := a.simTime, departEdge := edgeId, lastEdge := edgeId,
          statsInitialized := true })
      (pure ())

/-- The row for the vehicle as it is now. -/
def statsRow (par : VehiclePar) (app : VehicleApp) : CsvRow where
  vehicleId := par.vehId
  sumoId := par.externalId
  isEquipped := app.isEquipped
  departTime := app.departTime
  arrivalTime := app.simTime
  duration := app.simTime - app.departTime
  routesReceived := app.routesReceived
  routesApplied := app.routesApplied
  routesFallback := app.routesFallback
  laneChanges := app.laneChangeCounter
  departEdge := app.departEdge
  destEdge := app.lastEdge

/-- Write the row, once. -/
def writeStatsRow (par : VehiclePar) : Action Unit := do
  let app ← get
  if !app.statsInitialized then pure ()
  else if app.statsWritten then pure ()
  else
    modify fun a => { a with statsWritten := true }
    emit (.csvRow (statsRow par app))

/-- Leave the LTE network and plan the deletion of the module, once. -/
def shutdownLteStack (par : VehiclePar) : Action Unit := do
  let app ← get
  if app.lteShutdown then pure ()
  else
    modify fun a => { a with lteShutdown := true }
    match par.mac with
    | none => pure ()
    | some nid =>
      when (nid ≠ 0) (emit (.unregisterNode nid))
      emit .stopTtiTick
      when (!app.deleteScheduled) (modify fun a => { a with
        deleteScheduled := true, reportTimer := false, deleteSelfMsg := true })

/-! ### Reports -/

/-- Remember the edge the vehicle is on. -/
def updateLastEdge (r : ReportReplies) : Action Unit := do
  let app ← get
  when app.statsInitialized (orElse
    (do
      let edgeId ← traci .getRoadId r.lastRoadId
      when (!offRoad edgeId) (modify fun a => { a with lastEdge := edgeId }))
    (pure ()))

/-- `s.substr(0, s.find_last_of('_'))`, if there is an underscore. -/
def laneEdge (lane : Text) : Option Text :=
  if lane.contains '_' then some ((lane.reverse.dropWhile (· ≠ '_')).tail.reverse) else none

/-- Count a lane change if the lane is a new one of the same edge. -/
def countLaneChange (currentLaneID : Text) (app : VehicleApp) : VehicleApp :=
  let changed := app.lastLaneID ≠ [] ∧ currentLaneID ≠ app.lastLaneID ∧
    (laneEdge app.lastLaneID).isSome ∧ laneEdge currentLaneID = laneEdge app.lastLaneID
  { app with
    laneChangeCounter := app.laneChangeCounter + if changed then 1 else 0
    lastLaneID := currentLaneID }

/-- Query the lane. -/
def updateLane (r : ReportReplies) : Action Unit :=
  orElse
    (do
      let currentLaneID ← traci .getLaneId r.laneId
      modify (countLaneChange currentLaneID))
    (pure ())

/-- SUMO's travel time of an edge, `-1` if it cannot be had. -/
def readRealTravelTime (edgeId : Text) (r : ReportReplies) : Action ℚ :=
  orElse (traci (.getCurrentTravelTime edgeId) r.travelTime) (pure (-1))

/-- The number of the last planned edge, `-1` if there is none. -/
def destIndex (index : EdgeIndex) (planned : List Text) : ℤ :=
  match planned.getLast? with
  | none => -1
  | some destEdge => (index.edgeToIndex destEdge).getD (-1)

/-- The second half of `sendReport`: the report of a vehicle on the edge `edgeId`. -/
def reportFrom (edgeId : Text) (speed : ℚ) (r : ReportReplies) : Action Unit := do
  updateLane r
  let app ← get
  match app.edgeIndex.edgeToIndex edgeId with
  | none => pure ()
  | some edgeIdx =>
    let planned ← traci .getPlannedRoadIds r.plannedRoadIds
    let destIdx := destIndex app.edgeIndex planned
    if destIdx < 0 then pure ()
    else
      modify fun a => { a with
        lastDestEdge := (a.edgeIndex.indexToEdge[destIdx.toNat]?).getD [] }
      let realTT ← readRealTravelTime edgeId r
      emit (.report ⟨edgeIdx, destIdx, speed, app.simTime, realTT, app.laneChangeCounter⟩)

/-- The part of `sendReport` for a vehicle that is still in SUMO. -/
def reportPresent (r : ReportReplies) : Action Unit := do
  tryInitStats r
  updateLastEdge r
  let app ← get
  if !app.isEquipped then pure ()
  else
    let edgeId ← traci .getRoadId r.roadId
    let speed ← traci .getSpeed r.speed
    if offRoad edgeId then pure ()
    else reportFrom edgeId speed r

/-- The part of `sendReport` for a vehicle that has left SUMO. -/
def reportGone (par : VehiclePar) : Action Unit := do
  writeStatsRow par
  shutdownLteStack par
  modify fun a => { a with isEquipped := false }

/-- `sendReport`; `managed` says whether the manager still has the vehicle. -/
def sendReport (par : VehiclePar) (managed : Bool) (r : ReportReplies) : Action Unit :=
  if managed then reportPresent r else reportGone par

/-! ### Routes -/

/-- The edges of a route message, `none` if one of the numbers is out of range. -/
def edgeList (index : EdgeIndex) (msg : ServerRouteMsg) : Option (List Text) :=
  ((List.finRange 64).take msg.routeLength.toNat).mapM fun i =>
    if msg.routeEdges i < 0 then none else index.indexToEdge[(msg.routeEdges i).toNat]?

/-- Ask SUMO for a way of its own to `targetEdge`. -/
def fallback (targetEdge : Text) (r : RouteReplies) : Action Unit :=
  orElse
    (do
      traci (.changeTarget targetEdge) r.changeTarget
      modify fun a => { a with routesFallback := a.routesFallback + 1 })
    (pure ())

/-- The second half of `socketDataArrived`: apply the route from the current edge on, or else
only its last edge. -/
def applyRoute (edgeList : List Text) (r : RouteReplies) : Action Unit := do
  let currentEdge ← traci .getRoadId r.roadId
  let found := edgeList.contains currentEdge
  let trimmedRoute := edgeList.dropWhile (· ≠ currentEdge)
  if !found || decide (trimmedRoute.length < 2) then
    match edgeList.getLast? with
    | none => pure ()
    | some targetEdge => fallback targetEdge r
  else
    let ok ← traci (.changeVehicleRoute trimmedRoute) r.changeVehicleRoute
    if ok then modify fun a => { a with routesApplied := a.routesApplied + 1 }
    else
      match trimmedRoute.getLast? with
      | none => pure ()
      | some targetEdge => fallback targetEdge r

/-- A route arrives. -/
def socketDataArrived (msg : ServerRouteMsg) (r : RouteReplies) : Action Unit := do
  let app ← get
  if !app.isEquipped then pure ()
  else if msg.routeLength ≤ 0 ∨ 64 < msg.routeLength then pure ()
  else
    modify fun a => { a with routesReceived := a.routesReceived + 1 }
    match edgeList app.edgeIndex msg with
    | none => pure ()
    | some edgeList => applyRoute edgeList r

theorem socketDataArrived_unequipped {msg : ServerRouteMsg} {r : RouteReplies} {a : VehicleApp}
    (hq : a.isEquipped = false) : socketDataArrived msg r a = ⟨some (), a, []⟩ := by
  simp [socketDataArrived, bind_apply, hq]

/-- A usable route is counted and applied. -/
theorem socketDataArrived_usable {msg : ServerRouteMsg} {r : RouteReplies} {a : VehicleApp}
    {edges : List Text} (hq : a.isEquipped = true) (hpos : 0 < msg.routeLength)
    (hmax : msg.routeLength ≤ 64) (hedges : edgeList a.edgeIndex msg = some edges) :
    socketDataArrived msg r a =
      applyRoute edges r { a with routesReceived := a.routesReceived + 1 } := by
  have hlen : ¬ (msg.routeLength ≤ 0 ∨ 64 < msg.routeLength) := by omega
  simp only [socketDataArrived, bind_apply, get_apply, hq, Bool.not_true, Bool.false_eq_true,
    ↓reduceIte, hlen, modify_apply, hedges, List.nil_append]

/-! ### Timers and the end -/

/-- `finish`. -/
def finish (par : VehiclePar) : Action Unit := do
  writeStatsRow par
  modify fun a => { a with reportTimer := false, deleteSelfMsg := false }

/-- The report timer fires. -/
def handleReportTimer (par : VehiclePar) (managed : Bool) (r : ReportReplies) : Action Unit := do
  modify fun a => { a with reportTimer := false }
  sendReport par managed r
  let app ← get
  when (!app.deleteScheduled) (modify fun a => { a with reportTimer := true })

/-- The message `deleteSelf` arrives; `callFinish` of the host calls `finish`. -/
def handleDeleteSelf (par : VehiclePar) : Action Unit := do
  modify fun a => { a with deleteSelfMsg := false }
  finish par

end VehicleApp

/-! ### The vehicle as a machine -/

/-- The life of the module. -/
inductive Phase where
  /-- It handles events. -/
  | running
  /-- `finish` has been called, at the end of the simulation or before the deletion. -/
  | finished
  /-- An exception has ended the simulation. -/
  | aborted
  deriving DecidableEq

/-- The application and the manager's entry for its vehicle. -/
structure Vehicle where
  /-- The application. -/
  app : VehicleApp
  /-- The id of the vehicle is in `getManagedHosts()`. -/
  managed : Bool := true
  /-- The life of the module. -/
  phase : Phase := .running

/-- The events a vehicle sees. -/
inductive VehicleEvent where
  /-- The report timer. -/
  | reportTimer (r : ReportReplies)
  /-- The vehicle leaves SUMO and the manager drops it. -/
  | hostRemoved
  /-- A route arrives. -/
  | routeArrived (msg : ServerRouteMsg) (r : RouteReplies)
  /-- The deletion planned by `shutdownLteStack`. -/
  | deleteSelf
  /-- The end of the simulation. -/
  | finish

namespace Vehicle

/-- The vehicle after `initialize`. -/
def init (penetrationRate uniform : ℚ) (edgeIndex : EdgeIndex) (now : ℚ) : Vehicle where
  app := VehicleApp.init penetrationRate uniform edgeIndex now

variable (par : VehiclePar)

/-- The vehicle at time `t`. -/
def advance (v : Vehicle) (t : ℚ) : Vehicle := { v with app := { v.app with simTime := t } }

/-- The handler of the event. -/
def handler (managed : Bool) : VehicleEvent → VehicleApp.Action Unit
  | .reportTimer r => VehicleApp.handleReportTimer par managed r
  | .hostRemoved => pure ()
  | .routeArrived msg r => VehicleApp.socketDataArrived msg r
  | .deleteSelf => VehicleApp.handleDeleteSelf par
  | .finish => VehicleApp.finish par

/-- The event can occur: self-messages have to be scheduled. -/
def enabled (v : Vehicle) : VehicleEvent → Bool
  | .reportTimer _ => v.app.reportTimer
  | .deleteSelf => v.app.deleteSelfMsg
  | _ => true

/-- The phase after the event, if its handler returns. -/
def nextPhase : VehicleEvent → Phase
  | .deleteSelf | .finish => .finished
  | _ => .running

/-- The manager's entry after the event. -/
def nextManaged (managed : Bool) : VehicleEvent → Bool
  | .hostRemoved => false
  | _ => managed

/-- Handle an event at the current time. -/
def handle (v : Vehicle) (e : VehicleEvent) : Vehicle × List Effect :=
  let r := handler par v.managed e v.app
  (⟨r.state, nextManaged v.managed e, if r.value.isSome then nextPhase e else .aborted⟩, r.out)

end Vehicle

/-- The vehicle as an event machine; an event is given with its time. -/
def vehicle (par : VehiclePar) : Machine Vehicle (ℚ × VehicleEvent) Effect where
  step v e :=
    if v.phase = .running ∧ v.app.simTime ≤ e.1 ∧ v.enabled e.2 = true then
      some ((v.advance e.1).handle par e.2)
    else none

end V2nLte
