import V2nLte.Graph.Dijkstra
import V2nLte.Machine.Basic
import V2nLte.Traffic.NetXml
import Mathlib.Algebra.Order.Floor.Defs
import Mathlib.Data.Rat.Floor

/-!
# The traffic server

`TrafficServer` collects the reports of the vehicles into one `EdgeTraffic` record per road edge
and sends new routes.  Its handlers are `socketDataArrived` (a vehicle report), `decayEdgeInfo`
(the decay timer) and the reset of the reroute counter; `server` is the module as an event
machine whose outputs are the routes sent.

Numbers are rational: the arithmetic of the source in exact form.  The C library's exponential
in the age-of-information factor is a parameter (`ServerPar.exp`), and simulation time is a
field of the state that the events move forward.

`ServerStep` lists what an event can do, and `serverStep_of_step` says that nothing else can
happen; everything about runs of the server is derived from it.
-/

namespace V2nLte

/-! ### Messages -/

/-- A vehicle's report. -/
structure VehicleReportMsg where
  /-- The edge the vehicle is on. -/
  edgeIndex : ℤ
  /-- The last edge of its planned route. -/
  destEdgeIndex : ℤ
  /-- Its speed in metres per second. -/
  speed : ℚ
  /-- The time of the report. -/
  timestamp : ℚ
  /-- SUMO's current travel time of the edge, `-1` if it is not known. -/
  realTravelTime : ℚ
  /-- Lane changes so far. -/
  laneChangeCount : ℤ
  deriving DecidableEq

/-- A route for a vehicle: at most 64 edge indices. -/
structure ServerRouteMsg where
  /-- How many of the slots are used. -/
  routeLength : ℤ
  /-- The slots. -/
  routeEdges : Fin 64 → ℤ
  deriving DecidableEq

/-! ### Constants and parameters -/

/-- Weight of a new value in the moving averages. -/
def EWMA_ALPHA : ℚ := 0.3
/-- Factor of the counters at a decay tick. -/
def DECAY_MULT : ℚ := 0.92
/-- Relative size of the per-vehicle noise. -/
def NOISE_AMPLITUDE : ℚ := 0.18
/-- Congestion below this is ignored. -/
def CONGESTION_THR : ℚ := 0.20
/-- Share of the reroute interval after which a new edge counts. -/
def HYSTERESIS_RATIO : ℚ := 1
/-- A travel time above this multiple of the base travel time is an outlier. -/
def REAL_TT_MAX_RATIO : ℚ := 5
/-- Travel times up to this are thrown away. -/
def REAL_TT_MIN_SEC : ℚ := 0.5
/-- Vehicles per metre of a congested edge. -/
def DENSITY_REF : ℚ := 0.10
/-- Routes sent between two resets of the counter. -/
def MAX_REROUTES_PER_SEC : ℤ := 8

/-- The NED parameters that the handlers read. -/
structure ServerPar where
  /-- Strength of the congestion penalty. -/
  K : ℚ
  /-- Seconds between two routes for one vehicle. -/
  rerouteInterval : ℚ
  /-- Routes shorter than this many metres are not sent. -/
  minRouteDistance : ℚ
  /-- `std::exp`. -/
  exp : ℚ → ℚ

/-! ### State -/

/-- What the server knows about the traffic on one edge. -/
structure EdgeTraffic where
  /-- Reports received, shrinking at every decay tick. -/
  vehicleCount : ℤ := 0
  /-- Moving average of the reported speeds. -/
  avgSpeed : ℚ := 13.9
  /-- Time of the last report. -/
  lastUpdate : ℚ := 0
  /-- Moving average of the accepted travel times. -/
  realTravelTime : ℚ := 0
  /-- Travel times accepted, shrinking at every decay tick. -/
  realTTCount : ℤ := 0
  deriving DecidableEq

/-- The last report of a vehicle. -/
structure VehicleEntry where
  /-- Where routes for the vehicle are sent. -/
  address : Text
  /-- The UDP port. -/
  port : ℤ
  /-- The edge it was on. -/
  currentEdge : ℤ := -1
  /-- The edge it was going to. -/
  destEdge : ℤ := -1

/-- The server module.  Vehicles are known by the text form of their address. -/
structure TrafficServer where
  /-- The road network. -/
  net : RoadNet
  /-- One record for each edge. -/
  traffic : List EdgeTraffic
  /-- The vehicles that have reported. -/
  vehicleMap : Text → Option VehicleEntry := fun _ => none
  /-- When a vehicle was last given (or, on short trips, spared) a route. -/
  lastRouteSent : Text → Option ℚ := fun _ => none
  /-- On which edge it was then. -/
  lastRouteEdge : Text → Option ℤ := fun _ => none
  /-- Routes sent since the last reset. -/
  rerouteCountThisSecond : ℤ := 0
  /-- `simTime()`. -/
  simTime : ℚ := 0

/-- A route on its way to a vehicle. -/
structure RouteSent where
  /-- When it was sent. -/
  time : ℚ
  /-- The address of the vehicle. -/
  address : Text
  /-- Its port. -/
  port : ℤ
  /-- The message. -/
  msg : ServerRouteMsg
  deriving DecidableEq

namespace TrafficServer

/-- The server after `initialize` has read the network. -/
def init (net : RoadNet) : TrafficServer where
  net := net
  traffic := List.replicate net.edges.length {}

/-! ### Edge weights and routes -/

/-- FNV-1a over the characters of the vehicle key. -/
def hashVehicleKey (key : Text) : UInt32 :=
  key.foldl (fun h c => (h ^^^ UInt32.ofNat (c.toNat % 256)) * 16777619) 2166136261

/-- The travel time that the weight starts from. -/
def baseTT (ed : EdgeData) (tr : EdgeTraffic) : ℚ :=
  if 0 < tr.realTTCount ∧ 0 < tr.realTravelTime then tr.realTravelTime else ed.baseTravelTime

/-- The deterministic noise factor of a vehicle on an edge. -/
def noise (edgeIdx : ℕ) (vehicleSeed : UInt32) : ℚ :=
  let h := vehicleSeed ^^^ (UInt32.ofNat edgeIdx * 2654435761)
  let h := (h ^^^ (h >>> 16)) * 0x85ebca6b
  let h := (h ^^^ (h >>> 13)) * 0xc2b2ae35
  let h := h ^^^ (h >>> 16)
  let r : ℚ := ((h &&& 0xFFFFFF).toNat : ℚ) / 0x1000000
  1 + (r - 0.5) * 2 * NOISE_AMPLITUDE

/-- The congestion of an edge: the worse of speed and density, fading with the age of the
record. -/
def congestion (par : ServerPar) (now : ℚ) (ed : EdgeData) (tr : EdgeTraffic) : ℚ :=
  let speedRatio := if 0 < ed.speedLimit ∧ 0 < tr.avgSpeed
    then min (tr.avgSpeed / ed.speedLimit) 1 else 1
  let speedCongestion := 1 - speedRatio
  let density := if 0 < ed.length then (tr.vehicleCount : ℚ) / ed.length else 0
  let densityRatio := min (density / DENSITY_REF) 1
  let aoi := now - tr.lastUpdate
  let aoiDecay := par.exp (-0.1 * aoi)
  max speedCongestion densityRatio * aoiDecay

/-- The weight of edge number `edgeIdx` with the data `ed` and the record `tr`. -/
def edgeWeight (par : ServerPar) (now : ℚ) (ed : EdgeData) (tr : EdgeTraffic) (edgeIdx : ℕ)
    (vehicleSeed : UInt32) : ℚ :=
  let congestion := congestion par now ed tr
  if congestion < CONGESTION_THR then baseTT ed tr
  else baseTT ed tr * (1 + congestion * par.K) * noise edgeIdx vehicleSeed

variable (s : TrafficServer) (par : ServerPar)

/-- `getEdgeWeight`; the callers only pass numbers of existing edges. -/
def getEdgeWeight (edgeIdx : ℕ) (vehicleSeed : UInt32) : ℚ :=
  match s.net.edges[edgeIdx]?, s.traffic[edgeIdx]? with
  | some ed, some tr => edgeWeight par s.simTime ed tr edgeIdx vehicleSeed
  | _, _ => 0

/-- The successors of an edge. -/
def neighbors (u : ℕ) : List ℕ := (s.net.adjacency[u]?).getD []

/-- The cheapest route for a vehicle, empty if there is none. -/
def dijkstra (srcEdge dstEdge : ℕ) (vehicleSeed : UInt32) : List ℕ :=
  Dijkstra.path s.net.edges.length s.neighbors (fun v => s.getEdgeWeight par v vehicleSeed)
    srcEdge dstEdge

/-- The length of a route in metres. -/
def routeDistance (route : List ℕ) : ℚ :=
  (route.map fun idx => ((s.net.edges[idx]?).map EdgeData.length).getD 0).sum

/-! ### Handlers -/

/-- The message for a route: its first 64 edges, `-1` in the unused slots. -/
def routeMsg (route : List ℕ) : ServerRouteMsg where
  routeLength := min route.length 64
  routeEdges := fun i => if (i : ℕ) < min route.length 64 then (route[(i : ℕ)]?.getD 0 : ℕ) else -1

/-- Send `route` to a known vehicle. -/
def sendRoute (vehicleKey : Text) (route : List ℕ) : List RouteSent :=
  match s.vehicleMap vehicleKey with
  | none => []
  | some entry => [⟨s.simTime, entry.address, entry.port, routeMsg route⟩]

/-- The record of an edge after a report: moving averages, with the outlier filter on the
travel time. -/
def updateRecord (now : ℚ) (ed : EdgeData) (speed realTT : ℚ) (tr : EdgeTraffic) : EdgeTraffic :=
  let tr := { tr with
    avgSpeed := if tr.vehicleCount = 0 then speed
      else (1 - EWMA_ALPHA) * tr.avgSpeed + EWMA_ALPHA * speed
    vehicleCount := tr.vehicleCount + 1
    lastUpdate := now }
  if REAL_TT_MIN_SEC < realTT ∧ realTT ≤ ed.baseTravelTime * REAL_TT_MAX_RATIO then
    { tr with
      realTravelTime := if tr.realTTCount = 0 then realTT
        else (1 - EWMA_ALPHA) * tr.realTravelTime + EWMA_ALPHA * realTT
      realTTCount := tr.realTTCount + 1 }
  else tr

/-- Enter a report into the record of its edge and into the vehicle map. -/
def recordReport (edgeIdx : ℕ) (srcAddr : Text) (srcPort : ℤ) (report : VehicleReportMsg) :
    TrafficServer :=
  { s with
    traffic := s.traffic.modify edgeIdx fun tr =>
      match s.net.edges[edgeIdx]? with
      | some ed => updateRecord s.simTime ed report.speed report.realTravelTime tr
      | none => tr
    vehicleMap := Function.update s.vehicleMap srcAddr
      (some ⟨srcAddr, srcPort, report.edgeIndex, report.destEdgeIndex⟩) }

/-- A route decision is due: the first one for this vehicle, or the interval is over (with or
without a change of edge). -/
def routeDue (vehicleKey : Text) (edgeIdx : ℤ) : Bool :=
  match s.lastRouteSent vehicleKey with
  | none => true
  | some last =>
    let sinceLast := s.simTime - last
    let timeElapsed := decide (par.rerouteInterval ≤ sinceLast)
    let edgeChanged := (s.lastRouteEdge vehicleKey).isSome &&
      decide (s.lastRouteEdge vehicleKey ≠ some edgeIdx) &&
      decide (par.rerouteInterval * HYSTERESIS_RATIO ≤ sinceLast)
    timeElapsed || edgeChanged

/-- Note that the vehicle has been served now. -/
def markServed (vehicleKey : Text) (edgeIdx : ℤ) : TrafficServer :=
  { s with
    lastRouteSent := Function.update s.lastRouteSent vehicleKey (some s.simTime)
    lastRouteEdge := Function.update s.lastRouteEdge vehicleKey (some edgeIdx) }

/-- The second half of `socketDataArrived`: decide about a route and send it. -/
def decideRoute (vehicleKey : Text) (edgeIdx destIdx : ℕ) : TrafficServer × List RouteSent :=
  if s.routeDue par vehicleKey edgeIdx then
    if MAX_REROUTES_PER_SEC ≤ s.rerouteCountThisSecond then (s, [])
    else
      let route := s.dijkstra par edgeIdx destIdx (hashVehicleKey vehicleKey)
      if route ≠ [] ∧ 2 ≤ route.length then
        if s.routeDistance route < par.minRouteDistance then
          (s.markServed vehicleKey edgeIdx, [])
        else
          ({ s.markServed vehicleKey edgeIdx with
             rerouteCountThisSecond := s.rerouteCountThisSecond + 1 },
           s.sendRoute vehicleKey route)
      else (s, [])
  else (s, [])

/-- The indices of the report are numbers of edges. -/
def inRange (report : VehicleReportMsg) : Prop :=
  0 ≤ report.edgeIndex ∧ report.edgeIndex < s.net.edges.length ∧
    0 ≤ report.destEdgeIndex ∧ report.destEdgeIndex < s.net.edges.length

instance (report : VehicleReportMsg) : Decidable (s.inRange report) :=
  inferInstanceAs (Decidable (_ ∧ _ ∧ _ ∧ _))

/-- A report arrives. -/
def socketDataArrived (srcAddr : Text) (srcPort : ℤ) (report : VehicleReportMsg) :
    TrafficServer × List RouteSent :=
  if ¬ s.inRange report then (s, [])
  else
    let edgeIdx := report.edgeIndex.toNat
    let destIdx := report.destEdgeIndex.toNat
    let s := s.recordReport edgeIdx srcAddr srcPort report
    if edgeIdx = destIdx then (s, [])
    else s.decideRoute par srcAddr edgeIdx destIdx

/-- The conversion `(int)x`: truncation towards zero. -/
def toInt (x : ℚ) : ℤ := if 0 ≤ x then ⌊x⌋ else ⌈x⌉

/-- The record of an edge after a decay tick. -/
def decayRecord (ed : EdgeData) (tr : EdgeTraffic) : EdgeTraffic :=
  let vehicleCount := toInt (tr.vehicleCount * DECAY_MULT)
  let realTTCount := toInt (tr.realTTCount * DECAY_MULT)
  let sl := if 0 < ed.speedLimit then ed.speedLimit else 13.9
  { tr with
    vehicleCount := vehicleCount
    realTTCount := realTTCount
    avgSpeed := if vehicleCount = 0 then (1 - EWMA_ALPHA) * tr.avgSpeed + EWMA_ALPHA * sl
      else tr.avgSpeed
    realTravelTime := if realTTCount = 0 then 0 else tr.realTravelTime }

/-- The decay timer fires. -/
def decayEdgeInfo : TrafficServer :=
  { s with
    traffic := s.traffic.mapIdx fun i tr =>
      match s.net.edges[i]? with
      | some ed => decayRecord ed tr
      | none => decayRecord { id := [], speedLimit := 0 } tr }

/-- The reset timer of the reroute counter fires. -/
def resetRerouteCounter : TrafficServer := { s with rerouteCountThisSecond := 0 }

end TrafficServer

/-! ### The server as a machine -/

/-- The events of the server. -/
inductive ServerEvent where
  /-- A report arrives from `srcAddr`. -/
  | report (time : ℚ) (srcAddr : Text) (srcPort : ℤ) (msg : VehicleReportMsg)
  /-- The decay timer. -/
  | decayTimer (time : ℚ)
  /-- The timer that resets the reroute counter. -/
  | rerouteCounterReset (time : ℚ)

/-- The time of an event. -/
def ServerEvent.time : ServerEvent → ℚ
  | .report t _ _ _ => t
  | .decayTimer t => t
  | .rerouteCounterReset t => t

/-- The clock moves to the time of the next event. -/
def TrafficServer.advance (s : TrafficServer) (t : ℚ) : TrafficServer := { s with simTime := t }

/-- `TrafficServer::handleMessage`, with the clock already at the time of the event. -/
def TrafficServer.handleMessage (par : ServerPar) (s : TrafficServer) :
    ServerEvent → TrafficServer × List RouteSent
  | .report _ srcAddr srcPort msg => s.socketDataArrived par srcAddr srcPort msg
  | .decayTimer _ => (s.decayEdgeInfo, [])
  | .rerouteCounterReset _ => (s.resetRerouteCounter, [])

/-- The server as an event machine.  The simulation kernel delivers events in the order of
time. -/
def server (par : ServerPar) : Machine TrafficServer ServerEvent RouteSent where
  step s e :=
    if e.time < s.simTime then none
    else some (TrafficServer.handleMessage par (s.advance e.time) e)

/-! ### What a report can do -/

namespace TrafficServer

variable {s : TrafficServer} {par : ServerPar} {srcAddr : Text} {srcPort : ℤ}
  {report : VehicleReportMsg}

theorem routeDue_iff {vehicleKey : Text} {edgeIdx : ℤ} :
    s.routeDue par vehicleKey edgeIdx = true ↔
      ∀ last, s.lastRouteSent vehicleKey = some last →
        par.rerouteInterval ≤ s.simTime - last := by
  unfold routeDue
  cases s.lastRouteSent vehicleKey with
  | none => simp
  | some last =>
    -- with a hysteresis ratio of one, a change of edge never makes a route due earlier
    have hratio : par.rerouteInterval * HYSTERESIS_RATIO = par.rerouteInterval := by
      simp [ HYSTERESIS_RATIO]
    simp only [hratio, Bool.or_eq_true, Bool.and_eq_true, decide_eq_true_eq, Option.some.injEq,
      forall_eq']
    constructor
    · rintro (h | ⟨-, h⟩) <;> exact h
    · exact .inl

/-- The conditions under which a route is sent. -/
structure Sends (s : TrafficServer) (par : ServerPar) (vehicleKey : Text)
    (edgeIdx destIdx : ℕ) : Prop where
  due : s.routeDue par vehicleKey edgeIdx = true
  count : s.rerouteCountThisSecond < MAX_REROUTES_PER_SEC
  length : 2 ≤ (s.dijkstra par edgeIdx destIdx (hashVehicleKey vehicleKey)).length
  distance : par.minRouteDistance ≤
    s.routeDistance (s.dijkstra par edgeIdx destIdx (hashVehicleKey vehicleKey))

theorem decideRoute_cases (s : TrafficServer) (par : ServerPar) (vehicleKey : Text)
    (edgeIdx destIdx : ℕ) :
    s.decideRoute par vehicleKey edgeIdx destIdx = (s, []) ∨
    (s.routeDue par vehicleKey edgeIdx = true ∧
      s.decideRoute par vehicleKey edgeIdx destIdx = (s.markServed vehicleKey edgeIdx, [])) ∨
    (s.Sends par vehicleKey edgeIdx destIdx ∧
      s.decideRoute par vehicleKey edgeIdx destIdx =
        ({ s.markServed vehicleKey edgeIdx with
           rerouteCountThisSecond := s.rerouteCountThisSecond + 1 },
         s.sendRoute vehicleKey
           (s.dijkstra par edgeIdx destIdx (hashVehicleKey vehicleKey)))) := by
  unfold decideRoute
  dsimp only
  split_ifs with hdue hcount hroute hdist
  · exact .inl rfl
  · exact .inr (.inl ⟨hdue, rfl⟩)
  · exact .inr (.inr ⟨⟨hdue, by omega, hroute.2, by linarith⟩, rfl⟩)
  · exact .inl rfl
  · exact .inl rfl

theorem sendRoute_recordReport (edgeIdx : ℕ) (route : List ℕ) :
    (s.recordReport edgeIdx srcAddr srcPort report).sendRoute srcAddr route =
      [⟨s.simTime, srcAddr, srcPort, routeMsg route⟩] := by
  simp [sendRoute, recordReport]

/-- **What a report can do.**  It is dropped, or recorded; once recorded, the vehicle may be
marked as served, with or without a route. -/
theorem socketDataArrived_cases (s : TrafficServer) (par : ServerPar) (srcAddr : Text)
    (srcPort : ℤ) (report : VehicleReportMsg) :
    (¬ s.inRange report ∧ s.socketDataArrived par srcAddr srcPort report = (s, [])) ∨
    ∃ s₁, s₁ = s.recordReport report.edgeIndex.toNat srcAddr srcPort report ∧ s.inRange report ∧
      (s.socketDataArrived par srcAddr srcPort report = (s₁, []) ∨
      (report.edgeIndex ≠ report.destEdgeIndex ∧
        s₁.routeDue par srcAddr report.edgeIndex = true ∧
        s.socketDataArrived par srcAddr srcPort report =
          (s₁.markServed srcAddr report.edgeIndex, [])) ∨
      (report.edgeIndex ≠ report.destEdgeIndex ∧
        s₁.Sends par srcAddr report.edgeIndex.toNat report.destEdgeIndex.toNat ∧
        s.socketDataArrived par srcAddr srcPort report =
          ({ s₁.markServed srcAddr report.edgeIndex with
             rerouteCountThisSecond := s₁.rerouteCountThisSecond + 1 },
           [⟨s.simTime, srcAddr, srcPort, routeMsg (s₁.dijkstra par report.edgeIndex.toNat
             report.destEdgeIndex.toNat (hashVehicleKey srcAddr))⟩]))) := by
  by_cases hr : s.inRange report
  · refine .inr ⟨_, rfl, hr, ?_⟩
    have he : ((report.edgeIndex.toNat : ℕ) : ℤ) = report.edgeIndex := Int.toNat_of_nonneg hr.1
    have hd : ((report.destEdgeIndex.toNat : ℕ) : ℤ) = report.destEdgeIndex :=
      Int.toNat_of_nonneg hr.2.2.1
    unfold socketDataArrived
    simp only [hr, not_true_eq_false, ↓reduceIte]
    split_ifs with hed
    · exact .inl rfl
    · have hne : report.edgeIndex ≠ report.destEdgeIndex := fun h => hed (by rw [h])
      rcases decideRoute_cases (s.recordReport report.edgeIndex.toNat srcAddr srcPort report) par
        srcAddr report.edgeIndex.toNat report.destEdgeIndex.toNat with h | ⟨hdue, h⟩ | ⟨hs, h⟩
      · exact .inl h
      · rw [he] at hdue h
        exact .inr (.inl ⟨hne, hdue, h⟩)
      · refine .inr (.inr ⟨hne, hs, ?_⟩)
        rw [h, he, sendRoute_recordReport]
  · exact .inl ⟨hr, by simp [socketDataArrived, hr]⟩

end TrafficServer

/-- The steps of the server. -/
inductive ServerStep (par : ServerPar) (s : TrafficServer) :
    ServerEvent → TrafficServer → List RouteSent → Prop
  /-- A report with an index out of range is dropped. -/
  | drop {t : ℚ} {srcAddr : Text} {srcPort : ℤ} {msg : VehicleReportMsg} :
      ServerStep par s (.report t srcAddr srcPort msg) (s.advance t) []
  /-- A report is entered into the tables. -/
  | record {t : ℚ} {srcAddr : Text} {srcPort : ℤ} {msg : VehicleReportMsg} {s₁ : TrafficServer} :
      s₁ = (s.advance t).recordReport msg.edgeIndex.toNat srcAddr srcPort msg →
      ServerStep par s (.report t srcAddr srcPort msg) s₁ []
  /-- A trip is too short for a new route. -/
  | spare {t : ℚ} {srcAddr : Text} {srcPort : ℤ} {msg : VehicleReportMsg} {s₁ : TrafficServer} :
      s₁ = (s.advance t).recordReport msg.edgeIndex.toNat srcAddr srcPort msg →
      s₁.routeDue par srcAddr msg.edgeIndex = true →
      ServerStep par s (.report t srcAddr srcPort msg) (s₁.markServed srcAddr msg.edgeIndex) []
  /-- A route is sent. -/
  | send {t : ℚ} {srcAddr : Text} {srcPort : ℤ} {msg : VehicleReportMsg} {s₁ : TrafficServer} :
      s₁ = (s.advance t).recordReport msg.edgeIndex.toNat srcAddr srcPort msg →
      s.inRange msg → msg.edgeIndex ≠ msg.destEdgeIndex →
      s₁.Sends par srcAddr msg.edgeIndex.toNat msg.destEdgeIndex.toNat →
      ServerStep par s (.report t srcAddr srcPort msg)
        { s₁.markServed srcAddr msg.edgeIndex with
          rerouteCountThisSecond := s₁.rerouteCountThisSecond + 1 }
        [⟨t, srcAddr, srcPort, TrafficServer.routeMsg (s₁.dijkstra par msg.edgeIndex.toNat
          msg.destEdgeIndex.toNat (TrafficServer.hashVehicleKey srcAddr))⟩]
  /-- The decay timer fires. -/
  | decay {t : ℚ} : ServerStep par s (.decayTimer t) (s.advance t).decayEdgeInfo []
  /-- The counter is reset. -/
  | reset {t : ℚ} : ServerStep par s (.rerouteCounterReset t) (s.advance t).resetRerouteCounter []

/-- **Every event is one of the steps**, and time does not run backwards. -/
theorem serverStep_of_step {par : ServerPar} {s s' : TrafficServer} {e : ServerEvent}
    {o : List RouteSent} (h : (server par).step s e = some (s', o)) :
    s.simTime ≤ e.time ∧ ServerStep par s e s' o := by
  simp only [server] at h
  split_ifs at h with ht
  simp only [Option.some.injEq] at h
  refine ⟨not_lt.1 ht, ?_⟩
  cases e with
  | report t srcAddr srcPort msg =>
    simp only [TrafficServer.handleMessage, ServerEvent.time] at h
    rcases TrafficServer.socketDataArrived_cases (s.advance t) par srcAddr srcPort msg with
      ⟨-, heq⟩ | ⟨s₁, hs₁, hr, heq | ⟨hne, hdue, heq⟩ | ⟨hne, hsend, heq⟩⟩
    all_goals
      rw [heq, Prod.mk.injEq] at h
      obtain ⟨rfl, rfl⟩ := h
    · exact .drop
    · exact .record hs₁
    · exact .spare hs₁ hdue
    · exact .send hs₁ hr hne hsend
  | decayTimer t =>
    simp only [TrafficServer.handleMessage, Prod.mk.injEq] at h
    obtain ⟨rfl, rfl⟩ := h
    exact .decay
  | rerouteCounterReset t =>
    simp only [TrafficServer.handleMessage, Prod.mk.injEq] at h
    obtain ⟨rfl, rfl⟩ := h
    exact .reset

end V2nLte
