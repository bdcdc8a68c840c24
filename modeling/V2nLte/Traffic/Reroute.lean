import V2nLte.Machine.Collections
import V2nLte.Traffic.Throttle
import V2nLte.Traffic.Vehicle

/-!
# Rerouting from end to end

A vehicle reports the edge it is on and its destination, the server computes a route, packs it
into a message and sends it, and the vehicle asks SUMO to drive the rest of the route or, failing
that, to the last edge of it.  The destination is meant to survive all of this.

It does not survive the packing of a route of more than 64 edges: `routeMsg` keeps the first 64
only, and both ways of applying the route end at the 64th edge.  `destination_preserved_iff`
says that this is the only way to lose it.
-/

namespace V2nLte

open TrafficServer VehicleApp Handler

/-- Vehicle and server have read the same network, without repeated ids. -/
structure SameNet (net : RoadNet) (index : EdgeIndex) : Prop where
  /-- No edge id is repeated. -/
  nodup : (net.edges.map EdgeData.id).Nodup
  /-- Both number the edges alike. -/
  agree : TablesAgree net index

theorem sameNet_of_file {stod : Text → Option ℚ} {lines : List Text} {net : RoadNet}
    (h : parseNetXml stod (some lines) = some net) (hnd : (edgeIds lines).Nodup) :
    SameNet net (parseEdgeIndex (some lines)) :=
  ⟨nodup_ids_parseNetXml h, tablesAgree_of_nodup h hnd⟩

/-- The id of the edge with this number. -/
def RoadNet.edgeId (net : RoadNet) (i : ℕ) : Text := ((net.edges[i]?).map EdgeData.id).getD []

theorem SameNet.lookup {net : RoadNet} {index : EdgeIndex} (h : SameNet net index) {i : ℕ}
    (hi : i < net.edges.length) : index.indexToEdge[i]? = some (net.edgeId i) := by
  rw [← h.agree.2.1 i]
  simp [RoadNet.edgeId, hi]

theorem SameNet.edgeId_inj {net : RoadNet} {index : EdgeIndex} (h : SameNet net index) {i j : ℕ}
    (hi : i < net.edges.length) (hj : j < net.edges.length)
    (heq : net.edgeId i = net.edgeId j) : i = j := by
  refine (@List.Nodup.getElem_inj_iff _ _ h.nodup i (by simpa using hi) j
    (by simpa using hj)).1 ?_
  simpa [RoadNet.edgeId, hi, hj] using heq

/-! ### From the route to the vehicle's list of edges -/

/-- The vehicle reads the first 64 edges of the route. -/
theorem edgeList_routeMsg {index : EdgeIndex} (name : ℕ → Text) {route : List ℕ}
    (h : ∀ i ∈ route, index.indexToEdge[i]? = some (name i)) :
    edgeList index (routeMsg route) = some ((route.take 64).map name) := by
  have hlen : (routeMsg route).routeLength.toNat = min route.length 64 := by
    simp only [routeMsg]
    omega
  unfold edgeList
  rw [hlen, mapM_eq_some_map (g := fun i : Fin 64 => name (route[(i : ℕ)]?.getD 0))]
  · congr 1
    apply List.ext_getElem
    · simp [Nat.min_comm]
    · intro i h₁ h₂
      simp only [List.length_map, List.length_take, List.length_finRange] at h₁ h₂
      have hi : i < route.length := by omega
      simp [hi]
  · intro i hi
    obtain ⟨k, hk, rfl⟩ := List.mem_iff_getElem.1 hi
    simp only [List.length_take, List.length_finRange] at hk
    have hr : k < route.length := by omega
    have hmem := h route[k] (List.getElem_mem hr)
    simp [routeMsg, hr, hmem]

/-! ### What the vehicle asks SUMO to do -/

/-- After this command the vehicle's last edge is `target`; queries leave its route alone. -/
def TraciCall.DrivesTo (target : Text) : TraciCall → Prop
  | .changeVehicleRoute edges => edges.getLast? = some target
  | .changeTarget edgeId => edgeId = target
  | _ => True

/-- All commands among the outputs lead to `target`. -/
def EndsAt (target : Text) (_ : VehicleApp) (os : List Effect) : Prop :=
  ∀ c, Effect.traci c ∈ os → c.DrivesTo target

variable {target : Text} {edges : List Text} {r : RouteReplies} {a : VehicleApp}

theorem keeps_endsAt_traci {α : Type} {c : TraciCall} {reply : Option α}
    (hc : c.DrivesTo target) : Keeps (EndsAt target) (traci c reply) := by
  have hnew : ∀ s os, EndsAt target s os → EndsAt target s (os ++ [.traci c]) := by
    intro s os h c' hc'
    rcases List.mem_append.1 hc' with hc' | hc'
    · exact h c' hc'
    · rw [Effect.traci.inj (List.mem_singleton.1 hc')]
      exact hc
  exact Triple.call (fun s os _ _ h => hnew s os h) fun s os _ h => hnew s os h

theorem keeps_endsAt_fallback : Keeps (EndsAt target) (fallback target r) :=
  Triple.orElse (Triple.bind (keeps_endsAt_traci rfl) fun _ => Triple.modify fun _ _ h => h)
    (Triple.pure fun _ _ h => h)

theorem getLast?_dropWhile {p : Text → Bool} (hne : edges.dropWhile p ≠ []) :
    (edges.dropWhile p).getLast? = edges.getLast? := by
  obtain ⟨front, hfront⟩ := List.dropWhile_suffix (l := edges) p
  conv_rhs => rw [← hfront]
  rw [List.getLast?_append_of_ne_nil _ hne]

/-- Whatever the current edge is, the vehicle is sent to the last edge of the list. -/
theorem keeps_endsAt_applyRoute (hlast : edges.getLast? = some target) :
    Keeps (EndsAt target) (applyRoute edges r) := by
  refine Triple.bind (keeps_endsAt_traci trivial) fun currentEdge => Triple.ite (fun _ => ?_)
    fun hcond => ?_
  · rw [hlast]
    exact keeps_endsAt_fallback
  · simp only [Bool.or_eq_true, decide_eq_true_eq, not_or, not_lt] at hcond
    have hne : edges.dropWhile (fun x => decide (x ≠ currentEdge)) ≠ [] :=
      List.ne_nil_of_length_pos (by omega)
    have htrim := (getLast?_dropWhile hne).trans hlast
    refine Triple.bind (keeps_endsAt_traci htrim) fun ok => Triple.ite
      (fun _ => Triple.modify fun s os h => h) fun _ => ?_
    rw [htrim]
    exact keeps_endsAt_fallback

/-- A list of edges always leads to some command, if the current edge is known. -/
theorem exists_command (edges : List Text) {last : Text} (hlast : edges.getLast? = some last)
    (x : Text) :
    ∃ c, Effect.traci c ∈ (applyRoute edges ⟨some x, some true, some ()⟩ a).out ∧
      (c.DrivesTo target → last = target) := by
  by_cases hcond : (!edges.contains x ||
      decide ((edges.dropWhile fun y => decide (y ≠ x)).length < 2)) = true
  · refine ⟨.changeTarget last, ?_, fun h => h⟩
    simp only [applyRoute, bind_apply, VehicleApp.traci, call_apply, hcond, ↓reduceIte, hlast,
      fallback, orElse_apply]
    simp
  · refine ⟨.changeVehicleRoute (edges.dropWhile fun y => decide (y ≠ x)), ?_, fun h => ?_⟩
    · simp only [applyRoute, bind_apply, VehicleApp.traci, call_apply, hcond]
      simp [bind_apply]
    · simp only [Bool.or_eq_true, decide_eq_true_eq, not_or, not_lt] at hcond
      have hne : edges.dropWhile (fun y => decide (y ≠ x)) ≠ [] :=
        List.ne_nil_of_length_pos (by omega)
      have hend : (edges.dropWhile fun y => decide (y ≠ x)).getLast? = some target := h
      rw [getLast?_dropWhile hne, hlast] at hend
      exact Option.some.inj hend

/-! ### The whole way -/

/-- What is known about a computed route, whatever the weights. -/
theorem route_spec {W : Type} [LinearOrder W] [Add W] [Zero W] {s : TrafficServer} {w : ℕ → W}
    {e d : ℕ} {route : List ℕ} (he : e < s.net.edges.length)
    (hroute : Dijkstra.path s.net.edges.length s.neighbors w e d = route) (hne : route ≠ []) :
    route.getLast? = some d ∧ route.Nodup ∧ ∀ i ∈ route, i < s.net.edges.length := by
  subst hroute
  have hadj : ∀ u v, v ∈ s.neighbors u → v < s.net.edges.length := by
    intro u v hv
    unfold neighbors at hv
    cases hu : s.net.adjacency[u]? with
    | none => simp [hu] at hv
    | some ns =>
      rw [hu] at hv
      exact s.net.adjacency_lt ns (List.mem_of_getElem? hu) v hv
  exact ⟨Dijkstra.path_last he hadj hne, Dijkstra.path_nodup he hadj, Dijkstra.path_lt he hadj⟩

/-- Cutting a list without repetitions changes its last element. -/
theorem getLast?_take_eq {route : List ℕ} (hnd : route.Nodup) {n : ℕ} :
    (route.take (n + 1)).getLast? = route.getLast? ↔ route.length ≤ n + 1 := by
  constructor
  · intro heq
    by_contra hlong
    push Not at hlong
    rw [List.getLast?_eq_getElem?, List.getLast?_eq_getElem?, List.length_take,
      Nat.min_eq_left hlong.le, Nat.add_sub_cancel, List.getElem?_take_of_lt (Nat.lt_succ_self n),
      List.getElem?_eq_getElem (by omega), List.getElem?_eq_getElem (by omega),
      Option.some.injEq, hnd.getElem_inj_iff] at heq
    omega
  · intro hshort
    rw [List.take_of_length_le hshort]

/-- **What becomes of a computed route**, whatever weights it was computed with: sent to a vehicle
that takes part, it leads to its destination iff it fits into the message. -/
theorem route_preserved_iff {W : Type} [LinearOrder W] [Add W] [Zero W] {s : TrafficServer}
    {w : ℕ → W} {e d : ℕ} {route : List ℕ} {app : VehicleApp} (hnet : SameNet s.net app.edgeIndex)
    (he : e < s.net.edges.length)
    (hroute : Dijkstra.path s.net.edges.length s.neighbors w e d = route)
    (hne : route ≠ []) :
    (∀ replies c,
      Effect.traci c ∈ (VehicleApp.socketDataArrived (routeMsg route) replies app).out →
        c.DrivesTo (s.net.edgeId d)) ↔ (app.isEquipped = true → route.length ≤ 64) := by
  obtain ⟨hlast, hnd, hlt⟩ := route_spec he hroute hne
  have hedges := edgeList_routeMsg s.net.edgeId fun i hi => hnet.lookup (hlt i hi)
  have hlen : 0 < route.length := List.length_pos_iff.2 hne
  have hpos : 0 < (routeMsg route).routeLength := by simp only [routeMsg]; omega
  have hmax : (routeMsg route).routeLength ≤ 64 := by simp only [routeMsg]; omega
  by_cases hq : app.isEquipped = true
  · simp only [socketDataArrived_usable hq hpos hmax hedges]
    rw [imp_iff_right hq, ← getLast?_take_eq hnd]
    constructor
    · intro hall
      -- some command is issued, and it leads to the last edge of the message
      have hne' : route.take 64 ≠ [] := List.ne_nil_of_length_pos (by simp; omega)
      obtain ⟨last, hsent⟩ := Option.isSome_iff_exists.1 (List.getLast?_isSome.2 hne')
      obtain ⟨c, hc, hdrives⟩ := exists_command ((route.take 64).map s.net.edgeId)
        (a := { app with routesReceived := app.routesReceived + 1 })
        (by rw [List.getLast?_map, hsent]; rfl) []
      have hid := hdrives (hall _ c hc)
      have hlt' := hlt last (List.mem_of_mem_take (List.mem_of_getLast? hsent))
      rw [hsent, hlast, hnet.edgeId_inj hlt' (hlt _ (List.mem_of_getLast? hlast)) hid]
    · intro hfits replies c hc
      have hsent : ((route.take 64).map s.net.edgeId).getLast? = some (s.net.edgeId d) := by
        rw [List.getLast?_map, hfits, hlast]; rfl
      have hends := Triple.apply (keeps_endsAt_applyRoute (r := replies) hsent) (l := [])
        (s := { app with routesReceived := app.routesReceived + 1 })
        (fun c hc => absurd hc List.not_mem_nil)
      exact hends c hc
  · have hq' : app.isEquipped = false := by simpa using hq
    simp [socketDataArrived_unequipped hq', hq']

/-- **The destination survives exactly if the route fits into the message.**  A report of a
vehicle on the edge `report.edgeIndex` that is going to `report.destEdgeIndex` makes the server
send `r`.  Whatever edge the vehicle is on when `r` arrives and whatever SUMO answers, all that
the vehicle asks SUMO to do leads to the destination it reported, if and only if the vehicle
has stopped taking part or the route that was computed has at most 64 edges. -/
theorem destination_preserved_iff (par : ServerPar) (s : TrafficServer) (srcAddr : Text)
    (srcPort : ℤ) (report : VehicleReportMsg) (r : RouteSent) (app : VehicleApp)
    (hnet : SameNet s.net app.edgeIndex)
    (hr : r ∈ (s.socketDataArrived par srcAddr srcPort report).2) :
    (∀ replies c, Effect.traci c ∈ (VehicleApp.socketDataArrived r.msg replies app).out →
      c.DrivesTo (s.net.edgeId report.destEdgeIndex.toNat)) ↔
    (app.isEquipped = true →
      ((s.recordReport report.edgeIndex.toNat srcAddr srcPort report).dijkstra par
        report.edgeIndex.toNat report.destEdgeIndex.toNat (hashVehicleKey srcAddr)).length ≤
          64) := by
  rcases socketDataArrived_cases s par srcAddr srcPort report with
    ⟨-, heq⟩ | ⟨s₁, rfl, hrange, heq | ⟨-, -, heq⟩ | ⟨-, hsend, heq⟩⟩
  · simp [heq] at hr
  · simp [heq] at hr
  · simp [heq] at hr
  rw [heq, List.mem_singleton] at hr
  subst hr
  have he : report.edgeIndex.toNat < s.net.edges.length := by
    have := hrange.1; have := hrange.2.1; omega
  exact route_preserved_iff (s := s.recordReport _ srcAddr srcPort report) hnet he rfl
    (List.ne_nil_of_length_pos (Nat.lt_of_lt_of_le Nat.zero_lt_two hsend.length))

/-! ### Examples -/

/-- The vehicle's tables for a network. -/
def RoadNet.index (net : RoadNet) : EdgeIndex :=
  ⟨net.edges.map EdgeData.id, indexTable (net.edges.map EdgeData.id)⟩

theorem sameNet_index {net : RoadNet} (hnd : (net.edges.map EdgeData.id).Nodup)
    (htable : net.edgeNameToIdx = indexTable (net.edges.map EdgeData.id)) :
    SameNet net net.index := by
  refine ⟨hnd, ?_, fun i => ?_, fun name => ?_⟩
  · simp [RoadNet.index]
  · rw [RoadNet.index, List.getElem?_map]
  · rw [htable]; rfl

/-- A vehicle on the first of two edges that is going to the second. -/
def reportAB : VehicleReportMsg := ⟨0, 1, 8, 1, -1, 0⟩

/-- On a network of two edges the destination survives. -/
theorem destination_preserved_twoEdges :
    ∃ r ∈ ((TrafficServer.init twoEdgeNet).socketDataArrived ⟨1, 30, 150, fun _ => 1⟩
        "10.0.0.1".toList 4000 reportAB).2,
      ∀ replies c, Effect.traci c ∈ (VehicleApp.socketDataArrived r.msg replies
        (VehicleApp.init 1 0 twoEdgeNet.index 0)).out → c.DrivesTo "b".toList := by
  have hroute : ((TrafficServer.init twoEdgeNet).socketDataArrived ⟨1, 30, 150, fun _ => 1⟩
      "10.0.0.1".toList 4000 reportAB).2 ≠ [] := by decide +kernel
  obtain ⟨r, hr⟩ := List.exists_mem_of_ne_nil _ hroute
  have hnet : SameNet twoEdgeNet twoEdgeNet.index :=
    sameNet_index (by decide +kernel) rfl
  exact ⟨r, hr, (destination_preserved_iff _ (TrafficServer.init twoEdgeNet) _ _ _ r
    (VehicleApp.init 1 0 twoEdgeNet.index 0) hnet hr).2 fun _ => by decide +kernel⟩

/-- A road of 66 edges. -/
def longRoad : RoadNet where
  edges := (List.range 66).map fun i =>
    { id := List.replicate (i + 1) 'e', index := i, length := 100, speedLimit := 10 }
  edgeNameToIdx := indexTable ((List.range 66).map fun i => List.replicate (i + 1) 'e')
  adjacency := (List.range 66).map fun i => if i + 1 < 66 then [i + 1] else []
  adjacency_length := by simp
  adjacency_lt := by
    intro ns hns v hv
    obtain ⟨i, -, rfl⟩ := List.mem_map.1 hns
    split at hv
    · simp only [List.mem_singleton] at hv
      simp only [List.length_map, List.length_range]
      omega
    · cases hv

set_option maxRecDepth 100000 in
/-- A vehicle on the first edge of a road of 66 edges that is going to its end is given the
first 64 edges as its new route. -/
theorem destination_lost_on_longRoad : SameNet longRoad longRoad.index ∧
    ∃ r ∈ ((TrafficServer.init longRoad).socketDataArrived ⟨1, 30, 150, fun _ => 1⟩
        "10.0.0.1".toList 4000 ⟨0, 65, 8, 1, -1, 0⟩).2,
      ∃ replies c, Effect.traci c ∈ (VehicleApp.socketDataArrived r.msg replies
          (VehicleApp.init 1 0 longRoad.index 0)).out ∧
        ¬ c.DrivesTo (longRoad.edgeId 65) := by
  have hnet : SameNet longRoad longRoad.index :=
    sameNet_index (by decide +kernel) (congrArg indexTable (by decide +kernel))
  -- the server finds the whole road, the message holds 64 edges of it
  have hsent : ((TrafficServer.init longRoad).socketDataArrived ⟨1, 30, 150, fun _ => 1⟩
      "10.0.0.1".toList 4000 ⟨0, 65, 8, 1, -1, 0⟩).2.map RouteSent.msg =
        [routeMsg (List.range 66)] := by decide +kernel
  have hout : Effect.traci (.changeVehicleRoute ((List.range 64).map longRoad.edgeId)) ∈
      (VehicleApp.socketDataArrived (routeMsg (List.range 66))
        ⟨some (longRoad.edgeId 0), some true, none⟩
        (VehicleApp.init 1 0 longRoad.index 0)).out := by decide +kernel
  have hlast : ((List.range 64).map longRoad.edgeId).getLast? ≠ some (longRoad.edgeId 65) := by
    decide +kernel
  obtain ⟨r, hr, hmsg⟩ := List.mem_map.1 (hsent ▸ List.mem_singleton_self _)
  exact ⟨hnet, r, hr, _, .changeVehicleRoute _, hmsg ▸ hout, hlast⟩

end V2nLte
