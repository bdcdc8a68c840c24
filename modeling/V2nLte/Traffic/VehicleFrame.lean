import V2nLte.Traffic.Departure

/-!
# What the handlers of a vehicle leave alone

For the composition of vehicles with a server only a part of each vehicle matters: its table of
edges, its count of routes and its clock.  `Unaffected` says that a property depends on no more
than that, and `Unaffected.keeps_handler` that it is then kept by every handler but
`socketDataArrived`, which is looked at by itself.

* `Unaffected.keeps_handler` : the frame rule.
* `command_of_socketDataArrived` : where a route that SUMO is asked to drive comes from.
-/

namespace V2nLte

open VehicleApp Handler

/-- `J` does not mind what the handlers other than `socketDataArrived` do. -/
structure Unaffected (par : VehiclePar) (J : VehicleApp → List Effect → Prop) : Prop where
  modify : ∀ a a' os, a'.edgeIndex = a.edgeIndex → a'.routesReceived = a.routesReceived →
    a'.simTime = a.simTime → J a os → J a' os
  query : ∀ a os c, (∀ edges, c ≠ .changeVehicleRoute edges) → J a os →
    J a (os ++ [.traci c])
  report : ∀ a os msg, J a os → J a (os ++ [.report msg])
  row : ∀ a os, J a os → J a (os ++ [.csvRow (VehicleApp.statsRow par a)])
  unregisterNode : ∀ a os nid, J a os → J a (os ++ [.unregisterNode nid])
  stopTtiTick : ∀ a os, J a os → J a (os ++ [.stopTtiTick])

namespace Unaffected

variable {par : VehiclePar} {J : VehicleApp → List Effect → Prop} {α : Type}

theorem keeps_modify (h : Unaffected par J) (f : VehicleApp → VehicleApp)
    (hf : ∀ a, (f a).edgeIndex = a.edgeIndex ∧ (f a).routesReceived = a.routesReceived ∧
      (f a).simTime = a.simTime) : Keeps J (Handler.modify f) := by
  refine Triple.modify fun a os hJ => ?_
  obtain ⟨h₁, h₂, h₃⟩ := hf a
  exact h.modify a (f a) os h₁ h₂ h₃ hJ

theorem keeps_query (h : Unaffected par J) {c : TraciCall}
    (hc : ∀ edges, c ≠ .changeVehicleRoute edges) (reply : Option α) :
    Keeps J (VehicleApp.traci c reply) :=
  Triple.call (fun a os _ _ hJ => h.query a os c hc hJ) fun a os _ hJ => h.query a os c hc hJ

theorem keeps_pure (a : α) : Keeps J (Pure.pure a) := Triple.pure fun _ _ hJ => hJ

theorem keeps_tryInitStats (h : Unaffected par J) (r : ReportReplies) :
    Keeps J (tryInitStats r) := by
  refine Triple.get_bind fun t => Triple.pre (P := J) (fun _ _ hJ => hJ.2) ?_
  refine Triple.ite (fun _ => keeps_pure ()) fun _ => Triple.orElse (F := J) ?_ (keeps_pure ())
  refine Triple.bind (h.keeps_query (by simp) _) fun edgeId => ?_
  exact Triple.ite (fun _ => keeps_pure ()) fun _ => h.keeps_modify _ fun a => ⟨rfl, rfl, rfl⟩

theorem keeps_updateLastEdge (h : Unaffected par J) (r : ReportReplies) :
    Keeps J (updateLastEdge r) := by
  refine Triple.get_bind fun t => Triple.pre (P := J) (fun _ _ hJ => hJ.2) ?_
  refine Triple.when (fun _ => Triple.orElse (F := J) ?_ (keeps_pure ())) fun _ _ hJ => hJ
  refine Triple.bind (h.keeps_query (by simp) _) fun edgeId => ?_
  exact Triple.when (fun _ => h.keeps_modify _ fun a => ⟨rfl, rfl, rfl⟩) fun _ _ hJ => hJ

theorem keeps_updateLane (h : Unaffected par J) (r : ReportReplies) : Keeps J (updateLane r) := by
  refine Triple.orElse (F := J) ?_ (keeps_pure ())
  refine Triple.bind (h.keeps_query (by simp) _) fun lane => ?_
  exact h.keeps_modify _ fun a => ⟨rfl, rfl, rfl⟩

theorem keeps_reportFrom (h : Unaffected par J) (edgeId : Text) (speed : ℚ) (r : ReportReplies) :
    Keeps J (reportFrom edgeId speed r) := by
  refine Triple.bind (h.keeps_updateLane r) fun _ => Triple.get_bind fun t => ?_
  refine Triple.pre (P := J) (fun _ _ hJ => hJ.2) ?_
  cases t.edgeIndex.edgeToIndex edgeId with
  | none => exact keeps_pure ()
  | some edgeIdx =>
    refine Triple.bind (h.keeps_query (by simp) _) fun planned => ?_
    refine Triple.ite (fun _ => keeps_pure ()) fun _ => ?_
    refine Triple.bind (h.keeps_modify _ fun a => ⟨rfl, rfl, rfl⟩) fun _ => ?_
    refine Triple.bind (Q := fun _ => J) ?_ fun realTT => Triple.emit fun a os => h.report a os _
    exact Triple.orElse (h.keeps_query (by simp) _) (keeps_pure (-1))

theorem keeps_reportPresent (h : Unaffected par J) (r : ReportReplies) :
    Keeps J (reportPresent r) := by
  refine Triple.bind (h.keeps_tryInitStats r) fun _ => ?_
  refine Triple.bind (h.keeps_updateLastEdge r) fun _ => Triple.get_bind fun t => ?_
  refine Triple.pre (P := J) (fun _ _ hJ => hJ.2) ?_
  refine Triple.ite (fun _ => keeps_pure ()) fun _ => ?_
  refine Triple.bind (h.keeps_query (by simp) _) fun edgeId => ?_
  refine Triple.bind (h.keeps_query (by simp) _) fun speed => ?_
  exact Triple.ite (fun _ => keeps_pure ()) fun _ => h.keeps_reportFrom edgeId speed r

theorem keeps_writeStatsRow (h : Unaffected par J) : Keeps J (writeStatsRow par) := by
  refine Triple.get_bind fun t => Triple.ite (fun _ => Triple.pure fun _ _ hJ => hJ.2) fun _ =>
    Triple.ite (fun _ => Triple.pure fun _ _ hJ => hJ.2) fun _ => ?_
  refine Triple.bind (Q := fun _ a os => a = { t with statsWritten := true } ∧ J a os) ?_
    fun _ => ?_
  · refine Triple.modify ?_
    rintro a os ⟨rfl, hJ⟩
    exact ⟨rfl, h.modify a _ os rfl rfl rfl hJ⟩
  · -- the row is the one of the state before it was marked as written
    refine Triple.emit ?_
    rintro a os ⟨rfl, hJ⟩
    exact h.row _ os hJ

theorem keeps_shutdownLteStack (h : Unaffected par J) : Keeps J (shutdownLteStack par) := by
  refine Triple.get_bind fun t => Triple.pre (P := J) (fun _ _ hJ => hJ.2) ?_
  refine Triple.ite (fun _ => keeps_pure ()) fun _ => ?_
  refine Triple.bind (h.keeps_modify _ fun a => ⟨rfl, rfl, rfl⟩) fun _ => ?_
  cases par.mac with
  | none => exact keeps_pure ()
  | some nid =>
    refine Triple.bind (Q := fun _ => J) (Triple.when
      (fun _ => Triple.emit fun a os => h.unregisterNode a os nid) fun _ _ hJ => hJ) fun _ => ?_
    refine Triple.bind (Q := fun _ => J) (Triple.emit fun a os => h.stopTtiTick a os) fun _ => ?_
    exact Triple.when (fun _ => h.keeps_modify _ fun a => ⟨rfl, rfl, rfl⟩) fun _ _ hJ => hJ

theorem keeps_sendReport (h : Unaffected par J) (managed : Bool) (r : ReportReplies) :
    Keeps J (sendReport par managed r) := by
  refine Triple.ite (fun _ => h.keeps_reportPresent r) fun _ => ?_
  refine Triple.bind h.keeps_writeStatsRow fun _ => ?_
  refine Triple.bind h.keeps_shutdownLteStack fun _ => ?_
  exact h.keeps_modify _ fun a => ⟨rfl, rfl, rfl⟩

theorem keeps_finish (h : Unaffected par J) : Keeps J (finish par) :=
  Triple.bind h.keeps_writeStatsRow fun _ => h.keeps_modify _ fun _ => ⟨rfl, rfl, rfl⟩

/-- **The frame rule for a vehicle**: all handlers but the one for routes. -/
theorem keeps_handler (h : Unaffected par J) (managed : Bool) {e : VehicleEvent}
    (he : ∀ msg r, e ≠ .routeArrived msg r) : Keeps J (Vehicle.handler par managed e) := by
  cases e with
  | reportTimer r =>
    refine Triple.bind (h.keeps_modify _ fun a => ⟨rfl, rfl, rfl⟩) fun _ => ?_
    refine Triple.bind (h.keeps_sendReport managed r) fun _ => Triple.get_bind fun t => ?_
    refine Triple.pre (P := J) (fun _ _ hJ => hJ.2) ?_
    exact Triple.when (fun _ => h.keeps_modify _ fun a => ⟨rfl, rfl, rfl⟩) fun _ _ hJ => hJ
  | hostRemoved => exact keeps_pure ()
  | routeArrived msg r => exact absurd rfl (he msg r)
  | deleteSelf =>
    exact Triple.bind (h.keeps_modify _ fun a => ⟨rfl, rfl, rfl⟩) fun _ => h.keeps_finish
  | finish => exact h.keeps_finish

end Unaffected

/-! ### What a vehicle does with a route -/

section Arrival

variable {msg : ServerRouteMsg} {r : RouteReplies} {a : VehicleApp} {edges edges' : List Text}

theorem applyRoute_app (edges : List Text) (r : RouteReplies) (a : VehicleApp) :
    (applyRoute edges r a).state.edgeIndex = a.edgeIndex ∧
      (applyRoute edges r a).state.routesReceived = a.routesReceived ∧
      rows (applyRoute edges r a).out = [] := by
  have hkeeps : Keeps (fun a' os => a'.edgeIndex = a.edgeIndex ∧
      a'.routesReceived = a.routesReceived ∧ rows os = []) (applyRoute edges r) := by
    have hcall : ∀ {α : Type} (c : TraciCall) (reply : Option α),
        Keeps (fun a' os => a'.edgeIndex = a.edgeIndex ∧
          a'.routesReceived = a.routesReceived ∧ rows os = []) (VehicleApp.traci c reply) :=
      fun c reply => Triple.call (fun _ _ _ _ h => by simpa using h) fun _ _ _ h => by simpa using h
    have hfallback : ∀ target, Keeps (fun a' os => a'.edgeIndex = a.edgeIndex ∧
        a'.routesReceived = a.routesReceived ∧ rows os = []) (fallback target r) :=
      fun target => Triple.orElse (Triple.bind (hcall _ _) fun _ => Triple.modify fun _ _ h => h)
        (Triple.pure fun _ _ h => h)
    refine Triple.bind (hcall _ _) fun current => Triple.ite (fun _ => ?_) fun _ => ?_
    · cases edges.getLast? with
      | none => exact Triple.pure fun _ _ h => h
      | some target => exact hfallback target
    · refine Triple.bind (hcall _ _) fun ok => Triple.ite (fun _ => Triple.modify fun _ _ h => h)
        fun _ => ?_
      cases (edges.dropWhile fun x => decide (x ≠ current)).getLast? with
      | none => exact Triple.pure fun _ _ h => h
      | some target => exact hfallback target
  have h := Triple.apply hkeeps (l := []) (s := a) ⟨rfl, rfl, rfl⟩
  simpa using h

/-- The route that a vehicle asks SUMO to drive. -/
theorem command_of_applyRoute
    (h : .traci (.changeVehicleRoute edges') ∈ (applyRoute edges r a).out) :
    ∃ current, r.roadId = some current ∧
      edges' = edges.dropWhile (fun x => decide (x ≠ current)) ∧ 2 ≤ edges'.length := by
  cases hroad : r.roadId with
  | none => simp [applyRoute, bind_apply, VehicleApp.traci, hroad] at h
  | some current =>
    refine ⟨current, rfl, ?_⟩
    have hfallback : ∀ target (a : VehicleApp),
        .traci (.changeVehicleRoute edges') ∉ (fallback target r a).out := by
      intro target a
      simp only [fallback, orElse_apply, bind_apply, VehicleApp.traci, call_apply]
      cases r.changeTarget <;> simp
    simp only [applyRoute, bind_apply, VehicleApp.traci, call_apply, hroad] at h
    split at h
    · -- the way that SUMO is to find by itself
      cases hlast : edges.getLast? with
      | none => simp [hlast] at h
      | some target => simp [hlast, hfallback] at h
    · rename_i hcond
      simp only [Bool.or_eq_true, decide_eq_true_eq, not_or, not_lt] at hcond
      obtain ⟨target, hlast⟩ := Option.isSome_iff_exists.1
        (List.getLast?_isSome.2 (List.ne_nil_of_length_pos (Nat.zero_lt_of_lt hcond.2)))
      have heq : edges' = edges.dropWhile (fun x => decide (x ≠ current)) := by
        simp only [bind_apply, call_apply, hlast] at h
        cases hok : r.changeVehicleRoute with
        | none => simpa [hok] using h
        | some ok =>
          cases ok with
          | true => simpa [hok] using h
          | false => simpa [hok, hfallback] using h
      exact ⟨heq, heq ▸ hcond.2⟩

theorem socketDataArrived_app (msg : ServerRouteMsg) (r : RouteReplies) (a : VehicleApp) :
    (VehicleApp.socketDataArrived msg r a).state.edgeIndex = a.edgeIndex ∧
      (VehicleApp.socketDataArrived msg r a).state.routesReceived ≤ a.routesReceived + 1 ∧
      rows (VehicleApp.socketDataArrived msg r a).out = [] := by
  simp only [VehicleApp.socketDataArrived, bind_apply, get_apply]
  split
  · simp
  · split
    · simp
    · simp only [bind_apply, modify_apply]
      cases hedges : edgeList a.edgeIndex msg with
      | none => simp
      | some edges =>
        obtain ⟨h₁, h₂, h₃⟩ :=
          applyRoute_app edges r { a with routesReceived := a.routesReceived + 1 }
        exact ⟨h₁, h₂.le, by simpa using h₃⟩

/-- A command about the route is for a message whose edges are all known. -/
theorem command_of_socketDataArrived
    (h : .traci (.changeVehicleRoute edges') ∈ (VehicleApp.socketDataArrived msg r a).out) :
    ∃ edges current, edgeList a.edgeIndex msg = some edges ∧ r.roadId = some current ∧
      edges' = edges.dropWhile (fun x => decide (x ≠ current)) ∧ 2 ≤ edges'.length := by
  simp only [VehicleApp.socketDataArrived, bind_apply, get_apply] at h
  split at h
  · simp at h
  · split at h
    · simp at h
    · simp only [bind_apply, modify_apply] at h
      cases hedges : edgeList a.edgeIndex msg with
      | none => simp [hedges] at h
      | some edges =>
        simp only [hedges, List.nil_append] at h
        obtain ⟨current, hroad, heq, hlen⟩ := command_of_applyRoute h
        exact ⟨edges, current, rfl, hroad, heq, hlen⟩

end Arrival

end V2nLte
