import V2nLte.Traffic.Vehicle
import Mathlib.Tactic.Linarith

/-!
# Leaving SUMO

A vehicle leaves SUMO at any time; the application learns of it at its next report, writes its
row of statistics and plans its own deletion.  Routes may arrive before, in between and after.

* `csv_row_once` : in every run the application writes at most one row, exactly one if it had a
  departure to report when it closed, and the row is consistent.
* `traci_only_while_managed_iff` : the application makes no TraCI call for a vehicle that has
  left exactly in the runs in which no usable route arrives between the departure and the next
  report.
-/

namespace V2nLte

open VehicleApp Handler

variable {q m i : Bool} {par : VehiclePar} {a a' : VehicleApp} {os os' : List Effect}
  {E : VehicleApp → List Effect → Prop}

/-! ### The row of statistics -/

/-- The rows among the outputs. -/
def rows (os : List Effect) : List CsvRow :=
  os.filterMap fun
    | .csvRow row => some row
    | _ => none

@[simp] theorem rows_nil : rows [] = [] := rfl

@[simp] theorem rows_append : rows (os ++ os') = rows os ++ rows os' := List.filterMap_append

@[simp] theorem rows_traci {c : TraciCall} : rows [.traci c] = [] := rfl

@[simp] theorem rows_report {msg : VehicleReportMsg} : rows [.report msg] = [] := rfl

@[simp] theorem rows_csvRow {row : CsvRow} : rows [.csvRow row] = [row] := rfl

@[simp] theorem rows_unregisterNode {nid : MacNodeId} : rows [.unregisterNode nid] = [] := rfl

@[simp] theorem rows_stopTtiTick : rows [.stopTtiTick] = [] := rfl

/-- A row is consistent with itself and with `isEquipped` as it was after `initialize`. -/
structure RowOk (q : Bool) (row : CsvRow) : Prop where
  isEquipped : row.isEquipped = q
  duration : row.duration = row.arrivalTime - row.departTime
  nonneg : 0 ≤ row.duration
  routes : row.routesApplied + row.routesFallback ≤ row.routesReceived

/-- The statistics and the rows written so far fit together; `m` says whether the manager has
the vehicle. -/
structure StatsOk (q m : Bool) (a : VehicleApp) (os : List Effect) : Prop where
  count : (rows os).length = if a.statsWritten then 1 else 0
  row : ∀ row ∈ rows os, RowOk q row
  /-- The equipment is not forgotten before the row is written. -/
  equipped : a.statsInitialized = true → a.statsWritten = false → a.isEquipped = q
  depart : a.statsInitialized = true → a.departTime ≤ a.simTime
  routes : a.routesApplied + a.routesFallback ≤ a.routesReceived
  /-- Nor while the manager has the vehicle. -/
  present : m = true → a.isEquipped = q

/-- The part of the application that the statistics depend on. -/
def statsKey (a : VehicleApp) : Bool × Bool × Bool × ℚ × ℚ × ℤ × ℤ × ℤ :=
  (a.isEquipped, a.statsInitialized, a.statsWritten, a.departTime, a.simTime, a.routesReceived,
    a.routesApplied, a.routesFallback)

theorem StatsOk.congr (h : StatsOk q m a os) (hkey : statsKey a' = statsKey a)
    (hrows : rows os' = rows os) : StatsOk q m a' os' := by
  simp only [statsKey, Prod.mk.injEq] at hkey
  obtain ⟨h₁, h₂, h₃, h₄, h₅, h₆, h₇, h₈⟩ := hkey
  refine ⟨?_, ?_, ?_, ?_, ?_, ?_⟩
  · rw [hrows, h₃]; exact h.count
  · rw [hrows]; exact h.row
  · rw [h₁, h₂, h₃]; exact h.equipped
  · rw [h₂, h₄, h₅]; exact h.depart
  · rw [h₆, h₇, h₈]; exact h.routes
  · rw [h₁]; exact h.present

/-- The statistics are in order; `i` says whether there is a departure. -/
def Ready (q m i : Bool) (a : VehicleApp) (os : List Effect) : Prop :=
  StatsOk q m a os ∧ a.statsInitialized = i

/-- The statistics are in order, and the row is out if there is a departure. -/
def Closed (q m i : Bool) (a : VehicleApp) (os : List Effect) : Prop :=
  Ready q m i a os ∧ (i = true → a.statsWritten = true)

theorem StatsOk.statsRow (h : StatsOk q m a os) (hinit : a.statsInitialized = true)
    (hnot : a.statsWritten = false) : RowOk q (VehicleApp.statsRow par a) :=
  ⟨h.equipped hinit hnot, rfl, sub_nonneg.2 (h.depart hinit), h.routes⟩

theorem writeStatsRow_spec :
    Triple (Ready q m i) (writeStatsRow par) (fun _ => Closed q m i) E := by
  refine Triple.get_bind fun t => Triple.ite (fun hinit => Triple.pure ?_)
    fun hinit => Triple.ite (fun hwritten => Triple.pure ?_) fun hwritten => ?_
  · rintro _ os ⟨rfl, h, rfl⟩
    exact ⟨⟨h, rfl⟩, fun hi => by simp [hi] at hinit⟩
  · rintro _ os ⟨rfl, h⟩
    exact ⟨h, fun _ => hwritten⟩
  · simp only [Bool.not_eq_true, Bool.not_eq_false'] at hinit hwritten
    rintro s os ⟨rfl, h, hi⟩
    have hrow : RowOk q (VehicleApp.statsRow par s) := h.statsRow hinit hwritten
    have hcount := h.count
    simp only [hwritten, Bool.false_eq_true, ↓reduceIte, List.length_eq_zero_iff] at hcount
    refine ⟨⟨⟨?_, ?_, ?_, h.depart, h.routes, h.present⟩, hi⟩, fun _ => rfl⟩
    · simp [bind_apply, hcount]
    · simpa [bind_apply, hcount] using hrow
    · simp [bind_apply]

theorem Closed.congr (h : Closed q m i a os) (hkey : statsKey a' = statsKey a)
    (hrows : rows os' = rows os) : Closed q m i a' os' := by
  refine ⟨⟨h.1.1.congr hkey hrows, ?_⟩, ?_⟩ <;> simp only [statsKey, Prod.mk.injEq] at hkey
  · rw [hkey.2.1]; exact h.1.2
  · rw [hkey.2.2.1]; exact h.2

theorem shutdownLteStack_spec :
    Triple (Closed q m i) (shutdownLteStack par) (fun _ => Closed q m i) E := by
  refine Triple.get_bind fun t => Triple.ite (fun _ => Triple.pure fun s os h => h.2) fun _ => ?_
  refine Triple.bind (Triple.modify (Q := fun _ => Closed q m i)
    fun s os h => h.2.congr rfl rfl) fun _ => ?_
  cases par.mac with
  | none => exact Triple.pure fun s os h => h
  | some nid =>
    refine Triple.bind (Triple.when (fun _ => Triple.emit (Q := fun _ => Closed q m i)
      fun s os h => h.congr rfl (by simp)) fun s os h => h) fun _ => ?_
    refine Triple.bind (Triple.emit (Q := fun _ => Closed q m i)
      fun s os h => h.congr rfl (by simp)) fun _ => ?_
    exact Triple.when (fun _ => Triple.modify fun s os h => h.congr rfl rfl) fun s os h => h

theorem reportGone_spec :
    Triple (Ready q false i) (reportGone par) (fun _ => Closed q false i) E := by
  refine Triple.bind writeStatsRow_spec fun _ => Triple.bind shutdownLteStack_spec fun _ =>
    Triple.modify ?_
  -- the row is out by now, so the equipment may be forgotten
  rintro s os ⟨⟨h, rfl⟩, hclosed⟩
  exact ⟨⟨⟨h.count, h.row, fun hi hw => by simp [hclosed hi] at hw, h.depart, h.routes,
    fun hm => by cases hm⟩, rfl⟩, hclosed⟩

theorem finish_spec : Triple (Ready q m i) (finish par) (fun _ => Closed q m i) E :=
  Triple.bind writeStatsRow_spec fun _ => Triple.modify fun _ _ h => h.congr rfl rfl

/-! ### Reports do not touch the row -/

theorem StatsOk.traci (h : StatsOk q m a os) (c : TraciCall) : StatsOk q m a (os ++ [.traci c]) :=
  h.congr rfl (by simp)

theorem keeps_traci {α : Type} {c : TraciCall} {reply : Option α} :
    Keeps (StatsOk q m) (traci c reply) :=
  Triple.call (fun _ _ _ _ h => h.traci c) fun _ _ _ h => h.traci c

theorem keeps_tryInitStats {r : ReportReplies} : Keeps (StatsOk q true) (tryInitStats r) := by
  refine Triple.get_bind fun t => Triple.ite (fun _ => Triple.pure fun s os h => h.2)
    fun hinit => ?_
  -- the departure is only set if it was not set before
  have hnew : ∀ c, Triple (fun s os => s = t ∧ StatsOk q true s os)
      (VehicleApp.traci c r.initRoadId) (fun _ s os => s = t ∧ StatsOk q true s os)
      (StatsOk q true) := fun c =>
    Triple.call (fun _ _ _ _ h => ⟨h.1, h.2.traci c⟩) fun _ _ _ h => h.2.traci c
  refine Triple.orElse (Triple.bind (hnew _) fun edgeId => Triple.ite
    (fun _ => Triple.pure fun s os h => h.2) fun _ => Triple.modify ?_)
    (Triple.pure fun s os h => h)
  rintro s os ⟨rfl, h⟩
  exact ⟨h.count, h.row, fun _ _ => h.present rfl, fun _ => le_refl _, h.routes, h.present⟩

theorem keeps_updateLastEdge {r : ReportReplies} : Keeps (StatsOk q true) (updateLastEdge r) := by
  refine Triple.get_bind fun t => Triple.pre (P := StatsOk q true) (fun s os h => h.2) ?_
  refine Triple.when (fun _ => ?_) fun s os h => h
  refine Triple.orElse (Triple.bind keeps_traci fun edgeId => ?_) (Triple.pure fun s os h => h)
  exact Triple.when (fun _ => Triple.modify fun s os h => h.congr rfl rfl) fun s os h => h

theorem keeps_updateLane {r : ReportReplies} : Keeps (StatsOk q true) (updateLane r) :=
  Triple.orElse (Triple.bind keeps_traci fun _ => Triple.modify fun _ _ h => h.congr rfl rfl)
    (Triple.pure fun _ _ h => h)

theorem keeps_reportFrom {edgeId : Text} {speed : ℚ} {r : ReportReplies} :
    Keeps (StatsOk q true) (reportFrom edgeId speed r) := by
  refine Triple.bind keeps_updateLane fun _ => Triple.get_bind fun t =>
    Triple.pre (P := StatsOk q true) (fun s os h => h.2) ?_
  cases t.edgeIndex.edgeToIndex edgeId with
  | none => exact Triple.pure fun s os h => h
  | some edgeIdx =>
    refine Triple.bind keeps_traci fun planned => Triple.ite
      (fun _ => Triple.pure fun s os h => h) fun _ => ?_
    refine Triple.bind (Q := fun _ => StatsOk q true) (Triple.modify fun s os h => h.congr rfl rfl)
      fun _ => ?_
    refine Triple.bind (Triple.orElse keeps_traci (Triple.pure fun s os h => h)) fun realTT => ?_
    exact Triple.emit fun s os h => h.congr rfl (by simp)

theorem keeps_reportPresent {r : ReportReplies} : Keeps (StatsOk q true) (reportPresent r) := by
  refine Triple.bind keeps_tryInitStats fun _ => Triple.bind keeps_updateLastEdge fun _ =>
    Triple.get_bind fun t => Triple.pre (P := StatsOk q true) (fun s os h => h.2) ?_
  refine Triple.ite (fun _ => Triple.pure fun s os h => h) fun _ => ?_
  refine Triple.bind keeps_traci fun edgeId => Triple.bind keeps_traci fun speed => ?_
  exact Triple.ite (fun _ => Triple.pure fun s os h => h) fun _ => keeps_reportFrom

/-! ### Routes are counted when they arrive -/

/-- A route has been counted as received and may still be counted as applied. -/
def Pending (q m : Bool) (a : VehicleApp) (os : List Effect) : Prop :=
  StatsOk q m a os ∧ a.routesApplied + a.routesFallback + 1 ≤ a.routesReceived

theorem Pending.traci (h : Pending q m a os) (c : TraciCall) : Pending q m a (os ++ [.traci c]) :=
  ⟨h.1.congr rfl (by simp), h.2⟩

theorem pending_traci {α : Type} {c : TraciCall} {reply : Option α} :
    Keeps (Pending q m) (traci c reply) :=
  Triple.call (fun _ _ _ _ h => h.traci c) fun _ _ _ h => h.traci c

theorem fallback_spec {targetEdge : Text} {r : RouteReplies} :
    Triple (Pending q m) (fallback targetEdge r) (fun _ => StatsOk q m) (StatsOk q m) := by
  refine Triple.orElse (F := Pending q m) (Triple.bind pending_traci fun _ => Triple.modify ?_)
    (Triple.pure fun s os h => h.1)
  rintro s os ⟨h, hroom⟩
  exact ⟨h.count, h.row, h.equipped, h.depart, by simp only; linarith, h.present⟩

theorem applyRoute_spec {edgeList : List Text} {r : RouteReplies} :
    Triple (Pending q m) (applyRoute edgeList r) (fun _ => StatsOk q m) (StatsOk q m) := by
  have hcall : ∀ {α : Type} (c : TraciCall) (reply : Option α),
      Triple (Pending q m) (VehicleApp.traci c reply) (fun _ => Pending q m) (StatsOk q m) :=
    fun c _ => Triple.call (fun _ _ _ _ h => h.traci c) fun _ _ _ h => (h.traci c).1
  refine Triple.bind (hcall _ _) fun currentEdge => Triple.ite (fun _ => ?_) fun _ => ?_
  · cases edgeList.getLast? with
    | none => exact Triple.pure fun s os h => h.1
    | some targetEdge => exact fallback_spec
  · refine Triple.bind (hcall _ _) fun ok => Triple.ite (fun _ => Triple.modify ?_) fun _ => ?_
    · rintro s os ⟨h, hroom⟩
      exact ⟨h.count, h.row, h.equipped, h.depart, by simp only; linarith, h.present⟩
    · cases (edgeList.dropWhile fun x => decide (x ≠ currentEdge)).getLast? with
      | none => exact Triple.pure fun s os h => h.1
      | some targetEdge => exact fallback_spec

theorem keeps_socketDataArrived {msg : ServerRouteMsg} {r : RouteReplies} :
    Keeps (StatsOk q m) (socketDataArrived msg r) := by
  refine Triple.get_bind fun t => Triple.pre (P := StatsOk q m) (fun s os h => h.2) ?_
  refine Triple.ite (fun _ => Triple.pure fun s os h => h) fun _ => Triple.ite
    (fun _ => Triple.pure fun s os h => h) fun _ => ?_
  refine Triple.bind (Q := fun _ => Pending q m) (Triple.modify fun s os h => ?_) fun _ => ?_
  · have hroutes := h.routes
    exact ⟨⟨h.count, h.row, h.equipped, h.depart, by simp only; linarith, h.present⟩,
      by simp only; linarith⟩
  · cases VehicleApp.edgeList t.edgeIndex msg with
    | none => exact Triple.pure fun s os h => h.1
    | some edgeList => exact applyRoute_spec

/-! ### Whole runs -/

variable {v v' v₀ : Vehicle} {t : ℚ} {e : VehicleEvent} {es : List (ℚ × VehicleEvent)}
  {o : List Effect}

/-- What a step of the vehicle is. -/
theorem vehicle_step (h : (vehicle par).step v (t, e) = some (v', o)) :
    v.phase = .running ∧ v.app.simTime ≤ t ∧ v.enabled e = true ∧
      (v.advance t).handle par e = (v', o) := by
  simp only [vehicle] at h
  split_ifs at h with hc
  exact ⟨hc.1, hc.2.1, hc.2.2, Option.some.inj h⟩

theorem reportTimer_present {r : ReportReplies} :
    Keeps (StatsOk q true) (handleReportTimer par true r) := by
  refine Triple.bind (Q := fun _ => StatsOk q true)
    (Triple.modify fun s os h => h.congr rfl rfl) fun _ =>
    Triple.bind keeps_reportPresent fun _ => Triple.get_bind fun t => ?_
  exact Triple.when (fun _ => Triple.modify fun s os h => h.2.congr rfl rfl) fun s os h => h.2

theorem reportTimer_gone {r : ReportReplies} :
    Triple (Ready q false i) (handleReportTimer par false r) (fun _ => Closed q false i) E := by
  refine Triple.bind (Q := fun _ => Ready q false i)
    (Triple.modify fun s os h => ⟨h.1.congr rfl rfl, h.2⟩) fun _ =>
    Triple.bind reportGone_spec fun _ => Triple.get_bind fun t => ?_
  exact Triple.when (fun _ => Triple.modify fun s os h => h.2.congr rfl rfl) fun s os h => h.2

theorem deleteSelf_spec : Triple (Ready q m i) (handleDeleteSelf par) (fun _ => Closed q m i) E :=
  Triple.bind (Q := fun _ => Ready q m i)
    (Triple.modify fun _ _ h => ⟨h.1.congr rfl rfl, h.2⟩) fun _ => finish_spec

/-- The event makes the application write its row: a report that finds the vehicle gone, and
the two ways to `finish`. -/
def Vehicle.closing (v : Vehicle) : VehicleEvent → Bool
  | .reportTimer _ => !v.managed
  | .deleteSelf | .finish => true
  | _ => false

theorem closing_spec (par : VehiclePar) (hc : v.closing e = true) :
    Triple (Ready q v.managed i) (Vehicle.handler par v.managed e)
      (fun _ => Closed q v.managed i) E := by
  cases e with
  | reportTimer r =>
    have hm : v.managed = false := by simpa [Vehicle.closing] using hc
    rw [hm]
    exact reportTimer_gone
  | deleteSelf => exact deleteSelf_spec
  | finish => exact finish_spec
  | hostRemoved => cases hc
  | routeArrived msg r => cases hc

theorem keeps_handler (par : VehiclePar) :
    Keeps (StatsOk q v.managed) (Vehicle.handler par v.managed e) := by
  cases hc : v.closing e with
  | true =>
    intro a os h
    have hclosed : Closed q v.managed a.statsInitialized _ _ :=
      Triple.apply (closing_spec par hc) (⟨h, rfl⟩ : Ready q v.managed _ a os)
    split <;> exact hclosed.1.1
  | false =>
    cases e with
    | reportTimer r =>
      have hm : v.managed = true := by simpa [Vehicle.closing] using hc
      rw [hm]
      exact reportTimer_present
    | hostRemoved => exact Triple.pure fun s os h => h
    | routeArrived msg r => exact keeps_socketDataArrived
    | deleteSelf => cases hc
    | finish => cases hc

theorem StatsOk.advance (h : StatsOk q v.managed v.app os) (ht : v.app.simTime ≤ t) :
    StatsOk q (v.advance t).managed (v.advance t).app os :=
  ⟨h.count, h.row, h.equipped, fun hi => (h.depart hi).trans ht, h.routes, h.present⟩

theorem StatsOk.step (h : StatsOk q v.managed v.app os)
    (hst : (vehicle par).step v (t, e) = some (v', o)) :
    StatsOk q v'.managed v'.app (os ++ o) := by
  obtain ⟨-, ht, -, hhandle⟩ := vehicle_step hst
  have hnext := Triple.apply (keeps_handler par (v := v.advance t) (e := e))
    (h.advance ht)
  simp only [Vehicle.handle, Prod.mk.injEq] at hhandle
  obtain ⟨rfl, rfl⟩ := hhandle
  -- the manager can only lose the vehicle
  refine ⟨hnext.count, hnext.row, hnext.equipped, hnext.depart, hnext.routes, fun hm => ?_⟩
  refine hnext.present ?_
  cases e with
  | hostRemoved => cases hm
  | _ => exact hm

theorem statsOk_init (penetrationRate uniform : ℚ) (index : EdgeIndex) (now : ℚ) :
    StatsOk (Vehicle.init penetrationRate uniform index now).app.isEquipped true
      (Vehicle.init penetrationRate uniform index now).app [] :=
  ⟨rfl, by simp, fun hi => absurd hi Bool.false_ne_true, fun hi => absurd hi Bool.false_ne_true,
    le_refl _, fun _ => rfl⟩

theorem statsOk_exec (v₀ : Vehicle) (h₀ : StatsOk q v₀.managed v₀.app [])
    (h : (vehicle par).exec v₀ es = some (v, os)) : StatsOk q v.managed v.app os :=
  Machine.exec_induction (J := fun _ v os => StatsOk q v.managed v.app os) h₀
    (fun _ _ _ _ _ _ _ ih hst => ih.step hst) h

theorem StatsOk.rows_le (h : StatsOk q m a os) : (rows os).length ≤ 1 := by
  rw [h.count]
  split <;> omega

/-- After a closing event the row is out, if there was a departure before it. -/
theorem StatsOk.written_of_closing (h : StatsOk q v.managed v.app os)
    (hst : (vehicle par).step v (t, e) = some (v', o)) (hc : v.closing e = true)
    (hinit : v.app.statsInitialized = true) : v'.app.statsWritten = true := by
  obtain ⟨-, ht, -, hhandle⟩ := vehicle_step hst
  have hclosed := Triple.apply
    (closing_spec par (v := v.advance t) (q := q) (i := true) hc) ⟨h.advance ht, hinit⟩
  simp only [Vehicle.handle, Prod.mk.injEq] at hhandle
  obtain ⟨rfl, rfl⟩ := hhandle
  exact hclosed.2 rfl

/-- **One row for each vehicle.**  In every run of the application:

* at most one row is written;
* exactly one is written if the application had a departure to report when it was closed, by a
  report that found the vehicle gone or by `finish`;
* the row has the equipment that `initialize` chose, the time between departure and arrival,
  which is not negative, and at most as many routes applied as received. -/
theorem csv_row_once (par : VehiclePar) (penetrationRate uniform now : ℚ) (index : EdgeIndex)
    (es : List (ℚ × VehicleEvent)) (v : Vehicle) (os : List Effect)
    (h : (vehicle par).exec (Vehicle.init penetrationRate uniform index now) es = some (v, os)) :
    (rows os).length ≤ 1 ∧
    (∀ v₁ e v₂ o,
      (vehicle par).Takes (Vehicle.init penetrationRate uniform index now) es v₁ e v₂ o →
      v₁.closing e.2 = true → v₁.app.statsInitialized = true → (rows os).length = 1) ∧
    ∀ row ∈ rows os,
      row.isEquipped = (Vehicle.init penetrationRate uniform index now).app.isEquipped ∧
      row.duration = row.arrivalTime - row.departTime ∧ 0 ≤ row.duration ∧
      row.routesApplied + row.routesFallback ≤ row.routesReceived := by
  have h₀ := statsOk_init penetrationRate uniform index now
  have hok := statsOk_exec (Vehicle.init _ _ _ _) h₀ h
  refine ⟨hok.rows_le, ?_, fun row hrow => ?_⟩
  · rintro v₁ ⟨t, e⟩ v₂ o ⟨es₁, es₂, os₁, rfl, hex, hst⟩ hc hinit
    have hstep := (statsOk_exec (Vehicle.init _ _ _ _) h₀ hex).step hst
    have hone := hstep.count
    rw [(statsOk_exec (Vehicle.init _ _ _ _) h₀ hex).written_of_closing hst hc hinit] at hone
    -- the outputs of the whole run extend those up to the closing event
    obtain ⟨w, p₁, p₂, hw, hrest, rfl⟩ := Machine.exec_append_eq_some.1 h
    obtain ⟨w₁, r₁, r₂, hw₁, -, rfl⟩ := Machine.exec_cons_eq_some.1 hrest
    rw [hex, Option.some.injEq, Prod.mk.injEq] at hw
    obtain ⟨rfl, rfl⟩ := hw
    rw [hst, Option.some.injEq, Prod.mk.injEq] at hw₁
    obtain ⟨rfl, rfl⟩ := hw₁
    have hle := hok.rows_le
    simp only [rows_append, List.length_append, ↓reduceIte] at hone hle ⊢
    omega
  · have hr := hok.row row hrow
    exact ⟨hr.isEquipped, hr.duration, hr.nonneg, hr.routes⟩

/-- What TraCI answers while the vehicle is on the edge `a`. -/
def onEdgeA : ReportReplies where
  initRoadId := some "a".toList
  lastRoadId := some "a".toList
  roadId := some "a".toList
  speed := some 8
  laneId := some "a_0".toList
  plannedRoadIds := some ["a".toList, "b".toList]
  travelTime := some 12

/-- A trip: one report, departure, the report that finds the vehicle gone, deletion. -/
def shortTrip : List (ℚ × VehicleEvent) :=
  [(1, .reportTimer onEdgeA), (4, .hostRemoved), (5, .reportTimer onEdgeA), (5, .deleteSelf)]

/-- The edge numbers of a network with two edges. -/
def indexAB : EdgeIndex := ⟨["a".toList, "b".toList], indexTable ["a".toList, "b".toList]⟩

/-- The short trip leaves one row. -/
theorem csv_row_once_shortTrip : ∃ v os,
    (vehicle ⟨"car[0]".toList, "veh0".toList, some 1025⟩).exec (Vehicle.init 1 0 indexAB 0)
        shortTrip = some (v, os) ∧
      (rows os).map CsvRow.duration = [4] ∧ (rows os).length ≤ 1 := by
  have hrun : (((vehicle ⟨"car[0]".toList, "veh0".toList, some 1025⟩).exec
      (Vehicle.init 1 0 indexAB 0) shortTrip).map fun r => (rows r.2).map CsvRow.duration) =
        some [4] := by decide +kernel
  obtain ⟨⟨v, os⟩, h, hrows⟩ := Option.map_eq_some_iff.1 hrun
  exact ⟨v, os, h, hrows, (csv_row_once _ 1 0 0 indexAB shortTrip v os h).1⟩

/-! ### TraCI calls -/

/-- There is no TraCI call among the outputs. -/
def NoTraci (_ : VehicleApp) (os : List Effect) : Prop := ∀ c, Effect.traci c ∉ os

theorem NoTraci.concat (h : NoTraci a os) {o : Effect} (ho : ∀ c, o ≠ .traci c) :
    NoTraci a (os ++ [o]) := by
  intro c hc
  rcases List.mem_append.1 hc with hc | hc
  · exact h c hc
  · exact ho c (List.mem_singleton.1 hc).symm

theorem noTraci_writeStatsRow : Triple NoTraci (writeStatsRow par) (fun _ => NoTraci) E := by
  refine Triple.get_bind fun t => Triple.pre (P := NoTraci) (fun s os h => h.2) ?_
  refine Triple.ite (fun _ => Triple.pure fun s os h => h) fun _ => Triple.ite
    (fun _ => Triple.pure fun s os h => h) fun _ => ?_
  exact Triple.bind (Q := fun _ => NoTraci) (Triple.modify fun s os h => h) fun _ =>
    Triple.emit fun s os h => NoTraci.concat (a := s) h (by simp)

theorem noTraci_shutdownLteStack :
    Triple NoTraci (shutdownLteStack par) (fun _ => NoTraci) E := by
  refine Triple.get_bind fun t => Triple.pre (P := NoTraci) (fun s os h => h.2) ?_
  refine Triple.ite (fun _ => Triple.pure fun s os h => h) fun _ => ?_
  refine Triple.bind (Q := fun _ => NoTraci) (Triple.modify fun s os h => h) fun _ => ?_
  cases par.mac with
  | none => exact Triple.pure fun s os h => h
  | some nid =>
    refine Triple.bind (Q := fun _ => NoTraci) (Triple.when (fun _ => Triple.emit
      fun s os h => NoTraci.concat (a := s) h (by simp)) fun s os h => h) fun _ => ?_
    refine Triple.bind (Q := fun _ => NoTraci) (Triple.emit
      fun s os h => NoTraci.concat (a := s) h (by simp)) fun _ => ?_
    exact Triple.when (fun _ => Triple.modify fun s os h => h) fun s os h => h

theorem noTraci_finish : Triple NoTraci (finish par) (fun _ => NoTraci) E :=
  Triple.bind noTraci_writeStatsRow fun _ => Triple.modify fun _ _ h => h

theorem noTraci_reportTimer_gone {r : ReportReplies} :
    Triple NoTraci (handleReportTimer par false r) (fun _ => NoTraci) E := by
  refine Triple.bind (Q := fun _ => NoTraci) (Triple.modify fun s os h => h) fun _ => ?_
  refine Triple.bind (Q := fun _ => NoTraci) (Triple.bind noTraci_writeStatsRow fun _ =>
    Triple.bind noTraci_shutdownLteStack fun _ => Triple.modify fun s os h => h) fun _ => ?_
  exact Triple.get_bind fun t => Triple.when (fun _ => Triple.modify fun s os h => h.2)
    fun s os h => h.2

theorem noTraci_deleteSelf : Triple NoTraci (handleDeleteSelf par) (fun _ => NoTraci) E :=
  Triple.bind (Q := fun _ => NoTraci) (Triple.modify fun _ _ h => h) fun _ => noTraci_finish

/-- The vehicle is equipped and the route has a valid length and valid edge numbers. -/
def VehicleApp.usable (a : VehicleApp) (msg : ServerRouteMsg) : Prop :=
  a.isEquipped = true ∧ 0 < msg.routeLength ∧ msg.routeLength ≤ 64 ∧
    (edgeList a.edgeIndex msg).isSome = true

instance (a : VehicleApp) (msg : ServerRouteMsg) : Decidable (a.usable msg) :=
  inferInstanceAs (Decidable (_ ∧ _ ∧ _ ∧ _))

/-- A route makes the application call TraCI exactly if it is usable. -/
theorem traci_socketDataArrived {msg : ServerRouteMsg} {r : RouteReplies} :
    (∃ c, Effect.traci c ∈ (socketDataArrived msg r a).out) ↔ a.usable msg := by
  by_cases hq : a.isEquipped = true
  · by_cases hlen : msg.routeLength ≤ 0 ∨ 64 < msg.routeLength
    · have hnot : ¬ a.usable msg := fun h => by have := h.2.1; have := h.2.2.1; omega
      simp [socketDataArrived, bind_apply, hlen, hnot]
    · cases hedges : VehicleApp.edgeList a.edgeIndex msg with
      | none => simp [socketDataArrived, bind_apply, hq, hlen, hedges, VehicleApp.usable]
      | some edges =>
        rw [socketDataArrived_usable hq (by omega) (by omega) hedges]
        refine iff_of_true ⟨.getRoadId, ?_⟩ ⟨hq, by omega, by omega, by simp [hedges]⟩
        -- the first thing `applyRoute` does is to ask for the current edge
        rw [applyRoute, bind_apply]
        split <;> simp [VehicleApp.traci]
  · simp [socketDataArrived, bind_apply, hq, VehicleApp.usable]

/-- The event is a usable route for a vehicle that has left. -/
def Vehicle.staleRoute (v : Vehicle) : VehicleEvent → Prop
  | .routeArrived msg _ => v.managed = false ∧ v.app.usable msg
  | _ => False

/-- **When a departed vehicle is looked up.**  An event for a vehicle that has left makes the
application call TraCI exactly if it is a usable route. -/
theorem traci_of_step (hst : (vehicle par).step v (t, e) = some (v', o))
    (hm : v.managed = false) : (∃ c, Effect.traci c ∈ o) ↔ v.staleRoute e := by
  obtain ⟨-, -, -, hhandle⟩ := vehicle_step hst
  simp only [Vehicle.handle, Prod.mk.injEq] at hhandle
  obtain ⟨-, rfl⟩ := hhandle
  have hnone : ∀ x : Action Unit, Triple NoTraci x (fun _ => NoTraci) NoTraci →
      ((∃ c, Effect.traci c ∈ (x (v.advance t).app).out) ↔ False) := by
    intro x hx
    have hout := Triple.apply hx (s := (v.advance t).app) (l := []) (fun c => List.not_mem_nil)
    simpa [NoTraci] using hout
  cases e with
  | reportTimer r =>
    rw [show (v.advance t).managed = false from hm]
    exact hnone _ noTraci_reportTimer_gone
  | hostRemoved => exact hnone _ (Triple.pure fun s os h => h)
  | routeArrived msg r =>
    refine traci_socketDataArrived.trans ⟨fun h => ⟨hm, h⟩, fun h => h.2⟩
  | deleteSelf => exact hnone _ noTraci_deleteSelf
  | finish => exact hnone _ noTraci_finish

/-- **TraCI is only called for vehicles that are in SUMO exactly if no stale route arrives.**
In a run of the application no handler calls TraCI after the manager has dropped the vehicle if
and only if no event of the run is a usable route that arrives after the departure and before
the report that notices it (from then on the vehicle does not count as equipped). -/
theorem traci_only_while_managed_iff (par : VehiclePar) (penetrationRate uniform now : ℚ)
    (index : EdgeIndex) (es : List (ℚ × VehicleEvent)) :
    (∀ v e v' o, (vehicle par).Takes (Vehicle.init penetrationRate uniform index now) es v e v' o →
      v.managed = false → ∀ c, Effect.traci c ∉ o) ↔
    ∀ v e v' o, (vehicle par).Takes (Vehicle.init penetrationRate uniform index now) es v e v' o →
      ¬ v.staleRoute e.2 := by
  constructor
  · rintro h v ⟨t, e⟩ v' o htakes hstale
    have hm : v.managed = false := by
      cases e with
      | routeArrived msg r => exact hstale.1
      | _ => exact hstale.elim
    obtain ⟨-, -, -, -, -, hst⟩ := id htakes
    obtain ⟨c, hc⟩ := (traci_of_step hst hm).2 hstale
    exact h v _ v' o htakes hm c hc
  · rintro h v ⟨t, e⟩ v' o htakes hm c hc
    obtain ⟨-, -, -, -, -, hst⟩ := id htakes
    exact h v _ v' o htakes ((traci_of_step hst hm).1 ⟨c, hc⟩)

/-- A route of one edge. -/
def routeToA : ServerRouteMsg := ⟨1, fun i => if i = 0 then 0 else -1⟩

/-- The vehicle leaves and a route arrives before its next report. -/
def lateRoute : List (ℚ × VehicleEvent) :=
  [(1, .hostRemoved), (2, .routeArrived routeToA ⟨none, none, none⟩)]

/-- A route that arrives between departure and report makes the application ask SUMO for the
edge of a vehicle that is gone. -/
theorem traci_for_departed_vehicle : ∃ v e v' o,
    (vehicle ⟨"car[0]".toList, "veh0".toList, some 1025⟩).Takes (Vehicle.init 1 0 indexAB 0)
        lateRoute v e v' o ∧
      v.managed = false ∧ Effect.traci .getRoadId ∈ o := by
  have hrun : ((((vehicle ⟨"car[0]".toList, "veh0".toList, some 1025⟩).exec
      (Vehicle.init 1 0 indexAB 0) [(1, .hostRemoved)]).map fun r => (r.1.managed,
        ((vehicle ⟨"car[0]".toList, "veh0".toList, some 1025⟩).step r.1
          (2, .routeArrived routeToA ⟨none, none, none⟩)).map Prod.snd))) =
      some (false, some [.traci .getRoadId]) := by decide +kernel
  obtain ⟨⟨v, os⟩, h, hv⟩ := Option.map_eq_some_iff.1 hrun
  obtain ⟨hm, hstep⟩ := Prod.mk.inj hv
  obtain ⟨⟨v', o⟩, hst, rfl⟩ := Option.map_eq_some_iff.1 hstep
  exact ⟨v, _, v', _, ⟨[(1, .hostRemoved)], [], os, rfl, h, hst⟩, hm, by simp⟩

end V2nLte
