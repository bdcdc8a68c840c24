import V2nLte.Traffic.Departure

/-!
# The life of the application

What a report, a route and the deletion do to the timers and the flags of the application, from
its first report to the deletion of its module.  Between two events it is at rest (`Rest`): it waits
for its next report, or, once its stack is shut down and if there is a MAC, for its deletion.

* `handleReportTimer_present` : a report of a vehicle that is still there leaves the life as it is.
* `handleReportTimer_gone` : a report of a vehicle that is gone shuts the stack down.
* `handleDeleteSelf_spec` : the deletion writes the row if it is still to be written.
-/

namespace V2nLte

open Handler

namespace VehicleApp

variable {par : VehiclePar} {a a' : VehicleApp} {os : List Effect} {α : Type}
  {E : VehicleApp → List Effect → Prop}

/-- What the life of a module depends on. -/
def life (a : VehicleApp) : Bool × Bool × Bool × Bool :=
  (a.isEquipped, a.lteShutdown, a.deleteScheduled, a.deleteSelfMsg)

/-- The application is at the point `l` of its life, and its report timer is as `b` says. -/
def AtPoint (l : Bool × Bool × Bool × Bool) (b : Bool) (a : VehicleApp) (_ : List Effect) : Prop :=
  a.life = l ∧ a.reportTimer = b

variable {l : Bool × Bool × Bool × Bool} {b : Bool}

theorem steady_modify {f : VehicleApp → VehicleApp}
    (h : ∀ a, (f a).life = a.life ∧ (f a).reportTimer = a.reportTimer) :
    Keeps (AtPoint l b) (Handler.modify f) := by
  refine Triple.modify fun a os hp => ?_
  exact ⟨(h a).1.trans hp.1, (h a).2.trans hp.2⟩

theorem steady_traci {c : TraciCall} {reply : Option α} : Keeps (AtPoint l b) (traci c reply) :=
  Triple.call (fun _ _ _ _ h => h) fun _ _ _ h => h

theorem steady_pure (x : α) : Keeps (AtPoint l b) (Pure.pure x) := Triple.pure fun _ _ h => h

theorem steady_get {f : VehicleApp → Action α} (h : ∀ t, Keeps (AtPoint l b) (f t)) :
    Keeps (AtPoint l b) (get >>= f) :=
  Triple.get_bind fun t => Triple.pre (fun _ _ hp => hp.2) (h t)

theorem steady_tryInitStats (r : ReportReplies) : Keeps (AtPoint l b) (tryInitStats r) := by
  refine steady_get fun t => Triple.ite (fun _ => steady_pure ()) fun _ => ?_
  refine Triple.orElse (F := AtPoint l b) (Triple.bind steady_traci fun edgeId => ?_)
    (steady_pure ())
  exact Triple.ite (fun _ => steady_pure ()) fun _ => steady_modify fun _ => ⟨rfl, rfl⟩

theorem steady_updateLastEdge (r : ReportReplies) : Keeps (AtPoint l b) (updateLastEdge r) := by
  refine steady_get fun t => Triple.when (fun _ => ?_) fun _ _ h => h
  refine Triple.orElse (F := AtPoint l b) (Triple.bind steady_traci fun edgeId => ?_)
    (steady_pure ())
  exact Triple.when (fun _ => steady_modify fun _ => ⟨rfl, rfl⟩) fun _ _ h => h

theorem steady_reportFrom (edgeId : Text) (speed : ℚ) (r : ReportReplies) :
    Keeps (AtPoint l b) (reportFrom edgeId speed r) := by
  refine Triple.bind (Q := fun _ => AtPoint l b) ?_ fun _ => steady_get fun t => ?_
  · exact Triple.orElse (F := AtPoint l b)
      (Triple.bind steady_traci fun _ => steady_modify fun _ => ⟨rfl, rfl⟩) (steady_pure ())
  · cases t.edgeIndex.edgeToIndex edgeId with
    | none => exact steady_pure ()
    | some edgeIdx =>
      refine Triple.bind steady_traci fun planned => ?_
      refine Triple.ite (fun _ => steady_pure ()) fun _ => ?_
      refine Triple.bind (Q := fun _ => AtPoint l b) (steady_modify fun _ => ⟨rfl, rfl⟩) fun _ => ?_
      refine Triple.bind (Q := fun _ => AtPoint l b) ?_ fun realTT => Triple.emit fun _ _ h => h
      exact Triple.orElse steady_traci (steady_pure (-1))

theorem steady_reportPresent (r : ReportReplies) : Keeps (AtPoint l b) (reportPresent r) := by
  refine Triple.bind (steady_tryInitStats r) fun _ => ?_
  refine Triple.bind (steady_updateLastEdge r) fun _ => steady_get fun t => ?_
  refine Triple.ite (fun _ => steady_pure ()) fun _ => ?_
  refine Triple.bind steady_traci fun edgeId => Triple.bind steady_traci fun speed => ?_
  exact Triple.ite (fun _ => steady_pure ()) fun _ => steady_reportFrom edgeId speed r

theorem steady_fallback (targetEdge : Text) (r : RouteReplies) :
    Keeps (AtPoint l b) (fallback targetEdge r) :=
  Triple.orElse (F := AtPoint l b)
    (Triple.bind steady_traci fun _ => steady_modify fun _ => ⟨rfl, rfl⟩) (steady_pure ())

theorem steady_applyRoute (edges : List Text) (r : RouteReplies) :
    Keeps (AtPoint l b) (applyRoute edges r) := by
  refine Triple.bind steady_traci fun currentEdge => Triple.ite (fun _ => ?_) fun _ => ?_
  · cases edges.getLast? with
    | none => exact steady_pure ()
    | some targetEdge => exact steady_fallback targetEdge r
  · refine Triple.bind steady_traci fun ok => Triple.ite
      (fun _ => steady_modify fun _ => ⟨rfl, rfl⟩) fun _ => ?_
    cases (edges.dropWhile (· ≠ currentEdge)).getLast? with
    | none => exact steady_pure ()
    | some targetEdge => exact steady_fallback targetEdge r

theorem steady_socketDataArrived (msg : ServerRouteMsg) (r : RouteReplies) :
    Keeps (AtPoint l b) (socketDataArrived msg r) := by
  refine steady_get fun t => Triple.ite (fun _ => steady_pure ()) fun _ =>
    Triple.ite (fun _ => steady_pure ()) fun _ => ?_
  refine Triple.bind (Q := fun _ => AtPoint l b) (steady_modify fun _ => ⟨rfl, rfl⟩) fun _ => ?_
  cases VehicleApp.edgeList t.edgeIndex msg with
  | none => exact steady_pure ()
  | some edges => exact steady_applyRoute edges r

/-- The application between two events: from its shutdown on, if there is a MAC, it waits for its
deletion instead of the next report. -/
structure Rest (mac : Option MacNodeId) (a : VehicleApp) : Prop where
  deleteScheduled : a.deleteScheduled = (a.lteShutdown && mac.isSome)
  deleteSelfMsg : a.deleteSelfMsg = (a.lteShutdown && mac.isSome)
  reportTimer : a.reportTimer = !(a.lteShutdown && mac.isSome)
  isEquipped : a.lteShutdown = true → a.isEquipped = false

theorem Rest.congr {mac : Option MacNodeId} (h : Rest mac a) (hlife : a'.life = a.life)
    (htimer : a'.reportTimer = a.reportTimer) : Rest mac a' := by
  simp only [life, Prod.mk.injEq] at hlife
  obtain ⟨hequipped, hshutdown, hscheduled, hself⟩ := hlife
  exact ⟨by rw [hscheduled, hshutdown, h.deleteScheduled],
    by rw [hself, hshutdown, h.deleteSelfMsg], by rw [htimer, hshutdown, h.reportTimer],
    by rw [hshutdown, hequipped]; exact h.isEquipped⟩

/-- A report of a vehicle that is still there. -/
theorem handleReportTimer_present (par : VehiclePar) (r : ReportReplies) (a : VehicleApp) :
    (handleReportTimer par true r a).state.life = a.life ∧
      ((handleReportTimer par true r a).value.isSome →
        (handleReportTimer par true r a).state.reportTimer = !a.deleteScheduled) := by
  have hspec : Triple (fun s _ => s = a) (handleReportTimer par true r)
      (fun _ s _ => s.life = a.life ∧ s.reportTimer = !a.deleteScheduled)
      (fun s _ => s.life = a.life) := by
    refine Triple.bind (Q := fun _ => AtPoint a.life false) (Triple.modify ?_) fun _ => ?_
    · rintro s os rfl
      exact ⟨rfl, rfl⟩
    refine Triple.bind (Q := fun _ => AtPoint a.life false)
      (Triple.throws (fun _ _ hp => hp.1) (steady_reportPresent r)) fun _ => ?_
    refine Triple.get_bind fun t => ?_
    -- whether the next report is scheduled is decided by a flag that the report has left alone
    rintro s os ⟨rfl, hlife, htimer⟩
    have hscheduled : s.deleteScheduled = a.deleteScheduled := congrArg (·.2.2.1) hlife
    cases hd : a.deleteScheduled with
    | true => simpa [Handler.when, hscheduled, hd] using ⟨hlife, htimer⟩
    | false => simpa [Handler.when, hscheduled, hd, life] using hlife
  have h := hspec a [] rfl
  cases hv : (handleReportTimer par true r a).value with
  | none =>
    rw [hv] at h
    exact ⟨h, by simp⟩
  | some u =>
    rw [hv] at h
    exact ⟨h.1, fun _ => h.2⟩

theorem steady_writeStatsRow :
    Triple (AtPoint l b) (writeStatsRow par) (fun _ => AtPoint l b) E := by
  refine Triple.get_bind fun t => Triple.pre (P := AtPoint l b) (fun _ _ hp => hp.2) ?_
  refine Triple.ite (fun _ => Triple.pure fun _ _ h => h) fun _ =>
    Triple.ite (fun _ => Triple.pure fun _ _ h => h) fun _ => ?_
  exact Triple.bind (Q := fun _ => AtPoint l b) (Triple.modify fun _ _ h => h) fun _ =>
    Triple.emit fun _ _ h => h

/-- The shutdown of the stack, where no deletion has been planned. -/
theorem shutdownLteStack_shuts {e d : Bool} (hd : (d && par.mac.isSome) = false) :
    Triple (AtPoint (e, d, false, false) false) (shutdownLteStack par)
      (fun _ => AtPoint (e, true, par.mac.isSome, par.mac.isSome) false) E := by
  refine Triple.get_bind fun t =>
    Triple.given (R := t.lteShutdown = d ∧ t.deleteScheduled = false) ?_ fun ⟨ht, hscheduled⟩ => ?_
  · rintro _ _ ⟨rfl, hlife, -⟩
    exact ⟨congrArg (·.2.1) hlife, congrArg (·.2.2.1) hlife⟩
  refine Triple.pre (P := AtPoint (e, d, false, false) false) (fun _ _ hp => hp.2) ?_
  cases d with
  | true =>
    -- without a MAC there are reports after the shutdown, and they find it done
    rw [Bool.true_and] at hd
    rw [if_pos ht, hd]
    exact Triple.pure fun _ _ h => h
  | false =>
    rw [if_neg (by simp [ht])]
    refine Triple.bind (Q := fun _ => AtPoint (e, true, false, false) false)
      (Triple.modify fun a _ h => ?_) fun _ => ?_
    · have hlife := h.1
      simp only [life, Prod.mk.injEq] at hlife
      exact ⟨by simp [life, hlife], h.2⟩
    cases par.mac with
    | none => exact Triple.pure fun _ _ h => h
    | some nid =>
      refine Triple.bind (Q := fun _ => AtPoint (e, true, false, false) false)
        (Triple.when (fun _ => Triple.emit fun _ _ h => h) fun _ _ h => h) fun _ => ?_
      refine Triple.bind (Q := fun _ => AtPoint (e, true, false, false) false)
        (Triple.emit fun _ _ h => h) fun _ => ?_
      rw [hscheduled]
      refine Triple.modify fun a _ h => ⟨?_, rfl⟩
      have hlife := h.1
      simp only [life, Prod.mk.injEq] at hlife
      simp [life, hlife]

/-- A report of a vehicle that is gone. -/
theorem handleReportTimer_gone (r : ReportReplies) (h : Rest par.mac a)
    (ht : a.reportTimer = true) :
    (handleReportTimer par false r a).value.isSome ∧
      (handleReportTimer par false r a).state.lteShutdown = true ∧
      Rest par.mac (handleReportTimer par false r a).state := by
  have hnot : (a.lteShutdown && par.mac.isSome) = false := by
    have htimer := h.reportTimer
    rwa [ht, eq_comm, Bool.not_eq_true'] at htimer
  have hlife : a.life = (a.isEquipped, a.lteShutdown, false, false) := by
    rw [life, h.deleteScheduled, h.deleteSelfMsg, hnot]
  -- the row is written, the stack is shut down, and the timer stays off
  have hspec : Triple (fun s _ => s = a) (handleReportTimer par false r)
      (fun _ => AtPoint (false, true, par.mac.isSome, par.mac.isSome) (!par.mac.isSome))
      (fun _ _ => False) := by
    -- what the action does to its life, point by point
    refine Triple.bind (Q := fun _ => AtPoint (a.isEquipped, a.lteShutdown, false, false) false)
      (Triple.modify ?_) fun _ => ?_
    · rintro _ _ rfl
      exact ⟨hlife, rfl⟩
    refine Triple.bind
      (Q := fun _ => AtPoint (false, true, par.mac.isSome, par.mac.isSome) false) ?_ fun _ => ?_
    · refine Triple.bind steady_writeStatsRow fun _ =>
        Triple.bind (shutdownLteStack_shuts hnot) fun _ => Triple.modify fun s _ h => ?_
      have hlife := h.1
      simp only [life, Prod.mk.injEq] at hlife
      exact ⟨by simp [life, hlife], h.2⟩
    · refine Triple.get_bind fun t =>
        Triple.given (R := t.deleteScheduled = par.mac.isSome) ?_ fun hscheduled => ?_
      · rintro _ _ ⟨rfl, hlife, -⟩
        exact congrArg (·.2.2.1) hlife
      refine Triple.pre (fun _ _ hp => hp.2) ?_
      rw [hscheduled]
      cases par.mac.isSome with
      | true => exact Triple.pure fun _ _ h => h
      | false => exact Triple.modify fun _ _ h => ⟨h.1, rfl⟩
  have hend := hspec a [] rfl
  cases hv : (handleReportTimer par false r a).value with
  | none =>
    rw [hv] at hend
    exact hend.elim
  | some u =>
    rw [hv] at hend
    obtain ⟨hafter, htimer⟩ := hend
    simp only [life, Prod.mk.injEq] at hafter
    obtain ⟨hequipped, hshutdown, hscheduled, hself⟩ := hafter
    exact ⟨rfl, hshutdown, ⟨by simp [hscheduled, hshutdown], by simp [hself, hshutdown],
      by simp [htimer, hshutdown], fun _ => hequipped⟩⟩

/-- The row has been written, if there is a departure to report. -/
def RowOut (a : VehicleApp) : Prop := a.statsInitialized = true → a.statsWritten = true

/-- The deletion, which writes the row if it is still to be written. -/
theorem handleDeleteSelf_spec (par : VehiclePar) (a : VehicleApp) :
    (handleDeleteSelf par a).value.isSome ∧
      (handleDeleteSelf par a).state.lteShutdown = a.lteShutdown ∧
      (handleDeleteSelf par a).state.isEquipped = a.isEquipped ∧
      RowOut (handleDeleteSelf par a).state := by
  let J : VehicleApp → List Effect → Prop := fun s _ =>
    s.lteShutdown = a.lteShutdown ∧ s.isEquipped = a.isEquipped
  have hspec : Triple J (handleDeleteSelf par) (fun _ s os => J s os ∧ RowOut s)
      (fun _ _ => False) := by
    refine Triple.bind (Q := fun _ => J) (Triple.modify fun _ _ h => h) fun _ => ?_
    refine Triple.bind (Q := fun _ s os => J s os ∧ RowOut s) ?_
      fun _ => Triple.modify fun _ _ h => h
    refine Triple.get_bind fun t => Triple.ite (fun hinit => Triple.pure ?_) fun _ =>
      Triple.ite (fun hwritten => Triple.pure ?_) fun _ => ?_
    · rintro _ _ ⟨rfl, h⟩
      exact ⟨h, fun hi => by simp [hi] at hinit⟩
    · rintro _ _ ⟨rfl, h⟩
      exact ⟨h, fun _ => hwritten⟩
    · refine Triple.bind (Q := fun _ s os => J s os ∧ RowOut s) (Triple.modify ?_) fun _ => ?_
      · rintro _ _ ⟨rfl, h⟩
        exact ⟨h, fun _ => rfl⟩
      · exact Triple.emit fun _ _ h => h
  have hend := hspec a [] ⟨rfl, rfl⟩
  cases hv : (handleDeleteSelf par a).value with
  | none =>
    rw [hv] at hend
    exact hend.elim
  | some u =>
    rw [hv] at hend
    exact ⟨rfl, hend.1.1, hend.1.2, hend.2⟩

end VehicleApp

end V2nLte
