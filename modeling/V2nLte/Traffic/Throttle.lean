import V2nLte.Traffic.Server
import Mathlib.Tactic.Linarith

/-!
# Throttling of the routes

The server limits the routes it sends in three ways: a counter shared by all vehicles, a minimum
time between two routes for one vehicle, and no routes for trips that are over or short.  The
counter and the two maps involved are updated on some branches of `socketDataArrived` only;
`routes_throttled` says that the limits hold over every run all the same.

* the counter equals the number of routes sent since the last reset (`count_of_exec`);
* `lastRouteSent` is never older than the last route of the vehicle (`Throttled`).
-/

namespace V2nLte

open TrafficServer

variable {par : ServerPar} {net : RoadNet} {s s' : TrafficServer} {e : ServerEvent}
  {es : List ServerEvent} {o os : List RouteSent}

/-- The event resets the reroute counter. -/
def ServerEvent.isReset : ServerEvent → Bool
  | .rerouteCounterReset _ => true
  | _ => false

/-! ### The shared counter -/

/-- The counter stays between zero and its limit. -/
def CountOk (s : TrafficServer) : Prop :=
  0 ≤ s.rerouteCountThisSecond ∧ s.rerouteCountThisSecond ≤ MAX_REROUTES_PER_SEC

theorem countOk_of_zero (h : s.rerouteCountThisSecond = 0) : CountOk s := by
  unfold CountOk
  rw [h]
  decide

theorem CountOk.step (h : CountOk s) (hst : (server par).step s e = some (s', o)) :
    CountOk s' := by
  obtain ⟨h0, hmax⟩ := h
  cases (serverStep_of_step hst).2 with
  | drop => exact ⟨h0, hmax⟩
  | record hs₁ => rw [hs₁]; exact ⟨h0, hmax⟩
  | spare hs₁ => rw [hs₁]; exact ⟨h0, hmax⟩
  | send hs₁ _ _ hsend =>
    have hlt := hsend.count
    subst hs₁
    exact ⟨Int.le_add_one h0, hlt⟩
  | decay => exact ⟨h0, hmax⟩
  | reset => exact countOk_of_zero rfl

theorem countOk_exec (h : (server par).exec (TrafficServer.init net) es = some (s, os)) :
    CountOk s :=
  Machine.exec_invariant (I := CountOk) (countOk_of_zero rfl)
    (fun _ _ _ _ hI hst => hI.step hst) h

/-- Between resets the counter counts the routes sent. -/
theorem count_of_step (he : e.isReset = false) (hst : (server par).step s e = some (s', o)) :
    s'.rerouteCountThisSecond = s.rerouteCountThisSecond + o.length := by
  cases (serverStep_of_step hst).2 with
  | drop => exact (Int.add_zero _).symm
  | record hs₁ => rw [hs₁]; exact (Int.add_zero _).symm
  | spare hs₁ => rw [hs₁]; exact (Int.add_zero _).symm
  | send hs₁ => rw [hs₁]; rfl
  | decay => exact (Int.add_zero _).symm
  | reset => cases he

theorem count_of_exec (hes : ∀ e ∈ es, ServerEvent.isReset e = false)
    (h : (server par).exec s es = some (s', os)) :
    s'.rerouteCountThisSecond = s.rerouteCountThisSecond + os.length := by
  refine Machine.exec_induction
    (J := fun es s' os => (∀ e ∈ es, ServerEvent.isReset e = false) →
      s'.rerouteCountThisSecond = s.rerouteCountThisSecond + os.length)
    (fun _ => (Int.add_zero _).symm) (fun es s₁ os e s₂ o _ ih hst hall => ?_) h hes
  have hold := ih fun e' he' => hall e' (by simp [he'])
  have hnew := count_of_step (hall e (by simp)) hst
  rw [hnew, hold, List.length_append]
  push_cast
  ring

/-! ### The time between two routes of one vehicle -/

/-- What the server remembers about the routes `os` it has sent. -/
structure Throttled (par : ServerPar) (s : TrafficServer) (os : List RouteSent) : Prop where
  served_le : ∀ key last, s.lastRouteSent key = some last → last ≤ s.simTime
  /-- Every vehicle with a route is remembered, with a time not before that route. -/
  sent_le : ∀ r ∈ os, ∃ last, s.lastRouteSent r.address = some last ∧ r.time ≤ last
  apart : os.Pairwise fun a b => a.address = b.address → a.time + par.rerouteInterval ≤ b.time

theorem Throttled.congr (h : Throttled par s os) (hsent : s'.lastRouteSent = s.lastRouteSent)
    (htime : s.simTime ≤ s'.simTime) : Throttled par s' os :=
  ⟨fun key last hk => (h.served_le key last (hsent ▸ hk)).trans htime,
    fun r hr => by rw [hsent]; exact h.sent_le r hr, h.apart⟩

/-- Serving a vehicle at the current time. -/
theorem Throttled.markServed (h : Throttled par s os) (key : Text) (edgeIdx : ℤ) :
    Throttled par (s.markServed key edgeIdx) os := by
  refine ⟨fun key' last hk => ?_, fun r hr => ?_, h.apart⟩
  · by_cases hkey : key' = key
    · subst hkey
      simp only [TrafficServer.markServed, Function.update_self, Option.some.injEq] at hk
      exact hk.ge
    · simp only [TrafficServer.markServed, Function.update_of_ne hkey] at hk
      exact h.served_le key' last hk
  · obtain ⟨last, hlast, hle⟩ := h.sent_le r hr
    by_cases hkey : r.address = key
    · subst hkey
      exact ⟨s.simTime, by simp [TrafficServer.markServed], hle.trans (h.served_le _ _ hlast)⟩
    · exact ⟨last, by simpa [TrafficServer.markServed, Function.update_of_ne hkey] using hlast, hle⟩

/-- A route that is due is far enough from the earlier ones. -/
theorem Throttled.send (h : Throttled par s os) {key : Text} {edgeIdx : ℤ}
    (hdue : s.routeDue par key edgeIdx = true) {r : RouteSent} (haddr : r.address = key)
    (htime : r.time = s.simTime) : Throttled par (s.markServed key edgeIdx) (os ++ [r]) := by
  have hm := h.markServed key edgeIdx
  refine ⟨hm.served_le, fun q hq => ?_, ?_⟩
  · rcases List.mem_append.1 hq with hq | hq
    · exact hm.sent_le q hq
    · rw [List.mem_singleton.1 hq]
      exact ⟨s.simTime, by simp [TrafficServer.markServed, haddr], htime.le⟩
  · rw [List.pairwise_append]
    refine ⟨h.apart, List.pairwise_singleton _ _, fun a ha b hb hab => ?_⟩
    rw [List.mem_singleton.1 hb] at hab ⊢
    obtain ⟨last, hlast, hle⟩ := h.sent_le a ha
    have hwait := routeDue_iff.1 hdue last (by rw [← haddr, ← hab]; exact hlast)
    rw [htime]
    linarith

theorem Throttled.step (h : Throttled par s os) (hst : (server par).step s e = some (s', o)) :
    Throttled par s' (os ++ o) := by
  obtain ⟨htime, hstep⟩ := serverStep_of_step hst
  have hclock : Throttled par (s.advance e.time) os := h.congr rfl htime
  cases hstep with
  | drop => rw [List.append_nil]; exact hclock
  | record hs₁ => rw [List.append_nil, hs₁]; exact hclock.congr rfl (le_refl _)
  | @spare _ addr _ msg s₁ hs₁ =>
    rw [List.append_nil]
    have hrec : Throttled par s₁ os := by rw [hs₁]; exact hclock.congr rfl (le_refl _)
    exact hrec.markServed addr msg.edgeIndex
  | @send t addr port msg s₁ hs₁ hr _ hsend =>
    have hrec : Throttled par s₁ os := by rw [hs₁]; exact hclock.congr rfl (le_refl _)
    have hdue := hsend.due
    rw [Int.toNat_of_nonneg hr.1] at hdue
    exact (hrec.send hdue rfl (by rw [hs₁]; rfl)).congr rfl (le_refl _)
  | decay => rw [List.append_nil]; exact hclock.congr rfl (le_refl _)
  | reset => rw [List.append_nil]; exact hclock.congr rfl (le_refl _)

theorem throttled_exec (h : (server par).exec (TrafficServer.init net) es = some (s, os)) :
    Throttled par s os := by
  have h₀ : Throttled par (TrafficServer.init net) [] :=
    ⟨fun _ _ hk => by simp [TrafficServer.init] at hk, by simp, List.Pairwise.nil⟩
  exact Machine.exec_induction (J := fun _ s os => Throttled par s os) h₀
    (fun _ _ _ _ _ _ _ ih hst => ih.step hst) h

/-! ### Which reports are answered -/

/-- A route is the answer to a report of a trip that is neither over nor short. -/
theorem answer_of_step (hst : (server par).step s e = some (s', o)) {r : RouteSent}
    (hr : r ∈ o) : ∃ t addr port msg s₁, e = .report t addr port msg ∧ r.time = t ∧
      r.address = addr ∧ msg.edgeIndex ≠ msg.destEdgeIndex ∧
      s₁ = (s.advance t).recordReport msg.edgeIndex.toNat addr port msg ∧
      par.minRouteDistance ≤ s₁.routeDistance (s₁.dijkstra par msg.edgeIndex.toNat
        msg.destEdgeIndex.toNat (hashVehicleKey addr)) := by
  cases (serverStep_of_step hst).2 with
  | @send t addr port msg s₁ hs₁ _ hne hsend =>
    rw [List.mem_singleton.1 hr]
    exact ⟨t, addr, port, msg, s₁, rfl, rfl, rfl, hne, hs₁, hsend.distance⟩
  | _ => cases hr

/-- **Routes are throttled over whole runs.**  In every run of the server:

* between two resets of the counter at most `MAX_REROUTES_PER_SEC` routes are sent;
* two routes for one address are at least `rerouteInterval` apart;
* a route is sent to the vehicle that has just reported, and only if the edges it reported
  differ and the route that was computed is at least `minRouteDistance` long. -/
theorem routes_throttled (par : ServerPar) (net : RoadNet) (es : List ServerEvent)
    (s : TrafficServer) (os : List RouteSent)
    (h : (server par).exec (TrafficServer.init net) es = some (s, os)) :
    (∀ es₁ es₂ es₃, es = es₁ ++ es₂ ++ es₃ → (∀ e ∈ es₂, ServerEvent.isReset e = false) →
      ∀ s₁ o₁ s₂ o₂, (server par).exec (TrafficServer.init net) es₁ = some (s₁, o₁) →
        (server par).exec s₁ es₂ = some (s₂, o₂) → (o₂.length : ℤ) ≤ MAX_REROUTES_PER_SEC) ∧
    (os.Pairwise fun a b => a.address = b.address → a.time + par.rerouteInterval ≤ b.time) ∧
    (∀ s₁ e s₂ o, (server par).Takes (TrafficServer.init net) es s₁ e s₂ o → ∀ r ∈ o,
      ∃ t addr port msg s', e = .report t addr port msg ∧ r.time = t ∧ r.address = addr ∧
        msg.edgeIndex ≠ msg.destEdgeIndex ∧
        s' = (s₁.advance t).recordReport msg.edgeIndex.toNat addr port msg ∧
        par.minRouteDistance ≤ s'.routeDistance (s'.dijkstra par msg.edgeIndex.toNat
          msg.destEdgeIndex.toNat (hashVehicleKey addr))) := by
  refine ⟨fun es₁ es₂ es₃ _ hes₂ s₁ o₁ s₂ o₂ h₁ h₂ => ?_, (throttled_exec h).apart, ?_⟩
  · have hcount := count_of_exec hes₂ h₂
    have hlow := (countOk_exec h₁).1
    have hexec : (server par).exec (TrafficServer.init net) (es₁ ++ es₂) = some (s₂, o₁ ++ o₂) :=
      Machine.exec_append_eq_some.2 ⟨s₁, o₁, o₂, h₁, h₂, rfl⟩
    have hhigh := (countOk_exec hexec).2
    omega
  · rintro s₁ e s₂ o ⟨-, -, -, -, -, hst⟩ r hr
    exact answer_of_step hst hr

/-- Two edges of 100 metres, the second after the first. -/
def twoEdgeNet : RoadNet where
  edges := [{ id := "a".toList, index := 0, length := 100, speedLimit := 10 },
    { id := "b".toList, index := 1, length := 100, speedLimit := 10 }]
  edgeNameToIdx := indexTable ["a".toList, "b".toList]
  adjacency := [[1], []]
  adjacency_length := rfl
  adjacency_lt := by simp

/-- A vehicle reports three times and gets a route twice. -/
def threeReports : List ServerEvent :=
  [.report 1 "10.0.0.1".toList 4000 ⟨0, 1, 8, 1, -1, 0⟩,
   .report 6 "10.0.0.1".toList 4000 ⟨0, 1, 8, 6, -1, 0⟩,
   .rerouteCounterReset 10,
   .report 31 "10.0.0.1".toList 4000 ⟨0, 1, 8, 31, -1, 0⟩]

/-- Two routes are sent to a vehicle that reports three times, one interval apart. -/
theorem routes_throttled_threeReports : ∃ s os,
    (server ⟨1, 30, 150, fun _ => 1⟩).exec (TrafficServer.init twoEdgeNet) threeReports =
        some (s, os) ∧ os.map RouteSent.time = [1, 31] ∧
      os.Pairwise fun a b => a.address = b.address → a.time + 30 ≤ b.time := by
  have hrun : (((server ⟨1, 30, 150, fun _ => 1⟩).exec (TrafficServer.init twoEdgeNet)
      threeReports).map fun r => r.2.map RouteSent.time) = some [1, 31] := by decide +kernel
  obtain ⟨⟨s, os⟩, h, hos⟩ := Option.map_eq_some_iff.1 hrun
  exact ⟨s, os, h, hos, (routes_throttled _ _ _ s os h).2.1⟩

end V2nLte
