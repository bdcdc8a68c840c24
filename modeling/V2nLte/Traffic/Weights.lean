import V2nLte.Graph.ShortestPath
import V2nLte.Traffic.Throttle
import Mathlib.Algebra.Order.Field.Rat
import Mathlib.Tactic.Linarith
import Mathlib.Tactic.NormNum
import Mathlib.Tactic.Positivity

/-!
# Edge weights and the cheapest route

The server routes along the walk of the smallest weight (`dijkstra_shortest`).  The weight of an
edge is its travel time, times a penalty for congestion and a noise factor between `0.82` and
`1.18` if the congestion reaches `CONGESTION_THR`.

More vehicles and a lower speed should not make an edge cheaper.  `weight_mono_iff` says when this
is so.  There are two exceptions: an average speed of `0` counts as free flow, so a standstill
hides the congestion that was there before (`StandstillMasks`), and the noise may be stronger than
a weak penalty (`NoiseOutweighs`).
-/

namespace V2nLte

open TrafficServer

/-! ### Weights -/

section Weight

variable (par : ServerPar) (now : ℚ) (ed : EdgeData) (tr tr' : EdgeTraffic) (edgeIdx : ℕ)
  (vehicleSeed : UInt32)

/-- The utilisation by speed. -/
def speedCongestion : ℚ :=
  1 - if 0 < ed.speedLimit ∧ 0 < tr.avgSpeed then min (tr.avgSpeed / ed.speedLimit) 1 else 1

/-- The utilisation by density. -/
def densityRatio : ℚ :=
  min ((if 0 < ed.length then (tr.vehicleCount : ℚ) / ed.length else 0) / DENSITY_REF) 1

/-- The factor on the travel time of a congested edge. -/
def penalty : ℚ := (1 + congestion par now ed tr * par.K) * noise edgeIdx vehicleSeed

theorem congestion_eq : congestion par now ed tr =
    max (speedCongestion ed tr) (densityRatio ed tr) * par.exp (-0.1 * (now - tr.lastUpdate)) := rfl

theorem edgeWeight_eq : edgeWeight par now ed tr edgeIdx vehicleSeed =
    if congestion par now ed tr < CONGESTION_THR then baseTT ed tr
    else baseTT ed tr * penalty par now ed tr edgeIdx vehicleSeed := by
  rw [penalty, ← mul_assoc]
  rfl

theorem noise_pos : 0 < noise edgeIdx vehicleSeed := by
  unfold noise NOISE_AMPLITUDE
  dsimp only
  generalize UInt32.toNat _ = n
  have hr : (0 : ℚ) ≤ (n : ℚ) / 0x1000000 := by positivity
  linarith

theorem speedCongestion_nonneg : 0 ≤ speedCongestion ed tr := by
  unfold speedCongestion
  split
  · linarith [min_le_right (tr.avgSpeed / ed.speedLimit) 1]
  · linarith

variable {par now ed tr tr' edgeIdx vehicleSeed}

theorem baseTT_nonneg (tr : EdgeTraffic) (h : 0 ≤ ed.baseTravelTime) : 0 ≤ baseTT ed tr := by
  unfold baseTT
  split <;> rename_i hreal
  · exact hreal.2.le
  · exact h

theorem congestion_nonneg (hexp : 0 ≤ par.exp (-0.1 * (now - tr.lastUpdate))) :
    0 ≤ congestion par now ed tr := by
  rw [congestion_eq]
  exact mul_nonneg ((speedCongestion_nonneg ed tr).trans (le_max_left _ _)) hexp

theorem penalty_pos (hexp : 0 ≤ par.exp (-0.1 * (now - tr.lastUpdate))) (hK : 0 ≤ par.K) :
    0 < penalty par now ed tr edgeIdx vehicleSeed := by
  have hc : 0 ≤ congestion par now ed tr := congestion_nonneg hexp
  have hcK : 0 ≤ congestion par now ed tr * par.K := mul_nonneg hc hK
  exact mul_pos (by linarith) (noise_pos edgeIdx vehicleSeed)

/-- Weights are not negative. -/
theorem edgeWeight_nonneg (hbase : 0 ≤ ed.baseTravelTime)
    (hexp : 0 ≤ par.exp (-0.1 * (now - tr.lastUpdate))) (hK : 0 ≤ par.K) :
    0 ≤ edgeWeight par now ed tr edgeIdx vehicleSeed := by
  have hb : 0 ≤ baseTT ed tr := baseTT_nonneg tr hbase
  rw [edgeWeight_eq]
  split
  · exact hb
  · exact mul_nonneg hb (penalty_pos hexp hK).le

end Weight

/-! ### More vehicles, lower speed -/

section Monotone

/-- A record of the same edge with other traffic on it. -/
def EdgeTraffic.withTraffic (tr : EdgeTraffic) (vehicleCount : ℤ) (avgSpeed : ℚ) : EdgeTraffic :=
  { tr with vehicleCount := vehicleCount, avgSpeed := avgSpeed }

/-- The traffic has come to a standstill, which counts as free flow, and the vehicles are not
dense enough to make up for it. -/
def Stopped (ed : EdgeData) (tr : EdgeTraffic) (vehicleCount : ℤ) (avgSpeed : ℚ) : Prop :=
  0 < ed.speedLimit ∧ 0 < tr.avgSpeed ∧ avgSpeed = 0 ∧
    tr.avgSpeed / ed.speedLimit + max 0 (densityRatio ed (tr.withTraffic vehicleCount 0)) < 1

/-- The noise factor takes more off the weight than the congestion adds, on an edge that becomes
congested. -/
def NoiseOutweighs (par : ServerPar) (now : ℚ) (ed : EdgeData) (tr tr' : EdgeTraffic)
    (edgeIdx : ℕ) (vehicleSeed : UInt32) : Prop :=
  congestion par now ed tr < CONGESTION_THR ∧ CONGESTION_THR ≤ congestion par now ed tr' ∧
    penalty par now ed tr' edgeIdx vehicleSeed < 1

/-- The edge was congested, and the standstill takes off some of the penalty. -/
def StandstillMasks (par : ServerPar) (now : ℚ) (ed : EdgeData) (tr : EdgeTraffic)
    (vehicleCount : ℤ) (avgSpeed : ℚ) (edgeIdx : ℕ) (vehicleSeed : UInt32) : Prop :=
  Stopped ed tr vehicleCount avgSpeed ∧ CONGESTION_THR ≤ congestion par now ed tr ∧
    if congestion par now ed (tr.withTraffic vehicleCount avgSpeed) < CONGESTION_THR then
      1 < penalty par now ed tr edgeIdx vehicleSeed
    else 0 < par.K

variable {par : ServerPar} {now : ℚ} {ed : EdgeData} {tr tr' : EdgeTraffic} {edgeIdx : ℕ}
  {vehicleSeed : UInt32} {n : ℤ} {v : ℚ}

theorem densityRatio_mono (hn : tr.vehicleCount ≤ n) :
    densityRatio ed tr ≤ densityRatio ed (tr.withTraffic n v) := by
  have hcast : (tr.vehicleCount : ℚ) ≤ n := by exact_mod_cast hn
  unfold densityRatio DENSITY_REF
  refine min_le_min_right 1 (div_le_div_of_nonneg_right ?_ (by norm_num))
  split <;> rename_i hlen
  · exact div_le_div_of_nonneg_right hcast hlen.le
  · exact le_rfl

theorem speedCongestion_of_free (h : ¬(0 < ed.speedLimit ∧ 0 < tr.avgSpeed)) :
    speedCongestion ed tr = 0 := by
  rw [speedCongestion, if_neg h, sub_self]

theorem speedCongestion_of_moving (h : 0 < ed.speedLimit ∧ 0 < tr.avgSpeed) :
    speedCongestion ed tr = max (1 - tr.avgSpeed / ed.speedLimit) 0 := by
  rw [speedCongestion, if_pos h]
  rcases le_total (tr.avgSpeed / ed.speedLimit) 1 with hle | hle
  · rw [min_eq_left hle, max_eq_left (by linarith)]
  · rw [min_eq_right hle, sub_self, max_eq_right (by linarith)]

/-- The larger of the two utilisations grows unless a standstill hides the first of them. -/
theorem utilisation_le_iff (hv : 0 ≤ v) (hle : v ≤ tr.avgSpeed) (hn : tr.vehicleCount ≤ n) :
    max (speedCongestion ed tr) (densityRatio ed tr) ≤
        max (speedCongestion ed (tr.withTraffic n v)) (densityRatio ed (tr.withTraffic n v)) ↔
      ¬Stopped ed tr n v := by
  have hd : densityRatio ed tr ≤ densityRatio ed (tr.withTraffic n v) := densityRatio_mono hn
  have hgrow : speedCongestion ed tr ≤ speedCongestion ed (tr.withTraffic n v) →
      max (speedCongestion ed tr) (densityRatio ed tr) ≤
        max (speedCongestion ed (tr.withTraffic n v)) (densityRatio ed (tr.withTraffic n v)) :=
    fun hs => max_le_max hs hd
  by_cases hfree : 0 < ed.speedLimit ∧ 0 < tr.avgSpeed
  · rcases hv.eq_or_lt with rfl | hpos
    · -- the new speed is zero
      have hstop : speedCongestion ed (tr.withTraffic n 0) = 0 :=
        speedCongestion_of_free fun h => lt_irrefl _ h.2
      rw [hstop, speedCongestion_of_moving hfree]
      constructor
      · rintro hmax ⟨-, -, -, hlt⟩
        have hs := (le_max_left _ _).trans ((le_max_left _ _).trans hmax)
        linarith
      · intro hstopped
        have hge : 1 ≤ tr.avgSpeed / ed.speedLimit +
            max 0 (densityRatio ed (tr.withTraffic n 0)) :=
          not_lt.1 fun hlt => hstopped ⟨hfree.1, hfree.2, rfl, hlt⟩
        exact max_le (max_le (by linarith) (le_max_left _ _)) (hd.trans (le_max_right _ _))
    · refine iff_of_true (hgrow ?_) fun h => hpos.ne' h.2.2.1
      have hfree' : 0 < ed.speedLimit ∧ 0 < (tr.withTraffic n v).avgSpeed := ⟨hfree.1, hpos⟩
      rw [speedCongestion_of_moving hfree, speedCongestion_of_moving hfree']
      have hdiv : v / ed.speedLimit ≤ tr.avgSpeed / ed.speedLimit :=
        div_le_div_of_nonneg_right hle hfree.1.le
      exact max_le_max (sub_le_sub_left hdiv 1) le_rfl
  · refine iff_of_true (hgrow ?_) fun h => hfree ⟨h.1, h.2.1⟩
    rw [speedCongestion_of_free hfree]
    exact speedCongestion_nonneg _ _

theorem congestion_le_iff (ed : EdgeData) (hexp : 0 < par.exp (-0.1 * (now - tr.lastUpdate)))
    (hv : 0 ≤ v)
    (hle : v ≤ tr.avgSpeed) (hn : tr.vehicleCount ≤ n) :
    congestion par now ed tr ≤ congestion par now ed (tr.withTraffic n v) ↔
      ¬Stopped ed tr n v := by
  rw [congestion_eq, congestion_eq, ← utilisation_le_iff hv hle hn]
  exact mul_le_mul_iff_left₀ hexp

theorem penalty_le_iff (hK : 0 ≤ par.K) :
    penalty par now ed tr edgeIdx vehicleSeed ≤ penalty par now ed tr' edgeIdx vehicleSeed ↔
      par.K = 0 ∨ congestion par now ed tr ≤ congestion par now ed tr' := by
  unfold penalty
  rw [mul_le_mul_iff_left₀ (noise_pos edgeIdx vehicleSeed), add_le_add_iff_left]
  rcases hK.eq_or_lt with h0 | hpos
  · rw [← h0, mul_zero, mul_zero]
    exact iff_of_true le_rfl (.inl rfl)
  · rw [mul_le_mul_iff_left₀ hpos]
    exact ⟨.inr, fun h => h.resolve_left hpos.ne'⟩

/-- **When congestion does not make an edge look cheaper.**  With at least as many vehicles and at
most the speed, the weight of an edge is not smaller iff its travel time is zero, or neither does
the noise outweigh the penalty of an edge that becomes congested nor does a standstill mask the
congestion. -/
theorem weight_mono_iff (par : ServerPar) (now : ℚ) (ed : EdgeData) (tr : EdgeTraffic) (n : ℤ)
    (v : ℚ) (edgeIdx : ℕ) (vehicleSeed : UInt32) (hbase : 0 ≤ ed.baseTravelTime)
    (hexp : 0 < par.exp (-0.1 * (now - tr.lastUpdate))) (hK : 0 ≤ par.K) (hv : 0 ≤ v)
    (hle : v ≤ tr.avgSpeed) (hn : tr.vehicleCount ≤ n) :
    edgeWeight par now ed tr edgeIdx vehicleSeed ≤
        edgeWeight par now ed (tr.withTraffic n v) edgeIdx vehicleSeed ↔
      baseTT ed tr = 0 ∨
        ¬NoiseOutweighs par now ed tr (tr.withTraffic n v) edgeIdx vehicleSeed ∧
          ¬StandstillMasks par now ed tr n v edgeIdx vehicleSeed := by
  have hcong := congestion_le_iff ed hexp hv hle hn
  have htt : baseTT ed (tr.withTraffic n v) = baseTT ed tr := rfl
  rw [edgeWeight_eq, edgeWeight_eq, htt]
  rcases (baseTT_nonneg tr hbase).eq_or_lt with hzero | hpos
  · rw [← hzero]
    simp
  rw [or_iff_right hpos.ne']
  unfold NoiseOutweighs StandstillMasks
  split <;> rename_i hc <;> split <;> rename_i hc'
  · exact iff_of_true le_rfl ⟨fun h => hc'.not_ge h.2.1, fun h => hc.not_ge h.2.1⟩
  · rw [le_mul_iff_one_le_right hpos]
    constructor
    · exact fun h => ⟨fun hno => hno.2.2.not_ge h, fun hst => hc.not_ge hst.2.1⟩
    · exact fun h => not_lt.1 fun hlt => h.1 ⟨hc, not_lt.1 hc', hlt⟩
  · -- the congestion has dropped below the threshold, which takes a standstill
    have hstop : Stopped ed tr n v := not_not.1 fun h => hc' |>.not_ge
      ((not_lt.1 hc).trans (hcong.2 h))
    rw [mul_le_iff_le_one_right hpos]
    constructor
    · exact fun h => ⟨fun hno => hc hno.1, fun hst => hst.2.2.not_ge h⟩
    · exact fun h => not_lt.1 fun hlt => h.2 ⟨hstop, not_lt.1 hc, hlt⟩
  · rw [mul_le_mul_iff_right₀ hpos, penalty_le_iff hK, hcong]
    constructor
    · rintro (h | h)
      · exact ⟨fun hno => hc hno.1, fun hst => hst.2.2.ne' h⟩
      · exact ⟨fun hno => hc hno.1, fun hst => h hst.1⟩
    · intro h
      rcases hK.eq_or_lt with h0 | hKpos
      · exact .inl h0.symm
      · exact .inr fun hstop => h.2 ⟨hstop, not_lt.1 hc, hKpos⟩

/-- An edge of 100 metres with a speed limit of 10. -/
def shortEdge : EdgeData where
  id := "a".toList
  index := 0
  length := 100
  speedLimit := 10
  baseTravelTime := 10

/-- An edge that was free and is now nearly full. -/
theorem weight_mono_slower :
    edgeWeight ⟨3 / 2, 30, 150, fun _ => 1⟩ 0 shortEdge { avgSpeed := 10 } 0 7 ≤
      edgeWeight ⟨3 / 2, 30, 150, fun _ => 1⟩ 0 shortEdge
        (EdgeTraffic.withTraffic { avgSpeed := 10 } 12 1) 0 7 :=
  (weight_mono_iff _ 0 shortEdge { avgSpeed := 10 } 12 1 0 7 (by decide +kernel)
    (by decide +kernel) (by decide +kernel) (by decide +kernel) (by decide +kernel)
    (by decide +kernel)).2
    (.inr ⟨fun h => absurd h.2.2 (by decide +kernel),
      fun h => absurd h.1.2.2.1 (by decide +kernel)⟩)

/-- **A standstill looks cheaper than slow traffic.**  When the average speed drops from 1 to 0,
the weight of the edge falls back to its travel time. -/
theorem standstill_cheaper :
    ¬edgeWeight ⟨3 / 2, 30, 150, fun _ => 1⟩ 0 shortEdge { avgSpeed := 1 } 0 7 ≤
      edgeWeight ⟨3 / 2, 30, 150, fun _ => 1⟩ 0 shortEdge
        (EdgeTraffic.withTraffic { avgSpeed := 1 } 0 0) 0 7 := by
  decide +kernel

end Monotone

/-! ### Routes -/

section Routes

variable (s : TrafficServer) (par : ServerPar) (vehicleSeed : UInt32) (srcEdge dstEdge : ℕ)

/-- A list of edges, each followed by one of its successors. -/
structure Route (s : TrafficServer) (srcEdge dstEdge : ℕ) (p : List ℕ) : Prop where
  head : p.head? = some srcEdge
  last : p.getLast? = some dstEdge
  chain : p.IsChain fun u v => v ∈ s.neighbors u

/-- The weight of a route: of all its edges except the first. -/
def routeCost (p : List ℕ) : ℚ := (p.tail.map fun v => s.getEdgeWeight par v vehicleSeed).sum

variable {s par vehicleSeed srcEdge dstEdge}

theorem neighbors_lt (u : ℕ) : ∀ v ∈ s.neighbors u, v < s.net.edges.length := by
  intro v hv
  unfold neighbors at hv
  cases hu : s.net.adjacency[u]? with
  | none =>
    rw [hu] at hv
    cases hv
  | some ns =>
    rw [hu] at hv
    exact s.net.adjacency_lt ns (List.mem_of_getElem? hu) v hv

/-- **`dijkstra` is correct.**  Its loop ends within its fuel, because the queue is empty or the
destination is popped, and so does the walk back along the predecessors.  If no weight is negative
it returns no route exactly if there is none, and otherwise a cheapest one, which passes no edge
twice. -/
theorem dijkstra_shortest (s : TrafficServer) (par : ServerPar) (vehicleSeed : UInt32)
    (srcEdge dstEdge : ℕ) (hsrc : srcEdge < s.net.edges.length)
    (hw : ∀ v < s.net.edges.length, 0 ≤ s.getEdgeWeight par v vehicleSeed) :
    (let N := s.net.edges.length
     let w := fun v => s.getEdgeWeight par v vehicleSeed
     let last := Dijkstra.final N s.neighbors w srcEdge dstEdge
     (last.pq = [] ∨ last.visited dstEdge = true) ∧
      (∀ n, Dijkstra.fuel N s.neighbors ≤ n →
        Dijkstra.loop s.neighbors w dstEdge n (Dijkstra.init srcEdge) = last) ∧
      (last.dist dstEdge ≠ none → ∀ n, N ≤ n →
        Dijkstra.follow last.prev n dstEdge =
          (s.dijkstra par srcEdge dstEdge vehicleSeed).reverse)) ∧
    (s.dijkstra par srcEdge dstEdge vehicleSeed = [] ↔
      ¬Relation.ReflTransGen (fun u v => v ∈ s.neighbors u) srcEdge dstEdge) ∧
    (s.dijkstra par srcEdge dstEdge vehicleSeed ≠ [] →
      (s.dijkstra par srcEdge dstEdge vehicleSeed).Nodup ∧
      Route s srcEdge dstEdge (s.dijkstra par srcEdge dstEdge vehicleSeed) ∧
      ∀ p, Route s srcEdge dstEdge p →
        routeCost s par vehicleSeed (s.dijkstra par srcEdge dstEdge vehicleSeed) ≤
          routeCost s par vehicleSeed p) := by
  have hvalid : Dijkstra.Valid s.net.edges.length s.neighbors
      (fun v => s.getEdgeWeight par v vehicleSeed) srcEdge := ⟨hsrc, neighbors_lt, hw⟩
  refine ⟨⟨hvalid.done dstEdge, fun n hn => Dijkstra.loop_fuel hsrc neighbors_lt hn,
    fun hd n hn => Dijkstra.follow_final hsrc neighbors_lt hd hn⟩, hvalid.path_eq_nil_iff,
    fun hne => ⟨Dijkstra.path_nodup hsrc neighbors_lt, ⟨?_, ?_, ?_⟩, fun p hp => ?_⟩⟩
  · exact Dijkstra.path_head hsrc neighbors_lt hne
  · exact Dijkstra.path_last hsrc neighbors_lt hne
  · exact Dijkstra.path_chain hsrc neighbors_lt
  · exact hvalid.cost_path_le (Dijkstra.walk_of_isChain hp.head hp.last hp.chain)

/-- On a network of two edges, one after the other, the only route is found. -/
theorem dijkstra_shortest_twoEdges :
    (TrafficServer.init twoEdgeNet).dijkstra ⟨1, 30, 150, fun _ => 1⟩ 0 1 7 = [0, 1] ∧
      ∀ p, Route (TrafficServer.init twoEdgeNet) 0 1 p →
        routeCost (TrafficServer.init twoEdgeNet) ⟨1, 30, 150, fun _ => 1⟩ 7 [0, 1] ≤
          routeCost (TrafficServer.init twoEdgeNet) ⟨1, 30, 150, fun _ => 1⟩ 7 p := by
  have hpath : (TrafficServer.init twoEdgeNet).dijkstra ⟨1, 30, 150, fun _ => 1⟩ 0 1 7 =
      [0, 1] := by
    decide +kernel
  have h := (dijkstra_shortest (TrafficServer.init twoEdgeNet) ⟨1, 30, 150, fun _ => 1⟩ 7 0 1
    (by decide) (by decide +kernel)).2.2
  rw [hpath] at h
  exact ⟨hpath, (h (List.cons_ne_nil _ _)).2.2⟩

end Routes

end V2nLte
