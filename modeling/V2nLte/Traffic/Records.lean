import V2nLte.Traffic.Server
import Mathlib.Tactic.Linarith
import Mathlib.Tactic.NormNum

/-!
# The traffic records

Reports and decay ticks rewrite the `EdgeTraffic` records in any order.  `RecordOk` is what they
keep: the two counters are ordered, the average travel time is zero without samples and inside
the outlier window with samples, and the average speed stays in the range of its inputs.

The two kinds of update are treated record by record (`RecordOk.updateRecord`,
`RecordOk.decayRecord`); `recordsOk_exec` lifts them to every run of the server.
-/

namespace V2nLte

open TrafficServer

/-- A travel time that passes the outlier filter of the edge. -/
def InWindow (ed : EdgeData) (tt : ℚ) : Prop :=
  REAL_TT_MIN_SEC < tt ∧ tt ≤ REAL_TT_MAX_RATIO * ed.baseTravelTime

/-- The largest average speed an edge can show when speeds up to `V` are reported. -/
def speedBound (V : ℚ) (ed : EdgeData) : ℚ := max V (max 13.9 ed.speedLimit)

/-- The invariant of the record `tr` of the edge `ed`, for reported speeds up to `V`. -/
structure RecordOk (V : ℚ) (ed : EdgeData) (tr : EdgeTraffic) : Prop where
  /-- The count of travel times is not negative. -/
  realTTCount_nonneg : 0 ≤ tr.realTTCount
  /-- No more travel times than vehicles are counted. -/
  realTTCount_le : tr.realTTCount ≤ tr.vehicleCount
  /-- Without a travel time the mean is `0`. -/
  realTravelTime_eq_zero : tr.realTTCount = 0 → tr.realTravelTime = 0
  /-- With one it is in the window of plausible times. -/
  realTravelTime_window : 0 < tr.realTTCount → InWindow ed tr.realTravelTime
  /-- The mean speed is not negative. -/
  avgSpeed_nonneg : 0 ≤ tr.avgSpeed
  /-- It is not above what is reported or allowed. -/
  avgSpeed_le : tr.avgSpeed ≤ speedBound V ed

/-! ### Moving averages and truncated counters -/

theorem ewma_le {a b x : ℚ} (ha : a ≤ x) (hb : b ≤ x) :
    (1 - EWMA_ALPHA) * a + EWMA_ALPHA * b ≤ x := by
  norm_num [EWMA_ALPHA]
  linarith

theorem le_ewma {a b x : ℚ} (ha : x ≤ a) (hb : x ≤ b) :
    x ≤ (1 - EWMA_ALPHA) * a + EWMA_ALPHA * b := by
  norm_num [EWMA_ALPHA]
  linarith

theorem lt_ewma {a b x : ℚ} (ha : x < a) (hb : x < b) :
    x < (1 - EWMA_ALPHA) * a + EWMA_ALPHA * b := by
  norm_num [EWMA_ALPHA]
  linarith

theorem toInt_of_nonneg {x : ℚ} (h : 0 ≤ x) : toInt x = ⌊x⌋ := by simp [toInt, h]

theorem decay_nonneg {n : ℤ} (h : 0 ≤ n) : 0 ≤ (n : ℚ) * DECAY_MULT := by
  have : (0 : ℚ) ≤ n := by exact_mod_cast h
  norm_num [DECAY_MULT]
  linarith

theorem toInt_decay_nonneg {n : ℤ} (h : 0 ≤ n) : 0 ≤ toInt (n * DECAY_MULT) := by
  rw [toInt_of_nonneg (decay_nonneg h)]
  exact Int.floor_nonneg.2 (decay_nonneg h)

theorem toInt_decay_mono {m n : ℤ} (hm : 0 ≤ m) (h : m ≤ n) :
    toInt (m * DECAY_MULT) ≤ toInt (n * DECAY_MULT) := by
  rw [toInt_of_nonneg (decay_nonneg hm), toInt_of_nonneg (decay_nonneg (hm.trans h))]
  have hmn : (m : ℚ) ≤ n := by exact_mod_cast h
  refine Int.floor_le_floor ?_
  norm_num [DECAY_MULT]
  linarith

theorem toInt_decay_le {n : ℤ} (h : 0 ≤ n) : toInt (n * DECAY_MULT) ≤ n := by
  rw [toInt_of_nonneg (decay_nonneg h)]
  have hn : (0 : ℚ) ≤ n := by exact_mod_cast h
  have hle : (n : ℚ) * DECAY_MULT ≤ n := by
    norm_num [DECAY_MULT]
    linarith
  calc ⌊(n : ℚ) * DECAY_MULT⌋ ≤ ⌊(n : ℚ)⌋ := Int.floor_le_floor hle
    _ = n := Int.floor_intCast n

/-! ### One record -/

theorem recordOk_init (V : ℚ) (ed : EdgeData) : RecordOk V ed {} where
  realTTCount_nonneg := le_refl _
  realTTCount_le := le_refl _
  realTravelTime_eq_zero _ := rfl
  realTravelTime_window h := absurd h (by simp)
  avgSpeed_nonneg := by norm_num
  avgSpeed_le := (le_max_left _ _).trans (le_max_right _ _)

/-- The average speed after a report. -/
theorem RecordOk.updated_speed {V : ℚ} {ed : EdgeData} {tr : EdgeTraffic} (h : RecordOk V ed tr)
    {speed : ℚ} (h₀ : 0 ≤ speed) (hV : speed ≤ V) :
    0 ≤ (if tr.vehicleCount = 0 then speed
      else (1 - EWMA_ALPHA) * tr.avgSpeed + EWMA_ALPHA * speed) ∧
    (if tr.vehicleCount = 0 then speed
      else (1 - EWMA_ALPHA) * tr.avgSpeed + EWMA_ALPHA * speed) ≤ speedBound V ed := by
  have hle : speed ≤ speedBound V ed := hV.trans (le_max_left _ _)
  split_ifs
  · exact ⟨h₀, hle⟩
  · exact ⟨le_ewma h.avgSpeed_nonneg h₀, ewma_le h.avgSpeed_le hle⟩

theorem RecordOk.updateRecord {V : ℚ} {ed : EdgeData} {tr : EdgeTraffic} (h : RecordOk V ed tr)
    {speed : ℚ} (h₀ : 0 ≤ speed) (hV : speed ≤ V) (now realTT : ℚ) :
    RecordOk V ed (updateRecord now ed speed realTT tr) := by
  have hn := h.realTTCount_nonneg
  have hle := h.realTTCount_le
  obtain ⟨hs₀, hsV⟩ := h.updated_speed h₀ hV
  unfold TrafficServer.updateRecord
  dsimp only
  by_cases hin : REAL_TT_MIN_SEC < realTT ∧ realTT ≤ ed.baseTravelTime * REAL_TT_MAX_RATIO
  · rw [if_pos hin]
    -- the travel time passed the filter: it becomes, or is averaged into, the record
    have hwin : InWindow ed realTT := ⟨hin.1, by rw [mul_comm]; exact hin.2⟩
    refine ⟨by dsimp only; omega, by dsimp only; omega, fun h0 => ?_, fun _ => ?_, hs₀, hsV⟩
    · dsimp only at h0; omega
    · dsimp only
      split_ifs with hc
      · exact hwin
      · have hold := h.realTravelTime_window (by omega)
        exact ⟨lt_ewma hold.1 hwin.1, ewma_le hold.2 hwin.2⟩
  · rw [if_neg hin]
    exact ⟨hn, by dsimp only; omega, h.realTravelTime_eq_zero, h.realTravelTime_window, hs₀, hsV⟩

theorem RecordOk.decayRecord {V : ℚ} {ed : EdgeData} {tr : EdgeTraffic} (h : RecordOk V ed tr) :
    RecordOk V ed (decayRecord ed tr) := by
  have hn := h.realTTCount_nonneg
  have hmono := toInt_decay_mono hn h.realTTCount_le
  refine ⟨toInt_decay_nonneg hn, hmono, fun h0 => ?_, fun hpos => ?_, ?_, ?_⟩
  · exact if_pos h0
  · -- a counter that is still positive was positive before
    have hle := toInt_decay_le hn
    have hne : toInt (tr.realTTCount * DECAY_MULT) ≠ 0 := hpos.ne'
    have hold := h.realTravelTime_window (hpos.trans_le hle)
    simpa [TrafficServer.decayRecord, hne] using hold
  · unfold TrafficServer.decayRecord
    dsimp only
    split_ifs with hv hl
    · exact le_ewma h.avgSpeed_nonneg hl.le
    · exact le_ewma h.avgSpeed_nonneg (by norm_num)
    · exact h.avgSpeed_nonneg
  · unfold TrafficServer.decayRecord
    dsimp only
    split_ifs with hv hl
    · exact ewma_le h.avgSpeed_le ((le_max_right _ _).trans (le_max_right _ _))
    · exact ewma_le h.avgSpeed_le ((le_max_left _ _).trans (le_max_right _ _))
    · exact h.avgSpeed_le

/-- The base travel time of the edge weights. -/
theorem RecordOk.baseTT {V : ℚ} {ed : EdgeData} {tr : EdgeTraffic} (h : RecordOk V ed tr) :
    baseTT ed tr = ed.baseTravelTime ∨ InWindow ed (baseTT ed tr) := by
  unfold TrafficServer.baseTT
  split_ifs with hc
  · exact .inr (h.realTravelTime_window hc.1)
  · exact .inl rfl

/-! ### All records, over whole runs -/

/-- Every edge has a record, and the records satisfy the invariant. -/
structure RecordsOk (V : ℚ) (net : RoadNet) (s : TrafficServer) : Prop where
  net_eq : s.net = net
  length_eq : s.traffic.length = net.edges.length
  record : ∀ (i : ℕ) ed tr, net.edges[i]? = some ed → s.traffic[i]? = some tr → RecordOk V ed tr

theorem recordsOk_init (V : ℚ) (net : RoadNet) : RecordsOk V net (TrafficServer.init net) where
  net_eq := rfl
  length_eq := List.length_replicate
  record i ed tr _ htr := by
    have : tr = {} := by
      simp only [TrafficServer.init, List.getElem?_replicate] at htr
      split_ifs at htr
      exact (Option.some.inj htr).symm
    rw [this]; exact recordOk_init V ed

theorem RecordsOk.congr {V : ℚ} {net : RoadNet} {s s' : TrafficServer} (h : RecordsOk V net s)
    (hnet : s'.net = s.net) (htr : s'.traffic = s.traffic) : RecordsOk V net s' :=
  ⟨hnet.trans h.net_eq, htr ▸ h.length_eq, htr ▸ h.record⟩

theorem RecordsOk.recordReport {V : ℚ} {net : RoadNet} {s : TrafficServer}
    (h : RecordsOk V net s) {report : VehicleReportMsg} (h₀ : 0 ≤ report.speed)
    (hV : report.speed ≤ V) (edgeIdx : ℕ) (srcAddr : Text) (srcPort : ℤ) :
    RecordsOk V net (s.recordReport edgeIdx srcAddr srcPort report) := by
  refine ⟨h.net_eq, by simpa [TrafficServer.recordReport] using h.length_eq,
    fun i ed tr hed htr => ?_⟩
  simp only [TrafficServer.recordReport, List.getElem?_modify] at htr
  cases hold : s.traffic[i]? with
  | none => simp [hold] at htr
  | some old =>
    have hok := h.record i ed old hed hold
    simp only [hold, Option.map_eq_map, Option.map_some, Option.some.injEq] at htr
    split_ifs at htr with hi
    · subst hi
      rw [h.net_eq, hed] at htr
      rw [← htr]
      exact hok.updateRecord h₀ hV _ _
    · rw [← htr]; exact hok

theorem RecordsOk.decayEdgeInfo {V : ℚ} {net : RoadNet} {s : TrafficServer}
    (h : RecordsOk V net s) : RecordsOk V net s.decayEdgeInfo := by
  refine ⟨h.net_eq, by simpa [TrafficServer.decayEdgeInfo] using h.length_eq,
    fun i ed tr hed htr => ?_⟩
  simp only [TrafficServer.decayEdgeInfo, List.getElem?_mapIdx, h.net_eq, hed] at htr
  cases hold : s.traffic[i]? with
  | none => simp [hold] at htr
  | some old =>
    simp only [hold, Option.map_some, Option.some.injEq] at htr
    rw [← htr]
    exact (h.record i ed old hed hold).decayRecord

/-- The speeds that the event reports are between `0` and `V`. -/
def ServerEvent.SpeedWithin (V : ℚ) : ServerEvent → Prop
  | .report _ _ _ msg => 0 ≤ msg.speed ∧ msg.speed ≤ V
  | _ => True

theorem RecordsOk.step {V : ℚ} {net : RoadNet} {par : ServerPar} {s s' : TrafficServer}
    {e : ServerEvent} {o : List RouteSent} (h : RecordsOk V net s) (he : e.SpeedWithin V)
    (hst : (server par).step s e = some (s', o)) : RecordsOk V net s' := by
  have hclock : ∀ t, RecordsOk V net (s.advance t) := fun t => h.congr rfl rfl
  cases (serverStep_of_step hst).2 with
  | drop => exact hclock _
  | @record _ addr port _ _ hs₁ =>
    rw [hs₁]; exact (hclock _).recordReport he.1 he.2 _ addr port
  | @spare _ addr port _ _ hs₁ =>
    rw [hs₁]; exact ((hclock _).recordReport he.1 he.2 _ addr port).congr rfl rfl
  | @send _ addr port _ _ hs₁ =>
    rw [hs₁]; exact ((hclock _).recordReport he.1 he.2 _ addr port).congr rfl rfl
  | decay => exact (hclock _).decayEdgeInfo
  | reset => exact h.congr rfl rfl

theorem recordsOk_exec {V : ℚ} {net : RoadNet} {par : ServerPar} {es : List ServerEvent}
    {s : TrafficServer} {os : List RouteSent} (hes : ∀ e ∈ es, e.SpeedWithin V)
    (h : (server par).exec (TrafficServer.init net) es = some (s, os)) : RecordsOk V net s := by
  refine Machine.exec_induction (J := fun es s _ => (∀ e ∈ es, e.SpeedWithin V) → RecordsOk V net s)
    (fun _ => recordsOk_init V net) (fun es s os e s' o _ ih hst hall => ?_) h hes
  exact (ih fun e' he' => hall e' (by simp [he'])).step (hall e (by simp)) hst

/-- **The traffic records stay sound.**  After every sequence of reports with speeds up to `V`,
decay ticks and counter resets, every edge has a record that satisfies the invariant, and the
travel time its weight starts from is the base travel time or inside the outlier window. -/
theorem traffic_records_sound (V : ℚ) (net : RoadNet) (par : ServerPar) (es : List ServerEvent)
    (s : TrafficServer) (os : List RouteSent) (hes : ∀ e ∈ es, e.SpeedWithin V)
    (h : (server par).exec (TrafficServer.init net) es = some (s, os)) :
    s.traffic.length = net.edges.length ∧
      ∀ (i : ℕ) ed tr, net.edges[i]? = some ed → s.traffic[i]? = some tr → RecordOk V ed tr ∧
        (baseTT ed tr = ed.baseTravelTime ∨ InWindow ed (baseTT ed tr)) := by
  have hall := recordsOk_exec hes h
  refine ⟨hall.length_eq, fun i ed tr hed htr => ?_⟩
  have hok := hall.record i ed tr hed htr
  exact ⟨hok, hok.baseTT⟩

/-- A network of one edge of 100 metres. -/
def oneEdgeNet : RoadNet where
  edges := [{ id := "a".toList, index := 0, length := 100, speedLimit := 10 }]
  edgeNameToIdx := indexTable ["a".toList]
  adjacency := [[]]
  adjacency_length := rfl
  adjacency_lt := by simp

/-- Two reports, one with a travel time, and a decay tick. -/
def reportsAndDecay : List ServerEvent :=
  [.report 1 "10.0.0.1".toList 4000 ⟨0, 0, 8, 1, 12, 0⟩,
   .report 2 "10.0.0.2".toList 4000 ⟨0, 0, 4, 2, -1, 0⟩,
   .decayTimer 5]

/-- The records are sound after two reports and a decay tick. -/
theorem traffic_records_sound_reports : ∃ s os,
    (server ⟨1, 30, 500, fun _ => 1⟩).exec (TrafficServer.init oneEdgeNet) reportsAndDecay =
        some (s, os) ∧
      s.traffic.length = 1 ∧
      ∀ (i : ℕ) ed tr, oneEdgeNet.edges[i]? = some ed → s.traffic[i]? = some tr →
        RecordOk 8 ed tr ∧ (baseTT ed tr = ed.baseTravelTime ∨ InWindow ed (baseTT ed tr)) := by
  obtain ⟨⟨s, os⟩, h⟩ := Option.isSome_iff_exists.1 (by decide +kernel :
    ((server ⟨1, 30, 500, fun _ => 1⟩).exec (TrafficServer.init oneEdgeNet)
      reportsAndDecay).isSome = true)
  refine ⟨s, os, h, traffic_records_sound 8 oneEdgeNet _ reportsAndDecay s os ?_ h⟩
  simp [reportsAndDecay, ServerEvent.SpeedWithin]
  norm_num

end V2nLte
