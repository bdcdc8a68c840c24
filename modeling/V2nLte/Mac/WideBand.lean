import V2nLte.Machine.Ensures
import V2nLte.Machine.Nearest
import V2nLte.Machine.Word
import Mathlib.Algebra.Order.BigOperators.Group.List
import Mathlib.Algebra.Group.Action.Defs
import Mathlib.Algebra.Order.Field.Rat
import Mathlib.Data.Rat.Floor
import Mathlib.Order.Fin.Basic

/-!
# Wide-band feedback

`LteAmc` makes one CQI, and one PMI, of those of the bands: a weight from `-1` over `0` to `1`
leads from the minimum over the mean to the maximum.  All the variables are `unsigned short` and
begin with `NOSIGNALCQI` or `NOPMI`, the running minimum too.  That is `0`, so the minimum is `0`
whatever the bands say; the sum of the values is kept modulo `65536`, and so is the band the loop
is at.

The weights are exact, in any ordered field.

* `WideBand.readWb_eq` : what is computed interpolates between `0`, the rounded mean of the sum
  that is kept, and the maximum.
* `WideBand.readWb_withinBands_iff` : when the value belongs to the bands.
-/

namespace V2nLte

/-- An `unsigned short`. -/
abbrev UShort : Type := Fin 65536

/-- A channel quality indicator. -/
abbrev Cqi : Type := UShort

/-- A precoding matrix index. -/
abbrev Pmi : Type := UShort

/-- The CQI of a channel without a signal. -/
def NOSIGNALCQI : Cqi := 0

/-- No PMI is known. -/
def NOPMI : Pmi := 0

/-- How the aggregation can fail. -/
inductive WideBandFault (K : Type) where
  | outOfRange
  /-- The counter of the bands never reaches their number. -/
  | endlessLoop
  | divisionByZero
  | cRuntimeError (message : String) (weight : K)
  deriving DecidableEq

namespace WideBand

open Nearest

/-! ### The computation -/

/-- What the loop over the bands keeps. -/
structure Totals where
  /-- The sum of the values. -/
  counter : UShort
  /-- The least value. -/
  min : UShort
  /-- The greatest value. -/
  max : UShort
  deriving DecidableEq

/-- The body of the loop. -/
def Totals.add (s : Totals) (x : UShort) : Totals where
  counter := s.counter + x
  min := if s.min < x then s.min else x
  max := if s.max > x then s.max else x

section Definitions

variable {K : Type}

/-- `for (Band b = 0; b < bands; ++b)`; a `Band` is an `unsigned short` too. -/
def scan (v : List UShort) (bands : ℕ) : ℕ → UShort → Totals → Except (WideBandFault K) Totals
  | 0, _, _ => .error .endlessLoop
  | fuel + 1, b, s =>
    if b.val < bands then
      match v[b.val]? with
      | none => .error .outOfRange
      | some x => scan v bands fuel (b + 1) (s.add x)
    else .ok s

/-- The weights of `LteAmc`. -/
structure AmcWeights (K : Type) where
  /-- The weight for the CQI. -/
  cqiComputationWeight : K
  /-- The weight for the PMI. -/
  pmiComputationWeight : K

/-- Set the weight for CQIs. -/
def AmcWeights.writeCqiWeight (amc : AmcWeights K) (weight : K) : AmcWeights K :=
  { amc with cqiComputationWeight := weight }

/-- Set the weight for PMIs. -/
def AmcWeights.writePmiWeight (amc : AmcWeights K) (weight : K) : AmcWeights K :=
  { amc with pmiComputationWeight := weight }

variable [Field K] [LinearOrder K]

/-- The mean, rounded by the rest of the division. -/
def mean (counter : UShort) (bands : ℕ) : Except (WideBandFault K) UShort :=
  if bands = 0 then .error .divisionByZero
  else .ok (Fin.ofNat 65536 (roundedDiv K counter bands))

variable [FloorSemiring K]

/-- What the weight makes of the minimum, the mean and the maximum. -/
def weighted (unknownWeight : String) (weight : K) (s : Totals) (mean : UShort) :
    Except (WideBandFault K) UShort :=
  if weight = 0 then .ok mean
  else if weight = -1 then .ok s.min
  else if weight = 1 then .ok s.max
  else if -1 < weight ∧ weight < 0 then
    .ok (s.min + Fin.ofNat 65536 (nearest ((weight + 1) * (mean.val - s.min.val))))
  else if 0 < weight ∧ weight < 1 then
    .ok (mean + Fin.ofNat 65536 (nearest (weight * (s.max.val - mean.val))))
  else .error (.cRuntimeError unknownWeight weight)

/-- `LteAmc::readWbCqi` and `LteAmc::readWbPmi`: the value that everything begins with, and the
text of the error, are their own. -/
def readWb (start : UShort) (unknownWeight : String) (weight : K) (v : List UShort) :
    Except (WideBandFault K) UShort := do
  let bands := u32 v.length
  let s ← scan v bands (bands + 1) 0 ⟨start, start, start⟩
  let mean ← mean s.counter bands
  weighted unknownWeight weight s mean

/-- The wide-band CQI of the CQIs of the bands. -/
def AmcWeights.readWbCqi (amc : AmcWeights K) (cqi : List Cqi) : Except (WideBandFault K) Cqi :=
  readWb NOSIGNALCQI "LteAmc::getWbCqi(): Unknown weight %d" amc.cqiComputationWeight cqi

/-- The wide-band PMI of the PMIs of the bands. -/
def AmcWeights.readWbPmi (amc : AmcWeights K) (pmi : List Pmi) : Except (WideBandFault K) Pmi :=
  readWb NOPMI "LteAmc::readWbPmi(): Unknown weight %d" amc.pmiComputationWeight pmi

end Definitions

/-! ### What it is for -/

/-- The sum of the values. -/
def total (v : List UShort) : ℕ := (v.map Fin.val).sum

section Specification

variable {K : Type} [Field K] [LinearOrder K]

/-- `f` is a wide-band value of the bands `v` for each weight. -/
structure Aggregates (v : List UShort) (f : K → UShort) : Prop where
  between : ∀ w ∈ Set.Icc (-1 : K) 1, ∃ lo ∈ v, ∃ hi ∈ v, lo ≤ f w ∧ f w ≤ hi
  min : IsLeast {x | x ∈ v} (f (-1))
  max : IsGreatest {x | x ∈ v} (f 1)
  /-- The mean, rounded to a nearest integer. -/
  mean : |((f 0).val : K) - total v / v.length| ≤ 1 / 2
  mono : MonotoneOn f (Set.Icc (-1) 1)

/-- Every weight in `[-1, 1]` gets its value, and the values are as they should be. -/
def WithinBands (read : K → Except (WideBandFault K) UShort) (v : List UShort) : Prop :=
  ∃ f : K → UShort, (∀ w ∈ Set.Icc (-1 : K) 1, read w = .ok (f w)) ∧ Aggregates v f

end Specification

/-- The minimum is the `0` that the loop begins with, and the numbers have room. -/
structure Covered (v : List UShort) : Prop where
  /-- A band has the value `0`, which is then the minimum. -/
  zero_mem : 0 ∈ v
  /-- The sum has 16 bits. -/
  total_lt : total v < 65536
  /-- The number of bands has 16 bits. -/
  length_lt : v.length < 65536

/-! ### The loop -/

/-- What the loop leaves that begins with `0`. -/
def totals (v : List UShort) : Totals := v.foldl Totals.add ⟨0, 0, 0⟩

section Loop

variable {K : Type} {v : List UShort} {s : Totals}

theorem Totals.add_eq (s : Totals) (x : UShort) :
    s.add x = ⟨s.counter + x, Min.min s.min x, Max.max s.max x⟩ := by
  have hmin : (if s.min < x then s.min else x) = Min.min s.min x := (min_def_lt s.min x).symm
  have hmax : (if s.max > x then s.max else x) = Max.max s.max x := by
    rw [max_comm, max_def_lt]
  rw [Totals.add, hmin, hmax]

/-- The sum is kept modulo `65536`. -/
theorem foldl_add_counter (s : Totals) (v : List UShort) :
    (v.foldl Totals.add s).counter.val = (s.counter + total v) % 65536 := by
  induction v generalizing s with
  | nil => exact (Nat.mod_eq_of_lt s.counter.isLt).symm
  | cons x v ih =>
    rw [List.foldl_cons, ih, Totals.add_eq, Fin.val_add, Nat.mod_add_mod, add_assoc]
    rfl

theorem foldl_add_min (s : Totals) (v : List UShort) :
    (v.foldl Totals.add s).min = v.foldl Min.min s.min := by
  induction v generalizing s with
  | nil => rfl
  | cons x v ih => rw [List.foldl_cons, ih, Totals.add_eq, List.foldl_cons]

theorem foldl_add_max (s : Totals) (v : List UShort) :
    (v.foldl Totals.add s).max = v.foldl Max.max s.max := by
  induction v generalizing s with
  | nil => rfl
  | cons x v ih => rw [List.foldl_cons, ih, Totals.add_eq, List.foldl_cons]

theorem scan_eq {fuel : ℕ} {b : UShort} (hlen : v.length < 65536) (hb : b.val ≤ v.length)
    (hfuel : v.length < b + fuel) :
    (scan v v.length fuel b s : Except (WideBandFault K) Totals) =
      .ok ((v.drop b).foldl Totals.add s) := by
  induction fuel generalizing b s with
  | zero => exact absurd hb (by omega)
  | succ fuel ih =>
    rw [scan]
    by_cases hlt : b.val < v.length
    · have hnext : (b + 1).val = b.val + 1 := by
        rw [Fin.val_add, Nat.mod_eq_of_lt]
        · rfl
        · exact Nat.lt_of_le_of_lt hlt hlen
      rw [if_pos hlt, List.getElem?_eq_getElem hlt, List.drop_eq_getElem_cons hlt, ← hnext]
      exact ih (by omega) (by omega)
    · rw [if_neg hlt, List.drop_of_length_le (by omega), List.foldl_nil]

/-- The counter is back at `0` before it reaches the number of the bands. -/
theorem scan_endless {bands fuel : ℕ} {b : UShort} (hbands : 65536 ≤ bands)
    (hlen : bands ≤ v.length) :
    (scan v bands fuel b s : Except (WideBandFault K) Totals) = .error .endlessLoop := by
  induction fuel generalizing b s with
  | zero => rfl
  | succ fuel ih =>
    have hb : b.val < bands := b.isLt.trans_le hbands
    rw [scan, if_pos hb, List.getElem?_eq_getElem (hb.trans_le hlen)]
    exact ih

theorem scan_totals (hlen : v.length < 65536) :
    (scan v v.length (v.length + 1) 0 ⟨0, 0, 0⟩ : Except (WideBandFault K) Totals) =
      .ok (totals v) := by
  rw [scan_eq hlen (Nat.zero_le _) (by simp)]
  rfl

end Loop

/-! ### The values -/

section Values

variable {K : Type} [Field K] [LinearOrder K] {v : List UShort} {s : Totals} {m : UShort}
  {t : String} {w : K}

theorem totals_counter (v : List UShort) : (totals v).counter.val = total v % 65536 := by
  rw [totals, foldl_add_counter, Fin.val_zero, zero_add]

/-- The minimum never leaves the `0` it begins with. -/
@[simp] theorem totals_min (v : List UShort) : (totals v).min = 0 := by
  have hzero : ∀ x : UShort, Min.min 0 x = 0 := fun x => min_eq_left (Fin.zero_le x)
  rw [totals, foldl_add_min]
  induction v with
  | nil => rfl
  | cons x v ih => rw [List.foldl_cons, hzero, ih]

theorem isGreatest_totals_max (v : List UShort) :
    IsGreatest {x | x ∈ (0 : UShort) :: v} (totals v).max := by
  have hmax : ((0 : UShort) :: v).max? = some (totals v).max := by
    rw [List.max?_cons', totals, foldl_add_max]
  rw [List.max?_eq_some_iff] at hmax
  exact hmax

theorem total_le_length_mul (v : List UShort) : total v ≤ v.length * (totals v).max := by
  have hbound : ∀ n ∈ v.map Fin.val, n ≤ (totals v).max.val := by
    intro n hn
    obtain ⟨x, hx, rfl⟩ := List.mem_map.1 hn
    exact (isGreatest_totals_max v).2 (List.mem_cons_of_mem 0 hx)
  have hsum := List.sum_le_card_nsmul (v.map Fin.val) _ hbound
  rwa [List.length_map, smul_eq_mul] at hsum

variable [FloorSemiring K]

/-- The mean of the sum that is kept. -/
def keptMean (K : Type) [Field K] [LinearOrder K] [FloorSemiring K] (v : List UShort) : ℕ :=
  nearest (((totals v).counter.val : K) / v.length)

variable [IsStrictOrderedRing K]

theorem keptMean_le_max (hv : v ≠ []) : keptMean K v ≤ (totals v).max := by
  have hpos : (0 : K) < v.length := by exact_mod_cast List.length_pos_of_ne_nil hv
  have hkept : (totals v).counter.val ≤ v.length * (totals v).max := by
    rw [totals_counter]
    exact (Nat.mod_le _ _).trans (total_le_length_mul v)
  have hquot : ((totals v).counter.val : K) / v.length ≤ (totals v).max.val := by
    rw [div_le_iff₀ hpos, mul_comm]
    exact_mod_cast hkept
  have hle := nearest_mono hquot
  rwa [nearest_natCast] at hle

theorem mean_totals (hv : v ≠ []) :
    (mean (totals v).counter v.length : Except (WideBandFault K) UShort) =
      .ok (Fin.ofNat 65536 (keptMean K v)) := by
  have hpos := List.length_pos_of_ne_nil hv
  rw [mean, if_neg hpos.ne', keptMean, nearest_div _ hpos]

/-- The five cases of the weight are one interpolation. -/
theorem weighted_eq (hmin : s.min ≤ m) (hmax : m ≤ s.max) (hw : w ∈ Set.Icc (-1 : K) 1) :
    weighted t w s m = .ok (Fin.ofNat 65536 (interpolate s.min m s.max w)) := by
  have hadd : ∀ (x : UShort) (n : ℕ), x + Fin.ofNat 65536 n = Fin.ofNat 65536 (x + n) := by
    intro x n
    apply Fin.ext
    simp [Fin.val_add]
  unfold weighted
  split
  · rename_i h0
    rw [h0, interpolate_zero hmin, Fin.ofNat_val_eq_self]
  split
  · rename_i h1
    rw [h1, interpolate_neg_one, Fin.ofNat_val_eq_self]
  split
  · rename_i h1
    rw [h1, interpolate_one hmax, Fin.ofNat_val_eq_self]
  split
  · rename_i hneg
    rw [hadd, interpolate, if_pos hneg.2.le]
  split
  · rename_i hpos
    rw [hadd, interpolate, if_neg (not_le.2 hpos.1)]
  · rename_i h0 hn1 h1 hneg hpos
    -- the weight is in none of the five cases
    rcases lt_trichotomy w 0 with hlt | heq | hgt
    · exact absurd ⟨lt_of_le_of_ne hw.1 (Ne.symm hn1), hlt⟩ hneg
    · exact absurd heq h0
    · exact absurd ⟨hgt, lt_of_le_of_ne hw.2 h1⟩ hpos

/-- Any other weight is refused. -/
theorem weighted_of_notMem (hw : w ∉ Set.Icc (-1 : K) 1) :
    weighted t w s m = .error (.cRuntimeError t w) := by
  have hends : (-1 : K) ≤ 0 ∧ (0 : K) ≤ 1 := ⟨by linarith, zero_le_one⟩
  have h0 : w ≠ 0 := by
    rintro rfl
    exact hw hends
  have hn1 : w ≠ -1 := by
    rintro rfl
    exact hw ⟨le_refl _, hends.1.trans hends.2⟩
  have h1 : w ≠ 1 := by
    rintro rfl
    exact hw ⟨hends.1.trans hends.2, le_refl _⟩
  have hneg : ¬(-1 < w ∧ w < 0) := fun h => hw ⟨h.1.le, h.2.le.trans hends.2⟩
  have hpos : ¬(0 < w ∧ w < 1) := fun h => hw ⟨hends.1.trans h.1.le, h.2.le⟩
  rw [weighted, if_neg h0, if_neg hn1, if_neg h1, if_neg hneg, if_neg hpos]

/-- **What is computed**, for any bands whose number the loop can count to. -/
theorem readWb_eq (hv : v ≠ []) (hlen : v.length < 65536) (hw : w ∈ Set.Icc (-1 : K) 1) :
    readWb 0 t w v =
      .ok (Fin.ofNat 65536 (interpolate 0 (keptMean K v) (totals v).max w)) := by
  have hbands : u32 v.length = v.length := u32_of_lt (by omega)
  have hmean := keptMean_le_max (K := K) hv
  have hval : (Fin.ofNat 65536 (keptMean K v)).val = keptMean K v :=
    Nat.mod_eq_of_lt (hmean.trans_lt (totals v).max.isLt)
  have hweighted := weighted_eq (s := totals v) (m := Fin.ofNat 65536 (keptMean K v)) (t := t)
    (by simp) (by rw [Fin.le_def, hval]; exact hmean) hw
  rw [totals_min, hval] at hweighted
  unfold readWb
  simp only [hbands]
  exact bind_eq_ok.2 ⟨_, scan_totals hlen, bind_eq_ok.2 ⟨_, mean_totals hv, hweighted⟩⟩

theorem readWb_of_notMem (hv : v ≠ []) (hlen : v.length < 65536) (hw : w ∉ Set.Icc (-1 : K) 1) :
    readWb 0 t w v = .error (.cRuntimeError t w) := by
  have hbands : u32 v.length = v.length := u32_of_lt (by omega)
  unfold readWb
  simp only [hbands]
  rw [scan_totals hlen]
  change (mean (totals v).counter v.length >>= fun m => weighted t w (totals v) m) = _
  rw [mean_totals hv]
  exact weighted_of_notMem hw

omit [IsStrictOrderedRing K] in
/-- A loop that does not end, or a division by zero: no value for any weight. -/
theorem readWb_ne_ok (hv : v = [] ∨ 65536 ≤ v.length) (hlen : v.length < 4294967296) (r : UShort) :
    readWb 0 t w v ≠ .ok r := by
  intro hok
  unfold readWb at hok
  obtain ⟨s, hs, hok⟩ := bind_eq_ok.1 hok
  rcases hv with rfl | hv
  · cases hok
  · rw [u32_of_lt hlen, scan_endless hv (le_refl _)] at hs
    cases hs

/-! ### When the value belongs to the bands -/

/-- The value for each weight in `[-1, 1]`. -/
def wbValue (v : List UShort) (w : K) : UShort :=
  Fin.ofNat 65536 (interpolate 0 (keptMean K v) (totals v).max w)

theorem wbValue_val (hv : v ≠ []) (hw : w ≤ 1) :
    (wbValue v w).val = interpolate 0 (keptMean K v) (totals v).max w :=
  Nat.mod_eq_of_lt ((interpolate_le (Nat.zero_le _) (keptMean_le_max hv) hw).trans_lt
    (totals v).max.isLt)

theorem wbValue_neg_one (v : List UShort) : wbValue v (-1 : K) = 0 := by
  rw [wbValue, interpolate_neg_one]
  rfl

theorem wbValue_zero (hv : v ≠ []) : (wbValue v (0 : K)).val = keptMean K v := by
  rw [wbValue_val hv zero_le_one, interpolate_zero (Nat.zero_le _)]

theorem wbValue_one (hv : v ≠ []) : wbValue v (1 : K) = (totals v).max := by
  rw [wbValue, interpolate_one (keptMean_le_max hv), Fin.ofNat_val_eq_self]

theorem monotoneOn_wbValue (hv : v ≠ []) :
    MonotoneOn (wbValue v : K → UShort) (Set.Icc (-1) 1) := by
  intro w hw w' hw' hle
  rw [Fin.le_def, wbValue_val hv hw.2, wbValue_val hv hw'.2]
  exact interpolate_mono (Nat.zero_le _) (keptMean_le_max hv) hle

theorem Covered.aggregates (h : Covered v) : Aggregates v (wbValue v : K → UShort) := by
  have hv : v ≠ [] := List.ne_nil_of_mem h.zero_mem
  have hmono := monotoneOn_wbValue (K := K) hv
  have hmin : IsLeast {x | x ∈ v} (wbValue v (-1 : K)) := by
    rw [wbValue_neg_one]
    exact ⟨h.zero_mem, fun x _ => Fin.zero_le x⟩
  have hmax : IsGreatest {x | x ∈ v} (wbValue v (1 : K)) := by
    obtain ⟨hmem, hbound⟩ := isGreatest_totals_max v
    rw [wbValue_one hv]
    refine ⟨?_, fun x hx => hbound (List.mem_cons_of_mem 0 hx)⟩
    rcases List.mem_cons.1 hmem with heq | hmem
    · rw [heq]
      exact h.zero_mem
    · exact hmem
  have hends : (-1 : K) ≤ 1 := by linarith
  refine ⟨fun w hw => ?_, hmin, hmax, ?_, hmono⟩
  · exact ⟨_, hmin.1, _, hmax.1, hmono ⟨le_refl _, hends⟩ hw hw.1, hmono hw ⟨hends, le_refl _⟩ hw.2⟩
  · rw [wbValue_zero hv, keptMean, totals_counter, Nat.mod_eq_of_lt h.total_lt]
    exact abs_nearest_sub_le (by positivity)

theorem Covered.withinBands (h : Covered v) :
    WithinBands (fun w : K => readWb 0 t w v) v :=
  ⟨wbValue v, fun _ hw => readWb_eq (List.ne_nil_of_mem h.zero_mem) h.length_lt hw, h.aggregates⟩

/-- A sum that has been cut moves the mean by more than one: the bands are fewer than what has
been cut off. -/
theorem total_lt_of_abs_le (hv : v ≠ []) (hlen : v.length < 65536)
    (h : |(keptMean K v : K) - total v / v.length| ≤ 1 / 2) : total v < 65536 := by
  by_contra hge
  have hpos : (0 : K) < v.length := by exact_mod_cast List.length_pos_of_ne_nil hv
  have hcut : (totals v).counter.val + 65536 ≤ total v := by
    rw [totals_counter]
    omega
  have hcut : ((totals v).counter.val : K) + v.length < total v := by exact_mod_cast (by omega)
  have hquot : ((totals v).counter.val : K) / v.length + 1 < total v / v.length := by
    rw [div_add_one hpos.ne']
    exact div_lt_div_of_pos_right hcut hpos
  have hnear := (abs_le.1 (abs_nearest_sub_le
    (x := ((totals v).counter.val : K) / v.length) (by positivity))).2
  have hfar := (abs_le.1 h).1
  unfold keptMean at hfar
  linarith

theorem covered_of_withinBands (hlen : v.length < 4294967296)
    (h : WithinBands (fun w : K => readWb 0 t w v) v) : Covered v := by
  obtain ⟨f, hread, hf⟩ := h
  have hn1 : (-1 : K) ∈ Set.Icc (-1 : K) 1 := ⟨le_refl _, by linarith⟩
  have h0 : (0 : K) ∈ Set.Icc (-1 : K) 1 := ⟨by linarith, zero_le_one⟩
  have hv : v ≠ [] := fun hnil => readWb_ne_ok (.inl hnil) hlen _ (hread 0 h0)
  have hshort : v.length < 65536 := by
    by_contra hge
    exact readWb_ne_ok (.inr (not_lt.1 hge)) hlen _ (hread 0 h0)
  have heq : ∀ w ∈ Set.Icc (-1 : K) 1, f w = wbValue v w := by
    intro w hw
    exact Except.ok.inj ((hread w hw).symm.trans (readWb_eq hv hshort hw))
  have hmem := hf.min.1
  rw [heq _ hn1, wbValue_neg_one] at hmem
  have hmean := hf.mean
  rw [heq _ h0, wbValue_zero hv] at hmean
  exact ⟨hmem, total_lt_of_abs_le hv hshort hmean, hshort⟩

/-- **When the wide-band CQI and PMI belong to the bands**: one band has the value `0` that the
running minimum begins with, and neither the sum of the values nor the number of the bands is
more than an `unsigned short` can hold. -/
theorem AmcWeights.withinBands_iff_covered (amc : AmcWeights K) (v : List UShort) :
    (Covered v →
      WithinBands (fun w => (amc.writeCqiWeight w).readWbCqi v) v ∧
      WithinBands (fun w => (amc.writePmiWeight w).readWbPmi v) v) ∧
    (v.length < 4294967296 →
      (WithinBands (fun w => (amc.writeCqiWeight w).readWbCqi v) v → Covered v) ∧
      (WithinBands (fun w => (amc.writePmiWeight w).readWbPmi v) v → Covered v)) :=
  ⟨fun h => ⟨h.withinBands, h.withinBands⟩,
    fun hlen => ⟨covered_of_withinBands hlen, covered_of_withinBands hlen⟩⟩

end Values

theorem AmcWeights.withinBands_iff_covered_three :
    WithinBands (fun w => ((⟨0, 0⟩ : AmcWeights ℚ).writeCqiWeight w).readWbCqi [0, 7, 15])
        [0, 7, 15] ∧
      WithinBands (fun w => ((⟨0, 0⟩ : AmcWeights ℚ).writePmiWeight w).readWbPmi [0, 7, 15])
        [0, 7, 15] ∧ Covered [0, 7, 15] :=
  have hcovered : Covered [0, 7, 15] := ⟨by decide, by decide, by decide⟩
  have h := (AmcWeights.withinBands_iff_covered (⟨0, 0⟩ : AmcWeights ℚ) [0, 7, 15]).1 hcovered
  ⟨h.1, h.2,
    ((AmcWeights.withinBands_iff_covered (⟨0, 0⟩ : AmcWeights ℚ) [0, 7, 15]).2 (by decide)).1 h.1⟩

/-- The bands have `7` and `9`, and the minimum is `0`. -/
theorem AmcWeights.minimum_below_the_bands :
    ((⟨0, 0⟩ : AmcWeights ℚ).writeCqiWeight (-1)).readWbCqi [7, 9] = .ok 0 ∧
      ((⟨0, 0⟩ : AmcWeights ℚ).writePmiWeight (-1)).readWbPmi [7, 9] = .ok 0 ∧
      IsLeast {x | x ∈ ([7, 9] : List UShort)} 7 ∧
      ¬WithinBands (fun w => ((⟨0, 0⟩ : AmcWeights ℚ).writeCqiWeight w).readWbCqi [7, 9])
        [7, 9] ∧
      ¬WithinBands (fun w => ((⟨0, 0⟩ : AmcWeights ℚ).writePmiWeight w).readWbPmi [7, 9])
        [7, 9] := by
  have hout : ¬Covered [7, 9] := fun h => absurd h.zero_mem (by decide)
  have hleast : ∀ x ∈ ([7, 9] : List UShort), 7 ≤ x := by
    intro x hx
    rcases List.mem_pair.1 hx with rfl | rfl
    · exact le_refl _
    · decide
  refine ⟨by decide, by decide, ⟨List.mem_cons_self, hleast⟩, fun h => ?_, fun h => ?_⟩
  · exact hout (covered_of_withinBands (by decide) h)
  · exact hout (covered_of_withinBands (by decide) h)

end WideBand

end V2nLte
