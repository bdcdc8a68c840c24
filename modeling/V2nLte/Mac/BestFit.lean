import V2nLte.Lte.Common
import V2nLte.Machine.Collections
import V2nLte.Machine.Runs
import Mathlib.Data.List.Induction

/-!
# The holes of a subframe

`LteAllocatorBestFit` looks for the hole of a subframe that fits a request best: the shortest one
that is long enough, or else the longest one.  Connections that can share their bands are given
bands from the beginning of the subframe on, the others from its end.

* `Subframe.bookedBands` : the search and the booking.
* `Subframe.bestFit_iff` : the hole fits best iff the search passes no better one over.
-/

namespace V2nLte

/-- `AllocationUeType`. -/
inductive AllocationUeType where
  | EXCLUSIVE
  | SHARED
  | UNUSED
  deriving DecidableEq

/-! ### The search -/

/-- A `Candidate`. -/
structure Candidate where
  /-- The first band of the hole. -/
  index : ℕ := 0
  /-- The number of its bands. -/
  len : ℕ := 0
  /-- Whether it satisfies the request. -/
  greater : Bool := false
  deriving DecidableEq

/-- `checkHole`. -/
def checkHole (candidate : Candidate) (holeIndex holeLen req : ℕ) : Candidate :=
  if req < holeLen then
    if !candidate.greater then ⟨holeIndex, holeLen, true⟩
    else if holeLen < candidate.len then ⟨holeIndex, holeLen, true⟩
    else candidate
  else if !candidate.greater then
    if candidate.len < holeLen then ⟨holeIndex, holeLen, false⟩
    else candidate
  else candidate

/-- The state of the loop over the bands. -/
structure HoleScan where
  /-- The best hole so far. -/
  candidate : Candidate := {}
  /-- The next free band begins a hole. -/
  newHole : Bool := true
  /-- The first band of the hole that is scanned. -/
  holeIndex : ℕ := 0
  /-- The number of its bands so far. -/
  holeLen : ℕ := 0

/-- One band of the loop. -/
def HoleScan.next (free : ℕ → Bool) (req : ℕ) (s : HoleScan) (band : ℕ) : HoleScan :=
  if !free band then
    if !s.newHole then { candidate := checkHole s.candidate s.holeIndex s.holeLen req }
    else s
  else
    { s with
      holeIndex := if s.newHole then band else s.holeIndex
      newHole := false
      holeLen := s.holeLen + 1 }

/-- The loop over the bands, and the last hole. -/
def findHole (free : ℕ → Bool) (req : ℕ) (bands : List ℕ) : Candidate :=
  let s := bands.foldl (HoleScan.next free req) {}
  checkHole s.candidate s.holeIndex s.holeLen req

/-- The booking loop; it ends when all the blocks have been booked. -/
def book (req : ℕ) : ℕ → List ℕ → List ℕ
  | _, [] => []
  | blocks, band :: bands =>
    if blocks + 1 = req then [band] else band :: book req (blocks + 1) bands

namespace Candidate

variable (c : Candidate)

/-- The bands that are gone through to book the candidate upwards. -/
def bandsUp : List ℕ := List.range' c.index c.len

/-- The bands that are gone through to book the candidate downwards. -/
def bandsDown : List ℕ :=
  let last := if c.index < c.len then 0 else c.index - c.len
  (List.range' (last + 1) (c.index - last)).reverse

end Candidate

/-- What the search reads of a subframe. -/
structure Subframe where
  /-- The number of bands. -/
  numBands : ℕ
  /-- The bands that RAC and retransmissions have got, in order. -/
  alreadyAllocatedBands : List ℕ
  /-- Who uses a band, and how. -/
  bandStatusMap : ℕ → AllocationUeType × List MacNodeId

/-- `initAndReset`: a round starts with all its bands unused. -/
def Subframe.initAndReset (numBands : ℕ) (alreadyAllocatedBands : List ℕ) : Subframe where
  numBands := numBands
  alreadyAllocatedBands := alreadyAllocatedBands
  bandStatusMap := fun _ => (.UNUSED, [])

namespace Subframe

variable (f : Subframe) (reuse : Bool) (conflict : MacNodeId → Bool) (req : ℕ)

/-- A band can be allocated; a shared one only if no UE on it is in conflict with this one. -/
def allocatable (band : ℕ) : Bool :=
  !f.alreadyAllocatedBands.contains band &&
    if reuse then
      (f.bandStatusMap band).1 ≠ .EXCLUSIVE && !(f.bandStatusMap band).2.any conflict
    else (f.bandStatusMap band).1 = .UNUSED

/-- `firstUnallocatedBand`: the last band that is already allocated. -/
def firstUnallocatedBand : ℕ := f.alreadyAllocatedBands.getLast?.getD 0

/-- The bands in the order of the loop. -/
def bands : List ℕ :=
  if reuse then List.range' f.firstUnallocatedBand (f.numBands - f.firstUnallocatedBand)
  else (List.range' 0 f.numBands).reverse

/-- The bands that are booked. -/
def bookedBands : List ℕ :=
  let candidate := findHole (f.allocatable reuse conflict) req (f.bands reuse)
  book req 0 (if reuse then candidate.bandsUp else candidate.bandsDown)

end Subframe

/-! ### What the search finds -/

variable {free : ℕ → Bool} {req n i len : ℕ} {c : Candidate}

theorem checkHole_zero (c : Candidate) (holeIndex req : ℕ) : checkHole c holeIndex 0 req = c := by
  rw [checkHole, if_neg (Nat.not_lt_zero _), if_neg (Nat.not_lt_zero _), ite_self]

theorem checkHole_of_greater (index len i l : ℕ) : checkHole ⟨index, len, true⟩ i l req =
    if req < l then if l < len then ⟨i, l, true⟩ else ⟨index, len, true⟩
    else ⟨index, len, true⟩ := rfl

theorem checkHole_of_not_greater (index len i l : ℕ) : checkHole ⟨index, len, false⟩ i l req =
    if req < l then ⟨i, l, true⟩ else if len < l then ⟨i, l, false⟩ else ⟨index, len, false⟩ := rfl

/-- The loop checks the maximal runs of the bands, in its order. -/
theorem findHole_eq (free : ℕ → Bool) (req : ℕ) (band : ℕ → ℕ) (n : ℕ) :
    findHole free req ((List.range n).map band) =
      (runs (fun k => free (band k)) n).foldl (fun c h => checkHole c (band h.1) h.2 req) {} := by
  generalize hp : (fun k => free (band k)) = p
  have hscan : ((List.range n).map band).foldl (HoleScan.next free req) {} =
      { candidate := (closedRuns p n).foldl (fun c h => checkHole c (band h.1) h.2 req) {}
        newHole := (openRun p n).isNone
        holeIndex := ((openRun p n).map band).getD 0
        holeLen := ((openRun p n).map fun i => n - i).getD 0 } := by
    induction n with
    | zero => rfl
    | succ n ih =>
      rw [List.range_succ, List.map_append, List.foldl_append, ih, List.map_singleton,
        List.foldl_cons, List.foldl_nil, HoleScan.next, show free (band n) = p n from congrFun hp n,
        closedRuns, openRun]
      cases hpn : p n with
      | false =>
        rw [pendingRun]
        cases openRun p n with
        | none => simp
        | some i => simp [List.foldl_append]
      | true =>
        cases ho : openRun p n with
        | none => simp
        | some i =>
          have hlt := (openRun_eq_some.1 ho).1
          simp
          omega
  rw [findHole, hscan, runs, List.foldl_append, pendingRun]
  cases openRun p n with
  | none => exact checkHole_zero _ _ _
  | some i => rfl

/-- The first of the best holes, among those in a list. -/
def Picks (hs : List (ℕ × ℕ)) (req : ℕ) (h : ℕ × ℕ) : Prop :=
  ∃ pre post, hs = pre ++ h :: post ∧
    (req < h.2 ∧ (∀ h' ∈ hs, req < h'.2 → h.2 ≤ h'.2) ∨
      (∀ h' ∈ hs, h'.2 ≤ req ∧ h'.2 ≤ h.2) ∧ ∀ h' ∈ pre, h'.2 < h.2)

theorem Picks.mem {hs : List (ℕ × ℕ)} {h : ℕ × ℕ} (hpicks : Picks hs req h) : h ∈ hs := by
  obtain ⟨pre, post, rfl, -⟩ := hpicks
  exact List.mem_append_right pre List.mem_cons_self

/-- The hole `h`, as a candidate. -/
def candidateOf (req : ℕ) (band : ℕ → ℕ) (h : ℕ × ℕ) : Candidate :=
  ⟨band h.1, h.2, decide (req < h.2)⟩

/-- One more hole is the better one, or not. -/
theorem Picks.concat (band : ℕ → ℕ) {hs : List (ℕ × ℕ)} {h : ℕ × ℕ} (hpicks : Picks hs req h)
    (x : ℕ × ℕ) : ∃ h', Picks (hs ++ [x]) req h' ∧
      checkHole (candidateOf req band h) (band x.1) x.2 req = candidateOf req band h' := by
  have hall : ∀ {P : ℕ × ℕ → Prop}, (∀ h ∈ hs, P h) → P x → ∀ h ∈ hs ++ [x], P h := by
    intro P hhs hPx h hh
    rcases List.mem_append.1 hh with hh | hh
    · exact hhs h hh
    · rwa [List.mem_singleton.1 hh]
  have hmem := hpicks.mem
  obtain ⟨pre, post, heq, hbest⟩ := hpicks
  have hold : hs ++ [x] = pre ++ h :: (post ++ [x]) := by
    rw [heq, List.append_assoc, List.cons_append]
  have hnew : hs ++ [x] = hs ++ x :: [] := rfl
  rw [candidateOf]
  -- the candidate is longer than the request: a shorter one that is still longer replaces it
  rcases hbest with ⟨hgreater, hmin⟩ | ⟨hmax, hfirst⟩
  · rw [decide_eq_true hgreater, checkHole_of_greater]
    by_cases hlt : req < x.2
    · rw [if_pos hlt]
      by_cases hshort : x.2 < h.2
      · rw [if_pos hshort, ← decide_eq_true hlt]
        have hmin' : ∀ h' ∈ hs, req < h'.2 → x.2 ≤ h'.2 := fun h' hh' hlt' =>
          hshort.le.trans (hmin h' hh' hlt')
        exact ⟨x, ⟨hs, [], hnew, .inl ⟨hlt, hall hmin' fun _ => le_rfl⟩⟩, rfl⟩
      · rw [if_neg hshort, ← decide_eq_true hgreater]
        exact ⟨h, ⟨pre, _, hold, .inl ⟨hgreater, hall hmin fun _ => not_lt.1 hshort⟩⟩, rfl⟩
    · rw [if_neg hlt, ← decide_eq_true hgreater]
      exact ⟨h, ⟨pre, _, hold, .inl ⟨hgreater, hall hmin fun h' => absurd h' hlt⟩⟩, rfl⟩
  · -- it is not: any hole that is longer than the request replaces it, or else a longer one
    have hless := not_lt.2 (hmax h hmem).1
    rw [decide_eq_false hless, checkHole_of_not_greater]
    by_cases hlt : req < x.2
    · rw [if_pos hlt, ← decide_eq_true hlt]
      have hnone : ∀ h' ∈ hs, req < h'.2 → x.2 ≤ h'.2 := fun h' hh' hlt' =>
        absurd hlt' (not_lt.2 (hmax h' hh').1)
      exact ⟨x, ⟨hs, [], hnew, .inl ⟨hlt, hall hnone fun _ => le_rfl⟩⟩, rfl⟩
    · rw [if_neg hlt]
      by_cases hlong : h.2 < x.2
      · rw [if_pos hlong, ← decide_eq_false hlt]
        have hless : ∀ h' ∈ hs, h'.2 < x.2 := fun h' hh' => (hmax h' hh').2.trans_lt hlong
        have hmax' : ∀ h' ∈ hs, h'.2 ≤ req ∧ h'.2 ≤ x.2 := fun h' hh' =>
          ⟨(hmax h' hh').1, (hless h' hh').le⟩
        exact ⟨x, ⟨hs, [], hnew, .inr ⟨hall hmax' ⟨not_lt.1 hlt, le_rfl⟩, hless⟩⟩, rfl⟩
      · rw [if_neg hlong, ← decide_eq_false hless]
        have hx := hall hmax ⟨not_lt.1 hlt, not_lt.1 hlong⟩
        exact ⟨h, ⟨pre, _, hold, .inr ⟨hx, hfirst⟩⟩, rfl⟩

theorem picks_singleton (band : ℕ → ℕ) {x : ℕ × ℕ} (hx : 0 < x.2) : Picks [x] req x ∧
    checkHole {} (band x.1) x.2 req = candidateOf req band x := by
  have hall : ∀ {P : ℕ × ℕ → Prop}, P x → ∀ h ∈ [x], P h := by
    intro P hPx h hh
    rwa [List.mem_singleton.1 hh]
  rw [candidateOf, checkHole]
  by_cases hlt : req < x.2
  · rw [if_pos hlt, decide_eq_true hlt]
    exact ⟨⟨[], [], rfl, .inl ⟨hlt, hall fun _ => le_rfl⟩⟩, rfl⟩
  · rw [if_neg hlt, decide_eq_false hlt]
    exact ⟨⟨[], [], rfl, .inr ⟨hall ⟨not_lt.1 hlt, le_rfl⟩, nofun⟩⟩, if_pos hx⟩

/-- The candidates are compared as they should be, but for a hole that fits exactly. -/
theorem foldl_checkHole (req : ℕ) (band : ℕ → ℕ) {hs : List (ℕ × ℕ)} (hpos : ∀ h ∈ hs, 0 < h.2) :
    (hs = [] ∧ hs.foldl (fun c h => checkHole c (band h.1) h.2 req) {} = {}) ∨
      ∃ h, Picks hs req h ∧ hs.foldl (fun c h => checkHole c (band h.1) h.2 req) {} =
        candidateOf req band h := by
  induction hs using List.reverseRecOn with
  | nil => exact .inl ⟨rfl, rfl⟩
  | append_singleton hs x ih =>
    have hx : 0 < x.2 := hpos x (List.mem_append_right _ (List.mem_singleton_self x))
    rw [List.foldl_append, List.foldl_cons, List.foldl_nil]
    refine .inr ?_
    rcases ih fun h hh => hpos h (List.mem_append_left _ hh) with ⟨rfl, hfold⟩ | ⟨h, hpicks, hfold⟩
    · rw [hfold]
      exact ⟨x, picks_singleton band hx⟩
    · rw [hfold]
      exact hpicks.concat band x

/-- The booking loop books as many bands as there are and as are requested. -/
theorem book_eq {blocks : ℕ} (h : blocks < req) (bands : List ℕ) :
    book req blocks bands = bands.take (req - blocks) := by
  induction bands generalizing blocks with
  | nil => rw [book, List.take_nil]
  | cons band bands ih =>
    rw [book]
    split
    · rw [show req - blocks = 1 by omega]
      rfl
    · rw [ih (by omega), show req - blocks = (req - (blocks + 1)) + 1 by omega]
      rfl

namespace Subframe

variable {f : Subframe} {reuse : Bool} {conflict : MacNodeId → Bool}

/-- A hole that the search comes to. -/
def Scanned (f : Subframe) (reuse : Bool) (conflict : MacNodeId → Bool) (i len : ℕ) : Prop :=
  IsRun (f.allocatable reuse conflict) f.numBands i len ∧
    (reuse = true → f.firstUnallocatedBand ≤ i)

/-- The bands of a hole that can be booked: the loop that goes back never comes to band 0. -/
def usable (reuse : Bool) (i len : ℕ) : ℕ := if reuse = false ∧ i = 0 then len - 1 else len

theorem usable_le (reuse : Bool) (i len : ℕ) : usable reuse i len ≤ len := by
  rw [usable]
  split
  · exact Nat.sub_le _ _
  · exact Nat.le_refl _

/-- The hole that the search ends with. -/
def Chosen (f : Subframe) (reuse : Bool) (conflict : MacNodeId → Bool) (req i len : ℕ) : Prop :=
  f.Scanned reuse conflict i len ∧
    (req < len ∧ (∀ j l, f.Scanned reuse conflict j l → req < l → len ≤ l) ∨
      (∀ j l, f.Scanned reuse conflict j l → l ≤ req ∧ l ≤ len) ∧
        (reuse = false → i = 0 → ∀ j l, f.Scanned reuse conflict j l → j ≠ 0 → l < len))

/-- The bands that the search ends with. -/
def Ends (f : Subframe) (reuse : Bool) (conflict : MacNodeId → Bool) (req : ℕ)
    (booked : List ℕ) : Prop :=
  (∀ i len, ¬f.Scanned reuse conflict i len) ∧ booked = [] ∨
    ∃ i len j, f.Chosen reuse conflict req i len ∧ i ≤ j ∧
      j + min req (usable reuse i len) ≤ i + len ∧
      booked.Perm (List.range' j (min req (usable reuse i len)))

/-- The search starts on a band that cannot be allocated, or at band 0. -/
theorem firstUnallocatedBand_spec (f : Subframe) (reuse : Bool) (conflict : MacNodeId → Bool) :
    f.firstUnallocatedBand = 0 ∨ f.allocatable reuse conflict f.firstUnallocatedBand = false := by
  rw [firstUnallocatedBand]
  cases hlast : f.alreadyAllocatedBands.getLast? with
  | none => exact .inl rfl
  | some b =>
    right
    have hmem : f.alreadyAllocatedBands.contains b = true :=
      List.contains_iff_mem.2 (List.mem_of_getLast? hlast)
    rw [Option.getD_some, allocatable, hmem]
    rfl

/-- The outcome of the search, from what the loop finds by its positions: `band k` is the band at
the position `k`, and the hole of `len` positions from `k` on begins with the band `first k len`. -/
theorem ends_of_positions (band : ℕ → ℕ) (first : ℕ → ℕ → ℕ) (N : ℕ)
    (hbands : f.bands reuse = (List.range N).map band)
    (hscanned : ∀ k len, (k, len) ∈ runs (fun k => f.allocatable reuse conflict (band k)) N →
      f.Scanned reuse conflict (first k len) len)
    (hof : ∀ i len, f.Scanned reuse conflict i len →
      ∃ k, (k, len) ∈ runs (fun k => f.allocatable reuse conflict (band k)) N ∧ first k len = i)
    (hlast : reuse = false → ∀ k len,
      (k, len) ∈ runs (fun k => f.allocatable reuse conflict (band k)) N → first k len = 0 →
        ∀ h ∈ runs (fun k => f.allocatable reuse conflict (band k)) N, h ≠ (k, len) → h.1 < k)
    (hbook : ∀ k len greater,
      (k, len) ∈ runs (fun k => f.allocatable reuse conflict (band k)) N → ∃ j, first k len ≤ j ∧
        j + min req (usable reuse (first k len) len) ≤ first k len + len ∧
        (book req 0 (if reuse then (⟨band k, len, greater⟩ : Candidate).bandsUp
          else (⟨band k, len, greater⟩ : Candidate).bandsDown)).Perm
            (List.range' j (min req (usable reuse (first k len) len)))) :
    f.Ends reuse conflict req (f.bookedBands reuse conflict req) := by
  rw [bookedBands, hbands, findHole_eq]
  generalize hruns : runs (fun k => f.allocatable reuse conflict (band k)) N = hs at *
  have hpos : ∀ h ∈ hs, 0 < h.2 := fun h hh => (mem_runs.1 (hruns ▸ hh)).pos
  have hsorted : hs.Pairwise fun h h' => h.1 < h'.1 := hruns ▸ runs_sorted
  rcases foldl_checkHole req band hpos with
    ⟨hnil, hfold⟩ | ⟨⟨k, len⟩, ⟨pre, post, heq, hbest⟩, hfold⟩
  · refine .inl ⟨fun i len h => ?_, ?_⟩
    · obtain ⟨k, hk, -⟩ := hof i len h
      rw [hnil] at hk
      cases hk
    · rw [hfold]
      cases reuse <;> rfl
  · have hmem : (k, len) ∈ hs := heq ▸ List.mem_append_right _ List.mem_cons_self
    obtain ⟨j, hj, hj', hperm⟩ := hbook k len (decide (req < len)) hmem
    rw [hfold]
    refine .inr ⟨first k len, len, j, ⟨hscanned k len hmem, ?_⟩, hj, hj', hperm⟩
    rcases hbest with ⟨hgreater, hmin⟩ | ⟨hmax, hfirst⟩
    · refine .inl ⟨hgreater, fun i l h hlt => ?_⟩
      obtain ⟨k', hk', -⟩ := hof i l h
      exact hmin _ hk' hlt
    · refine .inr ⟨fun i l h => ?_, fun hexcl h0 i l h hne => ?_⟩
      · obtain ⟨k', hk', -⟩ := hof i l h
        exact hmax _ hk'
      · obtain ⟨k', hk', hi⟩ := hof i l h
        have hother : (k', l) ≠ (k, len) := by
          rintro heq'
          obtain ⟨rfl, rfl⟩ := Prod.mk.inj heq'
          exact hne (hi.symm.trans h0)
        have hlt : k' < k := hlast hexcl k len hmem h0 _ hk' hother
        -- so it comes before the hole at band 0
        rw [heq] at hk' hsorted
        rcases List.mem_append.1 hk' with hk' | hk'
        · exact hfirst _ hk'
        · rcases List.mem_cons.1 hk' with heq' | hk'
          · exact absurd heq' hother
          · have hgt := (List.pairwise_cons.1 (List.pairwise_append.1 hsorted).2.1).1 _ hk'
            exact absurd hlt (Nat.lt_asymm hgt)

theorem ends_up (hreq : 0 < req) : f.Ends true conflict req (f.bookedBands true conflict req) := by
  have hstart := f.firstUnallocatedBand_spec true conflict
  refine ends_of_positions (fun k => f.firstUnallocatedBand + k)
    (fun k _ => f.firstUnallocatedBand + k) (f.numBands - f.firstUnallocatedBand) ?_ ?_ ?_ ?_ ?_
  · rw [bands, if_pos rfl, List.range'_eq_map_range]
  · intro k len h
    exact ⟨(isRun_shift hstart).1 (mem_runs.1 h), fun _ => Nat.le_add_right _ _⟩
  · rintro i len ⟨hrun, hle⟩
    obtain ⟨k, rfl⟩ := Nat.exists_eq_add_of_le (hle rfl)
    exact ⟨k, mem_runs.2 ((isRun_shift hstart).2 hrun), rfl⟩
  · intro hreuse
    cases hreuse
  · intro k len greater _
    have husable : usable true (f.firstUnallocatedBand + k) len = len := if_neg fun h => nomatch h.1
    refine ⟨f.firstUnallocatedBand + k, Nat.le_refl _, ?_, ?_⟩
    · rw [husable]
      exact Nat.add_le_add_left (Nat.min_le_right _ _) _
    · rw [if_pos rfl, Candidate.bandsUp, book_eq hreq, Nat.sub_zero, take_range'_eq, husable]

theorem ends_down (hreq : 0 < req) :
    f.Ends false conflict req (f.bookedBands false conflict req) := by
  refine ends_of_positions (fun k => f.numBands - 1 - k) (fun k len => f.numBands - (k + len))
    f.numBands ?_ ?_ ?_ ?_ ?_
  · rw [bands, if_neg Bool.false_ne_true, List.reverse_range']
    refine List.map_congr_left fun k _ => ?_
    rw [Nat.zero_add]
  · intro k len h
    have hrun := mem_runs.1 h
    exact ⟨(isRun_reflect hrun.le).1 hrun, nofun⟩
  · rintro i len ⟨hrun, -⟩
    have hle := hrun.le
    refine ⟨f.numBands - (i + len), mem_runs.2 ?_, by omega⟩
    refine (isRun_reflect (by omega)).2 ?_
    rwa [show f.numBands - (f.numBands - (i + len) + len) = i by omega]
  · rintro - k len h h0 ⟨k', len'⟩ h' hne
    have hrun := mem_runs.1 h
    have hrun' := mem_runs.1 h'
    have hle := hrun.le
    have hle' := hrun'.le
    have hpos := hrun'.pos
    by_contra hge
    have hge : k ≤ k' := Nat.le_of_not_lt hge
    obtain ⟨rfl, rfl⟩ := hrun.eq_of_mem hrun' (k := k') ⟨hge, by omega⟩ ⟨Nat.le_refl _, by omega⟩
    exact hne rfl
  · intro k len greater h
    have hrun := mem_runs.1 h
    have hle := hrun.le
    have hpos := hrun.pos
    -- the bands that the loop comes to are the last ones of the hole
    have hdown : (⟨f.numBands - 1 - k, len, greater⟩ : Candidate).bandsDown =
        (List.range' (f.numBands - (k + len) + len - usable false (f.numBands - (k + len)) len)
          (usable false (f.numBands - (k + len)) len)).reverse := by
      rw [Candidate.bandsDown, usable]
      dsimp only
      by_cases h0 : f.numBands - (k + len) = 0
      · rw [if_pos (by omega), if_pos ⟨rfl, h0⟩]
        congr 2 <;> omega
      · rw [if_neg (by omega), if_neg (fun h => h0 h.2)]
        congr 2 <;> omega
    have hle' := usable_le false (f.numBands - (k + len)) len
    generalize f.numBands - (k + len) = i at *
    generalize usable false i len = u at *
    refine ⟨i + len - u + (u - req), by omega, by omega, ?_⟩
    rw [if_neg Bool.false_ne_true, hdown, book_eq hreq, Nat.sub_zero, List.take_reverse,
      List.length_range', List.drop_range', Nat.mul_one, show u - (u - req) = min req u by omega]
    exact List.reverse_perm _

/-- **What the search ends with.** -/
theorem ends (hreq : 0 < req) : f.Ends reuse conflict req (f.bookedBands reuse conflict req) := by
  cases reuse with
  | false => exact ends_down hreq
  | true => exact ends_up hreq

/-- **How many bands are booked**: all that are requested iff one hole has room for them, and none
iff no hole has room for any. -/
theorem length_bookedBands (f : Subframe) (reuse : Bool) (conflict : MacNodeId → Bool)
    (hreq : 0 < req) : (f.bookedBands reuse conflict req).length ≤ req ∧
    ((f.bookedBands reuse conflict req).length = req ↔
      ∃ i len, f.Scanned reuse conflict i len ∧ req ≤ usable reuse i len) ∧
    ((f.bookedBands reuse conflict req).length = 0 ↔
      ∀ i len, f.Scanned reuse conflict i len → usable reuse i len = 0) := by
  have hends : f.Ends reuse conflict req (f.bookedBands reuse conflict req) := ends hreq
  rcases hends with ⟨hnone, hnil⟩ | ⟨i, len, j, ⟨hscanned, hchosen⟩, -, -, hperm⟩
  · rw [hnil, List.length_nil]
    refine ⟨Nat.zero_le req, ⟨fun h => absurd h (by omega), fun ⟨i, len, h, _⟩ => ?_⟩, ?_⟩
    · exact absurd h (hnone i len)
    · exact ⟨fun _ i len h => absurd h (hnone i len), fun _ => rfl⟩
  · -- the chosen hole holds all that fits into any hole that was scanned
    rw [hperm.length_eq, List.length_range']
    refine ⟨Nat.min_le_left _ _, ⟨fun h => ⟨i, len, hscanned, by omega⟩, ?_⟩, ?_⟩
    · rintro ⟨i', len', hscanned', hroom⟩
      have hle' := usable_le reuse i' len'
      rcases hchosen with ⟨hgreater, -⟩ | ⟨hmax, hzero⟩
      · rw [usable]
        split
        · omega
        · omega
      · obtain ⟨hlen₁, hlen₂⟩ := hmax i' len' hscanned'
        have hlen := (hmax i len hscanned).1
        rw [usable]
        split <;> rename_i h0
        · -- no other hole is as long, so the room is in this one
          by_cases hi' : i' = 0
          · rw [usable, if_pos ⟨h0.1, hi'⟩] at hroom
            omega
          · have hlt := hzero h0.1 h0.2 i' len' hscanned' hi'
            omega
        · omega
    · refine ⟨fun h i' len' hscanned' => ?_, fun h => ?_⟩
      · have hle' := usable_le reuse i' len'
        have hpos := hscanned.1.pos
        have hpos' := hscanned'.1.pos
        have h0 : usable reuse i len = 0 := by omega
        rw [usable] at h0
        split at h0 <;> rename_i h0'
        · rcases hchosen with ⟨hgreater, -⟩ | ⟨hmax, hzero⟩
          · omega
          · by_cases hi' : i' = 0
            · have hlen := (hmax i' len' hscanned').2
              rw [usable, if_pos ⟨h0'.1, hi'⟩]
              omega
            · have hlt := hzero h0'.1 h0'.2 i' len' hscanned' hi'
              omega
        · omega
      · rw [h i len hscanned, Nat.min_zero]

/-! ### Best fit -/

/-- A hole that fits best: one of the shortest that are long enough, or else of the longest. -/
structure BestHole (f : Subframe) (reuse : Bool) (conflict : MacNodeId → Bool)
    (req i len : ℕ) : Prop where
  hole : IsRun (f.allocatable reuse conflict) f.numBands i len
  shortest : ∀ j l, IsRun (f.allocatable reuse conflict) f.numBands j l → req ≤ l →
    req ≤ len ∧ len ≤ l
  longest : len < req → ∀ j l, IsRun (f.allocatable reuse conflict) f.numBands j l → l ≤ len

/-- The bands that are booked are as many as there are and as are requested, one after the other,
in a hole that fits best. -/
def BooksBestFit (f : Subframe) (reuse : Bool) (conflict : MacNodeId → Bool) (req : ℕ)
    (booked : List ℕ) : Prop :=
  (∀ b < f.numBands, f.allocatable reuse conflict b = false) ∧ booked = [] ∨
    ∃ i len j, f.BestHole reuse conflict req i len ∧ i ≤ j ∧ j + min req len ≤ i + len ∧
      booked.Perm (List.range' j (min req len))

/-- The search passes no better hole over. -/
structure SearchFits (f : Subframe) (reuse : Bool) (conflict : MacNodeId → Bool) (req : ℕ) :
    Prop where
  /-- A hole that fits exactly is not there together with one that is longer. -/
  exactFit : ∀ i len, f.Scanned reuse conflict i len → req < len →
    ∀ j, ¬IsRun (f.allocatable reuse conflict) f.numBands j req
  /-- The search comes to a hole that fits best. -/
  scanned : ∀ b < f.numBands, f.allocatable reuse conflict b = true →
    ∃ i len, f.Scanned reuse conflict i len ∧ f.BestHole reuse conflict req i len
  /-- Going back, the hole at band 0 is longer than requested, or not longer than another one. -/
  zero : reuse = false → ∀ len ≤ req, IsRun (f.allocatable reuse conflict) f.numBands 0 len →
    ∃ j l, j ≠ 0 ∧ IsRun (f.allocatable reuse conflict) f.numBands j l ∧ len ≤ l

theorem BestHole.of_eq {i len j l : ℕ} (h : f.BestHole reuse conflict req i len)
    (hrun : IsRun (f.allocatable reuse conflict) f.numBands j l) (heq : l = len) :
    f.BestHole reuse conflict req j l := by
  subst heq
  exact ⟨hrun, h.shortest, h.longest⟩

theorem SearchFits.books (h : f.SearchFits reuse conflict req) {booked : List ℕ}
    (hends : f.Ends reuse conflict req booked) : f.BooksBestFit reuse conflict req booked := by
  rcases hends with ⟨hnone, rfl⟩ | ⟨i, len, j, ⟨hscanned, hchosen⟩, hij, hle, hperm⟩
  · refine .inl ⟨fun b hb => ?_, rfl⟩
    by_contra htrue
    obtain ⟨i, len, hscanned, -⟩ := h.scanned b hb (Bool.not_eq_false _ ▸ htrue)
    exact hnone i len hscanned
  · have hrun := hscanned.1
    have hrunle := hrun.le
    have hpos := hrun.pos
    obtain ⟨i', len', hscanned', hbest⟩ := h.scanned i (by omega)
      (hrun.holds i (Nat.le_refl i) (by omega))
    have hbest' : f.BestHole reuse conflict req i len ∧
        min req (usable reuse i len) = min req len := by
      -- a hole longer than the request: no exact fit was passed over
      rcases hchosen with ⟨hgreater, hmin⟩ | ⟨hmax, hzero⟩
      · obtain ⟨hreq, hle'⟩ := hbest.shortest i len hrun hgreater.le
        have hne : req ≠ len' := by
          rintro rfl
          exact h.exactFit i len hscanned hgreater i' hbest.hole
        have hle'' := hmin i' len' hscanned' (by omega)
        refine ⟨hbest.of_eq hrun (by omega), ?_⟩
        rw [usable]
        split
        · omega
        · rfl
      · -- no hole is longer than the request: the longest one was chosen, and not in vain
        have hlen' := hmax i' len' hscanned'
        have heq : len = len' := by
          rcases Nat.lt_or_ge len' req with hlt | hge
          · have hlen := hbest.longest hlt i len hrun
            omega
          · have hlen := (hmax i len hscanned).1
            omega
        refine ⟨hbest.of_eq hrun heq, ?_⟩
        rw [usable, if_neg]
        rintro ⟨hexcl, rfl⟩
        obtain ⟨j', l, hj', hrun', hle'⟩ := h.zero hexcl len (hmax 0 len hscanned).1 hrun
        have hlt := hzero hexcl rfl j' l ⟨hrun', by rw [hexcl]; exact nofun⟩ hj'
        omega
    rw [hbest'.2] at hle hperm
    exact .inr ⟨i, len, j, hbest'.1, hij, hle, hperm⟩

/-- The hole that the search ends with is the one that is booked. -/
theorem chosen_of_books (hreq : 0 < req) {booked : List ℕ}
    (hends : f.Ends reuse conflict req booked) {i len j : ℕ}
    (hrun : IsRun (f.allocatable reuse conflict) f.numBands i len) (hij : i ≤ j)
    (hle : j + min req len ≤ i + len) (hperm : booked.Perm (List.range' j (min req len))) :
    f.Chosen reuse conflict req i len ∧ min req (usable reuse i len) = min req len := by
  have hpos := hrun.pos
  rcases hends with ⟨-, rfl⟩ | ⟨i', len', j', hchosen, hij', hle', hperm'⟩
  · have hlen := hperm.length_eq
    rw [List.length_range', List.length_nil] at hlen
    omega
  · have hboth := hperm.symm.trans hperm'
    have hlen := hboth.length_eq
    rw [List.length_range', List.length_range'] at hlen
    have hj : j ∈ List.range' j' (min req (usable reuse i' len')) :=
      hboth.subset (List.mem_range'_1.2 ⟨Nat.le_refl j, by omega⟩)
    obtain ⟨hj₁, hj₂⟩ := List.mem_range'_1.1 hj
    obtain ⟨rfl, rfl⟩ := hrun.eq_of_mem hchosen.1.1 (k := j) ⟨hij, by omega⟩ ⟨by omega, by omega⟩
    exact ⟨hchosen, hlen.symm⟩

theorem SearchFits.of_books (hreq : 0 < req) {booked : List ℕ}
    (hends : f.Ends reuse conflict req booked) (hbooks : f.BooksBestFit reuse conflict req booked) :
    f.SearchFits reuse conflict req := by
  rcases hbooks with ⟨hnone, -⟩ | ⟨i, len, j, hbest, hij, hle, hperm⟩
  · have hno : ∀ i len, ¬IsRun (f.allocatable reuse conflict) f.numBands i len := by
      intro i len hrun
      have hle := hrun.le
      have hpos := hrun.pos
      have hfalse := hnone i (by omega)
      rw [hrun.holds i (Nat.le_refl i) (by omega)] at hfalse
      cases hfalse
    refine ⟨fun i len h => absurd h.1 (hno i len), fun b hb htrue => ?_,
      fun _ len _ hrun => absurd hrun (hno 0 len)⟩
    rw [hnone b hb] at htrue
    cases htrue
  · obtain ⟨⟨hscanned, hchosen⟩, hall⟩ := chosen_of_books hreq hends hbest.hole hij hle hperm
    have hpos := hbest.hole.pos
    refine ⟨fun a l ha hlt b hb => ?_, fun _ _ _ => ⟨i, len, hscanned, hbest⟩, ?_⟩
    · obtain ⟨hge, hle⟩ := hbest.shortest b req hb (Nat.le_refl _)
      rcases hchosen with ⟨hgreater, -⟩ | ⟨hmax, -⟩
      · omega
      · have hl := (hmax a l ha).1
        omega
    · intro hexcl len₀ hle₀ hrun₀
      by_contra hno
      have hshort : ∀ j l, j ≠ 0 → IsRun (f.allocatable reuse conflict) f.numBands j l →
          l < len₀ := fun j l hj hrun => Nat.lt_of_not_le fun hge => hno ⟨j, l, hj, hrun, hge⟩
      have hpos₀ := hrun₀.pos
      by_cases hi : i = 0
      · subst hi
        obtain ⟨-, rfl⟩ := hbest.hole.eq_of_mem hrun₀ (k := 0) ⟨Nat.le_refl 0, by omega⟩
          ⟨Nat.le_refl 0, by omega⟩
        rw [usable, if_pos ⟨hexcl, rfl⟩] at hall
        omega
      · have hlt := hshort i len hi hbest.hole
        rcases hchosen with ⟨hgreater, -⟩ | ⟨hmax, -⟩
        · omega
        · have hle := (hmax 0 len₀ ⟨hrun₀, by rw [hexcl]; exact nofun⟩).2
          omega

/-- **The hole fits best** iff the search passes no better one over. -/
theorem bestFit_iff (f : Subframe) (reuse : Bool) (conflict : MacNodeId → Bool) {req : ℕ}
    (hreq : 0 < req) :
    f.BooksBestFit reuse conflict req (f.bookedBands reuse conflict req) ↔
      f.SearchFits reuse conflict req :=
  ⟨fun h => .of_books hreq (ends hreq) h, fun h => h.books (ends hreq)⟩

/-- Three free bands for one block: the search goes back, and books the last one. -/
theorem bestFit_three : (initAndReset 3 []).BooksBestFit false (fun _ => false) 1
    ((initAndReset 3 []).bookedBands false (fun _ => false) 1) := by
  have hall : IsRun ((initAndReset 3 []).allocatable false fun _ => false) 3 0 3 :=
    mem_runs.1 (by decide)
  have honly : ∀ i len, IsRun ((initAndReset 3 []).allocatable false fun _ => false) 3 i len →
      i = 0 ∧ len = 3 := by
    intro i len h
    have hle := h.le
    have hpos := h.pos
    exact h.eq_of_mem hall (k := i) ⟨Nat.le_refl i, by omega⟩ ⟨Nat.zero_le i, by omega⟩
  refine (bestFit_iff _ false _ (by decide)).2 ⟨?_, ?_, ?_⟩
  · intro i len _ _ j h
    exact absurd (honly j 1 h).2 (by decide)
  · intro _ _ _
    refine ⟨0, 3, ⟨hall, nofun⟩, hall, fun j l h _ => ?_, fun hlt => absurd hlt (by decide)⟩
    exact ⟨by decide, (honly j l h).2.ge⟩
  · intro _ len hle h
    have hlen := (honly 0 len h).2
    omega

/-- Band 0 is the only one, and it is free: a connection that cannot share is given nothing.  Bands
0 and 1 are free, and bands 3 to 5: two blocks go into the longer hole. -/
theorem exact_fit_missed :
    ¬(initAndReset 1 []).BooksBestFit false (fun _ => false) 1
        ((initAndReset 1 []).bookedBands false (fun _ => false) 1) ∧
      ¬(initAndReset 6 [2]).BooksBestFit false (fun _ => false) 2
        ((initAndReset 6 [2]).bookedBands false (fun _ => false) 2) := by
  constructor
  · rintro (⟨hnone, -⟩ | ⟨i, len, j, hbest, -, -, hperm⟩)
    · exact absurd (hnone 0 (by decide)) (by decide)
    · have hlen := hperm.length_eq
      have hpos := hbest.hole.pos
      rw [List.length_range', show bookedBands _ _ _ _ = [] by decide, List.length_nil] at hlen
      omega
  · rintro (⟨hnone, -⟩ | ⟨i, len, j, hbest, hij, hle, hperm⟩)
    · exact absurd (hnone 0 (by decide)) (by decide)
    · have hexact : IsRun ((initAndReset 6 [2]).allocatable false fun _ => false) 6 0 2 :=
        mem_runs.1 (by decide)
      have hlonger : IsRun ((initAndReset 6 [2]).allocatable false fun _ => false) 6 3 3 :=
        mem_runs.1 (by decide)
      obtain ⟨hge, hle₂⟩ := hbest.shortest 0 2 hexact (Nat.le_refl 2)
      rw [show bookedBands _ _ _ _ = [5, 4] by decide] at hperm
      have hmem : j ∈ [5, 4] := hperm.symm.subset (List.mem_range'_1.2 ⟨Nat.le_refl j, by omega⟩)
      have hj : 3 ≤ j ∧ j < 3 + 3 := by
        rcases List.mem_cons.1 hmem with rfl | hmem
        · decide
        · rw [List.mem_singleton.1 hmem]
          decide
      obtain ⟨-, hlen⟩ := hbest.hole.eq_of_mem hlonger (k := j) ⟨hij, by omega⟩ hj
      omega

end Subframe

end V2nLte
