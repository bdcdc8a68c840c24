import V2nLte.Machine.Basic
import V2nLte.Machine.Passes
import V2nLte.Machine.OrderedMap
import Mathlib.Algebra.BigOperators.Group.List.Basic
import Mathlib.Algebra.Field.Defs
import Mathlib.Algebra.Order.Field.Rat
import Mathlib.Data.List.Infix
import Mathlib.Order.OrderDual

/-!
# The capture effect

Of the multicast frames that reach a UE in one TTI only one is decoded: that of the nearest sender,
or the one with the largest mean RSRP, according to `d2dMulticastCaptureEffectFactor`.
`storeAirFrame` keeps it while the frames come, `d2dDecodingTimer` takes it at the end.

One chain of conditions serves both.  When the distance counts the mean RSRP of a frame is `0`, so
a frame that is not nearer is still compared with the best mean of some earlier TTI (or with
whatever the member contained at the start); if that is negative, the frame takes the place of the
nearer one.

* `CaptureEffect.machine` : the frames of one TTI after the other.
* `CaptureEffect.captured_iff` : when a TTI decodes the right frame.
-/

namespace V2nLte

/-- What the capture effect reads of a multicast frame and its control info; `C` are the places. -/
structure LteAirFrame (C : Type) where
  /-- Frames are known by their numbers. -/
  id : ℕ
  /-- Where the sender is. -/
  coord : C
  /-- The blocks of the transmission, by their remote unit and their band. -/
  grantedBlocks : OrderedMap ℕ (OrderedMap ℕ ℕ)
  deriving DecidableEq

/-- A TTI as a UE sees it. -/
structure Tti (K C : Type) where
  /-- The parameter: `RSRP` or `Distance`. -/
  d2dMulticastCaptureEffectFactor : String
  /-- Where the UE is. -/
  coord : C
  /-- How far two places are apart. -/
  distance : C → C → K
  /-- The RSRP of a frame at this place, for each band. -/
  getRSRP_D2D : LteAirFrame C → C → List K
  /-- The multicast frames, as they come. -/
  frames : List (LteAirFrame C)

/-- What the capture effect uses of `LtePhyUeD2D`. -/
structure CaptureEffect (K C : Type) where
  /-- The distance of the frame that is kept. -/
  nearestDistance : K
  /-- The RSRP of the frame that is kept, by band. -/
  bestRsrpVector : List K
  /-- The mean of its RSRP. -/
  bestRsrpMean : K
  /-- The frames that are kept. -/
  d2dReceivedFrames : List (LteAirFrame C)
  /-- `d2dDecodingTimer` is scheduled. -/
  d2dDecodingTimer : Bool
  deriving DecidableEq

namespace CaptureEffect

section Misleading

variable {D : Type*} [LinearOrder D] {m d : D} {ds : List D}

/-- Distances that go down to `m`, and are not below it from there on, with a larger one right
behind it. -/
def Misleading (ds : List D) : Prop :=
  ∃ pre m d post, ds = pre ++ m :: d :: post ∧ (pre ++ [m]).Pairwise (· > ·) ∧ m < d ∧
    ∀ e ∈ post, m ≤ e

theorem not_misleading_singleton : ¬Misleading [m] := by
  rintro ⟨pre, m', d, post, heq, -⟩
  have hlen := congrArg List.length heq
  simp at hlen
  omega

theorem misleading_cons_iff :
    Misleading (m :: d :: ds) ↔ d < m ∧ Misleading (d :: ds) ∨ m < d ∧ ∀ e ∈ ds, m ≤ e := by
  constructor
  · rintro ⟨pre, m', d', post, heq, hdown, hlt, hpost⟩
    cases pre with
    | nil =>
      obtain ⟨hm, htail⟩ := List.cons.inj heq
      obtain ⟨hd, hds⟩ := List.cons.inj htail
      rw [hm, hd, hds]
      exact .inr ⟨hlt, hpost⟩
    | cons m₀ pre =>
      obtain ⟨hm, htail⟩ := List.cons.inj heq
      obtain ⟨hbelow, hdown⟩ := List.pairwise_cons.1 hdown
      refine .inl ⟨?_, pre, m', d', post, htail, hdown, hlt, hpost⟩
      -- `d` is the next on the way down
      rw [hm]
      cases pre with
      | nil =>
        rw [(List.cons.inj htail).1]
        exact hbelow m' List.mem_cons_self
      | cons d₀ pre =>
        rw [(List.cons.inj htail).1]
        exact hbelow d₀ List.mem_cons_self
  · rintro (⟨hlt, pre, m', d', post, heq, hdown, hlt', hpost⟩ | ⟨hlt, hpost⟩)
    · refine ⟨m :: pre, m', d', post, by rw [heq]; rfl, ?_, hlt', hpost⟩
      refine List.pairwise_cons.2 ⟨fun e he => ?_, hdown⟩
      have hfirst : ∀ e ∈ pre ++ [m'], e ≤ d := by
        intro e he
        cases pre with
        | nil =>
          rw [(List.cons.inj heq).1]
          exact (List.mem_singleton.1 he).le
        | cons d₀ pre =>
          rw [(List.cons.inj heq).1]
          rcases List.mem_cons.1 he with rfl | he
          · exact le_refl _
          · exact ((List.pairwise_cons.1 hdown).1 e he).le
      exact (hfirst e he).trans_lt hlt
    · exact ⟨[], m, d, ds, rfl, List.pairwise_singleton _ _, hlt, hpost⟩

end Misleading

variable {K C : Type} [Field K]

/-- The loop over the bands of one remote unit. -/
def sumBands (rsrpVector : List K) (acc : K × ℕ) (bands : OrderedMap ℕ ℕ) : Option (K × ℕ) :=
  bands.foldlM (fun acc jt =>
    if jt.2 = 0 then some acc  -- this block is not allocated
    else rsrpVector[jt.1]?.map fun rsrp => (acc.1 + rsrp, acc.2 + 1)) acc

/-- `rsrpMean`, the mean over the blocks that are allocated.  There is none if a band is out of
range, which `at` refuses, or if no block is allocated. -/
def rsrpMean (rsrpVector : List K) (rbmap : OrderedMap ℕ (OrderedMap ℕ ℕ)) : Option K := do
  let (sum, allocatedRbs) ← rbmap.foldlM (fun acc it => sumBands rsrpVector acc it.2) (0, 0)
  if allocatedRbs = 0 then none else return sum / allocatedRbs

/-- The bands of the blocks that are allocated. -/
def allocated (rbmap : OrderedMap ℕ (OrderedMap ℕ ℕ)) : List ℕ :=
  rbmap.flatMap fun it => (it.2.filter fun jt => jt.2 ≠ 0).map Prod.fst

/-- `x` is the mean RSRP of a frame over its allocated blocks. -/
def IsMean (t : Tti K C) (f : LteAirFrame C) (x : K) : Prop :=
  ∃ rs, (allocated f.grantedBlocks).mapM (fun band => (t.getRSRP_D2D f t.coord)[band]?) = some rs ∧
    rs ≠ [] ∧ x = rs.sum / rs.length

theorem sumBands_eq (rsrpVector : List K) (acc : K × ℕ) (bands : OrderedMap ℕ ℕ) :
    sumBands rsrpVector acc bands = ((bands.filter fun jt => jt.2 ≠ 0).map Prod.fst).foldlM
      (fun acc band => rsrpVector[band]?.map fun rsrp => (acc.1 + rsrp, acc.2 + 1)) acc := by
  unfold sumBands
  induction bands generalizing acc with
  | nil => rfl
  | cons jt bands ih =>
    rw [List.foldlM_cons, List.filter_cons]
    by_cases hjt : jt.2 = 0
    · rw [if_pos hjt, if_neg (by simp [hjt])]
      exact ih acc
    · rw [if_neg hjt, if_pos (by simp [hjt]), List.map_cons, List.foldlM_cons]
      congr 1
      funext acc
      exact ih acc

/-- The loops over the blocks add up what `at` finds. -/
theorem foldlM_sumBands (rsrpVector : List K) (acc : K × ℕ)
    (rbmap : OrderedMap ℕ (OrderedMap ℕ ℕ)) :
    rbmap.foldlM (fun acc it => sumBands rsrpVector acc it.2) acc =
      ((allocated rbmap).mapM fun band => rsrpVector[band]?).map
        fun rs => (acc.1 + rs.sum, acc.2 + rs.length) := by
  have hadd : ∀ (bands : List ℕ) (acc : K × ℕ), bands.foldlM
        (fun acc band => rsrpVector[band]?.map fun rsrp => (acc.1 + rsrp, acc.2 + 1)) acc =
      (bands.mapM fun band => rsrpVector[band]?).map
        fun rs => (acc.1 + rs.sum, acc.2 + rs.length) := by
    intro bands
    induction bands with
    | nil => simp
    | cons band bands ih =>
      intro acc
      rw [List.foldlM_cons, List.mapM_cons]
      cases hband : rsrpVector[band]? with
      | none => rfl
      | some rsrp =>
        show List.foldlM _ (acc.1 + rsrp, acc.2 + 1) bands = _
        rw [ih]
        cases bands.mapM fun band => rsrpVector[band]? with
        | none => rfl
        | some rs => simp [add_assoc, add_comm 1]
  rw [← hadd]
  induction rbmap generalizing acc with
  | nil => rfl
  | cons it rbmap ih =>
    rw [List.foldlM_cons, allocated, List.flatMap_cons, List.foldlM_append, sumBands_eq]
    congr 1
    funext acc
    exact ih acc

/-- What the loops compute is the mean. -/
theorem isMean_of_rsrpMean {t : Tti K C} {f : LteAirFrame C} {x : K}
    (h : rsrpMean (t.getRSRP_D2D f t.coord) f.grantedBlocks = some x) : IsMean t f x := by
  rw [rsrpMean, foldlM_sumBands] at h
  unfold IsMean
  cases hrs : (allocated f.grantedBlocks).mapM fun band => (t.getRSRP_D2D f t.coord)[band]? with
  | none =>
    rw [hrs] at h
    cases h
  | some rs =>
    rw [hrs] at h
    simp only [Option.map_some, bind, Option.bind_some, zero_add] at h
    split at h
    · cases h
    · rename_i hlen
      exact ⟨rs, rfl, List.length_pos_iff.1 (Nat.pos_of_ne_zero hlen), (Option.some.inj h).symm⟩

variable [LinearOrder K]

/-- `storeAirFrame`. -/
def storeAirFrame (t : Tti K C) (s : CaptureEffect K C) (newFrame : LteAirFrame C) :
    Option (CaptureEffect K C) := do
  let useRsrp := t.d2dMulticastCaptureEffectFactor == "RSRP"
  let rsrpVector := if useRsrp then t.getRSRP_D2D newFrame t.coord else []
  let rsrpMean ← if useRsrp then rsrpMean rsrpVector newFrame.grantedBlocks else some 0
  let distance := if useRsrp then 0 else t.distance t.coord newFrame.coord
  if !s.d2dReceivedFrames.isEmpty then
    -- the nearest sender so far
    if !useRsrp && distance < s.nearestDistance then
      return { s with
        nearestDistance := distance
        d2dReceivedFrames := s.d2dReceivedFrames.dropLast ++ [newFrame] }
    -- also tried without RSRP, where the mean is 0
    else if s.bestRsrpMean < rsrpMean then
      return { s with
        bestRsrpMean := rsrpMean, bestRsrpVector := rsrpVector
        d2dReceivedFrames := s.d2dReceivedFrames.dropLast ++ [newFrame] }
    else return s
  else if !useRsrp then
    return { s with
      nearestDistance := distance, d2dReceivedFrames := s.d2dReceivedFrames ++ [newFrame] }
  else
    return { s with
      bestRsrpMean := rsrpMean, bestRsrpVector := rsrpVector
      d2dReceivedFrames := s.d2dReceivedFrames ++ [newFrame] }

/-- `extractAirFrame`. -/
def extractAirFrame (s : CaptureEffect K C) : Option (LteAirFrame C) := s.d2dReceivedFrames.head?

/-- `handleAirFrame` for a multicast frame: the first of a TTI schedules the timer. -/
def handleAirFrame (t : Tti K C) (s : CaptureEffect K C) (frame : LteAirFrame C) :
    Option (CaptureEffect K C) :=
  storeAirFrame t { s with d2dDecodingTimer := true } frame

/-- `handleSelfMessage` for `d2dDecodingTimer`, with the frame that is decoded. -/
def handleSelfMessage (s : CaptureEffect K C) : Option (CaptureEffect K C × List (LteAirFrame C)) :=
  s.extractAirFrame.map fun frame =>
    ({ s with d2dReceivedFrames := [], d2dDecodingTimer := false }, [frame])

/-- The frames of a TTI are stored. -/
def storeAll (t : Tti K C) (s : CaptureEffect K C) (frames : List (LteAirFrame C)) :
    Option (CaptureEffect K C) :=
  frames.foldlM (handleAirFrame t) s

/-- The UE over TTIs.  The timer, if it is scheduled, fires as the last thing of a TTI. -/
def machine : Machine (CaptureEffect K C) (Tti K C) (LteAirFrame C) where
  step s t :=
    (storeAll t s t.frames).bind fun s =>
      if s.d2dDecodingTimer then s.handleSelfMessage else some (s, [])

/-- Nothing has been received in the TTI yet. -/
structure Idle (s : CaptureEffect K C) : Prop where
  /-- No frame is held. -/
  frames : s.d2dReceivedFrames = []
  /-- The decoding timer is not set. -/
  timer : s.d2dDecodingTimer = false

/-! ### What a TTI should decode -/

/-- How far away the sender of a frame is. -/
def senderDistance (t : Tti K C) (f : LteAirFrame C) : K := t.distance t.coord f.coord

/-- `g` is a frame that a TTI should decode. -/
structure IsBest (t : Tti K C) (g : LteAirFrame C) : Prop where
  mem : g ∈ t.frames
  nearest : t.d2dMulticastCaptureEffectFactor ≠ "RSRP" →
    ∀ f ∈ t.frames, senderDistance t g ≤ senderDistance t f
  strongest : t.d2dMulticastCaptureEffectFactor = "RSRP" →
    ∃ y, IsMean t g y ∧ ∀ f ∈ t.frames, ∃ x, IsMean t f x ∧ x ≤ y

/-- The TTI `t` goes as it should when it finds the UE in state `s`; it decodes `o`. -/
structure Captures (t : Tti K C) (s : CaptureEffect K C) (o : List (LteAirFrame C)) : Prop where
  /-- After every frame one frame is held. -/
  single : ∀ fs s', fs <+: t.frames → storeAll t s fs = some s' → s'.d2dReceivedFrames.length ≤ 1
  /-- The frame that is decoded is the best one of the TTI. -/
  decoded : ∃ s' g, storeAll t s t.frames = some s' ∧ s'.extractAirFrame = some g ∧ o = [g] ∧
    IsBest t g ∧
    (t.d2dMulticastCaptureEffectFactor = "RSRP" → s'.bestRsrpVector = t.getRSRP_D2D g t.coord)

variable {t : Tti K C} {s s' : CaptureEffect K C} {f g : LteAirFrame C}
  {fs o : List (LteAirFrame C)} {x m d : K} {ds : List K}

/-! ### One frame -/

/-- The frame `g` at the distance `m` is held. -/
structure HoldsNearest (s : CaptureEffect K C) (p : Kᵒᵈ × LteAirFrame C) : Prop where
  frames : s.d2dReceivedFrames = [p.2]
  nearest : s.nearestDistance = OrderDual.ofDual p.1

/-- The frame `p.2` with the mean RSRP `p.1` is held. -/
structure HoldsStrongest (t : Tti K C) (s : CaptureEffect K C) (p : K × LteAirFrame C) : Prop where
  frames : s.d2dReceivedFrames = [p.2]
  best : s.bestRsrpMean = p.1
  rsrpVector : s.bestRsrpVector = t.getRSRP_D2D p.2 t.coord
  mean : IsMean t p.2 p.1

theorem storeAirFrame_rsrp (ht : t.d2dMulticastCaptureEffectFactor = "RSRP") :
    storeAirFrame t s f =
      (rsrpMean (t.getRSRP_D2D f t.coord) f.grantedBlocks).map fun x =>
        if s.d2dReceivedFrames = [] ∨ s.bestRsrpMean < x then
          { s with
            bestRsrpMean := x, bestRsrpVector := t.getRSRP_D2D f t.coord
            d2dReceivedFrames := s.d2dReceivedFrames.dropLast ++ [f] }
        else s := by
  unfold storeAirFrame
  simp only [ht, beq_self_eq_true, if_true, Bool.not_true, Bool.false_and]
  cases rsrpMean (t.getRSRP_D2D f t.coord) f.grantedBlocks with
  | none => rfl
  | some x =>
    cases s.d2dReceivedFrames with
    | nil => simp
    | cons g gs =>
      simp only [List.isEmpty_cons, Bool.not_false, if_true, reduceCtorEq, false_or, if_false,
        Bool.false_eq_true, bind, Option.bind_some, Option.map_some, pure]
      split <;> rfl

theorem storeAirFrame_distance (ht : t.d2dMulticastCaptureEffectFactor ≠ "RSRP") :
    storeAirFrame t s f = some (
      if s.d2dReceivedFrames = [] ∨ senderDistance t f < s.nearestDistance then
        { s with
          nearestDistance := senderDistance t f
          d2dReceivedFrames := s.d2dReceivedFrames.dropLast ++ [f] }
      else if s.bestRsrpMean < 0 then
        { s with
          bestRsrpMean := 0, bestRsrpVector := []
          d2dReceivedFrames := s.d2dReceivedFrames.dropLast ++ [f] }
      else s) := by
  have ht : (t.d2dMulticastCaptureEffectFactor == "RSRP") = false := by simpa using ht
  unfold storeAirFrame senderDistance
  simp only [ht, Bool.not_false, Bool.true_and, bind, Option.bind_some]
  cases s.d2dReceivedFrames with
  | nil => simp
  | cons g gs =>
    simp only [List.isEmpty_cons, Bool.not_false, if_true, reduceCtorEq, false_or,
      Bool.false_eq_true, if_false, decide_eq_true_eq, pure]
    split
    · rfl
    · split <;> rfl

theorem handleAirFrame_eq :
    handleAirFrame t s f = storeAirFrame t { s with d2dDecodingTimer := true } f := rfl

theorem storeAll_cons : storeAll t s (f :: fs) =
    (handleAirFrame t s f).bind fun s => storeAll t s fs := rfl

/-- The newest frame takes the place of the one that is held. -/
theorem dropLast_concat_newest {gs : List (LteAirFrame C)} (h : gs.length ≤ 1) :
    gs.dropLast ++ [f] = [f] := by
  have hnil : gs.dropLast = [] := by
    rw [← List.length_eq_zero_iff, List.length_dropLast]
    omega
  rw [hnil, List.nil_append]

/-- A frame counts by its distance, the smaller the better. -/
def byDistance (t : Tti K C) (f : LteAirFrame C) : Kᵒᵈ × LteAirFrame C :=
  (OrderDual.toDual (senderDistance t f), f)

/-- While no mean is below `0`, the frame of the nearest sender is held. -/
theorem HoldsNearest.step (ht : t.d2dMulticastCaptureEffectFactor ≠ "RSRP")
    {p : Kᵒᵈ × LteAirFrame C} (h : HoldsNearest s p) (hbest : 0 ≤ s.bestRsrpMean) :
    ∃ s', handleAirFrame t s f = some s' ∧ HoldsNearest s' (better p (byDistance t f)) ∧
      0 ≤ s'.bestRsrpMean := by
  rw [handleAirFrame_eq, storeAirFrame_distance ht]
  refine ⟨_, rfl, ?_⟩
  have hiff : p.1 < (byDistance t f).1 ↔ senderDistance t f < s.nearestDistance := by
    rw [h.nearest]
    rfl
  by_cases hlt : senderDistance t f < s.nearestDistance
  · have hbetter : better p (byDistance t f) = byDistance t f := if_pos (hiff.2 hlt)
    rw [if_pos (.inr hlt), hbetter]
    refine ⟨⟨dropLast_concat_newest ?_, rfl⟩, hbest⟩
    rw [h.frames, List.length_singleton]
  · have hbetter : better p (byDistance t f) = p := if_neg fun hgt => hlt (hiff.1 hgt)
    rw [if_neg (by simp [h.frames, hlt]), if_neg (not_lt.2 hbest), hbetter]
    exact ⟨⟨h.frames, h.nearest⟩, hbest⟩

theorem HoldsNearest.run (fs : List (LteAirFrame C))
    (ht : t.d2dMulticastCaptureEffectFactor ≠ "RSRP")
    {p : Kᵒᵈ × LteAirFrame C} (h : HoldsNearest s p) (hbest : 0 ≤ s.bestRsrpMean) :
    ∃ s', storeAll t s fs = some s' ∧
      HoldsNearest s' ((fs.map (byDistance t)).foldl better p) := by
  induction fs generalizing s p with
  | nil => exact ⟨s, rfl, h⟩
  | cons f fs ih =>
    obtain ⟨s₁, hs₁, h₁, hbest₁⟩ := h.step (f := f) ht hbest
    obtain ⟨s₂, hs₂, h₂⟩ := ih h₁ hbest₁
    refine ⟨s₂, ?_, h₂⟩
    rw [storeAll_cons, hs₁]
    exact hs₂

/-- Among the frames that follow a nearer one than `m` is found, if there is one. -/
theorem HoldsNearest.kept (fs : List (LteAirFrame C))
    (ht : t.d2dMulticastCaptureEffectFactor ≠ "RSRP")
    (h : HoldsNearest s (OrderDual.toDual m, f)) (hbest : 0 ≤ s.bestRsrpMean) :
    ∃ s' g, storeAll t s fs = some s' ∧ s'.d2dReceivedFrames = [g] ∧
      (g = f ∧ (∀ e ∈ fs, m ≤ senderDistance t e) ∨
        g ∈ fs ∧ senderDistance t g < m ∧ ∀ e ∈ fs, senderDistance t g ≤ senderDistance t e) := by
  obtain ⟨s', hs', hframes', -⟩ := h.run fs ht hbest
  refine ⟨s', _, hs', hframes', ?_⟩
  have hmax := fun e he => mem_le_foldl_better (OrderDual.toDual m, f)
    (List.mem_map_of_mem (f := byDistance t) (l := fs) (a := e) he)
  rcases foldl_better_eq (OrderDual.toDual m, f) (fs.map (byDistance t)) with heq | ⟨hmem, hlt⟩
  · rw [heq] at hmax ⊢
    exact .inl ⟨rfl, hmax⟩
  · obtain ⟨g, hg, heq⟩ := List.mem_map.1 hmem
    rw [← heq] at hlt hmax ⊢
    exact .inr ⟨hg, hlt, hmax⟩

/-- By the mean RSRP the strongest frame is held. -/
theorem HoldsStrongest.step (ht : t.d2dMulticastCaptureEffectFactor = "RSRP")
    {p : K × LteAirFrame C} (h : HoldsStrongest t s p) (hst : handleAirFrame t s f = some s') :
    ∃ x, IsMean t f x ∧ HoldsStrongest t s' (better p (x, f)) := by
  rw [handleAirFrame_eq, storeAirFrame_rsrp ht] at hst
  obtain ⟨x, hx, rfl⟩ := Option.map_eq_some_iff.1 hst
  have hmean := isMean_of_rsrpMean hx
  refine ⟨x, hmean, ?_⟩
  by_cases hlt : s.bestRsrpMean < x
  · have hbetter : better p (x, f) = (x, f) := if_pos (h.best ▸ hlt)
    rw [if_pos (.inr hlt), hbetter]
    refine ⟨dropLast_concat_newest ?_, rfl, rfl, hmean⟩
    rw [h.frames, List.length_singleton]
  · have hbetter : better p (x, f) = p := if_neg (h.best ▸ hlt)
    rw [if_neg (by simp [h.frames, hlt]), hbetter]
    exact ⟨h.frames, h.best, h.rsrpVector, h.mean⟩

theorem HoldsStrongest.run (ht : t.d2dMulticastCaptureEffectFactor = "RSRP")
    {p : K × LteAirFrame C} (h : HoldsStrongest t s p) (hst : storeAll t s fs = some s') :
    ∃ xs : List (K × LteAirFrame C), xs.map Prod.snd = fs ∧ (∀ e ∈ xs, IsMean t e.2 e.1) ∧
      HoldsStrongest t s' (xs.foldl better p) := by
  induction fs generalizing s p with
  | nil =>
    obtain rfl := Option.some.inj hst
    exact ⟨[], rfl, nofun, h⟩
  | cons f fs ih =>
    rw [storeAll_cons] at hst
    obtain ⟨s₁, hs₁, hst⟩ := Option.bind_eq_some_iff.1 hst
    obtain ⟨x, hx, h₁⟩ := h.step ht hs₁
    obtain ⟨xs, hxs, hmean, h₂⟩ := ih h₁ hst
    exact ⟨(x, f) :: xs, by rw [List.map_cons, hxs], List.forall_mem_cons.2 ⟨hx, hmean⟩, h₂⟩

/-- With a mean below `0` left over, the frame that is held in the end is the nearest one exactly
if the distances are not misleading. -/
theorem HoldsNearest.run_of_neg (fs : List (LteAirFrame C))
    (ht : t.d2dMulticastCaptureEffectFactor ≠ "RSRP")
    (h : HoldsNearest s (byDistance t g)) (hbest : s.bestRsrpMean < 0) :
    ∃ s' g', storeAll t s fs = some s' ∧ s'.d2dReceivedFrames = [g'] ∧ g' ∈ g :: fs ∧
      ((∀ f ∈ g :: fs, senderDistance t g' ≤ senderDistance t f) ↔
        ¬Misleading (senderDistance t g :: fs.map (senderDistance t))) := by
  induction fs generalizing s g with
  | nil =>
    refine ⟨s, g, rfl, h.frames, List.mem_cons_self, iff_of_true ?_ not_misleading_singleton⟩
    intro f hf
    rw [List.mem_singleton.1 hf]
  | cons f fs ih =>
    rw [List.map_cons, misleading_cons_iff, storeAll_cons, handleAirFrame_eq,
      storeAirFrame_distance ht, Option.bind_some]
    dsimp only
    have hnearest : s.nearestDistance = senderDistance t g := h.nearest
    have hframes : s.d2dReceivedFrames.dropLast ++ [f] = [f] :=
      dropLast_concat_newest (by rw [h.frames, List.length_singleton])
    rw [hnearest, hframes]
    by_cases hlt : senderDistance t f < senderDistance t g
    · rw [if_pos (.inr hlt)]
      obtain ⟨s', g', hs', hg', hmem, hiff⟩ := ih (s := { s with
        nearestDistance := senderDistance t f, d2dReceivedFrames := [f]
        d2dDecodingTimer := true }) (g := f) ⟨rfl, rfl⟩ hbest
      refine ⟨s', g', hs', hg', List.mem_cons_of_mem g hmem, ?_⟩
      -- whatever is as near as `f` is nearer than `g`
      have hstep : (∀ e ∈ g :: f :: fs, senderDistance t g' ≤ senderDistance t e) ↔
          ∀ e ∈ f :: fs, senderDistance t g' ≤ senderDistance t e := by
        rw [List.forall_mem_cons (a := g)]
        exact and_iff_right_of_imp fun hall => (hall f List.mem_cons_self).trans hlt.le
      rw [hstep, hiff]
      refine not_congr ⟨fun hmis => .inl ⟨hlt, hmis⟩, fun hmis => ?_⟩
      exact hmis.elim And.right fun hgt => absurd hgt.1 (not_lt.2 hlt.le)
    · rw [if_neg (by simp [h.frames, hlt]), if_pos hbest]
      obtain ⟨s', g', hs', hg', hcases⟩ := HoldsNearest.kept fs (s := { s with
        nearestDistance := senderDistance t g, bestRsrpMean := 0, bestRsrpVector := []
        d2dReceivedFrames := [f], d2dDecodingTimer := true }) ht ⟨rfl, rfl⟩ (le_refl 0)
      refine ⟨s', g', hs', hg', ?_⟩
      -- the frame that is not nearer stays, unless one comes that is nearer than `g`
      rcases hcases with ⟨rfl, hpost⟩ | ⟨hmem, hnear, hmin⟩
      · refine ⟨List.mem_cons_of_mem g List.mem_cons_self, ?_⟩
        constructor
        · rintro hall (⟨hlt', -⟩ | ⟨hgt, -⟩)
          · exact hlt hlt'
          · exact not_lt.2 (hall g List.mem_cons_self) hgt
        · intro hnot
          have hle : senderDistance t g' ≤ senderDistance t g :=
            not_lt.1 fun hgt => hnot (.inr ⟨hgt, List.forall_mem_map.2 hpost⟩)
          refine List.forall_mem_cons.2 ⟨hle, List.forall_mem_cons.2 ⟨le_refl _, fun e he => ?_⟩⟩
          exact hle.trans (hpost e he)
      · refine ⟨List.mem_cons_of_mem g (List.mem_cons_of_mem f hmem), iff_of_true ?_ ?_⟩
        · refine List.forall_mem_cons.2 ⟨hnear.le, List.forall_mem_cons.2 ⟨?_, hmin⟩⟩
          exact hnear.le.trans (not_lt.1 hlt)
        · rintro (⟨hlt', -⟩ | ⟨-, hpost⟩)
          · exact hlt hlt'
          · exact not_lt.2 (hpost _ (List.mem_map_of_mem hmem)) hnear

/-! ### A TTI -/

theorem storeAirFrame_spec (h : storeAirFrame t s f = some s') :
    s'.d2dDecodingTimer = s.d2dDecodingTimer ∧
      (s.d2dReceivedFrames.length ≤ 1 → s'.d2dReceivedFrames.length ≤ 1) := by
  have hlength : s.d2dReceivedFrames.length ≤ 1 →
      (s.d2dReceivedFrames.dropLast ++ [f]).length ≤ 1 := by
    intro hle
    rw [dropLast_concat_newest hle, List.length_singleton]
  by_cases ht : t.d2dMulticastCaptureEffectFactor = "RSRP"
  · rw [storeAirFrame_rsrp ht] at h
    obtain ⟨x, -, rfl⟩ := Option.map_eq_some_iff.1 h
    split
    · exact ⟨rfl, hlength⟩
    · exact ⟨rfl, id⟩
  · rw [storeAirFrame_distance ht] at h
    obtain rfl := Option.some.inj h
    split
    · exact ⟨rfl, hlength⟩
    · split
      · exact ⟨rfl, hlength⟩
      · exact ⟨rfl, id⟩

theorem handleAirFrame_spec (h : handleAirFrame t s f = some s') :
    s'.d2dDecodingTimer = true ∧
      (s.d2dReceivedFrames.length ≤ 1 → s'.d2dReceivedFrames.length ≤ 1) :=
  storeAirFrame_spec (s := { s with d2dDecodingTimer := true }) h

theorem storeAll_spec (h : storeAll t s fs = some s') :
    (fs ≠ [] → s'.d2dDecodingTimer = true) ∧
      (s.d2dReceivedFrames.length ≤ 1 → s'.d2dReceivedFrames.length ≤ 1) := by
  -- once the timer is running, it is not stopped
  have hboth : (s.d2dDecodingTimer = true ∨ fs ≠ [] → s'.d2dDecodingTimer = true) ∧
      (s.d2dReceivedFrames.length ≤ 1 → s'.d2dReceivedFrames.length ≤ 1) := by
    induction fs generalizing s with
    | nil =>
      obtain rfl := Option.some.inj h
      exact ⟨fun h => h.resolve_right (not_not_intro rfl), id⟩
    | cons f fs ih =>
      rw [storeAll_cons] at h
      obtain ⟨s₁, hs₁, h⟩ := Option.bind_eq_some_iff.1 h
      obtain ⟨htimer, hlength⟩ := handleAirFrame_spec hs₁
      exact ⟨fun _ => (ih h).1 (.inl htimer), fun hle => (ih h).2 (hlength hle)⟩
  exact ⟨fun hne => hboth.1 (.inr hne), hboth.2⟩

/-- The first frame of a TTI is taken. -/
theorem Idle.first_nearest (h : s.Idle) (ht : t.d2dMulticastCaptureEffectFactor ≠ "RSRP") :
    ∃ s', handleAirFrame t s f = some s' ∧ HoldsNearest s' (byDistance t f) ∧
      s'.bestRsrpMean = s.bestRsrpMean := by
  rw [handleAirFrame_eq, storeAirFrame_distance ht, if_pos (.inl h.frames)]
  refine ⟨_, rfl, ⟨dropLast_concat_newest ?_, rfl⟩, rfl⟩
  rw [h.frames]
  exact Nat.zero_le 1

theorem Idle.first_strongest (h : s.Idle) (ht : t.d2dMulticastCaptureEffectFactor = "RSRP")
    (hst : handleAirFrame t s f = some s') : ∃ x, HoldsStrongest t s' (x, f) := by
  rw [handleAirFrame_eq, storeAirFrame_rsrp ht] at hst
  obtain ⟨x, hx, rfl⟩ := Option.map_eq_some_iff.1 hst
  rw [if_pos (.inl h.frames)]
  refine ⟨x, dropLast_concat_newest ?_, rfl, rfl, isMean_of_rsrpMean hx⟩
  rw [h.frames]
  exact Nat.zero_le 1

/-- What is held at the end of a TTI. -/
theorem Idle.held (h : s.Idle) (hne : t.frames ≠ []) (hst : storeAll t s t.frames = some s') :
    ∃ g, s'.d2dReceivedFrames = [g] ∧
      (IsBest t g ∧ (t.d2dMulticastCaptureEffectFactor = "RSRP" →
          s'.bestRsrpVector = t.getRSRP_D2D g t.coord) ↔
        t.d2dMulticastCaptureEffectFactor = "RSRP" ∨ 0 ≤ s.bestRsrpMean ∨
          ¬Misleading (t.frames.map (senderDistance t))) := by
  obtain ⟨f, fs, hfs⟩ := List.exists_cons_of_ne_nil hne
  rw [hfs, storeAll_cons] at hst
  -- with RSRP the strongest frame is held
  by_cases ht : t.d2dMulticastCaptureEffectFactor = "RSRP"
  · obtain ⟨s₁, hs₁, hst⟩ := Option.bind_eq_some_iff.1 hst
    obtain ⟨x, hfirst⟩ := h.first_strongest ht hs₁
    obtain ⟨xs, hxs, hmean, hheld⟩ := hfirst.run ht hst
    refine ⟨_, hheld.frames, iff_of_true ⟨⟨?_, absurd ht, fun _ => ⟨_, hheld.mean, ?_⟩⟩,
      fun _ => hheld.rsrpVector⟩ (.inl ht)⟩
    · rw [hfs, ← hxs]
      exact List.mem_map_of_mem (f := Prod.snd) (foldl_better_mem (x, f) xs)
    · rw [hfs, List.forall_mem_cons, ← hxs, List.forall_mem_map]
      exact ⟨⟨x, hfirst.mean, le_foldl_better (x, f) xs⟩,
        fun e he => ⟨e.1, hmean e he, mem_le_foldl_better (x, f) he⟩⟩
  · -- without it the nearest, unless the mean of 0 beats a negative one
    obtain ⟨s₁, hs₁, hfirst, hbest⟩ := h.first_nearest (f := f) ht
    rw [hs₁] at hst
    have hiff : ∀ g, (IsBest t g ∧ (t.d2dMulticastCaptureEffectFactor = "RSRP" →
        s'.bestRsrpVector = t.getRSRP_D2D g t.coord)) ↔
        g ∈ f :: fs ∧ ∀ e ∈ f :: fs, senderDistance t g ≤ senderDistance t e := by
      intro g
      rw [← hfs]
      exact ⟨fun hg => ⟨hg.1.mem, hg.1.nearest ht⟩,
        fun hg => ⟨⟨hg.1, fun _ => hg.2, fun h => absurd h ht⟩, fun h => absurd h ht⟩⟩
    rcases le_or_gt 0 s.bestRsrpMean with hnonneg | hneg
    · obtain ⟨s₂, g, hs₂, hg, hcases⟩ := hfirst.kept fs ht (hbest ▸ hnonneg)
      obtain rfl := Option.some.inj (hs₂.symm.trans hst)
      refine ⟨g, hg, iff_of_true ((hiff g).2 ?_) (.inr (.inl hnonneg))⟩
      rcases hcases with ⟨rfl, hmin⟩ | ⟨hmem, hlt, hmin⟩
      · exact ⟨List.mem_cons_self, List.forall_mem_cons.2 ⟨le_refl _, hmin⟩⟩
      · exact ⟨List.mem_cons_of_mem f hmem, List.forall_mem_cons.2 ⟨hlt.le, hmin⟩⟩
    · obtain ⟨s₂, g, hs₂, hg, hmem, hmis⟩ := hfirst.run_of_neg fs ht (hbest ▸ hneg)
      obtain rfl := Option.some.inj (hs₂.symm.trans hst)
      refine ⟨g, hg, (hiff g).trans ?_⟩
      rw [and_iff_right hmem, hmis, or_iff_right ht, or_iff_right (not_le.2 hneg), hfs,
        List.map_cons]

/-- **A TTI decodes the right frame** unless the distances mislead it. -/
theorem Idle.step (h : s.Idle) (hst : machine.step s t = some (s', o)) :
    s'.Idle ∧ (t.frames ≠ [] → (Captures t s o ↔
      t.d2dMulticastCaptureEffectFactor = "RSRP" ∨ 0 ≤ s.bestRsrpMean ∨
        ¬Misleading (t.frames.map (senderDistance t)))) := by
  obtain ⟨s₁, hs₁, hend⟩ := Option.bind_eq_some_iff.1 hst
  by_cases hne : t.frames = []
  · rw [hne] at hs₁
    obtain rfl := Option.some.inj hs₁
    rw [h.timer, if_neg Bool.false_ne_true] at hend
    obtain ⟨rfl, -⟩ := Prod.mk.inj (Option.some.inj hend)
    exact ⟨h, absurd hne⟩
  · obtain ⟨g, hg, hiff⟩ := h.held hne hs₁
    have hextract : s₁.extractAirFrame = some g := by rw [extractAirFrame, hg]; rfl
    rw [(storeAll_spec hs₁).1 hne, if_pos rfl, handleSelfMessage, hextract] at hend
    obtain ⟨rfl, rfl⟩ := Prod.mk.inj (Option.some.inj hend)
    refine ⟨⟨rfl, rfl⟩, fun _ => ?_⟩
    rw [← hiff]
    constructor
    · rintro ⟨-, s₂, g', hs₂, hextract', -, hbest, hvector⟩
      obtain rfl := Option.some.inj (hs₁.symm.trans hs₂)
      obtain rfl := Option.some.inj (hextract.symm.trans hextract')
      exact ⟨hbest, hvector⟩
    · rintro ⟨hbest, hvector⟩
      refine ⟨fun fs s₂ _ hs₂ => (storeAll_spec hs₂).2 ?_,
        s₁, g, hs₁, hextract, rfl, hbest, hvector⟩
      rw [h.frames]
      exact Nat.zero_le 1

/-- **When the capture effect keeps the right frame.**  In every run, whatever the members contain
at the start, a TTI in which frames arrive decodes one of them; it never holds more than one, the
one that is decoded is the best, and by the RSRP `bestRsrpVector_` is its vector, if and only if
the RSRP counts, or the best mean left over from before is not negative, or the distances are not
misleading. -/
theorem captured_iff {s₀ : CaptureEffect K C} (h₀ : s₀.Idle) {ts : List (Tti K C)}
    (ht : machine.Takes s₀ ts s t s' o) (hne : t.frames ≠ []) :
    Captures t s o ↔ t.d2dMulticastCaptureEffectFactor = "RSRP" ∨ 0 ≤ s.bestRsrpMean ∨
      ¬Misleading (t.frames.map (senderDistance t)) := by
  obtain ⟨es₁, -, os, -, hex, hst⟩ := ht
  have hidle : s.Idle := Machine.exec_invariant h₀ (fun _ _ _ _ hidle hst => (hidle.step hst).1) hex
  exact (hidle.step hst).2 hne

/-- A TTI in which a frame comes from as far away as each of `senders`. -/
def ttiOf (factor : String) (senders : List ℕ) : Tti ℚ ℕ where
  d2dMulticastCaptureEffectFactor := factor
  coord := 0
  distance x y := y - x
  getRSRP_D2D _ _ := [-100]
  frames := senders.map fun coord => ⟨coord, coord, [(0, [(0, 1)])]⟩

/-- A UE at the start. -/
def fresh : CaptureEffect ℚ ℕ := ⟨0, [], 0, [], false⟩

/-- A UE that has decoded a frame with the mean RSRP -100. -/
def afterRsrp : CaptureEffect ℚ ℕ := ⟨0, [-100], -100, [], false⟩

theorem exec_afterRsrp :
    machine.exec fresh [ttiOf "RSRP" [7]] = some (afterRsrp, (ttiOf "RSRP" [7]).frames) := by
  decide +kernel

theorem captured_nearer : Captures (ttiOf "distance" [2, 1]) afterRsrp
      (ttiOf "distance" [1]).frames ↔
    "distance" = "RSRP" ∨ 0 ≤ afterRsrp.bestRsrpMean ∨
      ¬Misleading ((ttiOf "distance" [2, 1]).frames.map
        (senderDistance (ttiOf "distance" [2, 1]))) := by
  have hfresh : fresh.Idle := ⟨rfl, rfl⟩
  have ht : machine.Takes fresh [ttiOf "RSRP" [7], ttiOf "distance" [2, 1]] afterRsrp
      (ttiOf "distance" [2, 1]) { afterRsrp with nearestDistance := 1 }
      (ttiOf "distance" [1]).frames :=
    ⟨[ttiOf "RSRP" [7]], [], _, rfl, exec_afterRsrp, by decide +kernel⟩
  exact captured_iff hfresh ht nofun

/-- The second of two frames is decoded, though its sender is farther away. -/
theorem farther_decoded : ∃ s',
    machine.Takes fresh [ttiOf "RSRP" [7], ttiOf "distance" [1, 2]] afterRsrp
      (ttiOf "distance" [1, 2]) s' (ttiOf "distance" [2]).frames ∧
    ¬Captures (ttiOf "distance" [1, 2]) afterRsrp (ttiOf "distance" [2]).frames := by
  refine ⟨⟨1, [], 0, [], false⟩,
    ⟨[ttiOf "RSRP" [7]], [], _, rfl, exec_afterRsrp, by decide +kernel⟩, ?_⟩
  rintro ⟨-, s₁, g, -, -, hg, hbest, -⟩
  obtain rfl := List.singleton_inj.1 hg
  have hle := hbest.nearest (by decide) ⟨1, 1, [(0, [(0, 1)])]⟩ List.mem_cons_self
  exact absurd hle (by decide +kernel)

end CaptureEffect

end V2nLte
