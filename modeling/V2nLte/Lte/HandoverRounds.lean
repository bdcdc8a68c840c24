import V2nLte.Lte.Handover
import Mathlib.Data.List.Nodup

/-!
# Which cell a handover goes to

The broadcasts of a round come one after the other.  A UE compares each with the candidate; but a
broadcast of the master that is not stronger replaces the RSSI of the candidate, while the
candidate itself stays another eNB, and one of the candidate that is not stronger is not noted.

* `round_iff` : without a hysteresis a round goes out as it should iff its order does no harm.
* `Hearing.never_weaker_iff` : no handover of a run goes to a weaker cell iff every broadcast of it
  is judged as it should be.
-/

namespace V2nLte

namespace LtePhyUe

variable {s : LtePhyUe}

/-! ### A round of broadcasts -/

/-- The broadcasts of a round. -/
abbrev Round := List (MacNodeId × ℚ)

/-- All the broadcasts of a round are heard. -/
def hearRound (s : LtePhyUe) (rs : Round) : LtePhyUe :=
  rs.foldl (fun s b => s.handoverHandler b.1 b.2) s

/-- There is no hysteresis. -/
structure Plain (s : LtePhyUe) : Prop where
  /-- Handovers are enabled. -/
  enableHandover : s.enableHandover = true
  /-- The factor is `0`, so that no threshold is computed. -/
  hysteresisFactor : s.hysteresisFactor = 0
  /-- The threshold is `0`. -/
  hysteresisTh : s.hysteresisTh = 0

/-- Where the UE is when it has heard some eNBs other than its master. -/
structure HeardOthers (s : LtePhyUe) (rs : Round) (s' : LtePhyUe) : Prop where
  plain : s'.Plain
  masterId : s'.masterId = s.masterId
  /-- None was stronger than the candidate, or the strongest is the candidate now. -/
  candidate : (∀ b ∈ rs, b.2 ≤ s.candidateMasterRssi) ∧
      s'.candidateMasterRssi = s.candidateMasterRssi ∧
      s'.candidateMasterId = s.candidateMasterId ∧ s'.handoverStarter = s.handoverStarter ∨
    ∃ b ∈ rs, s.candidateMasterRssi < b.2 ∧ (∀ b' ∈ rs, b'.2 ≤ b.2) ∧
      s'.candidateMasterRssi = b.2 ∧ s'.candidateMasterId = b.1 ∧ s'.handoverStarter = true

theorem heardOthers (hs : s.Plain) (rs : Round)
    (hrs : ∀ b ∈ rs, b.1 ≠ s.masterId ∧ getNodeTypeById b.1 = .ENODEB) :
    HeardOthers s rs (s.hearRound rs) := by
  induction rs generalizing s with
  | nil => exact ⟨hs, rfl, .inl ⟨nofun, rfl, rfl, rfl⟩⟩
  | cons b rs ih =>
    obtain ⟨⟨hother, henb⟩, hrs⟩ := List.forall_mem_cons.1 hrs
    have hhandler : s.handoverHandler b.1 b.2 =
        if s.candidateMasterRssi < b.2 then
          { s with
            candidateMasterId := b.1, candidateMasterRssi := b.2
            hysteresisTh := 0, handoverStarter := true }
        else s := by
      rw [handoverHandler, hs.enableHandover, hs.hysteresisTh, add_zero, if_neg hother,
        if_neg (not_not_intro henb), if_neg hother, updateHysteresisTh, if_pos hs.hysteresisFactor]
      rfl
    change HeardOthers s (b :: rs) ((s.handoverHandler b.1 b.2).hearRound rs)
    rw [hhandler]
    by_cases hlt : s.candidateMasterRssi < b.2
    · rw [if_pos hlt]
      have hrest := ih (s := { s with
        candidateMasterId := b.1, candidateMasterRssi := b.2
        hysteresisTh := 0, handoverStarter := true }) ⟨hs.enableHandover, hs.hysteresisFactor, rfl⟩
        hrs
      refine ⟨hrest.plain, hrest.masterId, .inr ?_⟩
      rcases hrest.candidate with ⟨hle, hrssi, hid, hstarter⟩ | ⟨b', hb', hlt', hmax, hcand⟩
      · exact ⟨b, List.mem_cons_self, hlt, List.forall_mem_cons.2 ⟨le_refl _, hle⟩, hrssi, hid,
          hstarter⟩
      · exact ⟨b', List.mem_cons_of_mem b hb', hlt.trans hlt',
          List.forall_mem_cons.2 ⟨hlt'.le, hmax⟩, hcand⟩
    · rw [if_neg hlt]
      have hrest := ih hs hrs
      refine ⟨hrest.plain, hrest.masterId, ?_⟩
      rcases hrest.candidate with ⟨hle, hsame⟩ | ⟨b', hb', hlt', hmax, hcand⟩
      · exact .inl ⟨List.forall_mem_cons.2 ⟨not_lt.1 hlt, hle⟩, hsame⟩
      · exact .inr ⟨b', List.mem_cons_of_mem b hb', hlt',
          List.forall_mem_cons.2 ⟨(not_lt.1 hlt).trans hlt'.le, hmax⟩, hcand⟩

/-- Where the UE is when it has heard its master too. -/
structure HeardMaster (s : LtePhyUe) (pre : Round) (m : ℚ) (s' : LtePhyUe) : Prop where
  plain : s'.Plain
  masterId : s'.masterId = s.masterId
  candidateMasterRssi : s'.candidateMasterRssi = m
  candidate : s'.handoverStarter = false ∧
      ((∀ b ∈ pre, b.2 ≤ s.candidateMasterRssi) ∨ ∀ b ∈ pre, b.2 < m) ∨
    ∃ b ∈ pre, s.candidateMasterRssi < b.2 ∧ m ≤ b.2 ∧ (∀ b' ∈ pre, b'.2 ≤ b.2) ∧
      s'.candidateMasterId = b.1 ∧ s'.handoverStarter = true

theorem heardMaster (hs : s.Plain) (hstarter : s.handoverStarter = false) {pre : Round} {m : ℚ}
    (hpre : ∀ b ∈ pre, b.1 ≠ s.masterId ∧ getNodeTypeById b.1 = .ENODEB) :
    HeardMaster s pre m ((s.hearRound pre).handoverHandler s.masterId m) := by
  obtain ⟨hplain, hmaster, hcand⟩ := heardOthers hs pre hpre
  generalize s.hearRound pre = s₁ at hplain hmaster hcand
  have hth : s₁.updateHysteresisTh m = 0 := if_pos hplain.hysteresisFactor
  rw [handoverHandler, hplain.enableHandover, hplain.hysteresisTh, add_zero, ← hmaster,
    if_pos rfl, if_pos rfl, hth, Bool.not_true, if_neg Bool.false_ne_true]
  by_cases hlt : s₁.candidateMasterRssi < m
  · rw [if_pos hlt]
    refine ⟨⟨rfl, hplain.hysteresisFactor, rfl⟩, hmaster, rfl, .inl ⟨rfl, ?_⟩⟩
    rcases hcand with ⟨hle, -⟩ | ⟨b, -, -, hmax, hrssi, -⟩
    · exact .inl hle
    · exact .inr fun b' hb' => (hmax b' hb').trans_lt (hrssi ▸ hlt)
  · rw [if_neg hlt]
    refine ⟨⟨rfl, hplain.hysteresisFactor, rfl⟩, hmaster, rfl, ?_⟩
    rcases hcand with ⟨hle, -, -, hstarter'⟩ | ⟨b, hb, hlt', hmax, hrssi, hid, hstarter'⟩
    · exact .inl ⟨hstarter'.trans hstarter, .inl hle⟩
    · exact .inr ⟨b, hb, hlt', hrssi ▸ not_lt.1 hlt, hmax, hid, hstarter'⟩

/-- A round in which every eNB is heard once, the master between `pre` and `post`; no two have the
same RSSI. -/
structure RoundOf (s : LtePhyUe) (pre : Round) (m : ℚ) (post : Round) : Prop where
  /-- Every eNB is heard once. -/
  nodup : ((pre ++ (s.masterId, m) :: post).map Prod.fst).Nodup
  /-- No two have the same RSSI. -/
  distinct : ((pre ++ (s.masterId, m) :: post).map Prod.snd).Nodup
  /-- Only eNBs are heard. -/
  enbs : ∀ b ∈ pre ++ (s.masterId, m) :: post, getNodeTypeById b.1 = .ENODEB

/-- A round goes out as it should: a handover starts iff some eNB is stronger than the master, to
the strongest one. -/
def GoesOut (s' : LtePhyUe) (rs : Round) (m : ℚ) : Prop :=
  (s'.handoverStarter = true ↔ ∃ b ∈ rs, m < b.2) ∧
    ((∃ b ∈ rs, m < b.2) → ∃ b ∈ rs, s'.candidateMasterId = b.1 ∧ ∀ b' ∈ rs, b'.2 ≤ b.2)

/-- The order of a round does no harm. -/
def Harmless (s : LtePhyUe) (pre : Round) (m : ℚ) (post : Round) : Prop :=
  (∀ b ∈ pre, b.2 < m) ∨ (∃ b' ∈ post, ∀ b ∈ pre, b.2 < b'.2) ∨
    ((∃ b ∈ pre, s.candidateMasterRssi < b.2) ∧ ∀ b ∈ post, b.2 < m)

variable {pre post : Round} {m : ℚ}

namespace RoundOf

theorem others (h : RoundOf s pre m post) :
    (∀ b ∈ pre, b.1 ≠ s.masterId ∧ getNodeTypeById b.1 = .ENODEB) ∧
      ∀ b ∈ post, b.1 ≠ s.masterId ∧ getNodeTypeById b.1 = .ENODEB := by
  have hnodup := h.nodup
  rw [List.map_append, List.map_cons, List.nodup_append, List.nodup_cons] at hnodup
  obtain ⟨-, ⟨hpost, -⟩, hpre⟩ := hnodup
  refine ⟨fun b hb => ⟨?_, h.enbs b (List.mem_append_left _ hb)⟩, fun b hb => ⟨?_, ?_⟩⟩
  · exact hpre b.1 (List.mem_map_of_mem hb) s.masterId List.mem_cons_self
  · have hmem : b.1 ∈ post.map Prod.fst := List.mem_map_of_mem hb
    exact fun heq => hpost (heq ▸ hmem)
  · exact h.enbs b (List.mem_append_right _ (List.mem_cons_of_mem _ hb))

theorem ne (h : RoundOf s pre m post) :
    (∀ b ∈ pre, b.2 ≠ m) ∧ (∀ b ∈ post, b.2 ≠ m) ∧ ∀ b ∈ pre, ∀ b' ∈ post, b.2 ≠ b'.2 := by
  have hdistinct := h.distinct
  rw [List.map_append, List.map_cons, List.nodup_append, List.nodup_cons] at hdistinct
  obtain ⟨-, ⟨hpost, -⟩, hpre⟩ := hdistinct
  refine ⟨fun b hb => ?_, fun b hb => ?_, fun b hb b' hb' => ?_⟩
  · exact hpre b.2 (List.mem_map_of_mem hb) m List.mem_cons_self
  · have hmem : b.2 ∈ post.map Prod.snd := List.mem_map_of_mem hb
    exact fun heq => hpost (heq ▸ hmem)
  · exact hpre b.2 (List.mem_map_of_mem hb) b'.2 (List.mem_cons_of_mem _ (List.mem_map_of_mem hb'))

theorem eq_of_fst (h : RoundOf s pre m post) {b b' : MacNodeId × ℚ}
    (hb : b ∈ pre ++ (s.masterId, m) :: post) (hb' : b' ∈ pre ++ (s.masterId, m) :: post)
    (heq : b.1 = b'.1) : b = b' := List.inj_on_of_nodup_map h.nodup hb hb' heq

end RoundOf

/-- How a round goes out if no eNB behind the master was stronger than it, and no handover had been
started. -/
theorem goesOut_iff_of_off {s' : LtePhyUe} (hround : RoundOf s pre m post)
    (hstarter : s'.handoverStarter = false) (hpost : ∀ b ∈ post, b.2 < m) :
    GoesOut s' (pre ++ (s.masterId, m) :: post) m ↔ ∀ b ∈ pre, b.2 < m := by
  have hoff : ¬s'.handoverStarter = true := Bool.eq_false_iff.1 hstarter
  constructor
  · rintro ⟨hstarts, -⟩ b hb
    refine lt_of_le_of_ne (not_lt.1 fun hlt => ?_) (hround.ne.1 b hb)
    exact hoff (hstarts.2 ⟨b, List.mem_append_left _ hb, hlt⟩)
  · intro hpre
    have hnone : ¬∃ b ∈ pre ++ (s.masterId, m) :: post, m < b.2 := by
      rintro ⟨b, hb, hlt⟩
      rcases List.mem_append.1 hb with hb | hb
      · exact lt_asymm hlt (hpre b hb)
      · rcases List.mem_cons.1 hb with rfl | hb
        · exact lt_irrefl _ hlt
        · exact lt_asymm hlt (hpost b hb)
    exact ⟨iff_of_false hoff hnone, fun hex => absurd hex hnone⟩

/-- If no eNB behind the master was stronger than it, the strongest one before it stays the
candidate. -/
theorem goesOut_of_kept {s' : LtePhyUe} {b : MacNodeId × ℚ} (hb : b ∈ pre) (hmb : m < b.2)
    (hmax : ∀ b' ∈ pre, b'.2 ≤ b.2) (hpost : ∀ b ∈ post, b.2 < m)
    (hid : s'.candidateMasterId = b.1) (hstarter : s'.handoverStarter = true) :
    GoesOut s' (pre ++ (s.masterId, m) :: post) m := by
  have hmem : b ∈ pre ++ (s.masterId, m) :: post := List.mem_append_left _ hb
  refine ⟨iff_of_true hstarter ⟨b, hmem, hmb⟩, fun _ => ⟨b, hmem, hid, fun b' hb' => ?_⟩⟩
  rcases List.mem_append.1 hb' with hb' | hb'
  · exact hmax b' hb'
  · rcases List.mem_cons.1 hb' with rfl | hb'
    · exact hmb.le
    · exact ((hpost b' hb').trans hmb).le

/-- If an eNB behind the master was stronger than it, the strongest of those becomes the
candidate, whatever was heard before. -/
theorem goesOut_iff_of_last {s' : LtePhyUe} (hround : RoundOf s pre m post) {b : MacNodeId × ℚ}
    (hb : b ∈ post) (hmb : m < b.2) (hmax : ∀ b' ∈ post, b'.2 ≤ b.2)
    (hid : s'.candidateMasterId = b.1) (hstarter : s'.handoverStarter = true) :
    GoesOut s' (pre ++ (s.masterId, m) :: post) m ↔ ∀ b' ∈ pre, b'.2 < b.2 := by
  have hmem : b ∈ pre ++ (s.masterId, m) :: post :=
    List.mem_append_right _ (List.mem_cons_of_mem _ hb)
  constructor
  · rintro ⟨-, hbest⟩ b' hb'
    obtain ⟨b'', hb'', hid'', hbest⟩ := hbest ⟨b, hmem, hmb⟩
    obtain rfl := hround.eq_of_fst hb'' hmem (hid''.symm.trans hid)
    exact lt_of_le_of_ne (hbest b' (List.mem_append_left _ hb')) (hround.ne.2.2 b' hb' b'' hb)
  · intro hlt
    refine ⟨iff_of_true hstarter ⟨b, hmem, hmb⟩, fun _ => ⟨b, hmem, hid, fun b' hb' => ?_⟩⟩
    rcases List.mem_append.1 hb' with hb' | hb'
    · exact (hlt b' hb').le
    · rcases List.mem_cons.1 hb' with rfl | hb'
      · exact hmb.le
      · exact hmax b' hb'

/-- **A round goes out as it should** iff its order does no harm. -/
theorem round_iff (hs : s.Plain) (hidle : s.Idle) (hround : RoundOf s pre m post) :
    GoesOut (s.hearRound (pre ++ (s.masterId, m) :: post)) (pre ++ (s.masterId, m) :: post) m ↔
      Harmless s pre m post := by
  obtain ⟨hpre, hpost⟩ := hround.others
  obtain ⟨hne, hne', -⟩ := hround.ne
  obtain ⟨hplain, hmaster, hrssi, hcand⟩ := heardMaster (m := m) hs hidle.starter hpre
  have hhear : s.hearRound (pre ++ (s.masterId, m) :: post) =
      ((s.hearRound pre).handoverHandler s.masterId m).hearRound post := by
    rw [hearRound, List.foldl_append]
    rfl
  rw [hhear]
  generalize (s.hearRound pre).handoverHandler s.masterId m = s₂ at *
  obtain ⟨-, -, hfinal⟩ := heardOthers hplain post (by rw [hmaster]; exact hpost)
  rw [hrssi] at hfinal
  rcases hfinal with ⟨hle, -, hid, hstarter⟩ | ⟨b', hb', hlt', hmax', -, hid, hstarter⟩
  · have hlt : ∀ b ∈ post, b.2 < m := fun b hb => lt_of_le_of_ne (hle b hb) (hne' b hb)
    rcases hcand with ⟨hoff, hreason⟩ | ⟨b, hb, hltb, hmb, hmax, hid₂, hon⟩
    · rw [goesOut_iff_of_off hround (hstarter.trans hoff) hlt]
      constructor
      · exact .inl
      · rintro (hpre_lt | ⟨b', hb', hpre_lt⟩ | ⟨⟨b, hb, hltb⟩, -⟩)
        · exact hpre_lt
        · exact fun b hb => (hpre_lt b hb).trans (hlt b' hb')
        · rcases hreason with hle | hpre_lt
          · exact absurd hltb (not_lt.2 (hle b hb))
          · exact hpre_lt
    · have hmb : m < b.2 := lt_of_le_of_ne hmb (hne b hb).symm
      exact iff_of_true (goesOut_of_kept hb hmb hmax hlt (hid.trans hid₂) (hstarter.trans hon))
        (.inr (.inr ⟨⟨b, hb, hltb⟩, hlt⟩))
  · rw [goesOut_iff_of_last hround hb' hlt' hmax' hid hstarter]
    constructor
    · exact fun hlt => .inr (.inl ⟨b', hb', hlt⟩)
    · rintro (hlt | ⟨b'', hb'', hlt⟩ | ⟨-, hlt⟩) b hb
      · exact (hlt b hb).trans hlt'
      · exact (hlt b hb).trans_le (hmax' b'' hb'')
      · exact absurd (hlt b' hb') (lt_asymm hlt')

/-- A UE without hysteresis whose master had the RSSI 10. -/
def unhurried : LtePhyUe where
  hysteresisFactor := 0
  masterId := 1
  candidateMasterId := 1
  currentMasterRssi := 10
  candidateMasterRssi := 10

theorem round_strongestLast : GoesOut (unhurried.hearRound [(3, 30), (1, 20), (2, 50)])
    [(3, 30), (1, 20), (2, 50)] 20 := by
  have hround : RoundOf unhurried [(3, 30)] 20 [(2, 50)] :=
    ⟨by decide +kernel, by decide +kernel, by decide⟩
  exact (round_iff ⟨rfl, rfl, rfl⟩ ⟨rfl, rfl, rfl⟩ hround).2
    (.inr (.inl ⟨(2, 50), by decide +kernel, by decide +kernel⟩))

/-- In the opposite order the UE ends with the eNB 3 as its candidate. -/
theorem strongest_forgotten : RoundOf unhurried [(2, 50)] 20 [(3, 30)] ∧
    ¬GoesOut (unhurried.hearRound [(2, 50), (1, 20), (3, 30)]) [(2, 50), (1, 20), (3, 30)] 20 := by
  refine ⟨⟨by decide +kernel, by decide +kernel, by decide⟩, ?_⟩
  unfold GoesOut
  decide +kernel

/-! ### Any broadcasts -/

/-- The module, with the RSSI that each node has last been heard with. -/
structure Hearing where
  /-- The module. -/
  phy : LtePhyUe
  /-- The RSSI of each node at its last broadcast. -/
  lastHeard : MacNodeId → Option ℚ := fun _ => none

namespace Hearing

variable (h : Hearing)

/-- What has been heard after an event. -/
def hear : Event → MacNodeId → Option ℚ
  | .handoverPacket src _ rssi => Function.update h.lastHeard src (some rssi)
  | _ => h.lastHeard

/-- The module as a machine. -/
def machine : Machine Hearing Event HandoverReturn where
  step h e := (LtePhyUe.machine.step h.phy e).map fun r => (⟨r.1, h.hear e⟩, r.2)

/-- If `triggerHandover` is run next, then the candidate has last been heard with a larger RSSI
than the master. -/
def Stronger : Prop :=
  h.phy.handoverStarter = true → ∀ c m, h.lastHeard h.phy.candidateMasterId = some c →
    h.lastHeard h.phy.masterId = some m → m < c

/-- A broadcast is taken for one of a stronger eNB. -/
def Accepts (src : MacNodeId) (present : Bool) (rssi : ℚ) : Prop :=
  h.phy.enableHandover = true ∧ present = true ∧ h.phy.handoverTrigger = false ∧
    h.phy.candidateMasterRssi + h.phy.hysteresisTh < rssi ∧
    (src = h.phy.masterId ∨ getNodeTypeById src = .ENODEB)

instance (src : MacNodeId) (present : Bool) (rssi : ℚ) :
    Decidable (h.Accepts src present rssi) := inferInstanceAs (Decidable (_ ∧ _))

/-- The broadcast of another eNB is stronger than the master was. -/
def AboveMaster (rssi : ℚ) : Prop := ∀ m ∈ h.lastHeard h.phy.masterId, m < rssi

instance (rssi : ℚ) : Decidable (h.AboveMaster rssi) :=
  inferInstanceAs (Decidable (∀ m ∈ h.lastHeard h.phy.masterId, m < rssi))

/-- The broadcast of the master is weaker than the candidate was. -/
def BelowCandidate (rssi : ℚ) : Prop := ∀ c ∈ h.lastHeard h.phy.candidateMasterId, rssi < c

instance (rssi : ℚ) : Decidable (h.BelowCandidate rssi) :=
  inferInstanceAs (Decidable (∀ c ∈ h.lastHeard h.phy.candidateMasterId, rssi < c))

/-- An event is judged as it should be: what is accepted from another eNB is stronger than the
master, and while a handover is about to start, what is not accepted from the candidate or the
master does not turn their order round. -/
def Judged : Event → Prop
  | .handoverPacket src present rssi =>
    if h.Accepts src present rssi then src ≠ h.phy.masterId → h.AboveMaster rssi
    else h.phy.handoverStarter = true →
      (src = h.phy.candidateMasterId → h.AboveMaster rssi) ∧
        (src = h.phy.masterId → h.BelowCandidate rssi)
  | .handoverStarter _ => True
  | .handoverTrigger _ => True

instance : DecidablePred h.Judged
  | .handoverPacket src present rssi => inferInstanceAs (Decidable
      (if h.Accepts src present rssi then src ≠ h.phy.masterId → h.AboveMaster rssi
      else h.phy.handoverStarter = true →
        (src = h.phy.candidateMasterId → h.AboveMaster rssi) ∧
          (src = h.phy.masterId → h.BelowCandidate rssi)))
  | .handoverStarter _ => instDecidableTrue
  | .handoverTrigger _ => instDecidableTrue

variable {h} {h' : Hearing} {e : Event} {o : List HandoverReturn} {src : MacNodeId}
  {present : Bool} {rssi : ℚ}

theorem handleAirFrame_of_accepts (hacc : h.Accepts src present rssi) :
    (h.phy.handleAirFrame src present rssi).masterId = h.phy.masterId ∧
      (h.phy.handleAirFrame src present rssi).candidateMasterId = src ∧
      ((h.phy.handleAirFrame src present rssi).handoverStarter = true ↔ src ≠ h.phy.masterId) := by
  obtain ⟨henable, hpresent, htrigger, hlt, hsrc⟩ := hacc
  rw [LtePhyUe.handleAirFrame, hpresent, htrigger, Bool.not_true, if_neg Bool.false_ne_true,
    if_neg Bool.false_ne_true, handoverHandler, henable, Bool.not_true,
    if_neg Bool.false_ne_true, if_pos hlt]
  by_cases hmaster : src = h.phy.masterId
  · rw [if_pos hmaster]
    exact ⟨rfl, hmaster.symm, iff_of_false Bool.false_ne_true (not_not_intro hmaster)⟩
  · rw [if_neg hmaster, if_neg (not_not_intro (hsrc.resolve_left hmaster))]
    exact ⟨rfl, rfl, iff_of_true rfl hmaster⟩

theorem handleAirFrame_of_not_accepts (hacc : ¬h.Accepts src present rssi) :
    (h.phy.handleAirFrame src present rssi).masterId = h.phy.masterId ∧
      (h.phy.handleAirFrame src present rssi).candidateMasterId = h.phy.candidateMasterId ∧
      (h.phy.handleAirFrame src present rssi).handoverStarter = h.phy.handoverStarter := by
  unfold LtePhyUe.handleAirFrame handoverHandler
  split
  · exact ⟨rfl, rfl, rfl⟩
  · rename_i hpresent
    split
    · exact ⟨rfl, rfl, rfl⟩
    · rename_i htrigger
      split
      · exact ⟨rfl, rfl, rfl⟩
      · rename_i henable
        have hrest : ¬(h.phy.candidateMasterRssi + h.phy.hysteresisTh < rssi ∧
            (src = h.phy.masterId ∨ getNodeTypeById src = .ENODEB)) := fun hrest =>
          hacc ⟨by simpa using henable, by simpa using hpresent, by simpa using htrigger, hrest⟩
        split
        · rename_i hlt
          obtain ⟨hmaster, henb⟩ := not_or.1 fun hsrc => hrest ⟨hlt, hsrc⟩
          rw [if_neg hmaster, if_pos henb]
          exact ⟨rfl, rfl, rfl⟩
        · split
          · exact ⟨rfl, rfl, rfl⟩
          · exact ⟨rfl, rfl, rfl⟩

theorem phy_step (hst : machine.step h e = some (h', o)) :
    LtePhyUe.machine.step h.phy e = some (h'.phy, o) ∧ h'.lastHeard = h.hear e := by
  obtain ⟨⟨s', o'⟩, hs', heq⟩ := Option.map_eq_some_iff.1 hst
  obtain ⟨rfl, rfl⟩ := Prod.mk.inj heq
  exact ⟨hs', rfl⟩

theorem stronger_of_starter (hoff : h.phy.handoverStarter = false) : h.Stronger := by
  intro hon
  rw [hoff] at hon
  cases hon

/-- **The step.**  The order of the candidate and the master is right after an event iff the event
is judged as it should be. -/
theorem stronger_step (hsafe : h.phy.Safe) (hs : h.Stronger)
    (hst : machine.step h e = some (h', o)) : h'.Stronger ↔ h.Judged e := by
  obtain ⟨hphy, hlast⟩ := phy_step hst
  cases e with
  | handoverPacket src present rssi =>
    obtain ⟨hphy, -⟩ := Prod.mk.inj (Option.some.inj hphy)
    have hself : h'.lastHeard src = some rssi := by
      rw [hlast]
      exact Function.update_self _ _ _
    have hother : ∀ {n}, n ≠ src → h'.lastHeard n = h.lastHeard n := by
      intro n hn
      rw [hlast]
      exact Function.update_of_ne hn _ _
    rw [Stronger, ← hphy, Judged]
    -- the broadcast becomes the candidate's or the master's last word
    split <;> rename_i hacc
    · obtain ⟨hmaster, hcand, hstarter⟩ := handleAirFrame_of_accepts hacc
      rw [hstarter, hcand, hmaster]
      refine imp_congr_right fun hne => ?_
      rw [hself, hother hne.symm]
      constructor
      · exact fun hall m hm => hall rssi m rfl hm
      · rintro hall c m hc hm
        obtain rfl := Option.some.inj hc
        exact hall m hm
    · -- the broadcast changes no choice, but it may be from the candidate or the master
      obtain ⟨hmaster, hcand, hstarter⟩ := handleAirFrame_of_not_accepts hacc
      rw [hstarter, hcand, hmaster]
      refine imp_congr_right fun hon => ?_
      have hne := hsafe.candidate hon
      by_cases hsrc : src = h.phy.candidateMasterId
      · subst hsrc
        rw [hself, hother hne.symm]
        constructor
        · exact fun hall => ⟨fun _ m hm => hall rssi m rfl hm, fun heq => absurd heq hne⟩
        · rintro ⟨hall, -⟩ c m hc hm
          obtain rfl := Option.some.inj hc
          exact hall rfl m hm
      · rw [hother (Ne.symm hsrc)]
        by_cases hsrc' : src = h.phy.masterId
        · subst hsrc'
          rw [hself]
          constructor
          · exact fun hall => ⟨fun heq => absurd heq hsrc, fun _ c hc => hall c rssi hc rfl⟩
          · rintro ⟨-, hall⟩ c m hc hm
            obtain rfl := Option.some.inj hm
            exact hall rfl c hc
        · rw [hother (Ne.symm hsrc')]
          exact iff_of_true (hs hon) ⟨fun heq => absurd heq hsrc, fun heq => absurd heq hsrc'⟩
  | handoverStarter masterMod =>
    refine iff_of_true (stronger_of_starter ?_) trivial
    dsimp only [LtePhyUe.machine] at hphy
    split at hphy
    · obtain ⟨⟨s₁, r⟩, hr, heq⟩ := Option.map_eq_some_iff.1 hphy
      obtain ⟨hs₁, -⟩ := Prod.mk.inj heq
      exact hs₁ ▸ (triggerHandover_cases hr).1
    · cases hphy
  | handoverTrigger parts =>
    refine iff_of_true (stronger_of_starter ?_) trivial
    dsimp only [LtePhyUe.machine] at hphy
    split at hphy
    · rename_i htrigger
      obtain ⟨hs₁, -⟩ := Prod.mk.inj (Option.some.inj hphy)
      rw [← hs₁, (doHandover_spec _ parts).1]
      by_contra hon
      have hclash := hsafe.timers (Bool.not_eq_false _ ▸ hon)
      rw [htrigger] at hclash
      cases hclash
    · cases hphy

/-- **A handover never goes to a weaker cell** iff every broadcast is judged as it should be:
wherever a run may come to `triggerHandover`, the candidate has last been heard with a larger RSSI
than the master. -/
theorem never_weaker_iff (hidle : h.phy.Idle) (es : List Event) :
    (∀ h', machine.Visits h es h' → h'.Stronger) ↔
      ∀ h₁ e h₂ o, machine.Takes h es h₁ e h₂ o → h₁.Judged e := by
  have hsafe : ∀ h', machine.Visits h es h' → h'.phy.Safe := by
    intro h' hvisits
    refine hvisits.invariant (I := fun h => h.phy.Safe) (safe_of_starter hidle.starter) ?_
    rintro h₁ e h₂ o ⟨-, -, -, -, -, hst⟩ hs
    exact (hs.step (phy_step hst).1).1
  constructor
  · rintro hall h₁ e h₂ o ht
    obtain ⟨es₁, es₂, os, hes, hex, hst⟩ := id ht
    have hvisits : machine.Visits h es h₂ := ⟨es₁ ++ [e], es₂, os ++ o, by simp [hes],
      Machine.exec_concat_eq_some.2 ⟨h₁, os, o, hex, hst, rfl⟩⟩
    exact (stronger_step (hsafe _ ht.visits) (hall _ ht.visits) hst).1 (hall _ hvisits)
  · intro hjudged h' hvisits
    refine (hvisits.invariant (I := fun h => h.phy.Safe ∧ h.Stronger)
      ⟨safe_of_starter hidle.starter, stronger_of_starter hidle.starter⟩ ?_).2
    rintro h₁ e h₂ o ht ⟨hs, hstronger⟩
    obtain ⟨-, -, -, -, -, hst⟩ := id ht
    exact ⟨(hs.step (phy_step hst).1).1, (stronger_step hs hstronger hst).2 (hjudged h₁ e h₂ o ht)⟩

/-- A UE that has heard nothing yet. -/
def start : Hearing := ⟨served, fun _ => none⟩

/-- The master is heard, a stronger eNB, and the master again, still weaker. -/
def positive : List Event :=
  [.handoverPacket 1 true 10, .handoverPacket 2 true 12, .handoverPacket 1 true 11]

theorem never_weaker_positive : ∃ h os, machine.exec start positive = some (h, os) ∧
    h.phy.handoverStarter = true ∧ h.Stronger := by
  have hrun : (machine.exec start positive).map (fun r => r.1.phy.handoverStarter) = some true := by
    decide +kernel
  obtain ⟨⟨h, os⟩, hex, hon⟩ := Option.map_eq_some_iff.1 hrun
  refine ⟨h, os, hex, hon, (never_weaker_iff ⟨rfl, rfl, rfl⟩ positive).2 (fun h₁ e h₂ o ht => ?_) h
    ⟨positive, [], os, by simp, hex⟩⟩
  refine Machine.Meets.takes (C := fun h e => h.Judged e) ?_ ht
  decide +kernel

/-- The master is heard, and then a weaker eNB; the RSSIs are negative. -/
def negative : List Event := [.handoverPacket 1 true (-10), .handoverPacket 2 true (-10.5)]

/-- With a negative RSSI the hysteresis is negative, and the UE goes to the weaker eNB. -/
theorem weaker_accepted : ∃ h os, machine.exec start negative = some (h, os) ∧
    (machine.step h (.handoverStarter true)).map Prod.snd = some [.scheduled] ∧ ¬h.Stronger := by
  have hrun : (machine.exec start negative).map (fun r => (r.1.phy.handoverStarter,
      r.1.lastHeard r.1.phy.candidateMasterId, r.1.lastHeard r.1.phy.masterId,
      (machine.step r.1 (.handoverStarter true)).map Prod.snd)) =
      some (true, some (-10.5), some (-10), some [.scheduled]) := by decide +kernel
  obtain ⟨⟨h, os⟩, hex, heq⟩ := Option.map_eq_some_iff.1 hrun
  obtain ⟨hon, hcand, hmaster, hstarts⟩ : h.phy.handoverStarter = true ∧
      h.lastHeard h.phy.candidateMasterId = some (-10.5) ∧
      h.lastHeard h.phy.masterId = some (-10) ∧
      (machine.step h (.handoverStarter true)).map Prod.snd = some [.scheduled] := by
    simpa using heq
  refine ⟨h, os, hex, hstarts, fun hstronger => ?_⟩
  have hlt := hstronger hon _ _ hcand hmaster
  exact absurd hlt (by decide +kernel)

end Hearing

end LtePhyUe

end V2nLte
