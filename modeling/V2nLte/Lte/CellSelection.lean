import V2nLte.Lte.HandoverRounds
import V2nLte.Machine.Passes
import Mathlib.Algebra.BigOperators.Group.List.Basic

/-!
# The first cell of a UE

With `dynamicCellAssociation_` a UE looks for its first cell when it is initialised: of the eNBs the
binder lists it takes the one with the largest mean RSSI.  The running maximum begins with `0`,
though an RSSI in dB may be below; and the hysteresis threshold stays `0`, since nothing is done
with what `updateHysteresisTh` returns.

* `LtePhyUe.selects_iff` : when the UE gets the strongest eNB, and stays with it in the first round
  of broadcasts.
-/

namespace V2nLte

/-- What a UE sees of an eNB of the binder's list. -/
structure EnbInfo (C : Type) where
  /-- The id of the eNB. -/
  id : MacNodeId
  /-- Its power of transmission. -/
  txPower : ℚ
  /-- Where it is. -/
  coord : C

namespace LtePhyUe

variable {C : Type}

/-- The mean over all the bands; there is none if there are no bands. -/
def meanRssi (rssiV : List ℚ) : Option ℚ :=
  if rssiV = [] then none else some (rssiV.sum / rssiV.length)

/-- The RSSI of an eNB. -/
def rssiOf (getSINR : MacNodeId → ℚ → C → List ℚ) (cell : EnbInfo C) : Option ℚ :=
  meanRssi (getSINR cell.id cell.txPower cell.coord)

/-- The loop of `initialize` that finds the best candidate master cell. -/
def findCandidate (getSINR : MacNodeId → ℚ → C → List ℚ) (enbList : List (EnbInfo C))
    (s : LtePhyUe) : Option LtePhyUe :=
  enbList.foldlM (fun s cell => (rssiOf getSINR cell).map fun rssi =>
    if s.candidateMasterRssi < rssi then
      { s with candidateMasterId := cell.id, candidateMasterRssi := rssi }
    else s) s

/-- `initialize`; `s` is what the members contain before it.  Besides it gives the parameter
`masterId` of the UE, which it reads or sets. -/
def initializeUe (enableHandover dynamicCellAssociation : Bool) (masterIdPar : MacNodeId)
    (getSINR : MacNodeId → ℚ → C → List ℚ) (enbList : List (EnbInfo C)) (s : LtePhyUe) :
    Option (LtePhyUe × MacNodeId) :=
  let s := { s with
    enableHandover := enableHandover
    currentMasterRssi := 0, candidateMasterRssi := 0, hysteresisTh := 0, hysteresisFactor := 10
    handoverStarter := false }
  if dynamicCellAssociation then
    (findCandidate getSINR enbList s).map fun s =>
      -- `updateHysteresisTh` is called, but what it returns is dropped
      ({ s with masterId := s.candidateMasterId, currentMasterRssi := s.candidateMasterRssi },
        s.candidateMasterId)
  else some ({ s with masterId := masterIdPar, candidateMasterId := masterIdPar }, masterIdPar)

/-- The eNBs with their RSSI. -/
def rssis (getSINR : MacNodeId → ℚ → C → List ℚ) (enbList : List (EnbInfo C)) : Option Round :=
  enbList.mapM fun cell => (rssiOf getSINR cell).map fun rssi => (cell.id, rssi)

/-- The UE is served by the eNB `b` of the round, at its RSSI. -/
structure ServedBy (s : LtePhyUe) (b : MacNodeId × ℚ) : Prop where
  masterId : s.masterId = b.1
  candidateMasterId : s.candidateMasterId = b.1
  currentMasterRssi : s.currentMasterRssi = b.2
  candidateMasterRssi : s.candidateMasterRssi = b.2

/-- The UE is served by the strongest eNB, and while it hears a round with the same RSSIs, in
whatever order, no handover is scheduled. -/
def Selects (rs : Round) (s : LtePhyUe) : Prop :=
  (∃ b ∈ rs, (∀ b' ∈ rs, b'.2 ≤ b.2) ∧ s.ServedBy b) ∧
    ∀ rs' pre : Round, rs'.Perm rs → pre <+: rs' → (s.hearRound pre).handoverStarter = false

variable {s s' : LtePhyUe} {enableHandover : Bool} {masterIdPar par : MacNodeId}
  {getSINR : MacNodeId → ℚ → C → List ℚ} {enbList : List (EnbInfo C)} {rs pre : Round}
  {b : MacNodeId × ℚ} {th : ℚ}

/-- The loop keeps the best candidate so far. -/
theorem findCandidate_eq (h : rssis getSINR enbList = some rs) :
    findCandidate getSINR enbList s = some { s with
      candidateMasterId := ((rs.map Prod.swap).foldl better
        (s.candidateMasterRssi, s.candidateMasterId)).2
      candidateMasterRssi := ((rs.map Prod.swap).foldl better
        (s.candidateMasterRssi, s.candidateMasterId)).1 } := by
  unfold rssis at h
  unfold findCandidate
  induction enbList generalizing s rs with
  | nil =>
    obtain rfl := Option.some.inj h
    rfl
  | cons cell enbList ih =>
    rw [List.mapM_cons] at h
    obtain ⟨b, hb, h⟩ := Option.bind_eq_some_iff.1 h
    obtain ⟨rs, hrs, hcons⟩ := Option.bind_eq_some_iff.1 h
    obtain rfl := Option.some.inj hcons
    obtain ⟨rssi, hrssi, rfl⟩ := Option.map_eq_some_iff.1 hb
    rw [List.foldlM_cons, hrssi, Option.map_some]
    refine (ih hrs).trans ?_
    rw [List.map_cons, List.foldl_cons]
    unfold better
    simp only [Prod.swap_prod_mk]
    split <;> rfl

/-! ### The first round -/

/-- The UE is served by `b` and waits for something that is stronger. -/
structure Calm (b : MacNodeId × ℚ) (s : LtePhyUe) : Prop where
  masterId : s.masterId = b.1
  candidateMasterRssi : s.candidateMasterRssi = b.2
  hysteresisFactor : s.hysteresisFactor = 10
  hysteresisTh : 0 ≤ s.hysteresisTh
  starter : s.handoverStarter = false

/-- A broadcast that is not stronger changes nothing. -/
theorem Calm.handoverHandler (h : Calm b s) (hb : 0 ≤ b.2) {x : MacNodeId × ℚ} (hle : x.2 ≤ b.2)
    (hmaster : x.1 = b.1 → x.2 = b.2) : Calm b (s.handoverHandler x.1 x.2) := by
  have hweak : ¬s.candidateMasterRssi + s.hysteresisTh < x.2 := by
    rw [h.candidateMasterRssi]
    exact not_lt.2 (hle.trans (le_add_of_nonneg_right h.hysteresisTh))
  unfold LtePhyUe.handoverHandler
  rw [if_neg hweak]
  split
  · exact h
  · split
    · rename_i hx
      have hrssi := hmaster (hx.trans h.masterId)
      refine ⟨h.masterId, hrssi, h.hysteresisFactor, ?_, h.starter⟩
      dsimp only
      rw [updateHysteresisTh, h.hysteresisFactor, hrssi, if_neg (by decide)]
      exact div_nonneg hb (by decide)
    · exact h

theorem Calm.hearRound (h : Calm b s) (hb : 0 ≤ b.2)
    (hrs : ∀ x ∈ rs, x.2 ≤ b.2 ∧ (x.1 = b.1 → x.2 = b.2)) : Calm b (s.hearRound rs) := by
  induction rs generalizing s with
  | nil => exact h
  | cons x rs ih =>
    obtain ⟨hx, hrs⟩ := List.forall_mem_cons.1 hrs
    exact ih (h.handoverHandler hb hx.1 hx.2) hrs

/-- In a round nothing is stronger than the strongest eNB. -/
theorem Calm.round (h : Calm b s) (hb : b ∈ rs) (hmax : ∀ b' ∈ rs, b'.2 ≤ b.2) (hpos : 0 ≤ b.2)
    (hids : (rs.map Prod.fst).Nodup) (rs' pre : Round) (hperm : rs'.Perm rs) (hpre : pre <+: rs') :
    (s.hearRound pre).handoverStarter = false := by
  refine (h.hearRound hpos fun x hx => ?_).starter
  have hmem : x ∈ rs := hperm.mem_iff.1 (hpre.subset hx)
  exact ⟨hmax x hmem, fun hfst => congrArg Prod.snd (List.inj_on_of_nodup_map hids hmem hb hfst)⟩

/-- What the UE is like when it has been initialised. -/
theorem initializeUe_eq (hrs : rssis getSINR enbList = some rs)
    (hinit : initializeUe enableHandover true masterIdPar getSINR enbList s = some (s', par)) :
    ∃ c : ℚ × MacNodeId, (rs.map Prod.swap).foldl better (0, s.candidateMasterId) = c ∧
      s'.ServedBy c.swap ∧ (0 ≤ c.1 → Calm c.swap s') := by
  unfold initializeUe at hinit
  rw [if_pos rfl, findCandidate_eq hrs] at hinit
  obtain ⟨rfl, -⟩ := Prod.mk.inj (Option.some.inj hinit)
  exact ⟨_, rfl, ⟨rfl, rfl, rfl, rfl⟩, fun _ => ⟨rfl, rfl, rfl, le_refl 0, rfl⟩⟩

/-- **When a UE begins in the best cell.**  The UE is served by the strongest eNB, at its RSSI, and
stays with it in the first round, if and only if the largest RSSI is positive, or it is `0` and
`candidateMasterId_` happens to contain the id of this eNB already. -/
theorem selects_iff (hrs : rssis getSINR enbList = some rs) (hids : (rs.map Prod.fst).Nodup)
    (hinit : initializeUe enableHandover true masterIdPar getSINR enbList s = some (s', par)) :
    Selects rs s' ↔ (∃ b ∈ rs, 0 < b.2) ∨
      ∃ b ∈ rs, b.2 = 0 ∧ (∀ b' ∈ rs, b'.2 ≤ 0) ∧ s.candidateMasterId = b.1 := by
  obtain ⟨c, hc, hserved, hcalm⟩ := initializeUe_eq hrs hinit
  have hmax : ∀ b ∈ rs, b.2 ≤ c.1 := fun b hb =>
    hc ▸ mem_le_foldl_better _ (List.mem_map_of_mem (f := Prod.swap) hb)
  rcases foldl_better_eq (0, s.candidateMasterId) (rs.map Prod.swap) with heq | ⟨hmem, hlt⟩
  · -- no RSSI is above `0`
    obtain rfl := heq.symm.trans hc
    constructor
    · rintro ⟨⟨b, hb, -, hbserved⟩, -⟩
      have hzero : b.2 = 0 := hbserved.candidateMasterRssi.symm.trans hserved.candidateMasterRssi
      exact .inr ⟨b, hb, hzero, hmax,
        hserved.candidateMasterId.symm.trans hbserved.candidateMasterId⟩
    · rintro (⟨b, hb, hpos⟩ | ⟨b, hb, hzero, -, hid⟩)
      · exact absurd hpos (not_lt.2 (hmax b hb))
      · have hbc : b = (0, s.candidateMasterId).swap := Prod.ext hid.symm hzero
        rw [← hbc] at hserved hcalm
        have hmax' : ∀ b' ∈ rs, b'.2 ≤ b.2 := fun b' hb' => hzero ▸ hmax b' hb'
        exact ⟨⟨b, hb, hmax', hserved⟩,
          (hcalm (le_refl 0)).round hb hmax' hzero.ge hids⟩
  · rw [hc] at hmem hlt
    obtain ⟨b, hb, hbc⟩ := List.mem_map.1 hmem
    have hpos : 0 < b.2 := by
      rw [← hbc] at hlt
      exact hlt
    rw [← hbc, Prod.swap_swap] at hserved hcalm
    have hmax' : ∀ b' ∈ rs, b'.2 ≤ b.2 := fun b' hb' => by
      have hle := hmax b' hb'
      rwa [← hbc] at hle
    exact iff_of_true ⟨⟨b, hb, hmax', hserved⟩, (hcalm hpos.le).round hb hmax' hpos.le hids⟩
      (.inl ⟨b, hb, hpos⟩)

/-- An eNB with the RSSI `txPower` at every one of its bands. -/
def flatSINR (_ : MacNodeId) (txPower : ℚ) (coord : ℕ) : List ℚ := List.replicate coord txPower

/-- A UE before it is initialised. -/
def raw : LtePhyUe := ⟨true, 10, 0, 0, 0, 0, 0, false, false⟩

theorem selects_positive : ∃ s' par,
    initializeUe true true 0 flatSINR [⟨1, -5, 2⟩, ⟨2, 3, 1⟩] raw = some (s', par) ∧
      (Selects [(1, -5), (2, 3)] s' ↔ (∃ b ∈ [((1 : MacNodeId), (-5 : ℚ)), (2, 3)], 0 < b.2) ∨
        ∃ b ∈ [((1 : MacNodeId), (-5 : ℚ)), (2, 3)], b.2 = 0 ∧
          (∀ b' ∈ [((1 : MacNodeId), (-5 : ℚ)), (2, 3)], b'.2 ≤ 0) ∧ raw.candidateMasterId = b.1) :=
  have hinit : initializeUe true true 0 flatSINR [⟨1, -5, 2⟩, ⟨2, 3, 1⟩] raw =
      some (⟨true, 10, 2, 2, 3, 3, 0, false, false⟩, 2) := by decide +kernel
  ⟨_, _, hinit, selects_iff (by decide +kernel) (by decide) hinit⟩

/-- With every RSSI below `0` the UE is served by no eNB of the list. -/
theorem negative_not_selected : ∃ s' par,
    rssis flatSINR [⟨1, -5, 1⟩, ⟨2, -3, 1⟩] = some [(1, -5), (2, -3)] ∧
      initializeUe true true 0 flatSINR [⟨1, -5, 1⟩, ⟨2, -3, 1⟩] raw = some (s', par) ∧
      s'.masterId = 0 ∧ s'.currentMasterRssi = 0 ∧ ¬Selects [(1, -5), (2, -3)] s' := by
  refine ⟨raw, 0, by decide +kernel, by decide +kernel, rfl, rfl, ?_⟩
  rintro ⟨⟨b, hb, -, hserved⟩, -⟩
  have hid : (0 : MacNodeId) = b.1 := hserved.masterId
  have hnone : ∀ b ∈ [((1 : MacNodeId), (-5 : ℚ)), (2, -3)], (0 : MacNodeId) ≠ b.1 := by decide
  exact hnone b hb hid

end LtePhyUe

end V2nLte
