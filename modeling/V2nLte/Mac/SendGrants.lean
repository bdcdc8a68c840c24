import V2nLte.Mac.UeView
import Mathlib.Data.Prod.Lex

/-!
# `sendGrants`

At the end of an uplink TTI `LteMacEnb::sendGrants` turns the schedule list into the grants that
go to the UEs.  It takes the first entry of the list, looks for the entry of the other codeword of
the same UE, and sends one grant for both.

The key it looks for is made of the *node id* and of `MAX_CODEWORDS - cw`, while the keys of the
list are made of the connection and of the codewords `0` and `1`.  So no partner is ever found,
and every positive entry has a grant of its own, with one codeword; the loop that sets the bytes
starts at the codeword of the entry and stops before `1`.

* `sendGrants_eq` : what is sent, entry by entry.
* `sendGrants_reflects_iff` : the grants reflect the list iff the second codewords are not used.
-/

namespace V2nLte

/-- `LteMacScheduleList`: the blocks of a connection and codeword. -/
abbrev LteMacScheduleList := OrderedMap (MacCid ×ₗ ℕ) ℕ

/-- `LteSchedulingGrant`, with the UE it is sent to. -/
structure LteSchedulingGrant (B : ℕ) where
  /-- The UE. -/
  destId : MacNodeId
  /-- The number of codewords. -/
  codewords : ℕ
  /-- The blocks of all the bands. -/
  totalGrantedBlocks : ℕ
  /-- The transmission parameters to use. -/
  userTxParams : UserTxParams B
  /-- The bytes of each codeword. -/
  grantedCwBytes : List ℕ := List.replicate MAX_CODEWORDS 0
  /-- The blocks on the antennas and bands. -/
  grantedBlocks : ℕ → Band → ℕ

namespace SchedulerEnv

variable (E : SchedulerEnv) (a : LteAllocationModule)

/-- The blocks of a UE on a band, on all its antennas. -/
def bandAllocatedBlocks (nodeId : MacNodeId) (b : Band) : ℕ :=
  (E.computeTxParams nodeId .UL).antennaSet.foldl
    (fun n antenna => u32 (n + a.getBlocks antenna b nodeId)) 0

/-- The bytes that the blocks of a UE hold for a codeword. -/
def cwBytes (nodeId : MacNodeId) (cw : ℕ) : ℕ :=
  (List.range E.numBands).foldl
    (fun n b => u32 (n + E.computeBytesOnNRbs nodeId b cw (E.bandAllocatedBlocks a nodeId b) .UL)) 0

/-- The loop over the codewords of a grant. -/
def grantedCwBytes (nodeId : MacNodeId) (cw codewords : ℕ) : List ℕ :=
  (List.range' cw (codewords - cw)).foldl (fun l i => l.set i (E.cwBytes a nodeId i))
    (List.replicate MAX_CODEWORDS 0)

/-- The grant for a UE. -/
def grantOf (nodeId : MacNodeId) (cw codewords granted : ℕ) : LteSchedulingGrant E.numBands where
  destId := nodeId
  codewords := codewords
  totalGrantedBlocks := granted
  userTxParams := E.computeTxParams nodeId .UL
  grantedCwBytes := E.grantedCwBytes a nodeId cw codewords
  grantedBlocks := (a.rbOccupation nodeId fun _ _ => 0).2

/-- The key that is looked for after an entry: a node id stands where the keys have a connection. -/
def otherPair (cid : MacCid) (cw : ℕ) : MacCid ×ₗ ℕ :=
  toLex ((MacCidToNodeId cid : ℕ), (65536 + MAX_CODEWORDS - cw) % 65536)

/-- `LteMacEnb::sendGrants`: the list that is left and the grants. -/
def sendGrants : LteMacScheduleList → LteMacScheduleList × List (LteSchedulingGrant E.numBands)
  | [] => ([], [])
  | (key, granted) :: scheduleList =>
    let cid := (ofLex key).1
    let cw := (ofLex key).2
    let nodeId := MacCidToNodeId cid
    let other := otherPair cid cw
    let codewords := (if 0 < granted then 1 else 0) +
      if (OrderedMap.find scheduleList other).isSome then 1 else 0
    let (left, grants) := sendGrants (OrderedMap.erase scheduleList other)
    -- no grant for an entry without blocks, also if its partner has some
    if granted = 0 then (left, grants)
    else (left, E.grantOf a nodeId cw codewords granted :: grants)
termination_by l => l.length
decreasing_by exact Nat.lt_succ_of_le (List.length_filter_le _ _)

/-- A schedule list of UEs, with one connection for each and at most two codewords. -/
structure UplinkList (l : LteMacScheduleList) : Prop where
  /-- It is a `std::map`. -/
  sorted : l.Sorted
  /-- A cid has 32 bits. -/
  cid : ∀ e ∈ l, (ofLex e.1).1 < 4294967296
  /-- No entry is for the node `0`. -/
  ue : ∀ e ∈ l, MacCidToNodeId (ofLex e.1).1 ≠ 0
  /-- There are at most two codewords. -/
  cw : ∀ e ∈ l, (ofLex e.1).2 < MAX_CODEWORDS
  /-- The entries of a UE are for one connection. -/
  bsr : ∀ e ∈ l, ∀ e' ∈ l, MacCidToNodeId (ofLex e.1).1 = MacCidToNodeId (ofLex e'.1).1 →
    (ofLex e.1).1 = (ofLex e'.1).1

/-- The positive entries of a UE. -/
def positiveOf (l : LteMacScheduleList) (ue : MacNodeId) : LteMacScheduleList :=
  l.filter fun e => decide (MacCidToNodeId (ofLex e.1).1 = ue ∧ 0 < e.2)

/-- The grants reflect the schedule list, which is empty afterwards. -/
structure Reflects (l : LteMacScheduleList)
    (r : LteMacScheduleList × List (LteSchedulingGrant E.numBands)) : Prop where
  /-- The schedule list is cleared. -/
  emptied : r.1 = []
  /-- One grant for every UE that has a positive entry, none for the others. -/
  once : ∀ ue, (r.2.filter fun g => decide (g.destId = ue)).length =
    if positiveOf l ue = [] then 0 else 1
  /-- A grant has a codeword for each positive entry. -/
  codewords : ∀ g ∈ r.2, g.codewords = (positiveOf l g.destId).length
  /-- The bytes of a codeword are those the AMC says it carries. -/
  bytes : ∀ g ∈ r.2, ∀ e ∈ positiveOf l g.destId,
    g.grantedCwBytes[(ofLex e.1).2]? = some (E.cwBytes a g.destId (ofLex e.1).2)

variable {E a} {l : LteMacScheduleList} {ue : MacNodeId}

/-- The keys of connections are never those that are looked for. -/
theorem otherPair_ne {cid cid' : MacCid} {cw cw' : ℕ} (h : MacCidToNodeId cid' ≠ 0) :
    (toLex (cid', cw') : MacCid ×ₗ ℕ) ≠ otherPair cid cw := by
  intro heq
  have hcid : cid' = (MacCidToNodeId cid : ℕ) := congrArg (fun k => (ofLex k).1) heq
  have hlt : (MacCidToNodeId cid : ℕ) < 65536 := (MacCidToNodeId cid).isLt
  apply h
  rw [MacCidToNodeId, hcid, Nat.div_eq_of_lt hlt]
  rfl

theorem find_otherPair (h : ∀ e ∈ l, MacCidToNodeId (ofLex e.1).1 ≠ 0) (cid cw : ℕ) :
    OrderedMap.find l (otherPair cid cw) = none := by
  apply OrderedMap.find_eq_none
  intro hmem
  obtain ⟨e, he, heq⟩ := List.mem_map.1 hmem
  exact otherPair_ne (h e he) heq

theorem erase_otherPair (h : ∀ e ∈ l, MacCidToNodeId (ofLex e.1).1 ≠ 0) (cid cw : ℕ) :
    OrderedMap.erase l (otherPair cid cw) = l := by
  apply List.filter_eq_self.2
  intro e he
  exact decide_eq_true (otherPair_ne (h e he))

/-- **What is sent**: a grant with one codeword for every entry that has blocks. -/
theorem sendGrants_eq (h : ∀ e ∈ l, MacCidToNodeId (ofLex e.1).1 ≠ 0) :
    E.sendGrants a l = ([], (l.filter fun e => decide (0 < e.2)).map fun e =>
      E.grantOf a (MacCidToNodeId (ofLex e.1).1) (ofLex e.1).2 1 e.2) := by
  induction l with
  | nil => rw [sendGrants]; rfl
  | cons e l ih =>
    obtain ⟨key, granted⟩ := e
    have hl : ∀ e ∈ l, MacCidToNodeId (ofLex e.1).1 ≠ 0 :=
      fun e he => h e (List.mem_cons_of_mem _ he)
    rw [sendGrants]
    simp only [find_otherPair hl, erase_otherPair hl, ih hl]
    by_cases hg : granted = 0
    · rw [if_pos hg, List.filter_cons_of_neg (by simpa using hg)]
    · rw [if_neg hg, if_pos (Nat.pos_of_ne_zero hg),
        List.filter_cons_of_pos (by simpa using Nat.pos_of_ne_zero hg)]
      rfl

/-! ### Entries and grants of a UE -/

@[simp] theorem mem_positiveOf {e : (MacCid ×ₗ ℕ) × ℕ} :
    e ∈ positiveOf l ue ↔ e ∈ l ∧ MacCidToNodeId (ofLex e.1).1 = ue ∧ 0 < e.2 := by
  simp [positiveOf]

theorem mem_grants (h : ∀ e ∈ l, MacCidToNodeId (ofLex e.1).1 ≠ 0)
    {g : LteSchedulingGrant E.numBands} (hg : g ∈ (E.sendGrants a l).2) :
    ∃ e ∈ positiveOf l g.destId, g = E.grantOf a g.destId (ofLex e.1).2 1 e.2 := by
  rw [sendGrants_eq h] at hg
  obtain ⟨e, he, rfl⟩ := List.mem_map.1 hg
  obtain ⟨he, hpos⟩ := List.mem_filter.1 he
  exact ⟨e, mem_positiveOf.2 ⟨he, rfl, of_decide_eq_true hpos⟩, rfl⟩

theorem grantOf_mem_grants (h : ∀ e ∈ l, MacCidToNodeId (ofLex e.1).1 ≠ 0)
    {e : (MacCid ×ₗ ℕ) × ℕ} (he : e ∈ positiveOf l ue) :
    E.grantOf a ue (ofLex e.1).2 1 e.2 ∈ (E.sendGrants a l).2 := by
  obtain ⟨hmem, rfl, hpos⟩ := mem_positiveOf.1 he
  rw [sendGrants_eq h]
  exact List.mem_map.2 ⟨e, List.mem_filter.2 ⟨hmem, decide_eq_true hpos⟩, rfl⟩

/-- A UE gets as many grants as it has positive entries. -/
theorem length_grants (h : ∀ e ∈ l, MacCidToNodeId (ofLex e.1).1 ≠ 0) (ue : MacNodeId) :
    ((E.sendGrants a l).2.filter fun g => decide (g.destId = ue)).length =
      (positiveOf l ue).length := by
  have hkeep : ∀ e ∈ l, (decide (MacCidToNodeId (ofLex e.1).1 = ue) && decide (0 < e.2)) =
      decide (MacCidToNodeId (ofLex e.1).1 = ue ∧ 0 < e.2) := fun e _ => by simp
  rw [sendGrants_eq h, List.filter_map, List.length_map, List.filter_filter, positiveOf,
    ← List.filter_congr hkeep]
  rfl

/-- The only codeword for which the bytes of a grant are set is the first one. -/
theorem grantedCwBytes_one (nodeId : MacNodeId) {cw : ℕ} :
    E.grantedCwBytes a nodeId cw 1 = [if cw = 0 then E.cwBytes a nodeId 0 else 0, 0] := by
  rcases Nat.eq_zero_or_pos cw with rfl | hcw
  · rfl
  · rw [grantedCwBytes, Nat.sub_eq_zero_of_le hcw, if_neg (Nat.ne_of_gt hcw)]
    rfl

/-- The second codeword of a UE is used for no bytes, and not beside the first one. -/
def SecondUnused (E : SchedulerEnv) (a : LteAllocationModule) (l : LteMacScheduleList) : Prop :=
  ∀ e ∈ l, (ofLex e.1).2 = 1 → 0 < e.2 →
    (∀ e' ∈ l, ofLex e'.1 = ((ofLex e.1).1, 0) → e'.2 = 0) ∧
      E.cwBytes a (MacCidToNodeId (ofLex e.1).1) 1 = 0

/-- Two positive entries of a UE are for its two codewords. -/
theorem UplinkList.eq_of_mem (hl : UplinkList l) (hun : E.SecondUnused a l)
    {e e' : (MacCid ×ₗ ℕ) × ℕ} (he : e ∈ positiveOf l ue) (he' : e' ∈ positiveOf l ue) :
    e.1 = e'.1 := by
  obtain ⟨he, hue, hpos⟩ := mem_positiveOf.1 he
  obtain ⟨he', hue', hpos'⟩ := mem_positiveOf.1 he'
  have hcid : (ofLex e.1).1 = (ofLex e'.1).1 := hl.bsr e he e' he' (hue.trans hue'.symm)
  have hcw : (ofLex e.1).2 < 2 := hl.cw e he
  have hcw' : (ofLex e'.1).2 < 2 := hl.cw e' he'
  suffices h : (ofLex e.1).2 = (ofLex e'.1).2 from ofLex.injective (Prod.ext hcid h)
  by_contra hne
  obtain ⟨h1, h0⟩ | ⟨h0, h1⟩ : ((ofLex e.1).2 = 1 ∧ (ofLex e'.1).2 = 0) ∨
      ((ofLex e.1).2 = 0 ∧ (ofLex e'.1).2 = 1) := by omega
  · exact (Nat.ne_of_gt hpos') ((hun e he h1 hpos).1 e' he' (Prod.ext hcid.symm h0))
  · exact (Nat.ne_of_gt hpos) ((hun e' he' h1 hpos').1 e he (Prod.ext hcid h0))

theorem UplinkList.length_positiveOf_le (hl : UplinkList l) (hun : E.SecondUnused a l)
    (ue : MacNodeId) : (positiveOf l ue).length ≤ 1 := by
  have hsorted : ((positiveOf l ue).map Prod.fst).Pairwise (· < ·) :=
    hl.sorted.sublist (List.filter_sublist.map _)
  have heq : ∀ e ∈ positiveOf l ue, ∀ e' ∈ positiveOf l ue, e.1 = e'.1 :=
    fun e he e' he' => hl.eq_of_mem hun he he'
  match positiveOf l ue, hsorted, heq with
  | [], _, _ => exact Nat.zero_le _
  | [e], _, _ => exact Nat.le_refl _
  | e :: e' :: es, hsorted, heq =>
    have hlt : e.1 < e'.1 := (List.pairwise_cons.1 hsorted).1 _ List.mem_cons_self
    exact absurd (heq e List.mem_cons_self e' (by simp)) (ne_of_lt hlt)

/-- **The grants reflect the schedule list iff no UE has blocks on its second codeword**, save
one without a first codeword and whose blocks hold no bytes. -/
theorem sendGrants_reflects_iff (hl : UplinkList l) :
    E.Reflects a l (E.sendGrants a l) ↔ E.SecondUnused a l := by
  constructor
  · intro h e he hcw hpos
    have hmem : e ∈ positiveOf l (MacCidToNodeId (ofLex e.1).1) := mem_positiveOf.2 ⟨he, rfl, hpos⟩
    constructor
    · intro e' he' hkey
      by_contra hpos'
      have hcid : (ofLex e'.1).1 = (ofLex e.1).1 := by rw [hkey]
      have hmem' : e' ∈ positiveOf l (MacCidToNodeId (ofLex e.1).1) :=
        mem_positiveOf.2 ⟨he', by rw [hcid], Nat.pos_of_ne_zero hpos'⟩
      -- the UE has a grant for each of the two
      have hone := h.once (MacCidToNodeId (ofLex e.1).1)
      rw [length_grants hl.ue, if_neg (List.ne_nil_of_mem hmem)] at hone
      obtain ⟨x, hx⟩ := List.length_eq_one_iff.1 hone
      rw [hx, List.mem_singleton] at hmem hmem'
      rw [← hmem'.trans hmem.symm, hkey] at hcw
      exact absurd hcw Nat.zero_ne_one
    · -- the bytes of the second codeword are those of the default
      have hbytes := h.bytes _ (grantOf_mem_grants hl.ue hmem) e hmem
      rw [hcw] at hbytes
      exact (Option.some.inj hbytes).symm
  · intro hun
    rw [show E.sendGrants a l = (([] : LteMacScheduleList), (E.sendGrants a l).2) by
      rw [sendGrants_eq hl.ue]]
    refine ⟨rfl, fun ue => ?_, fun g hg => ?_, fun g hg e he => ?_⟩
    · have hle := hl.length_positiveOf_le hun ue
      rw [length_grants hl.ue]
      split_ifs with hnil
      · rw [hnil]
        rfl
      · have := List.length_pos_of_ne_nil hnil
        omega
    · obtain ⟨e, he, hgrant⟩ := mem_grants hl.ue hg
      have hle := hl.length_positiveOf_le hun g.destId
      have hpos := List.length_pos_of_mem he
      have hone : g.codewords = 1 := by rw [hgrant]; rfl
      omega
    · obtain ⟨e₀, he₀, hgrant⟩ := mem_grants hl.ue hg
      have hkey : e₀.1 = e.1 := hl.eq_of_mem hun he₀ he
      obtain ⟨hmem, hue, hpos⟩ := mem_positiveOf.1 he
      have hlist : g.grantedCwBytes =
          [if (ofLex e.1).2 = 0 then E.cwBytes a g.destId 0 else 0, 0] := by
        rw [hgrant, ← hkey]
        exact grantedCwBytes_one _
      have hcw : (ofLex e.1).2 < 2 := hl.cw e hmem
      obtain h0 | h1 : (ofLex e.1).2 = 0 ∨ (ofLex e.1).2 = 1 := by omega
      · rw [hlist, h0]
        rfl
      · have hzero := (hun e hmem h1 hpos).2
        rw [hue] at hzero
        rw [hlist, h1, hzero]
        rfl

/-! ### A UE with two codewords -/

/-- An uplink cell with one band for the UE `1025`; a block holds 100 bytes. -/
def hundredBytes : SchedulerEnv where
  binder := { nodeIds := fun n => if n = 1025 then some 1 else none }
  direction := .UL
  numBands := 1
  muMimo := false
  computeTxParams _ _ := { cqiVector := [7, 7], ri := 2, isSet := true }
  computeMuMimoPairing n _ := n
  computeBytesOnNRbs _ _ _ blocks _ := 100 * blocks
  computeReqRbs _ _ _ bytes _ := (bytes + 99) / 100
  harqTxBuffers _ := none
  harqRxBuffers _ := none

/-- Three blocks for the UE. -/
def threeBlocks : LteAllocationModule :=
  (LteAllocationModule.initAndReset 10 1).noteBlocks MACRO 0 1025 3 300

/-- The list with blocks for the codewords `cws` of the UE. -/
def entriesFor (cws : List ℕ) : LteMacScheduleList :=
  cws.map fun cw => (toLex (65536 * 1025 + 1, cw), 3)

theorem uplinkList_entriesFor {cws : List ℕ} (hsorted : (entriesFor cws).Sorted)
    (hcw : ∀ cw ∈ cws, cw < MAX_CODEWORDS) : UplinkList (entriesFor cws) := by
  have hmem : ∀ e ∈ entriesFor cws, (ofLex e.1).1 = 65536 * 1025 + 1 ∧ (ofLex e.1).2 ∈ cws := by
    intro e he
    obtain ⟨cw, hcw, rfl⟩ := List.mem_map.1 he
    exact ⟨rfl, hcw⟩
  refine ⟨hsorted, fun e he => ?_, fun e he => ?_, fun e he => hcw _ (hmem e he).2,
    fun e he e' he' _ => (hmem e he).1.trans (hmem e' he').1.symm⟩
  · rw [(hmem e he).1]
    decide
  · rw [(hmem e he).1]
    decide

/-- Blocks for three UEs. -/
def nineBlocks : LteAllocationModule :=
  (threeBlocks.noteBlocks MACRO 0 1026 2 200).noteBlocks MACRO 0 1027 4 350

/-- Their entries; that of `1027` for its second codeword has no blocks. -/
def threeUes : LteMacScheduleList :=
  [(toLex (65536 * 1025 + 1, 0), 3), (toLex (65536 * 1026 + 1, 0), 2),
    (toLex (65536 * 1027 + 2, 0), 4), (toLex (65536 * 1027 + 2, 1), 0)]

theorem uplinkList_threeUes : UplinkList threeUes where
  sorted := by decide
  cid := by decide
  ue := by decide
  cw := by decide
  bsr := by decide

theorem reflects_threeUes : hundredBytes.Reflects nineBlocks threeUes
    (hundredBytes.sendGrants nineBlocks threeUes) := by
  refine (sendGrants_reflects_iff uplinkList_threeUes).2 fun e he hcw hpos => ?_
  have hfirst : ∀ e ∈ threeUes, 0 < e.2 → (ofLex e.1).2 = 0 := by decide
  rw [hfirst e he hpos] at hcw
  cases hcw

/-- **With both codewords the UE gets two grants.** -/
theorem two_grants : UplinkList (entriesFor [0, 1]) ∧
    ¬hundredBytes.Reflects threeBlocks (entriesFor [0, 1])
      (hundredBytes.sendGrants threeBlocks (entriesFor [0, 1])) := by
  have hl : UplinkList (entriesFor [0, 1]) := uplinkList_entriesFor (by decide) (by decide)
  refine ⟨hl, fun h => ?_⟩
  have hone := h.once 1025
  rw [length_grants hl.ue] at hone
  exact absurd hone (by decide)

end SchedulerEnv

end V2nLte
