import V2nLte.Mac.UlGrants

/-!
# The bands of a downlink retransmission

`LteSchedulerEnbDl::schedulePerAcidRtx` serves a buffered PDU as a whole or not at all.  It goes
over the band limits, skips the bands that must not be used, and collects the blocks and bytes of
the others in two vectors until the PDU is complete.  Then it books the `i`-th element of these
vectors on the `i`-th band of the limits.

Here the limits are any vectors, and the vector that the function leaves is followed too.

* `rtxPlan` : what the bands are to carry.
* `schedulePerAcidRtx_eq` : the function with its limits is the one of the other modules.
* `all_or_nothing_iff` : the plan is what is booked iff the PDU is complete before the first band
  that is skipped, or is not served, or has the blocks of another codeword.
-/

namespace V2nLte

/-- `BandLimit`, with the limits of all the codewords. -/
structure RtxBandLimit where
  /-- The band. -/
  band : Band
  /-- The bytes or blocks of each codeword. -/
  limit_ : List ℤ
  deriving DecidableEq

/-- The limits with the one for a codeword. -/
def limitsAt (cw : ℕ) : List RtxBandLimit → Except SchedulerError (List BandLimit)
  | [] => .ok []
  | l :: ls =>
    match l.limit_[cw]? with
    | none => .error .outOfRange
    | some limit => do
      let rest ← limitsAt cw ls
      return ⟨l.band, limit⟩ :: rest

/-- Store the amounts: the `i`-th one at the `i`-th limit. -/
def storeAmounts (cw : ℕ) : List RtxBandLimit → List (ℕ × ℕ) → List RtxBandLimit
  | ls, [] => ls
  | [], _ :: _ => []
  | l :: ls, (_, bytes) :: rest =>
    { l with limit_ := l.limit_.set cw bytes } :: storeAmounts cw ls rest

namespace DlEnv

variable (D : DlEnv)

/-- The limits if there are none: all the bands, unlimited. -/
def unlimitedBands : List RtxBandLimit :=
  (List.range D.env.numBands).map fun i => ⟨i, [-1, -1, -1, -1]⟩

/-- The codeword whose limits count. -/
def remappedCw (nodeId : MacNodeId) (cw : ℕ) : ℕ :=
  if (D.env.computeTxParams nodeId .DL).getLayers.length = 1 then 0 else cw

/-- `schedulePerAcidRtx`, with the limits it leaves and the bytes it returns. -/
def schedulePerAcidRtxLimits (st : DlState) (nodeId : MacNodeId) (cw acid : ℕ)
    (bandLim : Option (List RtxBandLimit)) (antenna : ℕ) (limitBl : Bool) :
    Except DlError (DlState × Option (List RtxBandLimit) × ℕ) := do
  let codewords := (D.env.computeTxParams nodeId .DL).getLayers.length
  let remappedCw := D.remappedCw nodeId cw
  let limits ← (limitsAt remappedCw (bandLim.getD D.unlimitedBands)).mapError .scheduler
  let a := D.env.prepareAllocator st.sched.allocator nodeId .DL antenna
  let prepared := { st with sched := { st.sched with allocator := a } }
  match st.harqTxBuffers.find nodeId with
  | none => .error (.scheduler .outOfRange)
  | some currHarq =>
    let allocatedCw := st.sched.allocatedCws nodeId
    let (left, assigned) ←
      (D.rtxBands a nodeId antenna limitBl remappedCw allocatedCw limits
        (currHarq.pduLength acid cw)).mapError .scheduler
    -- the PDU does not fit, and the caller's limits stay as they are
    if 0 < left then return (prepared, bandLim, 0)
    else
      let a ← (rtxBook nodeId antenna (limits.zip assigned) a).mapError .scheduler
      let bandLim := bandLim.map fun ls => storeAmounts remappedCw ls assigned
      let codewords := if allocatedCw ≠ 0 then codewords - 1 else codewords
      if allocatedCw ≠ 0 ∧ codewords = 0 then .error .codewordCount
      else
        let currHarq ← (currHarq.markSelected acid cw codewords).mapError .harq
        return ({
            sched := { st.sched with
              allocator := a
              allocatedCws := Function.update st.sched.allocatedCws nodeId (allocatedCw + 1) }
            harqTxBuffers := st.harqTxBuffers.put nodeId currHarq },
          bandLim, currHarq.pduLength acid cw)

/-! ### The limits of `getBandLimit` -/

section Limits

variable {D}

/-- Limits with an entry for the first codeword only. -/
def firstLimits (ls : List BandLimit) : List RtxBandLimit := ls.map fun l => ⟨l.band, [l.limit]⟩

theorem limitsAt_firstLimits (ls : List BandLimit) : limitsAt 0 (firstLimits ls) = .ok ls := by
  induction ls with
  | nil => rfl
  | cons l ls ih =>
    change (limitsAt 0 (firstLimits ls) >>= fun rest => pure (l :: rest)) = .ok (l :: ls)
    rw [ih]
    rfl

theorem limitsAt_unlimited {cw : ℕ} (hcw : cw < 4) (bands : List Band) :
    limitsAt cw (bands.map fun i => ⟨i, [-1, -1, -1, -1]⟩) =
      .ok (SchedulerEnv.unlimited bands) := by
  have hlimit : ([-1, -1, -1, -1] : List ℤ)[cw]? = some (-1) := by
    match cw, hcw with
    | 0, _ | 1, _ | 2, _ | 3, _ => rfl
  induction bands with
  | nil => rfl
  | cons i bands ih =>
    rw [List.map_cons, limitsAt]
    dsimp only
    rw [hlimit]
    dsimp only
    rw [ih]
    rfl

theorem limitsFor_eq {cw : ℕ} (hcw : cw < 4) (bandLim : Option (List BandLimit)) :
    D.limitsFor bandLim cw =
      limitsAt cw ((bandLim.map firstLimits).getD D.unlimitedBands) := by
  match bandLim with
  | none => exact (limitsAt_unlimited hcw _).symm
  | some [] => rfl
  | some (l :: ls) =>
    cases cw with
    | zero => exact (limitsAt_firstLimits (l :: ls)).symm
    | succ cw => rfl

/-- **With its limits, `schedulePerAcidRtx` is the function of the other modules.** -/
theorem schedulePerAcidRtx_eq (st : DlState) (nodeId : MacNodeId) {cw : ℕ}
    (hcw : cw < MAX_CODEWORDS) (acid : ℕ) (bandLim : Option (List BandLimit)) (antenna : ℕ)
    (limitBl : Bool) :
    D.schedulePerAcidRtx st nodeId cw acid bandLim antenna limitBl =
      (fun r => (r.1, r.2.2)) <$> D.schedulePerAcidRtxLimits st nodeId cw acid
        (bandLim.map firstLimits) antenna limitBl := by
  have hremapped : D.remappedCw nodeId cw < 4 := by
    rw [remappedCw]
    have : cw < 2 := hcw
    split <;> omega
  rw [schedulePerAcidRtx, schedulePerAcidRtxLimits, ← limitsFor_eq hremapped bandLim, remappedCw]
  generalize (if (D.env.computeTxParams nodeId .DL).getLayers.length = 1 then 0 else cw) = cw'
  cases D.limitsFor bandLim cw' with
  | error e => rfl
  | ok limits =>
    dsimp only [Except.mapError, bind, Except.bind]
    cases st.harqTxBuffers.find nodeId with
    | none => rfl
    | some b =>
      dsimp only
      cases D.rtxBands (D.env.prepareAllocator st.sched.allocator nodeId .DL antenna) nodeId antenna
          limitBl cw' (st.sched.allocatedCws nodeId) limits (b.pduLength acid cw) with
      | error e => rfl
      | ok r =>
        dsimp only
        split
        · rfl
        cases rtxBook nodeId antenna (limits.zip r.2)
            (D.env.prepareAllocator st.sched.allocator nodeId .DL antenna) with
        | error e => rfl
        | ok a =>
          dsimp only
          generalize (if st.sched.allocatedCws nodeId ≠ 0 then
            (D.env.computeTxParams nodeId .DL).getLayers.length - 1 else _) = codewords
          split
          · rfl
          · cases b.markSelected acid cw codewords <;> rfl

end Limits

/-! ### What the bands are to carry -/

/-- The bytes that a band can carry of a PDU. -/
def rtxCapacity (a : LteAllocationModule) (nodeId : MacNodeId) (cw allocatedCw : ℕ)
    (l : BandLimit) : ℕ :=
  let available :=
    if allocatedCw ≠ 0 then
      D.env.computeBytesOnNRbs nodeId l.band cw (a.getBlocks MACRO l.band nodeId) .DL
    else
      D.env.computeBytesOnNRbs nodeId l.band cw (a.availableBlocks nodeId MACRO l.band) .DL
  if 0 ≤ l.limit ∧ l.limit < available then l.limit.toNat else available

end DlEnv

/-- The bands that carry a PDU, with the bytes of each, if a band can carry `cap`. -/
def rtxPlan (cap : BandLimit → ℕ) : List BandLimit → ℕ → List (BandLimit × ℕ)
  | [], _ => []
  | l :: ls, bytes =>
    if l.limit = -2 then rtxPlan cap ls bytes
    else (l, min (cap l) bytes) ::
      if bytes - min (cap l) bytes = 0 then [] else rtxPlan cap ls (bytes - min (cap l) bytes)

/-- The bytes that the usable bands can carry. -/
def heldBy (cap : BandLimit → ℕ) (ls : List BandLimit) : ℕ :=
  ((ls.filter fun l => l.limit ≠ -2).map cap).sum

/-- The bytes of a plan. -/
def planBytes (plan : List (BandLimit × ℕ)) : ℕ := (plan.map Prod.snd).sum

section Plan

variable {cap : BandLimit → ℕ} {l : BandLimit} {ls q q' : List BandLimit} {bytes : ℕ}

theorem heldBy_cons : heldBy cap (l :: ls) =
    (if l.limit = -2 then 0 else cap l) + heldBy cap ls := by
  unfold heldBy
  by_cases hl : l.limit = -2
  · rw [if_pos hl, List.filter_cons_of_neg (by simpa using hl), Nat.zero_add]
  · rw [if_neg hl, List.filter_cons_of_pos (by simpa using hl), List.map_cons, List.sum_cons]

theorem heldBy_append : heldBy cap (q ++ q') = heldBy cap q + heldBy cap q' := by
  rw [heldBy, List.filter_append, List.map_append, List.sum_append]
  rfl

theorem mem_rtxPlan {e : BandLimit × ℕ} (h : e ∈ rtxPlan cap ls bytes) :
    e.1 ∈ ls ∧ e.1.limit ≠ -2 ∧ e.2 ≤ cap e.1 := by
  induction ls generalizing bytes with
  | nil => cases h
  | cons l ls ih =>
    rw [rtxPlan] at h
    split at h <;> rename_i hl
    · obtain ⟨hmem, hrest⟩ := ih h
      exact ⟨List.mem_cons_of_mem _ hmem, hrest⟩
    rcases List.mem_cons.1 h with rfl | h
    · exact ⟨List.mem_cons_self, hl, Nat.min_le_left _ _⟩
    · split at h
      · cases h
      · obtain ⟨hmem, hrest⟩ := ih h
        exact ⟨List.mem_cons_of_mem _ hmem, hrest⟩

/-- A plan carries the PDU, or all that the bands can carry. -/
theorem planBytes_rtxPlan : planBytes (rtxPlan cap ls bytes) = min (heldBy cap ls) bytes := by
  induction ls generalizing bytes with
  | nil => exact (Nat.zero_min _).symm
  | cons l ls ih =>
    rw [rtxPlan, heldBy_cons]
    split_ifs with hl hdone
    · rw [ih, Nat.zero_add]
    · simp only [planBytes, List.map_cons, List.map_nil, List.sum_cons, List.sum_nil]
      omega
    · have ih := @ih (bytes - min (cap l) bytes)
      simp only [planBytes, List.map_cons, List.sum_cons] at ih ⊢
      rw [ih]
      omega

/-- **The band with which the PDU is complete.** -/
theorem rtxPlan_completes (hbytes : 0 < bytes) (hle : bytes ≤ heldBy cap ls) :
    ∃ q l q', ls = q ++ l :: q' ∧ l.limit ≠ -2 ∧ heldBy cap q < bytes ∧
      bytes ≤ heldBy cap q + cap l ∧
      rtxPlan cap ls bytes = (q.filter fun l => l.limit ≠ -2).map (fun l => (l, cap l)) ++
        [(l, bytes - heldBy cap q)] := by
  induction ls generalizing bytes with
  | nil => exact absurd hle (Nat.not_le.2 hbytes)
  | cons l ls ih =>
    rw [heldBy_cons] at hle
    rw [rtxPlan]
    split_ifs at hle ⊢ with hl hdone
    · obtain ⟨q, l', q', rfl, hl', hlt, hle', hplan⟩ := ih hbytes (by omega)
      refine ⟨l :: q, l', q', rfl, hl', ?_, ?_, ?_⟩
      · rw [heldBy_cons, if_pos hl]
        omega
      · rw [heldBy_cons, if_pos hl]
        omega
      · rw [hplan, List.filter_cons_of_neg (by simpa using hl), heldBy_cons, if_pos hl,
          Nat.zero_add]
    · refine ⟨[], l, ls, rfl, hl, hbytes, ?_, ?_⟩
      · simp only [heldBy, List.filter_nil, List.map_nil, List.sum_nil]
        omega
      · have hmin : min (cap l) bytes = bytes := by omega
        rw [hmin]
        rfl
    · have hmin : min (cap l) bytes = cap l := by omega
      rw [hmin]
      obtain ⟨q, l', q', rfl, hl', hlt, hle', hplan⟩ :=
        @ih (bytes - cap l) (by omega) (by omega)
      refine ⟨l :: q, l', q', rfl, hl', ?_, ?_, ?_⟩
      · rw [heldBy_cons, if_neg hl]
        omega
      · rw [heldBy_cons, if_neg hl]
        omega
      · rw [hplan, List.filter_cons_of_pos (by simpa using hl), heldBy_cons, if_neg hl,
          Nat.sub_sub]
        rfl

end Plan

namespace DlEnv

variable {D : DlEnv} {a a' : LteAllocationModule} {nodeId : MacNodeId} {cw allocatedCw : ℕ}

theorem rtxAvailable_eq (l : BandLimit) :
    D.rtxAvailable a nodeId MACRO false cw allocatedCw l =
      .ok (D.rtxCapacity a nodeId cw allocatedCw l) := by
  have hfree : D.env.availableBytes a nodeId MACRO l.band cw .DL (-1) =
      .ok (D.env.computeBytesOnNRbs nodeId l.band cw
        (a.availableBlocks nodeId MACRO l.band) .DL) := by
    rw [SchedulerEnv.availableBytes]
    dsimp only
    rw [if_neg fun h => h.2 rfl, if_neg fun h => h.1 rfl]
  rw [rtxAvailable, rtxCapacity]
  split_ifs <;> simp_all [bind, Except.bind, pure, Except.pure]

/-- The blocks and bytes that are collected for a plan. -/
def assignedTo (D : DlEnv) (nodeId : MacNodeId) (cw allocatedCw : ℕ)
    (plan : List (BandLimit × ℕ)) : List (ℕ × ℕ) :=
  if allocatedCw = 0 then
    plan.map fun e => (D.env.computeReqRbs nodeId e.1.band cw e.2 .DL, e.2)
  else []

/-- **The band loop collects what the bands are to carry**, and the bytes that are left. -/
theorem rtxBands_eq (ls : List BandLimit) (bytes : ℕ) :
    D.rtxBands a nodeId MACRO false cw allocatedCw ls bytes =
      .ok (bytes - planBytes (rtxPlan (D.rtxCapacity a nodeId cw allocatedCw) ls bytes),
        D.assignedTo nodeId cw allocatedCw
          (rtxPlan (D.rtxCapacity a nodeId cw allocatedCw) ls bytes)) := by
  induction ls generalizing bytes with
  | nil =>
    rw [rtxBands, rtxPlan, assignedTo, List.map_nil, ite_self]
    rfl
  | cons l ls ih =>
    rw [rtxBands, rtxPlan]
    by_cases hl : l.limit = -2
    · rw [if_pos hl, if_pos hl]
      exact ih bytes
    rw [if_neg hl, if_neg hl, rtxAvailable_eq]
    dsimp only [bind, Except.bind]
    generalize D.rtxCapacity a nodeId cw allocatedCw l = c
    have hmin : (if c < bytes then c else bytes) = min c bytes := by
      split <;> omega
    rw [hmin]
    by_cases hdone : bytes - min c bytes = 0
    · rw [if_pos hdone, if_pos hdone]
      have hplan : planBytes [(l, min c bytes)] = min c bytes := by simp [planBytes]
      rw [hplan, hdone, assignedTo]
      split <;> rfl
    · rw [if_neg hdone, if_neg hdone, ih]
      have hplan (plan) : planBytes ((l, min c bytes) :: plan) = min c bytes + planBytes plan := by
        simp [planBytes]
      rw [hplan, ← Nat.sub_sub, assignedTo, assignedTo]
      by_cases hfirst : allocatedCw = 0
      · rw [if_pos hfirst, if_pos hfirst, if_pos hfirst]
        rfl
      · rw [if_neg hfirst, if_neg hfirst, if_neg hfirst]
        rfl

/-! ### What is booked -/

/-- The blocks of the requests for a band. -/
def blocksFor (b : Band) (requests : List (BandLimit × (ℕ × ℕ))) : ℕ :=
  ((requests.filter fun r => r.1.band = b).map fun r => r.2.1).sum

theorem blocksFor_cons {b : Band} {r : BandLimit × (ℕ × ℕ)}
    {requests : List (BandLimit × (ℕ × ℕ))} :
    blocksFor b (r :: requests) =
      (if r.1.band = b then r.2.1 else 0) + blocksFor b requests := by
  unfold blocksFor
  by_cases hb : r.1.band = b
  · rw [if_pos hb, List.filter_cons_of_pos (by simpa using hb), List.map_cons, List.sum_cons]
  · rw [if_neg hb, List.filter_cons_of_neg (by simpa using hb), Nat.zero_add]

theorem blocksFor_of_not_mem {b : Band} {requests : List (BandLimit × (ℕ × ℕ))}
    (h : ∀ r ∈ requests, r.1.band ≠ b) : blocksFor b requests = 0 := by
  rw [blocksFor, List.filter_eq_nil_iff.2 fun r hr => by simpa using h r hr]
  rfl

theorem getBlocks_noteBlocks (a : LteAllocationModule) (nodeId n : MacNodeId) (band b : Band)
    (blocks bytes : ℕ) :
    (a.noteBlocks MACRO band nodeId blocks bytes).getBlocks MACRO b n =
      a.getBlocks MACRO b n + if n = nodeId ∧ b = band then blocks else 0 := by
  have hplane : (a.noteBlocks MACRO band nodeId blocks bytes).getOFDMPlane n =
      a.getOFDMPlane n := by
    simp only [LteAllocationModule.getOFDMPlane, LteAllocationModule.noteBlocks,
      Function.update_apply]
    split <;> rename_i hn
    · rw [hn]
      rfl
    · rfl
  rw [LteAllocationModule.getBlocks, hplane, LteAllocationModule.getBlocks]
  simp only [LteAllocationModule.noteBlocks, true_and]
  by_cases hn : n = nodeId
  · subst hn
    by_cases hb : b = band
    · rw [if_pos ⟨rfl, hb⟩, if_pos ⟨rfl, hb⟩]
      exact Function.update_self ..
    · rw [if_neg fun h => hb h.2, if_neg fun h => hb h.2]
      rfl
  · rw [if_neg fun h : n = nodeId ∧ _ => hn h.1]
    split
    · exact Function.update_of_ne hn ..
    · rfl

theorem availableBlocks_noteBlocks (a : LteAllocationModule) (nodeId : MacNodeId) {band b : Band}
    (blocks bytes : ℕ) (hb : b ≠ band) :
    (a.noteBlocks MACRO band nodeId blocks bytes).availableBlocks nodeId MACRO b =
      a.availableBlocks nodeId MACRO b := by
  have hplane : (a.noteBlocks MACRO band nodeId blocks bytes).getOFDMPlane nodeId =
      a.getOFDMPlane nodeId := by
    simp only [LteAllocationModule.getOFDMPlane, LteAllocationModule.noteBlocks,
      Function.update_self]
    rfl
  rw [LteAllocationModule.availableBlocks, hplane, LteAllocationModule.availableBlocks]
  simp only [LteAllocationModule.noteBlocks, true_and]
  rw [if_neg hb]

theorem rtxBook_other {requests : List (BandLimit × (ℕ × ℕ))}
    (hbands : ∀ r ∈ requests, r.1.band < a.bands) :
    ∃ a', rtxBook nodeId MACRO requests a = .ok a' ∧ ∀ b n, (∀ r ∈ requests, r.1.band ≠ b) →
      a'.getBlocks MACRO b n = a.getBlocks MACRO b n := by
  induction requests generalizing a with
  | nil => exact ⟨a, rfl, fun b n _ => rfl⟩
  | cons r requests ih =>
    obtain ⟨l, blocks, bytes⟩ := r
    have hband : ¬a.bands ≤ l.band := Nat.not_le.2 (hbands _ List.mem_cons_self)
    have hrest : ∀ r ∈ requests, r.1.band < a.bands :=
      fun r hr => hbands r (List.mem_cons_of_mem _ hr)
    rw [rtxBook, LteAllocationModule.addBlocks, if_neg hband]
    split_ifs
    · obtain ⟨a', ha', hsame⟩ := ih hrest
      exact ⟨a', ha', fun b n hb => hsame b n fun r hr => hb r (List.mem_cons_of_mem _ hr)⟩
    · obtain ⟨a', ha', hsame⟩ := @ih (a.noteBlocks MACRO l.band nodeId blocks bytes) hrest
      refine ⟨a', ha', fun b n hb => ?_⟩
      rw [hsame b n fun r hr => hb r (List.mem_cons_of_mem _ hr), getBlocks_noteBlocks,
        if_neg fun h => hb _ List.mem_cons_self h.2.symm]
      rfl

/-- **Requests that fit, for different bands, are booked** as they are. -/
theorem rtxBook_fits {requests : List (BandLimit × (ℕ × ℕ))}
    (hbands : ∀ r ∈ requests, r.1.band < a.bands)
    (hnodup : (requests.map fun r => r.1.band).Nodup)
    (hfits : ∀ r ∈ requests, r.2.1 ≤ a.availableBlocks nodeId MACRO r.1.band)
    (hzero : ∀ r ∈ requests, r.2.2 = 0 → r.2.1 = 0) :
    ∃ a', rtxBook nodeId MACRO requests a = .ok a' ∧ ∀ b n,
      a'.getBlocks MACRO b n =
        a.getBlocks MACRO b n + if n = nodeId then blocksFor b requests else 0 := by
  induction requests generalizing a with
  | nil => exact ⟨a, rfl, fun b n => by rw [blocksFor]; simp⟩
  | cons r requests ih =>
    obtain ⟨l, blocks, bytes⟩ := r
    obtain ⟨hnot, htail⟩ := List.nodup_cons.1 hnodup
    have hne : ∀ r ∈ requests, r.1.band ≠ l.band :=
      fun r hr heq => hnot (List.mem_map.2 ⟨r, hr, heq⟩)
    have hband : ¬a.bands ≤ l.band := Nat.not_le.2 (hbands _ List.mem_cons_self)
    have hfit : blocks ≤ a.availableBlocks nodeId MACRO l.band := hfits _ List.mem_cons_self
    have hrest : ∀ r ∈ requests, r.1.band < a.bands :=
      fun r hr => hbands r (List.mem_cons_of_mem _ hr)
    have hzero' : ∀ r ∈ requests, r.2.2 = 0 → r.2.1 = 0 :=
      fun r hr => hzero r (List.mem_cons_of_mem _ hr)
    rw [rtxBook, LteAllocationModule.addBlocks, if_neg hband]
    split_ifs with href
    · -- a request that fits is refused only if it is for nothing
      obtain rfl : bytes = 0 := href.resolve_left (Nat.not_lt.2 hfit)
      obtain rfl : blocks = 0 := hzero _ List.mem_cons_self rfl
      obtain ⟨a', ha', hblocks⟩ :=
        ih hrest htail (fun r hr => hfits r (List.mem_cons_of_mem _ hr)) hzero'
      refine ⟨a', ha', fun b n => ?_⟩
      rw [hblocks, blocksFor_cons, ite_self, Nat.zero_add]
    · -- the blocks of this band are noted, and the other bands have what they had
      obtain ⟨a', ha', hblocks⟩ := @ih (a.noteBlocks MACRO l.band nodeId blocks bytes) hrest htail
        (fun r hr => by
          rw [availableBlocks_noteBlocks _ _ _ _ (hne r hr)]
          exact hfits r (List.mem_cons_of_mem _ hr)) hzero'
      refine ⟨a', ha', fun b n => ?_⟩
      rw [hblocks, getBlocks_noteBlocks, blocksFor_cons, Nat.add_assoc]
      congr 1
      by_cases hn : n = nodeId
      · simp only [hn, true_and, if_true, eq_comm]
      · simp only [hn, false_and, if_false]

/-! ### All or nothing -/

/-- What the function is called with: a PDU that is buffered, for a UE that is not paired with
another one and has a codeword left, and limits for different bands. -/
structure RtxInput (D : DlEnv) (st : DlState) (nodeId : MacNodeId) (cw acid : ℕ)
    (bandLim : Option (List RtxBandLimit)) (limits : List BandLimit) (b : LteHarqBufferTx) :
    Prop where
  /-- The allocator is in order. -/
  wf : st.sched.allocator.Wf
  /-- The UE is not paired with another one. -/
  unpaired : ¬(D.env.muMimo ∧ (D.env.computeTxParams nodeId .DL).txMode = .MULTI_USER ∧
    D.env.computeMuMimoPairing nodeId .DL ≠ nodeId)
  /-- The UE has an H-ARQ buffer. -/
  buffer : st.harqTxBuffers.find nodeId = some b
  /-- The unit waits for its retransmission. -/
  buffered : ((b.processes acid).units cw).status = .BUFFERED
  /-- A process with a buffered unit has not selected all its units. -/
  numSelected : (b.processes acid).numSelected ≠ MAX_CODEWORDS
  /-- The codeword exists. -/
  cw_lt : cw < MAX_CODEWORDS
  /-- The UE has a codeword left. -/
  allocatedCws : st.sched.allocatedCws nodeId < (D.env.computeTxParams nodeId .DL).getLayers.length
  /-- These are the limits that the function looks at. -/
  limits_eq : limitsAt (D.remappedCw nodeId cw) (bandLim.getD D.unlimitedBands) = .ok limits
  /-- The limits are for different bands. -/
  bands : (limits.map BandLimit.band).Nodup
  /-- The bands exist. -/
  band_lt : ∀ l ∈ limits, l.band < st.sched.allocator.bands

/-- The unit is selected, and nothing else in the buffers has changed. -/
structure Selected (m m' : HarqTxBuffers) (nodeId : MacNodeId) (acid cw : ℕ)
    (b : LteHarqBufferTx) : Prop where
  others : ∀ n, n ≠ nodeId → m'.find n = m.find n
  unit : ∃ b', m'.find nodeId = some b' ∧ ∀ acid' cw', (b'.processes acid').units cw' =
    if acid' = acid ∧ cw' = cw then { (b.processes acid).units cw with status := .SELECTED }
    else (b.processes acid').units cw'

/-- The requests of a plan: blocks are booked for the first codeword only. -/
def requestsOf (D : DlEnv) (nodeId : MacNodeId) (cw allocatedCw : ℕ)
    (plan : List (BandLimit × ℕ)) : List (BandLimit × (ℕ × ℕ)) :=
  plan.map fun e =>
    (e.1, if allocatedCw = 0 then D.env.computeReqRbs nodeId e.1.band cw e.2 .DL else 0, e.2)

/-- The plan for a PDU. -/
def planFor (D : DlEnv) (st : DlState) (nodeId : MacNodeId) (cw bytes : ℕ)
    (limits : List BandLimit) : List (BandLimit × ℕ) :=
  rtxPlan (D.rtxCapacity st.sched.allocator nodeId (D.remappedCw nodeId cw)
    (st.sched.allocatedCws nodeId)) limits bytes

/-- The PDU is served as planned: its bytes are those of the bands, none of which is marked `-2`,
and each band has got the blocks that have been computed for it. -/
structure ServedAsPlanned (D : DlEnv) (st st' : DlState) (nodeId : MacNodeId) (cw acid : ℕ)
    (limits : List BandLimit) (b : LteHarqBufferTx) : Prop where
  selected : Selected st.harqTxBuffers st'.harqTxBuffers nodeId acid cw b
  bytes : planBytes (D.planFor st nodeId cw (b.pduLength acid cw) limits) = b.pduLength acid cw
  blocks : ∀ band n, st'.sched.allocator.getBlocks MACRO band n =
    st.sched.allocator.getBlocks MACRO band n +
      if n = nodeId then
        blocksFor band (D.requestsOf nodeId (D.remappedCw nodeId cw)
          (st.sched.allocatedCws nodeId) (D.planFor st nodeId cw (b.pduLength acid cw) limits))
      else 0
  unusable : ∀ l ∈ limits, l.limit = -2 → ∀ n, st'.sched.allocator.getBlocks MACRO l.band n =
    st.sched.allocator.getBlocks MACRO l.band n

/-- Nothing is returned and changed, or the PDU is served as planned. -/
def AllOrNothing (D : DlEnv) (st : DlState) (nodeId : MacNodeId) (cw acid : ℕ)
    (bandLim : Option (List RtxBandLimit)) (limits : List BandLimit) (b : LteHarqBufferTx)
    (r : Except DlError (DlState × Option (List RtxBandLimit) × ℕ)) : Prop :=
  (∃ st', r = .ok (st', bandLim, 0) ∧ st'.sched.allocator = st.sched.allocator ∧
    st'.harqTxBuffers = st.harqTxBuffers) ∨
  ∃ st' bandLim', r = .ok (st', bandLim', b.pduLength acid cw) ∧
    D.ServedAsPlanned st st' nodeId cw acid limits b

/-- For the first codeword: the bands before any one that is skipped can carry the PDU, or all the
bands cannot. -/
def CompleteBeforeSkip (D : DlEnv) (st : DlState) (nodeId : MacNodeId) (cw bytes : ℕ)
    (limits : List BandLimit) : Prop :=
  st.sched.allocatedCws nodeId = 0 → ∀ pre l post, limits = pre ++ l :: post → l.limit = -2 →
    bytes ≤ heldBy (D.rtxCapacity st.sched.allocator nodeId (D.remappedCw nodeId cw) 0) pre ∨
      heldBy (D.rtxCapacity st.sched.allocator nodeId (D.remappedCw nodeId cw) 0) limits < bytes

variable {st st' : DlState} {acid : ℕ} {bandLim : Option (List RtxBandLimit)}
  {limits : List BandLimit} {b : LteHarqBufferTx}

theorem RtxInput.prepareAllocator (h : RtxInput D st nodeId cw acid bandLim limits b) :
    D.env.prepareAllocator st.sched.allocator nodeId .DL MACRO = st.sched.allocator := by
  rw [SchedulerEnv.prepareAllocator, if_neg h.unpaired]
  exact h.wf.setRemoteAntenna_main nodeId

theorem markSelected_buffered {availableTbs : ℕ} (htbs : availableTbs ≠ 0)
    (hbuffered : ((b.processes acid).units cw).status = .BUFFERED)
    (hnum : (b.processes acid).numSelected ≠ MAX_CODEWORDS) (hcw : cw < MAX_CODEWORDS) :
    ∃ b', b.markSelected acid cw availableTbs = .ok b' ∧
      b'.pduLength acid cw = b.pduLength acid cw ∧
      ∀ acid' cw', (b'.processes acid').units cw' =
        if acid' = acid ∧ cw' = cw then { (b.processes acid).units cw with status := .SELECTED }
        else (b.processes acid').units cw' := by
  have hready : ((b.processes acid).units cw).isReady = true := by
    rw [LteHarqUnitTx.isReady, hbuffered]
    rfl
  have hproc : (b.processes acid).markSelected cw =
      .ok { (b.processes acid).setUnit cw
        { (b.processes acid).units cw with status := .SELECTED } with
          numSelected := (b.processes acid).numSelected + 1 } := by
    rw [LteHarqProcessTx.markSelected, if_neg hnum, if_neg (Nat.not_le.2 hcw),
      LteHarqUnitTx.markSelected, if_neg (not_not.2 hready)]
    rfl
  have hunits : ∀ acid' cw', ((b.setProcess acid { (b.processes acid).setUnit cw
      { (b.processes acid).units cw with status := .SELECTED } with
        numSelected := (b.processes acid).numSelected + 1 }).processes acid').units cw' =
      if acid' = acid ∧ cw' = cw then { (b.processes acid).units cw with status := .SELECTED }
      else (b.processes acid').units cw' := by
    intro acid' cw'
    simp only [LteHarqBufferTx.setProcess, LteHarqProcessTx.setUnit, Function.update_apply]
    by_cases hacid : acid' = acid
    · subst hacid
      simp only [if_true, true_and, Function.update_apply]
    · simp only [hacid, if_false, false_and]
  refine ⟨{ b.setProcess acid { (b.processes acid).setUnit cw
      { (b.processes acid).units cw with status := .SELECTED } with
        numSelected := (b.processes acid).numSelected + 1 } with selectedAcid := acid }, ?_, ?_,
    hunits⟩
  · rw [LteHarqBufferTx.markSelected, if_neg htbs, hproc]
    rfl
  · have hunit := hunits acid cw
    rw [if_pos ⟨rfl, rfl⟩] at hunit
    exact (congrArg LteHarqUnitTx.pduLength hunit :)

/-- **A PDU that the bands cannot carry** is left as it is. -/
theorem schedulePerAcidRtxLimits_refused (h : RtxInput D st nodeId cw acid bandLim limits b)
    (hlt : heldBy (D.rtxCapacity st.sched.allocator nodeId (D.remappedCw nodeId cw)
      (st.sched.allocatedCws nodeId)) limits < b.pduLength acid cw) :
    D.schedulePerAcidRtxLimits st nodeId cw acid bandLim MACRO false = .ok (st, bandLim, 0) := by
  rw [schedulePerAcidRtxLimits, h.limits_eq, h.prepareAllocator, h.buffer]
  dsimp only [Except.mapError, bind, Except.bind]
  rw [rtxBands_eq, planBytes_rtxPlan]
  dsimp only
  rw [if_pos (by omega)]
  rfl

/-- **A PDU that the bands can carry** is served with what is booked. -/
theorem schedulePerAcidRtxLimits_served (h : RtxInput D st nodeId cw acid bandLim limits b)
    (hle : b.pduLength acid cw ≤ heldBy (D.rtxCapacity st.sched.allocator nodeId
      (D.remappedCw nodeId cw) (st.sched.allocatedCws nodeId)) limits)
    (hbook : rtxBook nodeId MACRO (limits.zip (D.assignedTo nodeId (D.remappedCw nodeId cw)
      (st.sched.allocatedCws nodeId) (D.planFor st nodeId cw (b.pduLength acid cw) limits)))
        st.sched.allocator = .ok a') :
    ∃ st' bandLim', D.schedulePerAcidRtxLimits st nodeId cw acid bandLim MACRO false =
        .ok (st', bandLim', b.pduLength acid cw) ∧
      st'.sched.allocator = a' ∧
      Selected st.harqTxBuffers st'.harqTxBuffers nodeId acid cw b := by
  have hcws := h.allocatedCws
  have htbs : (if st.sched.allocatedCws nodeId ≠ 0 then
      (D.env.computeTxParams nodeId .DL).getLayers.length - 1
      else (D.env.computeTxParams nodeId .DL).getLayers.length) ≠ 0 := by
    split <;> omega
  obtain ⟨b', hb', hlength, hunits⟩ :=
    markSelected_buffered htbs h.buffered h.numSelected h.cw_lt
  rw [schedulePerAcidRtxLimits, h.limits_eq, h.prepareAllocator, h.buffer]
  dsimp only [Except.mapError, bind, Except.bind]
  rw [rtxBands_eq, planBytes_rtxPlan]
  dsimp only
  rw [planFor] at hbook
  rw [if_neg (by omega), hbook]
  dsimp only
  rw [if_neg fun hcount => htbs hcount.2, hb']
  refine ⟨_, _, by rw [← hlength]; rfl, rfl, fun n hn => ?_, b', ?_, hunits⟩
  · dsimp only
    rw [OrderedMap.find_put, if_neg hn]
  · dsimp only
    rw [OrderedMap.find_put, if_pos rfl]

/-! ### The shift -/

theorem length_assignedTo {plan : List (BandLimit × ℕ)} :
    (D.assignedTo nodeId cw 0 plan).length = plan.length := by
  rw [assignedTo, if_pos rfl, List.length_map]

theorem eq_of_band {l l' : BandLimit} (hbands : (limits.map BandLimit.band).Nodup)
    (hl : l ∈ limits) (hl' : l' ∈ limits) (h : l.band = l'.band) : l = l' :=
  List.inj_on_of_nodup_map hbands hl hl' h

theorem mem_of_skipped {cap : BandLimit → ℕ} {pre post q q' : List BandLimit} {l l' : BandLimit}
    {bytes : ℕ} (hsplit : pre ++ l :: post = q ++ l' :: q') (hl : l.limit = -2)
    (hl' : l'.limit ≠ -2) (hpre : heldBy cap pre < bytes) (hle : bytes ≤ heldBy cap q + cap l') :
    l ∈ q := by
  have hne : l ≠ l' := fun h => hl' (h ▸ hl)
  rcases List.append_eq_append_iff.1 hsplit with ⟨as, rfl, has⟩ | ⟨bs, rfl, hbs⟩
  · cases as with
    | nil => exact absurd (List.cons.inj has).1 hne
    | cons x as =>
      obtain ⟨rfl, -⟩ := List.cons.inj has
      exact List.mem_append_right _ List.mem_cons_self
  · cases bs with
    | nil => exact absurd (List.cons.inj hbs).1.symm hne
    | cons x bs =>
      obtain ⟨rfl, -⟩ := List.cons.inj hbs
      rw [heldBy_append, heldBy_cons, if_neg hl'] at hpre
      omega

/-- **A skipped band shifts what is booked**: the band with which the PDU is complete gets
nothing. -/
theorem last_band_forgotten {cap : BandLimit → ℕ} {q q' : List BandLimit} {l m : BandLimit}
    {assigned : List (ℕ × ℕ)} {bytes : ℕ} (hlimits : limits = q ++ l :: q')
    (hbands : (limits.map BandLimit.band).Nodup) (hm : m ∈ q) (hskip : m.limit = -2)
    (hplan : rtxPlan cap limits bytes =
      (q.filter fun l => l.limit ≠ -2).map (fun l => (l, cap l)) ++ [(l, bytes - heldBy cap q)])
    (hlen : assigned.length = (rtxPlan cap limits bytes).length) :
    ∀ r ∈ limits.zip assigned, r.1.band ≠ l.band := by
  have hshort : (q.filter fun l => l.limit ≠ -2).length < q.length :=
    List.length_filter_lt_length_iff_exists.2 ⟨m, hm, by simpa using hskip⟩
  have hle : assigned.length ≤ q.length := by
    rw [hlen, hplan, List.length_append, List.length_map, List.length_singleton]
    omega
  intro r hr heq
  rw [hlimits, zip_append_of_le hle] at hr
  rw [hlimits, List.map_append, List.map_cons] at hbands
  have hnot := (List.nodup_cons.1 (List.nodup_middle.1 hbands)).1
  exact hnot (List.mem_append_left _ (List.mem_map.2 ⟨r.1, (List.of_mem_zip hr).1, heq⟩))

theorem rtxCapacity_le (l : BandLimit) : D.rtxCapacity a nodeId cw 0 l ≤
    D.env.computeBytesOnNRbs nodeId l.band cw (a.availableBlocks nodeId MACRO l.band) .DL := by
  rw [rtxCapacity, if_neg (by decide : ¬(0 ≠ 0))]
  split <;> omega

theorem req_le_availableBlocks (hE : D.env.AmcFits) {l : BandLimit} {bytes : ℕ}
    (h : bytes ≤ D.rtxCapacity a nodeId cw 0 l) :
    D.env.computeReqRbs nodeId l.band cw bytes .DL ≤ a.availableBlocks nodeId MACRO l.band := by
  rcases Nat.eq_zero_or_pos bytes with rfl | hpos
  · rw [hE.nothing]
    exact Nat.zero_le _
  · exact hE.fit _ _ _ _ _ _ hpos (h.trans (rtxCapacity_le l))

theorem blocksFor_unusable {plan : List (BandLimit × ℕ)} {l : BandLimit}
    (hbands : (limits.map BandLimit.band).Nodup) (hl : l ∈ limits) (hskip : l.limit = -2)
    (hplan : ∀ e ∈ plan, e.1 ∈ limits ∧ e.1.limit ≠ -2) :
    blocksFor l.band (D.requestsOf nodeId cw allocatedCw plan) = 0 := by
  refine blocksFor_of_not_mem fun r hr heq => ?_
  obtain ⟨e, he, rfl⟩ := List.mem_map.1 hr
  obtain ⟨hmem, husable⟩ := hplan e he
  exact husable (eq_of_band hbands hmem hl heq ▸ hskip)

/-- **If the PDU is complete before a band is skipped**, the plan is for the first bands. -/
theorem rtxPlan_prefix {cap : BandLimit → ℕ} {bytes : ℕ} (hpos : 0 < bytes)
    (hle : bytes ≤ heldBy cap limits)
    (hcomplete : ∀ pre l post, limits = pre ++ l :: post → l.limit = -2 →
      bytes ≤ heldBy cap pre ∨ heldBy cap limits < bytes) :
    ∃ q', limits = (rtxPlan cap limits bytes).map Prod.fst ++ q' := by
  obtain ⟨q, l, q', hlimits, hl, hlt, hle', hplan⟩ := rtxPlan_completes hpos hle
  have husable : (q.filter fun l => l.limit ≠ -2) = q := by
    refine List.filter_eq_self.2 fun m hm => ?_
    by_contra hskip
    have hskip : m.limit = -2 := by simpa using hskip
    obtain ⟨pre, post, rfl⟩ := List.append_of_mem hm
    rcases hcomplete pre m (post ++ l :: q') (by rw [hlimits]; simp) hskip with hpre | hall
    · rw [heldBy_append] at hlt
      omega
    · omega
  refine ⟨q', ?_⟩
  rw [hplan, husable, hlimits]
  simp [Function.comp_def]

theorem zip_assignedTo {plan : List (BandLimit × ℕ)} {q' : List BandLimit}
    (h : limits = plan.map Prod.fst ++ q') :
    limits.zip (D.assignedTo nodeId cw 0 plan) = D.requestsOf nodeId cw 0 plan := by
  rw [h, zip_append_of_le (by rw [length_assignedTo, List.length_map]), assignedTo, if_pos rfl,
    List.zip_map']
  rfl

theorem rtxPlan_zero {cap : BandLimit → ℕ} {ls : List BandLimit} {e : BandLimit × ℕ}
    (h : e ∈ rtxPlan cap ls 0) : e.2 = 0 := by
  induction ls with
  | nil => cases h
  | cons l ls ih =>
    rw [rtxPlan] at h
    split at h
    · exact ih h
    · rw [if_pos (Nat.zero_sub _)] at h
      obtain rfl := List.mem_singleton.1 h
      exact Nat.min_zero _

theorem rtxBook_zero {requests : List (BandLimit × (ℕ × ℕ))}
    (h : ∀ r ∈ requests, r.1.band < a.bands ∧ r.2.2 = 0) :
    rtxBook nodeId MACRO requests a = .ok a := by
  induction requests with
  | nil => rfl
  | cons r requests ih =>
    obtain ⟨l, blocks, bytes⟩ := r
    obtain ⟨hband, rfl⟩ := h _ List.mem_cons_self
    rw [rtxBook, LteAllocationModule.addBlocks, if_neg (Nat.not_le.2 hband), if_pos (.inr rfl)]
    exact ih fun r hr => h r (List.mem_cons_of_mem _ hr)

theorem blocksFor_zero {band : Band} {requests : List (BandLimit × (ℕ × ℕ))}
    (h : ∀ r ∈ requests, r.2.1 = 0) : blocksFor band requests = 0 := by
  refine List.sum_eq_zero fun n hn => ?_
  obtain ⟨r, hr, rfl⟩ := List.mem_map.1 hn
  exact h r (List.mem_filter.1 hr).1

/-- If the PDU is complete before a band is skipped, what is booked is what is planned. -/
theorem booked_of_complete (hE : D.env.AmcFits) (h : RtxInput D st nodeId cw acid bandLim limits b)
    (hle : b.pduLength acid cw ≤ heldBy (D.rtxCapacity st.sched.allocator nodeId
      (D.remappedCw nodeId cw) (st.sched.allocatedCws nodeId)) limits)
    (hcomplete : D.CompleteBeforeSkip st nodeId cw (b.pduLength acid cw) limits) :
    ∃ a', rtxBook nodeId MACRO (limits.zip (D.assignedTo nodeId (D.remappedCw nodeId cw)
        (st.sched.allocatedCws nodeId) (D.planFor st nodeId cw (b.pduLength acid cw) limits)))
          st.sched.allocator = .ok a' ∧
      ∀ band n, a'.getBlocks MACRO band n = st.sched.allocator.getBlocks MACRO band n +
        if n = nodeId then
          blocksFor band (D.requestsOf nodeId (D.remappedCw nodeId cw)
            (st.sched.allocatedCws nodeId) (D.planFor st nodeId cw (b.pduLength acid cw) limits))
        else 0 := by
  rw [planFor]
  by_cases hcws : st.sched.allocatedCws nodeId = 0
  swap
  · -- nothing is booked for a second codeword
    refine ⟨st.sched.allocator, ?_, fun band n => ?_⟩
    · rw [assignedTo, if_neg hcws, List.zip_nil_right]
      rfl
    · rw [blocksFor_zero, ite_self, Nat.add_zero]
      intro r hr
      obtain ⟨e, -, rfl⟩ := List.mem_map.1 hr
      exact if_neg hcws
  have hcomplete := hcomplete hcws
  rw [hcws] at hle ⊢
  rcases Nat.eq_zero_or_pos (b.pduLength acid cw) with hzero | hpos
  · -- a PDU without bytes needs no blocks
    rw [hzero]
    refine ⟨st.sched.allocator, rtxBook_zero fun r hr => ?_, fun band n => ?_⟩
    · obtain ⟨hmem, hreq⟩ := List.of_mem_zip hr
      rw [assignedTo, if_pos rfl] at hreq
      obtain ⟨e, he, hreq⟩ := List.mem_map.1 hreq
      rw [← hreq]
      exact ⟨h.band_lt _ hmem, rtxPlan_zero he⟩
    · rw [blocksFor_zero, ite_self, Nat.add_zero]
      intro r hr
      obtain ⟨e, he, rfl⟩ := List.mem_map.1 hr
      dsimp only
      rw [if_pos rfl, rtxPlan_zero he, hE.nothing]
  -- the bands that are booked are the first of the plan
  obtain ⟨q', hplan⟩ := rtxPlan_prefix hpos hle hcomplete
  rw [zip_assignedTo hplan]
  refine rtxBook_fits (fun r hr => ?_) ?_ (fun r hr => ?_) fun r hr hzero => ?_
  · obtain ⟨e, he, rfl⟩ := List.mem_map.1 hr
    exact h.band_lt _ (mem_rtxPlan he).1
  · have hbands := h.bands
    rw [hplan, List.map_append, List.map_map] at hbands
    rw [requestsOf, List.map_map]
    exact hbands.of_append_left
  · obtain ⟨e, he, rfl⟩ := List.mem_map.1 hr
    exact req_le_availableBlocks hE (mem_rtxPlan he).2.2
  · obtain ⟨e, he, rfl⟩ := List.mem_map.1 hr
    dsimp only at hzero ⊢
    rw [if_pos rfl, hzero, hE.nothing]

theorem RtxInput.rtxBook_other (h : RtxInput D st nodeId cw acid bandLim limits b)
    (assigned : List (ℕ × ℕ)) :
    ∃ a', rtxBook nodeId MACRO (limits.zip assigned) st.sched.allocator = .ok a' ∧
      ∀ band n, (∀ r ∈ limits.zip assigned, r.1.band ≠ band) →
        a'.getBlocks MACRO band n = st.sched.allocator.getBlocks MACRO band n :=
  DlEnv.rtxBook_other fun _ hr => h.band_lt _ (List.of_mem_zip hr).1

theorem blocksFor_completing (hE : D.env.AmcFits) {l : BandLimit} {bytes : ℕ}
    {plan : List (BandLimit × ℕ)} (hpos : 0 < bytes)
    (hle : bytes ≤ D.rtxCapacity a nodeId cw 0 l) :
    0 < blocksFor l.band (D.requestsOf nodeId cw 0 (plan ++ [(l, bytes)])) := by
  have hreq : 0 < D.env.computeReqRbs nodeId l.band cw bytes .DL :=
    hE.something _ _ _ _ _ _ hpos (hle.trans (rtxCapacity_le l))
  rw [requestsOf, List.map_append, blocksFor, List.filter_append, List.map_append, List.sum_append]
  refine Nat.lt_of_lt_of_le hreq ((Nat.le_of_eq ?_).trans (Nat.le_add_left _ _))
  simp

/-- If what is booked is what is planned, the PDU is complete before a band is skipped. -/
theorem complete_of_booked (hE : D.env.AmcFits) (h : RtxInput D st nodeId cw acid bandLim limits b)
    (hbook : rtxBook nodeId MACRO (limits.zip (D.assignedTo nodeId (D.remappedCw nodeId cw)
      (st.sched.allocatedCws nodeId) (D.planFor st nodeId cw (b.pduLength acid cw) limits)))
        st.sched.allocator = .ok a')
    (hblocks : ∀ band, a'.getBlocks MACRO band nodeId =
      st.sched.allocator.getBlocks MACRO band nodeId +
        blocksFor band (D.requestsOf nodeId (D.remappedCw nodeId cw)
          (st.sched.allocatedCws nodeId) (D.planFor st nodeId cw (b.pduLength acid cw) limits))) :
    D.CompleteBeforeSkip st nodeId cw (b.pduLength acid cw) limits := by
  intro hcws pre m post hsplit hskip
  by_contra hnot
  obtain ⟨hpre, hall⟩ := not_or.1 hnot
  rw [planFor, hcws] at hbook hblocks
  have hpos : 0 < b.pduLength acid cw := Nat.lt_of_le_of_lt (Nat.zero_le _) (Nat.lt_of_not_le hpre)
  obtain ⟨q, l, q', hlimits, hl, hlt, hle', hplan⟩ :=
    rtxPlan_completes hpos (Nat.le_of_not_lt hall)
  have hm : m ∈ q := mem_of_skipped (hsplit.symm.trans hlimits) hskip hl
    (Nat.lt_of_not_le hpre) hle'
  -- the band with which the PDU is complete is not among those that are booked
  have hforgotten := last_band_forgotten hlimits h.bands hm hskip hplan
    (length_assignedTo : (D.assignedTo nodeId (D.remappedCw nodeId cw) 0 _).length = _)
  obtain ⟨a'', ha'', hother⟩ := h.rtxBook_other (D.assignedTo nodeId (D.remappedCw nodeId cw) 0
    (rtxPlan (D.rtxCapacity st.sched.allocator nodeId (D.remappedCw nodeId cw) 0) limits
      (b.pduLength acid cw)))
  obtain rfl : a'' = a' := Except.ok.inj (ha''.symm.trans hbook)
  have hgot := hblocks l.band
  rw [hother l.band nodeId hforgotten, hplan] at hgot
  refine absurd hgot (Nat.ne_of_lt (Nat.lt_add_of_pos_right ?_))
  exact blocksFor_completing hE (a := st.sched.allocator) (by omega) (by omega)

/-- **All or nothing** iff, for the first codeword, the bands before any one that is skipped can
carry the PDU, or all the bands cannot. -/
theorem all_or_nothing_iff (D : DlEnv) (T : TbsTables) {st : DlState} {nodeId : MacNodeId}
    {cw acid : ℕ} {bandLim : Option (List RtxBandLimit)} {limits : List BandLimit}
    {b : LteHarqBufferTx} (h : RtxInput (D.withAmc T) st nodeId cw acid bandLim limits b) :
    (D.withAmc T).AllOrNothing st nodeId cw acid bandLim limits b
        ((D.withAmc T).schedulePerAcidRtxLimits st nodeId cw acid bandLim MACRO false) ↔
      (D.withAmc T).CompleteBeforeSkip st nodeId cw (b.pduLength acid cw) limits := by
  have hE : (D.withAmc T).env.AmcFits := SchedulerEnv.withAmc_amcFits D.env T
  generalize D.withAmc T = D at h hE ⊢
  rcases Nat.lt_or_ge (heldBy (D.rtxCapacity st.sched.allocator nodeId (D.remappedCw nodeId cw)
    (st.sched.allocatedCws nodeId)) limits) (b.pduLength acid cw) with hlt | hle
  · rw [schedulePerAcidRtxLimits_refused h hlt]
    refine iff_of_true (.inl ⟨st, rfl, rfl, rfl⟩) fun hcws _ _ _ _ _ => .inr ?_
    rw [hcws] at hlt
    exact hlt
  obtain ⟨a', hbook, -⟩ := h.rtxBook_other (D.assignedTo nodeId (D.remappedCw nodeId cw)
    (st.sched.allocatedCws nodeId) (D.planFor st nodeId cw (b.pduLength acid cw) limits))
  obtain ⟨st', bandLim', hr, ha', hselected⟩ := schedulePerAcidRtxLimits_served h hle hbook
  rw [hr]
  constructor
  · rintro (⟨st'', hst'', -⟩ | ⟨st'', bandLim'', hst'', hserved⟩)
    · -- nothing is returned for a PDU without bytes only
      have hzero : b.pduLength acid cw = 0 := by
        simp only [Except.ok.injEq, Prod.mk.injEq] at hst''
        exact hst''.2.2
      intro _ _ _ _ _ _
      left
      rw [hzero]
      exact Nat.zero_le _
    · cases hst''
      refine complete_of_booked hE h hbook fun band => ?_
      rw [← ha', hserved.blocks, if_pos rfl]
  · intro hcomplete
    obtain ⟨a'', hbook', hblocks⟩ := booked_of_complete hE h hle hcomplete
    obtain rfl : a'' = a' := Except.ok.inj (hbook'.symm.trans hbook)
    refine .inr ⟨st', bandLim', rfl, hselected, ?_, ?_, fun l hl hskip n => ?_⟩
    · rw [planFor, planBytes_rtxPlan]
      omega
    · rw [ha']
      exact hblocks
    · rw [ha', hblocks, blocksFor_unusable h.bands hl hskip fun e he => ?_, ite_self, Nat.add_zero]
      obtain ⟨hmem, husable, -⟩ := mem_rtxPlan he
      exact ⟨hmem, husable⟩

/-! ### A band that is not usable -/

/-- A process whose first unit has 8 bytes to be sent again. -/
def eightBytes : LteHarqBufferTx where
  numProc := 8
  processes _ := {
    units := fun cw => if cw = 0 then ⟨some 1, 8, 1, .BUFFERED⟩ else {}
    numEmptyUnits := 1 }

/-- The UE `1025` with such a process, and five free blocks on each of two bands. -/
def oneRetransmission : DlState where
  sched := { allocator := .initAndReset 10 2 }
  harqTxBuffers := [(1025, eightBytes)]

/-- Limits for two bands. -/
def twoLimits (first second : ℤ) : List RtxBandLimit := [⟨0, [first, first]⟩, ⟨1, [second, second]⟩]

/-- The downlink scheduler of a cell with two bands; a block holds two bytes. -/
def twoBands : DlEnv := ⟨SchedulerEnv.uplinkCell, fun _ => none⟩

theorem rtxInput_twoLimits (first second : ℤ) :
    RtxInput (twoBands.withAmc SchedulerEnv.sixteenBits) oneRetransmission 1025 0 0
      (some (twoLimits first second)) [⟨0, first⟩, ⟨1, second⟩] eightBytes where
  wf := LteAllocationModule.wf_initAndReset 10 2
  unpaired h := by cases h.1
  buffer := rfl
  buffered := rfl
  numSelected := by decide
  cw_lt := by decide
  allocatedCws := by decide
  limits_eq := rfl
  bands := by simp
  band_lt l hl := by
    rcases List.mem_cons.1 hl with rfl | hl
    · exact Nat.two_pos
    · obtain rfl := List.mem_singleton.1 hl
      exact Nat.one_lt_two

/-- With the second band unusable the first one gets the whole PDU. -/
theorem all_or_nothing_first :
    (twoBands.withAmc SchedulerEnv.sixteenBits).AllOrNothing oneRetransmission 1025 0 0
      (some (twoLimits (-1) (-2))) [⟨0, -1⟩, ⟨1, -2⟩] eightBytes
      ((twoBands.withAmc SchedulerEnv.sixteenBits).schedulePerAcidRtxLimits oneRetransmission 1025 0
        0 (some (twoLimits (-1) (-2))) MACRO false) := by
  refine (all_or_nothing_iff twoBands SchedulerEnv.sixteenBits (rtxInput_twoLimits (-1) (-2))).2 ?_
  intro _ pre l post hsplit hskip
  left
  match pre with
  | [] =>
    obtain ⟨rfl, -⟩ := List.cons.inj hsplit
    cases hskip
  | m :: pre =>
    obtain ⟨rfl, -⟩ := List.cons.inj hsplit
    rw [heldBy_cons]
    exact Nat.le_trans (by decide) (Nat.le_add_right _ _)

/-- **With the first band unusable the blocks are booked there.** -/
theorem booked_on_unusable :
    RtxInput (twoBands.withAmc SchedulerEnv.sixteenBits) oneRetransmission 1025 0 0
      (some (twoLimits (-2) (-1))) [⟨0, -2⟩, ⟨1, -1⟩] eightBytes ∧
    ¬(twoBands.withAmc SchedulerEnv.sixteenBits).AllOrNothing oneRetransmission 1025 0 0
      (some (twoLimits (-2) (-1))) [⟨0, -2⟩, ⟨1, -1⟩] eightBytes
      ((twoBands.withAmc SchedulerEnv.sixteenBits).schedulePerAcidRtxLimits oneRetransmission 1025 0
        0 (some (twoLimits (-2) (-1))) MACRO false) := by
  refine ⟨rtxInput_twoLimits (-2) (-1), ?_⟩
  rintro (⟨st', hst', -⟩ | ⟨st', bandLim', hst', hserved⟩)
  · cases hst'
  · cases hst'
    have hsame := hserved.unusable ⟨0, -2⟩ List.mem_cons_self rfl 1025
    exact absurd hsame (by decide)

end DlEnv

end V2nLte
