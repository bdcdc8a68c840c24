import V2nLte.Mac.Tbs
import V2nLte.Machine.Basic

/-!
# What a grant records

`scheduleGrant` counts the bytes and blocks it books with counters of its own and does not look at
the answers of the allocator.  With an AMC whose answers fit together no request is refused, so
that the allocator holds what `scheduleGrant` reports and what it puts into the schedule list.

* `addBlocksAnswers_true` : the allocator refuses nothing.
* `records_kept` : over any sequence of calls the records agree.

A queue of `2 ^ 32` bytes, with the headers, is no queue for the 32-bit counters, and
`computeReqRbs` finds `2 ^ 29` bytes in a single block (`wrapped_bits`).
-/

namespace V2nLte

open Finset

/-! ### The counts of a UE -/

namespace LteAllocationModule

/-- The counts of the UEs after a UE has got some blocks. -/
structure Booked (a a' : LteAllocationModule) (nodeId : MacNodeId) (blocks bytes : ℕ) : Prop where
  bands : a'.bands = a.bands
  bytes : ∀ n, (a'.allocatedRbsUe n).allocatedBytes =
    (a.allocatedRbsUe n).allocatedBytes + if n = nodeId then bytes else 0
  blocks : ∀ n, (a'.allocatedRbsUe n).allocatedBlocks =
    (a.allocatedRbsUe n).allocatedBlocks + if n = nodeId then blocks else 0

variable {a a' a'' : LteAllocationModule} {nodeId : MacNodeId} {antenna : ℕ} {band : Band}
  {blocks bytes blocks' bytes' : ℕ}

theorem Booked.refl (a : LteAllocationModule) (nodeId : MacNodeId) : Booked a a nodeId 0 0 :=
  ⟨rfl, fun _ => by rw [ite_self, Nat.add_zero], fun _ => by rw [ite_self, Nat.add_zero]⟩

theorem Booked.trans (h : Booked a a' nodeId blocks bytes)
    (h' : Booked a' a'' nodeId blocks' bytes') :
    Booked a a'' nodeId (blocks + blocks') (bytes + bytes') where
  bands := h'.bands.trans h.bands
  bytes n := by
    rw [h'.bytes, h.bytes, Nat.add_assoc]
    split <;> rfl
  blocks n := by
    rw [h'.blocks, h.blocks, Nat.add_assoc]
    split <;> rfl

theorem booked_noteBlocks :
    Booked a (a.noteBlocks antenna band nodeId blocks bytes) nodeId blocks bytes where
  bands := rfl
  bytes n := by
    simp only [noteBlocks, Function.update_apply]
    split <;> rename_i hn
    · rw [hn]
      rfl
    · rfl
  blocks n := by
    simp only [noteBlocks, Function.update_apply]
    split <;> rename_i hn
    · rw [hn]
      rfl
    · rfl

theorem booked_pairUsers (a : LteAllocationModule) (nodeId peer : MacNodeId) :
    Booked a (a.pairUsers nodeId peer) nodeId 0 0 where
  bands := rfl
  bytes n := by
    simp only [pairUsers, Function.update_apply]
    split_ifs <;> simp_all
  blocks n := by
    simp only [pairUsers, Function.update_apply]
    split_ifs <;> simp_all

theorem booked_addAntennas (plane : Plane) (n total : ℕ) :
    Booked a (a.addAntennas plane n total) nodeId 0 0 :=
  ⟨rfl, (Booked.refl a nodeId).bytes, (Booked.refl a nodeId).blocks⟩

theorem booked_configureOFDMplane (plane : Plane) :
    Booked a (a.configureOFDMplane plane) nodeId 0 0 := by
  unfold configureOFDMplane
  split
  · exact booked_addAntennas _ _ _
  · exact .refl a nodeId

theorem booked_configureMuMimoPeering (peer : MacNodeId) :
    Booked a (a.configureMuMimoPeering nodeId peer).1 nodeId 0 0 := by
  unfold configureMuMimoPeering
  split
  · exact .refl a nodeId
  · have hpaired := (booked_pairUsers a nodeId peer).trans
      (booked_configureOFDMplane .MU_MIMO_PLANE)
    generalize (a.pairUsers nodeId peer).configureOFDMplane .MU_MIMO_PLANE = a₁ at hpaired
    dsimp only
    induction (a.allocatedRbsUe nodeId).availableAntennaSet generalizing a₁ with
    | nil => exact hpaired
    | cons j js ih => exact ih _ (hpaired.trans (booked_addAntennas .MU_MIMO_PLANE _ _))

/-- A request that the band can satisfy. -/
theorem addBlocks_eq_true (hband : band < a.bands)
    (hblocks : blocks ≤ a.availableBlocks nodeId antenna band) (hbytes : bytes ≠ 0) :
    a.addBlocks antenna band nodeId blocks bytes =
      .ok (a.noteBlocks antenna band nodeId blocks bytes, true) := by
  rw [addBlocks, if_neg (Nat.not_le.mpr hband), if_neg]
  rintro (h | h)
  · exact absurd hblocks (Nat.not_le.mpr h)
  · exact hbytes h

end LteAllocationModule

namespace SchedulerEnv

variable (E : SchedulerEnv)

/-! ### The band loop -/

/-- The answers of `addBlocks` in the band loop. -/
def addBlocksAnswers (nodeId : MacNodeId) (dir : FlowDirection) (antenna : ℕ) (limitBl : Bool)
    (queueLength : ℕ) : List BandLimit → BandLoop → List (Except SchedulerError Bool)
  | [], _ => []
  | l :: ls, st =>
    -- a band that may not be used is passed over
    if l.limit = -2 then addBlocksAnswers nodeId dir antenna limitBl queueLength ls st
    else
      match E.availableBytes st.allocator nodeId antenna l.band 0 dir
        (if limitBl then l.limit else -1) with
      | .error _ => []
      | .ok available =>
        if available = 0 then addBlocksAnswers nodeId dir antenna limitBl queueLength ls st
        else
          let available :=
            if ¬limitBl ∧ 0 ≤ l.limit ∧ l.limit < available then l.limit.toNat else available
          let uBytes := if queueLength < available then queueLength else available
          let uBlocks := E.computeReqRbs nodeId l.band 0 uBytes dir
          match st.allocator.addBlocks antenna l.band nodeId uBlocks uBytes with
          | .error e => [.error e]
          | .ok (allocator, answer) =>
            .ok answer ::
              match lowerLimit l uBlocks with
              | .error _ => []
              -- the source cuts the remaining amount off at zero
              | .ok _ =>
                let toServe := if st.toServe < uBytes then 0 else st.toServe - uBytes
                if toServe = 0 then []
                else addBlocksAnswers nodeId dir antenna limitBl queueLength ls
                  { allocator := allocator
                    toServe := toServe
                    cwAllocatedBytes := u32 (st.cwAllocatedBytes + uBytes)
                    cwAllocatedBlocks := st.cwAllocatedBlocks + uBlocks }

variable {E} {nodeId : MacNodeId} {dir : FlowDirection} {antenna q : ℕ} {limitBl : Bool}
  {bs : List Band} {st : BandLoop} {r : BandLoop × List BandLimit × Bool}

/-- What a band holds fits into its free blocks. -/
theorem BlocksFit.addBlocks (hfit : E.BlocksFit) {a : LteAllocationModule} {b : Band}
    (hq : 0 < q) (hb : b < a.bands) (h₀ : E.capacity a nodeId dir antenna b ≠ 0) :
    a.addBlocks antenna b nodeId
        (E.computeReqRbs nodeId b 0 (min (E.capacity a nodeId dir antenna b) q) dir)
        (min (E.capacity a nodeId dir antenna b) q) =
      .ok (a.noteBlocks antenna b nodeId
        (E.computeReqRbs nodeId b 0 (min (E.capacity a nodeId dir antenna b) q) dir)
        (min (E.capacity a nodeId dir antenna b) q), true) := by
  have hpos : 0 < min (E.capacity a nodeId dir antenna b) q :=
    Nat.lt_min.mpr ⟨Nat.pos_of_ne_zero h₀, hq⟩
  exact LteAllocationModule.addBlocks_eq_true hb
    (hfit _ _ _ _ _ _ hpos (Nat.min_le_left _ _)) (Nat.ne_of_gt hpos)

/-- **The allocator refuses nothing.** -/
theorem addBlocksAnswers_true (hfit : E.BlocksFit) (hq : 0 < q)
    (hbs : ∀ b ∈ bs, b < st.allocator.bands) :
    ∀ x ∈ E.addBlocksAnswers nodeId dir antenna limitBl q (unlimited bs) st, x = .ok true := by
  induction bs generalizing st with
  | nil => exact fun x hx => absurd hx List.not_mem_nil
  | cons b bs ih =>
    have hb := hbs b List.mem_cons_self
    have hrest : ∀ c ∈ bs, c < st.allocator.bands := fun c hc => hbs c (List.mem_cons_of_mem b hc)
    have hmin : ∀ c, (if q < c then q else c) = min c q := fun c => by
      rw [Nat.min_def]
      split <;> split <;> omega
    have hunlimited : ∀ c : ℕ, (if ¬limitBl = true ∧ (0 : ℤ) ≤ -1 ∧ (-1 : ℤ) < c
        then (-1 : ℤ).toNat else c) = c := fun c => if_neg (by simp)
    have havail : E.availableBytes st.allocator nodeId antenna b 0 dir
        (if limitBl = true then -1 else -1) =
          .ok (E.capacity st.allocator nodeId dir antenna b) := by
      simp [availableBytes, capacity]
    intro x hx
    simp only [unlimited, List.map_cons, addBlocksAnswers, havail] at hx
    rw [if_neg (by decide)] at hx
    by_cases h₀ : E.capacity st.allocator nodeId dir antenna b = 0
    · rw [if_pos h₀] at hx
      exact ih hrest x hx
    · rw [if_neg h₀] at hx
      simp only [hunlimited, hmin, hfit.addBlocks hq hb h₀] at hx
      rcases List.mem_cons.mp hx with rfl | hx
      · rfl
      · have hlimit : ∀ u, lowerLimit { band := b } u = .ok { band := b } := fun u => by
          simp [lowerLimit]
        have hserve : ∀ t u, (if t < u then 0 else t - u) = t - u := fun t u => by
          split <;> omega
        simp only [hlimit, hserve] at hx
        split_ifs at hx
        · exact absurd hx List.not_mem_nil
        · refine ih ?_ x hx
          exact hrest

/-- Calls of `addBlocks` with their answers, and the allocators before and after them. -/
inductive Answers (antenna : ℕ) (nodeId : MacNodeId) :
    LteAllocationModule → List (Except SchedulerError Bool) → LteAllocationModule → Prop
  | nil {a : LteAllocationModule} : Answers antenna nodeId a [] a
  | cons {a a₁ a' : LteAllocationModule} {band blocks bytes : ℕ} {answer : Bool}
      {os : List (Except SchedulerError Bool)}
      (h : a.addBlocks antenna band nodeId blocks bytes = .ok (a₁, answer))
      (hrest : Answers antenna nodeId a₁ os a') : Answers antenna nodeId a (.ok answer :: os) a'

/-- **The answers are those of the band loop**: its calls lead from the allocator it starts with to
the one it ends with. -/
theorem grantBands_answers {ls : List BandLimit}
    (h : E.grantBands nodeId dir antenna limitBl q ls st = .ok r) :
    Answers antenna nodeId st.allocator (E.addBlocksAnswers nodeId dir antenna limitBl q ls st)
      r.1.allocator := by
  induction ls generalizing st r with
  | nil =>
    cases h
    exact .nil
  | cons l ls ih =>
    unfold grantBands at h
    unfold addBlocksAnswers
    -- a band that is passed over gives no answer
    by_cases hskip : l.limit = -2
    · rw [if_pos hskip] at h ⊢
      obtain ⟨r', hr', h⟩ := bind_eq_ok.1 h
      cases h
      have hrest := ih hr'
      exact hrest
    rw [if_neg hskip] at h ⊢
    obtain ⟨c, hc, h⟩ := bind_eq_ok.1 h
    rw [hc]
    dsimp only
    by_cases h₀ : c = 0
    · rw [if_pos h₀] at h ⊢
      obtain ⟨r', hr', h⟩ := bind_eq_ok.1 h
      cases h
      have hrest := ih hr'
      exact hrest
    rw [if_neg h₀] at h ⊢
    obtain ⟨a, ha, h⟩ := bind_eq_ok.1 h
    obtain ⟨l', hl', h⟩ := bind_eq_ok.1 h
    simp only [ha, hl']
    refine .cons ha ?_
    generalize (if ¬limitBl = true ∧ 0 ≤ l.limit ∧ l.limit < c then l.limit.toNat else c) =
      available at h ⊢
    generalize (if q < available then q else available) = u at h ⊢
    generalize (if st.toServe < u then 0 else st.toServe - u) = left at h ⊢
    dsimp only at h
    -- the loop ends with the last answer, or goes on with the rest
    by_cases hleft : left = 0
    · rw [if_pos hleft] at h ⊢
      cases h
      exact .nil
    · rw [if_neg hleft] at h ⊢
      obtain ⟨r', hr', h⟩ := bind_eq_ok.1 h
      cases h
      have hrest := ih hr'
      exact hrest

/-- **What the band loop books is in the counts of the UE.** -/
theorem grantBands_booked (hfit : E.BlocksFit) (hq : 0 < q) (hbs : bs.Nodup)
    (hbands : ∀ b ∈ bs, b < st.allocator.bands)
    (h : E.grantBands nodeId dir antenna limitBl q (unlimited bs) st = .ok r) :
    ∃ blocks, st.allocator.Booked r.1.allocator nodeId blocks
        (book q st.toServe (bs.map (E.capacity st.allocator nodeId dir antenna))).1 ∧
      r.1.cwAllocatedBlocks = st.cwAllocatedBlocks + blocks ∧
      ((book q st.toServe (bs.map (E.capacity st.allocator nodeId dir antenna))).1 = 0 →
        blocks = 0) := by
  induction bs generalizing st r with
  | nil =>
    cases h
    exact ⟨0, .refl _ _, rfl, fun _ => rfl⟩
  | cons b bs ih =>
    obtain ⟨hb, hbs⟩ := List.nodup_cons.1 hbs
    have hband := hbands b List.mem_cons_self
    have hrest : ∀ c ∈ bs, c < st.allocator.bands :=
      fun c hc => hbands c (List.mem_cons_of_mem b hc)
    rw [List.map_cons, book]
    obtain ⟨h₀, r', hr', h₁, -⟩ | ⟨h₀, a, ha, h⟩ := grantBands_cons h
    · rw [if_pos h₀, h₁]
      exact ih hbs hrest hr'
    · rw [if_neg h₀]
      -- the capacities of the other bands are as before
      have hcaps : bs.map (E.capacity a.1 nodeId dir antenna) =
          bs.map (E.capacity st.allocator nodeId dir antenna) := by
        refine List.map_congr_left fun c hc => ?_
        have hne : c ≠ b := fun hcb => hb (hcb ▸ hc)
        rw [capacity, capacity, (LteAllocationModule.addBlocks_frame ha).2 c hne]
      rw [hfit.addBlocks hq hband h₀] at ha
      cases ha
      have hpos : 0 < min (E.capacity st.allocator nodeId dir antenna b) q :=
        Nat.lt_min.mpr ⟨Nat.pos_of_ne_zero h₀, hq⟩
      obtain ⟨hle, h₁, -⟩ | ⟨hlt, r', hr', h₁, -⟩ := h
      · rw [if_pos hle, h₁]
        exact ⟨_, LteAllocationModule.booked_noteBlocks, rfl, fun hzero => absurd hzero (by omega)⟩
      · rw [if_neg (Nat.not_le.2 hlt), h₁]
        obtain ⟨blocks, hbooked, hblocks, -⟩ := ih hbs (by exact hrest) hr'
        simp only [hcaps] at hbooked
        exact ⟨_, LteAllocationModule.booked_noteBlocks.trans hbooked,
          hblocks.trans (Nat.add_assoc _ _ _), fun hzero => absurd hzero (by omega)⟩

/-! ### The calls of a TTI -/

/-- A call of `scheduleGrant` without limits. -/
structure ScheduleCall where
  /-- The connection. -/
  cid : MacCid
  /-- How much is offered to it. -/
  bytes : ℕ
  /-- The antenna. -/
  antenna : ℕ := MACRO
  /-- Whether the limits are in blocks. -/
  limitBl : Bool := false

/-- The bytes that `scheduleGrant` returns for a connection. -/
structure ScheduleReport where
  /-- The connection. -/
  cid : MacCid
  /-- The bytes. -/
  granted : ℕ
  deriving DecidableEq

variable (E)

/-- The calls of a TTI as a machine. -/
def grantCalls : Machine LteSchedulerEnb ScheduleCall ScheduleReport where
  step s c :=
    match E.scheduleGrant s c.cid c.bytes none c.antenna c.limitBl with
    | .ok (s', g, _) => some (s', [⟨c.cid, g.granted⟩])
    | .error _ => none

/-- The allocator that the band loop of a call starts with. -/
def allocatorOf (s : LteSchedulerEnb) (c : ScheduleCall) : LteAllocationModule :=
  E.prepareAllocator s.allocator (MacCidToNodeId c.cid) (E.dirOf c.cid) c.antenna

/-- The answers that a call gets of the allocator, if it comes to its band loop. -/
def answersOf (s : LteSchedulerEnb) (c : ScheduleCall) : List (Except SchedulerError Bool) :=
  match E.conn s c.cid with
  | none => []
  | some b =>
    E.addBlocksAnswers (MacCidToNodeId c.cid) (E.dirOf c.cid) c.antenna c.limitBl (needed b)
      (unlimited (List.range E.numBands)) { allocator := E.allocatorOf s c, toServe := needed b }

/-- What the bands hold of a queue. -/
def bookable (s : LteSchedulerEnb) (c : ScheduleCall) (b : LteMacBuffer) : ℕ :=
  (book (needed b) (needed b) ((List.range E.numBands).map
    (E.capacity (E.allocatorOf s c) (MacCidToNodeId c.cid) (E.dirOf c.cid) c.antenna))).1

/-- The queue of a call with its headers does not wrap around to zero, and what the bands hold of
it fits into the 32-bit counters. -/
def CallFits (s : LteSchedulerEnb) (c : ScheduleCall) : Prop :=
  ∀ b ∈ E.conn s c.cid, needed b ≠ 0 ∧ E.bookable s c b < 4294967296

/-- The entry of a connection in the schedule list. -/
def listed (s : LteSchedulerEnb) (cid : MacCid) : ℕ := (s.scheduleList cid 0).getD 0

variable {E} {s s' : LteSchedulerEnb} {c : ScheduleCall} {g : Grant} {ls : List BandLimit}

theorem booked_allocatorOf (s : LteSchedulerEnb) (c : ScheduleCall) :
    s.allocator.Booked (E.allocatorOf s c) (MacCidToNodeId c.cid) 0 0 := by
  unfold allocatorOf prepareAllocator
  dsimp only
  split
  · exact (LteAllocationModule.booked_configureMuMimoPeering _).trans
      (LteAllocationModule.booked_addAntennas _ _ _)
  · exact LteAllocationModule.booked_addAntennas _ _ _

/-- What a call does that comes to its band loop, which ends with `r`. -/
structure Served (s s' : LteSchedulerEnb) (cid : MacCid) (dir : FlowDirection) (g : Grant)
    (r : BandLoop) : Prop where
  fresh : s.allocatedCws (MacCidToNodeId cid) = 0
  allocator : s'.allocator = r.allocator
  granted : g.granted = r.cwAllocatedBytes
  cws : s'.allocatedCws = if 0 < r.cwAllocatedBytes then
    Function.update s.allocatedCws (MacCidToNodeId cid) 1 else s.allocatedCws
  list : s'.scheduleList = if 0 < r.cwAllocatedBytes then
    Function.update s.scheduleList cid (Function.update (s.scheduleList cid) 0
      (some (listed s cid + if dir = .DL then 1 else r.cwAllocatedBlocks))) else s.scheduleList

/-- What a call does otherwise. -/
structure Unserved (s s' : LteSchedulerEnb) (a : LteAllocationModule) (g : Grant) : Prop where
  allocator : s'.allocator = s.allocator ∨ s'.allocator = a
  granted : g.granted = 0
  cws : s'.allocatedCws = s.allocatedCws
  list : s'.scheduleList = s.scheduleList

variable (E) in
/-- A call comes to its band loop, for the buffer `b`. -/
structure Admits (s : LteSchedulerEnb) (c : ScheduleCall) (b : LteMacBuffer) : Prop where
  registered : E.binder.getOmnetId (MacCidToNodeId c.cid) ≠ 0
  space : ∃ total, (E.allocatorOf s c).computeTotalRbs = .ok total ∧
    ¬(total = 0 ∧ needsSpace (E.allocatorOf s c) (MacCidToNodeId c.cid)
      (E.computeTxParams (MacCidToNodeId c.cid) (E.dirOf c.cid)).txMode
      (s.allocatedCws (MacCidToNodeId c.cid)))
  fresh : s.allocatedCws (MacCidToNodeId c.cid) = 0
  eligible : E.checkEligibility (MacCidToNodeId c.cid) = .ok (true, 0)
  conn : E.conn s c.cid = some b
  backlog : b.queueOccupancy ≠ 0

/-- **What a call does**: it comes to its band loop or books nothing. -/
theorem scheduleGrant_admits {bandLim : Option (List BandLimit)}
    (h : E.scheduleGrant s c.cid c.bytes bandLim c.antenna c.limitBl = .ok (s', g, ls)) :
    (Unserved s s' (E.allocatorOf s c) g ∧ ∀ b, ¬E.Admits s c b) ∨
    ∃ b r, E.Admits s c b ∧
      E.grantBands (MacCidToNodeId c.cid) (E.dirOf c.cid) c.antenna c.limitBl (needed b)
        (bandLim.getD (unlimited (List.range E.numBands))) ⟨E.allocatorOf s c, needed b, 0, 0⟩ =
          .ok r ∧
      Served s s' c.cid (E.dirOf c.cid) g r.1 := by
  simp only [scheduleGrant] at h
  -- the reasons not to serve the queue
  split at h <;> rename_i hreg
  · cases h
    exact .inl ⟨⟨.inl rfl, rfl, rfl, rfl⟩, fun b hadm => hadm.registered hreg⟩
  obtain ⟨total, htotal, h⟩ := bind_eq_ok.1 h
  split at h <;> rename_i hspace
  · cases h
    refine .inl ⟨⟨.inr rfl, rfl, rfl, rfl⟩, fun b hadm => ?_⟩
    obtain ⟨total', htotal', hnot⟩ := hadm.space
    cases htotal'.symm.trans htotal
    exact hnot hspace
  split at h <;> rename_i hcws
  · cases h
    exact .inl ⟨⟨.inr rfl, rfl, rfl, rfl⟩, fun b hadm => absurd hadm.fresh (Nat.ne_of_gt hcws)⟩
  obtain ⟨⟨free, cw⟩, helig, h⟩ := bind_eq_ok.1 h
  simp only at h
  split at h <;> rename_i hfree
  · cases h
    refine .inl ⟨⟨.inr rfl, rfl, rfl, rfl⟩, fun b hadm => ?_⟩
    cases hadm.eligible.symm.trans helig
    exact hfree.elim Bool.noConfusion (Nat.not_succ_le_zero 0)
  have hconns : ∀ c', E.conn { s with allocator := E.allocatorOf s c } c' = E.conn s c' :=
    fun c' => by unfold SchedulerEnv.conn; cases E.direction <;> rfl
  split at h
  · cases h
  rename_i b hconn
  replace hconn : E.conn s c.cid = some b := (hconns c.cid).symm.trans hconn
  split at h <;> rename_i hqueue
  · cases h
    refine .inl ⟨⟨.inr rfl, rfl, rfl, rfl⟩, fun b' hadm => ?_⟩
    obtain rfl := Option.some.inj (hconn.symm.trans hadm.conn)
    exact hadm.backlog hqueue
  -- the queue is served by the band loop
  obtain ⟨⟨st, ls', stop⟩, hloop, h⟩ := bind_eq_ok.1 h
  have hfresh : s.allocatedCws (MacCidToNodeId c.cid) = 0 := Nat.eq_zero_of_not_pos hcws
  have hset : ∀ b', (E.setConn { s with allocator := E.allocatorOf s c } c.cid b').scheduleList =
      s.scheduleList ∧ (E.setConn { s with allocator := E.allocatorOf s c } c.cid b').allocatedCws =
        s.allocatedCws := fun b' => by
    unfold setConn
    cases E.direction <;> exact ⟨rfl, rfl⟩
  have helig' : E.checkEligibility (MacCidToNodeId c.cid) = .ok (true, 0) := by
    obtain ⟨hne, hlt⟩ := not_or.1 hfree
    rw [helig, Bool.eq_true_of_not_eq_false hne, Nat.eq_zero_of_not_pos hlt]
  refine .inr ⟨b, (st, ls', stop), ⟨hreg, ⟨total, htotal, hspace⟩, hfresh, helig', hconn, hqueue⟩,
    hloop, ?_⟩
  dsimp only at h
  split at h <;> rename_i hbytes
  · cases h
    refine ⟨hfresh, rfl, rfl, ?_, ?_⟩
    · rw [if_pos hbytes, hfresh]
    · rw [if_pos hbytes]
      rfl
  · cases h
    refine ⟨hfresh, rfl, (Nat.eq_zero_of_not_pos hbytes).symm, ?_, ?_⟩
    · rw [if_neg hbytes]
      exact (hset _).2
    · rw [if_neg hbytes]
      exact (hset _).1

theorem scheduleGrant_cases {bandLim : Option (List BandLimit)}
    (h : E.scheduleGrant s c.cid c.bytes bandLim c.antenna c.limitBl = .ok (s', g, ls)) :
    Unserved s s' (E.allocatorOf s c) g ∨
    ∃ b r, E.conn s c.cid = some b ∧
      E.grantBands (MacCidToNodeId c.cid) (E.dirOf c.cid) c.antenna c.limitBl (needed b)
        (bandLim.getD (unlimited (List.range E.numBands))) ⟨E.allocatorOf s c, needed b, 0, 0⟩ =
          .ok r ∧
      Served s s' c.cid (E.dirOf c.cid) g r.1 := by
  rcases scheduleGrant_admits h with ⟨hun, -⟩ | ⟨b, r, hadm, hloop, hserved⟩
  · exact .inl hun
  · exact .inr ⟨b, r, hadm.conn, hloop, hserved⟩

/-- What it puts into the schedule list. -/
theorem Served.listed_eq {dir : FlowDirection} {r : BandLoop} (h : Served s s' c.cid dir g r)
    (cid : MacCid) : listed s' cid = listed s cid +
      if cid = c.cid ∧ 0 < r.cwAllocatedBytes then if dir = .DL then 1 else r.cwAllocatedBlocks
      else 0 := by
  have hlist := h.list
  by_cases hbytes : 0 < r.cwAllocatedBytes
  · rw [if_pos hbytes] at hlist
    by_cases hcid : cid = c.cid
    · rw [if_pos (And.intro hcid hbytes), listed, hlist, hcid, Function.update_self,
        Function.update_self, Option.getD_some]
    · rw [if_neg (fun hc => hcid hc.1 : ¬(cid = c.cid ∧ 0 < r.cwAllocatedBytes)), listed, hlist,
        Function.update_of_ne hcid]
      rfl
  · rw [if_neg hbytes] at hlist
    rw [if_neg (fun hc => hbytes hc.2 : ¬(cid = c.cid ∧ 0 < r.cwAllocatedBytes)), listed, hlist]
    rfl

variable {o : List ScheduleReport}

theorem grantCalls_step (h : E.grantCalls.step s c = some (s', o)) :
    ∃ g ls, E.scheduleGrant s c.cid c.bytes none c.antenna c.limitBl = .ok (s', g, ls) ∧
      o = [⟨c.cid, g.granted⟩] := by
  simp only [grantCalls] at h
  split at h
  · rename_i s₁ g ls hgrant
    cases h
    exact ⟨g, ls, hgrant, rfl⟩
  · cases h

theorem answersOf_true (hfit : E.BlocksFit) (hbands : s.allocator.bands = E.numBands)
    (hcall : E.CallFits s c) : ∀ x ∈ E.answersOf s c, x = .ok true := by
  unfold answersOf
  split
  · exact fun x hx => absurd hx List.not_mem_nil
  · rename_i b hconn
    refine addBlocksAnswers_true hfit (Nat.pos_of_ne_zero (hcall b hconn).1) fun i hi => ?_
    rw [(booked_allocatorOf s c).bands, hbands]
    exact List.mem_range.1 hi

/-- **What a call reports and lists is in the counts of the UE.** -/
theorem call_recorded (hfit : E.BlocksFit) (hbands : s.allocator.bands = E.numBands)
    (hcall : E.CallFits s c) (h : E.grantCalls.step s c = some (s', o)) :
    ∃ blocks bytes, o = [⟨c.cid, bytes⟩] ∧
      s.allocator.Booked s'.allocator (MacCidToNodeId c.cid) blocks bytes ∧
      (E.direction = .UL →
        ∀ cid, listed s' cid = listed s cid + if cid = c.cid then blocks else 0) := by
  obtain ⟨g, ls, hgrant, rfl⟩ := grantCalls_step h
  -- nothing is booked
  rcases scheduleGrant_cases hgrant with hun | ⟨b, r, hconn, hloop, hserved⟩
  · refine ⟨0, 0, by rw [hun.granted], ?_, fun _ cid => ?_⟩
    · rcases hun.allocator with ha | ha <;> rw [ha]
      · exact .refl _ _
      · exact booked_allocatorOf s c
    · rw [ite_self, listed, listed, hun.list, Nat.add_zero]
  · -- what the loop books is what it lists
    obtain ⟨hneeded, hsmall⟩ := hcall b hconn
    have hin : ∀ i ∈ List.range E.numBands, i < (E.allocatorOf s c).bands := by
      intro i hi
      rw [(booked_allocatorOf s c).bands, hbands]
      exact List.mem_range.1 hi
    obtain ⟨blocks, hbooked, hblocks, hnone⟩ :=
      grantBands_booked hfit (Nat.pos_of_ne_zero hneeded) List.nodup_range hin hloop
    have hbytes : r.1.cwAllocatedBytes = E.bookable s c b := by
      have hbook := (grantBands_book List.nodup_range (by rfl) hloop).1
      rw [Nat.zero_add] at hbook
      exact hbook.trans (u32_of_lt hsmall)
    have hadd := (booked_allocatorOf s c).trans hbooked
    rw [Nat.zero_add, Nat.zero_add] at hadd
    rw [Nat.zero_add] at hblocks
    refine ⟨blocks, E.bookable s c b, by rw [hserved.granted, hbytes],
      hserved.allocator ▸ hadd, fun hul cid => ?_⟩
    -- an uplink eNB lists every direction but the downlink
    have hdir : E.dirOf c.cid ≠ .DL := by
      unfold dirOf
      rw [hul]
      dsimp only
      split_ifs <;> exact nofun
    rw [hserved.listed_eq, if_neg hdir, hbytes, hblocks]
    by_cases hcid : cid = c.cid
    · by_cases hpos : 0 < E.bookable s c b
      · rw [if_pos ⟨hcid, hpos⟩, if_pos hcid]
      · rw [if_neg fun hc => hpos hc.2, if_pos hcid, hnone (Nat.eq_zero_of_not_pos hpos)]
    · rw [if_neg fun hc => hcid hc.1, if_neg hcid]

variable (E) in
/-- The counts of the allocator and the records of the scheduler have grown by the same. -/
structure Recorded (s₀ : LteSchedulerEnb) (es : List ScheduleCall) (s : LteSchedulerEnb)
    (os : List ScheduleReport) : Prop where
  /-- The number of bands stays. -/
  bands : s.allocator.bands = s₀.allocator.bands
  /-- The bytes of a UE are those reported for its connections. -/
  bytes : ∀ n, (s.allocator.allocatedRbsUe n).allocatedBytes =
    (s₀.allocator.allocatedRbsUe n).allocatedBytes +
      ((os.filter fun o => MacCidToNodeId o.cid = n).map (·.granted)).sum
  /-- In uplink its blocks are those in the schedule list for its connections. -/
  blocks : E.direction = .UL → ∀ n (S : Finset MacCid), (∀ c ∈ es, c.cid ∈ S) →
    (s.allocator.allocatedRbsUe n).allocatedBlocks +
        ∑ cid ∈ S with MacCidToNodeId cid = n, listed s₀ cid =
      (s₀.allocator.allocatedRbsUe n).allocatedBlocks +
        ∑ cid ∈ S with MacCidToNodeId cid = n, listed s cid

/-- **Over any sequence of calls the records agree**, and the allocator refuses nothing. -/
theorem recorded_of_exec {s₀ : LteSchedulerEnb} {es : List ScheduleCall} {os : List ScheduleReport}
    (hfit : E.BlocksFit) (hbands : s₀.allocator.bands = E.numBands)
    (hrun : E.grantCalls.exec s₀ es = some (s, os))
    (hcalls : ∀ s c s' o, E.grantCalls.Takes s₀ es s c s' o → E.CallFits s c) :
    E.Recorded s₀ es s os := by
  refine Machine.exec_induction_of (C := fun s c => E.CallFits s c)
    (J := fun es s os => E.Recorded s₀ es s os) ⟨rfl, fun _ => rfl, fun _ _ _ _ => rfl⟩
    (fun es s os c s' o hex ih hC hst => ?_) hcalls hrun
  obtain ⟨blocks, bytes, rfl, hbooked, hlist⟩ :=
    call_recorded hfit (ih.bands.trans hbands) hC hst
  refine ⟨hbooked.bands.trans ih.bands, fun n => ?_, fun hul n S hS => ?_⟩
  · rw [hbooked.bytes, ih.bytes, List.filter_append, List.map_append, List.sum_append,
      Nat.add_assoc]
    by_cases hn : n = MacCidToNodeId c.cid
    · subst hn
      simp
    · simp [hn, Ne.symm hn]
  · have hold := ih.blocks hul n S fun d hd => hS d (List.mem_append_left _ hd)
    have hmem : c.cid ∈ S := hS c (List.mem_append_right _ (List.mem_singleton_self c))
    have hsum : ∑ cid ∈ S with MacCidToNodeId cid = n, listed s' cid =
        (∑ cid ∈ S with MacCidToNodeId cid = n, listed s cid) +
          if n = MacCidToNodeId c.cid then blocks else 0 := by
      simp only [hlist hul, sum_add_distrib, sum_ite_eq', mem_filter, hmem, true_and, eq_comm]
    rw [hsum, hbooked.blocks]
    omega

/-- **What the scheduler records is what the allocator holds**: with rows that grow the AMC's two
computations are inverse to each other for all bytes whose bits do not wrap around, and in every
sequence of calls whose queues fit into 32 bits no request is refused and the records agree. -/
theorem records_kept (E : SchedulerEnv) (T : TbsTables) (hT : T.RowsGrow) :
    (∀ id b cw bytes dir cqi row, (E.computeTxParams id dir).isSet = true →
      (E.computeTxParams id dir).cqiVector[cw]? = some cqi → 0 < cqi →
      T.tbsVect (E.computeTxParams id dir) cw dir = .ok row → 0 < bytes →
      (T.Inverse E.computeTxParams id b cw bytes dir ↔
        bytes < 536870912 ∨ row 109 < u32 (bytes * 8))) ∧
    ∀ s₀ es s os, s₀.allocator.bands = E.numBands →
      (E.withAmc T).grantCalls.exec s₀ es = some (s, os) →
      (∀ s c s' o, (E.withAmc T).grantCalls.Takes s₀ es s c s' o → (E.withAmc T).CallFits s c) →
      (E.withAmc T).Recorded s₀ es s os ∧
        ∀ s c s' o, (E.withAmc T).grantCalls.Takes s₀ es s c s' o →
          ∀ x ∈ (E.withAmc T).answersOf s c, x = .ok true := by
  have hfit := E.withAmc_fits T
  refine ⟨fun id b cw bytes dir cqi row hset hcqi hpos hrow hb =>
    TbsTables.inverse_iff hT hset hcqi hpos hrow hb, fun s₀ es s os hbands hrun hcalls => ?_⟩
  refine ⟨recorded_of_exec hfit hbands hrun hcalls, fun t c t' o ht => ?_⟩
  obtain ⟨es₁, es₂, os₁, rfl, hex, hst⟩ := id ht
  have hbefore := recorded_of_exec hfit hbands hex fun s c s' o h => hcalls s c s' o h.append_right
  exact answersOf_true hfit (hbefore.bands.trans hbands) (hcalls t c t' o ht)

/-! ### Two bytes a block -/

/-- Tables in which every block holds sixteen bits. -/
def sixteenBits : TbsTables where
  getItbsPerCqi _ _ := 9
  itbs2tbs _ _ _ j := 16 * (min j 109 + 1)
  itbs2tbs_lt _ _ _ j := by omega

theorem sixteenBits_grow : sixteenBits.RowsGrow := by
  intro mod layers itbs
  simp only [sixteenBits]
  exact ⟨fun j _ => by omega, fun i j hij _ => by omega⟩

/-- An uplink cell with two bands for the UE `1025`. -/
def uplinkCell : SchedulerEnv where
  binder := { nodeIds := fun n => if n = 1025 then some 1 else none }
  direction := .UL
  numBands := 2
  muMimo := false
  computeTxParams _ _ := { cqiVector := [7], isSet := true }
  computeMuMimoPairing n _ := n
  computeBytesOnNRbs _ _ _ _ _ := 0
  computeReqRbs _ _ _ _ _ := 0
  harqTxBuffers _ := none
  harqRxBuffers _ := some (some [.EMPTY])

/-- Ten free blocks, and a buffer report of eleven bytes for the connection `5` of the UE. -/
def elevenBytes : LteSchedulerEnb where
  allocator := .initAndReset 10 2
  bsrbuf cid := if cid = 65536 * 1025 + 5 then some ⟨[11]⟩ else none

/-- A grant for this connection. -/
def oneGrant : List ScheduleCall := [{ cid := 65536 * 1025 + 5, bytes := 0 }]

/-- The fifteen bytes with the headers get the ten bytes of the first band and the ten of the
second one. -/
theorem records_kept_elevenBytes : ∃ s os,
    (uplinkCell.withAmc sixteenBits).grantCalls.exec elevenBytes oneGrant = some (s, os) ∧
      os = [⟨65536 * 1025 + 5, 20⟩] ∧
      (uplinkCell.withAmc sixteenBits).Recorded elevenBytes oneGrant s os := by
  have hrun : (uplinkCell.withAmc sixteenBits).grantCalls.exec elevenBytes oneGrant =
      some (_, _) := rfl
  refine ⟨_, _, hrun, rfl,
    ((records_kept uplinkCell sixteenBits sixteenBits_grow).2 _ _ _ _ rfl hrun ?_).1⟩
  have hfits : (uplinkCell.withAmc sixteenBits).grantCalls.Meets
      (uplinkCell.withAmc sixteenBits).CallFits elevenBytes oneGrant := by
    refine ⟨fun b hb => ?_, trivial⟩
    cases hb
    exact ⟨by decide, by decide⟩
  exact fun s c s' o ht => hfits.takes ht

/-- **`2 ^ 29` bytes** seem to need a single block: their bits wrap around to zero. -/
theorem wrapped_bits :
    sixteenBits.computeReqRbs uplinkCell.computeTxParams 1025 0 0 536870912 .UL = .ok 1 ∧
      sixteenBits.computeBytesOnNRbs uplinkCell.computeTxParams 1025 0 0 1 .UL = .ok 2 ∧
      ¬sixteenBits.Inverse uplinkCell.computeTxParams 1025 0 0 536870912 .UL := by
  have hreq : sixteenBits.computeReqRbs uplinkCell.computeTxParams 1025 0 0 536870912 .UL =
      .ok 1 := by decide
  have hheld : sixteenBits.computeBytesOnNRbs uplinkCell.computeTxParams 1025 0 0 1 .UL =
      .ok 2 := by decide
  refine ⟨hreq, hheld, fun h => ?_⟩
  obtain ⟨blocks, held, hblocks, hheld', hiff⟩ := h 1 (by decide) (by decide)
  cases hreq.symm.trans hblocks
  cases hheld.symm.trans hheld'
  exact absurd (hiff.1 (Nat.le_refl 1)) (by decide)

end SchedulerEnv

end V2nLte
