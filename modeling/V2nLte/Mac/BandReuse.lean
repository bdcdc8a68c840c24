import V2nLte.Mac.BsrBuffers

/-!
# The bands that connections share

In a round of `LteAllocatorBestFit` the connections that can use frequency reuse share their bands
with others they are not in conflict with; every other connection has its bands for itself.  What
has been booked is given to the allocator at the end, which keeps what RAC and retransmissions
have got.

A connection is not put on a band of which the conflict graph says that its UE is in conflict with
one of the UEs there.  Whether the UE itself is there already is not looked at: that a UE with two
connections gets only one block of a band is due to the entry of the graph for the UE and itself.

* `BestFitRound.shares_exec` : who is on a band, in every round.
* `BestFitRound.allocates_soundly` : what a round adds to the allocation.
-/

namespace V2nLte

/-! ### What is booked -/

/-- The blocks of the bands, in the main plane and for the macro antenna. -/
abbrev AllocatedRbsPerBand : Type := ℕ → AllocatedRbsPerBandInfo

/-- One more block of the band, for a UE. -/
def AllocatedRbsPerBandInfo.addBlock (info : AllocatedRbsPerBandInfo) (nodeId : MacNodeId)
    (bytes : ℕ) : AllocatedRbsPerBandInfo where
  ueAllocatedRbsMap := Function.update info.ueAllocatedRbsMap nodeId
    (info.ueAllocatedRbsMap nodeId + 1)
  ueAllocatedBytesMap := Function.update info.ueAllocatedBytesMap nodeId
    (info.ueAllocatedBytesMap nodeId + bytes)
  allocated := info.allocated + 1

/-- The bands that a connection has got in its turn. -/
structure Booking where
  /-- The connection. -/
  cid : MacCid
  /-- Its bands. -/
  bands : List ℕ
  deriving DecidableEq

/-- The connections that have got the band. -/
def onBand (os : List Booking) (band : ℕ) : List MacCid :=
  (os.filter fun x => band ∈ x.bands).map Booking.cid

/-- The state of the loop over the score queue, with what has been booked. -/
structure SharingTurn extends BestFitTurn where
  /-- What has been booked on each band. -/
  allocatedRbsPerBand : AllocatedRbsPerBand := fun _ => {}

namespace AllocatedRbsPerBand

/-- One block of each band that has been booked. -/
def allocate (a : AllocatedRbsPerBand) (bookedBands : List ℕ) (nodeId : MacNodeId) (bytes : ℕ) :
    AllocatedRbsPerBand :=
  bookedBands.foldl (fun a band => Function.update a band ((a band).addBlock nodeId bytes)) a

/-- `LteAllocationModuleFrequencyReuse::getAllocatorOccupiedBands`. -/
def getAllocatorOccupiedBands (a : AllocatedRbsPerBand) (bands : ℕ) : List ℕ :=
  (List.range bands).filter fun band => 0 < (a band).allocated

/-- `LteAllocationModuleFrequencyReuse::storeAllocation`; a UE without an entry has no blocks. -/
def storeAllocation (a : AllocatedRbsPerBand) (bands : ℕ) (new : AllocatedRbsPerBand)
    (untouchableBands : List ℕ) : AllocatedRbsPerBand := fun band =>
  if band < bands ∧ band ∉ untouchableBands then
    { ueAllocatedRbsMap := fun n =>
        if 0 < (new band).ueAllocatedRbsMap n then (new band).ueAllocatedRbsMap n
        else (a band).ueAllocatedRbsMap n
      ueAllocatedBytesMap := fun n =>
        if 0 < (new band).ueAllocatedRbsMap n then (new band).ueAllocatedBytesMap n
        else (a band).ueAllocatedBytesMap n
      allocated := (new band).allocated }
  else a band

end AllocatedRbsPerBand

/-- What a round leaves. -/
structure RoundResult where
  /-- Where the loop has come to. -/
  turn : SharingTurn
  /-- The bands of each connection, in the order of their turns. -/
  bookings : List Booking
  /-- The blocks that the allocator of the eNB has now. -/
  stored : AllocatedRbsPerBand

namespace BestFitRound

variable (r : BestFitRound) (cid : MacCid)

/-- The bands that a connection gets in its turn. -/
def gets (t : BestFitTurn) : List ℕ :=
  match t.bsrbuf cid with
  | none => []
  | some conn =>
    match conn.front with
    | .error _ => []
    | .ok vpkt =>
      let bookedBands := r.bookedBands cid t.subframe vpkt
      let blocks := bookedBands.length
      if blocks ≤ r.req_RBs cid vpkt ∧ blocks ≠ 0 then bookedBands else []

/-- One connection of the score queue, with what is booked for it. -/
def share (t : SharingTurn) : Except BestFitError (SharingTurn × List Booking) := do
  let (t', _) ← r.serve cid t.toBestFitTurn
  let bookedBands := r.gets cid t.toBestFitTurn
  return ({
    toBestFitTurn := t'
    allocatedRbsPerBand := t.allocatedRbsPerBand.allocate bookedBands (MacCidToNodeId cid)
      (r.req_Bytes1RB cid) }, [⟨cid, bookedBands⟩])

/-- The loop over the score queue. -/
def sharing : Machine SharingTurn MacCid Booking where
  step t cid := (r.share cid t).toOption

/-- `prepareSchedule`, with the score queue of the round.  The bands of the round are those that the
allocator has not given away. -/
def prepareSchedule (bsrbuf : MacCid → Option BsrBuffer) (a : AllocatedRbsPerBand) :
    Option RoundResult :=
  if (r.reuseD2D || r.reuseD2DMulti) && r.conflictGraph.isNone then none
  else
    let r := { r with occupiedBands := a.getAllocatorOccupiedBands r.numBands }
    (r.sharing.exec { r.start bsrbuf with } r.score).map fun p =>
      ⟨p.1, p.2, a.storeAllocation r.numBands p.1.allocatedRbsPerBand r.occupiedBands⟩

end BestFitRound

/-! ### What is asked of a round -/

/-- No two UEs on the band are in conflict. -/
def ConflictFree (cgMatrix : CGMatrix) (cids : List MacCid) : Prop :=
  ∀ cid ∈ cids, ∀ cid' ∈ cids, MacCidToNodeId cid ≠ MacCidToNodeId cid' →
    checkConflict cgMatrix (MacCidToNodeId cid) (MacCidToNodeId cid') = false

/-- A band has nothing new on it, one connection that cannot use reuse, or connections that can and
are not in conflict. -/
def BandSound (r : BestFitRound) (cgMatrix : CGMatrix) (cids : List MacCid) : Prop :=
  cids = [] ∨ (∃ cid, cids = [cid] ∧ r.enableFrequencyReuse cid = false) ∨
    (∀ cid ∈ cids, r.enableFrequencyReuse cid = true) ∧ ConflictFree cgMatrix cids

/-- What a round adds to the allocation `a`. -/
structure RoundResult.Sound (r : BestFitRound) (cgMatrix : CGMatrix) (a : AllocatedRbsPerBand)
    (x : RoundResult) : Prop where
  /-- Every band is shared as the conflict graph allows. -/
  bands : ∀ band, BandSound r cgMatrix (onBand x.bookings band)
  /-- A band that was occupied is not touched. -/
  occupied : ∀ band < r.numBands, 0 < (a band).allocated →
    onBand x.bookings band = [] ∧ x.stored band = a band
  /-- A UE has a block of the band for each of its connections there. -/
  blocks : ∀ band nodeId, (x.turn.allocatedRbsPerBand band).ueAllocatedRbsMap nodeId =
    (onBand x.bookings band).countP fun cid => MacCidToNodeId cid = nodeId
  /-- The allocator has what has been booked. -/
  stored : ∀ band < r.numBands, (a band).allocated = 0 →
    (x.stored band).allocated = (onBand x.bookings band).length ∧
      ∀ nodeId, 0 < (x.turn.allocatedRbsPerBand band).ueAllocatedRbsMap nodeId →
        (x.stored band).ueAllocatedRbsMap nodeId =
          (x.turn.allocatedRbsPerBand band).ueAllocatedRbsMap nodeId

/-- A UE with several connections that can use reuse is in conflict with itself. -/
def BestFitRound.SelfConflict (r : BestFitRound) (cgMatrix : CGMatrix) : Prop :=
  ∀ cid ∈ r.score, ∀ cid' ∈ r.score, cid ≠ cid' → MacCidToNodeId cid = MacCidToNodeId cid' →
    r.enableFrequencyReuse cid = true → r.enableFrequencyReuse cid' = true →
      checkConflict cgMatrix (MacCidToNodeId cid) (MacCidToNodeId cid') = true

/-! ### The bands of a booking -/

namespace Subframe

variable {f : Subframe} {reuse : Bool} {conflict : MacNodeId → Bool} {req band : ℕ}

/-- Only bands that can be allocated are booked, each of them once. -/
theorem bookedBands_spec (f : Subframe) (reuse : Bool) (conflict : MacNodeId → Bool)
    (hreq : 0 < req) : (f.bookedBands reuse conflict req).Nodup ∧
      ∀ band ∈ f.bookedBands reuse conflict req,
        band < f.numBands ∧ f.allocatable reuse conflict band = true := by
  have hends : f.Ends reuse conflict req (f.bookedBands reuse conflict req) := ends hreq
  rcases hends with ⟨-, hnil⟩ | ⟨i, len, j, ⟨⟨hrun, -⟩, -⟩, hij, hle, hperm⟩
  · rw [hnil]
    exact ⟨List.nodup_nil, nofun⟩
  · refine ⟨hperm.nodup_iff.2 List.nodup_range', fun band hband => ?_⟩
    have hmem := List.mem_range'_1.1 (hperm.mem_iff.1 hband)
    have hend := hrun.le
    exact ⟨by omega, hrun.holds band (by omega) (by omega)⟩

end Subframe

section Loop

variable {r : BestFitRound} {cid : MacCid} {t t' : BestFitTurn} {os : List Booking} {band : ℕ}

/-- The bands that a connection gets can be allocated, and each is one band. -/
theorem gets_spec (r : BestFitRound) (cid : MacCid) (t : BestFitTurn) : (r.gets cid t).Nodup ∧
    ∀ band ∈ r.gets cid t, band < t.subframe.numBands ∧
      t.subframe.allocatable (r.enableFrequencyReuse cid) (r.conflict cid) band = true := by
  unfold BestFitRound.gets
  split
  · exact ⟨List.nodup_nil, nofun⟩
  · split
    · exact ⟨List.nodup_nil, nofun⟩
    · dsimp only
      split
      · rename_i hblocks
        exact Subframe.bookedBands_spec _ _ _ (by omega)
      · exact ⟨List.nodup_nil, nofun⟩

theorem setAllocationType_nil (f : Subframe) (type : AllocationUeType) (nodeId : MacNodeId) :
    f.setAllocationType [] type nodeId = f := by
  cases f
  rw [Subframe.setAllocationType]
  simp only [List.not_mem_nil, if_false]

theorem bandStatusMap_setAllocationType (f : Subframe) (bookedBands : List ℕ)
    (type : AllocationUeType) (nodeId : MacNodeId) (band : ℕ) :
    (f.setAllocationType bookedBands type nodeId).bandStatusMap band =
      if band ∈ bookedBands then (type, (f.bandStatusMap band).2.insert nodeId)
      else f.bandStatusMap band := rfl

/-- **What a turn does**: the connection gets its bands, and the other buffers stay. -/
theorem serve_spec {conn : BsrBuffer} {size : ℤ} (hconn : t.bsrbuf cid = some conn)
    (hfront : conn.front = .ok size) : ∃ t' os, r.serve cid t = .ok (t', os) ∧
      t'.subframe = t.subframe.setAllocationType (r.gets cid t)
        (if r.enableFrequencyReuse cid then .SHARED else .EXCLUSIVE) (MacCidToNodeId cid) ∧
      ∀ cid' ≠ cid, t'.bsrbuf cid' = t.bsrbuf cid' := by
  -- a buffer with a first entry can be popped
  obtain ⟨conn', hpop⟩ : ∃ conn', conn.popFront = .ok conn' := by
    unfold BsrBuffer.front at hfront
    unfold BsrBuffer.popFront
    split at hfront
    · cases hfront
    · rename_i hlen
      rw [if_neg hlen]
      split at hfront
      · cases hfront
      · exact ⟨_, rfl⟩
  have hgets : r.gets cid t =
      if (r.bookedBands cid t.subframe size).length ≤ r.req_RBs cid size ∧
          (r.bookedBands cid t.subframe size).length ≠ 0 then
        r.bookedBands cid t.subframe size
      else [] := by
    simp only [BestFitRound.gets, hconn, hfront]
  rw [hgets]
  -- the round takes blocks only if it gets some and no more than it needs
  by_cases hblocks : (r.bookedBands cid t.subframe size).length ≤ r.req_RBs cid size ∧
      (r.bookedBands cid t.subframe size).length ≠ 0
  · obtain ⟨conn'', hserve⟩ : ∃ conn'', r.serve cid t = .ok (⟨
        Function.update t.bsrbuf cid (some conn''),
        t.subframe.setAllocationType (r.bookedBands cid t.subframe size)
          (if r.enableFrequencyReuse cid then .SHARED else .EXCLUSIVE) (MacCidToNodeId cid)⟩,
        [⟨cid, conn, conn''⟩]) := by
      unfold BestFitRound.serve
      simp only [hconn, hfront]
      by_cases hall : (r.bookedBands cid t.subframe size).length = r.req_RBs cid size
      · refine ⟨conn', bind_eq_ok.2 ⟨size, rfl, ?_⟩⟩
        rw [if_pos hblocks, if_pos hall]
        exact bind_eq_ok.2 ⟨conn', hpop, rfl⟩
      · refine ⟨conn.setFront (r.served cid size (r.bookedBands cid t.subframe size).length),
          bind_eq_ok.2 ⟨size, rfl, ?_⟩⟩
        rw [if_pos hblocks, if_neg hall]
        rfl
    rw [if_pos hblocks]
    exact ⟨_, _, hserve, rfl, fun cid' hne => Function.update_of_ne hne _ _⟩
  · have hserve : r.serve cid t = .ok (t, []) := by
      unfold BestFitRound.serve
      simp only [hconn, hfront]
      refine bind_eq_ok.2 ⟨size, rfl, ?_⟩
      rw [if_neg hblocks]
      rfl
    rw [if_neg hblocks, setAllocationType_nil]
    exact ⟨t, [], hserve, rfl, fun cid' _ => rfl⟩

/-! ### Who is on a band -/

/-- What the status of a band says about the connections on it. -/
inductive OnBand (r : BestFitRound) : List MacCid → AllocationUeType × List MacNodeId → Prop
  | unused : OnBand r [] (.UNUSED, [])
  | exclusive {cid : MacCid} {ns : List MacNodeId} (h : r.enableFrequencyReuse cid = false) :
      OnBand r [cid] (.EXCLUSIVE, ns)
  | shared {cids : List MacCid} {ns : List MacNodeId}
      (hreuse : ∀ cid ∈ cids, r.enableFrequencyReuse cid = true)
      (hnodes : ∀ cid ∈ cids, MacCidToNodeId cid ∈ ns)
      (hpairwise : cids.Pairwise fun cid cid' => r.conflict cid' (MacCidToNodeId cid) = false) :
      OnBand r cids (.SHARED, ns)

/-- One more connection, if the band can be allocated for it. -/
theorem OnBand.add {f : Subframe} {cids : List MacCid} (h : OnBand r cids (f.bandStatusMap band))
    (hfree : f.allocatable (r.enableFrequencyReuse cid) (r.conflict cid) band = true) :
    OnBand r (cids ++ [cid]) (if r.enableFrequencyReuse cid then .SHARED else .EXCLUSIVE,
      (f.bandStatusMap band).2.insert (MacCidToNodeId cid)) := by
  have hfree := (Bool.and_eq_true _ _ ▸ hfree : _ ∧ _).2
  cases hreuse : r.enableFrequencyReuse cid with
  | false =>
    rw [hreuse, if_neg Bool.false_ne_true, decide_eq_true_iff] at hfree
    generalize f.bandStatusMap band = st at *
    cases h with
    | unused => exact .exclusive hreuse
    | exclusive _ => cases hfree
    | shared _ _ _ => cases hfree
  | true =>
    rw [hreuse, if_pos rfl, Bool.and_eq_true, decide_eq_true_iff] at hfree
    generalize f.bandStatusMap band = st at *
    obtain ⟨hexcl, hnone⟩ := hfree
    cases h with
    | unused =>
      exact .shared (List.forall_mem_singleton.2 hreuse)
        (List.forall_mem_singleton.2 List.mem_insert_self) (List.pairwise_singleton _ _)
    | exclusive _ => exact absurd rfl hexcl
    | @shared cids ns hall hnodes hpairwise =>
      have hclear : ∀ n ∈ ns, r.conflict cid n = false := by simpa using hnone
      refine .shared (List.forall_mem_append.2 ⟨hall, List.forall_mem_singleton.2 hreuse⟩)
        (List.forall_mem_append.2 ⟨fun cid' hcid' => List.mem_insert_of_mem (hnodes cid' hcid'),
          List.forall_mem_singleton.2 List.mem_insert_self⟩)
        (List.pairwise_append.2 ⟨hpairwise, List.pairwise_singleton _ _, fun cid' hcid' => ?_⟩)
      exact List.forall_mem_singleton.2 (hclear _ (hnodes cid' hcid'))

theorem onBand_concat (os : List Booking) (x : Booking) (band : ℕ) :
    onBand (os ++ [x]) band = onBand os band ++ if band ∈ x.bands then [x.cid] else [] := by
  rw [onBand, onBand, List.filter_append, List.map_append]
  by_cases hmem : band ∈ x.bands
  · simp [hmem]
  · simp [hmem]

theorem ueAllocatedRbsMap_addBlock (info : AllocatedRbsPerBandInfo) (nodeId : MacNodeId)
    (bytes : ℕ) (n : MacNodeId) : (info.addBlock nodeId bytes).ueAllocatedRbsMap n =
      info.ueAllocatedRbsMap n + if nodeId = n then 1 else 0 := by
  rw [AllocatedRbsPerBandInfo.addBlock]
  dsimp only
  rw [Function.update_apply]
  by_cases hn : n = nodeId
  · rw [if_pos hn, if_pos hn.symm, hn]
  · rw [if_neg hn, if_neg (Ne.symm hn), Nat.add_zero]

/-- Each band that is booked once gets one block. -/
theorem allocate_eq (a : AllocatedRbsPerBand) {bookedBands : List ℕ} (h : bookedBands.Nodup)
    (nodeId : MacNodeId) (bytes band : ℕ) : a.allocate bookedBands nodeId bytes band =
      if band ∈ bookedBands then (a band).addBlock nodeId bytes else a band := by
  induction bookedBands generalizing a with
  | nil => rfl
  | cons b bookedBands ih =>
    obtain ⟨hnot, hnodup⟩ := List.nodup_cons.1 h
    refine (ih (Function.update a b ((a b).addBlock nodeId bytes)) hnodup).trans ?_
    by_cases hb : band = b
    · subst hb
      rw [if_neg hnot, if_pos List.mem_cons_self, Function.update_self]
    · rw [Function.update_of_ne hb]
      simp only [List.mem_cons, hb, false_or]

/-- What the loop keeps. -/
structure Shares (r : BestFitRound) (t : SharingTurn) (os : List Booking) : Prop where
  numBands : t.subframe.numBands = r.numBands
  occupied : t.subframe.alreadyAllocatedBands = r.occupiedBands
  free : ∀ band ∈ r.occupiedBands, onBand os band = []
  status : ∀ band, OnBand r (onBand os band) (t.subframe.bandStatusMap band)
  blocks : ∀ band nodeId, (t.allocatedRbsPerBand band).ueAllocatedRbsMap nodeId =
    (onBand os band).countP fun cid => MacCidToNodeId cid = nodeId
  allocated : ∀ band, (t.allocatedRbsPerBand band).allocated = (onBand os band).length

theorem shares_start (r : BestFitRound) (bsrbuf : MacCid → Option BsrBuffer) :
    Shares r { r.start bsrbuf with } [] :=
  ⟨rfl, rfl, fun _ _ => rfl, fun _ => .unused, fun _ _ => rfl, fun _ => rfl⟩

/-- **One turn.**  The connection gets bands that it may be on, and the other buffers stay. -/
theorem Shares.share {t : SharingTurn} (h : Shares r t os) {conn : BsrBuffer} {size : ℤ}
    (hconn : t.bsrbuf cid = some conn) (hfront : conn.front = .ok size) :
    ∃ t' x, r.share cid t = .ok (t', [x]) ∧ x.cid = cid ∧ Shares r t' (os ++ [x]) ∧
      ∀ cid' ≠ cid, t'.bsrbuf cid' = t.bsrbuf cid' := by
  obtain ⟨t', served, hserve, hsubframe, hother⟩ := serve_spec (r := r) hconn hfront
  obtain ⟨hnodup, hgets⟩ := gets_spec r cid t.toBestFitTurn
  refine ⟨_, ⟨cid, r.gets cid t.toBestFitTurn⟩, bind_eq_ok.2 ⟨_, hserve, rfl⟩, rfl, ?_, hother⟩
  generalize r.gets cid t.toBestFitTurn = bookedBands at *
  constructor
  · exact (congrArg Subframe.numBands hsubframe).trans h.numBands
  · exact (congrArg Subframe.alreadyAllocatedBands hsubframe).trans h.occupied
  · -- the bands that no one uses stay unused
    intro band hband
    have hnot : band ∉ bookedBands := by
      intro hmem
      have hfree := (hgets band hmem).2
      rw [Subframe.allocatable, h.occupied, List.contains_iff_mem.2 hband] at hfree
      cases hfree
    rw [onBand_concat, h.free band hband, if_neg hnot]
    rfl
  · -- each booked band takes up the new share, with the status that reuse allows
    intro band
    rw [onBand_concat]
    change OnBand r _ (t'.subframe.bandStatusMap band)
    rw [hsubframe]
    by_cases hband : band ∈ bookedBands
    · rw [if_pos hband, bandStatusMap_setAllocationType, if_pos hband]
      exact (h.status band).add (hgets band hband).2
    · rw [if_neg hband, List.append_nil, bandStatusMap_setAllocationType, if_neg hband]
      exact h.status band
  · -- the blocks of the UE and the allocated blocks count the shares
    intro band nodeId
    rw [onBand_concat]
    dsimp only
    rw [allocate_eq _ hnodup]
    by_cases hband : band ∈ bookedBands
    · rw [if_pos hband, if_pos hband, List.countP_append, ← h.blocks, ueAllocatedRbsMap_addBlock]
      simp only [List.countP_singleton, decide_eq_true_iff]
    · rw [if_neg hband, if_neg hband, List.append_nil, h.blocks]
  · intro band
    rw [onBand_concat]
    dsimp only
    rw [allocate_eq _ hnodup]
    by_cases hband : band ∈ bookedBands
    · rw [if_pos hband, if_pos hband, List.length_append, ← h.allocated]
      rfl
    · rw [if_neg hband, if_neg hband, List.append_nil, h.allocated]

/-- **Who is on a band**, in every round: each connection has its turn, and the round ends. -/
theorem shares_exec {t : SharingTurn} (h : Shares r t os) {cids : List MacCid}
    (hnodup : cids.Nodup)
    (hreport : ∀ cid ∈ cids, ∃ conn size, t.bsrbuf cid = some conn ∧ conn.front = .ok size) :
    ∃ t' os', r.sharing.exec t cids = some (t', os') ∧ os'.map Booking.cid = cids ∧
      Shares r t' (os ++ os') := by
  induction cids generalizing t os with
  | nil =>
    refine ⟨t, [], rfl, rfl, ?_⟩
    rwa [List.append_nil]
  | cons cid cids ih =>
    obtain ⟨hnot, hnodup⟩ := List.nodup_cons.1 hnodup
    obtain ⟨conn, size, hconn, hfront⟩ := hreport cid List.mem_cons_self
    obtain ⟨t₁, x, hshare, hcid, h₁, hother⟩ := h.share hconn hfront
    obtain ⟨t', os', hexec, hmap, h'⟩ := ih h₁ hnodup fun cid' hcid' => by
      have hne : cid' ≠ cid := fun heq => hnot (heq ▸ hcid')
      rw [hother cid' hne]
      exact hreport cid' (List.mem_cons_of_mem cid hcid')
    refine ⟨t', x :: os', Machine.exec_cons_eq_some.2
      ⟨t₁, [x], os', toOption_eq_some.2 hshare, hexec, rfl⟩, ?_, ?_⟩
    · rw [List.map_cons, hcid, hmap]
    · rwa [List.append_assoc] at h'

end Loop

/-! ### What a round adds -/

section Round

variable {r : BestFitRound} {cgMatrix : CGMatrix} {t : SharingTurn} {os : List Booking}

theorem onBand_sublist (os : List Booking) (band : ℕ) :
    (onBand os band).Sublist (os.map Booking.cid) :=
  List.filter_sublist.map Booking.cid

theorem OnBand.bandSound {cids : List MacCid} {st : AllocationUeType × List MacNodeId}
    (h : OnBand r cids st) (hgraph : r.conflictGraph = some cgMatrix) (hsorted : cgMatrix.Sorted)
    (hsymm : ∀ v w, cgMatrix.get v w = cgMatrix.get w v) : BandSound r cgMatrix cids := by
  cases h with
  | unused => exact .inl rfl
  | @exclusive cid _ hreuse => exact .inr (.inl ⟨cid, rfl, hreuse⟩)
  | shared hreuse _ hpairwise =>
    refine .inr (.inr ⟨hreuse, fun cid hcid cid' hcid' hne => ?_⟩)
    have hcomm := checkConflict_comm_of_symm hsorted hsymm
    have hpair : cids.Pairwise fun cid cid' =>
        checkConflict cgMatrix (MacCidToNodeId cid) (MacCidToNodeId cid') = false :=
      hpairwise.imp fun {cid cid'} h => by
        rw [BestFitRound.conflict, hgraph] at h
        exact (hcomm _ _).trans h
    have hboth : Std.Symm fun cid cid' =>
        checkConflict cgMatrix (MacCidToNodeId cid) (MacCidToNodeId cid') = false :=
      ⟨fun _ _ h => (hcomm _ _).trans h⟩
    exact hpair.forall hcid hcid' fun heq => hne (congrArg MacCidToNodeId heq)

/-- A UE that is in conflict with itself has one connection on a band. -/
theorem OnBand.countP_le_one {cids : List MacCid} {st : AllocationUeType × List MacNodeId}
    (h : OnBand r cids st) (hgraph : r.conflictGraph = some cgMatrix)
    (hself : r.SelfConflict cgMatrix) (hsub : cids.Sublist r.score) (hnodup : r.score.Nodup)
    (nodeId : MacNodeId) : cids.countP (fun cid => MacCidToNodeId cid = nodeId) ≤ 1 := by
  cases h with
  | unused => exact Nat.zero_le 1
  | exclusive _ => exact List.countP_le_length
  | shared hreuse _ hpairwise =>
    have hpair :
        (cids.filter fun cid => MacCidToNodeId cid = nodeId).Pairwise fun _ _ => False := by
      refine List.Pairwise.imp_of_mem ?_ ((hpairwise.and (hsub.nodup hnodup)).filter _)
      rintro cid cid' hcid hcid' ⟨hfree, hne⟩
      obtain ⟨hcid, hnode⟩ := List.mem_filter.1 hcid
      obtain ⟨hcid', hnode'⟩ := List.mem_filter.1 hcid'
      have hsame : MacCidToNodeId cid' = MacCidToNodeId cid :=
        (of_decide_eq_true hnode').trans (of_decide_eq_true hnode).symm
      have htrue := hself cid' (hsub.subset hcid') cid (hsub.subset hcid) (Ne.symm hne) hsame
        (hreuse cid' hcid') (hreuse cid hcid)
      rw [BestFitRound.conflict, hgraph] at hfree
      exact absurd (hfree.symm.trans htrue) Bool.false_ne_true
    rw [List.countP_eq_length_filter]
    generalize cids.filter (fun cid => MacCidToNodeId cid = nodeId) = same at hpair
    cases same with
    | nil => exact Nat.zero_le 1
    | cons cid same =>
      cases same with
      | nil => exact Nat.le_refl 1
      | cons cid' same =>
        exact ((List.pairwise_cons.1 hpair).1 cid' List.mem_cons_self).elim

theorem mem_getAllocatorOccupiedBands {a : AllocatedRbsPerBand} {bands band : ℕ} :
    band ∈ a.getAllocatorOccupiedBands bands ↔ band < bands ∧ 0 < (a band).allocated := by
  rw [AllocatedRbsPerBand.getAllocatorOccupiedBands, List.mem_filter, List.mem_range,
    decide_eq_true_iff]

/-- What the allocator gets at the end of the round. -/
theorem Shares.sound {a : AllocatedRbsPerBand} {occupiedBands : List ℕ}
    (hoccupied : occupiedBands = a.getAllocatorOccupiedBands r.numBands)
    (h : Shares { r with occupiedBands } t os) (hgraph : r.conflictGraph = some cgMatrix)
    (hsorted : cgMatrix.Sorted) (hsymm : ∀ v w, cgMatrix.get v w = cgMatrix.get w v) :
    RoundResult.Sound r cgMatrix a
      ⟨t, os, a.storeAllocation r.numBands t.allocatedRbsPerBand occupiedBands⟩ := by
  have hmem : ∀ band, band ∈ occupiedBands ↔ band < r.numBands ∧ 0 < (a band).allocated := by
    intro band
    rw [hoccupied]
    exact mem_getAllocatorOccupiedBands
  refine ⟨fun band => (h.status band).bandSound hgraph hsorted hsymm, fun band hlt hpos => ?_,
    h.blocks, fun band hlt hzero => ?_⟩
  · have hband := (hmem band).2 ⟨hlt, hpos⟩
    exact ⟨h.free band hband, if_neg fun hfree => hfree.2 hband⟩
  · have hband : band ∉ occupiedBands := fun hband =>
      absurd ((hmem band).1 hband).2 (by omega)
    dsimp only
    rw [AllocatedRbsPerBand.storeAllocation, if_pos ⟨hlt, hband⟩]
    exact ⟨h.allocated band, fun nodeId hpos => if_pos hpos⟩

/-- **What a round adds to the allocation.**  No band is shared by UEs that are in conflict, or with
a connection that cannot use reuse, and what was there is not touched; a UE that is in conflict
with itself, or has one connection that can use reuse, has one block of a band. -/
theorem BestFitRound.allocates_soundly (r : BestFitRound) (hgraph : r.conflictGraph = some cgMatrix)
    (hsorted : cgMatrix.Sorted) (hsymm : ∀ v w, cgMatrix.get v w = cgMatrix.get w v)
    (hnodup : r.score.Nodup) (bsrbuf : MacCid → Option BsrBuffer)
    (hreport : ∀ cid ∈ r.score, ∃ conn size, bsrbuf cid = some conn ∧ conn.front = .ok size)
    (a : AllocatedRbsPerBand) :
    ∃ x, r.prepareSchedule bsrbuf a = some x ∧ x.bookings.map Booking.cid = r.score ∧
      x.Sound r cgMatrix a ∧ (r.SelfConflict cgMatrix → ∀ band nodeId,
        (x.turn.allocatedRbsPerBand band).ueAllocatedRbsMap nodeId ≤ 1) := by
  obtain ⟨t, os, hexec, hmap, hshares⟩ := shares_exec
    (shares_start { r with occupiedBands := a.getAllocatorOccupiedBands r.numBands } bsrbuf)
    hnodup hreport
  rw [List.nil_append] at hshares
  refine ⟨_, ?_, hmap, hshares.sound rfl hgraph hsorted hsymm, fun hself band nodeId => ?_⟩
  · rw [prepareSchedule, if_neg (by rw [hgraph]; simp)]
    dsimp only
    rw [hexec]
    rfl
  · rw [hshares.blocks]
    exact (hshares.status band).countP_le_one hgraph hself (hmap ▸ onBand_sublist os band) hnodup
      nodeId

end Round

/-- The UE 1025 has a link and a multicast; there is one band. -/
def linkAndMulticast (cgMatrix : CGMatrix) : BestFitRound where
  reuseD2D := true
  reuseD2DMulti := true
  conflictGraph := some cgMatrix
  numBands := 1
  req_Bytes1RB := fun _ => 200
  bytes_pos := fun _ => by decide
  bytes_lt := fun _ => by decide
  score := [67174401, 67174402]

/-- Each connection has reported 100 bytes. -/
def eachReported (_ : MacCid) : Option BsrBuffer := some ⟨100, 1, [100]⟩

/-- The graph with the link of the UE alone. -/
def linkGraph : CGMatrix := PairMap.fill (fun _ _ => true) [⟨1025, 1026⟩] []

theorem allocates_soundly_link : ∃ x,
    (linkAndMulticast linkGraph).prepareSchedule eachReported (fun _ => {}) = some x ∧
      x.bookings.map Booking.cid = [67174401, 67174402] ∧
      x.Sound (linkAndMulticast linkGraph) linkGraph (fun _ => {}) ∧
      (x.turn.allocatedRbsPerBand 0).ueAllocatedRbsMap 1025 ≤ 1 := by
  have hself : (linkAndMulticast linkGraph).SelfConflict linkGraph := by
    unfold BestFitRound.SelfConflict
    decide
  obtain ⟨x, hx, hmap, hsound, hone⟩ := (linkAndMulticast linkGraph).allocates_soundly rfl
    PairMap.sorted_nil.fill (PairMap.fill_symm fun _ _ => rfl) (by decide) eachReported
    (fun cid _ => ⟨_, 100, rfl, rfl⟩) (fun _ => {})
  exact ⟨x, hx, hmap, hsound, hone hself 0 1025⟩

/-- Before the graph has been computed it has no entries, and the UE gets the band twice. -/
theorem band_given_twice :
    PairMap.Sorted ([] : CGMatrix) ∧
      ((linkAndMulticast []).prepareSchedule eachReported fun _ => {}).map (fun x =>
        (x.turn.allocatedRbsPerBand 0).ueAllocatedRbsMap 1025) = some 2 :=
  ⟨PairMap.sorted_nil, by decide⟩

end V2nLte
