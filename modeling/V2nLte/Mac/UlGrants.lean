import V2nLte.Lte.NodeIds
import V2nLte.Mac.DlRequests
import V2nLte.Machine.OrderedMap

/-!
# The uplink scheduler and the grants

In a TTI of `LteSchedulerEnbUl` blocks are given in three phases: one block for each UE that has
sent a RAC request (`racschedule`), the blocks of the retransmissions (`rtxschedule`), and what
the calls of `scheduleGrant` book.  Each phase books its blocks with the allocator and notes them
in the schedule list, from which `sendGrants` makes the grants.

The entry of a retransmission is assigned, also when the RAC request of the UE has made one.

* `grants_announced_iff` : exactly when the grants of a TTI announce what is allocated.
* `rac_block_forgotten` : a UE with a RAC request and a retransmission.

There is no D2D.  A buffer of a UE that has left is skipped; in the source the iterator of the
loop is used after its element has been erased.
-/

namespace V2nLte

open Finset

/-- A unit of an H-ARQ process of the receiver, with the length of the PDU in it. -/
structure RxUnit where
  /-- The status. -/
  status : RxHarqPduStatus
  /-- The length of the PDU. -/
  byteLength : ℕ := 0
  deriving DecidableEq

/-- What is pending at the beginning of a TTI. -/
structure UlPending where
  /-- The RAC requests. -/
  racStatus : OrderedMap MacNodeId Bool := []
  /-- The processes of the UEs with their units. -/
  harqRxBuffers : OrderedMap MacNodeId (List (List RxUnit)) := []
  /-- The process of each UE that is on now. -/
  harqStatus : OrderedMap MacNodeId ℕ := []
  /-- The requests are in the order of the UEs. -/
  rac_sorted : racStatus.Sorted
  /-- The processes are in the order of the UEs. -/
  harq_sorted : harqRxBuffers.Sorted

/-- `getProcess` of the process whose retransmission is due. -/
def UlPending.rtxProcess (U : UlPending) (nodeId : MacNodeId) :
    Except SchedulerError (List RxUnit) :=
  match U.harqStatus.find nodeId, U.harqRxBuffers.find nodeId with
  | some currentAcid, some processes =>
    (processes[(currentAcid + 2) % processes.length]?).elim (.error .outOfRange) .ok
  | _, _ => .error .outOfRange

/-- Set an entry of the schedule list. -/
def LteSchedulerEnb.setEntry (s : LteSchedulerEnb) (cid : MacCid) (cw blocks : ℕ) :
    LteSchedulerEnb :=
  { s with
    scheduleList := Function.update s.scheduleList cid
      (Function.update (s.scheduleList cid) cw (some blocks)) }

/-- The blocks and bytes of a retransmission on a band. -/
structure BandRequest where
  /-- The band. -/
  band : Band
  /-- The blocks. -/
  blocks : ℕ
  /-- The bytes. -/
  bytes : ℕ

/-- A call of `scheduleGrant`. -/
structure UlCall where
  /-- The UE. -/
  nodeId : MacNodeId
  /-- The logical channel. -/
  lcid : LogicalCid := SHORT_BSR
  /-- How much is offered to it. -/
  bytes : ℕ := 0
  /-- The bands that it may use, if they are limited. -/
  bandLim : Option (List BandLimit) := none
  /-- The antenna. -/
  antenna : ℕ := MACRO
  /-- Whether the limits are in blocks. -/
  limitBl : Bool := false

/-- The call without its limits. -/
def UlCall.call (c : UlCall) : SchedulerEnv.ScheduleCall :=
  ⟨idToMacCid c.nodeId c.lcid, c.bytes, c.antenna, c.limitBl⟩

namespace SchedulerEnv

variable (E : SchedulerEnv)

/-! ### Random access -/

/-- The band loop of `racschedule`, with the allocator after a block has been found. -/
def racBands (nodeId : MacNodeId) (a : LteAllocationModule) :
    List Band → Except SchedulerError (Option LteAllocationModule)
  | [] => .ok none
  | b :: bs =>
    let bytes := E.computeBytesOnNRbs nodeId b 0 1 .UL
    if 0 < a.availableBlocks nodeId MACRO b ∧ 0 < bytes then do
      let (a', _) ← a.addBlocks MACRO b nodeId 1 bytes
      return some a'
    else racBands nodeId a bs

/-- The RAC request of a UE. -/
def racUser (s : LteSchedulerEnb) (nodeId : MacNodeId) : Except SchedulerError LteSchedulerEnb := do
  let found ← E.racBands nodeId s.allocator (List.range E.numBands)
  match found with
  | none => return s
  | some a => return { s with allocator := a }.setEntry (idToMacCid nodeId SHORT_BSR) 0 1

/-- `racschedule`, with its answer: no block is left. -/
def racschedule (U : UlPending) (s : LteSchedulerEnb) :
    Except SchedulerError (LteSchedulerEnb × Bool) := do
  let s' ← (U.racStatus.map Prod.fst).foldlM E.racUser s
  let availableBlocks ← s'.allocator.computeTotalRbs
  return (s', availableBlocks == 0)

/-! ### Retransmissions -/

/-- The band loop of a retransmission: what is requested, and the bytes that are left. -/
def rtxBands (a : LteAllocationModule) (nodeId : MacNodeId) (cw : ℕ) :
    List Band → ℕ → Except SchedulerError (List BandRequest × ℕ)
  | [], toServe => .ok ([], toServe)
  | b :: bs, toServe => do
    let available ← E.availableBytes a nodeId MACRO b cw .UL (-1)
    let servedBytes := if available < toServe then available else toServe
    let request : BandRequest := ⟨b, E.computeReqRbs nodeId b cw servedBytes .UL, servedBytes⟩
    if available < toServe then
      let (requests, left) ← rtxBands a nodeId cw bs (toServe - servedBytes)
      return (request :: requests, left)
    else return ([request], 0)

/-- Book the blocks of a retransmission. -/
def bookRtx (nodeId : MacNodeId) (requests : List BandRequest) (a : LteAllocationModule) :
    Except SchedulerError LteAllocationModule :=
  requests.foldlM (fun a r => Prod.fst <$> a.addBlocks MACRO r.band nodeId r.blocks r.bytes) a

/-- `schedulePerAcidRtx`, with the bytes it returns. -/
def schedulePerAcidRtx (U : UlPending) (s : LteSchedulerEnb) (nodeId : MacNodeId) (cw : ℕ) :
    Except SchedulerError (LteSchedulerEnb × ℕ) := do
  let process ← U.rtxProcess nodeId
  match process[cw]? with
  | none => .error .outOfRange
  | some unit =>
    -- only a corrupted unit is sent again
    if unit.status ≠ .CORRUPTED then return (s, 0)
    else do
      let cid := idToMacCid nodeId SHORT_BSR
      let mirrorCw := MAX_CODEWORDS - cw - 1
      let allocatedCw := if (s.scheduleList cid mirrorCw).isSome then mirrorCw else 0
      let (requests, left) ←
        E.rtxBands s.allocator nodeId cw (List.range E.numBands) unit.byteLength
      -- the PDU does not fit
      if 0 < left then return (s, 0)
      else do
        let a ← if allocatedCw ≠ MAX_CODEWORDS then bookRtx nodeId requests s.allocator
          else pure s.allocator
        let booked : LteSchedulerEnb := { s with
          allocator := a
          allocatedCws := Function.update s.allocatedCws nodeId (s.allocatedCws nodeId + 1) }
        return (booked.setEntry cid cw (requests.map BandRequest.blocks).sum, unit.byteLength)

/-- The loop over the codewords, with the number of those that are available. -/
def rtxCodewords (U : UlPending) (nodeId : MacNodeId) :
    List ℕ → ℕ → LteSchedulerEnb → Except SchedulerError LteSchedulerEnb
  | [], _, s => .ok s
  | cw :: cws, codewords, s =>
    if codewords = 0 then .ok s
    else do
      let (s', rtxBytes) ← E.schedulePerAcidRtx U s nodeId cw
      rtxCodewords U nodeId cws (if 0 < rtxBytes then codewords - 1 else codewords) s'

/-- The retransmissions of a UE. -/
def rtxUser (U : UlPending) (s : LteSchedulerEnb) (nodeId : MacNodeId) :
    Except SchedulerError LteSchedulerEnb :=
  if nodeId = 0 ∨ E.binder.getOmnetId nodeId = 0 then .ok s
  else do
    let process ← U.rtxProcess nodeId
    if process.any fun unit => unit.status == .CORRUPTED then
      E.rtxCodewords U nodeId (List.range MAX_CODEWORDS)
        (E.computeTxParams nodeId .UL).getLayers.length s
    else return s

/-- The retransmissions of `rtxschedule`, with its answer: no block is left. -/
def rtxUsers (U : UlPending) (s : LteSchedulerEnb) :
    Except SchedulerError (LteSchedulerEnb × Bool) := do
  let s' ← (U.harqRxBuffers.map Prod.fst).foldlM (E.rtxUser U) s
  let availableBlocks ← s'.allocator.computeTotalRbs
  return (s', availableBlocks == 0)

/-- `rtxschedule`, with its answer: no block is left. -/
def rtxscheduleUl (U : UlPending) (s : LteSchedulerEnb) :
    Except SchedulerError (LteSchedulerEnb × Bool) := do
  let (s', full) ← E.racschedule U s
  if full then return (s', true) else E.rtxUsers U s'

/-! ### A TTI -/

/-- A call of `scheduleGrant`, with the state it leaves. -/
def ulCall (s : LteSchedulerEnb) (c : UlCall) : Except SchedulerError LteSchedulerEnb :=
  Prod.fst <$> E.scheduleGrant s (idToMacCid c.nodeId c.lcid) c.bytes c.bandLim c.antenna c.limitBl

/-- `schedule`: the calls of `scheduleGrant` follow if blocks are left. -/
def scheduleUl (U : UlPending) (resourceBlocks : ℕ) (s : LteSchedulerEnb) (calls : List UlCall) :
    Except SchedulerError LteSchedulerEnb := do
  let (s', full) ← E.rtxscheduleUl U (s.startTti resourceBlocks E.numBands)
  if full then return s' else calls.foldlM E.ulCall s'

/-! ### What is booked -/

/-- The answers of the AMC fit together. -/
structure AmcFits : Prop where
  fit : E.BlocksFit
  /-- Nothing needs no blocks. -/
  nothing : ∀ id b cw dir, E.computeReqRbs id b cw 0 dir = 0
  /-- Bytes that fit need some. -/
  something : ∀ id b cw blocks bytes dir, 0 < bytes →
    bytes ≤ E.computeBytesOnNRbs id b cw blocks dir → 0 < E.computeReqRbs id b cw bytes dir

theorem withAmc_amcFits (T : TbsTables) : (E.withAmc T).AmcFits where
  fit := E.withAmc_fits T
  nothing id b cw dir := by
    dsimp only [withAmc]
    rw [TbsTables.computeReqRbs, if_pos rfl]
    rfl
  something id b cw blocks bytes dir hpos hle := by
    obtain ⟨j, -, hreq⟩ := E.withAmc_reqRbs T hpos hle
    rw [hreq]
    exact Nat.succ_pos j

variable {E} {U : UlPending} {s s' : LteSchedulerEnb} {a a' : LteAllocationModule}
  {nodeId : MacNodeId} {cw : ℕ} {bs : List Band}

theorem booked_addBlocks {antenna : ℕ} {b : Band} {blocks bytes : ℕ}
    {r : LteAllocationModule × Bool} (hblocks : blocks ≤ a.availableBlocks nodeId antenna b)
    (hzero : bytes = 0 → blocks = 0) (h : a.addBlocks antenna b nodeId blocks bytes = .ok r) :
    a.Booked r.1 nodeId blocks bytes := by
  unfold LteAllocationModule.addBlocks at h
  split at h
  · cases h
  split at h <;> rename_i href
  · cases h
    obtain rfl : bytes = 0 := href.resolve_left (Nat.not_lt.2 hblocks)
    rw [hzero rfl]
    exact .refl a nodeId
  · cases h
    exact LteAllocationModule.booked_noteBlocks

/-- A RAC request gets one block or none. -/
theorem racBands_spec {found : Option LteAllocationModule}
    (h : E.racBands nodeId a bs = .ok found) :
    ∀ a' ∈ found, ∃ bytes, a.Booked a' nodeId 1 bytes := by
  induction bs with
  | nil =>
    cases h
    exact fun a' ha' => nomatch ha'
  | cons b bs ih =>
    rw [racBands] at h
    dsimp only at h
    split at h <;> rename_i hfree
    · obtain ⟨r, hr, h⟩ := bind_eq_ok.1 h
      cases h
      rintro a' ⟨⟩
      exact ⟨_, booked_addBlocks hfree.1 (fun h₀ => absurd h₀ (Nat.ne_of_gt hfree.2)) hr⟩
    · exact ih h

/-- The requests of a retransmission are for different bands and fit into them. -/
theorem rtxBands_spec (hE : E.AmcFits) {t left : ℕ} {requests : List BandRequest}
    (h : E.rtxBands a nodeId cw bs t = .ok (requests, left)) :
    (requests.map BandRequest.band).Sublist bs ∧ ∀ r ∈ requests,
      r.blocks ≤ a.availableBlocks nodeId MACRO r.band ∧ (r.bytes = 0 → r.blocks = 0) := by
  induction bs generalizing t requests left with
  | nil =>
    cases h
    exact ⟨List.Sublist.refl _, nofun⟩
  | cons b bs ih =>
    rw [rtxBands] at h
    obtain ⟨available, havail, h⟩ := bind_eq_ok.1 h
    dsimp only at h
    generalize hserved : (if available < t then available else t) = servedBytes at h
    have hle : servedBytes ≤ available := by
      rw [← hserved]
      split <;> omega
    -- the request for this band
    have hfits : E.computeReqRbs nodeId b cw servedBytes .UL ≤ a.availableBlocks nodeId MACRO b ∧
        (servedBytes = 0 → E.computeReqRbs nodeId b cw servedBytes .UL = 0) := by
      refine ⟨?_, fun h₀ => by rw [h₀, hE.nothing]⟩
      rcases Nat.eq_zero_or_pos servedBytes with h₀ | hpos
      · rw [h₀, hE.nothing]
        exact Nat.zero_le _
      · exact availableBytes_fits hE.fit havail hpos hle
    split at h
    · obtain ⟨⟨rest, left'⟩, hrest, h⟩ := bind_eq_ok.1 h
      cases h
      obtain ⟨hsub, hall⟩ := ih hrest
      refine ⟨hsub.cons_cons b, fun r hr => ?_⟩
      rcases List.mem_cons.1 hr with rfl | hr
      · exact hfits
      · exact hall r hr
    · cases h
      refine ⟨(List.nil_sublist bs).cons_cons b, fun r hr => ?_⟩
      obtain rfl := List.mem_singleton.1 hr
      exact hfits

theorem bookRtx_spec {requests : List BandRequest}
    (hnodup : (requests.map BandRequest.band).Nodup)
    (hfits : ∀ r ∈ requests,
      r.blocks ≤ a.availableBlocks nodeId MACRO r.band ∧ (r.bytes = 0 → r.blocks = 0))
    (h : bookRtx nodeId requests a = .ok a') :
    ∃ bytes, a.Booked a' nodeId (requests.map BandRequest.blocks).sum bytes := by
  induction requests generalizing a with
  | nil =>
    cases h
    exact ⟨0, .refl _ _⟩
  | cons r requests ih =>
    obtain ⟨hr, hnodup⟩ := List.nodup_cons.1 hnodup
    rw [bookRtx, List.foldlM_cons] at h
    obtain ⟨a₁, ha₁, h⟩ := bind_eq_ok.1 h
    cases hadd : a.addBlocks MACRO r.band nodeId r.blocks r.bytes with
    | error e => rw [hadd] at ha₁; cases ha₁
    | ok p =>
      rw [hadd] at ha₁
      cases ha₁
      obtain ⟨hblocks, hzero⟩ := hfits r List.mem_cons_self
      have hbooked := booked_addBlocks hblocks hzero hadd
      -- the other bands are as before
      have hframe := (LteAllocationModule.addBlocks_frame hadd).2
      obtain ⟨bytes, hrest⟩ := ih hnodup (fun r' hr' => by
        rw [hframe r'.band fun heq => hr (heq ▸ List.mem_map_of_mem hr')]
        exact hfits r' (List.mem_cons_of_mem r hr')) h
      rw [List.map_cons, List.sum_cons]
      exact ⟨r.bytes + bytes, hbooked.trans hrest⟩

/-! ### The calls -/

variable (E) in
/-- The bytes that the band loop books, without the wrap-around of its 32-bit counter. -/
def bandBytes (nodeId : MacNodeId) (dir : FlowDirection) (antenna : ℕ) (limitBl : Bool)
    (queueLength : ℕ) : List BandLimit → BandLoop → ℕ
  | [], _ => 0
  | l :: ls, st =>
    if l.limit = -2 then bandBytes nodeId dir antenna limitBl queueLength ls st
    else
      match E.availableBytes st.allocator nodeId antenna l.band 0 dir
        (if limitBl then l.limit else -1) with
      | .error _ => 0
      | .ok available =>
        if available = 0 then bandBytes nodeId dir antenna limitBl queueLength ls st
        else
          let available :=
            if ¬limitBl ∧ 0 ≤ l.limit ∧ l.limit < available then l.limit.toNat else available
          let uBytes := if queueLength < available then queueLength else available
          let uBlocks := E.computeReqRbs nodeId l.band 0 uBytes dir
          match st.allocator.addBlocks antenna l.band nodeId uBlocks uBytes with
          | .error _ => 0
          | .ok (allocator, _) =>
            let toServe := if st.toServe < uBytes then 0 else st.toServe - uBytes
            uBytes +
              if toServe = 0 then 0
              else bandBytes nodeId dir antenna limitBl queueLength ls
                { allocator := allocator
                  toServe := toServe
                  cwAllocatedBytes := u32 (st.cwAllocatedBytes + uBytes)
                  cwAllocatedBlocks := st.cwAllocatedBlocks + uBlocks }

/-- **What the band loop counts is what is booked**, under any limits. -/
theorem grantBands_counts (hE : E.AmcFits) {dir : FlowDirection} {antenna q : ℕ} {limitBl : Bool}
    {ls : List BandLimit} {st : BandLoop} {r : BandLoop × List BandLimit × Bool}
    (hst : u32 st.cwAllocatedBytes = st.cwAllocatedBytes)
    (h : E.grantBands nodeId dir antenna limitBl q ls st = .ok r) :
    ∃ blocks, st.allocator.Booked r.1.allocator nodeId blocks
        (E.bandBytes nodeId dir antenna limitBl q ls st) ∧
      r.1.cwAllocatedBlocks = st.cwAllocatedBlocks + blocks ∧
      r.1.cwAllocatedBytes =
        u32 (st.cwAllocatedBytes + E.bandBytes nodeId dir antenna limitBl q ls st) ∧
      (E.bandBytes nodeId dir antenna limitBl q ls st = 0 ↔ blocks = 0) := by
  induction ls generalizing st r with
  | nil =>
    cases h
    exact ⟨0, .refl _ _, rfl, hst.symm, Iff.rfl⟩
  | cons l ls ih =>
    -- how the source writes a minimum and a subtraction that stops at zero
    have hmin : ∀ c, (if q < c then q else c) = min c q := fun c => by
      rw [Nat.min_def]
      split <;> split <;> omega
    have hserve : ∀ t u, (if t < u then 0 else t - u) = t - u := fun t u => by
      split <;> omega
    rw [bandBytes]
    simp only [hmin, hserve]
    -- a band that is passed over books nothing
    rcases grantBands_cases h with ⟨hskip, r', hr', h₁, -⟩ | ⟨c, a, hlimit, hc, h₀, ha, hrest⟩
    · rw [h₁]
      rcases hskip with hlimit | ⟨hlimit, hzero⟩
      · rw [if_pos hlimit]
        exact ih hst hr'
      · rw [if_neg hlimit, hzero]
        exact ih hst hr'
    rw [if_neg hlimit, hc]
    dsimp only
    rw [if_neg h₀]
    have hle := capped_le limitBl l.limit c q
    generalize min (if ¬limitBl = true ∧ 0 ≤ l.limit ∧ l.limit < c then l.limit.toNat
      else c) q = uBytes at hle ha hrest ⊢
    have hblocks : E.computeReqRbs nodeId l.band 0 uBytes dir ≤
        st.allocator.availableBlocks nodeId antenna l.band ∧
          (uBytes = 0 ↔ E.computeReqRbs nodeId l.band 0 uBytes dir = 0) := by
      rcases Nat.eq_zero_or_pos uBytes with h₀ | hpos
      · rw [h₀, hE.nothing]
        exact ⟨Nat.zero_le _, iff_of_true rfl rfl⟩
      · refine ⟨availableBytes_fits hE.fit hc hpos hle, ?_⟩
        obtain ⟨blocks, -, rfl⟩ := availableBytes_eq hc
        have hsome := hE.something _ _ _ _ _ _ hpos hle
        exact iff_of_false (Nat.ne_of_gt hpos) (Nat.ne_of_gt hsome)
    obtain ⟨a, answer⟩ := a
    have hbooked := booked_addBlocks hblocks.1 hblocks.2.1 ha
    rw [ha]
    dsimp only at hrest ⊢
    -- the loop ends with this band, or goes on with the rest
    rcases hrest with ⟨hserved, h₁, -⟩ | ⟨hleft, r', hr', h₁, -⟩
    · rw [if_pos (Nat.sub_eq_zero_of_le hserved), Nat.add_zero, h₁]
      exact ⟨_, hbooked, rfl, rfl, hblocks.2⟩
    · obtain ⟨blocks, hrest, hcount, hbytes, hiff⟩ :=
        ih (by simp only [u32]; omega) hr'
      rw [if_neg (Nat.sub_ne_zero_of_lt hleft), h₁]
      refine ⟨_, hbooked.trans hrest, ?_, ?_, ?_⟩
      · rw [hcount, Nat.add_assoc]
      · rw [hbytes]
        simp only [u32]
        omega
      · rw [Nat.add_eq_zero_iff, Nat.add_eq_zero_iff, hblocks.2, hiff]

end SchedulerEnv

/-! ### The schedule list and the allocator -/

namespace LteSchedulerEnb

/-- The blocks that `sendGrants` grants to a UE: those in its entries of the schedule list. -/
def announced (s : LteSchedulerEnb) (n : MacNodeId) : ℕ :=
  ∑ lcid : LogicalCid, ∑ cw ∈ range MAX_CODEWORDS, (s.scheduleList (idToMacCid n lcid) cw).getD 0

/-- The blocks that the allocator holds for a UE. -/
def held (s : LteSchedulerEnb) (n : MacNodeId) : ℕ := (s.allocator.allocatedRbsUe n).allocatedBlocks

/-- The grants announce what is allocated. -/
structure Announced (s : LteSchedulerEnb) : Prop where
  /-- A UE is announced the blocks that it holds. -/
  blocks : ∀ n, s.announced n = s.held n
  /-- No UE holds blocks without an entry. -/
  entry : ∀ n, s.held n ≠ 0 → ∃ lcid cw, (s.scheduleList (idToMacCid n lcid) cw).isSome

/-- The allocator holds what is announced and the blocks that have been lost. -/
def Books (s : LteSchedulerEnb) (lost : MacNodeId → ℕ) : Prop :=
  ∀ n, s.held n = s.announced n + lost n

/-- From `s` to `s'` blocks are lost if and only if `p`. -/
def Loses (s s' : LteSchedulerEnb) (p : Prop) : Prop :=
  ∀ lost, s.Books lost → ∃ lost', s'.Books lost' ∧
    ((∀ n, lost' n = 0) ↔ (∀ n, lost n = 0) ∧ ¬p)

variable {s s' s'' : LteSchedulerEnb} {p q : Prop} {lost : MacNodeId → ℕ} {u : MacNodeId}
  {lcid : LogicalCid} {cw blocks bytes : ℕ}

theorem Books.announced_iff (h : s.Books lost) : s.Announced ↔ ∀ n, lost n = 0 := by
  constructor
  · intro ha n
    have hblocks := ha.blocks n
    have hheld := h n
    omega
  · intro hlost
    have hblocks : ∀ n, s.announced n = s.held n := fun n => by rw [h n, hlost n, Nat.add_zero]
    refine ⟨hblocks, fun n hn => ?_⟩
    rw [← hblocks, announced] at hn
    obtain ⟨lcid, -, hn⟩ := exists_ne_zero_of_sum_ne_zero hn
    obtain ⟨cw, -, hn⟩ := exists_ne_zero_of_sum_ne_zero hn
    refine ⟨lcid, cw, Option.isSome_iff_ne_none.2 fun hnone => hn ?_⟩
    rw [hnone, Option.getD_none]

theorem Loses.refl (s : LteSchedulerEnb) : s.Loses s False := fun lost h =>
  ⟨lost, h, by rw [not_false_iff, and_true]⟩

theorem Loses.trans (h : s.Loses s' p) (h' : s'.Loses s'' q) : s.Loses s'' (p ∨ q) := by
  intro lost hlost
  obtain ⟨lost', hlost', hiff⟩ := h lost hlost
  obtain ⟨lost'', hlost'', hiff'⟩ := h' lost' hlost'
  refine ⟨lost'', hlost'', ?_⟩
  rw [hiff', hiff, not_or, and_assoc]

theorem Loses.congr (h : s.Loses s' p) (hpq : p ↔ q) : s.Loses s' q := propext hpq ▸ h

theorem announced_congr (h : s'.scheduleList = s.scheduleList) (n : MacNodeId) :
    s'.announced n = s.announced n := by
  rw [announced, announced, h]

theorem idToMacCid_inj {n n' : MacNodeId} {l l' : LogicalCid}
    (h : idToMacCid n l = idToMacCid n' l') : n = n' ∧ l = l' := by
  refine ⟨?_, Fin.ext ?_⟩
  · rw [← MacCidToNodeId_idToMacCid n l, h, MacCidToNodeId_idToMacCid]
  · rw [← MacCidToLcid_idToMacCid n l, h, MacCidToLcid_idToMacCid]

/-- The new entry takes the place of the old one. -/
theorem announced_setEntry (s : LteSchedulerEnb) (u : MacNodeId) (lcid : LogicalCid) (blocks : ℕ)
    {cw : ℕ} (hcw : cw < MAX_CODEWORDS) (n : MacNodeId) :
    (s.setEntry (idToMacCid u lcid) cw blocks).announced n +
        (if n = u then (s.scheduleList (idToMacCid u lcid) cw).getD 0 else 0) =
      s.announced n + if n = u then blocks else 0 := by
  by_cases hn : n = u
  · subst hn
    rw [if_pos rfl, if_pos rfl]
    -- only one entry changes
    have hpoint : ∀ l c, ((s.setEntry (idToMacCid n lcid) cw blocks).scheduleList
          (idToMacCid n l) c).getD 0 +
        (if l = lcid then if c = cw then (s.scheduleList (idToMacCid n lcid) cw).getD 0 else 0
          else 0) =
        (s.scheduleList (idToMacCid n l) c).getD 0 +
          if l = lcid then if c = cw then blocks else 0 else 0 := by
      intro l c
      dsimp only [setEntry]
      by_cases hl : l = lcid
      · subst hl
        rw [if_pos rfl, if_pos rfl, Function.update_self]
        by_cases hc : c = cw
        · subst hc
          rw [if_pos rfl, if_pos rfl, Function.update_self, Option.getD_some, Nat.add_comm]
        · rw [if_neg hc, if_neg hc, Function.update_of_ne hc]
      · have hcid : idToMacCid n l ≠ idToMacCid n lcid := fun h => hl (idToMacCid_inj h).2
        rw [if_neg hl, if_neg hl, Function.update_of_ne hcid]
    have hsum := Finset.sum_congr rfl fun (l : LogicalCid) (_ : l ∈ univ) =>
      Finset.sum_congr rfl fun c (_ : c ∈ range MAX_CODEWORDS) => hpoint l c
    have hone : ∀ v : ℕ, ∑ l : LogicalCid, ∑ c ∈ range MAX_CODEWORDS,
        (if l = lcid then if c = cw then v else 0 else 0) = v := by
      intro v
      rw [Finset.sum_eq_single lcid]
      · rw [Finset.sum_eq_single cw]
        · rw [if_pos rfl, if_pos rfl]
        · intro c _ hc
          rw [if_pos rfl, if_neg hc]
        · intro hc
          exact absurd (mem_range.2 hcw) hc
      · intro l _ hl
        exact Finset.sum_eq_zero fun c _ => if_neg hl
      · intro hl
        exact absurd (mem_univ lcid) hl
    simp only [sum_add_distrib, hone] at hsum
    exact hsum
  · rw [if_neg hn, if_neg hn, Nat.add_zero, Nat.add_zero]
    refine Finset.sum_congr rfl fun l _ => Finset.sum_congr rfl fun c _ => ?_
    have hcid : idToMacCid n l ≠ idToMacCid u lcid := fun h => hn (idToMacCid_inj h).1
    dsimp only [setEntry]
    rw [Function.update_of_ne hcid]

theorem loses_iff : (∀ n, (fun n => lost n + if n = u then blocks else 0) n = 0) ↔
    (∀ n, lost n = 0) ∧ ¬blocks ≠ 0 := by
  constructor
  · intro h
    refine ⟨fun n => Nat.eq_zero_of_add_eq_zero_right (h n), fun hne => hne ?_⟩
    have hu : lost u + (if u = u then blocks else 0) = 0 := h u
    rw [if_pos rfl] at hu
    exact Nat.eq_zero_of_add_eq_zero_left hu
  · rintro ⟨h, hne⟩ n
    dsimp only
    rw [h n, not_not.1 hne, ite_self]

theorem loses_of_booked (hbooked : s.allocator.Booked s'.allocator u blocks bytes)
    (hlist : s'.scheduleList = s.scheduleList) : s.Loses s' (blocks ≠ 0) := by
  intro lost hlost
  refine ⟨fun n => lost n + if n = u then blocks else 0, fun n => ?_, loses_iff⟩
  have hheld := hbooked.blocks n
  have hn := hlost n
  rw [announced_congr hlist]
  unfold held at hn ⊢
  dsimp only
  omega

theorem loses_of_added (hcw : cw < MAX_CODEWORDS)
    (hbooked : s.allocator.Booked s'.allocator u blocks bytes)
    (hlist : s'.scheduleList = (s.setEntry (idToMacCid u lcid) cw
      ((s.scheduleList (idToMacCid u lcid) cw).getD 0 + blocks)).scheduleList) :
    s.Loses s' False := by
  intro lost hlost
  refine ⟨lost, fun n => ?_, by rw [not_false_iff, and_true]⟩
  have hannounced := announced_setEntry s u lcid
    ((s.scheduleList (idToMacCid u lcid) cw).getD 0 + blocks) hcw n
  rw [← announced_congr hlist] at hannounced
  have hheld := hbooked.blocks n
  have hn := hlost n
  unfold held at hn ⊢
  split at hannounced <;> rename_i hu
  · rw [if_pos hu] at hheld
    omega
  · rw [if_neg hu] at hheld
    omega

/-- Blocks are booked and noted in an entry: what the entry had before is lost. -/
theorem loses_of_entry (hcw : cw < MAX_CODEWORDS)
    (hbooked : s.allocator.Booked s'.allocator u blocks bytes)
    (hlist : s'.scheduleList = (s.setEntry (idToMacCid u lcid) cw blocks).scheduleList) :
    s.Loses s' ((s.scheduleList (idToMacCid u lcid) cw).getD 0 ≠ 0) := by
  intro lost hlost
  generalize hold : (s.scheduleList (idToMacCid u lcid) cw).getD 0 = old
  refine ⟨fun n => lost n + if n = u then old else 0, fun n => ?_, loses_iff⟩
  have hannounced := announced_setEntry s u lcid blocks hcw n
  rw [hold, ← announced_congr hlist] at hannounced
  have hheld := hbooked.blocks n
  have hn := hlost n
  unfold held at hn ⊢
  dsimp only
  omega

end LteSchedulerEnb

namespace SchedulerEnv

variable {E : SchedulerEnv} {U : UlPending} {s s' : LteSchedulerEnb} {u : MacNodeId} {cw : ℕ}

/-! ### Random access -/

/-- The entries that RAC requests make are for one block of the first codeword. -/
def RacEntries (s : LteSchedulerEnb) (u : MacNodeId) : Prop :=
  s.scheduleList (idToMacCid u SHORT_BSR) 1 = none ∧
    ∀ v, s.scheduleList (idToMacCid u SHORT_BSR) 0 = some v → v = 1

theorem racUser_spec (hnew : s.scheduleList (idToMacCid u SHORT_BSR) 0 = none)
    (hrac : RacEntries s u) (h : E.racUser s u = .ok s') :
    s.Loses s' False ∧ RacEntries s' u ∧
      ∀ n, n ≠ u → s'.scheduleList (idToMacCid n SHORT_BSR) =
        s.scheduleList (idToMacCid n SHORT_BSR) := by
  obtain ⟨found, hfound, h⟩ := bind_eq_ok.1 h
  cases found with
  | none =>
    cases h
    exact ⟨.refl s, hrac, fun _ _ => rfl⟩
  | some a =>
    cases h
    obtain ⟨bytes, hbooked⟩ := racBands_spec hfound a rfl
    have hloses : s.Loses ({ s with allocator := a }.setEntry (idToMacCid u SHORT_BSR) 0 1) _ :=
      LteSchedulerEnb.loses_of_entry (by decide) hbooked rfl
    refine ⟨hloses.congr (iff_false_intro (not_not.2 ?_)), ⟨?_, ?_⟩, fun n hn => ?_⟩
    · rw [hnew]
      rfl
    · dsimp only [LteSchedulerEnb.setEntry]
      rw [Function.update_self, Function.update_of_ne (by decide)]
      exact hrac.1
    · intro v hv
      dsimp only [LteSchedulerEnb.setEntry] at hv
      rw [Function.update_self, Function.update_self] at hv
      exact (Option.some.inj hv).symm
    · dsimp only [LteSchedulerEnb.setEntry]
      exact Function.update_of_ne (fun h => hn (LteSchedulerEnb.idToMacCid_inj h).1) _ _

theorem racschedule_spec {full : Bool} (hlist : s.scheduleList = fun _ _ => none)
    (h : E.racschedule U s = .ok (s', full)) : s.Loses s' False ∧ ∀ n, RacEntries s' n := by
  obtain ⟨s₁, hloop, h⟩ := bind_eq_ok.1 h
  obtain ⟨total, -, h⟩ := bind_eq_ok.1 h
  cases h
  have hrule := foldlM_rel (R := fun s s' _ => s.Loses s' False) (P := fun _ _ => False)
    (J := fun us s => us.Nodup ∧ (∀ n, RacEntries s n) ∧
      ∀ u ∈ us, s.scheduleList (idToMacCid u SHORT_BSR) 0 = none)
    LteSchedulerEnb.Loses.refl
    (fun h h' => (h.trans h').congr (or_self_iff))
    (fun {u us s s'} hJ hst => ?_) ⟨?_, ?_, ?_⟩ hloop
  · exact ⟨hrule.1, hrule.2.2.1⟩
  · obtain ⟨hnodup, hrac, hnew⟩ := hJ
    obtain ⟨hu, hus⟩ := List.nodup_cons.1 hnodup
    obtain ⟨hloses, hrac', hframe⟩ := racUser_spec (hnew u List.mem_cons_self) (hrac u) hst
    refine ⟨hloses, hus, fun n => ?_, fun n hn => ?_⟩
    · by_cases hnu : n = u
      · rw [hnu]
        exact hrac'
      · rw [RacEntries, hframe n hnu]
        exact hrac n
    · have hnu : n ≠ u := fun heq => hu (heq ▸ hn)
      rw [hframe n hnu]
      exact hnew n (List.mem_cons_of_mem u hn)
  · exact U.rac_sorted.imp ne_of_lt
  · intro n
    rw [RacEntries, hlist]
    exact ⟨rfl, nofun⟩
  · intro u _
    rw [hlist]

/-! ### Retransmissions -/

variable (E) in
/-- The retransmission of a codeword is served: its unit is corrupted and there is room. -/
def RtxServed (U : UlPending) (s : LteSchedulerEnb) (u : MacNodeId) (cw : ℕ) : Prop :=
  ∃ process unit requests, U.rtxProcess u = .ok process ∧ process[cw]? = some unit ∧
    unit.status = .CORRUPTED ∧
    E.rtxBands s.allocator u cw (List.range E.numBands) unit.byteLength = .ok (requests, 0)

variable (E) in
/-- The retransmission of the first codeword of a UE is served when its RAC request has made an
entry for it. -/
def Overwrites (U : UlPending) (s : LteSchedulerEnb) (u : MacNodeId) : Prop :=
  (u ≠ 0 ∧ E.binder.getOmnetId u ≠ 0) ∧ 0 < (E.computeTxParams u .UL).getLayers.length ∧
    (s.scheduleList (idToMacCid u SHORT_BSR) 0).isSome ∧ E.RtxServed U s u 0

/-- **A retransmission**: what its entry had before is lost. -/
theorem schedulePerAcidRtx_spec (hE : E.AmcFits) {bytes : ℕ} (hcw : cw < MAX_CODEWORDS)
    (h : E.schedulePerAcidRtx U s u cw = .ok (s', bytes)) :
    s.Loses s' (E.RtxServed U s u cw ∧
        (s.scheduleList (idToMacCid u SHORT_BSR) cw).getD 0 ≠ 0) ∧
      ∀ cid c, ¬(cid = idToMacCid u SHORT_BSR ∧ c = cw) →
        s'.scheduleList cid c = s.scheduleList cid c := by
  obtain ⟨process, hprocess, h⟩ := bind_eq_ok.1 h
  split at h
  · cases h
  rename_i unit hunit
  split at h <;> rename_i hstatus
  · cases h
    refine ⟨(LteSchedulerEnb.Loses.refl s).congr (iff_of_false id ?_), fun _ _ _ => rfl⟩
    rintro ⟨⟨process', unit', requests, hprocess', hunit', hcorrupted, -⟩, -⟩
    cases hprocess.symm.trans hprocess'
    cases hunit.symm.trans hunit'
    exact hstatus hcorrupted
  obtain ⟨⟨requests, left⟩, hbands, h⟩ := bind_eq_ok.1 h
  dsimp only at h
  split at h <;> rename_i hleft
  · cases h
    refine ⟨(LteSchedulerEnb.Loses.refl s).congr (iff_of_false id ?_), fun _ _ _ => rfl⟩
    rintro ⟨⟨process', unit', requests', hprocess', hunit', -, hbands'⟩, -⟩
    cases hprocess.symm.trans hprocess'
    cases hunit.symm.trans hunit'
    cases hbands.symm.trans hbands'
    exact absurd hleft (Nat.lt_irrefl 0)
  -- the mirror codeword is one of the two, so the blocks are always booked
  have hmirror : (if (s.scheduleList (idToMacCid u SHORT_BSR) (MAX_CODEWORDS - cw - 1)).isSome
      then MAX_CODEWORDS - cw - 1 else 0) ≠ MAX_CODEWORDS := by
    unfold MAX_CODEWORDS at hcw ⊢
    split <;> omega
  rw [if_pos hmirror] at h
  obtain ⟨a, ha, h⟩ := bind_eq_ok.1 h
  cases h
  obtain ⟨hsub, hfits⟩ := rtxBands_spec hE hbands
  obtain ⟨bytes, hbooked⟩ := bookRtx_spec (List.nodup_range.sublist hsub) hfits ha
  obtain rfl : left = 0 := Nat.eq_zero_of_not_pos hleft
  have hserved : E.RtxServed U s u cw :=
    ⟨process, unit, requests, hprocess, hunit, not_not.1 hstatus, hbands⟩
  have hloses : s.Loses ({ s with
      allocator := a
      allocatedCws := Function.update s.allocatedCws u (s.allocatedCws u + 1) }.setEntry
        (idToMacCid u SHORT_BSR) cw (requests.map BandRequest.blocks).sum) _ :=
    LteSchedulerEnb.loses_of_entry hcw hbooked rfl
  refine ⟨hloses.congr (and_iff_right hserved).symm, fun cid c hne => ?_⟩
  dsimp only [LteSchedulerEnb.setEntry]
  by_cases hcid : cid = idToMacCid u SHORT_BSR
  · have hc : c ≠ cw := fun hc => hne ⟨hcid, hc⟩
    rw [hcid, Function.update_self, Function.update_of_ne hc]
  · rw [Function.update_of_ne hcid]

/-- **The retransmissions of a UE**: the block of its RAC request is lost if the first codeword is
sent again. -/
theorem rtxUser_spec (hE : E.AmcFits) (hrac : RacEntries s u) (h : E.rtxUser U s u = .ok s') :
    s.Loses s' (E.Overwrites U s u) ∧
      ∀ n, n ≠ u → s'.scheduleList (idToMacCid n SHORT_BSR) =
        s.scheduleList (idToMacCid n SHORT_BSR) := by
  unfold rtxUser at h
  split at h <;> rename_i hreg
  · cases h
    exact ⟨(LteSchedulerEnb.Loses.refl s).congr
      (iff_of_false id fun hover => not_or.2 hover.1 hreg), fun _ _ => rfl⟩
  obtain ⟨process, hprocess, h⟩ := bind_eq_ok.1 h
  split at h <;> rename_i hany
  swap
  · cases h
    refine ⟨(LteSchedulerEnb.Loses.refl s).congr (iff_of_false id fun hover => hany ?_),
      fun _ _ => rfl⟩
    obtain ⟨-, -, -, process', unit, requests, hprocess', hunit, hcorrupted, -⟩ := hover
    cases hprocess.symm.trans hprocess'
    exact List.any_eq_true.2 ⟨unit, List.mem_of_getElem? hunit, beq_iff_eq.2 hcorrupted⟩
  rw [show List.range MAX_CODEWORDS = [0, 1] from rfl, rtxCodewords] at h
  split at h <;> rename_i hlayers
  · cases h
    refine ⟨(LteSchedulerEnb.Loses.refl s).congr (iff_of_false id fun hover => ?_), fun _ _ => rfl⟩
    exact absurd hover.2.1 (Nat.not_lt.2 (Nat.le_of_eq hlayers))
  obtain ⟨⟨s₁, bytes⟩, hfirst, h⟩ := bind_eq_ok.1 h
  obtain ⟨hloses, hframe⟩ := schedulePerAcidRtx_spec hE (by decide) hfirst
  have hover : (E.RtxServed U s u 0 ∧
      (s.scheduleList (idToMacCid u SHORT_BSR) 0).getD 0 ≠ 0) ↔ E.Overwrites U s u := by
    have hsome : (s.scheduleList (idToMacCid u SHORT_BSR) 0).getD 0 ≠ 0 ↔
        (s.scheduleList (idToMacCid u SHORT_BSR) 0).isSome := by
      cases hentry : s.scheduleList (idToMacCid u SHORT_BSR) 0 with
      | none => exact iff_of_false (fun h => h rfl) nofun
      | some v =>
        obtain rfl := hrac.2 v hentry
        exact iff_of_true (by decide) rfl
    rw [hsome]
    exact ⟨fun h => ⟨not_or.1 hreg, Nat.pos_of_ne_zero hlayers, h.2, h.1⟩,
      fun h => ⟨h.2.2.2, h.2.2.1⟩⟩
  have hcids : ∀ n, n ≠ u → idToMacCid n SHORT_BSR ≠ idToMacCid u SHORT_BSR :=
    fun n hn heq => hn (LteSchedulerEnb.idToMacCid_inj heq).1
  dsimp only at h
  generalize (if 0 < bytes then (E.computeTxParams u .UL).getLayers.length - 1
    else (E.computeTxParams u .UL).getLayers.length) = codewords at h
  rw [rtxCodewords] at h
  split at h
  · cases h
    exact ⟨hloses.congr hover, fun n hn => funext fun c => hframe _ _ fun heq => hcids n hn heq.1⟩
  obtain ⟨⟨s₂, bytes'⟩, hsecond, h⟩ := bind_eq_ok.1 h
  cases h
  obtain ⟨hloses', hframe'⟩ := schedulePerAcidRtx_spec hE (by decide) hsecond
  -- the second codeword has no entry yet
  have hnone : s₁.scheduleList (idToMacCid u SHORT_BSR) 1 = none :=
    (hframe _ _ fun heq => absurd heq.2 (by decide)).trans hrac.1
  refine ⟨(hloses.trans hloses').congr ?_, fun n hn => funext fun c => ?_⟩
  · rw [hnone, hover]
    exact or_iff_left fun hlost => hlost.2 rfl
  · rw [hframe' _ _ fun heq => hcids n hn heq.1, hframe _ _ fun heq => hcids n hn heq.1]

theorem rtxUsers_spec (hE : E.AmcFits) {full : Bool} (hrac : ∀ n, RacEntries s n)
    (h : E.rtxUsers U s = .ok (s', full)) :
    s.Loses s' (AtSome (E.rtxUser U) (E.Overwrites U) s (U.harqRxBuffers.map Prod.fst)) := by
  obtain ⟨s₁, hloop, h⟩ := bind_eq_ok.1 h
  obtain ⟨total, -, h⟩ := bind_eq_ok.1 h
  cases h
  refine (foldlM_rel (J := fun us s => us.Nodup ∧ ∀ u ∈ us, RacEntries s u)
    LteSchedulerEnb.Loses.refl LteSchedulerEnb.Loses.trans (fun {u us s s'} hJ hst => ?_)
    ⟨U.harq_sorted.imp ne_of_lt, fun u _ => hrac u⟩ hloop).1
  obtain ⟨hnodup, hrac⟩ := hJ
  obtain ⟨hu, hus⟩ := List.nodup_cons.1 hnodup
  obtain ⟨hloses, hframe⟩ := rtxUser_spec hE (hrac u List.mem_cons_self) hst
  refine ⟨hloses, hus, fun n hn => ?_⟩
  have hnu : n ≠ u := fun heq => hu (heq ▸ hn)
  rw [RacEntries, hframe n hnu]
  exact hrac n (List.mem_cons_of_mem u hn)

/-! ### Calls -/

variable (E) in
/-- The 32-bit counter of a call wraps around to zero, so that nothing is noted. -/
def Wraps (s : LteSchedulerEnb) (c : UlCall) : Prop :=
  ∃ b bytes, E.Admits s c.call b ∧ bytes ≠ 0 ∧ u32 bytes = 0 ∧
    bytes = E.bandBytes (MacCidToNodeId c.call.cid) (E.dirOf c.call.cid) c.antenna c.limitBl
      (needed b) (c.bandLim.getD (unlimited (List.range E.numBands)))
      ⟨E.allocatorOf s c.call, needed b, 0, 0⟩

/-- **A call** notes what it books, if its counter does not wrap around. -/
theorem ulCall_spec (hE : E.AmcFits) (hdir : E.direction = .UL) {c : UlCall}
    (h : E.ulCall s c = .ok s') : s.Loses s' (E.Wraps s c) := by
  unfold ulCall at h
  cases hgrant : E.scheduleGrant s (idToMacCid c.nodeId c.lcid) c.bytes c.bandLim c.antenna
      c.limitBl with
  | error e => rw [hgrant] at h; cases h
  | ok r =>
    obtain ⟨s₁, g, ls⟩ := r
    rw [hgrant] at h
    cases h
    rcases scheduleGrant_admits (c := c.call) hgrant with
      ⟨hun, hno⟩ | ⟨b, r, hadm, hloop, hserved⟩
    · -- the queue is not served, so nothing is booked
      have hnone : ¬E.Wraps s c := fun ⟨b, bytes, hadm, _⟩ => hno b hadm
      have hbooked : s.allocator.Booked s₁.allocator c.nodeId 0 0 := by
        rcases hun.allocator with ha | ha <;> rw [ha]
        · exact .refl _ _
        · have hprep := booked_allocatorOf (E := E) s c.call
          rwa [show MacCidToNodeId c.call.cid = c.nodeId from MacCidToNodeId_idToMacCid _ _]
            at hprep
      exact (LteSchedulerEnb.loses_of_booked hbooked hun.list).congr
        (iff_of_false (fun h => h rfl) hnone)
    · obtain ⟨blocks, hbooked, hblocks, hbytes, hiff⟩ := grantBands_counts hE rfl hloop
      have hnode : MacCidToNodeId c.call.cid = c.nodeId := MacCidToNodeId_idToMacCid _ _
      have hadd := (booked_allocatorOf s c.call).trans hbooked
      rw [← hserved.allocator, Nat.zero_add, Nat.zero_add] at hadd
      rw [Nat.zero_add] at hblocks hbytes
      -- the bytes wrap around to zero while there are blocks
      have hwraps : E.Wraps s c ↔ blocks ≠ 0 ∧ r.1.cwAllocatedBytes = 0 := by
        constructor
        · rintro ⟨b', bytes, hadm', hne, hzero, rfl⟩
          obtain rfl := Option.some.inj (hadm.conn.symm.trans hadm'.conn)
          exact ⟨mt hiff.2 hne, hbytes.trans hzero⟩
        · rintro ⟨hne, hzero⟩
          exact ⟨b, _, hadm, mt hiff.1 hne, hbytes.symm.trans hzero, rfl⟩
      have hlist := hserved.list
      split at hlist <;> rename_i hpos
      · -- the blocks are added to the entry
        have hdl : E.dirOf c.call.cid ≠ .DL := by
          unfold dirOf
          rw [hdir]
          dsimp only
          split_ifs <;> exact nofun
        rw [if_neg hdl, hblocks] at hlist
        refine (LteSchedulerEnb.loses_of_added (by decide) (hnode ▸ hadd) hlist).congr ?_
        exact iff_of_false id fun h => Nat.ne_of_gt hpos (hwraps.1 h).2
      · refine (LteSchedulerEnb.loses_of_booked hadd hlist).congr ?_
        rw [hwraps]
        exact (and_iff_left (Nat.eq_zero_of_not_pos hpos)).symm

/-! ### A TTI -/

variable (E) in
/-- A retransmission takes the place of the entry for a RAC request, or the counter of a call wraps
around to zero. -/
def Forgets (U : UlPending) (resourceBlocks : ℕ) (s₀ : LteSchedulerEnb) (calls : List UlCall) :
    Prop :=
  ∃ s₁, E.racschedule U (s₀.startTti resourceBlocks E.numBands) = .ok (s₁, false) ∧
    (AtSome (E.rtxUser U) (E.Overwrites U) s₁ (U.harqRxBuffers.map Prod.fst) ∨
      ∃ s₂, E.rtxUsers U s₁ = .ok (s₂, false) ∧ AtSome E.ulCall E.Wraps s₂ calls)

variable {resourceBlocks : ℕ} {s₀ : LteSchedulerEnb} {calls : List UlCall}

/-- What is lost in a TTI. -/
theorem scheduleUl_loses (hE : E.AmcFits) (hdir : E.direction = .UL)
    (h : E.scheduleUl U resourceBlocks s₀ calls = .ok s) :
    (s₀.startTti resourceBlocks E.numBands).Loses s (E.Forgets U resourceBlocks s₀ calls) := by
  obtain ⟨⟨s', full⟩, hrtx, h⟩ := bind_eq_ok.1 h
  obtain ⟨⟨s₁, full₁⟩, hrac, hrtx⟩ := bind_eq_ok.1 hrtx
  obtain ⟨hloses₁, hentries⟩ := racschedule_spec rfl hrac
  -- what can be lost after the RAC requests
  have hforgets : E.Forgets U resourceBlocks s₀ calls ↔ full₁ = false ∧
      (AtSome (E.rtxUser U) (E.Overwrites U) s₁ (U.harqRxBuffers.map Prod.fst) ∨
        ∃ s₂, E.rtxUsers U s₁ = .ok (s₂, false) ∧ AtSome E.ulCall E.Wraps s₂ calls) := by
    constructor
    · rintro ⟨s₁', hrac', hor⟩
      cases hrac.symm.trans hrac'
      exact ⟨rfl, hor⟩
    · rintro ⟨rfl, hor⟩
      exact ⟨s₁, hrac, hor⟩
  cases full₁ with
  | true =>
    cases hrtx
    cases h
    exact hloses₁.congr (iff_of_false id fun hf => Bool.noConfusion (hforgets.1 hf).1)
  -- there is space left for the retransmissions and the new data
  | false =>
    have hloses₂ := rtxUsers_spec hE hentries hrtx
    have hcalls : s'.Loses s (full = false ∧ AtSome E.ulCall E.Wraps s' calls) := by
      cases full with
      | true =>
        cases h
        exact (LteSchedulerEnb.Loses.refl _).congr (iff_of_false id fun hf => nomatch hf.1)
      | false =>
        refine LteSchedulerEnb.Loses.congr ?_ (and_iff_right rfl).symm
        exact (foldlM_rel (J := fun _ _ => True) LteSchedulerEnb.Loses.refl
          LteSchedulerEnb.Loses.trans (fun _ hst => ⟨ulCall_spec hE hdir hst, trivial⟩)
          trivial h).1
    refine ((hloses₁.trans hloses₂).trans hcalls).congr ?_
    rw [hforgets, false_or, and_iff_right rfl]
    refine or_congr_right ⟨?_, ?_⟩
    · rintro ⟨rfl, hwraps⟩
      exact ⟨s', hrtx, hwraps⟩
    · rintro ⟨s₂, hrtx', hwraps⟩
      cases hrtx.symm.trans hrtx'
      exact ⟨rfl, hwraps⟩

theorem announced_startTti (s₀ : LteSchedulerEnb) (resourceBlocks numBands : ℕ) (n : MacNodeId) :
    (s₀.startTti resourceBlocks numBands).announced n = 0 :=
  Finset.sum_eq_zero fun _ _ => Finset.sum_eq_zero fun _ _ => rfl

theorem books_startTti (s₀ : LteSchedulerEnb) (resourceBlocks numBands : ℕ) :
    (s₀.startTti resourceBlocks numBands).Books fun _ => 0 := by
  intro n
  rw [announced_startTti]
  rfl

/-- **The grants of a TTI announce what is allocated** if and only if no retransmission takes the
place of the entry for a RAC request, and no counter wraps around to zero. -/
theorem grants_announced_iff (E : SchedulerEnv) (T : TbsTables) (hdir : E.direction = .UL)
    (h : (E.withAmc T).scheduleUl U resourceBlocks s₀ calls = .ok s) :
    s.Announced ↔ ¬(E.withAmc T).Forgets U resourceBlocks s₀ calls := by
  obtain ⟨lost, hlost, hiff⟩ := scheduleUl_loses (E.withAmc_amcFits T) hdir h _
    (books_startTti s₀ resourceBlocks (E.withAmc T).numBands)
  rw [hlost.announced_iff, hiff]
  exact and_iff_right fun _ => rfl

/-- The UE `1025` has sent a RAC request. -/
def racPending : UlPending where
  racStatus := [(1025, true)]
  rac_sorted := by decide
  harq_sorted := by decide

/-- A RAC request and a connection of one UE: one block, and nine for the fifteen bytes with the
headers. -/
theorem grants_announced_racAndCall : ∃ s,
    (uplinkCell.withAmc sixteenBits).scheduleUl racPending 10 elevenBytes
        [{ nodeId := 1025, lcid := 5 }] = .ok s ∧
      s.held 1025 = 10 ∧ s.Announced := by
  have hrun : (uplinkCell.withAmc sixteenBits).scheduleUl racPending 10 elevenBytes
      [{ nodeId := 1025, lcid := 5 }] = .ok _ := rfl
  refine ⟨_, hrun, rfl, (grants_announced_iff uplinkCell sixteenBits rfl hrun).2 ?_⟩
  rintro ⟨s₁, hrac, hrtx | ⟨s₂, hrtx, hwraps⟩⟩
  · exact hrtx
  · have hrac' : (uplinkCell.withAmc sixteenBits).racschedule racPending
        (elevenBytes.startTti 10 2) = .ok (_, false) := rfl
    cases hrac'.symm.trans hrac
    cases hrtx
    rcases hwraps with ⟨b, bytes, hadm, -, hzero, rfl⟩ | ⟨s₃, -, hnil⟩
    · have hconn := hadm.conn
      cases hconn
      exact absurd hzero (by decide)
    · exact hnil

/-- An entry that is made and then set again. -/
theorem announced_overwritten (s : LteSchedulerEnb) (u : MacNodeId) (first second : ℕ)
    (hempty : s.announced u = 0) (hnone : s.scheduleList (idToMacCid u SHORT_BSR) 0 = none) :
    ((s.setEntry (idToMacCid u SHORT_BSR) 0 first).setEntry
      (idToMacCid u SHORT_BSR) 0 second).announced u = second := by
  have hfirst := LteSchedulerEnb.announced_setEntry s u SHORT_BSR first
    (show 0 < MAX_CODEWORDS by decide) u
  have hsecond := LteSchedulerEnb.announced_setEntry
    (s.setEntry (idToMacCid u SHORT_BSR) 0 first) u SHORT_BSR second
    (show 0 < MAX_CODEWORDS by decide) u
  have hentry : (s.setEntry (idToMacCid u SHORT_BSR) 0 first).scheduleList
      (idToMacCid u SHORT_BSR) 0 = some first := by
    dsimp only [LteSchedulerEnb.setEntry]
    rw [Function.update_self, Function.update_self]
  rw [if_pos rfl, if_pos rfl, hempty, hnone, Option.getD_none] at hfirst
  rw [if_pos rfl, if_pos rfl, hentry, Option.getD_some] at hsecond
  omega

/-- Its first codeword has to be sent again as well. -/
def racAndRtxPending : UlPending :=
  { racPending with
    harqRxBuffers := [(1025, [[], [], [⟨.CORRUPTED, 6⟩, ⟨.EMPTY, 0⟩]])]
    harqStatus := [(1025, 0)]
    harq_sorted := by decide }

/-- **The block for the RAC request is forgotten**: the allocator holds four blocks of the UE, its
grant is for three. -/
theorem rac_block_forgotten : ∃ s,
    (uplinkCell.withAmc sixteenBits).scheduleUl racAndRtxPending 10 elevenBytes [] = .ok s ∧
      s.held 1025 = 4 ∧ s.announced 1025 = 3 ∧ ¬s.Announced := by
  have hannounced := announced_overwritten (elevenBytes.startTti 10 2) 1025 1 3
    (announced_startTti _ _ _ _) rfl
  have hrun : ∃ s,
      (uplinkCell.withAmc sixteenBits).scheduleUl racAndRtxPending 10 elevenBytes [] = .ok s ∧
        s.held 1025 = 4 ∧ s.announced 1025 = 3 :=
    ⟨_, rfl, rfl, (LteSchedulerEnb.announced_congr rfl 1025).trans hannounced⟩
  obtain ⟨s, hrun, hheld, hannounced⟩ := hrun
  refine ⟨s, hrun, hheld, hannounced, fun ha => ?_⟩
  have hblocks := ha.blocks 1025
  rw [hannounced, hheld] at hblocks
  exact absurd hblocks (by decide)

end SchedulerEnv

end V2nLte
