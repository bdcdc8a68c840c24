import V2nLte.Lte.Unregister
import V2nLte.Mac.Allocator
import V2nLte.Mac.Harq
import V2nLte.Mac.UeUplink
import V2nLte.Machine.Ensures

/-!
# `scheduleGrant`

`LteSchedulerEnb::scheduleGrant` gives a connection what it needs of the free resource blocks of
this TTI.  It answers with the bytes it has booked and three flags: `terminate` (scheduling has to
stop), `active` (the queue is not empty yet) and `eligible`.

On every band it books the bytes that the band holds, at most the whole queue with its headers,
until the queue is covered.  What it books depends on the queue and on the capacities of the bands
before the call only: `book`.  The grant size it is called with is not looked at.

The AMC, whose answers do not change while a TTI is scheduled, is a parameter.  There is one
codeword (`numCodewords = 1`), so that a UE which has one never gets to the band loop; the branch
for a UE with blocks on its first codeword is left out.
-/

namespace V2nLte

/-- `D2D_SHORT_BSR`. -/
def D2D_SHORT_BSR : ℕ := 1

/-- `D2D_MULTI_SHORT_BSR`. -/
def D2D_MULTI_SHORT_BSR : ℕ := 2

/-- `cwMapping`: the layers of each codeword. -/
def cwMapping (txMode : TxMode) (ri antennaPorts : ℕ) : List ℕ :=
  if ri ≤ 1 then [1]
  else
    match txMode with
    | .TRANSMIT_DIVERSITY => [antennaPorts]
    | .OL_SPATIAL_MULTIPLEXING | .CL_SPATIAL_MULTIPLEXING =>
      match if antennaPorts < ri then antennaPorts else ri with
      | 2 => [1, 1]
      | 3 => [1, 2]
      | 4 => [2, 2]
      | 8 => [4, 4]
      | _ => []
    | _ => [1]

/-- `getLayers`. -/
def UserTxParams.getLayers {B : ℕ} (p : UserTxParams B) : List ℕ := cwMapping p.txMode p.ri p.ri

/-- Some codeword has no CQI. -/
def UserTxParams.cqiNull {B : ℕ} (p : UserTxParams B) : Bool :=
  (List.range p.getLayers.length).any fun i => p.cqiVector.getD i 0 == 0

/-- What a scheduler reads of the rest of the eNB. -/
structure SchedulerEnv where
  /-- The binder. -/
  binder : LteBinder
  /-- The direction of the scheduler. -/
  direction : Direction
  /-- The number of bands. -/
  numBands : ℕ
  /-- Whether MU-MIMO is on. -/
  muMimo : Bool
  /-- The transmission parameters of a UE, from the AMC. -/
  computeTxParams : MacNodeId → FlowDirection → UserTxParams numBands
  /-- The peer of a UE, itself if it has none. -/
  computeMuMimoPairing : MacNodeId → FlowDirection → MacNodeId
  /-- The bytes of a codeword that a number of blocks of a band hold. -/
  computeBytesOnNRbs : MacNodeId → Band → ℕ → ℕ → FlowDirection → ℕ
  /-- The blocks that a number of bytes need. -/
  computeReqRbs : MacNodeId → Band → ℕ → ℕ → FlowDirection → ℕ
  /-- `firstAvailable` of the downlink H-ARQ buffer of a UE. -/
  harqTxBuffers : MacNodeId → Option (ℕ × List ℕ)
  /-- The status of the current process of the uplink H-ARQ buffer of a UE, `some none` if the
  scheduler has no current process for it. -/
  harqRxBuffers : MacNodeId → Option (Option (List RxHarqPduStatus))

/-- `BandLimit`, with the limit for the first codeword: `-1` is no limit, `-2` skips the band. -/
structure BandLimit where
  /-- The band. -/
  band : Band
  /-- The bytes or blocks. -/
  limit : ℤ := -1
  deriving DecidableEq

/-- What `scheduleGrant` answers. -/
structure Grant where
  /-- The bytes that are granted. -/
  granted : ℕ := 0
  /-- No blocks are left for anybody. -/
  terminate : Bool := false
  /-- The connection may have more to send. -/
  active : Bool := true
  /-- The connection may get something in this round. -/
  eligible : Bool := true
  deriving DecidableEq

/-- `LteSchedulerEnb`, with the virtual buffers of its MAC. -/
structure LteSchedulerEnb where
  /-- The books about the blocks. -/
  allocator : LteAllocationModule
  /-- The codewords of a UE that are used in this TTI. -/
  allocatedCws : MacNodeId → ℕ := fun _ => 0
  /-- What is granted, by connection and codeword. -/
  scheduleList : MacCid → ℕ → Option ℕ := fun _ _ => none
  /-- The virtual buffers of the downlink. -/
  vbuf : MacCid → Option LteMacBuffer := fun _ => none
  /-- The reports of the uplink. -/
  bsrbuf : MacCid → Option LteMacBuffer := fun _ => none

/-- Take up to `n` bytes from the front of a virtual buffer. -/
def LteMacBuffer.consume : List ℕ → ℕ → List ℕ
  | [], _ => []
  | q, 0 => q
  | p :: q, n + 1 => if p ≤ n + 1 then consume q (n + 1 - p) else (p - (n + 1)) :: q

namespace SchedulerEnv

variable (E : SchedulerEnv)

/-- The direction of the connection: in uplink, a D2D connection is known by its LCID. -/
def dirOf (cid : MacCid) : FlowDirection :=
  match E.direction with
  | .DL => .DL
  | .UL =>
    if MacCidToLcid cid = D2D_SHORT_BSR then .D2D
    else if MacCidToLcid cid = D2D_MULTI_SHORT_BSR then .D2D_MULTI
    else .UL

/-- `LteSchedulerEnbDl::checkEligibility`, with the codeword. -/
def checkEligibilityDl (id : MacNodeId) : Except SchedulerError (Bool × ℕ) :=
  match E.harqTxBuffers id with
  | none => .ok (true, 0)
  | some (acid, units) =>
    if acid = HARQ_NONE then .ok (true, 0)
    else
      match units with
      | [] => .ok (false, 0)
      | cw :: _ => if MAX_CODEWORDS < cw then .error (.abnormalCodeword cw) else .ok (true, cw)

/-- `LteSchedulerEnbUl::checkEligibility`, with the codeword. -/
def checkEligibilityUl (id : MacNodeId) : Except SchedulerError (Bool × ℕ) :=
  match E.harqRxBuffers id with
  | none => .ok (false, 0)
  | some none => .error .outOfRange
  | some (some status) =>
    match status with
    | [] => .error .outOfRange
    | .EMPTY :: _ => .ok (true, 0)
    | [_] => .error .outOfRange
    | _ :: .EMPTY :: _ => .ok (true, 1)
    | _ :: _ :: _ => .ok (false, MAX_CODEWORDS)

/-- `checkEligibility`. -/
def checkEligibility (id : MacNodeId) : Except SchedulerError (Bool × ℕ) :=
  match E.direction with
  | .DL => E.checkEligibilityDl id
  | .UL => E.checkEligibilityUl id

/-- The virtual buffer of a connection. -/
def conn (s : LteSchedulerEnb) (cid : MacCid) : Option LteMacBuffer :=
  match E.direction with
  | .DL => s.vbuf cid
  | .UL => s.bsrbuf cid

/-- Replace the virtual buffer of a connection. -/
def setConn (s : LteSchedulerEnb) (cid : MacCid) (b : LteMacBuffer) : LteSchedulerEnb :=
  match E.direction with
  | .DL => { s with vbuf := Function.update s.vbuf cid (some b) }
  | .UL => { s with bsrbuf := Function.update s.bsrbuf cid (some b) }

/-! ### The band loop -/

/-- The variables of the band loop. -/
structure BandLoop where
  /-- The books so far. -/
  allocator : LteAllocationModule
  /-- The bytes that are left to serve. -/
  toServe : ℕ
  /-- The bytes of the codeword so far. -/
  cwAllocatedBytes : ℕ := 0
  /-- The blocks of the codeword so far. -/
  cwAllocatedBlocks : ℕ := 0

/-- `availableBytes`. -/
def availableBytes (a : LteAllocationModule) (id : MacNodeId) (antenna : ℕ) (b : Band) (cw : ℕ)
    (dir : FlowDirection) (limit : ℤ) : Except SchedulerError ℕ :=
  let blocks := a.availableBlocks id antenna b
  if blocks < limit ∧ limit ≠ -1 then .error (.limitInconsistency b limit blocks)
  else
    let blocks := if limit ≠ -1 ∧ limit < blocks then limit.toNat else blocks
    .ok (E.computeBytesOnNRbs id b cw blocks dir)

/-- The limit of a band after `uBlocks` blocks of it have been booked. -/
def lowerLimit (l : BandLimit) (uBlocks : ℕ) : Except SchedulerError BandLimit :=
  if 0 < uBlocks ∧ 0 < l.limit then
    if l.limit - uBlocks < 0 then .error (.limitDecreasing l.band (l.limit - uBlocks) uBlocks)
    else .ok { l with limit := l.limit - uBlocks }
  else .ok l

/-- The loop over the bands for the codeword `0`, with the limits it leaves and whether it stopped
because the whole queue is served. -/
def grantBands (nodeId : MacNodeId) (dir : FlowDirection) (antenna : ℕ) (limitBl : Bool)
    (queueLength : ℕ) :
    List BandLimit → BandLoop → Except SchedulerError (BandLoop × List BandLimit × Bool)
  | [], st => .ok (st, [], false)
  | l :: ls, st =>
    if l.limit = -2 then do
      let (st', ls', stop) ← grantBands nodeId dir antenna limitBl queueLength ls st
      return (st', l :: ls', stop)
    else do
      let available ←
        E.availableBytes st.allocator nodeId antenna l.band 0 dir (if limitBl then l.limit else -1)
      if available = 0 then
        let (st', ls', stop) ← grantBands nodeId dir antenna limitBl queueLength ls st
        return (st', { l with limit := -2 } :: ls', stop)
      else
        let available :=
          if ¬limitBl ∧ 0 ≤ l.limit ∧ l.limit < available then l.limit.toNat else available
        let uBytes := if queueLength < available then queueLength else available
        let uBlocks := E.computeReqRbs nodeId l.band 0 uBytes dir
        -- the answer of `addBlocks` is not looked at
        let (allocator, _) ← st.allocator.addBlocks antenna l.band nodeId uBlocks uBytes
        let l' ← lowerLimit l uBlocks
        let st' : BandLoop :=
          { allocator := allocator
            toServe := if st.toServe < uBytes then 0 else st.toServe - uBytes
            cwAllocatedBytes := u32 (st.cwAllocatedBytes + uBytes)
            cwAllocatedBlocks := st.cwAllocatedBlocks + uBlocks }
        if st'.toServe = 0 then return (st', l' :: ls, true)
        else
          let (st'', ls', stop) ← grantBands nodeId dir antenna limitBl queueLength ls st'
          return (st'', l' :: ls', stop)

/-- `emptyBandLim_`: bands without a limit. -/
def unlimited (bs : List Band) : List BandLimit := bs.map fun b => { band := b }

/-! ### The grant -/

/-- The allocator once the UE is paired, if it can be, and its antenna is there. -/
def prepareAllocator (a : LteAllocationModule) (nodeId : MacNodeId) (dir : FlowDirection)
    (antenna : ℕ) : LteAllocationModule :=
  let paired :=
    if E.muMimo ∧ (E.computeTxParams nodeId dir).txMode = .MULTI_USER ∧
        E.computeMuMimoPairing nodeId dir ≠ nodeId then
      (a.configureMuMimoPeering nodeId (E.computeMuMimoPairing nodeId dir)).1
    else a
  paired.setRemoteAntenna (paired.getOFDMPlane nodeId) antenna

/-- A user for whom an exhausted OFDM space is the end: not one that can use a second codeword,
and not one in the mirror plane. -/
def needsSpace (a : LteAllocationModule) (nodeId : MacNodeId) (txMode : TxMode)
    (cwAlredyAllocated : ℕ) : Bool :=
  decide (((txMode ≠ .OL_SPATIAL_MULTIPLEXING ∧ txMode ≠ .CL_SPATIAL_MULTIPLEXING) ∨
      cwAlredyAllocated = 0) ∧
    (txMode ≠ .MULTI_USER ∨ a.getOFDMPlane nodeId ≠ .MU_MIMO_PLANE))

/-- Book blocks for the codeword `0` of a connection and take the bytes from its buffer. -/
def grantCodeword (s : LteSchedulerEnb) (cid : MacCid) (antenna : ℕ) (limitBl : Bool)
    (limits : List BandLimit) (b : LteMacBuffer) :
    Except SchedulerError (LteSchedulerEnb × Grant × List BandLimit) := do
  let nodeId := MacCidToNodeId cid
  let dir := E.dirOf cid
  let queueLength := u32 (b.queueOccupancy + (MAC_HEADER + RLC_HEADER_UM))
  let (st, limits', stop) ← E.grantBands nodeId dir antenna limitBl queueLength limits
    { allocator := s.allocator, toServe := queueLength }
  let bytes := st.cwAllocatedBytes
  -- an unsigned difference: with no bytes allocated everything is consumed
  let consumedBytes := sub32 bytes (MAC_HEADER + RLC_HEADER_UM)
  let s' := E.setConn s cid ⟨LteMacBuffer.consume b.queue consumedBytes⟩
  if 0 < bytes then
    let cws := s.allocatedCws nodeId + 1
    let served := if dir = .DL then 1 else st.cwAllocatedBlocks
    return ({ s' with
        allocator := st.allocator
        allocatedCws := Function.update s.allocatedCws nodeId cws
        scheduleList := Function.update s.scheduleList cid
          (Function.update (s.scheduleList cid) 0
            (some ((s.scheduleList cid 0).getD 0 + served))) },
      { granted := bytes, active := !stop, eligible := decide (cws ≠ MAX_CODEWORDS) }, limits')
  else
    return ({ s' with allocator := st.allocator }, { active := !stop, eligible := false }, limits')

/-- `scheduleGrant`. -/
def scheduleGrant (s : LteSchedulerEnb) (cid : MacCid) (_bytes : ℕ)
    (bandLim : Option (List BandLimit)) (antenna : ℕ) (limitBl : Bool) :
    Except SchedulerError (LteSchedulerEnb × Grant × List BandLimit) := do
  let nodeId := MacCidToNodeId cid
  let limits := bandLim.getD (unlimited (List.range E.numBands))
  -- the UE has left: the source also ends the round here
  if E.binder.getOmnetId nodeId = 0 then
    return (s, { terminate := true, active := false, eligible := false }, limits)
  else
    let txMode := (E.computeTxParams nodeId (E.dirOf cid)).txMode
    let s := { s with allocator := E.prepareAllocator s.allocator nodeId (E.dirOf cid) antenna }
    let cwAlredyAllocated := s.allocatedCws nodeId
    let totalRbs ← s.allocator.computeTotalRbs
    -- no space for the UE, or its codeword is taken: the round ends
    if totalRbs = 0 ∧ needsSpace s.allocator nodeId txMode cwAlredyAllocated then
      return (s, { terminate := true }, limits)
    else if 0 < cwAlredyAllocated then
      return (s, { terminate := true }, limits)
    else
      -- no H-ARQ process: the connection waits
      let (free, cw) ← E.checkEligibility nodeId
      if free = false ∨ 1 ≤ cw then
        return (s, { eligible := false }, limits)
      else
        match E.conn s cid with
        | none => .error .outOfRange
        | some b =>
          if b.queueOccupancy = 0 then return (s, { active := false }, limits)
          else E.grantCodeword s cid antenna limitBl limits b

/-- `requestGrant`, without limits. -/
def requestGrant (s : LteSchedulerEnb) (cid : MacCid) (bytes : ℕ) :
    Except SchedulerError (LteSchedulerEnb × Grant) := do
  let (s', g, _) ← E.scheduleGrant s cid bytes none MACRO false
  return (s', g)

/-! ### What is booked -/

/-- What is booked of a queue of `q` bytes, `t` of which are still to be served, on bands that hold
`caps` bytes: the bytes, and whether all are served. -/
def book (q : ℕ) : ℕ → List ℕ → ℕ × Bool
  | _, [] => (0, false)
  | t, c :: cs =>
    if c = 0 then book q t cs
    else if t ≤ min c q then (min c q, true)
    else (min c q + (book q (t - min c q) cs).1, (book q (t - min c q) cs).2)

/-- The bytes that a band holds for a UE. -/
def capacity (a : LteAllocationModule) (nodeId : MacNodeId) (dir : FlowDirection) (antenna : ℕ)
    (b : Band) : ℕ :=
  E.computeBytesOnNRbs nodeId b 0 (a.availableBlocks nodeId antenna b) dir

/-- The allocator after that: on each band that is booked, the blocks for its bytes are taken. -/
def bookBlocks (nodeId : MacNodeId) (dir : FlowDirection) (antenna q : ℕ) :
    LteAllocationModule → ℕ → List Band → LteAllocationModule
  | a, _, [] => a
  | a, t, b :: bs =>
    if E.capacity a nodeId dir antenna b = 0 then bookBlocks nodeId dir antenna q a t bs
    else
      let u := min (E.capacity a nodeId dir antenna b) q
      let a' := a.takeBlocks antenna b nodeId (E.computeReqRbs nodeId b 0 u dir) u
      if t ≤ u then a' else bookBlocks nodeId dir antenna q a' (t - u) bs

variable {E} {nodeId : MacNodeId} {dir : FlowDirection} {antenna q : ℕ} {limitBl : Bool}
  {bs : List Band} {st : BandLoop} {r : BandLoop × List BandLimit × Bool}

/-- The limit of a band and the queue only take away from what is available. -/
theorem capped_le (limitBl : Bool) (limit : ℤ) (c q : ℕ) :
    min (if ¬limitBl = true ∧ 0 ≤ limit ∧ limit < c then limit.toNat else c) q ≤ c := by
  refine (Nat.min_le_left _ _).trans ?_
  split
  · omega
  · exact Nat.le_refl c

/-- **One iteration**: the band is passed over, or it is booked for what its limit and the queue
leave of its bytes. -/
theorem grantBands_cases {l : BandLimit} {ls : List BandLimit}
    (h : E.grantBands nodeId dir antenna limitBl q (l :: ls) st = .ok r) :
    ((l.limit = -2 ∨ l.limit ≠ -2 ∧ E.availableBytes st.allocator nodeId antenna l.band 0 dir
        (if limitBl then l.limit else -1) = .ok 0) ∧ ∃ r',
      E.grantBands nodeId dir antenna limitBl q ls st = .ok r' ∧ r.1 = r'.1 ∧ r.2.2 = r'.2.2) ∨
    ∃ c a, l.limit ≠ -2 ∧ E.availableBytes st.allocator nodeId antenna l.band 0 dir
        (if limitBl then l.limit else -1) = .ok c ∧ c ≠ 0 ∧
      let u := min (if ¬limitBl ∧ 0 ≤ l.limit ∧ l.limit < c then l.limit.toNat else c) q
      let blocks := E.computeReqRbs nodeId l.band 0 u dir
      let st' : BandLoop := ⟨a.1, st.toServe - u, u32 (st.cwAllocatedBytes + u),
        st.cwAllocatedBlocks + blocks⟩
      st.allocator.addBlocks antenna l.band nodeId blocks u = .ok a ∧
        ((st.toServe ≤ u ∧ r.1 = st' ∧ r.2.2 = true) ∨
          (u < st.toServe ∧ ∃ r', E.grantBands nodeId dir antenna limitBl q ls st' = .ok r' ∧
            r.1 = r'.1 ∧ r.2.2 = r'.2.2)) := by
  -- how the source writes a minimum and a subtraction that stops at zero
  have hmin : ∀ c, (if q < c then q else c) = min c q := fun c => by
    rw [Nat.min_def]
    split <;> split <;> omega
  have hserve : ∀ t u, (if t < u then 0 else t - u) = t - u := fun t u => by
    split <;> omega
  unfold grantBands at h
  -- the band is not to be used, or nothing fits into it
  by_cases hskip : l.limit = -2
  · rw [if_pos hskip] at h
    obtain ⟨r', hr', h⟩ := bind_eq_ok.1 h
    cases h
    exact .inl ⟨.inl hskip, r', hr', rfl, rfl⟩
  rw [if_neg hskip] at h
  obtain ⟨c, hc, h⟩ := bind_eq_ok.1 h
  by_cases h₀ : c = 0
  · rw [if_pos h₀] at h
    obtain ⟨r', hr', h⟩ := bind_eq_ok.1 h
    cases h
    exact .inl ⟨.inr ⟨hskip, h₀ ▸ hc⟩, r', hr', rfl, rfl⟩
  · rw [if_neg h₀] at h
    simp only [hmin, hserve] at h
    obtain ⟨a, ha, h⟩ := bind_eq_ok.1 h
    obtain ⟨l', -, h⟩ := bind_eq_ok.1 h
    refine .inr ⟨c, a, hskip, hc, h₀, ha, ?_⟩
    generalize (if ¬limitBl = true ∧ 0 ≤ l.limit ∧ l.limit < c then l.limit.toNat else c) =
      available at h
    split at h <;> rename_i hleft
    · cases h
      exact .inl ⟨Nat.sub_eq_zero_iff_le.1 hleft, rfl, rfl⟩
    · obtain ⟨r', hr', h⟩ := bind_eq_ok.1 h
      cases h
      exact .inr ⟨Nat.lt_of_sub_ne_zero hleft, r', hr', rfl, rfl⟩

/-- One iteration for a band without a limit. -/
theorem grantBands_cons {b : Band} {ls : List BandLimit}
    (h : E.grantBands nodeId dir antenna limitBl q ({ band := b } :: ls) st = .ok r) :
    (E.capacity st.allocator nodeId dir antenna b = 0 ∧ ∃ r',
      E.grantBands nodeId dir antenna limitBl q ls st = .ok r' ∧ r.1 = r'.1 ∧ r.2.2 = r'.2.2) ∨
    (E.capacity st.allocator nodeId dir antenna b ≠ 0 ∧ ∃ a,
      let u := min (E.capacity st.allocator nodeId dir antenna b) q
      let blocks := E.computeReqRbs nodeId b 0 u dir
      let st' : BandLoop := ⟨a.1, st.toServe - u, u32 (st.cwAllocatedBytes + u),
        st.cwAllocatedBlocks + blocks⟩
      st.allocator.addBlocks antenna b nodeId blocks u = .ok a ∧
        ((st.toServe ≤ u ∧ r.1 = st' ∧ r.2.2 = true) ∨
          (u < st.toServe ∧ ∃ r', E.grantBands nodeId dir antenna limitBl q ls st' = .ok r' ∧
            r.1 = r'.1 ∧ r.2.2 = r'.2.2))) := by
  have hcapacity : E.availableBytes st.allocator nodeId antenna b 0 dir
      (if limitBl then -1 else -1) = .ok (E.capacity st.allocator nodeId dir antenna b) := by
    simp [availableBytes, capacity]
  rcases grantBands_cases h with ⟨hskip, hrest⟩ | ⟨c, a, -, hc, h₀, ha, hrest⟩
  · rcases hskip with hlimit | ⟨-, hzero⟩
    · cases hlimit
    · exact .inl ⟨Except.ok.inj (hcapacity.symm.trans hzero), hrest⟩
  · obtain rfl := Except.ok.inj (hcapacity.symm.trans hc)
    have hcap : (if ¬limitBl ∧ (0 : ℤ) ≤ -1 ∧
        (-1 : ℤ) < (E.capacity st.allocator nodeId dir antenna b : ℕ) then (-1 : ℤ).toNat
      else E.capacity st.allocator nodeId dir antenna b) =
        E.capacity st.allocator nodeId dir antenna b := if_neg fun h => by omega
    dsimp only at ha hrest
    rw [hcap] at ha hrest
    exact .inr ⟨h₀, a, ha, hrest⟩

/-- **The band loop books what the capacities before it allow.** -/
theorem grantBands_book (hbs : bs.Nodup)
    (hst : u32 st.cwAllocatedBytes = st.cwAllocatedBytes)
    (h : E.grantBands nodeId dir antenna limitBl q (unlimited bs) st = .ok r) :
    r.1.cwAllocatedBytes = u32 (st.cwAllocatedBytes + (book q st.toServe
        (bs.map (E.capacity st.allocator nodeId dir antenna))).1) ∧
      r.2.2 = (book q st.toServe (bs.map (E.capacity st.allocator nodeId dir antenna))).2 := by
  induction bs generalizing st r with
  | nil =>
    cases h
    exact ⟨hst.symm, rfl⟩
  | cons b bs ih =>
    obtain ⟨hb, hbs⟩ := List.nodup_cons.1 hbs
    rw [List.map_cons, book]
    obtain ⟨h₀, r', hr', h₁, h₂⟩ | ⟨h₀, a, ha, h⟩ := grantBands_cons h
    · rw [if_pos h₀, h₁, h₂]
      exact ih hbs hst hr'
    · rw [if_neg h₀]
      -- the capacities of the other bands are as before
      have hcaps : bs.map (E.capacity a.1 nodeId dir antenna) =
          bs.map (E.capacity st.allocator nodeId dir antenna) := by
        refine List.map_congr_left fun c hc => ?_
        have hne : c ≠ b := fun hcb => hb (hcb ▸ hc)
        rw [capacity, capacity, (LteAllocationModule.addBlocks_frame ha).2 c hne]
      obtain ⟨hle, h₁, h₂⟩ | ⟨hlt, r', hr', h₁, h₂⟩ := h
      · rw [if_pos hle, h₁, h₂]
        exact ⟨rfl, rfl⟩
      · have hih := ih hbs (by simp [u32]) hr'
        rw [if_neg (Nat.not_le.2 hlt), h₁, h₂]
        simp only [hcaps] at hih
        refine ⟨hih.1.trans ?_, hih.2⟩
        simp only [u32]
        omega

/-- **The blocks that the band loop takes.** -/
theorem grantBands_blocks
    (h : E.grantBands nodeId dir antenna limitBl q (unlimited bs) st = .ok r) :
    r.1.allocator = E.bookBlocks nodeId dir antenna q st.allocator st.toServe bs := by
  induction bs generalizing st r with
  | nil =>
    cases h
    rfl
  | cons b bs ih =>
    rw [bookBlocks]
    obtain ⟨h₀, r', hr', h₁, -⟩ | ⟨h₀, a, ha, h⟩ := grantBands_cons h
    · rw [if_pos h₀, h₁]
      exact ih hr'
    · have htake := LteAllocationModule.takeBlocks_of_addBlocks ha
      rw [if_neg h₀]
      dsimp only
      rw [htake]
      obtain ⟨hle, h₁, -⟩ | ⟨hlt, r', hr', h₁, -⟩ := h
      · rw [if_pos hle, h₁]
      · rw [if_neg (Nat.not_le.2 hlt), h₁]
        exact ih hr'

/-- The accounts are kept and no block of the main plane becomes free. -/
theorem bookBlocks_kept {a : LteAllocationModule} (hwf : a.Wf)
    (hant : antenna < a.antennas (a.getOFDMPlane nodeId)) (t : ℕ) (bs : List Band) :
    (E.bookBlocks nodeId dir antenna q a t bs).Wf ∧
      (E.bookBlocks nodeId dir antenna q a t bs).freeRbs ≤ a.freeRbs := by
  induction bs generalizing a t with
  | nil => exact ⟨hwf, Nat.le_refl _⟩
  | cons b bs ih =>
    rw [bookBlocks]
    split
    · exact ih hwf hant t
    · dsimp only
      generalize hu : min (E.capacity a nodeId dir antenna b) q = u
      rcases a.takeBlocks_cases antenna b nodeId (E.computeReqRbs nodeId b 0 u dir) u with
        htake | ⟨r, hr, htake⟩
      · rw [htake]
        split
        · exact ⟨hwf, Nat.le_refl _⟩
        · exact ih hwf hant _
      · obtain ⟨hwf', hants, -, hplane⟩ := hwf.addBlocks hant hr
        have hfree := (LteAllocationModule.addBlocks_frame hr).1
        rw [htake]
        split
        · exact ⟨hwf', hfree⟩
        · have hih := ih hwf' (by rw [hplane, hants]; exact hant) (t - u)
          exact ⟨hih.1, hih.2.trans hfree⟩

/-! ### What a grant does -/

variable (E)

/-- The state in which the checks of `scheduleGrant` are made. -/
def prepared (s : LteSchedulerEnb) (cid : MacCid) : LteSchedulerEnb :=
  { s with allocator := E.prepareAllocator s.allocator (MacCidToNodeId cid) (E.dirOf cid) MACRO }

/-- The bytes to be allocated for a buffer. -/
def needed (b : LteMacBuffer) : ℕ := u32 (b.queueOccupancy + (MAC_HEADER + RLC_HEADER_UM))

/-- What the bands can hold of the queue of a connection: the bytes, and whether it is all. -/
def booking (s : LteSchedulerEnb) (cid : MacCid) (b : LteMacBuffer) : ℕ × Bool :=
  book (needed b) (needed b) ((List.range E.numBands).map
    (E.capacity (E.prepared s cid).allocator (MacCidToNodeId cid) (E.dirOf cid) MACRO))

/-- The allocator when they have been booked. -/
def blocksTaken (s : LteSchedulerEnb) (cid : MacCid) (b : LteMacBuffer) : LteAllocationModule :=
  E.bookBlocks (MacCidToNodeId cid) (E.dirOf cid) MACRO (needed b) (E.prepared s cid).allocator
    (needed b) (List.range E.numBands)

/-- The OFDM space is exhausted for the UE of a connection. -/
def SpaceEnded (s : LteSchedulerEnb) (cid : MacCid) : Prop :=
  (E.prepared s cid).allocator.computeTotalRbs = .ok 0 ∧
    needsSpace (E.prepared s cid).allocator (MacCidToNodeId cid)
      (E.computeTxParams (MacCidToNodeId cid) (E.dirOf cid)).txMode
      (s.allocatedCws (MacCidToNodeId cid)) = true

/-- The UE of a connection has a free H-ARQ codeword. -/
def HarqFree (cid : MacCid) : Prop :=
  E.checkEligibility (MacCidToNodeId cid) = .ok (true, 0)

/-- The ways in which a grant ends. -/
inductive Outcome (s : LteSchedulerEnb) (cid : MacCid) : LteSchedulerEnb → Grant → Prop
  /-- The UE has left. -/
  | stale : E.binder.getOmnetId (MacCidToNodeId cid) = 0 →
    Outcome s cid s { terminate := true, active := false, eligible := false }
  /-- No block is free. -/
  | ended : E.binder.getOmnetId (MacCidToNodeId cid) ≠ 0 → E.SpaceEnded s cid →
    Outcome s cid (E.prepared s cid) { terminate := true }
  /-- The UE has a codeword in this TTI. -/
  | busy : E.binder.getOmnetId (MacCidToNodeId cid) ≠ 0 → ¬E.SpaceEnded s cid →
    0 < s.allocatedCws (MacCidToNodeId cid) →
    Outcome s cid (E.prepared s cid) { terminate := true }
  /-- No H-ARQ process. -/
  | notEligible : E.binder.getOmnetId (MacCidToNodeId cid) ≠ 0 → ¬E.SpaceEnded s cid →
    s.allocatedCws (MacCidToNodeId cid) = 0 → ¬E.HarqFree cid →
    Outcome s cid (E.prepared s cid) { eligible := false }
  /-- The queue is empty. -/
  | empty {b : LteMacBuffer} : E.binder.getOmnetId (MacCidToNodeId cid) ≠ 0 →
    ¬E.SpaceEnded s cid → s.allocatedCws (MacCidToNodeId cid) = 0 → E.HarqFree cid →
    E.conn s cid = some b → b.queueOccupancy = 0 →
    Outcome s cid (E.prepared s cid) { active := false }
  /-- Bytes have been booked, possibly none. -/
  | booked {s' : LteSchedulerEnb} {b b' : LteMacBuffer} :
    E.binder.getOmnetId (MacCidToNodeId cid) ≠ 0 →
    ¬E.SpaceEnded s cid → s.allocatedCws (MacCidToNodeId cid) = 0 → E.HarqFree cid →
    E.conn s cid = some b → b.queueOccupancy ≠ 0 →
    (∀ c, E.conn s' c = if c = cid then some b' else E.conn s c) →
    s'.allocatedCws = (if 0 < u32 (E.booking s cid b).1 then
      Function.update s.allocatedCws (MacCidToNodeId cid) 1 else s.allocatedCws) →
    s'.allocator = E.blocksTaken s cid b →
    Outcome s cid s'
      { granted := u32 (E.booking s cid b).1
        active := !(E.booking s cid b).2
        eligible := decide (0 < u32 (E.booking s cid b).1) }

variable {E} {s s' : LteSchedulerEnb} {cid : MacCid} {bytes : ℕ} {g : Grant}

theorem wf_prepareAllocator {a : LteAllocationModule} (hwf : a.Wf) (nodeId : MacNodeId)
    (dir : FlowDirection) :
    (E.prepareAllocator a nodeId dir MACRO).Wf ∧
      LteAllocationModule.SameMain a (E.prepareAllocator a nodeId dir MACRO) := by
  unfold prepareAllocator
  split
  · have hpair := hwf.configureMuMimoPeering nodeId (E.computeMuMimoPairing nodeId dir)
    rw [hpair.1.setRemoteAntenna_main]
    exact hpair
  · rw [hwf.setRemoteAntenna_main]
    exact ⟨hwf, .rfl⟩

theorem blocksTaken_kept (hwf : s.allocator.Wf) (b : LteMacBuffer) :
    (E.blocksTaken s cid b).Wf ∧ (E.blocksTaken s cid b).freeRbs ≤ s.allocator.freeRbs := by
  have hprep := wf_prepareAllocator (E := E) hwf (MacCidToNodeId cid) (E.dirOf cid)
  have hkept : (E.blocksTaken s cid b).Wf ∧ (E.blocksTaken s cid b).freeRbs ≤
      (E.prepareAllocator s.allocator (MacCidToNodeId cid) (E.dirOf cid) MACRO).freeRbs :=
    bookBlocks_kept hprep.1 (hprep.1.antennas_pos (MacCidToNodeId cid)) (needed b)
      (List.range E.numBands)
  exact ⟨hkept.1, hprep.2.freeRbs_eq ▸ hkept.2⟩

@[simp] theorem conn_prepared (s : LteSchedulerEnb) (cid c : MacCid) :
    E.conn (E.prepared s cid) c = E.conn s c := rfl

theorem conn_setConn (s : LteSchedulerEnb) (cid c : MacCid) (b : LteMacBuffer) :
    E.conn (E.setConn s cid b) c = if c = cid then some b else E.conn s c := by
  unfold conn setConn
  cases E.direction <;> exact Function.update_apply _ _ _ _

theorem setConn_allocatedCws (s : LteSchedulerEnb) (cid : MacCid) (b : LteMacBuffer) :
    (E.setConn s cid b).allocatedCws = s.allocatedCws := by
  unfold setConn
  cases E.direction <;> rfl

/-- The end of a grant that gets to the band loop. -/
theorem grantCodeword_outcome {b : LteMacBuffer} {ls : List BandLimit}
    (hreg : E.binder.getOmnetId (MacCidToNodeId cid) ≠ 0)
    (hspace : ¬E.SpaceEnded s cid) (hcws : s.allocatedCws (MacCidToNodeId cid) = 0)
    (hharq : E.HarqFree cid) (hconn : E.conn s cid = some b) (hocc : b.queueOccupancy ≠ 0)
    (h : E.grantCodeword (E.prepared s cid) cid MACRO false (unlimited (List.range E.numBands)) b =
      .ok (s', g, ls)) : E.Outcome s cid s' g := by
  obtain ⟨⟨st, ls', stop⟩, hloop, h⟩ := bind_eq_ok.1 h
  obtain ⟨hbytes, hstop⟩ := grantBands_book List.nodup_range (by simp [u32]) hloop
  have hblocks : st.allocator = E.blocksTaken s cid b := grantBands_blocks hloop
  have hbooked : st.cwAllocatedBytes = u32 (E.booking s cid b).1 :=
    hbytes.trans (congrArg u32 (Nat.zero_add _))
  have hcovered : stop = (E.booking s cid b).2 := hstop
  let b' : LteMacBuffer := ⟨LteMacBuffer.consume b.queue
    (sub32 (u32 (E.booking s cid b).1) (MAC_HEADER + RLC_HEADER_UM))⟩
  -- the state after the codeword, with what is booked in place of the loop
  have hout : ∀ s₁ : LteSchedulerEnb,
      (∀ c, E.conn s₁ c = E.conn (E.setConn (E.prepared s cid) cid b') c) →
      s₁.allocatedCws = (if 0 < u32 (E.booking s cid b).1 then
        Function.update s.allocatedCws (MacCidToNodeId cid) 1 else s.allocatedCws) →
      s₁.allocator = st.allocator → E.Outcome s cid s₁
        { granted := u32 (E.booking s cid b).1
          active := !(E.booking s cid b).2
          eligible := decide (0 < u32 (E.booking s cid b).1) } := by
    intro s₁ hc hcws₁ ha
    have hconn₁ : ∀ c, E.conn s₁ c = if c = cid then some b' else E.conn s c := by
      intro c
      rw [hc, conn_setConn, conn_prepared]
    exact .booked hreg hspace hcws hharq hconn hocc hconn₁ hcws₁ (ha.trans hblocks)
  simp only [hbooked, hcovered] at h
  -- bytes have been booked: the UE has its codeword
  split at h <;> rename_i hpos
  · cases h
    have hone : (E.prepared s cid).allocatedCws (MacCidToNodeId cid) + 1 = 1 :=
      congrArg (· + 1) hcws
    rw [hone, show decide (1 ≠ MAX_CODEWORDS) = decide (0 < u32 (E.booking s cid b).1) by
      rw [decide_eq_true hpos]; rfl]
    refine hout _ (fun c => ?_) ?_ rfl
    · unfold conn
      cases E.direction <;> rfl
    · rw [if_pos hpos]
      rfl
  · -- nothing has been booked
    cases h
    have hzero : u32 (E.booking s cid b).1 = 0 := Nat.eq_zero_of_not_pos hpos
    have h := hout { E.setConn (E.prepared s cid) cid b' with allocator := st.allocator }
      (fun c => by unfold conn; cases E.direction <;> rfl)
      ((setConn_allocatedCws _ _ _).trans (if_neg hpos).symm) rfl
    rw [decide_eq_false hpos, hzero] at h
    exact h

/-- **Every grant ends in one of these ways.** -/
theorem requestGrant_outcome (h : E.requestGrant s cid bytes = .ok (s', g)) :
    E.Outcome s cid s' g := by
  obtain ⟨⟨s₁, g₁, ls⟩, h, hret⟩ := bind_eq_ok.1 h
  cases hret
  simp only [scheduleGrant] at h
  split at h <;> rename_i hreg
  · cases h
    exact .stale hreg
  · obtain ⟨total, htotal, h⟩ := bind_eq_ok.1 h
    split at h <;> rename_i hspace
    · cases h
      exact .ended hreg ⟨hspace.1 ▸ htotal, hspace.2⟩
    · have hspace : ¬E.SpaceEnded s cid := by
        rintro ⟨h₀, h₁⟩
        refine hspace ⟨?_, h₁⟩
        exact Except.ok.inj (htotal.symm.trans h₀)
      split at h <;> rename_i hcws
      · cases h
        exact .busy hreg hspace hcws
      · have hcws : s.allocatedCws (MacCidToNodeId cid) = 0 := Nat.eq_zero_of_not_pos hcws
        obtain ⟨⟨free, cw⟩, hel, h⟩ := bind_eq_ok.1 h
        simp only at h
        split at h <;> rename_i hfree
        · cases h
          refine .notEligible hreg hspace hcws fun hharq => ?_
          rw [HarqFree, hel] at hharq
          cases hharq
          exact absurd hfree (by simp)
        · have hharq : E.HarqFree cid := by
            obtain ⟨hf, hc⟩ := not_or.1 hfree
            obtain rfl : free = true := by simpa using hf
            obtain rfl : cw = 0 := by omega
            exact hel
          split at h
          · cases h
          · rename_i b hconn
            split at h <;> rename_i hocc
            · cases h
              exact .empty hreg hspace hcws hharq hconn hocc
            · exact grantCodeword_outcome hreg hspace hcws hharq hconn hocc h

/-- What the schedulers see of the state: the free blocks, the codewords and the buffers. -/
structure SameView (E : SchedulerEnv) (s s' : LteSchedulerEnb) : Prop where
  freeRbs : s'.allocator.freeRbs = s.allocator.freeRbs
  cws : s'.allocatedCws = s.allocatedCws
  conn : ∀ c, E.conn s' c = E.conn s c

theorem SameView.rfl : SameView E s s := ⟨Eq.refl _, Eq.refl _, fun _ => Eq.refl _⟩

theorem SameView.trans {s'' : LteSchedulerEnb} (h : SameView E s s') (h' : SameView E s' s'') :
    SameView E s s'' :=
  ⟨h'.freeRbs.trans h.freeRbs, h'.cws.trans h.cws, fun c => (h'.conn c).trans (h.conn c)⟩

/-- Some bytes of the queue of a connection can be booked, but not all. -/
def PartlyServed (E : SchedulerEnv) (s : LteSchedulerEnb) (cid : MacCid) : Prop :=
  E.HarqFree cid ∧ ∃ b, E.conn s cid = some b ∧ b.queueOccupancy ≠ 0 ∧
    0 < u32 (E.booking s cid b).1 ∧ (E.booking s cid b).2 = false

namespace Outcome

variable (ho : E.Outcome s cid s' g)

include ho

theorem wf (hwf : s.allocator.Wf) :
    s'.allocator.Wf ∧ s'.allocator.freeRbs ≤ s.allocator.freeRbs := by
  have hprep := wf_prepareAllocator (E := E) hwf (MacCidToNodeId cid) (E.dirOf cid)
  cases ho with
  | stale => exact ⟨hwf, Nat.le_refl _⟩
  | ended | busy | notEligible | empty => exact ⟨hprep.1, hprep.2.freeRbs_eq.le⟩
  | booked _ _ _ _ _ _ _ _ ha =>
    rw [ha]
    exact blocksTaken_kept hwf _

/-- No connection gets or loses its buffer. -/
theorem isSome_conn (c : MacCid) : (E.conn s' c).isSome = (E.conn s c).isSome := by
  cases ho with
  | stale | ended | busy | notEligible | empty => rfl
  | booked _ _ _ _ hconn _ hconn' =>
    rw [hconn' c]
    split <;> rename_i hc
    · rw [hc, hconn]
      rfl
    · rfl

theorem cws_le (n : MacNodeId) : s.allocatedCws n ≤ s'.allocatedCws n := by
  cases ho with
  | stale | ended | busy | notEligible | empty => exact Nat.le_refl _
  | booked _ _ hcws _ _ _ _ hcws' =>
    rw [hcws']
    split
    · rw [Function.update_apply]
      split <;> rename_i hn
      · rw [hn, hcws]
        exact Nat.zero_le _
      · exact Nat.le_refl _
    · exact Nat.le_refl _

/-- **Scheduling has to stop** if the OFDM space is exhausted or the UE has a codeword; nothing is
granted then. -/
theorem terminate_iff (hreg : E.binder.getOmnetId (MacCidToNodeId cid) ≠ 0) :
    g.terminate = true ↔ E.SpaceEnded s cid ∨ 0 < s.allocatedCws (MacCidToNodeId cid) := by
  cases ho with
  | stale h => exact absurd h hreg
  | ended _ h => exact iff_of_true rfl (.inl h)
  | busy _ _ h => exact iff_of_true rfl (.inr h)
  | notEligible _ h h' | empty _ h h' | booked _ h h' =>
    refine iff_of_false (by simp) ?_
    rintro (h₁ | h₁)
    · exact h h₁
    · omega

theorem granted_of_terminate (h : g.terminate = true) : g.granted = 0 := by
  cases ho with
  | stale | ended | busy => rfl
  | notEligible | empty | booked => cases h

/-- A connection that stays where it is has been served in part, and its UE has a codeword. -/
theorem stays (ht : g.terminate = false) (ha : g.active = true) (he : g.eligible = true) :
    E.PartlyServed s cid ∧ 0 < s'.allocatedCws (MacCidToNodeId cid) := by
  cases ho with
  | stale | ended | busy => cases ht
  | notEligible => cases he
  | empty => cases ha
  | @booked s' b _ _ _ _ hharq hconn hocc _ hcws =>
    have hpos := of_decide_eq_true he
    refine ⟨⟨hharq, b, hconn, hocc, hpos, by simpa using ha⟩, ?_⟩
    rw [hcws, if_pos hpos, Function.update_self]
    exact Nat.one_pos

end Outcome

end SchedulerEnv

end V2nLte
