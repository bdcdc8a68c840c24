import V2nLte.Mac.GrantRecords

/-!
# The bytes of a grant

What `scheduleGrant` takes of the free blocks and of the virtual buffer, for any vector of band
limits.  A band that the loop does not skip makes an `Offer` : the blocks that may be used and the
bytes that may be booked on them.  The loop books the whole queue with its headers on every band
that offers enough for it, also when most of the queue has been booked on the bands before, and it
takes the booked bytes less the headers from the buffer, as an `unsigned int`.

* `conserved_iff` : the buffer loses what was granted, less the headers, iff the bands offer the
  headers at least, and the sums stay below `2 ^ 32`.
* `emptied_by_nothing` : bands without a byte empty the buffer.
* `frugal_iff` : no more is taken than is needed iff no band is asked for more than is left.
* `second_band_asked_for_all` : the second band gets the whole queue once more.
-/

namespace V2nLte

/-- What the headers take. -/
abbrev HEADERS : ℕ := MAC_HEADER + RLC_HEADER_UM

theorem LteMacBuffer.sum_consume (q : List ℕ) (n : ℕ) : (consume q n).sum = q.sum - n := by
  induction q generalizing n with
  | nil => simp [consume]
  | cons p q ih =>
    cases n with
    | zero => simp [consume]
    | succ n =>
      rw [consume]
      split
      · rw [ih, List.sum_cons]
        omega
      · rw [List.sum_cons, List.sum_cons]
        omega

/-! ### Booking on a list of offers -/

/-- The bytes that are booked on bands with these bytes, where at most `q` bytes are booked on a
band and `t` bytes are left. -/
def bookedOn (q : ℕ) : ℕ → List ℕ → ℕ
  | _, [] => 0
  | t, c :: cs => min c q + if t ≤ min c q then 0 else bookedOn q (t - min c q) cs

/-- While fewer than `q` bytes are booked, the next band does not bring them to `n`. -/
def StaysBelow (q n : ℕ) : ℕ → List ℕ → Prop
  | _, [] => True
  | p, c :: cs => p + min c q < n ∧ (p + min c q < q → StaysBelow q n (p + min c q) cs)

section

variable {q n p t : ℕ} {caps : List ℕ}

theorem bookedOn_le_sum : bookedOn q t caps ≤ caps.sum := by
  induction caps generalizing t with
  | nil => exact Nat.le_refl _
  | cons c cs ih =>
    rw [bookedOn, List.sum_cons]
    have hc : min c q ≤ c := Nat.min_le_left c q
    split
    · omega
    · have := ih (t := t - min c q)
      omega

/-- If not everything is booked, all that the bands have is. -/
theorem bookedOn_eq_sum (ht : t ≤ q) (h : bookedOn q t caps < t) :
    bookedOn q t caps = caps.sum := by
  induction caps generalizing t with
  | nil => rfl
  | cons c cs ih =>
    rw [bookedOn] at h ⊢
    rw [List.sum_cons]
    split at h
    · omega
    · rename_i hleft
      have hrest := ih (t := t - min c q) (by omega) (by omega)
      rw [if_neg hleft, hrest]
      omega

/-- The last band may get the whole queue once more. -/
theorem bookedOn_lt (ht : t ≤ q) (hpos : 0 < t) : bookedOn q t caps < t + q := by
  induction caps generalizing t with
  | nil => rw [bookedOn]; omega
  | cons c cs ih =>
    rw [bookedOn]
    split
    · omega
    · have := ih (t := t - min c q) (by omega) (by omega)
      omega

theorem staysBelow_iff (hp : p < n) :
    StaysBelow q n p caps ↔ p + bookedOn q (q - p) caps < n := by
  induction caps generalizing p with
  | nil => exact iff_of_true trivial hp
  | cons c cs ih =>
    rw [StaysBelow, bookedOn]
    by_cases hlast : q - p ≤ min c q
    · rw [if_pos hlast, Nat.add_zero]
      exact ⟨fun h => h.1, fun h => ⟨h, fun hlt => by omega⟩⟩
    · rw [if_neg hlast]
      constructor
      · rintro ⟨hlt, hrest⟩
        have := (ih hlt).1 (hrest (by omega))
        rw [show q - (p + min c q) = q - p - min c q by omega] at this
        omega
      · intro h
        have hlt : p + min c q < n := by omega
        refine ⟨hlt, fun _ => (ih hlt).2 ?_⟩
        rw [show q - (p + min c q) = q - p - min c q by omega]
        omega

theorem bookedOn_zero : bookedOn 0 0 caps = 0 := by
  cases caps with
  | nil => rfl
  | cons c cs => simp [bookedOn]

/-- The bands offer the headers at least, and none of the 32-bit sums wraps around: not the queue
with its headers, not what is booked, and not what is taken from a queue that is itself longer
than its occupancy says. -/
structure Enough (b : LteMacBuffer) (caps : List ℕ) : Prop where
  queue : b.queueOccupancy + HEADERS < 4294967296
  headers : HEADERS ≤ caps.sum
  booked : StaysBelow (b.queueOccupancy + HEADERS) 4294967296 0 caps
  taken : b.queue.sum < 4294967296 ∨
    StaysBelow (b.queueOccupancy + HEADERS) (b.queueOccupancy + HEADERS + 1) 0 caps

/-- Whether there are enough, by what is booked when no booking wraps around. -/
theorem enough_iff_bookedOn {b : LteMacBuffer} (hq : q = u32 (b.queueOccupancy + HEADERS)) :
    Enough b caps ↔ b.queueOccupancy + HEADERS < 4294967296 ∧ HEADERS ≤ caps.sum ∧
      bookedOn q q caps < 4294967296 ∧
        (b.queue.sum < 4294967296 ∨ bookedOn q q caps < q + 1) := by
  have hwrap : StaysBelow q 4294967296 0 caps ↔ 0 + bookedOn q (q - 0) caps < 4294967296 :=
    staysBelow_iff (by decide)
  have hover : StaysBelow q (q + 1) 0 caps ↔ 0 + bookedOn q (q - 0) caps < q + 1 :=
    staysBelow_iff (Nat.succ_pos q)
  simp only [Nat.zero_add, Nat.sub_zero] at hwrap hover
  have hq' : b.queueOccupancy + HEADERS < 4294967296 → q = b.queueOccupancy + HEADERS :=
    fun h => hq.trans (u32_of_lt h)
  constructor
  · rintro ⟨hqueue, hheaders, hbooked, htaken⟩
    rw [← hq' hqueue] at hbooked htaken
    exact ⟨hqueue, hheaders, hwrap.1 hbooked, htaken.imp_right hover.1⟩
  · rintro ⟨hqueue, hheaders, hbooked, htaken⟩
    refine ⟨hqueue, hheaders, ?_, ?_⟩ <;> rw [← hq' hqueue]
    · exact hwrap.2 hbooked
    · exact htaken.imp_right hover.2

/-- **Taking the booked bytes less the headers is right** iff there are enough. -/
theorem enough_iff {b : LteMacBuffer} {stop : Bool} (hocc : b.queueOccupancy ≠ 0)
    (hq : q = u32 (b.queueOccupancy + HEADERS))
    (hstop : 0 < q → (stop = true ↔ q ≤ bookedOn q q caps)) :
    (u32 (b.queue.sum - sub32 (u32 (bookedOn q q caps)) HEADERS) +
          min b.queueOccupancy (u32 (bookedOn q q caps) - HEADERS) = b.queueOccupancy ∧
        (stop = true ↔
          u32 (b.queue.sum - sub32 (u32 (bookedOn q q caps)) HEADERS) = 0)) ↔
      Enough b caps := by
  have hsum : bookedOn q q caps ≤ caps.sum := bookedOn_le_sum
  have hall : bookedOn q q caps < q → bookedOn q q caps = caps.sum :=
    bookedOn_eq_sum (Nat.le_refl q)
  have htwice : 0 < q → bookedOn q q caps < q + q := bookedOn_lt (Nat.le_refl q)
  have hzero : q = 0 → bookedOn q q caps = 0 := by rintro rfl; exact bookedOn_zero
  have hoccupancy : b.queueOccupancy = u32 b.queue.sum := rfl
  have hq' : b.queueOccupancy + HEADERS < 4294967296 → q = b.queueOccupancy + HEADERS :=
    fun h => hq.trans (u32_of_lt h)
  rw [enough_iff_bookedOn hq]
  generalize bookedOn q q caps = S at *
  generalize b.queueOccupancy = occ at *
  generalize b.queue.sum = sum at *
  rw [show HEADERS = 4 from rfl] at *
  -- with the headers the queue fits into 32 bits
  by_cases hfits : occ + 4 < 4294967296
  · have hq₀ := hq' hfits
    rw [hstop (by omega)]
    have htwice := htwice (by omega)
    clear hstop hq hq' hzero
    by_cases hS : S < 4294967296
    · rw [u32_of_lt hS]
      by_cases hS4 : 4 ≤ S
      · rw [sub32_of_le hS4 hS]
        unfold u32 at hoccupancy ⊢
        omega
      · -- the difference wraps around
        rw [show sub32 S 4 = S + 4294967292 by unfold sub32 u32; omega]
        unfold u32 at hoccupancy ⊢
        omega
    · -- the booked bytes wrap around
      rw [show u32 S = S - 4294967296 by unfold u32; omega]
      unfold sub32 u32 at *
      omega
  · -- it does not, and what is to be served is small
    refine iff_of_false ?_ fun h => hfits h.1
    rintro ⟨hleft, hactive⟩
    have hlt : occ < 4294967296 := hoccupancy ▸ u32_lt sum
    have hq₀ : q + 4294967296 = occ + 4 := by
      rw [hq]
      unfold u32 at hoccupancy ⊢
      omega
    rcases Nat.eq_zero_or_pos q with h₀ | hpos
    · rw [hzero h₀] at hleft
      unfold sub32 u32 at *
      omega
    · have hfew := htwice hpos
      have hS : u32 S = S := u32_of_lt (by omega)
      rw [hstop hpos, hS] at hactive
      rw [hS] at hleft
      by_cases hS4 : 4 ≤ S
      · rw [sub32_of_le hS4 (by omega)] at hleft hactive
        omega
      · rw [show sub32 S 4 = S + 4294967292 by unfold sub32 u32; omega] at hleft
        unfold u32 at *
        omega

end

namespace SchedulerEnv

/-! ### What the bands offer -/

/-- What a band offers when its turn comes. -/
structure Offer where
  /-- The band. -/
  band : Band
  /-- The blocks that may be used. -/
  blocks : ℕ
  /-- The bytes that may be booked. -/
  bytes : ℕ

/-- What the loop asks `addBlocks` for. -/
structure BlockRequest where
  /-- What the band has offered. -/
  offer : Offer
  /-- The blocks that are asked for. -/
  blocks : ℕ
  /-- The bytes that are asked for. -/
  bytes : ℕ

section

variable (E : SchedulerEnv) (nodeId : MacNodeId) (dir : FlowDirection) (antenna : ℕ)
  (limitBl : Bool)

/-- The offer of a band, if the loop does not skip it. -/
def bandOffer (a : LteAllocationModule) (l : BandLimit) : Option Offer :=
  if l.limit = -2 then none
  else
    match E.availableBytes a nodeId antenna l.band 0 dir (if limitBl then l.limit else -1) with
    | .error _ => none
    | .ok available =>
      if available = 0 then none
      else
        let blocks := a.availableBlocks nodeId antenna l.band
        some {
          band := l.band
          blocks := if limitBl ∧ 0 ≤ l.limit ∧ l.limit < blocks then l.limit.toNat else blocks
          bytes :=
            if ¬limitBl ∧ 0 ≤ l.limit ∧ l.limit < available then l.limit.toNat else available }

/-- What the loop asks for on a band that offers `o`, for a queue of `q` bytes. -/
def request (q : ℕ) (o : Offer) : BlockRequest where
  offer := o
  blocks := E.computeReqRbs nodeId o.band 0 (min o.bytes q) dir
  bytes := min o.bytes q

/-- `addBlocks` for a request. -/
def fulfil (a : LteAllocationModule) (x : BlockRequest) :
    Except SchedulerError LteAllocationModule :=
  Prod.fst <$> a.addBlocks antenna x.offer.band nodeId x.blocks x.bytes

/-- The offers of the bands, one after the other, where every band before has got what a queue of
`q` bytes asks for. -/
def offers (q : ℕ) : List BandLimit → LteAllocationModule → List Offer
  | [], _ => []
  | l :: ls, a =>
    match E.bandOffer nodeId dir antenna limitBl a l with
    | none => offers q ls a
    | some o =>
      o :: match fulfil nodeId antenna a (E.request nodeId dir q o) with
        | .error _ => []
        | .ok a' => offers q ls a'

/-- The requests of the loop, when `t` bytes of a queue of `q` bytes are still to be served. -/
def requests (q : ℕ) : List BandLimit → LteAllocationModule → ℕ → List BlockRequest
  | [], _, _ => []
  | l :: ls, a, t =>
    match E.bandOffer nodeId dir antenna limitBl a l with
    | none => requests q ls a t
    | some o =>
      E.request nodeId dir q o ::
        match fulfil nodeId antenna a (E.request nodeId dir q o) with
        | .error _ => []
        | .ok a' => if t ≤ min o.bytes q then [] else requests q ls a' (t - min o.bytes q)

end

variable {E : SchedulerEnv} {nodeId : MacNodeId} {dir : FlowDirection} {antenna q t : ℕ}
  {limitBl : Bool} {l : BandLimit} {ls : List BandLimit} {st : BandLoop} {a : LteAllocationModule}
  {r : BandLoop × List BandLimit × Bool}

/-- One iteration, for any limit. -/
theorem grantBands_step
    (h : E.grantBands nodeId dir antenna limitBl q (l :: ls) st = .ok r) :
    (E.bandOffer nodeId dir antenna limitBl st.allocator l = none ∧ ∃ r',
      E.grantBands nodeId dir antenna limitBl q ls st = .ok r' ∧ r.1 = r'.1 ∧ r.2.2 = r'.2.2) ∨
    ∃ o a', E.bandOffer nodeId dir antenna limitBl st.allocator l = some o ∧
      fulfil nodeId antenna st.allocator (E.request nodeId dir q o) = .ok a' ∧
      let st' : BandLoop := ⟨a', st.toServe - min o.bytes q,
        u32 (st.cwAllocatedBytes + min o.bytes q),
        st.cwAllocatedBlocks + (E.request nodeId dir q o).blocks⟩
      ((st.toServe ≤ min o.bytes q ∧ r.1 = st' ∧ r.2.2 = true) ∨
        (min o.bytes q < st.toServe ∧ ∃ r',
          E.grantBands nodeId dir antenna limitBl q ls st' = .ok r' ∧
            r.1 = r'.1 ∧ r.2.2 = r'.2.2)) := by
  unfold bandOffer
  rcases grantBands_cases h with ⟨hskip, hrest⟩ | ⟨c, a', hlimit, hc, h₀, ha, hrest⟩
  · rcases hskip with hlimit | ⟨hlimit, hzero⟩
    · exact .inl ⟨if_pos hlimit, hrest⟩
    · rw [if_neg hlimit, hzero]
      exact .inl ⟨rfl, hrest⟩
  · rw [if_neg hlimit, hc]
    dsimp only
    rw [if_neg h₀]
    refine .inr ⟨_, a'.1, rfl, ?_, hrest⟩
    simp only [fulfil, request, ha]
    rfl

/-- **What the loop asks for is what it counts**, and it stops early iff that is everything. -/
theorem grantBands_requests (hst : u32 st.cwAllocatedBytes = st.cwAllocatedBytes)
    (h : E.grantBands nodeId dir antenna limitBl q ls st = .ok r) :
    let xs := E.requests nodeId dir antenna limitBl q ls st.allocator st.toServe
    xs.foldlM (fulfil nodeId antenna) st.allocator = .ok r.1.allocator ∧
      r.1.cwAllocatedBytes = u32 (st.cwAllocatedBytes + (xs.map (·.bytes)).sum) ∧
      (0 < st.toServe → (r.2.2 = true ↔ st.toServe ≤ (xs.map (·.bytes)).sum)) := by
  induction ls generalizing st r with
  | nil =>
    cases h
    exact ⟨rfl, hst.symm, fun hpos => iff_of_false Bool.false_ne_true (Nat.not_le.2 hpos)⟩
  | cons l ls ih =>
    rw [requests]
    obtain ⟨hnone, r', hr', h₁, h₂⟩ | ⟨o, a', hsome, ha', h⟩ := grantBands_step h
    · rw [hnone, h₁, h₂]
      exact ih hst hr'
    · rw [hsome]
      simp only [ha']
      obtain ⟨hle, h₁, h₂⟩ | ⟨hlt, r', hr', h₁, h₂⟩ := h
      · rw [if_pos hle, h₁, h₂]
        refine ⟨?_, rfl, fun _ => iff_of_true rfl hle⟩
        rw [List.foldlM_cons, ha']
        rfl
      · rw [if_neg (Nat.not_le.2 hlt), h₁, h₂]
        obtain ⟨hfold, hbytes, hstop⟩ := ih (by simp [u32]) hr'
        refine ⟨?_, ?_, fun _ => ?_⟩
        · rw [List.foldlM_cons, ha']
          exact hfold
        · rw [hbytes, List.map_cons, List.sum_cons]
          simp only [request, u32]
          omega
        · rw [hstop (Nat.sub_pos_of_lt hlt), List.map_cons, List.sum_cons]
          simp only [request]
          omega

theorem sum_requests : ((E.requests nodeId dir antenna limitBl q ls a t).map (·.bytes)).sum =
    bookedOn q t ((E.offers nodeId dir antenna limitBl q ls a).map (·.bytes)) := by
  induction ls generalizing a t with
  | nil => rfl
  | cons l ls ih =>
    rw [requests, offers]
    cases E.bandOffer nodeId dir antenna limitBl a l with
    | none => exact ih
    | some o =>
      dsimp only
      rw [List.map_cons, List.map_cons, List.sum_cons, bookedOn]
      cases fulfil nodeId antenna a (E.request nodeId dir q o) with
      | error e => simp [request, bookedOn]
      | ok a' =>
        dsimp only
        split
        · rfl
        · rw [ih]
          rfl

theorem offer_congr {a' : LteAllocationModule}
    (h : a'.availableBlocks nodeId antenna l.band = a.availableBlocks nodeId antenna l.band) :
    E.bandOffer nodeId dir antenna limitBl a' l = E.bandOffer nodeId dir antenna limitBl a l := by
  simp only [bandOffer, availableBytes, h]

/-- **Bands that occur once** offer what they have before the call. -/
theorem offers_of_nodup (hls : (ls.map (·.band)).Nodup) (hbands : ∀ l ∈ ls, l.band < a.bands) :
    E.offers nodeId dir antenna limitBl q ls a =
      ls.filterMap (E.bandOffer nodeId dir antenna limitBl a) := by
  induction ls generalizing a with
  | nil => rfl
  | cons l ls ih =>
    rw [List.map_cons, List.nodup_cons] at hls
    obtain ⟨hl, hls⟩ := hls
    have hband := hbands l List.mem_cons_self
    have hrest : ∀ k ∈ ls, k.band < a.bands := fun k hk => hbands k (List.mem_cons_of_mem l hk)
    rw [offers, List.filterMap_cons]
    -- the offer of a band looks at this band only
    cases hoffer : E.bandOffer nodeId dir antenna limitBl a l with
    | none => exact ih hls hrest
    | some o =>
      have ho : o.band = l.band := by
        unfold bandOffer at hoffer
        split_ifs at hoffer
        all_goals
          split at hoffer
          · cases hoffer
          · split at hoffer
            · cases hoffer
            · cases hoffer
              rfl
      dsimp only
      congr 1
      cases hadd : a.addBlocks antenna o.band nodeId (E.request nodeId dir q o).blocks
          (E.request nodeId dir q o).bytes with
      | error e =>
        unfold LteAllocationModule.addBlocks at hadd
        rw [ho, if_neg (Nat.not_le.2 hband)] at hadd
        split at hadd <;> cases hadd
      | ok r =>
        have hfulfil : fulfil nodeId antenna a (E.request nodeId dir q o) = .ok r.1 := by
          unfold fulfil
          rw [show (E.request nodeId dir q o).offer.band = o.band from rfl, hadd]
          rfl
        have hbands' : r.1.bands = a.bands := by
          unfold LteAllocationModule.addBlocks at hadd
          split_ifs at hadd <;> cases hadd <;> rfl
        rw [hfulfil]
        dsimp only
        rw [ih hls (by rw [hbands']; exact hrest)]
        refine List.filterMap_congr fun k hk => offer_congr ?_
        refine (LteAllocationModule.addBlocks_frame hadd).2 k.band fun hkb => hl ?_
        rw [← ho, ← hkb]
        -- the later bands offer what they did before
        exact List.mem_map_of_mem hk

/-! ### What a call takes from the buffer -/

variable {s s' : LteSchedulerEnb} {c : ScheduleCall} {g : Grant} {bandLim : Option (List BandLimit)}
  {b : LteMacBuffer}

variable (E) in
/-- A call comes to look at its queue. -/
structure LooksAtQueue (s : LteSchedulerEnb) (c : ScheduleCall) : Prop where
  /-- The OFDM space is not exhausted. -/
  space : ∃ total, (E.allocatorOf s c).computeTotalRbs = .ok total ∧
    ¬(total = 0 ∧ needsSpace (E.allocatorOf s c) (MacCidToNodeId c.cid)
      (E.computeTxParams (MacCidToNodeId c.cid) (E.dirOf c.cid)).txMode
      (s.allocatedCws (MacCidToNodeId c.cid)))
  /-- The UE has no codeword in this TTI. -/
  fresh : s.allocatedCws (MacCidToNodeId c.cid) = 0
  /-- It has a free H-ARQ process. -/
  eligible : E.checkEligibility (MacCidToNodeId c.cid) = .ok (true, 0)

variable (E) in
/-- The limits of the bands of a call. -/
def limitsOf (bandLim : Option (List BandLimit)) : List BandLimit :=
  bandLim.getD (unlimited (List.range E.numBands))

variable (E) in
/-- The offers of the bands of a call, for the queue `b`. -/
def offersOf (s : LteSchedulerEnb) (c : ScheduleCall) (bandLim : Option (List BandLimit))
    (b : LteMacBuffer) : List Offer :=
  E.offers (MacCidToNodeId c.cid) (E.dirOf c.cid) c.antenna c.limitBl (needed b)
    (E.limitsOf bandLim) (E.allocatorOf s c)

variable (E) in
/-- The requests of the band loop of a call, for the queue `b`. -/
def requestsOf (s : LteSchedulerEnb) (c : ScheduleCall) (bandLim : Option (List BandLimit))
    (b : LteMacBuffer) : List BlockRequest :=
  E.requests (MacCidToNodeId c.cid) (E.dirOf c.cid) c.antenna c.limitBl (needed b)
    (E.limitsOf bandLim) (E.allocatorOf s c) (needed b)

/-- Only the buffer of one connection may have changed: it is `b` now. -/
structure OnlyBuffer (E : SchedulerEnv) (s s' : LteSchedulerEnb) (cid : MacCid) (b : LteMacBuffer) :
    Prop where
  vbuf : s'.vbuf = (E.setConn s cid b).vbuf
  bsrbuf : s'.bsrbuf = (E.setConn s cid b).bsrbuf

theorem onlyBuffer_self (hconn : E.conn s c.cid = some b) (h : s'.vbuf = s.vbuf)
    (h' : s'.bsrbuf = s.bsrbuf) : OnlyBuffer E s s' c.cid b := by
  unfold conn at hconn
  constructor
  all_goals
    unfold setConn
    cases hdir : E.direction with
    | DL =>
      rw [hdir] at hconn
      simp only [h, h', ← show s.vbuf c.cid = some b from hconn, Function.update_eq_self]
    | UL =>
      rw [hdir] at hconn
      simp only [h, h', ← show s.bsrbuf c.cid = some b from hconn, Function.update_eq_self]

theorem OnlyBuffer.conn (h : OnlyBuffer E s s' c.cid b) : E.conn s' c.cid = some b := by
  have hset := conn_setConn (E := E) s c.cid c.cid b
  rw [if_pos rfl] at hset
  rw [← hset]
  unfold SchedulerEnv.conn
  cases E.direction with
  | DL => exact congrFun h.vbuf c.cid
  | UL => exact congrFun h.bsrbuf c.cid

/-- **How a call ends** that is made for a registered node. -/
inductive GrantEnds (E : SchedulerEnv) (s s' : LteSchedulerEnb) (c : ScheduleCall)
    (bandLim : Option (List BandLimit)) (b : LteMacBuffer) (g : Grant) : Prop
  | early : ¬E.LooksAtQueue s c → OnlyBuffer E s s' c.cid b → g.granted = 0 → g.active = true →
    GrantEnds E s s' c bandLim b g
  | empty : E.LooksAtQueue s c → b.queueOccupancy = 0 → OnlyBuffer E s s' c.cid b →
    g.granted = 0 → g.active = false → GrantEnds E s s' c bandLim b g
  | booked (r : BandLoop × List BandLimit × Bool) : E.LooksAtQueue s c → b.queueOccupancy ≠ 0 →
    E.grantBands (MacCidToNodeId c.cid) (E.dirOf c.cid) c.antenna c.limitBl (needed b)
      (E.limitsOf bandLim) ⟨E.allocatorOf s c, needed b, 0, 0⟩ = .ok r →
    OnlyBuffer E s s' c.cid ⟨LteMacBuffer.consume b.queue (sub32 r.1.cwAllocatedBytes HEADERS)⟩ →
    g.granted = r.1.cwAllocatedBytes → g.active = !r.2.2 → s'.allocator = r.1.allocator →
    GrantEnds E s s' c bandLim b g

theorem scheduleGrant_ends (hreg : E.binder.getOmnetId (MacCidToNodeId c.cid) ≠ 0)
    (hconn : E.conn s c.cid = some b)
    (h : E.scheduleGrant s c.cid c.bytes bandLim c.antenna c.limitBl = .ok (s', g, ls)) :
    GrantEnds E s s' c bandLim b g := by
  simp only [scheduleGrant] at h
  rw [if_neg hreg] at h
  obtain ⟨total, htotal, h⟩ := bind_eq_ok.1 h
  have hsame : ∀ a, OnlyBuffer E s { s with allocator := a } c.cid b :=
    fun a => onlyBuffer_self hconn rfl rfl
  -- the reasons to look no further
  split at h <;> rename_i hspace
  · cases h
    refine .early (fun hlooks => ?_) (hsame _) rfl rfl
    obtain ⟨total', htotal', hnot⟩ := hlooks.space
    cases htotal'.symm.trans htotal
    exact hnot hspace
  split at h <;> rename_i hcws
  · cases h
    exact .early (fun hlooks => absurd hlooks.fresh (Nat.ne_of_gt hcws)) (hsame _) rfl rfl
  obtain ⟨⟨free, cw⟩, helig, h⟩ := bind_eq_ok.1 h
  simp only at h
  split at h <;> rename_i hfree
  · cases h
    refine .early (fun hlooks => ?_) (hsame _) rfl rfl
    cases hlooks.eligible.symm.trans helig
    exact hfree.elim Bool.noConfusion (Nat.not_succ_le_zero 0)
  have helig' : E.checkEligibility (MacCidToNodeId c.cid) = .ok (true, 0) := by
    obtain ⟨hne, hlt⟩ := not_or.1 hfree
    rw [helig, Bool.eq_true_of_not_eq_false hne, Nat.eq_zero_of_not_pos hlt]
  have hlooks : E.LooksAtQueue s c :=
    ⟨⟨total, htotal, hspace⟩, Nat.eq_zero_of_not_pos hcws, helig'⟩
  have hconns : ∀ a, E.conn { s with allocator := a } c.cid = some b := by
    intro a
    rw [← hconn]
    unfold SchedulerEnv.conn
    cases E.direction <;> rfl
  rw [hconns] at h
  dsimp only at h
  split at h <;> rename_i hqueue
  · cases h
    exact .empty hlooks hqueue (hsame _) rfl rfl
  -- the band loop
  obtain ⟨⟨st, ls', stop⟩, hloop, h⟩ := bind_eq_ok.1 h
  have honly : ∀ b' s₁,
      s₁.vbuf = (E.setConn { s with allocator := E.allocatorOf s c } c.cid b').vbuf →
      s₁.bsrbuf = (E.setConn { s with allocator := E.allocatorOf s c } c.cid b').bsrbuf →
      OnlyBuffer E s s₁ c.cid b' := by
    intro b' s₁ h₁ h₂
    constructor
    · rw [h₁]
      unfold setConn
      cases E.direction <;> rfl
    · rw [h₂]
      unfold setConn
      cases E.direction <;> rfl
  dsimp only at h
  split at h <;> rename_i hbytes
  · cases h
    exact .booked (st, _, stop) hlooks hqueue hloop (honly _ _ rfl rfl) rfl rfl rfl
  · cases h
    exact .booked (st, _, stop) hlooks hqueue hloop (honly _ _ rfl rfl)
      (Nat.eq_zero_of_not_pos hbytes).symm rfl rfl

/-- The buffer of a connection has lost what was granted, less the headers, no other buffer has
changed, and the connection is said to be inactive iff its buffer is empty. -/
def Conserved (E : SchedulerEnv) (s s' : LteSchedulerEnb) (cid : MacCid) (b : LteMacBuffer)
    (g : Grant) : Prop :=
  ∃ b', OnlyBuffer E s s' cid b' ∧
    b'.queueOccupancy + min b.queueOccupancy (g.granted - HEADERS) = b.queueOccupancy ∧
    (g.active = false ↔ b'.queueOccupancy = 0)

/-- A call with an empty queue comes to look at it, and for a call that comes to look at a queue
that is not empty, the bands offer enough. -/
def Conserving (E : SchedulerEnv) (s : LteSchedulerEnb) (c : ScheduleCall)
    (bandLim : Option (List BandLimit)) (b : LteMacBuffer) : Prop :=
  (b.queueOccupancy = 0 → E.LooksAtQueue s c) ∧
    (b.queueOccupancy ≠ 0 → E.LooksAtQueue s c →
      Enough b ((E.offersOf s c bandLim b).map (·.bytes)))

theorem conserved_iff_of {b' : LteMacBuffer} (h : OnlyBuffer E s s' c.cid b') :
    E.Conserved s s' c.cid b g ↔
      b'.queueOccupancy + min b.queueOccupancy (g.granted - HEADERS) = b.queueOccupancy ∧
        (g.active = false ↔ b'.queueOccupancy = 0) := by
  constructor
  · rintro ⟨b'', h', hrest⟩
    obtain rfl := Option.some.inj (h'.conn.symm.trans h.conn)
    exact hrest
  · exact fun hrest => ⟨b', h, hrest⟩

/-- **The virtual buffer is conserved** by a call for a registered node iff the bands offer
enough. -/
theorem conserved_iff (E : SchedulerEnv) {s s' : LteSchedulerEnb} {c : ScheduleCall}
    {bandLim : Option (List BandLimit)} {b : LteMacBuffer} {g : Grant} {ls : List BandLimit}
    (hreg : E.binder.getOmnetId (MacCidToNodeId c.cid) ≠ 0) (hconn : E.conn s c.cid = some b)
    (h : E.scheduleGrant s c.cid c.bytes bandLim c.antenna c.limitBl = .ok (s', g, ls)) :
    E.Conserved s s' c.cid b g ↔ E.Conserving s c bandLim b := by
  cases scheduleGrant_ends hreg hconn h with
  | early hlooks hbuf hgranted hactive =>
    rw [conserved_iff_of hbuf, hgranted, hactive, Conserving]
    simp [hlooks]
  | empty hlooks hocc hbuf hgranted hactive =>
    rw [conserved_iff_of hbuf, hgranted, hactive, Conserving]
    simp [hlooks, hocc]
  | booked r hlooks hocc hloop hbuf hgranted hactive =>
    obtain ⟨-, hbytes, hstop⟩ := grantBands_requests (by rfl) hloop
    rw [sum_requests] at hbytes hstop
    dsimp only at hbytes hstop
    rw [Nat.zero_add] at hbytes
    rw [conserved_iff_of hbuf, hgranted, hactive, hbytes, Bool.not_eq_false']
    have hqueue : ∀ n, LteMacBuffer.queueOccupancy ⟨LteMacBuffer.consume b.queue n⟩ =
        u32 (b.queue.sum - n) := fun n => congrArg u32 (LteMacBuffer.sum_consume b.queue n)
    rw [hqueue, Conserving]
    exact (enough_iff hocc rfl hstop).trans
      ⟨fun henough => ⟨fun h₀ => absurd h₀ hocc, fun _ _ => henough⟩, fun h => h.2 hocc hlooks⟩

/-- A grant for the connection with the eleven bytes. -/
def elevenCall : ScheduleCall := { cid := 65536 * 1025 + 5, bytes := 0 }

theorem conserved_iff_elevenBytes :
    ∃ s' g ls, (uplinkCell.withAmc sixteenBits).scheduleGrant elevenBytes elevenCall.cid 0 none
        elevenCall.antenna elevenCall.limitBl = .ok (s', g, ls) ∧ g.granted = 20 ∧
      (uplinkCell.withAmc sixteenBits).Conserved elevenBytes s' elevenCall.cid ⟨[11]⟩ g := by
  have hrun : (uplinkCell.withAmc sixteenBits).scheduleGrant elevenBytes elevenCall.cid
      elevenCall.bytes none elevenCall.antenna elevenCall.limitBl = .ok (_, _, _) := rfl
  refine ⟨_, _, _, hrun, rfl, (conserved_iff _ (by decide) rfl hrun).2
    ⟨fun h => absurd h (by decide),
    fun _ _ => ⟨by decide, by decide, ?_, .inl (by decide)⟩⟩⟩
  exact ⟨by decide, fun _ => ⟨by decide, fun _ => trivial⟩⟩

/-- Bands that hold nothing empty the buffer: of its eleven bytes nothing is granted, and nothing
is left. -/
theorem emptied_by_nothing :
    ∃ s' g ls, uplinkCell.scheduleGrant elevenBytes elevenCall.cid 0 none elevenCall.antenna
        elevenCall.limitBl = .ok (s', g, ls) ∧
      g.granted = 0 ∧ s'.bsrbuf elevenCall.cid = some ⟨[]⟩ ∧
      ¬uplinkCell.Conserved elevenBytes s' elevenCall.cid ⟨[11]⟩ g := by
  refine ⟨_, _, _, rfl, rfl, rfl, ?_⟩
  rintro ⟨b', hbuf, hleft, -⟩
  have hconn := hbuf.conn (c := elevenCall)
  obtain rfl := Option.some.inj (hconn.symm.trans (show _ = some ⟨[]⟩ from rfl))
  exact absurd hleft (by decide)

/-! ### What a call takes of the bands -/

/-- `m` is the least number of blocks that hold `t` bytes, or all of them if that is fewer. -/
structure LeastCarrying (held : ℕ → ℕ) (t blocks m : ℕ) : Prop where
  le : m ≤ blocks
  holds : t ≤ held m ∨ m = blocks
  least : ∀ n < m, held n < t

/-- Asking for `u` bytes, at most the `t` that are left, takes no block too many and none too few:
no fewer blocks than there are hold `u`, or the first number that does holds what is left. -/
def AsksForRest (held : ℕ → ℕ) (t u blocks : ℕ) : Prop :=
  u ≤ t ∧ ((∀ n < blocks, held n < u) ∨ ∃ n < blocks, t ≤ held n ∧ ∀ m < n, held m < u)

/-- Every band in turn, until the queue of `q` bytes is covered, is asked for the rest of the
`total` bytes, of which `p` have been booked. -/
def Frugal (held : Band → ℕ → ℕ) (q total : ℕ) : ℕ → List Offer → Prop
  | _, [] => True
  | p, o :: os =>
    AsksForRest (held o.band) (total - p) (min o.bytes q) o.blocks ∧
      (p + min o.bytes q < q → Frugal held q total (p + min o.bytes q) os)

/-- After `p` bytes, the requests do not bring more than `total`, and each is for the least number
of blocks that carries the rest. -/
structure OnlyNeeded (held : Band → ℕ → ℕ) (total p : ℕ) (xs : List BlockRequest) : Prop where
  bytes : p + (xs.map (·.bytes)).sum ≤ total
  blocks : ∀ pre x post, xs = pre ++ x :: post →
    LeastCarrying (held x.offer.band) (total - (p + (pre.map (·.bytes)).sum)) x.offer.blocks
      x.blocks

theorem leastCarrying_iff {held : ℕ → ℕ} {t u blocks m : ℕ} (hut : u ≤ t)
    (hm : LeastCarrying held u blocks m) (hu : u ≤ held m) :
    LeastCarrying held t blocks m ↔ AsksForRest held t u blocks := by
  constructor
  · intro h
    refine ⟨hut, ?_⟩
    rcases Nat.eq_or_lt_of_le h.le with rfl | hlt
    · exact .inl hm.least
    · exact .inr ⟨m, hlt, h.holds.resolve_right (Nat.ne_of_lt hlt), hm.least⟩
  · rintro ⟨-, hfew | ⟨n, hn, ht, hfirst⟩⟩
    · refine ⟨hm.le, .inr ?_, fun n hn => (hm.least n hn).trans_le hut⟩
      by_contra hne
      exact absurd hu (Nat.not_le.2 (hfew m (Nat.lt_of_le_of_ne hm.le hne)))
    · -- both are the first number of blocks that holds `u`
      have hnm : n = m := by
        rcases Nat.lt_trichotomy n m with hlt | heq | hgt
        · exact absurd (hut.trans ht) (Nat.not_le.2 (hm.least n hlt))
        · exact heq
        · exact absurd hu (Nat.not_le.2 (hfirst m hgt))
      rw [← hnm]
      exact ⟨hn.le, .inl ht, fun k hk => (hfirst k hk).trans_le hut⟩

theorem onlyNeeded_cons {held : Band → ℕ → ℕ} {total p : ℕ} {x : BlockRequest}
    {xs : List BlockRequest} :
    OnlyNeeded held total p (x :: xs) ↔
      LeastCarrying (held x.offer.band) (total - p) x.offer.blocks x.blocks ∧
        OnlyNeeded held total (p + x.bytes) xs := by
  constructor
  · rintro ⟨hbytes, hblocks⟩
    rw [List.map_cons, List.sum_cons, ← Nat.add_assoc] at hbytes
    refine ⟨hblocks [] x xs rfl, hbytes, fun pre y post hxs => ?_⟩
    have hy := hblocks (x :: pre) y post (by rw [hxs, List.cons_append])
    rwa [List.map_cons, List.sum_cons, ← Nat.add_assoc] at hy
  · rintro ⟨hx, hbytes, hblocks⟩
    refine ⟨by rw [List.map_cons, List.sum_cons, ← Nat.add_assoc]; exact hbytes,
      fun pre y post hxs => ?_⟩
    cases pre with
    | nil =>
      obtain ⟨rfl, rfl⟩ := List.cons.inj hxs
      exact hx
    | cons z pre =>
      obtain ⟨rfl, hrest⟩ := List.cons.inj hxs
      rw [List.map_cons, List.sum_cons, ← Nat.add_assoc]
      exact hblocks pre y post hrest

theorem onlyNeeded_nil {held : Band → ℕ → ℕ} {total p : ℕ} (hp : p ≤ total) :
    OnlyNeeded held total p [] :=
  ⟨hp, fun pre x post hxs => absurd hxs (by simp)⟩

/-! ### The AMC -/

theorem withAmc_least (E : SchedulerEnv) (T : TbsTables) {id : MacNodeId} {b : Band}
    {cw blocks bytes : ℕ} {dir : FlowDirection}
    (hle : bytes ≤ (E.withAmc T).computeBytesOnNRbs id b cw blocks dir) :
    LeastCarrying (fun n => (E.withAmc T).computeBytesOnNRbs id b cw n dir) bytes blocks
        ((E.withAmc T).computeReqRbs id b cw bytes dir) ∧
      bytes ≤ (E.withAmc T).computeBytesOnNRbs id b cw
        ((E.withAmc T).computeReqRbs id b cw bytes dir) dir := by
  rcases Nat.eq_zero_or_pos bytes with rfl | hpos
  · have hnone : (E.withAmc T).computeReqRbs id b cw 0 dir = 0 := rfl
    rw [hnone]
    exact ⟨⟨Nat.zero_le _, .inl (Nat.zero_le _), fun n hn => absurd hn (Nat.not_lt_zero n)⟩,
      Nat.zero_le _⟩
  obtain ⟨r, hreq, ⟨hone, hmax, hbits⟩, hheld⟩ := E.withAmc_row T hpos hle
  obtain ⟨j, hj⟩ : ∃ j, TbsTables.searchRow r (bytes * 8) 110 0 = j := ⟨_, rfl⟩
  have hstop : j ≤ blocks - 1 :=
    hj ▸ TbsTables.searchRow_le (m := 110) hbits (Nat.zero_le _) (by omega)
  have henough : bytes ≤ (E.withAmc T).computeBytesOnNRbs id b cw (j + 1) dir := by
    rw [hheld (j + 1) (by omega) (by omega), Nat.add_sub_cancel,
      Nat.le_div_iff_mul_le (by decide), ← hj]
    exact TbsTables.le_searchRow (by omega)
  rw [hreq, hj]
  refine ⟨⟨by omega, .inl henough, fun n hn => ?_⟩, henough⟩
  rcases Nat.eq_zero_or_pos n with rfl | hn₀
  · exact hpos
  · have hentry : r (n - 1) < bytes * 8 :=
      TbsTables.searchRow_first (m := 110) (Nat.zero_le _) (by omega)
    show (E.withAmc T).computeBytesOnNRbs id b cw n dir < bytes
    rw [hheld n hn₀ (by omega)]
    omega

theorem eq_of_availableBytes {limit : ℤ} {band : Band} {n : ℕ}
    (h : E.availableBytes a nodeId antenna band 0 dir limit = .ok n) :
    n = E.computeBytesOnNRbs nodeId band 0
      (if limit ≠ -1 ∧ limit < a.availableBlocks nodeId antenna band then limit.toNat
        else a.availableBlocks nodeId antenna band) dir := by
  unfold availableBytes at h
  dsimp only at h
  by_cases hbad : (a.availableBlocks nodeId antenna band : ℤ) < limit ∧ limit ≠ -1
  · rw [if_pos hbad] at h
    cases h
  · rw [if_neg hbad] at h
    exact (Except.ok.inj h).symm

theorem offer_bytes_le (E : SchedulerEnv) (T : TbsTables) {o : Offer}
    (h : (E.withAmc T).bandOffer nodeId dir antenna limitBl a l = some o) :
    o.bytes ≤ (E.withAmc T).computeBytesOnNRbs nodeId o.band 0 o.blocks dir := by
  have hnone : ∀ b, (E.withAmc T).computeBytesOnNRbs nodeId b 0 0 dir = 0 := fun b => rfl
  unfold bandOffer at h
  split at h
  · cases h
  cases havail : (E.withAmc T).availableBytes a nodeId antenna l.band 0 dir
      (if limitBl then l.limit else -1) with
  | error e =>
    rw [havail] at h
    cases h
  | ok available =>
    rw [havail] at h
    dsimp only at h
    split at h <;> rename_i h₀
    · cases h
    obtain rfl := Option.some.inj h
    dsimp only
    have hle : (if ¬limitBl = true ∧ 0 ≤ l.limit ∧ l.limit < (available : ℤ) then l.limit.toNat
        else available) ≤ available := by
      split <;> omega
    refine hle.trans ?_
    have heq := eq_of_availableBytes havail
    cases limitBl with
    | false => simp [heq]
    | true =>
      simp only [if_true, true_and] at heq ⊢
      have hlimit : l.limit ≠ -1 ∧ l.limit < a.availableBlocks nodeId antenna l.band ↔
          0 ≤ l.limit ∧ l.limit < a.availableBlocks nodeId antenna l.band := by
        refine ⟨fun hlt => ⟨?_, hlt.2⟩, fun hlt => ⟨by omega, hlt.2⟩⟩
        -- a limit below `-1` leaves no block
        by_contra hneg
        rw [if_pos hlt, show l.limit.toNat = 0 by omega, hnone] at heq
        exact h₀ heq
      rw [heq]
      simp only [hlimit]
      exact Nat.le_refl _

/-- **The loop asks for no more than is needed** iff every band in turn is asked for the rest. -/
theorem requests_frugal (E : SchedulerEnv) (T : TbsTables) {total p : ℕ} (hp : p ≤ total) :
    OnlyNeeded (fun b n => (E.withAmc T).computeBytesOnNRbs nodeId b 0 n dir) total p
        ((E.withAmc T).requests nodeId dir antenna limitBl q ls a (q - p)) ↔
      Frugal (fun b n => (E.withAmc T).computeBytesOnNRbs nodeId b 0 n dir) q total p
        ((E.withAmc T).offers nodeId dir antenna limitBl q ls a) := by
  induction ls generalizing a p with
  | nil => exact iff_of_true (onlyNeeded_nil hp) trivial
  | cons l ls ih =>
    rw [requests, offers]
    cases hoffer : (E.withAmc T).bandOffer nodeId dir antenna limitBl a l with
    | none => exact ih hp
    | some o =>
      dsimp only
      rw [onlyNeeded_cons, Frugal]
      have hheld := Nat.le_trans (Nat.min_le_left o.bytes q) (offer_bytes_le E T hoffer)
      obtain ⟨hleast, hu⟩ := withAmc_least E T hheld
      by_cases hrest : min o.bytes q ≤ total - p
      · have hsum : p + min o.bytes q ≤ total := by omega
        rw [show (E.withAmc T).request nodeId dir q o =
          ⟨o, (E.withAmc T).computeReqRbs nodeId o.band 0 (min o.bytes q) dir,
            min o.bytes q⟩ from rfl]
        dsimp only
        rw [leastCarrying_iff hrest hleast hu]
        refine and_congr_right fun _ => ?_
        split
        · exact iff_of_true (onlyNeeded_nil hsum) fun _ => trivial
        · split <;> rename_i hlast
          · exact iff_of_true (onlyNeeded_nil hsum) fun hlt => absurd hlt (by omega)
          · rw [Nat.sub_sub, ih hsum]
            exact ⟨fun h _ => h, fun h => h (by omega)⟩
      · refine iff_of_false (fun h => hrest ?_) fun h => hrest h.1.1
        have hbytes := h.2.bytes
        simp only [request] at hbytes
        omega

/-! ### The calls -/

/-- No resource is taken by a call that the connection does not need: the bytes of all the bands
are at most those of the queue and the headers, and every band is asked for the least number of
blocks that carries what is left of them. -/
def NothingInExcess (E : SchedulerEnv) (s : LteSchedulerEnb) (c : ScheduleCall)
    (bandLim : Option (List BandLimit)) (b : LteMacBuffer) : Prop :=
  E.LooksAtQueue s c → b.queueOccupancy ≠ 0 →
    OnlyNeeded (fun band n => E.computeBytesOnNRbs (MacCidToNodeId c.cid) band 0 n (E.dirOf c.cid))
      (b.queueOccupancy + HEADERS) 0 (E.requestsOf s c bandLim b)

/-- Every band in turn is asked for what is left. -/
def AsksEachForRest (E : SchedulerEnv) (s : LteSchedulerEnb) (c : ScheduleCall)
    (bandLim : Option (List BandLimit)) (b : LteMacBuffer) : Prop :=
  E.LooksAtQueue s c → b.queueOccupancy ≠ 0 →
    Frugal (fun band n => E.computeBytesOnNRbs (MacCidToNodeId c.cid) band 0 n (E.dirOf c.cid))
      (needed b) (b.queueOccupancy + HEADERS) 0 (E.offersOf s c bandLim b)

/-- The requests are what a call asks the allocator for: they lead to its allocator, and their
bytes are those that it returns. -/
theorem scheduleGrant_requests (hreg : E.binder.getOmnetId (MacCidToNodeId c.cid) ≠ 0)
    (hconn : E.conn s c.cid = some b) (hlooks : E.LooksAtQueue s c) (hocc : b.queueOccupancy ≠ 0)
    (h : E.scheduleGrant s c.cid c.bytes bandLim c.antenna c.limitBl = .ok (s', g, ls)) :
    (E.requestsOf s c bandLim b).foldlM (fulfil (MacCidToNodeId c.cid) c.antenna)
        (E.allocatorOf s c) = .ok s'.allocator ∧
      g.granted = u32 ((E.requestsOf s c bandLim b).map (·.bytes)).sum := by
  cases scheduleGrant_ends hreg hconn h with
  | early hnot => exact absurd hlooks hnot
  | empty _ h₀ => exact absurd h₀ hocc
  | booked r _ _ hloop _ hgranted _ hallocator =>
    obtain ⟨hfold, hbytes, -⟩ := grantBands_requests (by rfl) hloop
    rw [hgranted, hallocator]
    exact ⟨hfold, hbytes.trans (congrArg u32 (Nat.zero_add _))⟩

/-- **A call takes nothing in excess** iff each band is asked for what is left. -/
theorem frugal_iff (E : SchedulerEnv) (T : TbsTables) {s s' : LteSchedulerEnb} {c : ScheduleCall}
    {bandLim : Option (List BandLimit)} {b : LteMacBuffer} {g : Grant} {ls : List BandLimit}
    (hreg : E.binder.getOmnetId (MacCidToNodeId c.cid) ≠ 0) (hconn : E.conn s c.cid = some b)
    (h : (E.withAmc T).scheduleGrant s c.cid c.bytes bandLim c.antenna c.limitBl =
      .ok (s', g, ls)) :
    ((E.withAmc T).LooksAtQueue s c → b.queueOccupancy ≠ 0 →
      ((E.withAmc T).requestsOf s c bandLim b).foldlM (fulfil (MacCidToNodeId c.cid) c.antenna)
        ((E.withAmc T).allocatorOf s c) = .ok s'.allocator) ∧
    ((E.withAmc T).NothingInExcess s c bandLim b ↔
      (E.withAmc T).AsksEachForRest s c bandLim b) := by
  refine ⟨fun hlooks hocc => ?_, ?_⟩
  · exact (scheduleGrant_requests (E := E.withAmc T) hreg hconn hlooks hocc h).1
  unfold NothingInExcess AsksEachForRest requestsOf offersOf
  refine imp_congr_right fun _ => imp_congr_right fun _ => ?_
  exact requests_frugal E T (Nat.zero_le _)

theorem frugal_iff_oneBand :
    ∃ s' g ls, (uplinkCell.withAmc sixteenBits).scheduleGrant elevenBytes elevenCall.cid 0
        (some [{ band := 0 }]) elevenCall.antenna elevenCall.limitBl = .ok (s', g, ls) ∧
      g.granted = 10 ∧
      (uplinkCell.withAmc sixteenBits).NothingInExcess elevenBytes elevenCall
        (some [{ band := 0 }]) ⟨[11]⟩ := by
  have hrun : (uplinkCell.withAmc sixteenBits).scheduleGrant elevenBytes elevenCall.cid
      elevenCall.bytes (some [{ band := 0 }]) elevenCall.antenna elevenCall.limitBl =
        .ok (_, _, _) := rfl
  refine ⟨_, _, _, hrun, rfl, (frugal_iff uplinkCell sixteenBits (by decide) rfl hrun).2.2
    fun _ _ => ⟨⟨by decide, .inl ?_⟩, fun _ => trivial⟩⟩
  show ∀ n < 5, (uplinkCell.withAmc sixteenBits).computeBytesOnNRbs 1025 0 0 n .UL < 10
  decide

/-- Fifteen bytes are to be served, and each of two bands holds ten.  The second one should be
asked for three blocks, for the five bytes that are left, and is asked for all its five. -/
theorem second_band_asked_for_all :
    ∃ s' g ls, (uplinkCell.withAmc sixteenBits).scheduleGrant elevenBytes elevenCall.cid 0 none
        elevenCall.antenna elevenCall.limitBl = .ok (s', g, ls) ∧ g.granted = 20 ∧
      ((uplinkCell.withAmc sixteenBits).requestsOf elevenBytes elevenCall none ⟨[11]⟩).map
        (fun x => (x.offer.band, x.blocks, x.bytes)) = [(0, 5, 10), (1, 5, 10)] ∧
      ¬(uplinkCell.withAmc sixteenBits).NothingInExcess elevenBytes elevenCall none ⟨[11]⟩ := by
  refine ⟨_, _, _, rfl, rfl, rfl, fun h => ?_⟩
  have hlooks : (uplinkCell.withAmc sixteenBits).LooksAtQueue elevenBytes elevenCall :=
    ⟨⟨10, rfl, by decide⟩, rfl, rfl⟩
  exact absurd (h hlooks (by decide)).bytes (by decide)

end SchedulerEnv

end V2nLte
