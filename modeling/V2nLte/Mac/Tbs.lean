import V2nLte.Mac.Grant

/-!
# Bytes and resource blocks

The TBS tables say how many bits a number of blocks holds.  `computeBytesOnNRbs` reads the bytes
for a number of blocks off a row of a table, `computeReqRbs` searches the row for the first number
of blocks that holds some bytes.

The tables and the code rates, which are floating point numbers, are parameters.

* `TbsTables.inverse_iff` : in rows that do not decrease the two are inverse to each other for all
  bytes whose bits do not wrap around.
* `withAmc_fits` : what the AMC tells the scheduler fits together.
-/

namespace V2nLte

/-- The modulations. -/
inductive LteMod where
  | _QPSK
  | _16QAM
  | _64QAM
  deriving DecidableEq

/-- `MAXCQI`. -/
def MAXCQI : ℕ := 15

/-- The modulation of a CQI, the first column of `cqiTable`. -/
def cqiTable (cqi : ℕ) : LteMod :=
  if cqi ≤ 6 then ._QPSK else if cqi ≤ 9 then ._16QAM else ._64QAM

/-- `getCwModulation`. -/
def UserTxParams.getCwModulation {B : ℕ} (p : UserTxParams B) (cw : ℕ) : LteMod :=
  match p.cqiVector[cw]? with
  | none => ._QPSK
  | some cqi => if MAXCQI < cqi then ._QPSK else cqiTable cqi

/-- The first `iTbs` of a modulation. -/
def LteMod.firstItbs : LteMod → ℕ
  | _QPSK => 0
  | _16QAM => 9
  | _64QAM => 15

/-- The exceptions of the block computations. -/
inductive TbsError where
  /-- `std::out_of_range`. -/
  | outOfRange
  /-- "Too many blocks". -/
  | tooManyBlocks
  /-- "Illegal number of layers". -/
  | illegalLayers
  deriving DecidableEq

/-- The tables of the AMC. -/
structure TbsTables where
  /-- `getItbsPerCqi`. -/
  getItbsPerCqi : ℕ → FlowDirection → ℕ
  /-- The bits of `j + 1` blocks, for a modulation and one, two or four layers; `j` is below 110. -/
  itbs2tbs : LteMod → ℕ → ℕ → ℕ → ℕ
  /-- The entries are `unsigned int`s. -/
  itbs2tbs_lt : ∀ mod layers itbs j, itbs2tbs mod layers itbs j < 4294967296

/-- The rows have positive entries and do not decrease. -/
def TbsTables.RowsGrow (T : TbsTables) : Prop :=
  ∀ mod layers itbs, (∀ j < 110, 0 < T.itbs2tbs mod layers itbs j) ∧
    ∀ i j, i ≤ j → j < 110 → T.itbs2tbs mod layers itbs i ≤ T.itbs2tbs mod layers itbs j

namespace TbsTables

variable (T : TbsTables) {B : ℕ} (computeTxParams : MacNodeId → FlowDirection → UserTxParams B)

/-- `itbs2tbs`: the row for a number of layers. -/
def row (mod : LteMod) (txMode : TxMode) (layers itbs : ℕ) : Except TbsError (ℕ → ℕ) :=
  if layers = 1 ∨ (txMode ≠ .OL_SPATIAL_MULTIPLEXING ∧ txMode ≠ .CL_SPATIAL_MULTIPLEXING) then
    .ok (T.itbs2tbs mod 1 itbs)
  else if layers = 2 then .ok (T.itbs2tbs mod 2 itbs)
  else if layers = 4 then .ok (T.itbs2tbs mod 4 itbs)
  else .error .illegalLayers

/-- `vector::at`. -/
def vectorAt (xs : List ℕ) (i : ℕ) : Except TbsError ℕ := (xs[i]?).elim (.error .outOfRange) .ok

/-- The row for a codeword of a UE. -/
def tbsVect (info : UserTxParams B) (cw : ℕ) (dir : FlowDirection) : Except TbsError (ℕ → ℕ) := do
  let layers ← vectorAt info.getLayers cw
  let cqi ← vectorAt info.cqiVector cw
  let mod := info.getCwModulation cw
  -- the difference becomes an `unsigned char`
  T.row mod info.txMode layers (sub32 (T.getItbsPerCqi cqi dir) mod.firstItbs % 256)

/-- The loop of `computeReqRbs`, from `j` on, with `n` iterations left. -/
def searchRow (row : ℕ → ℕ) (bits : ℕ) : ℕ → ℕ → ℕ
  | 0, j => j
  | n + 1, j => if bits ≤ row j then j else searchRow row bits n (j + 1)

/-- `computeReqRbs`. -/
def computeReqRbs (id : MacNodeId) (_b : Band) (cw bytes : ℕ) (dir : FlowDirection) :
    Except TbsError ℕ :=
  if bytes = 0 then .ok 0
  else
    let info := computeTxParams id dir
    if info.isSet then do
      let tbsVect ← T.tbsVect info cw dir
      return searchRow tbsVect (u32 (bytes * 8)) 110 0 + 1
    else .ok 0

/-- `computeBitsOnNRbs`, for one codeword. -/
def computeBitsOnNRbs (id : MacNodeId) (_b : Band) (cw blocks : ℕ) (dir : FlowDirection) :
    Except TbsError ℕ :=
  if 110 < blocks then .error .tooManyBlocks
  else if blocks = 0 then .ok 0
  else
    let info := computeTxParams id dir
    if info.isSet then do
      let cqi ← vectorAt info.cqiVector cw
      if cqi = 0 then return 0
      else
        let tbsVect ← T.tbsVect info cw dir
        return tbsVect (blocks - 1)
    else .ok 0

/-- `computeBytesOnNRbs`, for one codeword. -/
def computeBytesOnNRbs (id : MacNodeId) (b : Band) (cw blocks : ℕ) (dir : FlowDirection) :
    Except TbsError ℕ := do
  let bits ← T.computeBitsOnNRbs computeTxParams id b cw blocks dir
  return bits / 8

variable {T computeTxParams} {r : ℕ → ℕ} {id : MacNodeId} {b : Band} {cw bytes n : ℕ}
  {dir : FlowDirection}

theorem searchRow_le {bits m j k : ℕ} (hk : bits ≤ r k) (hjk : j ≤ k) (hkm : k < j + m) :
    searchRow r bits m j ≤ k := by
  induction m generalizing j with
  | zero => omega
  | succ m ih =>
    rw [searchRow]
    split <;> rename_i hj
    · exact hjk
    · have hne : j ≠ k := fun h => hj (h ▸ hk)
      exact ih (by omega) (by omega)

/-- The loop stops at the first entry that is large enough. -/
theorem searchRow_le_iff {bits m j k : ℕ} (hr : ∀ i j, i ≤ j → j < 110 → r i ≤ r j)
    (hjk : j ≤ k) (hk : k < j + m) (h : j + m ≤ 110) :
    searchRow r bits m j ≤ k ↔ bits ≤ r k := by
  induction m generalizing j with
  | zero => omega
  | succ m ih =>
    rw [searchRow]
    split <;> rename_i hj
    · exact iff_of_true hjk (hj.trans (hr j k hjk (by omega)))
    · rcases Nat.eq_or_lt_of_le hjk with rfl | hlt
      · refine iff_of_false (fun hle => ?_) hj
        have hge : ∀ m j, j ≤ searchRow r bits m j := by
          intro m
          induction m with
          | zero => exact fun j => Nat.le_refl j
          | succ m ihm =>
            intro j
            rw [searchRow]
            split
            · exact Nat.le_refl j
            · exact Nat.le_of_succ_le (ihm (j + 1))
        exact absurd (hge m (j + 1)) (by omega)
      · exact ih hlt (by omega) (by omega)

theorem searchRow_first {bits m j i : ℕ} (hji : j ≤ i) (hi : i < searchRow r bits m j) :
    r i < bits := by
  induction m generalizing j with
  | zero => exact absurd hi (Nat.not_lt.2 hji)
  | succ m ih =>
    rw [searchRow] at hi
    split at hi <;> rename_i hj
    · exact absurd hi (Nat.not_lt.2 hji)
    · rcases Nat.eq_or_lt_of_le hji with rfl | hlt
      · exact Nat.not_le.1 hj
      · exact ih hlt hi

/-- The entry at which the loop stops is large enough, unless it has come to the end. -/
theorem le_searchRow {bits m j : ℕ} (h : searchRow r bits m j < j + m) :
    bits ≤ r (searchRow r bits m j) := by
  induction m generalizing j with
  | zero => exact absurd h (Nat.lt_irrefl j)
  | succ m ih =>
    rw [searchRow] at h ⊢
    split <;> rename_i hj
    · exact hj
    · rw [if_neg hj] at h
      exact ih (by omega)

theorem RowsGrow.tbsVect (h : T.RowsGrow) {info : UserTxParams B}
    (hr : T.tbsVect info cw dir = .ok r) : ∀ i j, i ≤ j → j < 110 → r i ≤ r j := by
  obtain ⟨layers, -, hr⟩ := bind_eq_ok.1 hr
  obtain ⟨cqi, -, hr⟩ := bind_eq_ok.1 hr
  dsimp only [row] at hr
  split_ifs at hr
  all_goals
    cases hr
    exact (h _ _ _).2

theorem tbsVect_lt {info : UserTxParams B} (hr : T.tbsVect info cw dir = .ok r) (j : ℕ) :
    r j < 4294967296 := by
  obtain ⟨layers, -, hr⟩ := bind_eq_ok.1 hr
  obtain ⟨cqi, -, hr⟩ := bind_eq_ok.1 hr
  dsimp only [row] at hr
  split_ifs at hr
  all_goals
    cases hr
    exact T.itbs2tbs_lt _ _ _ j

/-- What the computations return for a UE with a channel. -/
theorem computeReqRbs_eq (hset : (computeTxParams id dir).isSet = true)
    (hr : T.tbsVect (computeTxParams id dir) cw dir = .ok r) (hb : bytes ≠ 0) :
    T.computeReqRbs computeTxParams id b cw bytes dir =
      .ok (searchRow r (u32 (bytes * 8)) 110 0 + 1) := by
  rw [computeReqRbs, if_neg hb]
  dsimp only
  rw [if_pos hset, hr]
  rfl

theorem computeBytesOnNRbs_eq {cqi : ℕ} (hset : (computeTxParams id dir).isSet = true)
    (hcqi : (computeTxParams id dir).cqiVector[cw]? = some cqi) (hpos : 0 < cqi)
    (hr : T.tbsVect (computeTxParams id dir) cw dir = .ok r) (hn : 1 ≤ n) (hn' : n ≤ 110) :
    T.computeBytesOnNRbs computeTxParams id b cw n dir = .ok (r (n - 1) / 8) := by
  have hbits : T.computeBitsOnNRbs computeTxParams id b cw n dir = .ok (r (n - 1)) := by
    rw [computeBitsOnNRbs, if_neg (Nat.not_lt.mpr hn'), if_neg (Nat.ne_of_gt hn)]
    dsimp only
    have hat : vectorAt (computeTxParams id dir).cqiVector cw = .ok cqi := by
      rw [vectorAt, hcqi]
      rfl
    rw [if_pos hset, hat]
    show (if cqi = 0 then _ else _) = _
    rw [if_neg (Nat.ne_of_gt hpos), hr]
    rfl
  rw [computeBytesOnNRbs, hbits]
  rfl

/-- **The blocks for some bytes are at most `n`** iff `n` blocks hold the bits, modulo `2 ^ 32`. -/
theorem searchRow_lt_iff (hr : ∀ i j, i ≤ j → j < 110 → r i ≤ r j) (hn : 1 ≤ n) (hn' : n ≤ 110)
    (bits : ℕ) : searchRow r bits 110 0 + 1 ≤ n ↔ bits ≤ r (n - 1) := by
  have hle : searchRow r bits 110 0 ≤ n - 1 ↔ bits ≤ r (n - 1) :=
    searchRow_le_iff hr (Nat.zero_le _) (by omega) (Nat.le_refl _)
  rw [← hle]
  omega

variable (T computeTxParams) in
/-- The two computations are inverse to each other for these bytes: the blocks they need are at
most `n` iff `n` blocks hold them. -/
def Inverse (id : MacNodeId) (b : Band) (cw bytes : ℕ) (dir : FlowDirection) : Prop :=
  ∀ n, 1 ≤ n → n ≤ 110 → ∃ blocks held,
    T.computeReqRbs computeTxParams id b cw bytes dir = .ok blocks ∧
      T.computeBytesOnNRbs computeTxParams id b cw n dir = .ok held ∧
      (blocks ≤ n ↔ bytes ≤ held)

theorem inverse_iff (h : T.RowsGrow) {cqi : ℕ} (hset : (computeTxParams id dir).isSet = true)
    (hcqi : (computeTxParams id dir).cqiVector[cw]? = some cqi) (hpos : 0 < cqi)
    (hr : T.tbsVect (computeTxParams id dir) cw dir = .ok r) (hb : 0 < bytes) :
    T.Inverse computeTxParams id b cw bytes dir ↔
      bytes < 536870912 ∨ r 109 < u32 (bytes * 8) := by
  have hmono := h.tbsVect hr
  have hlt := tbsVect_lt hr
  have hreq := computeReqRbs_eq (b := b) hset hr (Nat.ne_of_gt hb)
  have hheld : ∀ n, 1 ≤ n → n ≤ 110 →
      T.computeBytesOnNRbs computeTxParams id b cw n dir = .ok (r (n - 1) / 8) :=
    fun n hn hn' => computeBytesOnNRbs_eq hset hcqi hpos hr hn hn'
  have hdiv : ∀ n, bytes ≤ r n / 8 ↔ bytes * 8 ≤ r n := fun n => Nat.le_div_iff_mul_le (by decide)
  constructor
  · intro hinv
    obtain ⟨blocks, held, hblocks, hheld', hiff⟩ := hinv 110 (by decide) (Nat.le_refl _)
    rw [hreq, Except.ok.injEq] at hblocks
    rw [hheld 110 (by decide) (Nat.le_refl _), Except.ok.injEq] at hheld'
    rw [← hblocks, ← hheld', searchRow_lt_iff hmono (by decide) (Nat.le_refl _), hdiv] at hiff
    have hlast := hlt (110 - 1)
    by_contra hwrap
    rw [not_or] at hwrap
    have hle := hiff.1 (Nat.not_lt.mp hwrap.2)
    omega
  · intro hcase n hn hn'
    refine ⟨_, _, hreq, hheld n hn hn', ?_⟩
    rw [searchRow_lt_iff hmono hn hn', hdiv]
    rcases hcase with hsmall | hwrap
    · rw [u32_of_lt (by omega)]
    · have hle := hmono (n - 1) 109 (by omega) (by decide)
      have hlast := hlt 109
      have hwrapped : u32 (bytes * 8) ≤ bytes * 8 := Nat.mod_le _ _
      constructor <;> intro hbits <;> omega

end TbsTables

namespace SchedulerEnv

/-- The scheduler with the AMC.  An exception of the AMC ends the TTI; here a band for which it
throws holds nothing. -/
def withAmc (E : SchedulerEnv) (T : TbsTables) : SchedulerEnv :=
  { E with
    computeBytesOnNRbs := fun id b cw blocks dir =>
      (T.computeBytesOnNRbs E.computeTxParams id b cw blocks dir).toOption.getD 0
    computeReqRbs := fun id b cw bytes dir =>
      (T.computeReqRbs E.computeTxParams id b cw bytes dir).toOption.getD 0 }

/-- What fits into a number of blocks needs at most these blocks. -/
def BlocksFit (E : SchedulerEnv) : Prop :=
  ∀ id b cw blocks bytes dir, 0 < bytes → bytes ≤ E.computeBytesOnNRbs id b cw blocks dir →
    E.computeReqRbs id b cw bytes dir ≤ blocks

/-- For bytes that fit into a number of blocks, the AMC looks into one row. -/
theorem withAmc_row (E : SchedulerEnv) (T : TbsTables) {id : MacNodeId} {b : Band}
    {cw blocks bytes : ℕ} {dir : FlowDirection} (hpos : 0 < bytes)
    (hle : bytes ≤ (E.withAmc T).computeBytesOnNRbs id b cw blocks dir) :
    ∃ r, (E.withAmc T).computeReqRbs id b cw bytes dir =
        TbsTables.searchRow r (bytes * 8) 110 0 + 1 ∧
      (1 ≤ blocks ∧ blocks ≤ 110 ∧ bytes * 8 ≤ r (blocks - 1)) ∧
      ∀ n, 1 ≤ n → n ≤ 110 →
        (E.withAmc T).computeBytesOnNRbs id b cw n dir = r (n - 1) / 8 := by
  dsimp only [withAmc] at hle ⊢
  cases hheld : T.computeBytesOnNRbs E.computeTxParams id b cw blocks dir with
  | error e => rw [hheld] at hle; exact absurd hle (Nat.not_le.mpr hpos)
  | ok held =>
    rw [hheld] at hle
    change bytes ≤ held at hle
    obtain ⟨bits, hbits, hdiv⟩ := bind_eq_ok.1 hheld
    cases hdiv
    have hbits8 : bytes * 8 ≤ bits := (Nat.le_div_iff_mul_le (by decide)).1 hle
    dsimp only [TbsTables.computeBitsOnNRbs] at hbits
    split_ifs at hbits with hmany hzero hset
    · cases hbits; omega
    · obtain ⟨cqi, hcqi, hbits⟩ := bind_eq_ok.1 hbits
      split_ifs at hbits with hnone
      · cases hbits; omega
      · obtain ⟨r, hr, hbits⟩ := bind_eq_ok.1 hbits
        cases hbits
        have hentry := TbsTables.tbsVect_lt hr (blocks - 1)
        have hcqi' : (E.computeTxParams id dir).cqiVector[cw]? = some cqi := by
          unfold TbsTables.vectorAt at hcqi
          cases hvec : (E.computeTxParams id dir).cqiVector[cw]? with
          | none => rw [hvec] at hcqi; cases hcqi
          | some x => rw [hvec] at hcqi; cases hcqi; rfl
        refine ⟨r, ?_, ⟨by omega, by omega, hbits8⟩, fun n hn hn' => ?_⟩
        · rw [TbsTables.computeReqRbs_eq hset hr (Nat.ne_of_gt hpos), u32_of_lt (by omega)]
          rfl
        · rw [TbsTables.computeBytesOnNRbs_eq hset hcqi' (Nat.pos_of_ne_zero hnone) hr hn hn']
          rfl
    · cases hbits; omega

theorem withAmc_reqRbs (E : SchedulerEnv) (T : TbsTables) {id : MacNodeId} {b : Band}
    {cw blocks bytes : ℕ} {dir : FlowDirection} (hpos : 0 < bytes)
    (hle : bytes ≤ (E.withAmc T).computeBytesOnNRbs id b cw blocks dir) :
    ∃ j < blocks, (E.withAmc T).computeReqRbs id b cw bytes dir = j + 1 := by
  obtain ⟨r, hreq, ⟨hone, hmax, hbits⟩, -⟩ := E.withAmc_row T hpos hle
  have hstop := TbsTables.searchRow_le (m := 110) hbits (Nat.zero_le _) (by omega)
  exact ⟨_, by omega, hreq⟩

/-- **What the AMC tells the scheduler fits together.** -/
theorem withAmc_fits (E : SchedulerEnv) (T : TbsTables) : (E.withAmc T).BlocksFit := by
  intro id b cw blocks bytes dir hpos hle
  obtain ⟨j, hj, hreq⟩ := E.withAmc_reqRbs T hpos hle
  rw [hreq]
  exact hj

end SchedulerEnv

end V2nLte
