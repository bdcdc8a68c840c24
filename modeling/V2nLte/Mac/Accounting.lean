import V2nLte.Mac.Allocator
import V2nLte.Machine.Basic

/-!
# The accounts of the allocator over a TTI

A block that is given to a UE is counted four times: for the antenna, for the band, for the UE on
the band and for the UE.  `Inv` says how the first three of these counts hang together in a run of
the operations, and that what `computeTotalRbs` adds up is the blocks that are left.

It adds up `int`s, but the entries are `unsigned int`s: with `2 ^ 31` blocks or more the space
seems to be negative (`negative_space`).  Here the sums and comparisons are those of the 32-bit
numbers; below `2 ^ 31` they are those of `LteAllocationModule` (`addBlocksInt_eq`,
`computeTotalRbsInt_eq`).
-/

namespace V2nLte

open Finset

namespace LteAllocationModule

variable (a : LteAllocationModule)

/-- The entries of a matrix, in the order of the two loops of `computeTotalRbs`. -/
def entries (m : Plane → ℕ → ℕ) : List ℕ :=
  (List.range (a.antennas .MAIN_PLANE)).map (m .MAIN_PLANE) ++
    (List.range (a.antennas .MU_MIMO_PLANE)).map (m .MU_MIMO_PLANE)

/-- An `int` to which `unsigned int`s are added. -/
def sumInt (n : ℤ) (xs : List ℕ) : ℤ := xs.foldl (fun n x => i32 (ofInt32 n + x)) n

/-- `computeTotalRbs` on 32-bit numbers. -/
def computeTotalRbsInt : Except SchedulerError ℕ :=
  let resourceBlocks := sumInt 0 (a.entries a.totalRbsMatrix)
  let allocatedBlocks := sumInt 0 (a.entries a.allocatedRbsMatrix)
  let availableBlocks := resourceBlocks - allocatedBlocks
  if availableBlocks < 0 then .error .negativeSpace else .ok availableBlocks.toNat

/-- `addBlocks` on 32-bit numbers, for an antenna of the plane of the UE. -/
def addBlocksInt (antenna : ℕ) (band : Band) (nodeId : MacNodeId) (blocks bytes : ℕ) :
    Except SchedulerError (LteAllocationModule × Bool) :=
  if a.bands ≤ band then .error (.invalidBand band)
  else if i32 (a.availableBlocks nodeId antenna band) - i32 blocks < 0 ∨ bytes = 0 then
    .ok (a, false)
  else .ok (a.noteBlocks antenna band nodeId blocks bytes, true)

/-- `addBlocks` for an antenna; `none` is undefined behaviour: the plane has no such antenna. -/
def addBlocksOn (antenna : ℕ) (band : Band) (nodeId : MacNodeId) (blocks bytes : ℕ) :
    Option (Except SchedulerError (LteAllocationModule × Bool)) :=
  if band < a.bands ∧ a.antennas (a.getOFDMPlane nodeId) ≤ antenna then none
  else some (a.addBlocksInt antenna band nodeId blocks bytes)

/-- `addBlocks` for the antennas of a UE: the first one that can satisfy the request. -/
def addBlocksAny (band : Band) (nodeId : MacNodeId) (blocks bytes : ℕ) :
    LteAllocationModule → List ℕ → Option (Except SchedulerError (LteAllocationModule × Bool))
  | a, [] => some (.ok (a, false))
  | a, antenna :: antennas =>
    match a.addBlocksOn antenna band nodeId blocks bytes with
    | some (.ok (a', false)) => addBlocksAny band nodeId blocks bytes a' antennas
    | r => r

end LteAllocationModule

/-- The allocator in a TTI. -/
structure AllocatorRun where
  /-- The books. -/
  allocator : LteAllocationModule
  /-- The keys of `allocatedRbsUe_`. -/
  ues : Finset MacNodeId

namespace AllocatorRun

/-- The operations. -/
inductive Event where
  | initAndReset (resourceBlocks bands : ℕ) (hbands : 0 < bands)
  | setRemoteAntenna (plane : Plane) (antenna : ℕ)
  | configureMuMimoPeering (nodeId peer : MacNodeId)
  | addBlocks (band : Band) (nodeId : MacNodeId) (blocks bytes : ℕ) (hblocks : blocks < 2147483648)
  | addBlocksOn (antenna : ℕ) (band : Band) (nodeId : MacNodeId) (blocks bytes : ℕ)
    (hblocks : blocks < 2147483648)
  | removeBlocks (antenna : ℕ) (band : Band) (nodeId : MacNodeId)

/-- What an operation returns. -/
inductive Answer where
  | done
  | bool (b : Bool)
  | blocks (n : ℕ)
  | threw (e : SchedulerError)
  deriving DecidableEq

variable (s : AllocatorRun)

/-- The state and the answer after a request. -/
def answer (ues : Finset MacNodeId) :
    Except SchedulerError (LteAllocationModule × Bool) → AllocatorRun × List Answer
  | .error e => ({ s with ues := ues }, [.threw e])
  | .ok (a, b) => (⟨a, ues⟩, [.bool b])

/-- One operation; `none` is undefined behaviour. -/
def handle : Event → Option (AllocatorRun × List Answer)
  | .initAndReset resourceBlocks bands _ => some (⟨.initAndReset resourceBlocks bands, ∅⟩, [.done])
  | .setRemoteAntenna plane antenna =>
    -- `at` throws if there is no such plane
    if s.allocator.antennas plane = 0 then some (s, [.threw .outOfRange])
    else some ({ s with allocator := s.allocator.setRemoteAntenna plane antenna }, [.done])
  | .configureMuMimoPeering nodeId peer =>
    let (a, b) := s.allocator.configureMuMimoPeering nodeId peer
    let ues := if (s.allocator.allocatedRbsUe nodeId).muMimoEnabled then insert nodeId s.ues
      else insert peer (insert nodeId s.ues)
    some (⟨a, ues⟩, [.bool b])
  | .addBlocks band nodeId blocks bytes _ =>
    if nodeId ∈ s.ues then
      (LteAllocationModule.addBlocksAny band nodeId blocks bytes s.allocator
        (s.allocator.allocatedRbsUe nodeId).availableAntennaSet).map (s.answer s.ues)
    else some (s, [.threw .outOfRange])
  | .addBlocksOn antenna band nodeId blocks bytes _ =>
    (s.allocator.addBlocksOn antenna band nodeId blocks bytes).map
      (s.answer (if band < s.allocator.bands then insert nodeId s.ues else s.ues))
  | .removeBlocks antenna band nodeId =>
    if s.allocator.bands ≤ band then some (s, [.blocks 0])
    else if s.allocator.antennas (s.allocator.getOFDMPlane nodeId) ≤ antenna then none
    else
      let (a, n) := s.allocator.removeBlocks antenna band nodeId
      some (⟨a, insert nodeId s.ues⟩, [.blocks n])

/-- The allocator as a machine. -/
def machine : Machine AllocatorRun Event Answer where
  step := handle

/-- The allocator at the beginning of a TTI. -/
def reset (resourceBlocks bands : ℕ) : AllocatorRun := ⟨.initAndReset resourceBlocks bands, ∅⟩

/-! ### The accounts -/

/-- The counts fit together, and `computeTotalRbs` returns what is left. -/
structure Accounts : Prop where
  /-- The count of an antenna is the sum over its bands. -/
  antenna : ∀ p j, j < s.allocator.antennas p → s.allocator.allocatedRbsMatrix p j =
    ∑ b ∈ range s.allocator.bands, (s.allocator.allocatedRbsPerBand p j b).allocated
  /-- The count of a band is the sum over the UEs, and at most the share of the band. -/
  band : ∀ p j b, j < s.allocator.antennas p → b < s.allocator.bands →
    (s.allocator.allocatedRbsPerBand p j b).allocated =
        ∑ n ∈ s.ues, (s.allocator.allocatedRbsPerBand p j b).ueAllocatedRbsMap n ∧
      (s.allocator.allocatedRbsPerBand p j b).allocated ≤
        s.allocator.totalRbsMatrix p j / s.allocator.bands
  /-- `computeTotalRbs` returns what is left of the total. -/
  left : ∃ n, s.allocator.computeTotalRbsInt = .ok n ∧
    n + (s.allocator.entries s.allocator.allocatedRbsMatrix).sum =
      (s.allocator.entries s.allocator.totalRbsMatrix).sum

/-- A request that is refused or throws leaves all the counts as they are. -/
def Refusal (e : Event) (s' : AllocatorRun) (os : List Answer) : Prop :=
  match e with
  | .addBlocks .. | .addBlocksOn .. => os ≠ [.bool true] → s'.allocator = s.allocator
  | _ => True

/-- The blocks of all the antennas if `plane` has at least `n` of them. -/
def blocksWith (plane : Plane) (n : ℕ) : ℕ :=
  s.allocator.totalRbsMatrix .MAIN_PLANE MACRO *
    match plane with
    | .MAIN_PLANE => max (s.allocator.antennas .MAIN_PLANE) n + s.allocator.antennas .MU_MIMO_PLANE
    | .MU_MIMO_PLANE =>
      s.allocator.antennas .MAIN_PLANE + max (s.allocator.antennas .MU_MIMO_PLANE) n

/-- There are fewer than `2 ^ 31` blocks, with those of the antennas that the operation adds. -/
def Event.Ok (s : AllocatorRun) : Event → Prop
  | .initAndReset resourceBlocks _ _ => resourceBlocks < 2147483648
  | .setRemoteAntenna plane antenna =>
    s.allocator.antennas plane ≠ 0 → s.blocksWith plane (antenna + 1) < 2147483648
  | .configureMuMimoPeering _ _ => s.blocksWith .MU_MIMO_PLANE (MACRO + 1) < 2147483648
  | _ => True

instance (s : AllocatorRun) : (e : Event) → Decidable (e.Ok s)
  | .initAndReset .. => inferInstanceAs (Decidable (_ < _))
  | .setRemoteAntenna .. => inferInstanceAs (Decidable (_ → _))
  | .configureMuMimoPeering .. => inferInstanceAs (Decidable (_ < _))
  | .addBlocks .. | .addBlocksOn .. | .removeBlocks .. => inferInstanceAs (Decidable True)

end AllocatorRun

/-! ### Below `2 ^ 31` blocks -/

namespace LteAllocationModule

variable {a : LteAllocationModule} {plane p : Plane} {antenna j : ℕ} {band : Band}
  {nodeId peer : MacNodeId} {blocks bytes n : ℕ}

/-- Numbers whose sum is an `int` are added as numbers. -/
theorem sumInt_eq {xs : List ℕ} {n : ℕ} (h : n + xs.sum < 2147483648) :
    sumInt n xs = n + xs.sum := by
  induction xs generalizing n with
  | nil => simp [sumInt]
  | cons x xs ih =>
    rw [List.sum_cons] at h ⊢
    have hx : i32 (ofInt32 n + x) = ((n + x : ℕ) : ℤ) := by
      have hn : ofInt32 n = n := by unfold ofInt32; omega
      rw [hn, i32_of_lt (by omega)]
    have hcons : sumInt n (x :: xs) = sumInt ((n + x : ℕ) : ℤ) xs := by
      rw [← hx]
      rfl
    rw [hcons, ih (by omega)]
    omega

/-- The sum of the entries of a matrix. -/
theorem sum_entries (a : LteAllocationModule) (m : Plane → ℕ → ℕ) : (a.entries m).sum =
    ∑ j ∈ range (a.antennas .MAIN_PLANE), m .MAIN_PLANE j +
      ∑ j ∈ range (a.antennas .MU_MIMO_PLANE), m .MU_MIMO_PLANE j := by
  rw [entries, List.sum_append]
  rfl

theorem Wf.sum_allocated_le (h : a.Wf) :
    (a.entries a.allocatedRbsMatrix).sum ≤ (a.entries a.totalRbsMatrix).sum := by
  rw [sum_entries, sum_entries]
  refine Nat.add_le_add ?_ ?_
  all_goals exact sum_le_sum fun j hj => h.allocated_le (mem_range.1 hj)

/-- **The sum of `int`s is the number of blocks that are left.** -/
theorem Wf.computeTotalRbsInt_eq (h : a.Wf)
    (hlt : (a.entries a.totalRbsMatrix).sum < 2147483648) :
    ∃ n, a.computeTotalRbsInt = .ok n ∧
      n + (a.entries a.allocatedRbsMatrix).sum = (a.entries a.totalRbsMatrix).sum := by
  have hle := h.sum_allocated_le
  have htotal : sumInt 0 (a.entries a.totalRbsMatrix) = (a.entries a.totalRbsMatrix).sum := by
    have hsum : 0 + (a.entries a.totalRbsMatrix).sum < 2147483648 := by omega
    simpa using sumInt_eq hsum
  have halloc : sumInt 0 (a.entries a.allocatedRbsMatrix) =
      (a.entries a.allocatedRbsMatrix).sum := by
    have hsum : 0 + (a.entries a.allocatedRbsMatrix).sum < 2147483648 := by omega
    simpa using sumInt_eq hsum
  refine ⟨(a.entries a.totalRbsMatrix).sum - (a.entries a.allocatedRbsMatrix).sum, ?_, by omega⟩
  rw [computeTotalRbsInt, htotal, halloc, if_neg (by omega)]
  exact congrArg _ (by omega)

/-- The comparison of `int`s is that of the numbers. -/
theorem addBlocksInt_eq (havail : a.availableBlocks nodeId antenna band < 2147483648)
    (hblocks : blocks < 2147483648) :
    a.addBlocksInt antenna band nodeId blocks bytes =
      a.addBlocks antenna band nodeId blocks bytes := by
  have hcmp : i32 (a.availableBlocks nodeId antenna band) - i32 blocks < 0 ↔
      a.availableBlocks nodeId antenna band < blocks := by
    rw [i32_of_lt havail, i32_of_lt hblocks]
    omega
  unfold addBlocksInt addBlocks
  simp only [hcmp]

theorem addBlocksOn_eq_some {r : Except SchedulerError (LteAllocationModule × Bool)} :
    a.addBlocksOn antenna band nodeId blocks bytes = some r ↔
      (band < a.bands → antenna < a.antennas (a.getOFDMPlane nodeId)) ∧
        a.addBlocksInt antenna band nodeId blocks bytes = r := by
  unfold addBlocksOn
  split <;> rename_i h
  · exact ⟨fun hr => (nomatch hr), fun hr => absurd (hr.1 h.1) (Nat.not_lt.2 h.2)⟩
  · rw [Option.some.injEq]
    exact (and_iff_right fun hband => Nat.lt_of_not_le fun hle => h ⟨hband, hle⟩).symm

theorem addBlocksAny_single : addBlocksAny band nodeId blocks bytes a [antenna] =
    a.addBlocksOn antenna band nodeId blocks bytes := by
  rw [addBlocksAny]
  split <;> rename_i h
  · rw [h, addBlocksAny]
  · rfl

theorem configureOFDMplane_eq : a.configureOFDMplane plane =
    a.addAntennas plane (MACRO + 1) (a.totalRbsMatrix .MAIN_PLANE MACRO) := by
  unfold configureOFDMplane
  split <;> rename_i h
  · rfl
  · exact (addAntennas_of_le (Nat.pos_of_ne_zero h)).symm

/-- Two users that have the `MACRO` antenna only are paired on the `MACRO` antenna of the mirror
plane. -/
theorem configureMuMimoPeering_eq (hant : (a.allocatedRbsUe nodeId).availableAntennaSet = [MACRO])
    (hnot : ¬((a.allocatedRbsUe nodeId).muMimoEnabled ∨ (a.allocatedRbsUe peer).muMimoEnabled)) :
    a.configureMuMimoPeering nodeId peer =
      ((a.addAntennas .MU_MIMO_PLANE (MACRO + 1)
        (a.totalRbsMatrix .MAIN_PLANE MACRO)).pairUsers nodeId peer, true) := by
  have hpaired : (a.pairUsers nodeId peer).configureOFDMplane .MU_MIMO_PLANE =
      (a.addAntennas .MU_MIMO_PLANE (MACRO + 1)
        (a.totalRbsMatrix .MAIN_PLANE MACRO)).pairUsers nodeId peer := by
    rw [configureOFDMplane_eq]
    rfl
  simp only [configureMuMimoPeering, if_neg hnot, hant, hpaired, List.foldl_cons, List.foldl_nil,
    setRemoteAntenna]
  rw [addAntennas_of_le]
  simp [pairUsers, addAntennas]

end LteAllocationModule

namespace AllocatorRun

variable {s s' : AllocatorRun} {plane p : Plane} {antenna j : ℕ} {band : Band}
  {nodeId peer : MacNodeId} {blocks bytes n : ℕ}

/-! ### The invariant -/

/-- The accounts, with what the operations need. -/
structure Inv (s : AllocatorRun) : Prop extends s.allocator.Wf where
  bands_pos : 0 < s.allocator.bands
  perUe : ∀ p j b, (s.allocator.allocatedRbsPerBand p j b).allocated =
    ∑ n ∈ s.ues, (s.allocator.allocatedRbsPerBand p j b).ueAllocatedRbsMap n
  known : ∀ p j b n, n ∉ s.ues → (s.allocator.allocatedRbsPerBand p j b).ueAllocatedRbsMap n = 0
  /-- All the antennas have the same blocks. -/
  same : ∀ p j, j < s.allocator.antennas p →
    s.allocator.totalRbsMatrix p j = s.allocator.totalRbsMatrix .MAIN_PLANE MACRO
  single : ∀ n, (s.allocator.allocatedRbsUe n).availableAntennaSet = [MACRO]
  small : s.blocksWith .MAIN_PLANE 0 < 2147483648

theorem inv_reset {resourceBlocks bands : ℕ} (hbands : 0 < bands)
    (hsmall : resourceBlocks < 2147483648) : Inv (reset resourceBlocks bands) where
  toWf := LteAllocationModule.wf_initAndReset resourceBlocks bands
  bands_pos := hbands
  perUe _ _ _ := rfl
  known _ _ _ _ _ := rfl
  same p j hj := by
    cases p with
    | MAIN_PLANE =>
      obtain rfl : j = MACRO := Nat.lt_one_iff.1 hj
      rfl
    | MU_MIMO_PLANE => exact absurd hj (Nat.not_lt_zero j)
  single _ := rfl
  small := by simpa [blocksWith, reset, LteAllocationModule.initAndReset, MACRO] using hsmall

theorem Inv.sum_total (h : Inv s) :
    (s.allocator.entries s.allocator.totalRbsMatrix).sum = s.blocksWith .MAIN_PLANE 0 := by
  have hplane : ∀ p, ∑ j ∈ range (s.allocator.antennas p), s.allocator.totalRbsMatrix p j =
      s.allocator.antennas p * s.allocator.totalRbsMatrix .MAIN_PLANE MACRO := by
    intro p
    rw [sum_congr rfl fun j hj => h.same p j (mem_range.1 hj), sum_const, card_range, smul_eq_mul]
  rw [LteAllocationModule.sum_entries, hplane, hplane, blocksWith, ← Nat.add_mul, Nat.mul_comm]
  simp

theorem Inv.total_lt (h : Inv s) (hj : j < s.allocator.antennas p) :
    s.allocator.totalRbsMatrix p j < 2147483648 := by
  have hsmall := h.small
  have hmain := h.main
  rw [blocksWith] at hsmall
  rw [h.same p j hj]
  have hone : 1 ≤ max (s.allocator.antennas .MAIN_PLANE) 0 +
      s.allocator.antennas .MU_MIMO_PLANE := by omega
  exact Nat.lt_of_le_of_lt (Nat.le_mul_of_pos_right _ hone) hsmall

theorem Inv.accounts (h : Inv s) : s.Accounts where
  antenna := h.allocated
  band p j b hj hb := ⟨h.perUe p j b, h.share p j b hj hb⟩
  left := h.computeTotalRbsInt_eq (h.sum_total ▸ h.small)

/-- Another UE is known. -/
theorem Inv.insert (h : Inv s) (nodeId : MacNodeId) :
    Inv ⟨s.allocator, Insert.insert nodeId s.ues⟩ where
  toWf := h.toWf
  bands_pos := h.bands_pos
  perUe p j b := by
    rw [sum_insert_of_eq_zero_if_notMem (h.known p j b nodeId)]
    exact h.perUe p j b
  known p j b n hn := h.known p j b n fun hs => hn (mem_insert_of_mem hs)
  same := h.same
  single := h.single
  small := h.small

/-- New antennas with the blocks of the others. -/
theorem Inv.addAntennas (h : Inv s) (hsmall : s.blocksWith plane n < 2147483648) :
    Inv ⟨s.allocator.addAntennas plane n (s.allocator.totalRbsMatrix .MAIN_PLANE MACRO),
      s.ues⟩ := by
  have hmain : ∀ m, (s.allocator.addAntennas plane n m).totalRbsMatrix .MAIN_PLANE MACRO =
      s.allocator.totalRbsMatrix .MAIN_PLANE MACRO :=
    fun m => (LteAllocationModule.addAntennas_old plane n m h.main).1
  refine ⟨h.toWf.addAntennas, h.bands_pos, fun p j b => ?_, fun p j b m hm => ?_,
    fun p j hj => ?_, h.single, ?_⟩
  · simp only [LteAllocationModule.addAntennas]
    split
    · simp
    · exact h.perUe p j b
  · simp only [LteAllocationModule.addAntennas]
    split
    · rfl
    · exact h.known p j b m hm
  · rw [hmain]
    by_cases hold : j < s.allocator.antennas p
    · rw [(LteAllocationModule.addAntennas_old plane n _ hold).1]
      exact h.same p j hold
    · exact (LteAllocationModule.addAntennas_new hj hold).1
  · unfold blocksWith at hsmall ⊢
    rw [hmain]
    cases plane <;> simpa [LteAllocationModule.addAntennas] using hsmall

theorem Inv.setRemoteAntenna (h : Inv s) (hplane : s.allocator.antennas plane ≠ 0)
    (hsmall : s.blocksWith plane (antenna + 1) < 2147483648) :
    Inv ⟨s.allocator.setRemoteAntenna plane antenna, s.ues⟩ := by
  rw [LteAllocationModule.setRemoteAntenna, h.same plane MACRO (Nat.pos_of_ne_zero hplane)]
  exact h.addAntennas hsmall

theorem Inv.configureMuMimoPeering (h : Inv s) (nodeId peer : MacNodeId)
    (hsmall : s.blocksWith .MU_MIMO_PLANE (MACRO + 1) < 2147483648) :
    Inv ⟨(s.allocator.configureMuMimoPeering nodeId peer).1, s.ues⟩ := by
  by_cases hnot : (s.allocator.allocatedRbsUe nodeId).muMimoEnabled ∨
      (s.allocator.allocatedRbsUe peer).muMimoEnabled
  · rw [LteAllocationModule.configureMuMimoPeering, if_pos hnot]
    exact h
  · have hwf := (h.toWf.configureMuMimoPeering nodeId peer).1
    rw [LteAllocationModule.configureMuMimoPeering_eq (h.single nodeId) hnot] at hwf ⊢
    have hadd := h.addAntennas hsmall
    refine ⟨hwf, hadd.bands_pos, hadd.perUe, hadd.known, hadd.same, fun n => ?_, hadd.small⟩
    have hsingle := h.single
    simp only [LteAllocationModule.pairUsers, LteAllocationModule.addAntennas,
      Function.update_apply]
    split_ifs <;> simp only [hsingle]

/-! ### Requests -/

/-- What a request needs of the antenna it is for. -/
theorem Inv.availableBlocks_lt (h : Inv s)
    (hant : antenna < s.allocator.antennas (s.allocator.getOFDMPlane nodeId)) :
    s.allocator.availableBlocks nodeId antenna band < 2147483648 := by
  have hlt := h.total_lt hant
  have hdiv := Nat.div_le_self
    (s.allocator.totalRbsMatrix (s.allocator.getOFDMPlane nodeId) antenna)
    s.allocator.bands
  unfold LteAllocationModule.availableBlocks
  dsimp only
  omega

theorem Inv.noteBlocks (h : Inv s) (hue : nodeId ∈ s.ues) (hband : band < s.allocator.bands)
    (hant : antenna < s.allocator.antennas (s.allocator.getOFDMPlane nodeId))
    (hblocks : blocks ≤ s.allocator.availableBlocks nodeId antenna band) :
    Inv ⟨s.allocator.noteBlocks antenna band nodeId blocks bytes, s.ues⟩ := by
  refine ⟨h.toWf.noteBlocks hband hant hblocks, h.bands_pos, fun p j b => ?_, fun p j b n hn => ?_,
    h.same, fun n => ?_, h.small⟩
  · simp only [LteAllocationModule.noteBlocks]
    split
    · simp only [AllocatedRbsPerBandInfo.add]
      have hsum := sum_update hue
        (s.allocator.allocatedRbsPerBand p j b).ueAllocatedRbsMap
        ((s.allocator.allocatedRbsPerBand p j b).ueAllocatedRbsMap nodeId + blocks)
      rw [h.perUe p j b]
      omega
    · exact h.perUe p j b
  · simp only [LteAllocationModule.noteBlocks]
    split
    · simp only [AllocatedRbsPerBandInfo.add]
      have hne : n ≠ nodeId := fun heq => hn (heq ▸ hue)
      rw [Function.update_of_ne hne]
      exact h.known p j b n hn
    · exact h.known p j b n hn
  · have hsingle := h.single
    simp only [LteAllocationModule.noteBlocks, Function.update_apply]
    split_ifs <;> simp only [AllocatedRbsPerUeInfo.add, hsingle]

/-- **A request** is noted, or changes nothing. -/
theorem Inv.addBlocksInt (h : Inv s) (hue : band < s.allocator.bands → nodeId ∈ s.ues)
    (hant : band < s.allocator.bands →
      antenna < s.allocator.antennas (s.allocator.getOFDMPlane nodeId))
    (hblocks : blocks < 2147483648) {a : LteAllocationModule} {b : Bool}
    (hr : s.allocator.addBlocksInt antenna band nodeId blocks bytes = .ok (a, b)) :
    Inv ⟨a, s.ues⟩ ∧ (b = false → a = s.allocator) := by
  by_cases hband : s.allocator.bands ≤ band
  · rw [LteAllocationModule.addBlocksInt, if_pos hband] at hr
    cases hr
  · have hband' := Nat.lt_of_not_le hband
    have hant' := hant hband'
    rw [LteAllocationModule.addBlocksInt_eq (h.availableBlocks_lt hant') hblocks,
      LteAllocationModule.addBlocks, if_neg hband] at hr
    split at hr <;> rename_i hreq
    · cases hr
      exact ⟨h, fun _ => rfl⟩
    · cases hr
      exact ⟨h.noteBlocks (hue hband') hband' hant' (by omega), fun hf => nomatch hf⟩

/-! ### Taking blocks back -/

/-- The blocks of a UE on a band are among those of the band, and these among those of the
antenna. -/
theorem Inv.getBlocks_le (h : Inv s) (hue : nodeId ∈ s.ues) (hband : band < s.allocator.bands)
    (hant : antenna < s.allocator.antennas (s.allocator.getOFDMPlane nodeId)) :
    s.allocator.getBlocks antenna band nodeId ≤
        (s.allocator.allocatedRbsPerBand (s.allocator.getOFDMPlane nodeId) antenna band).allocated ∧
      (s.allocator.allocatedRbsPerBand (s.allocator.getOFDMPlane nodeId) antenna band).allocated ≤
        s.allocator.allocatedRbsMatrix (s.allocator.getOFDMPlane nodeId) antenna ∧
      s.allocator.allocatedRbsMatrix (s.allocator.getOFDMPlane nodeId) antenna < 2147483648 := by
  refine ⟨?_, ?_, Nat.lt_of_le_of_lt (h.allocated_le hant) (h.total_lt hant)⟩
  · rw [h.perUe]
    exact single_le_sum (f := fun n => (s.allocator.allocatedRbsPerBand
      (s.allocator.getOFDMPlane nodeId) antenna band).ueAllocatedRbsMap n)
      (fun _ _ => Nat.zero_le _) hue
  · rw [h.allocated _ _ hant]
    exact single_le_sum (f := fun b =>
      (s.allocator.allocatedRbsPerBand (s.allocator.getOFDMPlane nodeId) antenna b).allocated)
      (fun _ _ => Nat.zero_le _) (mem_range.2 hband)

theorem Inv.drainBlocks (h : Inv s) (hue : nodeId ∈ s.ues) (hband : band < s.allocator.bands)
    (hant : antenna < s.allocator.antennas (s.allocator.getOFDMPlane nodeId)) :
    Inv ⟨s.allocator.drainBlocks antenna band nodeId
      (s.allocator.getBlocks antenna band nodeId), s.ues⟩ := by
  obtain ⟨hle, hle', hlt⟩ := h.getBlocks_le hue hband hant
  refine ⟨h.toWf.drainBlocks hband hle hle' (by omega), h.bands_pos, fun p j b => ?_,
    fun p j b n hn => ?_, h.same, fun n => ?_, h.small⟩
  · simp only [LteAllocationModule.drainBlocks]
    split <;> rename_i heq
    · obtain ⟨rfl, rfl, rfl⟩ := heq
      have hold := h.perUe (s.allocator.getOFDMPlane nodeId) j b
      have hsum := sum_update hue (s.allocator.allocatedRbsPerBand
        (s.allocator.getOFDMPlane nodeId) j b).ueAllocatedRbsMap 0
      simp only [AllocatedRbsPerBandInfo.drain]
      rw [sub32_of_le hle (by omega)]
      unfold LteAllocationModule.getBlocks
      omega
    · exact h.perUe p j b
  · have hne : n ≠ nodeId := fun heq => hn (heq ▸ hue)
    simp only [LteAllocationModule.drainBlocks]
    split
    · simp only [AllocatedRbsPerBandInfo.drain]
      rw [Function.update_of_ne hne]
      exact h.known p j b n hn
    · exact h.known p j b n hn
  · have hsingle := h.single
    simp only [LteAllocationModule.drainBlocks, Function.update_apply]
    split_ifs <;> simp only [AllocatedRbsPerUeInfo.drain, hsingle]

/-! ### Runs -/

theorem Inv.removeBlocks (h : Inv s) (hue : nodeId ∈ s.ues)
    (hant : antenna < s.allocator.antennas (s.allocator.getOFDMPlane nodeId)) :
    Inv ⟨(s.allocator.removeBlocks antenna band nodeId).1, s.ues⟩ := by
  unfold LteAllocationModule.removeBlocks
  split <;> rename_i hband
  · exact h
  · dsimp only
    split
    · exact h
    · exact h.drainBlocks hue (Nat.lt_of_not_le hband) hant

/-- The answer to a request. -/
theorem Inv.answer {ues : Finset MacNodeId} (h : Inv ⟨s.allocator, ues⟩) {os : List Answer}
    {r : Except SchedulerError (LteAllocationModule × Bool)}
    (hr : ∀ a b, r = .ok (a, b) → Inv ⟨a, ues⟩ ∧ (b = false → a = s.allocator))
    (hs : s.answer ues r = (s', os)) :
    Inv s' ∧ (os ≠ [.bool true] → s'.allocator = s.allocator) := by
  cases r with
  | error e =>
    cases hs
    exact ⟨h, fun _ => rfl⟩
  | ok r =>
    obtain ⟨a, b⟩ := r
    cases hs
    obtain ⟨hinv, hsame⟩ := hr a b rfl
    refine ⟨hinv, fun hb => hsame ?_⟩
    cases b with
    | false => rfl
    | true => exact absurd rfl hb

/-- **One operation** keeps the accounts, and a refused request changes nothing. -/
theorem Inv.step (h : Inv s) {e : Event} {os : List Answer} (hok : e.Ok s)
    (hst : machine.step s e = some (s', os)) : Inv s' ∧ Refusal s e s' os := by
  cases e with
  | initAndReset resourceBlocks bands hbands =>
    cases hst
    exact ⟨inv_reset hbands hok, trivial⟩
  | setRemoteAntenna plane antenna =>
    simp only [machine, handle] at hst
    split at hst <;> rename_i hplane <;> cases hst
    · exact ⟨h, trivial⟩
    · exact ⟨h.setRemoteAntenna hplane (hok hplane), trivial⟩
  | configureMuMimoPeering nodeId peer =>
    cases hst
    refine ⟨?_, trivial⟩
    have hpair := h.configureMuMimoPeering nodeId peer hok
    simp only
    split
    · exact hpair.insert nodeId
    · exact (hpair.insert nodeId).insert peer
  | addBlocks band nodeId blocks bytes hblocks =>
    -- the loop over the antennas has one to try
    simp only [machine, handle] at hst
    split at hst <;> rename_i hue
    · obtain ⟨r, hr, hst⟩ := Option.map_eq_some_iff.1 hst
      rw [h.single, LteAllocationModule.addBlocksAny_single] at hr
      obtain ⟨hant, hr⟩ := LteAllocationModule.addBlocksOn_eq_some.1 hr
      exact h.answer (fun a b hab => h.addBlocksInt (fun _ => hue) hant hblocks (hr.trans hab)) hst
    · cases hst
      exact ⟨h, fun _ => rfl⟩
  | addBlocksOn antenna band nodeId blocks bytes hblocks =>
    obtain ⟨r, hr, hst⟩ := Option.map_eq_some_iff.1 hst
    obtain ⟨hant, hr⟩ := LteAllocationModule.addBlocksOn_eq_some.1 hr
    split at hst <;> rename_i hband
    · have hins := h.insert nodeId
      exact hins.answer (fun a b hab => hins.addBlocksInt (fun _ => mem_insert_self ..) hant
        hblocks (hr.trans hab)) hst
    · exact h.answer (fun a b hab => h.addBlocksInt (fun hb => absurd hb hband) hant hblocks
        (hr.trans hab)) hst
  | removeBlocks antenna band nodeId =>
    simp only [machine, handle] at hst
    split at hst
    · cases hst
      exact ⟨h, trivial⟩
    · split at hst <;> rename_i hant
      · cases hst
      · cases hst
        exact ⟨(h.insert nodeId).removeBlocks (mem_insert_self ..) (Nat.lt_of_not_le hant), trivial⟩

/-- **The accounts are kept**, in every run with fewer than `2 ^ 31` blocks. -/
theorem ofdm_accounts_kept {resourceBlocks bands : ℕ} (hbands : 0 < bands)
    (hsmall : resourceBlocks < 2147483648) {es : List Event} {os : List Answer}
    (hrun : machine.exec (reset resourceBlocks bands) es = some (s, os))
    (hok : ∀ s e s' o, machine.Takes (reset resourceBlocks bands) es s e s' o → e.Ok s) :
    s.Accounts ∧ ∀ t e t' o, machine.Takes (reset resourceBlocks bands) es t e t' o →
      Refusal t e t' o := by
  have hinv : ∀ es' t os', machine.exec (reset resourceBlocks bands) es' = some (t, os') →
      (∀ s e s' o, machine.Takes (reset resourceBlocks bands) es' s e s' o → e.Ok s) → Inv t :=
    fun es' t os' hex hok' => Machine.exec_induction_of (C := fun s e => Event.Ok s e)
      (J := fun _ s _ => Inv s) (inv_reset hbands hsmall)
      (fun _ _ _ _ _ _ _ ih hC hst => (ih.step hC hst).1) hok' hex
  refine ⟨(hinv es s os hrun hok).accounts, fun t e t' o ht => ?_⟩
  obtain ⟨es₁, es₂, os₁, rfl, hex, hst⟩ := id ht
  have ht' := hinv es₁ t os₁ hex fun s e s' o h => hok s e s' o h.append_right
  exact (ht'.step (hok t e t' o ht) hst).2

/-- Ten blocks in two bands for the UE `1025`, which is refused a sixth one on its band and gives
its five back. -/
def fiveAndFive : List Event :=
  [.setRemoteAntenna .MAIN_PLANE MACRO, .addBlocksOn MACRO 0 1025 5 100 (by decide),
    .addBlocks 0 1025 1 20 one_lt_int, .configureMuMimoPeering 1026 1027,
    .removeBlocks MACRO 0 1025]

theorem ofdm_accounts_kept_fiveAndFive :
    ∃ s os, machine.exec (reset 10 2) fiveAndFive = some (s, os) ∧
      os = [.done, .bool true, .bool false, .bool true, .blocks 5] ∧ s.Accounts := by
  have hrun : machine.exec (reset 10 2) fiveAndFive = some (_, _) := rfl
  have hok : machine.Meets (fun s e => e.Ok s) (reset 10 2) fiveAndFive := by decide
  exact ⟨_, _, hrun, rfl, (ofdm_accounts_kept (by decide) (by decide) hrun
    fun s e s' o ht => hok.takes ht).1⟩

/-- **`2 ^ 31` blocks** seem to be a negative space. -/
theorem negative_space : (reset 2147483648 1).allocator.computeTotalRbsInt = .error .negativeSpace ∧
    ¬(reset 2147483648 1).Accounts := by
  have hthrows : (reset 2147483648 1).allocator.computeTotalRbsInt = .error .negativeSpace := rfl
  refine ⟨hthrows, fun h => ?_⟩
  obtain ⟨n, hn, -⟩ := h.left
  rw [hthrows] at hn
  cases hn

end AllocatorRun

end V2nLte
