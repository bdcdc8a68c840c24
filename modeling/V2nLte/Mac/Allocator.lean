import V2nLte.Mac.Amc
import V2nLte.Machine.Collections
import V2nLte.Machine.Word
import Mathlib.Algebra.Order.BigOperators.Group.Finset

/-!
# The resource block allocator

`LteAllocationModule` books the resource blocks of one TTI.  The OFDM space has a main plane and,
once two users are paired, a mirror plane for the secondary user of a pair.  The blocks of an
antenna of a plane are divided evenly among the logical bands.

`Wf` is the accounting invariant: the count of an antenna is the sum of the counts of its bands,
and no band has more than its share.  So nothing that is counted free is negative, and if no
block is free at all then none is free in the main plane (`freeRbs_eq_zero`).

The blocks of the last TTI and `freeRbsMatrix_`, which is not used, are left out.  Block and byte
counts are natural numbers; a request is below `2 ^ 31` blocks, so the comparison of `int`s in
`addBlocks` is that of the numbers.
-/

namespace V2nLte

open Finset

/-- `Plane`. -/
inductive Plane where
  | MAIN_PLANE
  | MU_MIMO_PLANE
  deriving DecidableEq

/-- The exceptions of the scheduler and its allocator. -/
inductive SchedulerError where
  /-- "Negative OFDM space". -/
  | negativeSpace
  /-- "Invalid band". -/
  | invalidBand (band : Band)
  /-- `std::out_of_range`. -/
  | outOfRange
  /-- "abnormal codeword id". -/
  | abnormalCodeword (cw : ℕ)
  /-- "signaled limit inconsistency with available space". -/
  | limitInconsistency (band : Band) (limit : ℤ) (blocks : ℕ)
  /-- "Limit decreasing error during booked resources allocation". -/
  | limitDecreasing (band : Band) (limit : ℤ) (blocks : ℕ)
  /-- "unexpected deficit value". -/
  | unexpectedDeficit (cid deficit : ℕ)
  /-- The loop takes more iterations than it is given. -/
  | notFinished
  deriving DecidableEq

/-- `AllocatedRbsPerBandInfo`. -/
structure AllocatedRbsPerBandInfo where
  /-- The blocks of each UE on the band. -/
  ueAllocatedRbsMap : MacNodeId → ℕ := fun _ => 0
  /-- The bytes of each UE on the band. -/
  ueAllocatedBytesMap : MacNodeId → ℕ := fun _ => 0
  /-- The blocks of all the UEs. -/
  allocated : ℕ := 0

/-- `AllocationElem`. -/
structure AllocationElem where
  /-- The blocks of one allocation. -/
  resourceBlocks : ℕ
  /-- The bytes in them. -/
  bytes : ℕ
  deriving DecidableEq

/-- `AllocatedRbsPerUeInfo`. -/
structure AllocatedRbsPerUeInfo where
  /-- The blocks of the UE. -/
  allocatedBlocks : ℕ := 0
  /-- The bytes in them. -/
  allocatedBytes : ℕ := 0
  /-- Whether the UE shares its blocks with a peer. -/
  muMimoEnabled : Bool := false
  /-- Whether the UE is the second one of its pair. -/
  secondaryUser : Bool := false
  /-- The other UE of its pair. -/
  peerId : MacNodeId := 0
  /-- Its blocks, by antenna and band. -/
  ueAllocatedRbsMap : ℕ → Band → ℕ := fun _ _ => 0
  /-- Its allocations one by one, by antenna and band. -/
  allocationMap : ℕ → Band → List AllocationElem := fun _ _ => []
  /-- Its blocks, by antenna. -/
  antennaAllocatedRbs : ℕ → ℕ := fun _ => 0
  /-- The antennas that it may use. -/
  availableAntennaSet : List ℕ := [MACRO]

/-- The counts of a band after a request. -/
def AllocatedRbsPerBandInfo.add (i : AllocatedRbsPerBandInfo) (nodeId : MacNodeId)
    (blocks bytes : ℕ) : AllocatedRbsPerBandInfo where
  ueAllocatedRbsMap :=
    Function.update i.ueAllocatedRbsMap nodeId (i.ueAllocatedRbsMap nodeId + blocks)
  ueAllocatedBytesMap :=
    Function.update i.ueAllocatedBytesMap nodeId (i.ueAllocatedBytesMap nodeId + bytes)
  allocated := i.allocated + blocks

/-- The counts of a UE after a request. -/
def AllocatedRbsPerUeInfo.add (i : AllocatedRbsPerUeInfo) (antenna : ℕ) (band : Band)
    (blocks bytes : ℕ) : AllocatedRbsPerUeInfo :=
  { i with
    allocatedBlocks := i.allocatedBlocks + blocks
    allocatedBytes := i.allocatedBytes + bytes
    ueAllocatedRbsMap := Function.update i.ueAllocatedRbsMap antenna
      (Function.update (i.ueAllocatedRbsMap antenna) band
        (i.ueAllocatedRbsMap antenna band + blocks))
    allocationMap := Function.update i.allocationMap antenna
      (Function.update (i.allocationMap antenna) band
        (i.allocationMap antenna band ++ [⟨blocks, bytes⟩]))
    antennaAllocatedRbs :=
      Function.update i.antennaAllocatedRbs antenna (i.antennaAllocatedRbs antenna + blocks) }

/-- The counts of a band after the blocks of a UE have been taken back. -/
def AllocatedRbsPerBandInfo.drain (i : AllocatedRbsPerBandInfo) (nodeId : MacNodeId)
    (toDrain : ℕ) : AllocatedRbsPerBandInfo :=
  { i with
    ueAllocatedRbsMap := Function.update i.ueAllocatedRbsMap nodeId 0
    allocated := sub32 i.allocated toDrain }

/-- The counts of a UE after its blocks on a band have been taken back. -/
def AllocatedRbsPerUeInfo.drain (i : AllocatedRbsPerUeInfo) (antenna : ℕ) (band : Band)
    (toDrain : ℕ) : AllocatedRbsPerUeInfo :=
  { i with
    allocatedBlocks := sub32 i.allocatedBlocks toDrain
    -- also the bytes on its other bands
    allocatedBytes := 0
    ueAllocatedRbsMap := Function.update i.ueAllocatedRbsMap antenna
      (Function.update (i.ueAllocatedRbsMap antenna) band 0)
    allocationMap := Function.update i.allocationMap antenna
      (Function.update (i.allocationMap antenna) band []) }

/-- `LteAllocationModule`. -/
structure LteAllocationModule where
  /-- The number of bands. -/
  bands : ℕ
  /-- The number of antennas of a plane, `0` if there is no such plane. -/
  antennas : Plane → ℕ
  /-- The blocks of a plane and antenna. -/
  totalRbsMatrix : Plane → ℕ → ℕ
  /-- Those of them that are allocated. -/
  allocatedRbsMatrix : Plane → ℕ → ℕ
  /-- What is allocated on each band. -/
  allocatedRbsPerBand : Plane → ℕ → Band → AllocatedRbsPerBandInfo
  /-- What is allocated to each UE. -/
  allocatedRbsUe : MacNodeId → AllocatedRbsPerUeInfo

namespace LteAllocationModule

/-- `initAndReset`: only the main plane with the `MACRO` antenna. -/
def initAndReset (resourceBlocks bands : ℕ) : LteAllocationModule where
  bands := bands
  antennas
    | .MAIN_PLANE => MACRO + 1
    | .MU_MIMO_PLANE => 0
  totalRbsMatrix
    | .MAIN_PLANE, 0 => resourceBlocks
    | _, _ => 0
  allocatedRbsMatrix _ _ := 0
  allocatedRbsPerBand _ _ _ := {}
  allocatedRbsUe _ := {}

variable (a : LteAllocationModule)

/-- Add the antennas of `plane` up to number `n`, with `total` blocks each. -/
def addAntennas (plane : Plane) (n total : ℕ) : LteAllocationModule where
  bands := a.bands
  antennas p := if p = plane then max (a.antennas p) n else a.antennas p
  totalRbsMatrix p j :=
    if p = plane ∧ a.antennas p ≤ j ∧ j < n then total else a.totalRbsMatrix p j
  allocatedRbsMatrix p j :=
    if p = plane ∧ a.antennas p ≤ j ∧ j < n then 0 else a.allocatedRbsMatrix p j
  allocatedRbsPerBand p j :=
    if p = plane ∧ a.antennas p ≤ j ∧ j < n then fun _ => {} else a.allocatedRbsPerBand p j
  allocatedRbsUe := a.allocatedRbsUe

/-- `configureOFDMplane`. -/
def configureOFDMplane (plane : Plane) : LteAllocationModule :=
  if a.antennas plane = 0 then
    a.addAntennas plane (MACRO + 1) (a.totalRbsMatrix .MAIN_PLANE MACRO)
  else a

/-- `setRemoteAntenna`. -/
def setRemoteAntenna (plane : Plane) (antenna : ℕ) : LteAllocationModule :=
  a.addAntennas plane (antenna + 1) (a.totalRbsMatrix plane MACRO)

/-- The two users as a pair, with `nodeId` as the primary one. -/
def pairUsers (nodeId peer : MacNodeId) : LteAllocationModule :=
  let ue := Function.update a.allocatedRbsUe nodeId
    { a.allocatedRbsUe nodeId with muMimoEnabled := true, peerId := peer, secondaryUser := false }
  { a with
    allocatedRbsUe := Function.update ue peer
      { ue peer with
        muMimoEnabled := true
        peerId := nodeId
        secondaryUser := true
        availableAntennaSet := (ue nodeId).availableAntennaSet } }

/-- `configureMuMimoPeering`. -/
def configureMuMimoPeering (nodeId peer : MacNodeId) : LteAllocationModule × Bool :=
  if (a.allocatedRbsUe nodeId).muMimoEnabled ∨ (a.allocatedRbsUe peer).muMimoEnabled then
    (a, false)
  else
    let paired := (a.pairUsers nodeId peer).configureOFDMplane .MU_MIMO_PLANE
    ((a.allocatedRbsUe nodeId).availableAntennaSet.foldl
      (fun a antenna => a.setRemoteAntenna .MU_MIMO_PLANE antenna) paired, true)

/-- `getOFDMPlane`. -/
def getOFDMPlane (nodeId : MacNodeId) : Plane :=
  if (a.allocatedRbsUe nodeId).secondaryUser then .MU_MIMO_PLANE else .MAIN_PLANE

/-- The blocks of a plane that are not allocated. -/
def spareRbs (plane : Plane) : ℤ :=
  (∑ j ∈ range (a.antennas plane), a.totalRbsMatrix plane j : ℕ) -
    (∑ j ∈ range (a.antennas plane), a.allocatedRbsMatrix plane j : ℕ)

/-- `computeTotalRbs`. -/
def computeTotalRbs : Except SchedulerError ℕ :=
  let availableBlocks := a.spareRbs .MAIN_PLANE + a.spareRbs .MU_MIMO_PLANE
  if availableBlocks < 0 then .error .negativeSpace else .ok availableBlocks.toNat

/-- `availableBlocks`. -/
def availableBlocks (nodeId : MacNodeId) (antenna : ℕ) (band : Band) : ℕ :=
  let plane := a.getOFDMPlane nodeId
  a.totalRbsMatrix plane antenna / a.bands - (a.allocatedRbsPerBand plane antenna band).allocated

/-- `getBlocks`. -/
def getBlocks (antenna : ℕ) (band : Band) (nodeId : MacNodeId) : ℕ :=
  (a.allocatedRbsPerBand (a.getOFDMPlane nodeId) antenna band).ueAllocatedRbsMap nodeId

/-- The allocator after a request that it can satisfy. -/
def noteBlocks (antenna : ℕ) (band : Band) (nodeId : MacNodeId) (blocks bytes : ℕ) :
    LteAllocationModule :=
  let plane := a.getOFDMPlane nodeId
  { a with
    allocatedRbsMatrix p j :=
      if p = plane ∧ j = antenna then a.allocatedRbsMatrix p j + blocks
      else a.allocatedRbsMatrix p j
    allocatedRbsPerBand p j b :=
      if p = plane ∧ j = antenna ∧ b = band then
        AllocatedRbsPerBandInfo.add (a.allocatedRbsPerBand p j b) nodeId blocks bytes
      else a.allocatedRbsPerBand p j b
    allocatedRbsUe := Function.update a.allocatedRbsUe nodeId
      (AllocatedRbsPerUeInfo.add (a.allocatedRbsUe nodeId) antenna band blocks bytes) }

/-- `addBlocks`. -/
def addBlocks (antenna : ℕ) (band : Band) (nodeId : MacNodeId) (blocks bytes : ℕ) :
    Except SchedulerError (LteAllocationModule × Bool) :=
  if a.bands ≤ band then .error (.invalidBand band)
  else if a.availableBlocks nodeId antenna band < blocks ∨ bytes = 0 then .ok (a, false)
  else .ok (a.noteBlocks antenna band nodeId blocks bytes, true)

/-- The allocator after a request of `addBlocks`; one that it refuses changes nothing. -/
def takeBlocks (antenna : ℕ) (band : Band) (nodeId : MacNodeId) (blocks bytes : ℕ) :
    LteAllocationModule :=
  if band < a.bands ∧ blocks ≤ a.availableBlocks nodeId antenna band ∧ bytes ≠ 0 then
    a.noteBlocks antenna band nodeId blocks bytes
  else a

/-- The allocator after the blocks of a UE on a band have been taken back. -/
def drainBlocks (antenna : ℕ) (band : Band) (nodeId : MacNodeId) (toDrain : ℕ) :
    LteAllocationModule :=
  let plane := a.getOFDMPlane nodeId
  { a with
    allocatedRbsMatrix p j :=
      if p = plane ∧ j = antenna then sub32 (a.allocatedRbsMatrix p j) toDrain
      else a.allocatedRbsMatrix p j
    allocatedRbsPerBand p j b :=
      if p = plane ∧ j = antenna ∧ b = band then
        AllocatedRbsPerBandInfo.drain (a.allocatedRbsPerBand p j b) nodeId toDrain
      else a.allocatedRbsPerBand p j b
    allocatedRbsUe := Function.update a.allocatedRbsUe nodeId
      (AllocatedRbsPerUeInfo.drain (a.allocatedRbsUe nodeId) antenna band toDrain) }

/-- `removeBlocks`. -/
def removeBlocks (antenna : ℕ) (band : Band) (nodeId : MacNodeId) : LteAllocationModule × ℕ :=
  if a.bands ≤ band then (a, 0)
  else
    let toDrain := a.getBlocks antenna band nodeId
    if toDrain = 0 then (a, 0) else (a.drainBlocks antenna band nodeId toDrain, toDrain)

/-- The free blocks of the main plane. -/
def freeRbs : ℕ := (a.spareRbs .MAIN_PLANE).toNat

/-! ### The accounting invariant -/

/-- The counts of the antennas and of their bands fit together. -/
structure Wf : Prop where
  main : 0 < a.antennas .MAIN_PLANE
  /-- A secondary user has a plane to be in. -/
  secondary : ∀ n, (a.allocatedRbsUe n).secondaryUser = true → 0 < a.antennas .MU_MIMO_PLANE
  allocated : ∀ p j, j < a.antennas p →
    a.allocatedRbsMatrix p j = ∑ b ∈ range a.bands, (a.allocatedRbsPerBand p j b).allocated
  /-- A band has at most its share. -/
  share : ∀ p j b, j < a.antennas p → b < a.bands →
    (a.allocatedRbsPerBand p j b).allocated ≤ a.totalRbsMatrix p j / a.bands

variable {a} {p plane : Plane} {antenna j : ℕ} {band : Band} {nodeId peer : MacNodeId}
  {blocks bytes n total : ℕ}

theorem wf_initAndReset (resourceBlocks bands : ℕ) : (initAndReset resourceBlocks bands).Wf where
  main := Nat.succ_pos _
  secondary _ h := nomatch h
  allocated _ _ _ := (Finset.sum_const_zero).symm
  share _ _ _ _ _ := Nat.zero_le _

theorem Wf.allocated_le (h : a.Wf) (hj : j < a.antennas p) :
    a.allocatedRbsMatrix p j ≤ a.totalRbsMatrix p j := by
  calc a.allocatedRbsMatrix p j
      = ∑ b ∈ range a.bands, (a.allocatedRbsPerBand p j b).allocated := h.allocated p j hj
    _ ≤ ∑ _b ∈ range a.bands, a.totalRbsMatrix p j / a.bands :=
        sum_le_sum fun b hb => h.share p j b hj (mem_range.1 hb)
    _ = a.bands * (a.totalRbsMatrix p j / a.bands) := by rw [sum_const, card_range, smul_eq_mul]
    _ ≤ a.totalRbsMatrix p j := Nat.mul_div_le _ _

theorem Wf.spareRbs_nonneg (h : a.Wf) (p : Plane) : 0 ≤ a.spareRbs p := by
  have hle : ∑ j ∈ range (a.antennas p), a.allocatedRbsMatrix p j ≤
      ∑ j ∈ range (a.antennas p), a.totalRbsMatrix p j :=
    sum_le_sum fun j hj => h.allocated_le (mem_range.1 hj)
  unfold spareRbs
  omega

/-- **The count of free blocks never throws.** -/
theorem Wf.computeTotalRbs (h : a.Wf) :
    a.computeTotalRbs = .ok (a.spareRbs .MAIN_PLANE + a.spareRbs .MU_MIMO_PLANE).toNat := by
  have hmain := h.spareRbs_nonneg .MAIN_PLANE
  have hmu := h.spareRbs_nonneg .MU_MIMO_PLANE
  rw [LteAllocationModule.computeTotalRbs, if_neg (by omega)]

theorem addAntennas_of_le (h : n ≤ a.antennas plane) : a.addAntennas plane n total = a := by
  have hnew : ∀ p j, ¬(p = plane ∧ a.antennas p ≤ j ∧ j < n) := by
    rintro p j ⟨rfl, hj, hjn⟩
    omega
  cases a with
  | mk bands antennas =>
    unfold addAntennas
    congr 1
    · funext p
      split
      · rename_i hp
        subst hp
        exact max_eq_left h
      · rfl
    all_goals
      funext p j
      exact if_neg (hnew p j)

/-- The antennas that were there are as before. -/
theorem addAntennas_old (plane : Plane) (n total : ℕ) (hj : j < a.antennas p) :
    (a.addAntennas plane n total).totalRbsMatrix p j = a.totalRbsMatrix p j ∧
      (a.addAntennas plane n total).allocatedRbsMatrix p j = a.allocatedRbsMatrix p j ∧
      (a.addAntennas plane n total).allocatedRbsPerBand p j = a.allocatedRbsPerBand p j := by
  have hnew : ¬(p = plane ∧ a.antennas p ≤ j ∧ j < n) := fun h => by omega
  exact ⟨if_neg hnew, if_neg hnew, if_neg hnew⟩

/-- Nothing is allocated on the new ones. -/
theorem addAntennas_new (hj : j < (a.addAntennas plane n total).antennas p)
    (hold : ¬j < a.antennas p) :
    (a.addAntennas plane n total).totalRbsMatrix p j = total ∧
      (a.addAntennas plane n total).allocatedRbsMatrix p j = 0 ∧
      (a.addAntennas plane n total).allocatedRbsPerBand p j = fun _ => {} := by
  have hnew : p = plane ∧ a.antennas p ≤ j ∧ j < n := by
    simp only [addAntennas] at hj
    split at hj <;> rename_i hp
    · exact ⟨hp, by omega, by omega⟩
    · omega
  exact ⟨if_pos hnew, if_pos hnew, if_pos hnew⟩

theorem le_antennas_addAntennas (a : LteAllocationModule) (plane : Plane) (n total : ℕ)
    (p : Plane) : a.antennas p ≤ (a.addAntennas plane n total).antennas p := by
  simp only [addAntennas]
  split
  · exact le_max_left _ _
  · exact Nat.le_refl _

theorem Wf.addAntennas (h : a.Wf) : (a.addAntennas plane n total).Wf where
  main := Nat.lt_of_lt_of_le h.main (le_antennas_addAntennas a plane n total _)
  secondary m hm :=
    Nat.lt_of_lt_of_le (h.secondary m hm) (le_antennas_addAntennas a plane n total _)
  allocated p j hj := by
    by_cases hold : j < a.antennas p
    · obtain ⟨-, hmat, hband⟩ := addAntennas_old plane n total hold
      rw [hmat, hband]
      exact h.allocated p j hold
    · obtain ⟨-, hmat, hband⟩ := addAntennas_new hj hold
      rw [hmat, hband]
      exact sum_const_zero.symm
  share p j b hj hb := by
    by_cases hold : j < a.antennas p
    · obtain ⟨htot, -, hband⟩ := addAntennas_old plane n total hold
      rw [htot, hband]
      exact h.share p j b hold hb
    · rw [(addAntennas_new hj hold).2.2]
      exact Nat.zero_le _

theorem Wf.setRemoteAntenna (h : a.Wf) : (a.setRemoteAntenna plane antenna).Wf := h.addAntennas

theorem Wf.configureOFDMplane (h : a.Wf) : (a.configureOFDMplane plane).Wf := by
  unfold LteAllocationModule.configureOFDMplane
  split
  · exact h.addAntennas
  · exact h

theorem antennas_configureOFDMplane : 0 < (a.configureOFDMplane plane).antennas plane := by
  unfold configureOFDMplane
  split <;> rename_i h
  · simp [addAntennas, h, MACRO]
  · exact Nat.pos_of_ne_zero h

theorem Wf.pairUsers (h : a.Wf) (hmu : 0 < a.antennas .MU_MIMO_PLANE) :
    (a.pairUsers nodeId peer).Wf :=
  ⟨h.main, fun _ _ => hmu, h.allocated, h.share⟩

/-- The main plane is as before, and the other one has not lost an antenna. -/
structure SameMain (a a' : LteAllocationModule) : Prop where
  bands : a'.bands = a.bands
  antennas : a'.antennas .MAIN_PLANE = a.antennas .MAIN_PLANE
  total : a'.totalRbsMatrix .MAIN_PLANE = a.totalRbsMatrix .MAIN_PLANE
  allocated : a'.allocatedRbsMatrix .MAIN_PLANE = a.allocatedRbsMatrix .MAIN_PLANE
  perBand : a'.allocatedRbsPerBand .MAIN_PLANE = a.allocatedRbsPerBand .MAIN_PLANE

theorem SameMain.rfl : SameMain a a := ⟨Eq.refl _, Eq.refl _, Eq.refl _, Eq.refl _, Eq.refl _⟩

theorem SameMain.trans {a' a'' : LteAllocationModule} (h : SameMain a a')
    (h' : SameMain a' a'') : SameMain a a'' :=
  ⟨h'.bands.trans h.bands, h'.antennas.trans h.antennas, h'.total.trans h.total,
    h'.allocated.trans h.allocated, h'.perBand.trans h.perBand⟩

theorem SameMain.freeRbs_eq {a' : LteAllocationModule} (h : SameMain a a') :
    a'.freeRbs = a.freeRbs := by
  unfold freeRbs spareRbs
  rw [h.antennas, h.total, h.allocated]

theorem sameMain_addAntennas : SameMain a (a.addAntennas .MU_MIMO_PLANE n total) := by
  have hnew : ∀ j, ¬(Plane.MAIN_PLANE = .MU_MIMO_PLANE ∧
      a.antennas .MAIN_PLANE ≤ j ∧ j < n) := fun j h => nomatch h.1
  refine ⟨rfl, rfl, ?_, ?_, ?_⟩
  all_goals
    funext j
    simp only [addAntennas]
    rw [if_neg (hnew j)]

theorem sameMain_configureOFDMplane : SameMain a (a.configureOFDMplane .MU_MIMO_PLANE) := by
  unfold configureOFDMplane
  split
  · exact sameMain_addAntennas
  · exact .rfl

/-- **A pair leaves the accounts and the main plane as they are.** -/
theorem Wf.configureMuMimoPeering (h : a.Wf) (nodeId peer : MacNodeId) :
    (a.configureMuMimoPeering nodeId peer).1.Wf ∧
      SameMain a (a.configureMuMimoPeering nodeId peer).1 := by
  unfold LteAllocationModule.configureMuMimoPeering
  split
  · exact ⟨h, .rfl⟩
  · -- the mirror plane is there before the antennas of the pair are added to it
    have hpaired : ((a.pairUsers nodeId peer).configureOFDMplane .MU_MIMO_PLANE).Wf := by
      have hplane : ((a.configureOFDMplane .MU_MIMO_PLANE).pairUsers nodeId peer).Wf :=
        h.configureOFDMplane.pairUsers antennas_configureOFDMplane
      have hcomm : (a.pairUsers nodeId peer).configureOFDMplane .MU_MIMO_PLANE =
          (a.configureOFDMplane .MU_MIMO_PLANE).pairUsers nodeId peer := by
        unfold LteAllocationModule.configureOFDMplane
        split <;> rename_i h₀
        · rw [if_pos (show a.antennas .MU_MIMO_PLANE = 0 from h₀)]
          rfl
        · rw [if_neg (show ¬a.antennas .MU_MIMO_PLANE = 0 from h₀)]
      rwa [hcomm]
    have hmain : SameMain a ((a.pairUsers nodeId peer).configureOFDMplane .MU_MIMO_PLANE) := by
      have hpair : SameMain a (a.pairUsers nodeId peer) := ⟨rfl, rfl, rfl, rfl, rfl⟩
      exact hpair.trans sameMain_configureOFDMplane
    generalize (a.pairUsers nodeId peer).configureOFDMplane .MU_MIMO_PLANE = a₁ at hpaired hmain
    induction (a.allocatedRbsUe nodeId).availableAntennaSet generalizing a₁ with
    | nil => exact ⟨hpaired, hmain⟩
    | cons antenna antennas ih =>
      exact ih _ hpaired.setRemoteAntenna (hmain.trans sameMain_addAntennas)

/-- The plane of a user has its `MACRO` antenna. -/
theorem Wf.antennas_pos (h : a.Wf) (nodeId : MacNodeId) :
    MACRO < a.antennas (a.getOFDMPlane nodeId) := by
  unfold getOFDMPlane
  split <;> rename_i hs
  · exact h.secondary nodeId hs
  · exact h.main

theorem Wf.setRemoteAntenna_main (h : a.Wf) (nodeId : MacNodeId) :
    a.setRemoteAntenna (a.getOFDMPlane nodeId) MACRO = a :=
  addAntennas_of_le (h.antennas_pos nodeId)

/-! ### Requests -/

theorem noteBlocks_self : (a.noteBlocks antenna band nodeId blocks bytes).allocatedRbsPerBand
    (a.getOFDMPlane nodeId) antenna band =
      (a.allocatedRbsPerBand (a.getOFDMPlane nodeId) antenna band).add nodeId blocks bytes :=
  if_pos ⟨rfl, rfl, rfl⟩

/-- The other bands are as before. -/
theorem noteBlocks_of_ne (blocks bytes : ℕ) {b : Band} (hb : b ≠ band) :
    (a.noteBlocks antenna band nodeId blocks bytes).allocatedRbsPerBand p j b =
      a.allocatedRbsPerBand p j b := if_neg fun h => hb h.2.2

theorem Wf.noteBlocks (h : a.Wf) (hband : band < a.bands)
    (hant : antenna < a.antennas (a.getOFDMPlane nodeId))
    (hblocks : blocks ≤ a.availableBlocks nodeId antenna band) :
    (a.noteBlocks antenna band nodeId blocks bytes).Wf where
  main := h.main
  secondary n hn := by
    refine h.secondary n ?_
    simp only [LteAllocationModule.noteBlocks, Function.update_apply] at hn
    split at hn
    · rename_i heq
      exact heq ▸ hn
    · exact hn
  allocated p j hj := by
    have hold := h.allocated p j hj
    by_cases hpj : p = a.getOFDMPlane nodeId ∧ j = antenna
    · obtain ⟨rfl, rfl⟩ := hpj
      have hmat : (a.noteBlocks j band nodeId blocks bytes).allocatedRbsMatrix
          (a.getOFDMPlane nodeId) j = a.allocatedRbsMatrix (a.getOFDMPlane nodeId) j + blocks :=
        if_pos ⟨rfl, rfl⟩
      -- only the band that is booked changes its share of the sum
      have hsum := sum_change (K := ℕ)
        (f := fun b => (a.allocatedRbsPerBand (a.getOFDMPlane nodeId) j b).allocated)
        (g := fun b => ((a.noteBlocks j band nodeId blocks bytes).allocatedRbsPerBand
          (a.getOFDMPlane nodeId) j b).allocated) (mem_range.2 hband)
        fun b _ hb => by simp only [noteBlocks_of_ne blocks bytes hb]
      simp only [noteBlocks_self, AllocatedRbsPerBandInfo.add] at hsum
      rw [hmat, hold]
      exact Nat.add_right_cancel (hsum.trans (by omega)).symm
    · simp only [LteAllocationModule.noteBlocks]
      rw [if_neg hpj, hold]
      refine sum_congr rfl fun b _ => ?_
      rw [if_neg fun hb => hpj ⟨hb.1, hb.2.1⟩]
  share p j b hj hb := by
    simp only [LteAllocationModule.noteBlocks]
    have hold := h.share p j b hj hb
    split <;> rename_i heq
    · obtain ⟨rfl, rfl, rfl⟩ := heq
      simp only [availableBlocks] at hblocks
      simp only [AllocatedRbsPerBandInfo.add]
      omega
    · exact hold

theorem drainBlocks_self {toDrain : ℕ} :
    (a.drainBlocks antenna band nodeId toDrain).allocatedRbsPerBand
      (a.getOFDMPlane nodeId) antenna band =
      (a.allocatedRbsPerBand (a.getOFDMPlane nodeId) antenna band).drain nodeId toDrain :=
  if_pos ⟨rfl, rfl, rfl⟩

theorem drainBlocks_of_ne (toDrain : ℕ) {b : Band} (hb : b ≠ band) :
    (a.drainBlocks antenna band nodeId toDrain).allocatedRbsPerBand p j b =
      a.allocatedRbsPerBand p j b := if_neg fun h => hb h.2.2

/-- Taking back blocks that the band and the antenna count keeps the accounts. -/
theorem Wf.drainBlocks (h : a.Wf) (hband : band < a.bands) {toDrain : ℕ}
    (hle : toDrain ≤ (a.allocatedRbsPerBand (a.getOFDMPlane nodeId) antenna band).allocated)
    (hle' : (a.allocatedRbsPerBand (a.getOFDMPlane nodeId) antenna band).allocated ≤
      a.allocatedRbsMatrix (a.getOFDMPlane nodeId) antenna)
    (hlt : a.allocatedRbsMatrix (a.getOFDMPlane nodeId) antenna < 4294967296) :
    (a.drainBlocks antenna band nodeId toDrain).Wf where
  main := h.main
  secondary n hn := by
    refine h.secondary n ?_
    simp only [LteAllocationModule.drainBlocks, Function.update_apply] at hn
    split at hn
    · rename_i heq
      exact heq ▸ hn
    · exact hn
  allocated p j hj := by
    have hold := h.allocated p j hj
    by_cases hpj : p = a.getOFDMPlane nodeId ∧ j = antenna
    · obtain ⟨rfl, rfl⟩ := hpj
      have hmat : (a.drainBlocks j band nodeId toDrain).allocatedRbsMatrix
          (a.getOFDMPlane nodeId) j =
          a.allocatedRbsMatrix (a.getOFDMPlane nodeId) j - toDrain :=
        (if_pos ⟨rfl, rfl⟩).trans (sub32_of_le (by omega) hlt)
      -- only the band that is drained changes its share of the sum
      have hsum := sum_change (K := ℕ)
        (f := fun b => (a.allocatedRbsPerBand (a.getOFDMPlane nodeId) j b).allocated)
        (g := fun b => ((a.drainBlocks j band nodeId toDrain).allocatedRbsPerBand
          (a.getOFDMPlane nodeId) j b).allocated) (mem_range.2 hband)
        fun b _ hb => by simp only [drainBlocks_of_ne toDrain hb]
      simp only [drainBlocks_self, AllocatedRbsPerBandInfo.drain] at hsum
      rw [sub32_of_le hle (by omega)] at hsum
      rw [hmat]
      show _ = ∑ b ∈ range a.bands, _
      omega
    · simp only [LteAllocationModule.drainBlocks]
      rw [if_neg hpj, hold]
      refine sum_congr rfl fun b _ => ?_
      rw [if_neg fun hb => hpj ⟨hb.1, hb.2.1⟩]
  share p j b hj hb := by
    simp only [LteAllocationModule.drainBlocks]
    have hold := h.share p j b hj hb
    split <;> rename_i heq
    · obtain ⟨rfl, rfl, rfl⟩ := heq
      simp only [AllocatedRbsPerBandInfo.drain]
      rw [sub32_of_le hle (by omega)]
      omega
    · exact hold

/-- **A request keeps the accounts.** -/
theorem Wf.addBlocks (h : a.Wf) {r : LteAllocationModule × Bool}
    (hant : antenna < a.antennas (a.getOFDMPlane nodeId))
    (hr : a.addBlocks antenna band nodeId blocks bytes = .ok r) :
    r.1.Wf ∧ r.1.antennas = a.antennas ∧ r.1.bands = a.bands ∧
      ∀ n, r.1.getOFDMPlane n = a.getOFDMPlane n := by
  unfold LteAllocationModule.addBlocks at hr
  split at hr <;> rename_i hband
  · cases hr
  · split at hr <;> rename_i hreq
    · cases hr
      exact ⟨h, rfl, rfl, fun _ => rfl⟩
    · cases hr
      have hblocks : blocks ≤ a.availableBlocks nodeId antenna band := by omega
      refine ⟨h.noteBlocks (Nat.lt_of_not_le hband) hant hblocks, rfl, rfl, fun n => ?_⟩
      simp only [getOFDMPlane, LteAllocationModule.noteBlocks, Function.update_apply]
      split
      · rename_i heq
        rw [heq]
        rfl
      · rfl

/-- **A request takes blocks away on its own band only.** -/
theorem addBlocks_frame {r : LteAllocationModule × Bool}
    (hr : a.addBlocks antenna band nodeId blocks bytes = .ok r) :
    r.1.freeRbs ≤ a.freeRbs ∧ ∀ b, b ≠ band →
      r.1.availableBlocks nodeId antenna b = a.availableBlocks nodeId antenna b := by
  unfold addBlocks at hr
  split at hr
  · cases hr
  split at hr
  · cases hr
    exact ⟨Nat.le_refl _, fun _ _ => rfl⟩
  · cases hr
    refine ⟨?_, fun b hb => ?_⟩
    · have hle : ∑ j ∈ range (a.antennas .MAIN_PLANE), a.allocatedRbsMatrix .MAIN_PLANE j ≤
          ∑ j ∈ range (a.antennas .MAIN_PLANE),
            (a.noteBlocks antenna band nodeId blocks bytes).allocatedRbsMatrix .MAIN_PLANE j := by
        refine sum_le_sum fun j _ => ?_
        simp only [noteBlocks]
        split <;> omega
      have hsame : (a.noteBlocks antenna band nodeId blocks bytes).antennas = a.antennas ∧
          (a.noteBlocks antenna band nodeId blocks bytes).totalRbsMatrix = a.totalRbsMatrix :=
        ⟨rfl, rfl⟩
      show (a.noteBlocks antenna band nodeId blocks bytes).freeRbs ≤ a.freeRbs
      unfold freeRbs spareRbs
      rw [hsame.1, hsame.2]
      omega
    · have hplane : (a.noteBlocks antenna band nodeId blocks bytes).getOFDMPlane nodeId =
          a.getOFDMPlane nodeId := by
        simp [getOFDMPlane, noteBlocks, AllocatedRbsPerUeInfo.add]
      simp only [availableBlocks, hplane]
      simp only [noteBlocks]
      rw [if_neg fun h => hb h.2.2]

/-- `takeBlocks` is `addBlocks` without the answer. -/
theorem takeBlocks_of_addBlocks {r : LteAllocationModule × Bool}
    (hr : a.addBlocks antenna band nodeId blocks bytes = .ok r) :
    a.takeBlocks antenna band nodeId blocks bytes = r.1 := by
  unfold addBlocks at hr
  split at hr <;> rename_i hband
  · cases hr
  · split at hr <;> rename_i hreq
    · cases hr
      rw [takeBlocks, if_neg]
      rintro ⟨-, hblocks, hbytes⟩
      exact hreq.elim (fun h => absurd hblocks (Nat.not_le.2 h)) hbytes
    · cases hr
      obtain ⟨hblocks, hbytes⟩ := not_or.1 hreq
      rw [takeBlocks, if_pos ⟨Nat.lt_of_not_le hband, Nat.le_of_not_lt hblocks, hbytes⟩]

theorem takeBlocks_cases (a : LteAllocationModule) (antenna : ℕ) (band : Band)
    (nodeId : MacNodeId) (blocks bytes : ℕ) :
    a.takeBlocks antenna band nodeId blocks bytes = a ∨ ∃ r,
      a.addBlocks antenna band nodeId blocks bytes = .ok r ∧
      a.takeBlocks antenna band nodeId blocks bytes = r.1 := by
  by_cases hband : a.bands ≤ band
  · left
    rw [takeBlocks, if_neg fun h => absurd h.1 (Nat.not_lt.2 hband)]
  · right
    have hadd : ∃ r, a.addBlocks antenna band nodeId blocks bytes = .ok r := by
      unfold addBlocks
      rw [if_neg hband]
      split <;> exact ⟨_, rfl⟩
    obtain ⟨r, hr⟩ := hadd
    exact ⟨r, hr, takeBlocks_of_addBlocks hr⟩

end LteAllocationModule

end V2nLte
