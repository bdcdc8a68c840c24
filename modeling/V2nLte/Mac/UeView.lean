import V2nLte.Mac.Accounting
import V2nLte.Mac.DlRequests

/-!
# What the allocator says about a UE

The allocator has several answers to the question what a UE has got: the totals of the UE, its
blocks on each antenna, the list of its requests, and its blocks and bytes on each band of the
plane it is in.  `addBlocks` notes a request in all of them.

`removeBlocks` takes the blocks back from most of them, but it forgets the bytes of the other
bands, keeps those of the band and does not touch the blocks of the antenna.  A UE that becomes the
secondary user of a pair is looked up in the other plane, where it has nothing.

* `AllocatorRun.views_iff` : in a run in which nothing is taken back, only UEs without bytes become
  secondary users and blocks are booked on the antennas of the UE, the answers agree for every UE,
  and they still do after the next operation iff it meets the condition, too.  Taking back and
  adding again restores the view iff the UE has nothing on the band.
* `AllocatorRun.stale_bytes` : the bytes of a UE after its blocks on one of two bands have been
  taken back.
-/

namespace V2nLte

open Finset

/-- The bytes in the list of requests of a band. -/
def AllocatedRbsPerUeInfo.mapped (i : AllocatedRbsPerUeInfo) (antenna : ℕ) (band : Band) : ℕ :=
  ((i.allocationMap antenna band).map (·.bytes)).sum

namespace LteAllocationModule

variable (a : LteAllocationModule)

/-- `rbOccupation` of a UE that is known: the number of its blocks, and the map with them. -/
def rbOccupation (nodeId : MacNodeId) (rbMap : ℕ → Band → ℕ) : ℕ × (ℕ → Band → ℕ) :=
  let antennas := (a.allocatedRbsUe nodeId).availableAntennaSet
  ((antennas.map fun antenna => ∑ b ∈ range a.bands, a.getBlocks antenna b nodeId).sum,
    fun antenna b =>
      if antenna ∈ antennas ∧ b < a.bands then a.getBlocks antenna b nodeId else rbMap antenna b)

end LteAllocationModule

/-- All that is noted about a UE. -/
structure UeView where
  /-- Its blocks. -/
  allocatedBlocks : ℕ
  /-- Its bytes. -/
  allocatedBytes : ℕ
  /-- Its blocks, by antenna. -/
  antennaAllocatedRbs : ℕ → ℕ
  /-- Its blocks in the books of the bands. -/
  blocks : ℕ → Band → ℕ
  /-- Its bytes in the books of the bands. -/
  bytes : ℕ → Band → ℕ
  /-- Its blocks in its own books, by antenna and band. -/
  mapped : ℕ → Band → ℕ

namespace LteAllocationModule

variable (a : LteAllocationModule)

/-- What is noted about the UE `n`. -/
def view (n : MacNodeId) : UeView where
  allocatedBlocks := (a.allocatedRbsUe n).allocatedBlocks
  allocatedBytes := (a.allocatedRbsUe n).allocatedBytes
  antennaAllocatedRbs := (a.allocatedRbsUe n).antennaAllocatedRbs
  blocks j b := a.getBlocks j b n
  bytes j b := a.getBytes j b n
  mapped := (a.allocatedRbsUe n).mapped

/-- Taking back what the UE has on a band and adding it again leaves everything as it was. -/
def Restores (antenna : ℕ) (band : Band) (nodeId : MacNodeId) : Prop :=
  ∃ a' added, (a.removeBlocks antenna band nodeId).1.addBlocksInt antenna band nodeId
      (a.removeBlocks antenna band nodeId).2 (a.getBytes antenna band nodeId) = .ok (a', added) ∧
    a'.view nodeId = a.view nodeId

end LteAllocationModule

namespace AllocatorRun

variable (s : AllocatorRun)

/-- `rbOccupation`. -/
def rbOccupation (nodeId : MacNodeId) (rbMap : ℕ → Band → ℕ) :
    Except SchedulerError (ℕ × (ℕ → Band → ℕ)) :=
  if nodeId ∈ s.ues then .ok (s.allocator.rbOccupation nodeId rbMap) else .error .outOfRange

/-- The answers about the UE `n` agree. -/
structure Agree (n : MacNodeId) : Prop where
  /-- `rbOccupation` returns the blocks of the UE. -/
  occupation : ∀ rbMap, ∃ rbMap', s.rbOccupation n rbMap =
    .ok ((s.allocator.allocatedRbsUe n).allocatedBlocks, rbMap')
  /-- These are the blocks on the antennas of its plane. -/
  antennas : (s.allocator.allocatedRbsUe n).allocatedBlocks =
    ∑ j ∈ range (s.allocator.antennas (s.allocator.getOFDMPlane n)),
      (s.allocator.allocatedRbsUe n).antennaAllocatedRbs j
  /-- Its bytes are those that `getBytes` returns for the bands. -/
  bytes : (s.allocator.allocatedRbsUe n).allocatedBytes =
    ∑ j ∈ range (s.allocator.antennas (s.allocator.getOFDMPlane n)),
      ∑ b ∈ range s.allocator.bands, s.allocator.getBytes j b n
  /-- They are also those that its own map holds. -/
  mapped : (s.allocator.allocatedRbsUe n).allocatedBytes =
    ∑ j ∈ range (s.allocator.antennas (s.allocator.getOFDMPlane n)),
      ∑ b ∈ range s.allocator.bands, (s.allocator.allocatedRbsUe n).mapped j b

/-- A request for an antenna of the UE, or one that books no blocks. -/
def AntennaOk (antenna : ℕ) (band : Band) (nodeId : MacNodeId) (blocks bytes : ℕ) : Prop :=
  antenna ∈ (s.allocator.allocatedRbsUe nodeId).availableAntennaSet ∨ s.allocator.bands ≤ band ∨
    blocks = 0 ∨ bytes = 0 ∨
    i32 (s.allocator.availableBlocks nodeId antenna band) - i32 blocks < 0

/-- Nothing is taken back, a UE that becomes a secondary user has no bytes, and blocks are booked on
the antennas of the UE. -/
def Event.Keeps (s : AllocatorRun) : Event → Prop
  | .removeBlocks antenna band nodeId =>
    band < s.allocator.bands → s.allocator.getBlocks antenna band nodeId = 0
  | .configureMuMimoPeering nodeId peer =>
    (s.allocator.allocatedRbsUe nodeId).muMimoEnabled = true ∨
      (s.allocator.allocatedRbsUe peer).muMimoEnabled = true ∨
      (s.allocator.allocatedRbsUe peer).allocatedBytes = 0
  | .addBlocksOn antenna band nodeId blocks bytes _ => s.AntennaOk antenna band nodeId blocks bytes
  | .addBlocks .. | .initAndReset .. | .setRemoteAntenna .. => True

instance (s : AllocatorRun) : (e : Event) → Decidable (e.Keeps s)
  | .removeBlocks .. => inferInstanceAs (Decidable (_ → _))
  | .configureMuMimoPeering .. => inferInstanceAs (Decidable (_ ∨ _ ∨ _))
  | .addBlocksOn .. => inferInstanceAs (Decidable (_ ∨ _ ∨ _ ∨ _ ∨ _))
  | .addBlocks .. | .initAndReset .. | .setRemoteAntenna .. => inferInstanceAs (Decidable True)

end AllocatorRun

/-! ### The books of a UE -/

namespace LteAllocationModule

variable {a a' : LteAllocationModule} {plane p : Plane} {antenna j m : ℕ} {band b : Band}
  {nodeId peer n : MacNodeId} {blocks bytes total : ℕ}

/-- The answers about the UE `n` agree, and there is nothing left of it elsewhere. -/
structure Books (a : LteAllocationModule) (n : MacNodeId) : Prop where
  single : (a.allocatedRbsUe n).availableAntennaSet = [MACRO]
  secondary : (a.allocatedRbsUe n).secondaryUser = true →
    (a.allocatedRbsUe n).muMimoEnabled = true
  /-- A UE that is not a secondary user has nothing in the mirror plane. -/
  mirror : (a.allocatedRbsUe n).secondaryUser = false → ∀ j b,
    (a.allocatedRbsPerBand .MU_MIMO_PLANE j b).ueAllocatedRbsMap n = 0 ∧
      (a.allocatedRbsPerBand .MU_MIMO_PLANE j b).ueAllocatedBytesMap n = 0
  outside : ∀ j, a.antennas (a.getOFDMPlane n) ≤ j →
    (a.allocatedRbsUe n).antennaAllocatedRbs j = 0 ∧
      ∀ b < a.bands, (a.allocatedRbsUe n).mapped j b = 0
  /-- There are no blocks without bytes. -/
  paid : ∀ j b, a.getBytes j b n = 0 → a.getBlocks j b n = 0
  occupation : (a.allocatedRbsUe n).allocatedBlocks =
    ∑ b ∈ range a.bands, a.getBlocks MACRO b n
  onAntennas : (a.allocatedRbsUe n).allocatedBlocks =
    ∑ j ∈ range (a.antennas (a.getOFDMPlane n)), (a.allocatedRbsUe n).antennaAllocatedRbs j
  bytes : (a.allocatedRbsUe n).allocatedBytes =
    ∑ j ∈ range (a.antennas (a.getOFDMPlane n)), ∑ b ∈ range a.bands, a.getBytes j b n
  mapped : (a.allocatedRbsUe n).allocatedBytes =
    ∑ j ∈ range (a.antennas (a.getOFDMPlane n)), ∑ b ∈ range a.bands,
      (a.allocatedRbsUe n).mapped j b

theorem books_initAndReset (resourceBlocks bands : ℕ) (n : MacNodeId) :
    (initAndReset resourceBlocks bands).Books n where
  single := rfl
  secondary h := nomatch h
  mirror _ _ _ := ⟨rfl, rfl⟩
  outside _ _ := ⟨rfl, fun _ _ => rfl⟩
  paid _ _ _ := rfl
  occupation := sum_const_zero.symm
  onAntennas := sum_const_zero.symm
  bytes := (sum_eq_zero fun _ _ => sum_const_zero).symm
  mapped := (sum_eq_zero fun _ _ => sum_const_zero).symm

theorem Books.frame (h : a.Books n) (hue : a'.allocatedRbsUe n = a.allocatedRbsUe n)
    (hbands : a'.bands = a.bands) (hant : a'.antennas = a.antennas)
    (hblocks : ∀ p j b, (a'.allocatedRbsPerBand p j b).ueAllocatedRbsMap n =
      (a.allocatedRbsPerBand p j b).ueAllocatedRbsMap n)
    (hbytes : ∀ p j b, (a'.allocatedRbsPerBand p j b).ueAllocatedBytesMap n =
      (a.allocatedRbsPerBand p j b).ueAllocatedBytesMap n) : a'.Books n := by
  have hplane : a'.getOFDMPlane n = a.getOFDMPlane n := by rw [getOFDMPlane, getOFDMPlane, hue]
  have hget : ∀ j b, a'.getBlocks j b n = a.getBlocks j b n := fun j b => by
    rw [getBlocks, getBlocks, hplane, hblocks]
  have hgot : ∀ j b, a'.getBytes j b n = a.getBytes j b n := fun j b => by
    rw [getBytes, getBytes, hplane, hbytes]
  refine ⟨?_, ?_, ?_, ?_, ?_, ?_, ?_, ?_, ?_⟩
  · rw [hue]; exact h.single
  · rw [hue]; exact h.secondary
  · rw [hue]
    intro hs j b
    rw [hblocks, hbytes]
    exact h.mirror hs j b
  · rw [hplane, hant, hbands, hue]; exact h.outside
  · intro j b
    rw [hget, hgot]
    exact h.paid j b
  · rw [hue, hbands]; simpa only [hget] using h.occupation
  · rw [hplane, hant, hue]; exact h.onAntennas
  · rw [hplane, hant, hbands, hue]; simpa only [hgot] using h.bytes
  · rw [hplane, hant, hbands, hue]; exact h.mapped

/-! ### New antennas and pairs -/

theorem sum_range_grow {f g : ℕ → ℕ} {k l : ℕ} (hle : k ≤ l) (hold : ∀ j < k, g j = f j)
    (hnew : ∀ j, k ≤ j → j < l → g j = 0) : ∑ j ∈ range l, g j = ∑ j ∈ range k, f j := by
  rw [← sum_congr rfl fun j hj => hold j (mem_range.1 hj)]
  refine (sum_subset (range_mono hle) fun j hj hjk => ?_).symm
  exact hnew j (Nat.le_of_not_lt fun h => hjk (mem_range.2 h)) (mem_range.1 hj)

/-- The books of a UE in the entries of an antenna: as they were, or empty if it is new. -/
theorem addAntennas_entry (a : LteAllocationModule) (plane : Plane) (m total : ℕ) (p : Plane)
    (j : ℕ) : (a.addAntennas plane m total).allocatedRbsPerBand p j = a.allocatedRbsPerBand p j ∨
      a.antennas p ≤ j ∧ (a.addAntennas plane m total).allocatedRbsPerBand p j = fun _ => {} := by
  by_cases hnew : p = plane ∧ a.antennas p ≤ j ∧ j < m
  · exact .inr ⟨hnew.2.1, if_pos hnew⟩
  · exact .inl (if_neg hnew)

theorem Books.addAntennas (h : a.Books n) : (a.addAntennas plane m total).Books n := by
  have hplane : (a.addAntennas plane m total).getOFDMPlane n = a.getOFDMPlane n := rfl
  have hle := le_antennas_addAntennas a plane m total (a.getOFDMPlane n)
  -- beyond the antennas that were there, nothing is booked
  have hentry : ∀ j b, (a.addAntennas plane m total).getBlocks j b n = a.getBlocks j b n ∧
        (a.addAntennas plane m total).getBytes j b n = a.getBytes j b n ∨
      a.antennas (a.getOFDMPlane n) ≤ j ∧
        (a.addAntennas plane m total).getBlocks j b n = 0 ∧
        (a.addAntennas plane m total).getBytes j b n = 0 := by
    intro j b
    simp only [getBlocks, getBytes, hplane]
    rcases addAntennas_entry a plane m total (a.getOFDMPlane n) j with hj | ⟨hj, hnew⟩
    · rw [hj]
      exact .inl ⟨rfl, rfl⟩
    · rw [hnew]
      exact .inr ⟨hj, rfl, rfl⟩
  have hold : ∀ j < a.antennas (a.getOFDMPlane n), ∀ b,
      (a.addAntennas plane m total).getBlocks j b n = a.getBlocks j b n ∧
        (a.addAntennas plane m total).getBytes j b n = a.getBytes j b n := by
    intro j hj b
    exact (hentry j b).resolve_right fun hnew => absurd hnew.1 (Nat.not_le.2 hj)
  refine ⟨h.single, h.secondary, fun hs j b => ?_, fun j hj => h.outside j (hle.trans hj), ?_, ?_,
    ?_, ?_, ?_⟩
  · rcases addAntennas_entry a plane m total .MU_MIMO_PLANE j with hj | ⟨-, hnew⟩
    · rw [hj]
      exact h.mirror hs j b
    · rw [hnew]
      exact ⟨rfl, rfl⟩
  · intro j b hb
    rcases hentry j b with ⟨hblocks, hbytes⟩ | ⟨-, hblocks, -⟩
    · rw [hblocks]
      exact h.paid j b (hbytes ▸ hb)
    · exact hblocks
  · show (a.allocatedRbsUe n).allocatedBlocks = ∑ b ∈ range a.bands, _
    by_cases hmacro : MACRO < a.antennas (a.getOFDMPlane n)
    · rw [h.occupation]
      exact sum_congr rfl fun b _ => (hold MACRO hmacro b).1.symm
    · -- there was no antenna at all
      have hzero : (a.allocatedRbsUe n).allocatedBlocks = 0 := by
        rw [h.onAntennas, show a.antennas (a.getOFDMPlane n) = 0 by
          have : MACRO = 0 := rfl
          omega]
        rfl
      rw [hzero]
      refine (sum_eq_zero fun b hb => ?_).symm
      rcases hentry MACRO b with ⟨hblocks, -⟩ | ⟨-, hblocks, -⟩
      · rw [hblocks]
        have hocc := h.occupation
        rw [hzero] at hocc
        exact sum_eq_zero_iff.1 hocc.symm b hb
      · exact hblocks
  · rw [hplane]
    refine h.onAntennas.trans (sum_range_grow hle (fun _ _ => rfl) fun j hj _ => ?_).symm
    exact (h.outside j hj).1
  · rw [hplane]
    refine h.bytes.trans (sum_range_grow hle (fun j hj => ?_) fun j hj hlt => ?_).symm
    · exact sum_congr rfl fun b _ => (hold j hj b).2
    · refine sum_eq_zero fun b _ => ?_
      have hnew := addAntennas_new hlt (Nat.not_lt.2 hj)
      rw [getBytes, hplane, hnew.2.2]
  · rw [hplane]
    refine h.mapped.trans (sum_range_grow hle (fun _ _ => rfl) fun j hj _ => ?_).symm
    exact sum_eq_zero fun b hb => (h.outside j hj).2 b (mem_range.1 hb)

theorem Books.nothing (h : a.Books n) (hzero : (a.allocatedRbsUe n).allocatedBytes = 0) :
    (a.allocatedRbsUe n).allocatedBlocks = 0 ∧
      ∀ j, (a.allocatedRbsUe n).antennaAllocatedRbs j = 0 ∧
        ∀ b < a.bands, (a.allocatedRbsUe n).mapped j b = 0 := by
  have hbytes := h.bytes
  have hmapped := h.mapped
  rw [hzero] at hbytes hmapped
  have hblocks : (a.allocatedRbsUe n).allocatedBlocks = 0 := by
    by_cases hmacro : MACRO < a.antennas (a.getOFDMPlane n)
    · rw [h.occupation]
      refine sum_eq_zero fun b hb => h.paid MACRO b ?_
      exact sum_eq_zero_iff.1 (sum_eq_zero_iff.1 hbytes.symm MACRO (mem_range.2 hmacro)) b hb
    · rw [h.onAntennas, show a.antennas (a.getOFDMPlane n) = 0 by
        have : MACRO = 0 := rfl
        omega]
      rfl
  refine ⟨hblocks, fun j => ?_⟩
  by_cases hj : j < a.antennas (a.getOFDMPlane n)
  · have hant := h.onAntennas
    rw [hblocks] at hant
    refine ⟨sum_eq_zero_iff.1 hant.symm j (mem_range.2 hj), fun b hb => ?_⟩
    exact sum_eq_zero_iff.1 (sum_eq_zero_iff.1 hmapped.symm j (mem_range.2 hj)) b (mem_range.2 hb)
  · exact h.outside j (Nat.le_of_not_lt hj)

theorem Books.mirror_of_single (h : a.Books n) (hmu : ¬(a.allocatedRbsUe n).muMimoEnabled = true)
    (j b : ℕ) : (a.allocatedRbsPerBand .MU_MIMO_PLANE j b).ueAllocatedRbsMap n = 0 ∧
      (a.allocatedRbsPerBand .MU_MIMO_PLANE j b).ueAllocatedBytesMap n = 0 :=
  h.mirror (Bool.eq_false_iff.2 fun hs => hmu (h.secondary hs)) j b

theorem pairUsers_peer : (a.pairUsers nodeId peer).allocatedRbsUe peer =
    { a.allocatedRbsUe peer with
      muMimoEnabled := true
      peerId := nodeId
      secondaryUser := true
      availableAntennaSet := (a.allocatedRbsUe nodeId).availableAntennaSet } := by
  by_cases hn : peer = nodeId
  · subst hn
    simp [pairUsers]
  · simp [pairUsers, Function.update_of_ne hn]

/-- The secondary user is looked up in the mirror plane, where it has nothing. -/
theorem getBytes_pairUsers_peer (nodeId : MacNodeId) (h : a.Books peer)
    (hpeer : ¬(a.allocatedRbsUe peer).muMimoEnabled = true) (j : ℕ) (b : Band) :
    (a.pairUsers nodeId peer).getBlocks j b peer = 0 ∧
      (a.pairUsers nodeId peer).getBytes j b peer = 0 := by
  have hplane : (a.pairUsers nodeId peer).getOFDMPlane peer = .MU_MIMO_PLANE := by
    rw [getOFDMPlane, pairUsers_peer]
    rfl
  rw [getBlocks, getBytes, hplane]
  exact h.mirror_of_single hpeer j b

theorem books_pairUsers_peer (hn : a.Books nodeId) (h : a.Books peer)
    (hpeer : ¬(a.allocatedRbsUe peer).muMimoEnabled = true)
    (hzero : (a.allocatedRbsUe peer).allocatedBytes = 0) :
    (a.pairUsers nodeId peer).Books peer := by
  obtain ⟨hblocks, hant⟩ := h.nothing hzero
  have hnone := fun j b => getBytes_pairUsers_peer nodeId h hpeer j b
  have hue : (a.pairUsers nodeId peer).allocatedRbsUe peer = _ := pairUsers_peer
  have hmapped : ((a.pairUsers nodeId peer).allocatedRbsUe peer).mapped =
      (a.allocatedRbsUe peer).mapped := by
    rw [hue]
    rfl
  refine ⟨?_, fun _ => ?_, fun hs => ?_, fun j _ => ?_, fun j b _ => (hnone j b).1,
    ?_, ?_, ?_, ?_⟩
  · rw [hue]
    exact hn.single
  · rw [hue]
  · rw [hue] at hs
    cases hs
  · rw [hmapped, hue]
    exact hant j
  · rw [hue]
    exact hblocks.trans (sum_eq_zero fun b _ => (hnone MACRO b).1).symm
  · rw [hue]
    exact hblocks.trans (sum_eq_zero fun j _ => (hant j).1).symm
  · rw [hue]
    exact hzero.trans (sum_eq_zero fun j _ => sum_eq_zero fun b _ => (hnone j b).2).symm
  · rw [hmapped, hue]
    refine hzero.trans (sum_eq_zero fun j _ => sum_eq_zero fun b hb => ?_).symm
    exact (hant j).2 b (mem_range.1 hb)

theorem books_pairUsers_primary (h : a.Books nodeId) (hne : nodeId ≠ peer)
    (hnode : ¬(a.allocatedRbsUe nodeId).muMimoEnabled = true) :
    (a.pairUsers nodeId peer).Books nodeId := by
  -- a user without a peer is the first of its pair
  have hs : (a.allocatedRbsUe nodeId).secondaryUser = false :=
    Bool.eq_false_iff.2 fun hs => hnode (h.secondary hs)
  have hue : (a.pairUsers nodeId peer).allocatedRbsUe nodeId =
      { a.allocatedRbsUe nodeId with
        muMimoEnabled := true, peerId := peer, secondaryUser := false } := by
    simp [pairUsers, Function.update_of_ne hne]
  have hplane : (a.pairUsers nodeId peer).getOFDMPlane nodeId = a.getOFDMPlane nodeId := by
    rw [getOFDMPlane, getOFDMPlane, hue, hs]
  have hblocks : ∀ j b, (a.pairUsers nodeId peer).getBlocks j b nodeId =
      a.getBlocks j b nodeId := fun j b => by
    rw [getBlocks, getBlocks, hplane]
    rfl
  have hbytes : ∀ j b, (a.pairUsers nodeId peer).getBytes j b nodeId =
      a.getBytes j b nodeId := fun j b => by
    rw [getBytes, getBytes, hplane]
    rfl
  have hmapped : ((a.pairUsers nodeId peer).allocatedRbsUe nodeId).mapped =
      (a.allocatedRbsUe nodeId).mapped := by
    rw [hue]
    rfl
  -- the main plane of the first user is what it was
  refine ⟨?_, fun _ => ?_, fun _ => h.mirror hs, ?_, fun j b => ?_, ?_, ?_, ?_, ?_⟩
  · rw [hue]
    exact h.single
  · rw [hue]
  · rw [hmapped, hplane, hue]
    exact h.outside
  · rw [hblocks, hbytes]
    exact h.paid j b
  · simp only [hblocks]
    rw [hue]
    exact h.occupation
  · rw [hplane, hue]
    exact h.onAntennas
  · simp only [hbytes]
    rw [hplane, hue]
    exact h.bytes
  · rw [hmapped, hplane, hue]
    exact h.mapped

/-- **A pair** keeps the books if the secondary user has no bytes. -/
theorem books_pairUsers (h : ∀ n, a.Books n)
    (hnode : ¬(a.allocatedRbsUe nodeId).muMimoEnabled = true)
    (hpeer : ¬(a.allocatedRbsUe peer).muMimoEnabled = true)
    (hzero : (a.allocatedRbsUe peer).allocatedBytes = 0) (n : MacNodeId) :
    (a.pairUsers nodeId peer).Books n := by
  by_cases hn : n = peer
  · subst hn
    exact books_pairUsers_peer (h nodeId) (h n) hpeer hzero
  by_cases hnn : n = nodeId
  · subst hnn
    exact books_pairUsers_primary (h n) hn hnode
  · refine (h n).frame ?_ rfl rfl (fun _ _ _ => rfl) fun _ _ _ => rfl
    simp only [pairUsers]
    rw [Function.update_of_ne hn, Function.update_of_ne hnn]

/-! ### Requests -/

theorem noteBlocks_ue : (a.noteBlocks antenna band nodeId blocks bytes).allocatedRbsUe nodeId =
    (a.allocatedRbsUe nodeId).add antenna band blocks bytes := Function.update_self ..

theorem getBlocks_noteBlocks :
    (a.noteBlocks antenna band nodeId blocks bytes).getBlocks j b nodeId =
      a.getBlocks j b nodeId + (if j = antenna ∧ b = band then blocks else 0) ∧
    (a.noteBlocks antenna band nodeId blocks bytes).getBytes j b nodeId =
      a.getBytes j b nodeId + if j = antenna ∧ b = band then bytes else 0 := by
  have hplane : (a.noteBlocks antenna band nodeId blocks bytes).getOFDMPlane nodeId =
      a.getOFDMPlane nodeId := by
    rw [getOFDMPlane, getOFDMPlane, noteBlocks_ue]
    rfl
  simp only [getBlocks, getBytes, hplane]
  simp only [noteBlocks, true_and]
  split_ifs
  · simp [AllocatedRbsPerBandInfo.add]
  · exact ⟨rfl, rfl⟩

theorem noteBlocks_other (hn : n ≠ nodeId) (p : Plane) (j : ℕ) (b : Band) :
    let info := (a.noteBlocks antenna band nodeId blocks bytes).allocatedRbsPerBand p j b
    info.ueAllocatedRbsMap n = (a.allocatedRbsPerBand p j b).ueAllocatedRbsMap n ∧
      info.ueAllocatedBytesMap n = (a.allocatedRbsPerBand p j b).ueAllocatedBytesMap n := by
  simp only [noteBlocks]
  split
  · exact ⟨Function.update_of_ne hn _ _, Function.update_of_ne hn _ _⟩
  · exact ⟨rfl, rfl⟩

theorem mapped_add (i : AllocatedRbsPerUeInfo) : (i.add antenna band blocks bytes).mapped j b =
    i.mapped j b + if j = antenna ∧ b = band then bytes else 0 := by
  unfold AllocatedRbsPerUeInfo.mapped AllocatedRbsPerUeInfo.add
  by_cases hj : j = antenna
  · subst hj
    by_cases hb : b = band
    · subst hb
      simp
    · simp [hb]
  · simp [hj]

theorem sum_getBlocks_noteBlocks (hband : band < a.bands) :
    ∑ b ∈ range a.bands,
        (a.noteBlocks antenna band nodeId blocks bytes).getBlocks MACRO b nodeId =
      ∑ b ∈ range a.bands, a.getBlocks MACRO b nodeId + if antenna = MACRO then blocks else 0 := by
  simp only [getBlocks_noteBlocks, sum_add_distrib, eq_comm (a := MACRO)]
  congr 1
  by_cases hant : antenna = MACRO
  · simp [hant, hband]
  · simp [hant]

/-- **A request keeps the books** if it is for an antenna of the UE or books no blocks. -/
theorem books_noteBlocks (h : ∀ n, a.Books n) (hband : band < a.bands) (hbytes : bytes ≠ 0)
    (hant : antenna < a.antennas (a.getOFDMPlane nodeId)) (hok : antenna = MACRO ∨ blocks = 0)
    (n : MacNodeId) : (a.noteBlocks antenna band nodeId blocks bytes).Books n := by
  -- the books of the UE that gets the blocks
  by_cases hn : n = nodeId
  · subst hn
    have hue : (a.noteBlocks antenna band n blocks bytes).allocatedRbsUe n =
        (a.allocatedRbsUe n).add antenna band blocks bytes := noteBlocks_ue
    have hplane : (a.noteBlocks antenna band n blocks bytes).getOFDMPlane n =
        a.getOFDMPlane n := by
      rw [getOFDMPlane, getOFDMPlane, hue]
      rfl
    have hother : ∀ p, p ≠ a.getOFDMPlane n → ∀ j,
        (a.noteBlocks antenna band n blocks bytes).allocatedRbsPerBand p j =
          a.allocatedRbsPerBand p j := fun p hp j => funext fun b => if_neg fun hpj => hp hpj.1
    refine ⟨?_, ?_, fun hs j b => ?_, fun j hj => ?_, fun j b hb => ?_, ?_, ?_, ?_, ?_⟩
    · rw [hue]
      exact (h n).single
    · rw [hue]
      exact (h n).secondary
    · -- a UE of the main plane has nothing on the other
      rw [hue] at hs
      have hs : (a.allocatedRbsUe n).secondaryUser = false := hs
      rw [hother _ (by simp [getOFDMPlane, hs])]
      exact (h n).mirror hs j b
    · rw [hplane] at hj
      have hj : a.antennas (a.getOFDMPlane n) ≤ j := hj
      have hne : j ≠ antenna := by omega
      obtain ⟨hrbs, hmapped⟩ := (h n).outside j hj
      rw [hue]
      refine ⟨(Function.update_of_ne hne _ _).trans hrbs, fun b hb => ?_⟩
      rw [mapped_add, hmapped b hb, if_neg fun hjb => hne hjb.1]
    · rw [getBlocks_noteBlocks.1]
      rw [getBlocks_noteBlocks.2] at hb
      split_ifs at hb ⊢
      · omega
      · exact (h n).paid j b hb
    · -- only blocks of the macro antenna are in the occupation
      rw [hue]
      refine Eq.trans ?_ (sum_getBlocks_noteBlocks hband).symm
      rw [← (h n).occupation]
      show _ + blocks = _
      rcases hok with hmacro | hzero
      · rw [if_pos hmacro]
      · simp [hzero]
    · rw [hplane, hue]
      show _ + blocks = ∑ j ∈ range (a.antennas (a.getOFDMPlane n)), Function.update _ _ _ j
      have hsum := sum_update (mem_range.2 hant) (a.allocatedRbsUe n).antennaAllocatedRbs
        ((a.allocatedRbsUe n).antennaAllocatedRbs antenna + blocks)
      rw [(h n).onAntennas]
      omega
    · rw [hplane, hue]
      show _ + bytes = ∑ j ∈ range (a.antennas (a.getOFDMPlane n)), ∑ b ∈ range a.bands, _
      simp only [getBlocks_noteBlocks.2]
      rw [sum_sum_add_ite hant hband, ← (h n).bytes]
    · rw [hplane, hue]
      show _ + bytes = ∑ j ∈ range (a.antennas (a.getOFDMPlane n)), ∑ b ∈ range a.bands, _
      simp only [mapped_add]
      rw [sum_sum_add_ite hant hband, ← (h n).mapped]
  · -- the books of another UE
    refine (h n).frame ?_ rfl rfl (fun p j b => (noteBlocks_other hn p j b).1)
      fun p j b => (noteBlocks_other hn p j b).2
    exact Function.update_of_ne hn _ _

/-- Blocks on another antenna are not among those of the occupation. -/
theorem occupation_noteBlocks (h : a.Books nodeId) (hband : band < a.bands)
    (hant : antenna ≠ MACRO) (hblocks : blocks ≠ 0) :
    ((a.noteBlocks antenna band nodeId blocks bytes).allocatedRbsUe nodeId).allocatedBlocks ≠
      ∑ b ∈ range a.bands,
        (a.noteBlocks antenna band nodeId blocks bytes).getBlocks MACRO b nodeId := by
  rw [sum_getBlocks_noteBlocks hband, if_neg hant, ← h.occupation, noteBlocks_ue]
  show _ + blocks ≠ _ + 0
  omega

/-! ### Taking blocks back -/

theorem drainBlocks_ue {toDrain : ℕ} :
    (a.drainBlocks antenna band nodeId toDrain).allocatedRbsUe nodeId =
        (a.allocatedRbsUe nodeId).drain antenna band toDrain ∧
      (a.drainBlocks antenna band nodeId toDrain).getOFDMPlane nodeId = a.getOFDMPlane nodeId := by
  have hue : (a.drainBlocks antenna band nodeId toDrain).allocatedRbsUe nodeId =
      (a.allocatedRbsUe nodeId).drain antenna band toDrain := Function.update_self ..
  refine ⟨hue, ?_⟩
  rw [getOFDMPlane, getOFDMPlane, hue]
  rfl

theorem getBytes_drainBlocks {toDrain : ℕ} :
    (a.drainBlocks antenna band nodeId toDrain).getBytes j b nodeId = a.getBytes j b nodeId := by
  simp only [getBytes, drainBlocks_ue.2]
  simp only [drainBlocks]
  split_ifs <;> rfl

theorem Books.bytes_pos (h : a.Books n) (hband : band < a.bands)
    (hant : antenna < a.antennas (a.getOFDMPlane n)) (hget : a.getBytes antenna band n ≠ 0) :
    (a.allocatedRbsUe n).allocatedBytes ≠ 0 := by
  intro hzero
  have hbytes := h.bytes
  rw [hzero] at hbytes
  have hrow := sum_eq_zero_iff.1 hbytes.symm antenna (mem_range.2 hant)
  exact hget (sum_eq_zero_iff.1 hrow band (mem_range.2 hband))

theorem addBlocksInt_cases {added : Bool}
    (hr : a.addBlocksInt antenna band nodeId blocks bytes = .ok (a', added)) :
    band < a.bands ∧ (a' = a ∨ a' = a.noteBlocks antenna band nodeId blocks bytes ∧ bytes ≠ 0 ∧
      ¬i32 (a.availableBlocks nodeId antenna band) - i32 blocks < 0) := by
  unfold addBlocksInt at hr
  split_ifs at hr with hband hreq
  all_goals
    cases hr
    refine ⟨Nat.lt_of_not_le hband, ?_⟩
  · exact .inl rfl
  · rw [not_or] at hreq
    exact .inr ⟨rfl, hreq.2, hreq.1⟩

/-- A UE has its view back iff it has nothing on the band. -/
theorem Books.restores_iff (h : a.Books nodeId) (hband : band < a.bands)
    (hant : antenna < a.antennas (a.getOFDMPlane nodeId))
    (havail : a.availableBlocks nodeId antenna band < 2147483648) :
    a.Restores antenna band nodeId ↔ a.getBytes antenna band nodeId = 0 := by
  constructor
  · rintro ⟨a', added, hr, hview⟩
    by_contra hbytes
    have hold := h.bytes_pos hband hant hbytes
    have htotal : (a'.allocatedRbsUe nodeId).allocatedBytes =
        (a.allocatedRbsUe nodeId).allocatedBytes := congrArg UeView.allocatedBytes hview
    have hrbs : (a'.allocatedRbsUe nodeId).antennaAllocatedRbs =
        (a.allocatedRbsUe nodeId).antennaAllocatedRbs := congrArg UeView.antennaAllocatedRbs hview
    rw [removeBlocks, if_neg (Nat.not_le.2 hband)] at hr
    dsimp only at hr
    split_ifs at hr with hzero
    · -- nothing is taken back, and the bytes are added once more
      rw [addBlocksInt, if_neg (Nat.not_le.2 hband), if_neg] at hr
      · cases hr
        simp only [noteBlocks, Function.update_self, AllocatedRbsPerUeInfo.add] at htotal
        omega
      · rw [i32_of_lt havail, show i32 (a, 0).2 = 0 from rfl]
        omega
    · rcases (addBlocksInt_cases hr).2 with rfl | ⟨rfl, -⟩
      · -- without the blocks there are no bytes
        simp only [drainBlocks, Function.update_self, AllocatedRbsPerUeInfo.drain] at htotal
        exact hold htotal.symm
      · -- the blocks of the antenna are counted twice
        have hcount := congrFun hrbs antenna
        simp only [noteBlocks, drainBlocks, Function.update_self, AllocatedRbsPerUeInfo.add,
          AllocatedRbsPerUeInfo.drain] at hcount
        omega
  · intro hbytes
    have hremove : a.removeBlocks antenna band nodeId = (a, 0) := by
      rw [removeBlocks, if_neg (Nat.not_le.2 hband)]
      exact if_pos (h.paid antenna band hbytes)
    refine ⟨a, false, ?_, rfl⟩
    rw [hremove, hbytes, addBlocksInt, if_neg (Nat.not_le.2 hband), if_pos (.inr rfl)]

end LteAllocationModule

namespace AllocatorRun

variable {s s' : AllocatorRun} {e : Event} {os : List Answer}

/-! ### Whole runs -/

theorem agree_of_books {n : MacNodeId} (h : s.allocator.Books n) (hn : n ∈ s.ues) : s.Agree n where
  occupation rbMap := by
    have hsum : (s.allocator.rbOccupation n rbMap).1 =
        (s.allocator.allocatedRbsUe n).allocatedBlocks := by
      rw [LteAllocationModule.rbOccupation, h.single, h.occupation]
      simp
    rw [rbOccupation, if_pos hn, ← hsum]
    exact ⟨_, rfl⟩
  antennas := h.onAntennas
  bytes := h.bytes
  mapped := h.mapped

theorem step_peering {nodeId peer : MacNodeId}
    (hst : machine.step s (.configureMuMimoPeering nodeId peer) = some (s', os)) :
    s' = ⟨(s.allocator.configureMuMimoPeering nodeId peer).1,
      if (s.allocator.allocatedRbsUe nodeId).muMimoEnabled then insert nodeId s.ues
      else insert peer (insert nodeId s.ues)⟩ :=
  (Prod.mk.inj (Option.some.inj hst)).1.symm

theorem books_addBlocksInt {antenna : ℕ} {band : Band} {nodeId : MacNodeId} {blocks bytes : ℕ}
    {a : LteAllocationModule} {added : Bool} (h : ∀ n, s.allocator.Books n)
    (hant : band < s.allocator.bands →
      antenna < s.allocator.antennas (s.allocator.getOFDMPlane nodeId))
    (hok : s.AntennaOk antenna band nodeId blocks bytes)
    (hr : s.allocator.addBlocksInt antenna band nodeId blocks bytes = .ok (a, added))
    (n : MacNodeId) : a.Books n := by
  obtain ⟨hband, rfl | ⟨rfl, hbytes, hfits⟩⟩ := LteAllocationModule.addBlocksInt_cases hr
  · exact h n
  · refine LteAllocationModule.books_noteBlocks h hband hbytes (hant hband) ?_ n
    rw [AntennaOk, (h nodeId).single, List.mem_singleton] at hok
    rcases hok with hmacro | hle | hzero | hzero | hneg
    · exact .inl hmacro
    · exact absurd hle (Nat.not_le.2 hband)
    · exact .inr hzero
    · exact absurd hzero hbytes
    · exact absurd hneg hfits

theorem books_answer {ues : Finset MacNodeId} (h : ∀ n, s.allocator.Books n)
    {r : Except SchedulerError (LteAllocationModule × Bool)}
    (hr : ∀ a added, r = .ok (a, added) → ∀ n, a.Books n) (hs : s.answer ues r = (s', os))
    (n : MacNodeId) : s'.allocator.Books n := by
  cases r with
  | error e =>
    cases hs
    exact h n
  | ok r =>
    cases hs
    exact hr _ _ rfl n

/-- **One operation** that meets the condition keeps the books of every UE. -/
theorem books_step (h : ∀ n, s.allocator.Books n) (hok : e.Keeps s)
    (hst : machine.step s e = some (s', os)) (n : MacNodeId) : s'.allocator.Books n := by
  cases e with
  | initAndReset resourceBlocks bands hbands =>
    cases hst
    exact LteAllocationModule.books_initAndReset resourceBlocks bands n
  | setRemoteAntenna plane antenna =>
    simp only [machine, handle] at hst
    split_ifs at hst <;> cases hst
    · exact h n
    · exact (h n).addAntennas
  -- a pair is made only of users without a peer, and the second has no bytes
  | configureMuMimoPeering nodeId peer =>
    rw [step_peering hst]
    by_cases hnot : (s.allocator.allocatedRbsUe nodeId).muMimoEnabled ∨
        (s.allocator.allocatedRbsUe peer).muMimoEnabled
    · rw [LteAllocationModule.configureMuMimoPeering, if_pos hnot]
      exact h n
    · rw [LteAllocationModule.configureMuMimoPeering_eq (h nodeId).single hnot]
      dsimp only
      rw [not_or] at hnot
      exact LteAllocationModule.books_pairUsers (fun n => (h n).addAntennas) hnot.1 hnot.2
        ((hok.resolve_left hnot.1).resolve_left hnot.2) n
  | addBlocks band nodeId blocks bytes hblocks =>
    simp only [machine, handle] at hst
    split_ifs at hst with hue
    · obtain ⟨r, hr, hst⟩ := Option.map_eq_some_iff.1 hst
      rw [(h nodeId).single, LteAllocationModule.addBlocksAny_single] at hr
      obtain ⟨hant, hr⟩ := LteAllocationModule.addBlocksOn_eq_some.1 hr
      have hmacro : s.AntennaOk MACRO band nodeId blocks bytes := by
        rw [AntennaOk, (h nodeId).single]
        exact .inl List.mem_cons_self
      exact books_answer h (fun a added ha => books_addBlocksInt h hant hmacro (hr.trans ha)) hst n
    · cases hst
      exact h n
  | addBlocksOn antenna band nodeId blocks bytes hblocks =>
    obtain ⟨r, hr, hst⟩ := Option.map_eq_some_iff.1 hst
    obtain ⟨hant, hr⟩ := LteAllocationModule.addBlocksOn_eq_some.1 hr
    exact books_answer h (fun a added ha => books_addBlocksInt h hant hok (hr.trans ha)) hst n
  | removeBlocks antenna band nodeId =>
    simp only [machine, handle] at hst
    split_ifs at hst with hband hant
    · cases hst
      exact h n
    · rw [LteAllocationModule.removeBlocks, if_neg hband] at hst
      dsimp only at hst
      rw [if_pos (hok (Nat.lt_of_not_le hband))] at hst
      cases hst
      exact h n

/-- **One operation** that does not meet it leaves some UE with answers that do not agree. -/
theorem not_agree_step (h : ∀ n, s.allocator.Books n) (hnot : ¬e.Keeps s)
    (hst : machine.step s e = some (s', os)) : ∃ n ∈ s'.ues, ¬s'.Agree n := by
  cases e with
  | initAndReset resourceBlocks bands hbands => exact absurd trivial hnot
  | setRemoteAntenna plane antenna => exact absurd trivial hnot
  | addBlocks band nodeId blocks bytes hblocks => exact absurd trivial hnot
  -- the peer loses what it had
  | configureMuMimoPeering nodeId peer =>
    simp only [Event.Keeps, not_or] at hnot
    obtain ⟨hnode, hpeer, hbytes⟩ := hnot
    have hpair := LteAllocationModule.configureMuMimoPeering_eq (h nodeId).single
      (not_or.2 ⟨hnode, hpeer⟩)
    rw [step_peering hst, hpair, if_neg hnode]
    refine ⟨peer, mem_insert_self _ _, fun hagree => hbytes ?_⟩
    have hbooks : (s.allocator.addAntennas .MU_MIMO_PLANE (MACRO + 1)
        (s.allocator.totalRbsMatrix .MAIN_PLANE MACRO)).Books peer := (h peer).addAntennas
    have hnone := fun j b =>
      LteAllocationModule.getBytes_pairUsers_peer nodeId hbooks hpeer j b
    have htotal := hagree.bytes
    simp only [hnone, sum_const_zero, LteAllocationModule.pairUsers_peer] at htotal
    exact htotal
  -- the blocks of another antenna are in the books, but not in the occupation
  | addBlocksOn antenna band nodeId blocks bytes hblocks =>
    simp only [Event.Keeps, AntennaOk, not_or, (h nodeId).single, List.mem_singleton] at hnot
    obtain ⟨hantenna, hband, hzero, hbytes, hfits⟩ := hnot
    obtain ⟨r, hr, hst⟩ := Option.map_eq_some_iff.1 hst
    obtain ⟨hant, hr⟩ := LteAllocationModule.addBlocksOn_eq_some.1 hr
    rw [LteAllocationModule.addBlocksInt, if_neg hband, if_neg (not_or.2 ⟨hfits, hbytes⟩)] at hr
    subst hr
    cases hst
    rw [if_pos (Nat.lt_of_not_le hband)]
    refine ⟨nodeId, mem_insert_self _ _, fun hagree => ?_⟩
    have hsingle : (((s.allocator.noteBlocks antenna band nodeId blocks bytes).allocatedRbsUe
        nodeId).availableAntennaSet) = [MACRO] := by
      rw [LteAllocationModule.noteBlocks_ue]
      exact (h nodeId).single
    obtain ⟨rbMap', hocc⟩ := hagree.occupation fun _ _ => 0
    rw [rbOccupation, if_pos (mem_insert_self _ _)] at hocc
    have hsum := congrArg Prod.fst (Except.ok.inj hocc)
    simp only [LteAllocationModule.rbOccupation, hsingle, List.map_cons, List.map_nil,
      List.sum_cons, List.sum_nil, Nat.add_zero] at hsum
    exact LteAllocationModule.occupation_noteBlocks (h nodeId) (Nat.lt_of_not_le hband) hantenna
      hzero hsum.symm
  -- the blocks are drained, but the bytes stay
  | removeBlocks antenna band nodeId =>
    simp only [Event.Keeps, Classical.not_imp] at hnot
    obtain ⟨hband, hblocks⟩ := hnot
    simp only [machine, handle] at hst
    split_ifs at hst with hband' hant
    · exact absurd hband (Nat.not_lt.2 hband')
    · rw [LteAllocationModule.removeBlocks, if_neg hband'] at hst
      dsimp only at hst
      rw [if_neg hblocks] at hst
      cases hst
      refine ⟨nodeId, mem_insert_self _ _, fun hagree => ?_⟩
      have hpos := (h nodeId).bytes_pos hband (Nat.lt_of_not_le hant)
        (mt ((h nodeId).paid antenna band) hblocks)
      have htotal := hagree.bytes
      simp only [LteAllocationModule.getBytes_drainBlocks, LteAllocationModule.drainBlocks_ue]
        at htotal
      exact hpos ((h nodeId).bytes.trans htotal.symm)

/-- **The answers about the UEs agree** after a run that meets the condition, and after the next
operation iff it meets it, too; and when taking back and adding again restores a view. -/
theorem views_iff {resourceBlocks bands : ℕ} {es : List Event}
    (hrun : machine.exec (reset resourceBlocks bands) es = some (s, os))
    (hok : ∀ s e s' o, machine.Takes (reset resourceBlocks bands) es s e s' o → e.Keeps s) :
    (∀ n ∈ s.ues, s.Agree n) ∧
      (∀ e s' o, machine.step s e = some (s', o) →
        ((∀ n ∈ s'.ues, s'.Agree n) ↔ e.Keeps s)) ∧
      ∀ antenna band nodeId, band < s.allocator.bands →
        antenna < s.allocator.antennas (s.allocator.getOFDMPlane nodeId) →
        s.allocator.availableBlocks nodeId antenna band < 2147483648 →
        (s.allocator.Restores antenna band nodeId ↔
          s.allocator.getBytes antenna band nodeId = 0) := by
  have hbooks : ∀ n, s.allocator.Books n :=
    Machine.exec_induction_of (C := fun s e => Event.Keeps s e)
      (J := fun _ s _ => ∀ n, s.allocator.Books n)
      (LteAllocationModule.books_initAndReset resourceBlocks bands)
      (fun _ _ _ _ _ _ _ ih hC hst => books_step ih hC hst) hok hrun
  refine ⟨fun n hn => agree_of_books (hbooks n) hn,
    fun e s' o hst => ⟨fun hagree => ?_, fun hC => ?_⟩,
    fun antenna band nodeId hband hant havail => (hbooks nodeId).restores_iff hband hant havail⟩
  · by_contra hnot
    obtain ⟨n, hn, hbad⟩ := not_agree_step hbooks hnot hst
    exact hbad (hagree n hn)
  · exact fun n hn => agree_of_books (books_step hbooks hC hst n) hn

/-- Two bands for the UE `1025`, and a pair of the UE with `1026`, which gets blocks afterwards. -/
def pairedEvents : List Event :=
  [.addBlocksOn MACRO 0 1025 2 40 (by decide), .addBlocksOn MACRO 1 1025 3 60 (by decide),
    .configureMuMimoPeering 1025 1026, .addBlocks 0 1026 1 20 (by decide),
    .removeBlocks MACRO 1 1026]

theorem views_iff_paired :
    ∃ s os, machine.exec (reset 10 2) pairedEvents = some (s, os) ∧
      s.ues = {1026, 1025} ∧ ∀ n ∈ s.ues, s.Agree n := by
  have hrun : machine.exec (reset 10 2) pairedEvents = some (_, _) := rfl
  have hok : machine.Meets (fun s e => e.Keeps s) (reset 10 2) pairedEvents := by decide +kernel
  exact ⟨_, _, hrun, rfl, (views_iff hrun fun s e s' o ht => hok.takes ht).1⟩

/-- The UE has blocks on two bands, and those on one of them are taken back: it has no bytes in its
total, all of them in the sum over the bands, and the blocks on its antenna are as before.  And a UE
with blocks that becomes a secondary user is not found any more. -/
theorem stale_bytes :
    ∃ s os s' os' t ot, machine.exec (reset 10 2)
        [.addBlocksOn MACRO 0 1025 2 40 (by decide), .addBlocksOn MACRO 1 1025 3 60 (by decide)] =
          some (s, os) ∧
      machine.step s (.removeBlocks MACRO 0 1025) = some (s', os') ∧
      (s'.allocator.allocatedRbsUe 1025).allocatedBytes = 0 ∧
      s'.allocator.getBytes MACRO 0 1025 = 40 ∧ s'.allocator.getBytes MACRO 1 1025 = 60 ∧
      (s'.allocator.allocatedRbsUe 1025).allocatedBlocks = 3 ∧
      (s'.allocator.allocatedRbsUe 1025).antennaAllocatedRbs MACRO = 5 ∧
      (¬∀ n ∈ s'.ues, s'.Agree n) ∧ ¬s.allocator.Restores MACRO 0 1025 ∧
      machine.step s (.configureMuMimoPeering 1026 1025) = some (t, ot) ∧
      (t.allocator.allocatedRbsUe 1025).allocatedBlocks = 5 ∧
      (t.allocator.rbOccupation 1025 fun _ _ => 0).1 = 0 ∧ ¬∀ n ∈ t.ues, t.Agree n := by
  refine ⟨_, _, _, _, _, _, rfl, rfl, rfl, rfl, rfl, rfl, rfl, fun h => ?_, ?_, rfl, rfl, rfl,
    fun h => ?_⟩
  · have hant := (h 1025 (by decide)).antennas
    revert hant
    decide
  · rintro ⟨a', added, hr, hview⟩
    cases hr
    have hant := congrFun (congrArg UeView.antennaAllocatedRbs hview) MACRO
    revert hant
    decide
  · have hbytes := (h 1025 (by decide)).bytes
    revert hbytes
    decide

end AllocatorRun

end V2nLte
