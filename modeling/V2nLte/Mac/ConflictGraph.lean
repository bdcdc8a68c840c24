import V2nLte.Lte.D2DModes
import V2nLte.Machine.PairMap
import Mathlib.Data.Prod.Lex

/-!
# The conflict graph

Direct transmissions that do not disturb each other may share resource blocks.  The eNB keeps a
`ConflictGraph`, whose vertices are the links between two UEs and the transmitters of multicasts; an
edge says that two of them must not be on the same block.  `DistanceBasedConflictGraph` compares
the distances of the UEs with three radii.

The double loop of `findEdges` comes to each pair in one order only, and the links are listed
before the multicasts.  So a link is compared with a multicast by their transmitters, and the case
that compares the transmitter of the multicast with the receiver of the link never occurs.

* `DistanceBasedConflictGraph.get_conflictGraph` : the entry for every pair of vertices.
* `DistanceBasedConflictGraph.captures_iff` : exactly when no interference is left out.
* `DistanceBasedConflictGraph.checkConflict_comm` : what the allocator reads of it is symmetric.
* `D2DNet.unicast_of_exec` : the flows of a network are between UEs.
-/

namespace V2nLte

/-- A `CGVertex`. -/
structure CGVertex where
  /-- The sender. -/
  srcId : MacNodeId
  /-- The receiver, `0` for a multicast. -/
  dstId : MacNodeId

namespace CGVertex

/-- `operator<`: by the source, then by the destination. -/
instance : LinearOrder CGVertex :=
  LinearOrder.lift' (fun v => toLex (v.srcId, v.dstId)) fun v w h => by
    obtain ⟨hsrc, hdst⟩ := Prod.mk.inj (toLex.injective h)
    cases v
    cases w
    exact congrArg₂ CGVertex.mk hsrc hdst

/-- A multicast has no destination. -/
def isMulticast (v : CGVertex) : Bool := v.dstId = 0

end CGVertex

/-- `CGMatrix`. -/
abbrev CGMatrix := PairMap CGVertex Bool

/-- `LteAllocatorBestFit::checkConflict`: some links of the two nodes are in conflict. -/
def checkConflict (cgMatrix : CGMatrix) (nodeIdA nodeIdB : MacNodeId) : Bool :=
  cgMatrix.any fun p => p.1.srcId = nodeIdA && p.2.any fun q => q.1.srcId = nodeIdB && q.2

/-- No receiver of a peering map is the node `0`: `checkD2DCapability` enters UEs only. -/
def Unicast (d2dPeeringMap : OrderedMap MacNodeId (OrderedMap MacNodeId LteD2DMode)) : Prop :=
  ∀ src row, (src, row) ∈ d2dPeeringMap → ∀ dst mode, (dst, mode) ∈ row → dst ≠ 0

/-- What a conflict graph reads of the binder. -/
structure D2DPeers where
  /-- The links, with their modes. -/
  d2dPeeringMap : OrderedMap MacNodeId (OrderedMap MacNodeId LteD2DMode) := []
  /-- The senders of multicasts. -/
  multicastTransmitterSet : List MacNodeId := []
  /-- The links go to UEs. -/
  unicast : Unicast d2dPeeringMap

/-- Where the UEs are, and how far from each other. -/
structure UePositions (P α : Type) where
  /-- Where a UE is. -/
  getUePosition : MacNodeId → P
  /-- How far two places are from each other. -/
  distance : P → P → α
  /-- It does not matter which is the first. -/
  distance_comm : ∀ a b, distance a b = distance b a

/-- The distance of two UEs. -/
def UePositions.between {P α : Type} (pos : UePositions P α) (a b : MacNodeId) : α :=
  pos.distance (pos.getUePosition a) (pos.getUePosition b)

/-- A `DistanceBasedConflictGraph`; its numbers are of type `α`. -/
structure DistanceBasedConflictGraph (α : Type) where
  /-- The links are in the graph. -/
  reuseD2D : Bool := true
  /-- The multicasts are in the graph. -/
  reuseD2DMulti : Bool := true
  /-- How far a link disturbs. -/
  d2dInterferenceRadius : α
  /-- How far a multicast is received. -/
  d2dMultiTransmissionRadius : α
  /-- How far a multicast disturbs. -/
  d2dMultiInterferenceRadius : α
  /-- The power that disturbs a link. -/
  d2dDbmThreshold : α
  /-- The power of a received multicast. -/
  d2dMultiTxDbmThreshold : α := d2dDbmThreshold
  /-- The power that disturbs a multicast. -/
  d2dMultiInterfDbmThreshold : α := d2dDbmThreshold
  /-- The path loss in the channel model of the eNB. -/
  getDbmFromDistance : α → α

namespace DistanceBasedConflictGraph

variable {P α : Type} (g : DistanceBasedConflictGraph α) (peers : D2DPeers)
  (pos : UePositions P α)

/-- `findVertices`. -/
def findVertices : List CGVertex :=
  (if g.reuseD2D then
    peers.d2dPeeringMap.flatMap fun p => p.2.map fun q => ⟨p.1, q.1⟩
  else []) ++
  (if g.reuseD2DMulti then peers.multicastTransmitterSet.map fun id => ⟨id, 0⟩ else [])

variable {g peers} {v1 v2 : CGVertex} in
theorem isMulticast_of_precedes (h : Precedes (g.findVertices peers) v1 v2)
    (hv1 : v1.isMulticast = true) : v2.isMulticast = true := by
  rcases h.of_append with hlink | hmulticast
  · split at hlink
    · obtain ⟨⟨src, row⟩, hrow, hlink⟩ := List.mem_flatMap.1 hlink
      obtain ⟨⟨dst, mode⟩, hentry, rfl⟩ := List.mem_map.1 hlink
      exact absurd (of_decide_eq_true hv1) (peers.unicast src row hrow dst mode hentry)
    · cases hlink
  · split at hmulticast
    · obtain ⟨id, -, rfl⟩ := List.mem_map.1 hmulticast
      rfl
    · cases hmulticast

variable [LinearOrder α] [Zero α] [Add α]

/-- What is computed for a pair of vertices. -/
def edge (v1 v2 : CGVertex) : Bool :=
  let v1Sender := pos.getUePosition v1.srcId
  let v2Sender := pos.getUePosition v2.srcId
  let v1Dest := pos.getUePosition v1.dstId
  let v2Dest := pos.getUePosition v2.dstId
  if v1 = v2 then true
  else
    match v1.isMulticast, v2.isMulticast with
    -- two links: each sender against the receiver of the other
    | false, false =>
      let distance1 := pos.distance v1Sender v2Dest
      let distance2 := pos.distance v2Sender v1Dest
      if 0 < g.d2dInterferenceRadius then
        distance1 < g.d2dInterferenceRadius || distance2 < g.d2dInterferenceRadius
      else
        g.getDbmFromDistance distance1 < g.d2dDbmThreshold ||
          g.getDbmFromDistance distance2 < g.d2dDbmThreshold
    -- a link and a multicast: the reach of the multicast and the radius of the link
    | false, true =>
      let distance := pos.distance v1Sender v2Sender
      if 0 < g.d2dMultiTransmissionRadius && 0 < g.d2dInterferenceRadius then
        distance < g.d2dMultiTransmissionRadius + g.d2dInterferenceRadius
      else g.getDbmFromDistance distance < g.d2dMultiTxDbmThreshold + g.d2dDbmThreshold
    -- a multicast and a link: the sender of the multicast against the receiver
    | true, false =>
      let distance := pos.distance v1Sender v2Dest
      if 0 < g.d2dMultiInterferenceRadius then distance < g.d2dMultiInterferenceRadius
      else g.getDbmFromDistance distance < g.d2dMultiInterfDbmThreshold
    -- two multicasts
    | true, true =>
      let distance := pos.distance v1Sender v2Sender
      if 0 < g.d2dMultiTransmissionRadius && 0 < g.d2dMultiInterferenceRadius then
        distance < g.d2dMultiTransmissionRadius + g.d2dMultiInterferenceRadius
      else g.getDbmFromDistance distance < g.d2dMultiTxDbmThreshold + g.d2dMultiInterfDbmThreshold

/-- `findEdges`. -/
def findEdges (vertices : List CGVertex) (conflictGraph : CGMatrix) : CGMatrix :=
  PairMap.fill (g.edge pos) vertices conflictGraph

/-- `computeConflictGraph`. -/
def computeConflictGraph : CGMatrix := g.findEdges pos (g.findVertices peers) []

/-! ### What is computed for each pair -/

variable {g peers pos} {v1 v2 : CGVertex}

/-- Two links, or two multicasts, are compared in the same way in either order. -/
theorem edge_comm (h : v1.isMulticast = v2.isMulticast) : g.edge pos v1 v2 = g.edge pos v2 v1 := by
  unfold edge
  by_cases heq : v1 = v2
  · rw [heq]
  · rw [if_neg heq, if_neg (Ne.symm heq), ← h]
    cases v1.isMulticast with
    | false => simp only [Bool.or_comm]
    | true =>
      simp only [pos.distance_comm (pos.getUePosition v1.srcId) (pos.getUePosition v2.srcId)]

/-- **The entry for a pair of vertices.** -/
theorem get_computeConflictGraph (hv1 : v1 ∈ g.findVertices peers)
    (hv2 : v2 ∈ g.findVertices peers) (h : v1.isMulticast = true → v2.isMulticast = true) :
    (g.computeConflictGraph peers pos).get v1 v2 = some (g.edge pos v1 v2) := by
  rcases PairMap.get_fill (g.edge pos) (g.findVertices peers) [] v1 v2 with
    ⟨-, -, x, hx, ⟨-, rfl⟩ | ⟨hprec, rfl⟩⟩ | ⟨hnot, -⟩
  · exact hx
  · refine hx.trans (congrArg some (edge_comm ?_))
    -- neither comes before the other as a multicast before a link
    cases hm : v2.isMulticast with
    | true => exact (isMulticast_of_precedes hprec hm).symm
    | false => exact (Bool.eq_false_iff.2 fun h1 => by rw [h h1] at hm; cases hm).symm
  · exact (hnot.elim (fun h => h hv1) fun h => h hv2).elim

theorem get_comm : (g.computeConflictGraph peers pos).get v1 v2 =
    (g.computeConflictGraph peers pos).get v2 v1 :=
  PairMap.fill_symm (fun _ _ => rfl) v1 v2

/-! ### Interference -/

/-- The graph tells of all interference: of two links, exactly when the transmitter of one is near
the receiver of the other; of a link and a multicast, whenever the transmitter of the multicast is
near the receiver of the link, or the transmitters are near each other. -/
structure Captures (g : DistanceBasedConflictGraph α) (peers : D2DPeers)
    (pos : UePositions P α) : Prop where
  /-- Of any two vertices the graph says whether they conflict. -/
  total : ∀ v ∈ g.findVertices peers, ∀ w ∈ g.findVertices peers,
    ((g.computeConflictGraph peers pos).get v w).isSome = true
  /-- A conflict is mutual. -/
  symmetric : ∀ v w, (g.computeConflictGraph peers pos).get v w =
    (g.computeConflictGraph peers pos).get w v
  /-- A vertex conflicts with itself. -/
  diagonal : ∀ v ∈ g.findVertices peers, (g.computeConflictGraph peers pos).get v v = some true
  /-- A multicast conflicts with the links it disturbs. -/
  multicast : ∀ p ∈ g.findVertices peers, ∀ m ∈ g.findVertices peers, p.isMulticast = false →
    m.isMulticast = true → pos.between m.srcId p.dstId < g.d2dMultiInterferenceRadius ∨
      pos.between p.srcId m.srcId < g.d2dMultiTransmissionRadius + g.d2dInterferenceRadius →
    (g.computeConflictGraph peers pos).get p m = some true
  /-- Two links conflict exactly when one disturbs the other. -/
  links : ∀ p ∈ g.findVertices peers, ∀ q ∈ g.findVertices peers, p.isMulticast = false →
    q.isMulticast = false → p ≠ q → ((g.computeConflictGraph peers pos).get p q = some true ↔
      pos.between p.srcId q.dstId < g.d2dInterferenceRadius ∨
        pos.between q.srcId p.dstId < g.d2dInterferenceRadius)

theorem edge_self (v : CGVertex) : g.edge pos v v = true := if_pos rfl

theorem edge_links (hI : 0 < g.d2dInterferenceRadius) (hv1 : v1.isMulticast = false)
    (hv2 : v2.isMulticast = false) (hne : v1 ≠ v2) : g.edge pos v1 v2 = true ↔
      pos.between v1.srcId v2.dstId < g.d2dInterferenceRadius ∨
        pos.between v2.srcId v1.dstId < g.d2dInterferenceRadius := by
  rw [edge, if_neg hne, hv1, hv2]
  dsimp only
  rw [if_pos hI, Bool.or_eq_true, decide_eq_true_iff, decide_eq_true_iff]
  rfl

theorem edge_multicast (hI : 0 < g.d2dInterferenceRadius) (hT : 0 < g.d2dMultiTransmissionRadius)
    (hv1 : v1.isMulticast = false) (hv2 : v2.isMulticast = true) : g.edge pos v1 v2 = true ↔
      pos.between v1.srcId v2.srcId < g.d2dMultiTransmissionRadius + g.d2dInterferenceRadius := by
  have hne : v1 ≠ v2 := by
    rintro rfl
    rw [hv1] at hv2
    cases hv2
  rw [edge, if_neg hne, hv1, hv2]
  dsimp only
  rw [decide_eq_true hI, decide_eq_true hT, Bool.and_self, if_pos rfl, decide_eq_true_iff]
  rfl

/-- **No interference is left out** iff the transmitters of a link and a multicast are near each
other whenever the receiver of the link is near the multicast. -/
theorem captures_iff (g : DistanceBasedConflictGraph α) (peers : D2DPeers)
    (pos : UePositions P α) (hI : 0 < g.d2dInterferenceRadius)
    (hT : 0 < g.d2dMultiTransmissionRadius) :
    g.Captures peers pos ↔
      ∀ p ∈ g.findVertices peers, ∀ m ∈ g.findVertices peers, p.isMulticast = false →
        m.isMulticast = true → pos.between m.srcId p.dstId < g.d2dMultiInterferenceRadius →
        pos.between p.srcId m.srcId < g.d2dMultiTransmissionRadius + g.d2dInterferenceRadius := by
  have hget : ∀ p ∈ g.findVertices peers, ∀ m ∈ g.findVertices peers, p.isMulticast = false →
      m.isMulticast = true → ((g.computeConflictGraph peers pos).get p m = some true ↔
        pos.between p.srcId m.srcId < g.d2dMultiTransmissionRadius + g.d2dInterferenceRadius) := by
    intro p hp m hm hlink hmulti
    rw [get_computeConflictGraph hp hm fun _ => hmulti, Option.some_inj]
    exact edge_multicast hI hT hlink hmulti
  constructor
  · intro h p hp m hm hlink hmulti hnear
    exact (hget p hp m hm hlink hmulti).1 (h.multicast p hp m hm hlink hmulti (.inl hnear))
  · intro h
    refine ⟨fun v hv w hw => ?_, fun v w => get_comm, fun v hv => ?_, ?_, ?_⟩
    · by_cases horder : v.isMulticast = true → w.isMulticast = true
      · rw [get_computeConflictGraph hv hw horder]
        rfl
      · have hv' : v.isMulticast = true := by_contra fun hv' => horder fun h => absurd h hv'
        rw [get_comm, get_computeConflictGraph hw hv fun _ => hv']
        rfl
    · rw [get_computeConflictGraph hv hv id, edge_self]
    · intro p hp m hm hlink hmulti hnear
      exact (hget p hp m hm hlink hmulti).2 (hnear.elim (h p hp m hm hlink hmulti) id)
    · intro p hp q hq hp' hq' hne
      rw [get_computeConflictGraph hp hq fun h => absurd (hp'.symm.trans h) (by decide),
        Option.some_inj]
      exact edge_links hI hp' hq' hne

/-- The UEs 1025, 1026 and 1027 on a road, the first of which talks to the second. -/
def onRoad (x₁ x₂ x₃ : ℤ) : D2DPeers × UePositions ℤ ℤ where
  fst := {
    d2dPeeringMap := [(1025, [(1026, .DM)])]
    multicastTransmitterSet := [1027]
    unicast := by
      intro src row hrow dst mode hentry
      obtain ⟨rfl, rfl⟩ := Prod.mk.inj (List.mem_singleton.1 hrow)
      obtain ⟨rfl, rfl⟩ := Prod.mk.inj (List.mem_singleton.1 hentry)
      decide }
  snd := {
    getUePosition id := if id = 1025 then x₁ else if id = 1026 then x₂ else x₃
    distance x y := |x - y|
    distance_comm := abs_sub_comm }

/-- A graph with the radii 10, 10 and 50. -/
def withRadii : DistanceBasedConflictGraph ℤ where
  d2dInterferenceRadius := 10
  d2dMultiTransmissionRadius := 10
  d2dMultiInterferenceRadius := 50
  d2dDbmThreshold := 0
  getDbmFromDistance := id

theorem captures_farAway : withRadii.Captures (onRoad 0 100 500).1 (onRoad 0 100 500).2 :=
  (captures_iff withRadii _ _ (by decide) (by decide)).2 (by decide)

/-- A multicast next to the receiver of a link: the transmitters are far from each other. -/
theorem interference_missed :
    ¬withRadii.Captures (onRoad 0 100 110).1 (onRoad 0 100 110).2 := by
  intro h
  have hmissed := h.multicast ⟨1025, 1026⟩ (by decide) ⟨1027, 0⟩ (by decide) rfl rfl
    (.inl (by decide))
  exact absurd hmissed (by decide)

end DistanceBasedConflictGraph

/-! ### The allocator and the binder -/

/-- The allocator finds a conflict of two nodes iff there is an edge between links of theirs. -/
theorem checkConflict_iff {cgMatrix : CGMatrix} (h : cgMatrix.Sorted)
    {nodeIdA nodeIdB : MacNodeId} : checkConflict cgMatrix nodeIdA nodeIdB = true ↔
      ∃ v w, v.srcId = nodeIdA ∧ w.srcId = nodeIdB ∧ cgMatrix.get v w = some true := by
  simp only [checkConflict, List.any_eq_true, Bool.and_eq_true, decide_eq_true_iff, h.get_eq_some]
  constructor
  · rintro ⟨⟨v, row⟩, hrow, hv, ⟨w, b⟩, hentry, hw, hb⟩
    obtain rfl : b = true := hb
    exact ⟨v, w, hv, hw, row, hrow, hentry⟩
  · rintro ⟨v, w, hv, hw, row, hrow, hentry⟩
    exact ⟨(v, row), hrow, hv, (w, true), hentry, hw, rfl⟩

/-- A symmetric matrix makes conflicts mutual. -/
theorem checkConflict_comm_of_symm {cgMatrix : CGMatrix} (h : cgMatrix.Sorted)
    (hsymm : ∀ v w, cgMatrix.get v w = cgMatrix.get w v) (nodeIdA nodeIdB : MacNodeId) :
    checkConflict cgMatrix nodeIdA nodeIdB = checkConflict cgMatrix nodeIdB nodeIdA := by
  have hmutual : ∀ {a b}, checkConflict cgMatrix a b = true →
      checkConflict cgMatrix b a = true := by
    intro a b hab
    obtain ⟨v, w, hv, hw, hget⟩ := (checkConflict_iff h).1 hab
    exact (checkConflict_iff h).2 ⟨w, v, hw, hv, (hsymm w v).trans hget⟩
  exact Bool.eq_iff_iff.2 ⟨hmutual, hmutual⟩

/-- **Conflicts are mutual.** -/
theorem DistanceBasedConflictGraph.checkConflict_comm {P α : Type} [LinearOrder α] [Zero α] [Add α]
    (g : DistanceBasedConflictGraph α) (peers : D2DPeers) (pos : UePositions P α)
    (nodeIdA nodeIdB : MacNodeId) :
    checkConflict (g.computeConflictGraph peers pos) nodeIdA nodeIdB =
      checkConflict (g.computeConflictGraph peers pos) nodeIdB nodeIdA :=
  checkConflict_comm_of_symm PairMap.sorted_nil.fill (fun _ _ => get_comm) nodeIdA nodeIdB

namespace D2DNet

variable {s s' : D2DNet} {es : List Event} {os : List Empty}

theorem handle_peers {e : Event} (hst : s.handle e = some s') {src dst : MacNodeId}
    (h : (s'.binder.d2dPeeringMap src dst).isSome = true) :
    (s.binder.d2dPeeringMap src dst).isSome = true ∨ UE_MIN_ID ≤ dst := by
  cases e with
  | registerEnb omnetId mac | registerUe omnetId mac masterId =>
    simp only [D2DNet.handle] at hst
    split_ifs at hst
    cases hst
    exact .inl h
  | checkD2DCapability src' dst' =>
    simp only [D2DNet.handle] at hst
    split_ifs at hst
    obtain ⟨b, hb, rfl⟩ := Option.map_eq_some_iff.1 hst
    have hb := toOption_eq_some.1 hb
    -- a mode is only decided for a destination that is a UE
    have hdst : UE_MIN_ID ≤ dst' := by
      by_contra hlt
      rw [BinderState.checkD2DCapability, if_pos (.inr (.inr (.inl (not_le.1 hlt))))] at hb
      cases hb
    obtain ⟨cache, rfl, -⟩ | ⟨cache, mode, rfl, -⟩ := BinderState.checkD2DCapability_cases hb
    · exact .inl h
    · by_cases hpair : src = src' ∧ dst = dst'
      · exact .inr (hpair.2 ▸ hdst)
      · refine .inl ?_
        rwa [BinderState.setMode_of_ne hpair] at h
  | modeSelectionTick cellId bitsUl bitsD2D =>
    simp only [D2DNet.handle] at hst
    split_ifs at hst
    cases hst
    exact .inl (Option.isSome_map.symm.trans h)
  | triggerHandover u candidateMasterId =>
    obtain ⟨ue, -, hst⟩ := Option.bind_eq_some_iff.1 hst
    split_ifs at hst
    rw [triggerHandover] at hst
    split_ifs at hst
    cases hst
    exact .inl (Option.isSome_map.symm.trans h)
  | doHandover u | doModeSwitchAtHandover u =>
    obtain ⟨ue, -, hst⟩ := Option.bind_eq_some_iff.1 hst
    split_ifs at hst
    cases hst
    exact .inl h

/-- **The flows of a network are between UEs**, so that no link looks like a multicast. -/
theorem unicast_of_exec (h : machine.exec {} es = some (s, os))
    {d2dPeeringMap : OrderedMap MacNodeId (OrderedMap MacNodeId LteD2DMode)}
    (hmap : ∀ src row, (src, row) ∈ d2dPeeringMap → ∀ dst mode, (dst, mode) ∈ row →
      s.binder.d2dPeeringMap src dst = some mode) : Unicast d2dPeeringMap := by
  have hue : ∀ src dst, (s.binder.d2dPeeringMap src dst).isSome = true → UE_MIN_ID ≤ dst := by
    refine Machine.exec_invariant (I := fun s => ∀ src dst,
      (s.binder.d2dPeeringMap src dst).isSome = true → UE_MIN_ID ≤ dst) ?_ ?_ h
    · intro src dst hsome
      cases hsome
    · intro s e s' o ih hst src dst hsome
      exact (handle_peers (step_eq_some hst).1 hsome).elim (ih src dst) id
  intro src row hrow dst mode hentry
  have hsome := hmap src row hrow dst mode hentry
  rintro rfl
  exact absurd (hue src 0 (by rw [hsome]; rfl)) (by decide)

end D2DNet

end V2nLte
