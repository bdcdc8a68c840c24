import V2nLte.Lte.Network
import V2nLte.Machine.Ensures
import V2nLte.Machine.Basic

/-!
# A node leaves the binder

`LteBinder::unregisterNode` is called when a vehicle leaves the simulation.  It goes over all
registered nodes twice.  The first loop removes the node from the AMC, the MAC buffers and the
schedulers of every eNB, the second one marks the H-ARQ buffers that belong to it.  Both loops look
the MAC of a node up in a cache (`macNodeIdToModule`), and fill it on the way.  Then the node is
erased from some of the tables of the binder.

A pointer to a MAC is the id of the simulation module it is in; it dangles when the module does
not exist any more.

## Main results

* `BinderState.unregisterNode_iff` : exactly when nothing is left of a node that has gone, all else
  is as before and a second call changes nothing.
* `BinderState.next_hop_left` : an eNB and one UE, of which the next hop and the deployment stay.
-/

namespace V2nLte

/-! ### The MAC modules -/

/-- The users of an AMC in all directions. -/
structure AmcDirections where
  /-- Uplink. -/
  ul : AmcUsers
  /-- Downlink. -/
  dl : AmcUsers
  /-- From UE to UE. -/
  d2d : AmcUsers

/-- What only the MAC of an eNB has. -/
structure EnbSide where
  /-- The users of the AMC, if there is one. -/
  amc : Option AmcDirections
  /-- The connections with a buffer for buffer status reports. -/
  bsrbuf : MacCid → Bool
  /-- The active connections of the schedulers. -/
  activeDl : MacCid → Bool
  /-- Those of the uplink scheduler. -/
  activeUl : MacCid → Bool
  /-- The pending RAC requests. -/
  racStatus : MacNodeId → Bool

/-- A MAC, of an eNB or of a UE. -/
structure MacModule where
  /-- The connections with a queue. -/
  mbuf : MacCid → Bool := fun _ => false
  /-- The connections with a virtual buffer. -/
  macBuffers : MacCid → Bool := fun _ => false
  /-- The nodes with a H-ARQ buffer for sending. -/
  harqTxBuffers : MacNodeId → Bool := fun _ => false
  /-- The buffers, with a mark for those whose UE exists. -/
  harqRxBuffers : MacNodeId → Option Bool := fun _ => none
  /-- The UE can talk to other UEs. -/
  isD2DCapable : Bool := false
  /-- It starts in direct mode. -/
  d2dInitialMode : Bool := false
  /-- What the MAC of an eNB has besides. -/
  enb : Option EnbSide := none

/-- The connections of other nodes. -/
def withoutNode (id : MacNodeId) (table : MacCid → Bool) : MacCid → Bool := fun cid =>
  table cid && decide (MacCidToNodeId cid ≠ id)

namespace AmcDirections

/-- The UE is detached in all directions. -/
def detachUser (id : MacNodeId) (a : AmcDirections) : AmcDirections where
  ul := a.ul.detachUser id
  dl := a.dl.detachUser id
  d2d := a.d2d.detachUser id

end AmcDirections

namespace MacModule

/-- The first loop, for one MAC: only that of an eNB is changed. -/
def cleanup (id : MacNodeId) (m : MacModule) : MacModule :=
  match m.enb with
  | none => m
  | some e =>
    { m with
      mbuf := withoutNode id m.mbuf
      macBuffers := withoutNode id m.macBuffers
      harqTxBuffers := Function.update m.harqTxBuffers id false
      harqRxBuffers := Function.update m.harqRxBuffers id none
      enb := some
        { amc := e.amc.map (AmcDirections.detachUser id)
          bsrbuf := withoutNode id e.bsrbuf
          activeDl := withoutNode id e.activeDl
          activeUl := withoutNode id e.activeUl
          racStatus := Function.update e.racStatus id false } }

/-- `unregisterHarqBufferRx`. -/
def unregisterHarqBufferRx (id : MacNodeId) (m : MacModule) : MacModule :=
  { m with
    harqRxBuffers :=
      Function.update m.harqRxBuffers id ((m.harqRxBuffers id).map fun _ => false) }

end MacModule

/-! ### The binder with all its tables -/

/-- A UE that is known for the computation of interference. -/
structure UeInfo where
  /-- The UE. -/
  id : MacNodeId
  /-- Its cell. -/
  cellId : MacNodeId

/-- A UE that transmits in a block. -/
structure UeAllocationInfo where
  /-- The UE. -/
  nodeId : MacNodeId
  /-- Its cell. -/
  cellId : MacNodeId

/-- The binder and the modules it points to. -/
structure BinderState extends LteBinder where
  /-- The names of the modules. -/
  macNodeIdToModuleName : MacNodeId → Option String := fun _ => none
  /-- The MACs that have been looked up. -/
  macNodeIdToModule : MacNodeId → Option OmnetId := fun _ => none
  /-- The UEs that may interfere. -/
  ueList : List UeInfo := []
  /-- The transmissions of the last two TTIs, by band. -/
  ulTransmissionMap : List (List (List UeAllocationInfo)) := [[], []]
  /-- The mode of each pair of UEs. -/
  d2dPeeringMap : MacNodeId → MacNodeId → Option LteD2DMode := fun _ _ => none
  /-- The groups that each UE has joined. -/
  multicastGroupMap : MacNodeId → Option (List ℕ) := fun _ => none
  /-- The UEs that send to a group. -/
  multicastTransmitterSet : MacNodeId → Bool := fun _ => false
  /-- The MACs of the modules that exist. -/
  modules : OmnetId → Option MacModule := fun _ => none

/-- How a call of the binder can fail. -/
inductive BinderError where
  /-- A method is called on a null or dangling pointer. -/
  | missingMac
  /-- `check_and_cast` of a null pointer. -/
  | badCast
  /-- `checkD2DCapability`: "Node Id not valid". -/
  | badNodeId
  deriving DecidableEq

namespace BinderState

/-- `getMacFromMacNodeId`: the MAC of a node, null for the node `0`. -/
def getMacFromMacNodeId (s : BinderState) (k : MacNodeId) :
    Except BinderError (BinderState × Option OmnetId) :=
  if k = 0 then .ok (s, none)
  else
    match s.macNodeIdToModule k with
    | some p => .ok (s, some p)
    | none =>
      if s.getOmnetId k = 0 then .error .badCast
      else if (s.modules (s.getOmnetId k)).isSome then
        .ok ({ s with
          macNodeIdToModule := Function.update s.macNodeIdToModule k (some (s.getOmnetId k)) },
          some (s.getOmnetId k))
      else .error .missingMac

/-- Look the MAC of the node `k` up and change it.  A null pointer is skipped in the first loop of
`unregisterNode`, and used in the second one. -/
def onMac (f : MacModule → MacModule) (skipNull : Bool) (s : BinderState) (k : MacNodeId) :
    Except BinderError BinderState := do
  let (s, mac) ← s.getMacFromMacNodeId k
  match mac with
  | none => if skipNull then .ok s else .error .missingMac
  | some p =>
    match s.modules p with
    | none => .error .missingMac
    | some m => .ok { s with modules := Function.update s.modules p (some (f m)) }

/-- The keys of a map, in their order. -/
@[irreducible] def keys (table : MacNodeId → Option OmnetId) : List MacNodeId :=
  (List.finRange 65536).filter fun k => (table k).isSome

/-- The registered nodes. -/
abbrev nodes (s : BinderState) : List MacNodeId := keys s.nodeIds

/-- `unregisterNode`. -/
def unregisterNode (id : MacNodeId) (s : BinderState) : Except BinderError BinderState := do
  let s ← s.nodes.foldlM (onMac (MacModule.cleanup id) true) s
  let s := { s with
    macNodeIdToIPAddress := fun a =>
      if s.macNodeIdToIPAddress a = some id then none else s.macNodeIdToIPAddress a }
  let s ← s.nodes.foldlM (onMac (MacModule.unregisterHarqBufferRx id) false) s
  .ok { s with
    macNodeIdToModuleName := Function.update s.macNodeIdToModuleName id none
    macNodeIdToModule := Function.update s.macNodeIdToModule id none
    nodeIds := Function.update s.nodeIds id none
    ulTransmissionMap := s.ulTransmissionMap.map (·.map (·.filter fun ue => ue.nodeId ≠ id)) }

/-! ### The other operations of the binder -/

/-- Enter the mode of a pair of UEs. -/
def setMode (s : BinderState) (src dst : MacNodeId) (mode : LteD2DMode) : BinderState :=
  { s with
    d2dPeeringMap := Function.update s.d2dPeeringMap src
      (Function.update (s.d2dPeeringMap src) dst (some mode)) }

/-- `checkD2DCapability`: the mode of a new pair of UEs is entered. -/
def checkD2DCapability (s : BinderState) (src dst : MacNodeId) :
    Except BinderError BinderState :=
  if src < UE_MIN_ID ∨ s.ueCounter ≤ src ∨ dst < UE_MIN_ID ∨ s.ueCounter ≤ dst then
    .error .badNodeId
  else if (s.d2dPeeringMap src dst).isSome then .ok s
  else do
    let (s, dstMac) ← s.getMacFromMacNodeId dst
    match dstMac.bind s.modules with
    | none => .error .missingMac
    | some dstMac =>
      if dstMac.isD2DCapable then
        if s.getNextHop src = s.getNextHop dst then do
          let (s, srcMac) ← s.getMacFromMacNodeId src
          match srcMac.bind s.modules with
          | none => .error .missingMac
          | some srcMac => .ok (s.setMode src dst (if srcMac.d2dInitialMode then .DM else .IM))
        else .ok (s.setMode src dst .IM)
      else .ok s

/-- What happens to the binder. -/
inductive Event where
  /-- A module appears, changes or is deleted. -/
  | module (omnetId : OmnetId) (mac : Option MacModule)
  | registerNode (omnetId : OmnetId) (type : LteNodeType) (masterId : MacNodeId)
  | registerNextHop (masterId slaveId : MacNodeId)
  | unregisterNextHop (masterId slaveId : MacNodeId)
  | setMacNodeId (address : Ipv4Address) (nodeId : MacNodeId)
  | registerName (nodeId : MacNodeId) (name : String)
  | getMacFromMacNodeId (nodeId : MacNodeId)
  | addUeInfo (info : UeInfo)
  | checkD2DCapability (src dst : MacNodeId)
  | registerMulticastGroup (nodeId : MacNodeId) (groupId : ℕ)
  | addD2DMulticastTransmitter (nodeId : MacNodeId)
  | addUeHandoverTriggered (nodeId : MacNodeId)
  | removeUeHandoverTriggered (nodeId : MacNodeId)
  /-- A UE transmits in these bands. -/
  | storeUlTransmissionMap (info : UeAllocationInfo) (bands : List ℕ)
  /-- A new TTI. -/
  | initAndResetUlTransmissionInfo (numBands : ℕ)
  | unregisterNode (nodeId : MacNodeId)

/-- The operations. -/
def handle (s : BinderState) : Event → Except BinderError BinderState
  | .module omnetId mac => .ok { s with modules := Function.update s.modules omnetId mac }
  | .registerNode omnetId type masterId =>
    .ok { s with toLteBinder := (s.toLteBinder.registerNode omnetId type masterId).1 }
  | .registerNextHop masterId slaveId =>
    .ok { s with toLteBinder := s.toLteBinder.registerNextHop masterId slaveId }
  | .unregisterNextHop masterId slaveId =>
    .ok { s with toLteBinder := s.toLteBinder.unregisterNextHop masterId slaveId }
  | .setMacNodeId address nodeId =>
    .ok { s with toLteBinder := s.toLteBinder.setMacNodeId address nodeId }
  | .registerName nodeId name =>
    .ok { s with
      macNodeIdToModuleName := Function.update s.macNodeIdToModuleName nodeId (some name) }
  | .getMacFromMacNodeId nodeId => do
    let (s, _) ← s.getMacFromMacNodeId nodeId
    .ok s
  | .addUeInfo info => .ok { s with ueList := s.ueList ++ [info] }
  | .checkD2DCapability src dst => s.checkD2DCapability src dst
  | .registerMulticastGroup nodeId groupId =>
    .ok { s with
      multicastGroupMap := Function.update s.multicastGroupMap nodeId
        (some (((s.multicastGroupMap nodeId).getD []).insert groupId)) }
  | .addD2DMulticastTransmitter nodeId =>
    .ok { s with
      multicastTransmitterSet := Function.update s.multicastTransmitterSet nodeId true }
  | .addUeHandoverTriggered nodeId =>
    .ok { s with toLteBinder := s.toLteBinder.addUeHandoverTriggered nodeId }
  | .removeUeHandoverTriggered nodeId =>
    .ok { s with toLteBinder := s.toLteBinder.removeUeHandoverTriggered nodeId }
  | .storeUlTransmissionMap info bands =>
    .ok { s with
      ulTransmissionMap := s.ulTransmissionMap.modify 1 fun current =>
        current.zipIdx.map fun (ues, b) => if b ∈ bands then ues ++ [info] else ues }
  | .initAndResetUlTransmissionInfo numBands =>
    .ok { s with
      ulTransmissionMap := [(s.ulTransmissionMap[1]?).getD [], List.replicate numBands []] }
  | .unregisterNode nodeId => s.unregisterNode nodeId

/-- The binder as a machine. -/
def machine : Machine BinderState Event Empty where
  step s e := (s.handle e).toOption.map fun s' => (s', [])

/-! ### What is asked of `unregisterNode` -/

/-- The pointer that a lookup of the MAC of `k` gives. -/
def macOf (s : BinderState) (k : MacNodeId) : OmnetId :=
  (s.macNodeIdToModule k).getD (s.getOmnetId k)

/-- The MAC of `k` is there. -/
structure Live (s : BinderState) (k : MacNodeId) : Prop where
  ne_zero : k ≠ 0
  module : (s.modules (s.macOf k)).isSome = true
  /-- If it has not been looked up yet, the node has a module. -/
  omnetId : s.macNodeIdToModule k = none → s.getOmnetId k ≠ 0

/-- The tables that `unregisterNode` does not touch do not mention `id`. -/
structure Unmentioned (id : MacNodeId) (s : BinderState) : Prop where
  nextHop : (s.nextHop[(id : ℕ)]?).getD 0 = 0 ∧ ∀ k : MacNodeId, s.nextHop[(k : ℕ)]? ≠ some id
  dMap : ∀ m, s.dMap m id = none
  ueList : ∀ ue ∈ s.ueList, ue.id ≠ id
  d2dPeeringMap : ∀ k, s.d2dPeeringMap id k = none ∧ s.d2dPeeringMap k id = none
  multicastGroupMap : s.multicastGroupMap id = none
  multicastTransmitterSet : s.multicastTransmitterSet id = false
  ueHandoverTriggered : s.ueHandoverTriggered id = false

/-- No table of the binder mentions `id`. -/
structure Gone (id : MacNodeId) (s : BinderState) : Prop extends Unmentioned id s where
  nodeIds : s.nodeIds id = none
  macNodeIdToIPAddress : ∀ a, s.macNodeIdToIPAddress a ≠ some id
  macNodeIdToModule : s.macNodeIdToModule id = none
  macNodeIdToModuleName : s.macNodeIdToModuleName id = none
  ulTransmissionMap : ∀ bands ∈ s.ulTransmissionMap, ∀ ues ∈ bands, ∀ ue ∈ ues, ue.nodeId ≠ id

end BinderState

/-- An eNB has no user and no connection of `id`. -/
structure EnbSide.Gone (id : MacNodeId) (m : MacModule) (e : EnbSide) : Prop where
  amc : ∀ a ∈ e.amc, ¬a.ul.attached id ∧ ¬a.dl.attached id ∧ ¬a.d2d.attached id
  cids : ∀ cid, MacCidToNodeId cid = id → m.mbuf cid = false ∧ m.macBuffers cid = false ∧
    e.bsrbuf cid = false ∧ e.activeDl cid = false ∧ e.activeUl cid = false

/-- The users of an AMC other than `id` are the same. -/
def AmcUsers.SameOthers (id : MacNodeId) (a a' : AmcUsers) : Prop :=
  a'.nodeIndex = a.nodeIndex ∧ a'.revNodeIndex = a.revNodeIndex ∧
    ∀ k ≠ id, a'.connectedUe k = a.connectedUe k

/-- What a MAC knows about the nodes other than `id` is the same. -/
structure MacModule.SameOthers (id : MacNodeId) (m m' : MacModule) : Prop where
  cids : ∀ cid, MacCidToNodeId cid ≠ id →
    m'.mbuf cid = m.mbuf cid ∧ m'.macBuffers cid = m.macBuffers cid
  harq : ∀ k ≠ id, m'.harqTxBuffers k = m.harqTxBuffers k ∧ m'.harqRxBuffers k = m.harqRxBuffers k
  parameters : m'.isD2DCapable = m.isD2DCapable ∧ m'.d2dInitialMode = m.d2dInitialMode
  isSome_enb : m'.enb.isSome = m.enb.isSome
  enb : ∀ e ∈ m.enb, ∀ e' ∈ m'.enb,
    (∀ cid, MacCidToNodeId cid ≠ id → e'.bsrbuf cid = e.bsrbuf cid ∧
      e'.activeDl cid = e.activeDl cid ∧ e'.activeUl cid = e.activeUl cid) ∧
    (∀ k ≠ id, e'.racStatus k = e.racStatus k) ∧ e'.amc.isSome = e.amc.isSome ∧
    ∀ a ∈ e.amc, ∀ a' ∈ e'.amc, a.ul.SameOthers id a'.ul ∧ a.dl.SameOthers id a'.dl ∧
      a.d2d.SameOthers id a'.d2d

namespace BinderState

/-- The entries of the nodes other than `id` are the same. -/
structure SameOthers (id : MacNodeId) (s s' : BinderState) : Prop where
  counters : s'.enbCounter = s.enbCounter ∧ s'.relayCounter = s.relayCounter ∧
    s'.ueCounter = s.ueCounter
  nodeIds : ∀ k ≠ id, s'.nodeIds k = s.nodeIds k
  macNodeIdToIPAddress : ∀ a k, k ≠ id →
    (s'.macNodeIdToIPAddress a = some k ↔ s.macNodeIdToIPAddress a = some k)
  macNodeIdToModule : ∀ k ≠ id, s'.macNodeIdToModule k = s.macNodeIdToModule k
  macNodeIdToModuleName : ∀ k ≠ id, s'.macNodeIdToModuleName k = s.macNodeIdToModuleName k
  nextHop : ∀ k ≠ id, s'.nextHop[(k : ℕ)]? = s.nextHop[(k : ℕ)]?
  dMap : ∀ m, ∀ k ≠ id, s'.dMap m k = s.dMap m k
  ueList : s'.ueList.filter (fun ue => ue.id ≠ id) = s.ueList.filter fun ue => ue.id ≠ id
  d2dPeeringMap : ∀ j ≠ id, ∀ k ≠ id, s'.d2dPeeringMap j k = s.d2dPeeringMap j k
  multicast : ∀ k ≠ id, s'.multicastGroupMap k = s.multicastGroupMap k ∧
    s'.multicastTransmitterSet k = s.multicastTransmitterSet k
  ueHandoverTriggered : ∀ k ≠ id, s'.ueHandoverTriggered k = s.ueHandoverTriggered k
  ulTransmissionMap :
    s'.ulTransmissionMap.map (·.map (·.filter fun ue => ue.nodeId ≠ id)) =
      s.ulTransmissionMap.map (·.map (·.filter fun ue => ue.nodeId ≠ id))
  modules : ∀ p, (s'.modules p).isSome = (s.modules p).isSome ∧
    ∀ m ∈ s.modules p, ∀ m' ∈ s'.modules p, m.SameOthers id m'

/-- Nothing is left of `id` in the binder and in the registered eNBs, all else is as before, and
a second call changes nothing. -/
def Contract (id : MacNodeId) (s : BinderState) : Prop :=
  ∃ s', s.unregisterNode id = .ok s' ∧ Gone id s' ∧
    (∀ k, (s.nodeIds k).isSome = true → ∀ m ∈ s'.modules (s.macOf k), ∀ e ∈ m.enb, e.Gone id m) ∧
    SameOthers id s s' ∧ s'.unregisterNode id = .ok s'

end BinderState

/-! ### One MAC -/

@[simp] theorem withoutNode_of_ne {id : MacNodeId} {table : MacCid → Bool} {cid : MacCid}
    (h : MacCidToNodeId cid ≠ id) : withoutNode id table cid = table cid := by
  simp [withoutNode, h]

@[simp] theorem withoutNode_self {table : MacCid → Bool} {cid : MacCid} :
    withoutNode (MacCidToNodeId cid) table cid = false := by
  simp [withoutNode]

@[simp] theorem withoutNode_withoutNode (id : MacNodeId) (table : MacCid → Bool) :
    withoutNode id (withoutNode id table) = withoutNode id table := by
  funext cid
  simp [withoutNode]

namespace AmcUsers

variable {id : MacNodeId} {a : AmcUsers}

theorem detachUser_detachUser : (a.detachUser id).detachUser id = a.detachUser id := by
  unfold detachUser
  split <;> simp

theorem sameOthers_detachUser : a.SameOthers id (a.detachUser id) := by
  unfold SameOthers detachUser
  split
  · exact ⟨rfl, rfl, fun k hk => Function.update_of_ne hk _ _⟩
  · exact ⟨rfl, rfl, fun _ _ => rfl⟩

theorem not_attached_detachUser : ¬(a.detachUser id).attached id := fun h =>
  (attached_detachUser.1 h).1 rfl

end AmcUsers

theorem AmcDirections.detachUser_comp (id : MacNodeId) :
    AmcDirections.detachUser id ∘ AmcDirections.detachUser id = AmcDirections.detachUser id := by
  funext a
  simp [AmcDirections.detachUser, AmcUsers.detachUser_detachUser]

namespace MacModule

variable (id : MacNodeId) (m : MacModule)

/-- What `unregisterNode` does to a MAC. -/
def forget : MacModule := (m.cleanup id).unregisterHarqBufferRx id

theorem cleanup_cleanup : (m.cleanup id).cleanup id = m.cleanup id := by
  unfold cleanup
  cases h : m.enb with
  | none => simp [h]
  | some e => simp [AmcDirections.detachUser_comp]

theorem unregisterHarqBufferRx_twice :
    (m.unregisterHarqBufferRx id).unregisterHarqBufferRx id = m.unregisterHarqBufferRx id := by
  simp [unregisterHarqBufferRx, Option.map_map, Function.comp_def]

theorem cleanup_forget : (m.forget id).cleanup id = m.forget id := by
  unfold forget cleanup unregisterHarqBufferRx
  cases h : m.enb with
  | none => simp [h]
  | some e => simp [AmcDirections.detachUser_comp]

theorem forget_forget : (m.forget id).forget id = m.forget id := by
  rw [forget, cleanup_forget, forget, unregisterHarqBufferRx_twice]

theorem gone_forget : ∀ e ∈ (m.forget id).enb, e.Gone id (m.forget id) := by
  intro e he
  unfold forget cleanup unregisterHarqBufferRx at he ⊢
  cases h : m.enb with
  | none => simp [h] at he
  | some e₀ =>
    simp only [h, Option.mem_some_iff] at he
    subst he
    refine ⟨fun a ha => ?_, fun cid hcid => ?_⟩
    · obtain ⟨a₀, -, rfl⟩ := Option.map_eq_some_iff.1 ha
      exact ⟨AmcUsers.not_attached_detachUser, AmcUsers.not_attached_detachUser,
        AmcUsers.not_attached_detachUser⟩
    · subst hcid
      simp

theorem SameOthers.refl : m.SameOthers id m := by
  refine ⟨fun _ _ => ⟨rfl, rfl⟩, fun _ _ => ⟨rfl, rfl⟩, ⟨rfl, rfl⟩, rfl, fun e he e' he' => ?_⟩
  rw [Option.mem_def.1 he] at he'
  obtain rfl := Option.some.inj he'
  refine ⟨fun _ _ => ⟨rfl, rfl, rfl⟩, fun _ _ => rfl, rfl, fun a ha a' ha' => ?_⟩
  rw [Option.mem_def.1 ha] at ha'
  obtain rfl := Option.some.inj ha'
  exact ⟨⟨rfl, rfl, fun _ _ => rfl⟩, ⟨rfl, rfl, fun _ _ => rfl⟩, ⟨rfl, rfl, fun _ _ => rfl⟩⟩

theorem sameOthers_forget : m.SameOthers id (m.forget id) := by
  unfold forget cleanup unregisterHarqBufferRx
  cases h : m.enb with
  | none =>
    refine ⟨fun cid _ => ⟨rfl, rfl⟩, fun k hk => ⟨rfl, Function.update_of_ne hk _ _⟩,
      ⟨rfl, rfl⟩, by rw [h], fun e he => by simp [h] at he⟩
  | some e =>
    refine ⟨fun cid hcid => by simp [hcid], fun k hk => by simp [hk], ⟨rfl, rfl⟩, by simp [h], ?_⟩
    intro e₀ he₀ e' he'
    simp only [h, Option.mem_some_iff] at he₀ he'
    subst he₀ he'
    refine ⟨fun cid hcid => by simp [hcid], fun k hk => by simp [hk], by simp, ?_⟩
    intro a ha a' ha'
    rw [Option.mem_def.1 ha] at ha'
    obtain rfl := Option.some.inj ha'
    exact ⟨AmcUsers.sameOthers_detachUser, AmcUsers.sameOthers_detachUser,
      AmcUsers.sameOthers_detachUser⟩

end MacModule

namespace BinderState

variable {s s' : BinderState} {k : MacNodeId} {f : MacModule → MacModule} {skipNull : Bool}

/-! ### The loops over the registered nodes -/

/-- The MACs of the nodes `ks` have been looked up and changed. -/
def visited (f : MacModule → MacModule) (ks : List MacNodeId) (s : BinderState) : BinderState :=
  { s with
    macNodeIdToModule := fun k => if k ∈ ks then some (s.macOf k) else s.macNodeIdToModule k
    modules := fun p => if p ∈ ks.map s.macOf then (s.modules p).map f else s.modules p }

@[simp] theorem macOf_visited {ks : List MacNodeId} :
    (s.visited f ks).macOf k = s.macOf k := by
  unfold macOf visited
  by_cases hk : k ∈ ks
  · simp [hk, macOf]
  · simp only [hk, if_false]

@[simp] theorem mem_keys {table : MacNodeId → Option OmnetId} :
    k ∈ keys table ↔ (table k).isSome = true := by
  unfold keys
  rw [List.mem_filter]
  exact and_iff_right (List.mem_finRange k)

theorem isSome_modules_visited {ks : List MacNodeId} {p : OmnetId} :
    ((s.visited f ks).modules p).isSome = (s.modules p).isSome := by
  dsimp only [visited]
  split <;> simp

theorem Live.visited (h : s.Live k) {ks : List MacNodeId} : (s.visited f ks).Live k := by
  refine ⟨h.ne_zero, ?_, fun hnone => ?_⟩
  · rw [macOf_visited, isSome_modules_visited]
    exact h.module
  · refine h.omnetId ?_
    dsimp only [BinderState.visited] at hnone
    split at hnone
    · cases hnone
    · exact hnone

theorem getMac_of_live (h : s.Live k) :
    s.getMacFromMacNodeId k = .ok ({ s with
      macNodeIdToModule := Function.update s.macNodeIdToModule k (some (s.macOf k)) },
      some (s.macOf k)) := by
  unfold getMacFromMacNodeId
  rw [if_neg h.ne_zero]
  cases hcache : s.macNodeIdToModule k with
  | some p =>
    have hmac : s.macOf k = p := by simp [macOf, hcache]
    have hupd : Function.update s.macNodeIdToModule k (some p) = s.macNodeIdToModule := by
      rw [← hcache, Function.update_eq_self]
    rw [hmac, hupd]
  | none =>
    have hmac : s.macOf k = s.getOmnetId k := by simp [macOf, hcache]
    have hmod := h.module
    rw [hmac] at hmod
    dsimp only
    rw [if_neg (h.omnetId hcache), if_pos hmod, hmac]

/-- One turn of a loop. -/
theorem onMac_of_live (h : s.Live k) : onMac f skipNull s k = .ok (s.visited f [k]) := by
  obtain ⟨m, hm⟩ := Option.isSome_iff_exists.1 h.module
  have hcache : Function.update s.macNodeIdToModule k (some (s.macOf k)) =
      fun j => if j ∈ [k] then some (s.macOf j) else s.macNodeIdToModule j := by
    funext j
    by_cases hj : j = k
    · subst hj; simp
    · simp [hj]
  have hmodules : Function.update s.modules (s.macOf k) (some (f m)) =
      fun p => if p ∈ [k].map s.macOf then (s.modules p).map f else s.modules p := by
    funext p
    by_cases hp : p = s.macOf k
    · subst hp; simp [hm]
    · simp [hp]
  unfold onMac
  rw [getMac_of_live h]
  simp only [bind, Except.bind, hm]
  rw [hmodules, hcache]
  rfl

theorem visited_visited (hf : ∀ m, f (f m) = f m) {ks : List MacNodeId} :
    (s.visited f [k]).visited f ks = s.visited f (k :: ks) := by
  have hcache : ((s.visited f [k]).visited f ks).macNodeIdToModule =
      (s.visited f (k :: ks)).macNodeIdToModule := by
    funext j
    show (if j ∈ ks then some ((s.visited f [k]).macOf j)
      else if j ∈ [k] then some (s.macOf j) else s.macNodeIdToModule j) =
        if j ∈ k :: ks then some (s.macOf j) else s.macNodeIdToModule j
    rw [macOf_visited]
    by_cases hj : j ∈ ks
    · simp [hj]
    · simp [hj]
  have hmodules : ((s.visited f [k]).visited f ks).modules = (s.visited f (k :: ks)).modules := by
    funext p
    have hmac : (s.visited f [k]).macOf = s.macOf := funext fun j => macOf_visited
    have hff : f ∘ f = f := funext hf
    show (if p ∈ ks.map (s.visited f [k]).macOf then
        (if p ∈ [k].map s.macOf then (s.modules p).map f else s.modules p).map f
      else if p ∈ [k].map s.macOf then (s.modules p).map f else s.modules p) =
        if p ∈ (k :: ks).map s.macOf then (s.modules p).map f else s.modules p
    rw [hmac, List.map_cons, List.map_cons, List.map_nil]
    by_cases hk : p = s.macOf k
    · by_cases hks : p ∈ ks.map s.macOf
      · rw [if_pos hks, if_pos (hk ▸ List.mem_cons_self), if_pos (List.mem_cons_of_mem _ hks),
          Option.map_map, hff]
      · rw [if_neg hks, if_pos (hk ▸ List.mem_cons_self), if_pos (hk ▸ List.mem_cons_self)]
    · simp only [List.mem_cons, List.not_mem_nil, hk, false_or, if_false]
  calc (s.visited f [k]).visited f ks
      = { s with
          macNodeIdToModule := ((s.visited f [k]).visited f ks).macNodeIdToModule
          modules := ((s.visited f [k]).visited f ks).modules } := rfl
    _ = s.visited f (k :: ks) := by rw [hcache, hmodules]; rfl

/-- **A loop over nodes whose MACs are there.** -/
theorem foldlM_onMac (hf : ∀ m, f (f m) = f m) {ks : List MacNodeId}
    (h : ∀ k ∈ ks, s.Live k) : ks.foldlM (onMac f skipNull) s = .ok (s.visited f ks) := by
  induction ks generalizing s with
  | nil =>
    show Except.ok s = _
    simp [visited]
  | cons k ks ih =>
    rw [List.foldlM_cons, onMac_of_live (h k List.mem_cons_self)]
    show ks.foldlM (onMac f skipNull) (s.visited f [k]) = _
    rw [ih fun j hj => (h j (List.mem_cons_of_mem k hj)).visited, visited_visited hf]

/-- What a loop has done so far does not decide whether a MAC is there. -/
structure Later (s s' : BinderState) : Prop where
  nodeIds : s'.nodeIds = s.nodeIds
  macOf : ∀ k, s'.macOf k = s.macOf k
  modules : ∀ p, (s'.modules p).isSome = (s.modules p).isSome
  /-- A pointer is only entered for a node that has a module. -/
  entered : ∀ k, s.macNodeIdToModule k = none →
    s'.macNodeIdToModule k = none ∨ s.getOmnetId k ≠ 0

theorem Later.refl : Later s s := ⟨rfl, fun _ => rfl, fun _ => rfl, fun _ h => Or.inl h⟩

theorem Later.getOmnetId (h : Later s s') (k : MacNodeId) :
    s'.getOmnetId k = s.getOmnetId k := by
  unfold LteBinder.getOmnetId
  rw [h.nodeIds]

theorem Later.trans {s'' : BinderState} (h : Later s s') (h' : Later s' s'') : Later s s'' := by
  refine ⟨h'.nodeIds.trans h.nodeIds, fun k => (h'.macOf k).trans (h.macOf k),
    fun p => (h'.modules p).trans (h.modules p), fun k hk => ?_⟩
  rcases h.entered k hk with hk' | hk'
  · rw [← h.getOmnetId k]
    exact h'.entered k hk'
  · exact Or.inr hk'

theorem Later.live (h : Later s s') (hlive : s'.Live k) : s.Live k := by
  refine ⟨hlive.ne_zero, ?_, fun hk => ?_⟩
  · rw [← h.modules, ← h.macOf]
    exact hlive.module
  · rcases h.entered k hk with hk' | hk'
    · rw [← h.getOmnetId k]
      exact hlive.omnetId hk'
    · exact hk'

theorem later_visited_one (h : s.Live k) : Later s (s.visited f [k]) := by
  refine ⟨rfl, fun _ => macOf_visited, fun _ => isSome_modules_visited, fun j hj => ?_⟩
  by_cases hjk : j = k
  · subst hjk
    exact Or.inr (h.omnetId hj)
  · exact Or.inl (by simp [visited, hjk, hj])

/-- A turn that does not fail has found a MAC, or skipped the node `0`. -/
theorem live_of_onMac (h : onMac f skipNull s k = .ok s') :
    s.Live k ∨ (k = 0 ∧ skipNull = true ∧ s' = s) := by
  by_cases hk : k = 0
  · subst hk
    simp only [onMac, getMacFromMacNodeId, if_pos, bind, Except.bind] at h
    cases skipNull with
    | false => cases h
    | true => exact Or.inr ⟨rfl, rfl, (Except.ok.inj h).symm⟩
  · left
    unfold onMac getMacFromMacNodeId at h
    rw [if_neg hk] at h
    cases hcache : s.macNodeIdToModule k with
    | some p =>
      simp only [hcache, bind, Except.bind] at h
      refine ⟨hk, ?_, fun hnone => by rw [hcache] at hnone; cases hnone⟩
      have hmac : s.macOf k = p := by simp [macOf, hcache]
      rw [hmac]
      cases hp : s.modules p with
      | none => rw [hp] at h; cases h
      | some m => rfl
    | none =>
      simp only [hcache] at h
      have hmac : s.macOf k = s.getOmnetId k := by simp [macOf, hcache]
      by_cases hz : s.getOmnetId k = 0
      · rw [if_pos hz] at h; cases h
      · rw [if_neg hz] at h
        refine ⟨hk, ?_, fun _ => hz⟩
        rw [hmac]
        by_cases hmod : (s.modules (s.getOmnetId k)).isSome = true
        · exact hmod
        · rw [if_neg hmod] at h; cases h

/-- **A loop that does not fail has found all MACs**, those of the node `0` apart. -/
theorem live_of_foldlM {ks : List MacNodeId} (h : ks.foldlM (onMac f skipNull) s = .ok s') :
    Later s s' ∧ ∀ k ∈ ks, s.Live k ∨ (k = 0 ∧ skipNull = true) := by
  induction ks generalizing s with
  | nil =>
    obtain rfl : s = s' := Except.ok.inj h
    exact ⟨Later.refl, fun k hk => by cases hk⟩
  | cons k ks ih =>
    rw [List.foldlM_cons] at h
    cases hturn : onMac f skipNull s k with
    | error err => rw [hturn] at h; cases h
    | ok s₁ =>
      rw [hturn] at h
      obtain ⟨hlater, hks⟩ := ih h
      have hfirst : Later s s₁ ∧ (s.Live k ∨ (k = 0 ∧ skipNull = true)) := by
        rcases live_of_onMac hturn with hlive | ⟨hk, hskip, rfl⟩
        · rw [onMac_of_live hlive] at hturn
          obtain rfl := Except.ok.inj hturn
          exact ⟨later_visited_one hlive, Or.inl hlive⟩
        · exact ⟨Later.refl, Or.inr ⟨hk, hskip⟩⟩
      refine ⟨hfirst.1.trans hlater, fun j hj => ?_⟩
      rcases List.mem_cons.1 hj with rfl | hj
      · exact hfirst.2
      · exact (hks j hj).imp_left hfirst.1.live

/-! ### The effect of `unregisterNode` -/

/-- The state that `unregisterNode` leaves. -/
def departed (id : MacNodeId) (s : BinderState) : BinderState :=
  { s with
    macNodeIdToIPAddress := fun a =>
      if s.macNodeIdToIPAddress a = some id then none else s.macNodeIdToIPAddress a
    nodeIds := Function.update s.nodeIds id none
    macNodeIdToModuleName := Function.update s.macNodeIdToModuleName id none
    macNodeIdToModule := Function.update
      (fun k => if k ∈ s.nodes then some (s.macOf k) else s.macNodeIdToModule k) id none
    ulTransmissionMap := s.ulTransmissionMap.map (·.map (·.filter fun ue => ue.nodeId ≠ id))
    modules := fun p =>
      if p ∈ s.nodes.map s.macOf then (s.modules p).map (MacModule.forget id)
      else s.modules p }

/-- The state between the two loops. -/
def cleaned (id : MacNodeId) (s : BinderState) : BinderState :=
  { s.visited (MacModule.cleanup id) s.nodes with
    macNodeIdToIPAddress := fun a =>
      if s.macNodeIdToIPAddress a = some id then none else s.macNodeIdToIPAddress a }

theorem macOf_setAddresses {addresses : Ipv4Address → Option MacNodeId} :
    ({ s with macNodeIdToIPAddress := addresses } : BinderState).macOf = s.macOf := rfl

theorem Live.setAddresses (h : s.Live k) {addresses : Ipv4Address → Option MacNodeId} :
    ({ s with macNodeIdToIPAddress := addresses } : BinderState).Live k :=
  ⟨h.ne_zero, h.module, h.omnetId⟩

theorem macOf_cleaned {id : MacNodeId} : (s.cleaned id).macOf = s.macOf := by
  funext k
  calc (s.cleaned id).macOf k
      = (s.visited (MacModule.cleanup id) s.nodes).macOf k := congrFun macOf_setAddresses k
    _ = s.macOf k := macOf_visited

theorem Live.cleaned {id : MacNodeId} (h : s.Live k) : (s.cleaned id).Live k :=
  h.visited.setAddresses

/-- After both loops the MAC of every registered node has been looked up. -/
theorem cache_visited_cleaned (s : BinderState) (id : MacNodeId) :
    ((s.cleaned id).visited (MacModule.unregisterHarqBufferRx id) s.nodes).macNodeIdToModule =
      fun k => if k ∈ s.nodes then some (s.macOf k) else s.macNodeIdToModule k := by
  funext k
  show (if k ∈ s.nodes then some ((s.cleaned id).macOf k)
    else if k ∈ s.nodes then some (s.macOf k) else s.macNodeIdToModule k) = _
  rw [macOf_cleaned]
  split <;> rfl

/-- And it has forgotten the node. -/
theorem modules_visited_cleaned (s : BinderState) (id : MacNodeId) :
    ((s.cleaned id).visited (MacModule.unregisterHarqBufferRx id) s.nodes).modules =
      fun p => if p ∈ s.nodes.map s.macOf then (s.modules p).map (MacModule.forget id)
        else s.modules p := by
  funext p
  show (if p ∈ s.nodes.map (s.cleaned id).macOf then
      (if p ∈ s.nodes.map s.macOf then (s.modules p).map (MacModule.cleanup id)
        else s.modules p).map (MacModule.unregisterHarqBufferRx id)
    else if p ∈ s.nodes.map s.macOf then (s.modules p).map (MacModule.cleanup id)
      else s.modules p) = _
  rw [macOf_cleaned]
  split
  · rw [Option.map_map]
    rfl
  · rfl

theorem unregisterNode_of_live {id : MacNodeId} (h : ∀ k ∈ s.nodes, s.Live k) :
    s.unregisterNode id = .ok (s.departed id) := by
  unfold unregisterNode
  rw [foldlM_onMac (MacModule.cleanup_cleanup id) h]
  show (s.nodes.foldlM (onMac (MacModule.unregisterHarqBufferRx id) false)
    (s.cleaned id) >>= _) = _
  rw [foldlM_onMac (MacModule.unregisterHarqBufferRx_twice id) fun k hk => (h k hk).cleaned]
  simp only [bind, Except.bind]
  rw [cache_visited_cleaned, modules_visited_cleaned]
  rfl

theorem live_of_unregisterNode {id : MacNodeId} (h : s.unregisterNode id = .ok s') :
    ∀ k ∈ s.nodes, s.Live k := by
  unfold unregisterNode at h
  cases h₁ : s.nodes.foldlM (onMac (MacModule.cleanup id) true) s with
  | error err => rw [h₁] at h; cases h
  | ok s₁ =>
    rw [h₁] at h
    obtain ⟨hlater, hfirst⟩ := live_of_foldlM h₁
    simp only [bind, Except.bind] at h
    split at h
    · cases h
    · rename_i s₂ h₂
      -- the second loop does not skip the node `0`
      obtain ⟨-, hsecond⟩ := live_of_foldlM h₂
      intro k hk
      rcases hfirst k hk with hlive | ⟨rfl, -⟩
      · exact hlive
      · have hk' : (0 : MacNodeId) ∈ s₁.nodes := by
          unfold nodes
          rwa [hlater.nodeIds]
        rcases hsecond 0 hk' with hlive | ⟨-, hskip⟩
        · exact absurd rfl hlive.ne_zero
        · cases hskip

/-! ### When nothing is left -/

/-- The MACs of all registered nodes are there, those of the nodes other than `id` have been
looked up before, and the tables that are not touched do not mention `id`. -/
structure Removable (id : MacNodeId) (s : BinderState) : Prop where
  /-- The modules of the registered nodes exist. -/
  live : ∀ k, (s.nodeIds k).isSome = true → s.Live k
  /-- The MACs of the other nodes have been looked up before. -/
  cached : ∀ k ≠ id, (s.nodeIds k).isSome = true → (s.macNodeIdToModule k).isSome = true
  /-- The tables that are not touched do not mention `id`. -/
  unmentioned : Unmentioned id s

variable {id : MacNodeId}

theorem cache_departed (hk : k ≠ id) (hreg : k ∈ s.nodes) :
    (s.departed id).macNodeIdToModule k = some (s.macOf k) := by
  dsimp only [departed]
  rw [Function.update_of_ne hk, if_pos hreg]

theorem macOf_departed (hk : k ≠ id) (hreg : k ∈ s.nodes) :
    (s.departed id).macOf k = s.macOf k := by
  rw [macOf, cache_departed hk hreg, Option.getD_some]

theorem isSome_modules_departed {p : OmnetId} :
    ((s.departed id).modules p).isSome = (s.modules p).isSome := by
  dsimp only [departed]
  split <;> simp

theorem modules_departed {p : OmnetId} (hp : p ∈ s.nodes.map s.macOf) :
    (s.departed id).modules p = (s.modules p).map (MacModule.forget id) := if_pos hp

theorem mem_nodes_departed : k ∈ (s.departed id).nodes ↔ k ≠ id ∧ k ∈ s.nodes := by
  simp only [mem_keys, departed]
  by_cases hk : k = id
  · subst hk; simp
  · simp [hk]

/-- A second call changes nothing. -/
theorem departed_departed : (s.departed id).departed id = s.departed id := by
  have hcache : Function.update (fun k => if k ∈ (s.departed id).nodes then
      some ((s.departed id).macOf k) else (s.departed id).macNodeIdToModule k) id none =
        (s.departed id).macNodeIdToModule := by
    funext k
    by_cases hk : k = id
    · subst hk
      simp [departed]
    · rw [Function.update_of_ne hk]
      split
      · rename_i hreg
        have hreg := (mem_nodes_departed.1 hreg).2
        rw [macOf_departed hk hreg, cache_departed hk hreg]
      · rfl
  have hmodules : (fun p => if p ∈ (s.departed id).nodes.map (s.departed id).macOf then
      ((s.departed id).modules p).map (MacModule.forget id) else (s.departed id).modules p) =
        (s.departed id).modules := by
    funext p
    split
    · rename_i hp
      obtain ⟨k, hk, rfl⟩ := List.mem_map.1 hp
      obtain ⟨hne, hreg⟩ := mem_nodes_departed.1 hk
      rw [macOf_departed hne hreg, modules_departed (List.mem_map_of_mem hreg), Option.map_map]
      congr 1
      funext m
      exact MacModule.forget_forget id m
    · rfl
  have haddress : (fun a => if (s.departed id).macNodeIdToIPAddress a = some id then none
      else (s.departed id).macNodeIdToIPAddress a) = (s.departed id).macNodeIdToIPAddress := by
    funext a
    dsimp only [departed]
    split <;> simp_all
  have hul : (s.departed id).ulTransmissionMap.map (·.map (·.filter fun ue => ue.nodeId ≠ id)) =
      (s.departed id).ulTransmissionMap := by
    simp [departed, Function.comp_def]
  unfold departed at hcache hmodules haddress hul ⊢
  dsimp only at hcache hmodules haddress hul ⊢
  rw [hcache, hmodules, haddress, hul, Function.update_idem, Function.update_idem]

theorem gone_departed (h : Unmentioned id s) : Gone id (s.departed id) where
  nextHop := h.nextHop
  dMap := h.dMap
  ueList := h.ueList
  d2dPeeringMap := h.d2dPeeringMap
  multicastGroupMap := h.multicastGroupMap
  multicastTransmitterSet := h.multicastTransmitterSet
  ueHandoverTriggered := h.ueHandoverTriggered
  nodeIds := by simp [departed]
  macNodeIdToIPAddress a := by
    dsimp only [departed]
    split
    · simp
    · assumption
  macNodeIdToModule := by simp [departed]
  macNodeIdToModuleName := by simp [departed]
  ulTransmissionMap := by
    intro bands hbands ues hues ue hue
    obtain ⟨bands₀, -, rfl⟩ := List.mem_map.1 hbands
    obtain ⟨ues₀, -, rfl⟩ := List.mem_map.1 hues
    simpa using (List.mem_filter.1 hue).2

theorem sameOthers_departed
    (hcached : ∀ k ≠ id, (s.nodeIds k).isSome = true → (s.macNodeIdToModule k).isSome = true) :
    SameOthers id s (s.departed id) where
  counters := ⟨rfl, rfl, rfl⟩
  nodeIds k hk := by simp [departed, hk]
  macNodeIdToIPAddress a k hk := by
    dsimp only [departed]
    split
    · rename_i ha
      rw [ha]
      simp [Ne.symm hk]
    · rfl
  macNodeIdToModule k hk := by
    by_cases hreg : k ∈ s.nodes
    · obtain ⟨p, hp⟩ := Option.isSome_iff_exists.1 (hcached k hk (mem_keys.1 hreg))
      rw [cache_departed hk hreg, macOf, hp, Option.getD_some]
    · dsimp only [departed]
      rw [Function.update_of_ne hk, if_neg hreg]
  macNodeIdToModuleName k hk := by simp [departed, hk]
  nextHop _ _ := rfl
  dMap _ _ _ := rfl
  ueList := rfl
  d2dPeeringMap _ _ _ _ := rfl
  multicast _ _ := ⟨rfl, rfl⟩
  ueHandoverTriggered _ _ := rfl
  ulTransmissionMap := by simp [departed, Function.comp_def]
  modules p := by
    refine ⟨isSome_modules_departed, fun m hm m' hm' => ?_⟩
    dsimp only [departed] at hm'
    split at hm'
    · rw [Option.mem_def.1 hm] at hm'
      obtain rfl := Option.some.inj hm'
      exact MacModule.sameOthers_forget id m
    · rw [Option.mem_def.1 hm] at hm'
      obtain rfl := Option.some.inj hm'
      exact MacModule.SameOthers.refl id m

theorem live_departed (hlive : ∀ k ∈ s.nodes, s.Live k) :
    ∀ k ∈ (s.departed id).nodes, (s.departed id).Live k := by
  intro k hk
  obtain ⟨hne, hreg⟩ := mem_nodes_departed.1 hk
  refine ⟨(hlive k hreg).ne_zero, ?_, fun hnone => ?_⟩
  · rw [macOf_departed hne hreg, isSome_modules_departed]
    exact (hlive k hreg).module
  · rw [cache_departed hne hreg] at hnone
    cases hnone

/-- **When a departed node leaves nothing behind.**  The contract is met exactly if the MACs of all
registered nodes are there, those of the other nodes have been looked up before, and none of the
tables that `unregisterNode` leaves alone mentions the node. -/
theorem unregisterNode_iff (s : BinderState) (id : MacNodeId) :
    Contract id s ↔ Removable id s := by
  constructor
  · rintro ⟨s', hret, hgone, -, hsame, -⟩
    have hlive := live_of_unregisterNode hret
    rw [unregisterNode_of_live hlive] at hret
    obtain rfl := Except.ok.inj hret
    refine ⟨fun k hk => hlive k (mem_keys.2 hk), fun k hk hreg => ?_, ?_⟩
    · rw [← hsame.macNodeIdToModule k hk, cache_departed hk (mem_keys.2 hreg)]
      rfl
    · exact ⟨hgone.nextHop, hgone.dMap, hgone.ueList, hgone.d2dPeeringMap,
        hgone.multicastGroupMap, hgone.multicastTransmitterSet, hgone.ueHandoverTriggered⟩
  · rintro ⟨hlive, hcached, hunmentioned⟩
    have hlive : ∀ k ∈ s.nodes, s.Live k := fun k hk => hlive k (mem_keys.1 hk)
    refine ⟨s.departed id, unregisterNode_of_live hlive, gone_departed hunmentioned, ?_,
      sameOthers_departed hcached, ?_⟩
    · intro k hk m hm e he
      rw [modules_departed (List.mem_map_of_mem (mem_keys.2 hk))] at hm
      obtain ⟨m₀, -, rfl⟩ := Option.map_eq_some_iff.1 hm
      exact MacModule.gone_forget id m₀ e he
    · rw [unregisterNode_of_live (live_departed hlive), departed_departed]

/-- An eNB without users. -/
def freshEnb : MacModule where
  enb := some ⟨none, fun _ => false, fun _ => false, fun _ => false, fun _ => false⟩

/-- The eNB `1` and the UE `1025` in its cell are registered. -/
def arrival : List Event :=
  [.module 1 (some freshEnb), .registerNode 1 .ENODEB 0, .module 2 (some {}),
    .registerNode 2 .UE 1]

/-- The state after it. -/
def arrived : BinderState where
  toLteBinder := ((({} : LteBinder).registerNode 1 .ENODEB 0).1.registerNode 2 .UE 1).1
  modules := Function.update (Function.update (fun _ => none) 1 (some freshEnb)) 2 (some {})

theorem exec_arrival : machine.exec {} arrival = some (arrived, []) := rfl

theorem live_arrived : ∀ k ∈ arrived.nodes, arrived.Live k := by
  have hnodeIds : arrived.nodeIds =
      Function.update (Function.update (fun _ => none) 1 (some 1)) 1025 (some 2) := rfl
  intro k hk
  rw [mem_keys, hnodeIds] at hk
  by_cases hue : k = 1025
  · subst hue
    exact ⟨by decide, rfl, fun _ => by decide⟩
  · rw [Function.update_of_ne hue] at hk
    by_cases henb : k = 1
    · subst henb
      exact ⟨by decide, rfl, fun _ => by decide⟩
    · rw [Function.update_of_ne henb] at hk
      cases hk

/-- After a UE has left, its next hop and its deployment are still there. -/
theorem next_hop_left :
    ∃ s os, machine.exec {} arrival = some (s, os) ∧ ¬Contract 1025 s ∧
      ∃ s', s.unregisterNode 1025 = .ok s' ∧ s'.getNextHop 1025 = some 1 ∧
        s'.dMap 1 1025 = some true := by
  have hdMap : arrived.dMap 1 1025 = some true := rfl
  have hleft : arrived.unregisterNode 1025 = .ok (arrived.departed 1025) :=
    unregisterNode_of_live live_arrived
  refine ⟨arrived, [], exec_arrival, ?_, arrived.departed 1025, hleft,
    LteBinder.getNextHop_registerNextHop_self, hdMap⟩
  rintro ⟨s', hret, hgone, -⟩
  rw [hleft] at hret
  obtain rfl := Except.ok.inj hret
  have hnone : arrived.dMap 1 1025 = none := hgone.dMap 1
  rw [hdMap] at hnone
  cases hnone

end BinderState

end V2nLte
