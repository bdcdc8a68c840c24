import V2nLte.Lte.Unregister

/-!
# Node ids over a run

`registerNode` takes the ids of eNBs, relays and UEs from three counters, which never go back when
a node leaves.  The ranges of the ids are next to each other, so a counter that has used its range
up goes on into another one; that of the UEs starts again at `0`.

* `BinderState.fresh_ids_iff` : in a run all the ids are fresh and of the right type iff no range
  is used up.
* `BinderState.ue_without_id` : the 64512th UE gets the id `0`.
-/

namespace V2nLte

theorem idToMacCid_eq (nodeId : MacNodeId) (lcid : LogicalCid) :
    idToMacCid nodeId lcid = 65536 * nodeId + lcid := by
  have hlcid : (lcid : ℕ) < 2 ^ 16 := lcid.isLt
  rw [idToMacCid, ← Nat.shiftLeft_add_eq_or_of_lt hlcid, Nat.shiftLeft_eq, Nat.mul_comm]

theorem MacCidToNodeId_idToMacCid (nodeId : MacNodeId) (lcid : LogicalCid) :
    MacCidToNodeId (idToMacCid nodeId lcid) = nodeId := by
  have hlcid := lcid.isLt
  have hnode := nodeId.isLt
  apply Fin.ext
  rw [idToMacCid_eq, MacCidToNodeId, Fin.val_ofNat]
  omega

theorem MacCidToLcid_idToMacCid (nodeId : MacNodeId) (lcid : LogicalCid) :
    MacCidToLcid (idToMacCid nodeId lcid) = lcid := by
  have hlcid := lcid.isLt
  rw [idToMacCid_eq, MacCidToLcid]
  omega

/-- A connection is made of its node and its logical connection. -/
theorem idToMacCid_MacCidToNodeId {cid : ℕ} (h : cid < 4294967296) :
    idToMacCid (MacCidToNodeId cid) (Fin.ofNat 65536 (MacCidToLcid cid)) = cid := by
  rw [idToMacCid_eq, MacCidToNodeId, MacCidToLcid, Fin.val_ofNat, Fin.val_ofNat]
  show 65536 * (cid / 65536 % 65536) + cid % 65536 % 65536 = cid
  omega

/-- The first id of a node of this type. -/
def firstId : LteNodeType → ℕ
  | .ENODEB => ENB_MIN_ID
  | .RELAY => RELAY_MIN_ID
  | .UE => UE_MIN_ID
  | .UNKNOWN_NODE_TYPE => 65535

/-- The number of ids for nodes of this type. -/
def idsFor : LteNodeType → ℕ
  | .ENODEB => (ENB_MAX_ID : ℕ) + 1 - (ENB_MIN_ID : ℕ)
  | .RELAY => (RELAY_MAX_ID : ℕ) + 1 - (RELAY_MIN_ID : ℕ)
  | .UE => (UE_MAX_ID : ℕ) + 1 - (UE_MIN_ID : ℕ)
  | .UNKNOWN_NODE_TYPE => 0

theorem firstId_add_idsFor_le {t : LteNodeType} : firstId t + idsFor t ≤ 65536 := by
  cases t <;> decide

/-- The type of an id says which range it is in. -/
theorem getNodeTypeById_eq_iff {t : LteNodeType} (ht : t ≠ .UNKNOWN_NODE_TYPE) {id : MacNodeId} :
    getNodeTypeById id = t ↔ firstId t ≤ id ∧ (id : ℕ) < firstId t + idsFor t := by
  have hid := id.isLt
  have hbounds : ((ENB_MIN_ID : ℕ) = 1 ∧ (ENB_MAX_ID : ℕ) = 255) ∧
      ((RELAY_MIN_ID : ℕ) = 257 ∧ (RELAY_MAX_ID : ℕ) = 1023) ∧
      (UE_MIN_ID : ℕ) = 1025 ∧ (UE_MAX_ID : ℕ) = 65535 := by decide
  unfold getNodeTypeById
  simp only [Fin.le_def]
  obtain ⟨⟨he, he'⟩, ⟨hr, hr'⟩, hu, hu'⟩ := hbounds
  rw [he, he', hr, hr', hu, hu']
  cases t with
  | UNKNOWN_NODE_TYPE => exact absurd rfl ht
  | ENODEB | RELAY | UE =>
    simp only [firstId, idsFor, he, he', hr, hr', hu, hu']
    split_ifs <;> simp <;> omega

/-- The ranges are disjoint. -/
theorem range_disjoint {t t' : LteNodeType} (ht : t ≠ .UNKNOWN_NODE_TYPE)
    (ht' : t' ≠ .UNKNOWN_NODE_TYPE) {id : MacNodeId}
    (h : firstId t ≤ id ∧ (id : ℕ) < firstId t + idsFor t)
    (h' : firstId t' ≤ id ∧ (id : ℕ) < firstId t' + idsFor t') : t = t' :=
  ((getNodeTypeById_eq_iff ht).2 h).symm.trans ((getNodeTypeById_eq_iff ht').2 h')

namespace BinderState

/-! ### The ids that are given out -/

/-- The id for the next node of this type. -/
def nextId (s : BinderState) (type : LteNodeType) : MacNodeId := (s.toLteBinder.newId type).2

/-- An id that no registered node has, from which the type can be told, and with connections of
its own. -/
structure FreshId (s : BinderState) (type : LteNodeType) (id : MacNodeId) : Prop where
  unused : ∀ k, (s.nodeIds k).isSome = true → id ≠ k
  typed : getNodeTypeById id = type
  connections : ∀ lcid, MacCidToNodeId (idToMacCid id lcid) = id ∧
    MacCidToLcid (idToMacCid id lcid) = lcid ∧
    ∀ k lcid', (s.nodeIds k).isSome = true → idToMacCid id lcid ≠ idToMacCid k lcid'
  cids : ∀ cid < 4294967296, MacCidToNodeId cid = id →
    idToMacCid id (Fin.ofNat 65536 (MacCidToLcid cid)) = cid

/-- Whether a node of this type is registered. -/
def Event.registers (type : LteNodeType) : Event → Bool
  | .registerNode _ type' _ => decide (type' = type)
  | _ => false

/-- The number of nodes of this type that have been registered. -/
def registrations (type : LteNodeType) (es : List Event) : ℕ := es.countP (Event.registers type)

/-- No range of ids is used up, and nothing else is registered. -/
def InRange (es : List Event) : Prop := ∀ type, registrations type es ≤ idsFor type

variable {s s' : BinderState} {e : Event} {es : List Event}

theorem fresh_of_unused {type : LteNodeType} {id : MacNodeId} (htype : getNodeTypeById id = type)
    (hunused : ∀ k, (s.nodeIds k).isSome = true → id ≠ k) : FreshId s type id where
  unused := hunused
  typed := htype
  connections lcid := by
    refine ⟨MacCidToNodeId_idToMacCid id lcid, MacCidToLcid_idToMacCid id lcid,
      fun k lcid' hk heq => hunused k hk ?_⟩
    rw [← MacCidToNodeId_idToMacCid id lcid, heq, MacCidToNodeId_idToMacCid]
  cids cid hcid hnode := hnode ▸ idToMacCid_MacCidToNodeId hcid

/-! ### What the operations do to the ids -/

theorem getMacFromMacNodeId_ensures (s : BinderState) (k : MacNodeId) :
    Ensures (fun _ => True) (fun r => r.1.toLteBinder = s.toLteBinder)
      (s.getMacFromMacNodeId k) := by
  unfold getMacFromMacNodeId
  split
  · rfl
  split
  · rfl
  split
  · trivial
  split
  · rfl
  · trivial

theorem onMac_ensures (f : MacModule → MacModule) (skipNull : Bool) (s : BinderState)
    (k : MacNodeId) :
    Ensures (fun _ => True) (fun s' => s'.toLteBinder = s.toLteBinder) (onMac f skipNull s k) := by
  refine Ensures.bind (getMacFromMacNodeId_ensures s k) ?_
  rintro ⟨s₁, mac⟩ h
  cases mac with
  | none =>
    cases skipNull with
    | true => exact h
    | false => trivial
  | some p =>
    dsimp only
    split
    · trivial
    · exact h

theorem onMac_foldlM_ensures (f : MacModule → MacModule) (skipNull : Bool) (ks : List MacNodeId)
    (s : BinderState) :
    Ensures (fun _ => True) (fun s' => s'.toLteBinder = s.toLteBinder)
      (ks.foldlM (onMac f skipNull) s) :=
  Ensures.foldlM (I := fun s' => s'.toLteBinder = s.toLteBinder) rfl fun s₁ k h =>
    (onMac_ensures f skipNull s₁ k).mono fun _ h' => h'.trans h

/-- The counters are the same, and no node is registered that was not. -/
structure NoNewId (s s' : BinderState) : Prop where
  nextId : ∀ type, s'.nextId type = s.nextId type
  nodeIds : ∀ k, (s'.nodeIds k).isSome = true → (s.nodeIds k).isSome = true

theorem noNewId_of_eq (h : s'.toLteBinder = s.toLteBinder) : NoNewId s s' where
  nextId _ := by rw [BinderState.nextId, h]; rfl
  nodeIds k hk := by rwa [h] at hk

theorem unregisterNode_ensures (id : MacNodeId) (s : BinderState) :
    Ensures (fun _ => True) (NoNewId s) (s.unregisterNode id) := by
  refine Ensures.bind (onMac_foldlM_ensures _ _ _ s) fun s₁ h₁ => ?_
  refine Ensures.bind (onMac_foldlM_ensures _ _ _ _) fun s₂ h₂ => ⟨fun type => ?_, fun k hk => ?_⟩
  · have hcounters : s₂.enbCounter = s.enbCounter ∧ s₂.relayCounter = s.relayCounter ∧
        s₂.ueCounter = s.ueCounter := by
      rw [h₂, h₁]
      exact ⟨rfl, rfl, rfl⟩
    obtain ⟨he, hr, hu⟩ := hcounters
    cases type with
    | ENODEB => exact he
    | RELAY => exact hr
    | UE => exact hu
    | UNKNOWN_NODE_TYPE => rfl
  · have hnodeIds : s₂.nodeIds = s.nodeIds := by
      rw [h₂]
      show s₁.nodeIds = s.nodeIds
      rw [h₁]
    simp only [Function.update_apply, hnodeIds] at hk
    split at hk
    · cases hk
    · exact hk

theorem checkD2DCapability_ensures (src dst : MacNodeId) (s : BinderState) :
    Ensures (fun _ => True) (fun s' => s'.toLteBinder = s.toLteBinder)
      (s.checkD2DCapability src dst) := by
  unfold checkD2DCapability
  split
  · trivial
  split
  · rfl
  refine Ensures.bind (getMacFromMacNodeId_ensures s dst) ?_
  rintro ⟨s₁, dstMac⟩ h₁
  dsimp only
  split
  · trivial
  split
  · split
    · refine Ensures.bind (getMacFromMacNodeId_ensures s₁ src) ?_
      rintro ⟨s₂, srcMac⟩ h₂
      dsimp only
      split
      · trivial
      · exact h₂.trans h₁
    · exact h₁
  · exact h₁

/-- **Only `registerNode` gives out an id.** -/
theorem noNewId_of_handle (h : s.handle e = .ok s')
    (hnot : ∀ omnetId type masterId, e ≠ .registerNode omnetId type masterId) : NoNewId s s' := by
  have hof : ∀ {P : BinderState → Prop} {x : Except BinderError BinderState},
      Ensures (fun _ => True) P x → x = .ok s' → P s' := by
    intro P x hx hs
    rwa [hs] at hx
  cases e with
  | registerNode omnetId type masterId => exact absurd rfl (hnot omnetId type masterId)
  | getMacFromMacNodeId nodeId =>
    obtain ⟨r, hr, h⟩ := bind_eq_ok.1 h
    cases h
    have hmac := getMacFromMacNodeId_ensures s nodeId
    rw [hr] at hmac
    exact noNewId_of_eq hmac
  | checkD2DCapability src dst =>
    exact noNewId_of_eq (hof (checkD2DCapability_ensures src dst s) h)
  | unregisterNode nodeId => exact hof (unregisterNode_ensures nodeId s) h
  | module | registerName | addUeInfo | registerMulticastGroup | addD2DMulticastTransmitter
  | storeUlTransmissionMap | initAndResetUlTransmissionInfo =>
    cases h
    exact noNewId_of_eq rfl
  | registerNextHop | unregisterNextHop | setMacNodeId | addUeHandoverTriggered
  | removeUeHandoverTriggered =>
    cases h
    exact ⟨fun type => by cases type <;> rfl, fun k hk => hk⟩

/-- `registerNode` moves its counter on. -/
theorem nextId_registerNode {omnetId : OmnetId} {type : LteNodeType} {masterId : MacNodeId}
    (h : s.handle (.registerNode omnetId type masterId) = .ok s') {t : LteNodeType}
    (ht : t ≠ .UNKNOWN_NODE_TYPE) :
    s'.nextId t = if type = t then s.nextId t + 1 else s.nextId t := by
  cases h
  cases t with
  | UNKNOWN_NODE_TYPE => exact absurd rfl ht
  | ENODEB | RELAY | UE => cases type <;> rfl

theorem nodeIds_of_registerNode {omnetId : OmnetId} {type : LteNodeType} {masterId : MacNodeId}
    (h : s.handle (.registerNode omnetId type masterId) = .ok s') {k : MacNodeId}
    (hk : (s'.nodeIds k).isSome = true) : k = s.nextId type ∨ (s.nodeIds k).isSome = true := by
  cases h
  by_cases heq : k = s.nextId type
  · exact .inl heq
  · refine .inr ?_
    simp only [LteBinder.nodeIds_registerNode] at hk
    rwa [Function.update_of_ne (show k ≠ (s.newId type).2 from heq)] at hk

/-! ### Counting -/

theorem registrations_concat {type : LteNodeType} :
    registrations type (es ++ [e]) =
      registrations type es + if e.registers type = true then 1 else 0 := by
  rw [registrations, registrations, List.countP_append, List.countP_singleton]

theorem inRange_of_append {es' : List Event} (h : InRange (es ++ es')) : InRange es := by
  intro type
  have hle := h type
  rw [registrations, List.countP_append] at hle
  exact Nat.le_trans (Nat.le_add_right _ _) hle

/-- The counters say how many nodes there have been, and the registered nodes are among them. -/
structure Counted (es : List Event) (s : BinderState) : Prop where
  nextId : ∀ type, type ≠ .UNKNOWN_NODE_TYPE →
    (s.nextId type : ℕ) = (firstId type + registrations type es) % 65536
  nodeIds : InRange es → ∀ k, (s.nodeIds k).isSome = true →
    ∃ type, type ≠ .UNKNOWN_NODE_TYPE ∧ firstId type ≤ k ∧
      (k : ℕ) < firstId type + registrations type es

theorem counted_initial : Counted [] {} where
  nextId type ht := by
    cases type with
    | UNKNOWN_NODE_TYPE => exact absurd rfl ht
    | ENODEB | RELAY | UE => rfl
  nodeIds _ k hk := nomatch hk

/-- There is an id of this type left. -/
theorem Counted.nextId_eq (h : Counted es s) {type : LteNodeType}
    (ht : type ≠ .UNKNOWN_NODE_TYPE) (hlt : registrations type es < idsFor type) :
    (s.nextId type : ℕ) = firstId type + registrations type es := by
  have hmax := firstId_add_idsFor_le (t := type)
  rw [h.nextId type ht, Nat.mod_eq_of_lt (by omega)]

/-- A node that is registered in range is of a known type, and there was an id left. -/
theorem registrations_lt {omnetId : OmnetId} {type : LteNodeType} {masterId : MacNodeId}
    (h : InRange (es ++ [.registerNode omnetId type masterId])) :
    type ≠ .UNKNOWN_NODE_TYPE ∧ registrations type es < idsFor type := by
  have hle := h type
  rw [registrations_concat, Event.registers, if_pos (by simp)] at hle
  refine ⟨fun heq => ?_, by omega⟩
  subst heq
  exact absurd hle (Nat.not_succ_le_zero _)

theorem Counted.step (h : Counted es s) (hst : s.handle e = .ok s') :
    Counted (es ++ [e]) s' := by
  -- only a registration gives ids away
  by_cases hreg : ∃ omnetId type masterId, e = .registerNode omnetId type masterId
  · obtain ⟨omnetId, type, masterId, rfl⟩ := hreg
    have hcount : ∀ t, registrations t (es ++ [.registerNode omnetId type masterId]) =
        registrations t es + if type = t then 1 else 0 := fun t => by
      rw [registrations_concat, Event.registers]
      simp only [decide_eq_true_eq]
    refine ⟨fun t ht => ?_, fun hin k hk => ?_⟩
    · rw [nextId_registerNode hst ht, hcount]
      have hold := h.nextId t ht
      split
      · rw [Fin.val_add, hold]
        show (_ + 1) % 65536 = _
        omega
      · exact hold
    · obtain ⟨htype, hlt⟩ := registrations_lt hin
      rcases nodeIds_of_registerNode hst hk with rfl | hold
      · refine ⟨type, htype, ?_, ?_⟩
        · rw [h.nextId_eq htype hlt]
          exact Nat.le_add_right _ _
        · rw [h.nextId_eq htype hlt, hcount, if_pos rfl]
          exact Nat.lt_succ_self _
      · obtain ⟨t, ht, hle, hlt⟩ := h.nodeIds (inRange_of_append hin) k hold
        refine ⟨t, ht, hle, ?_⟩
        rw [hcount]
        omega
  · have hnew := noNewId_of_handle hst fun omnetId type masterId heq =>
      hreg ⟨omnetId, type, masterId, heq⟩
    have hcount : ∀ t, registrations t (es ++ [e]) = registrations t es := fun t => by
      have hno : e.registers t = false := by
        cases e with
        | registerNode omnetId type masterId => exact absurd ⟨omnetId, type, masterId, rfl⟩ hreg
        | _ => rfl
      rw [registrations_concat, hno]
      rfl
    refine ⟨fun t ht => ?_, fun hin k hk => ?_⟩
    · rw [hnew.nextId, hcount]
      exact h.nextId t ht
    · simp only [hcount]
      exact h.nodeIds (inRange_of_append hin) k (hnew.nodeIds k hk)

theorem counted_of_exec {os : List Empty} (h : machine.exec {} es = some (s, os)) :
    Counted es s :=
  Machine.exec_induction (J := fun es s _ => Counted es s) counted_initial
    (fun _ s _ e s' _ _ ih hst => by
      obtain ⟨s₁, hs₁, heq⟩ := Option.map_eq_some_iff.1 hst
      cases heq
      refine ih.step ?_
      cases hh : s.handle e with
      | ok s₂ => rw [hh] at hs₁; cases hs₁; rfl
      | error err => rw [hh] at hs₁; cases hs₁) h

/-- **The next id is fresh** iff the range of its type is not used up. -/
theorem Counted.fresh_iff (h : Counted es s) (hin : InRange es) (type : LteNodeType) :
    FreshId s type (s.nextId type) ↔ registrations type es < idsFor type := by
  constructor
  · intro hfresh
    by_contra hfull
    by_cases htype : type = .UNKNOWN_NODE_TYPE
    · subst htype
      have hid : s.nextId .UNKNOWN_NODE_TYPE = 65535 := rfl
      rw [hid] at hfresh
      exact absurd hfresh.typed (by decide)
    -- the range is used up, and the counter has gone on
    have hreg : registrations type es = idsFor type := Nat.le_antisymm (hin type) (by omega)
    have hid := h.nextId type htype
    have hrange := (getNodeTypeById_eq_iff htype).1 hfresh.typed
    have hmax := firstId_add_idsFor_le (t := type)
    have hpos : 0 < firstId type := by cases type <;> decide
    omega
  · intro hlt
    have htype : type ≠ .UNKNOWN_NODE_TYPE := by
      rintro rfl
      exact absurd hlt (Nat.not_lt_zero _)
    have hid := h.nextId_eq htype hlt
    have hrange : firstId type ≤ s.nextId type ∧
        (s.nextId type : ℕ) < firstId type + idsFor type := by omega
    refine fresh_of_unused ((getNodeTypeById_eq_iff htype).2 hrange) fun k hk heq => ?_
    obtain ⟨t, ht, hle, hlt'⟩ := h.nodeIds hin k hk
    rw [← heq] at hle hlt'
    have hmax := hin t
    obtain rfl := range_disjoint htype ht hrange ⟨hle, by omega⟩
    omega

/-- What the ids of a run are asked for: every new id is fresh. -/
def FreshIds (es : List Event) : Prop :=
  ∀ s omnetId type masterId s' o,
    machine.Takes {} es s (.registerNode omnetId type masterId) s' o →
    FreshId s type (s.toLteBinder.registerNode omnetId type masterId).2

theorem registerNode_snd {omnetId : OmnetId} {type : LteNodeType} {masterId : MacNodeId} :
    (s.toLteBinder.registerNode omnetId type masterId).2 = s.nextId type := by
  cases type <;> rfl

/-- A range that is used up shows. -/
theorem inRange_of_freshIds {os : List Empty} (hrun : machine.exec {} es = some (s, os)) :
    FreshIds es → InRange es := by
  refine Machine.exec_induction (J := fun es _ _ => FreshIds es → InRange es)
    (fun _ type => Nat.zero_le _) ?_ hrun
  intro es s os e s' o hex ih hst hfresh
  have hin : InRange es := ih fun s omnetId type masterId s' o ht =>
    hfresh s omnetId type masterId s' o ht.append_right
  intro t
  rw [registrations_concat]
  have hle := hin t
  split <;> rename_i hreg
  · cases e with
    | registerNode omnetId type masterId =>
      obtain rfl : type = t := of_decide_eq_true hreg
      have hnew := hfresh s omnetId type masterId s' o (Machine.takes_concat hex hst)
      rw [registerNode_snd] at hnew
      exact ((counted_of_exec hex).fresh_iff hin type).1 hnew
    | _ => cases hreg
  · exact hle

/-- **All the ids of a run are fresh** iff no range is used up. -/
theorem fresh_ids_iff {os : List Empty} (hrun : machine.exec {} es = some (s, os)) :
    FreshIds es ↔ InRange es := by
  refine ⟨inRange_of_freshIds hrun, ?_⟩
  intro hin s omnetId type masterId s' o ht
  obtain ⟨es₁, es₂, os₁, rfl, hex, -⟩ := ht
  have hin₁ : InRange (es₁ ++ [.registerNode omnetId type masterId]) :=
    @inRange_of_append _ es₂ (by rwa [List.append_assoc])
  rw [registerNode_snd]
  exact ((counted_of_exec hex).fresh_iff (inRange_of_append hin₁) type).2 (registrations_lt hin₁).2

/-- An eNB and a UE. -/
def enbAndUe : List Event := [.registerNode 7 .ENODEB 0, .registerNode 8 .UE 1]

theorem fresh_ids_enbAndUe : FreshIds enbAndUe ∧ InRange enbAndUe := by
  have hrun : machine.exec {} enbAndUe = some (_, []) := rfl
  have hin : InRange enbAndUe := by
    intro type
    cases type <;> decide
  exact ⟨(fresh_ids_iff hrun).2 hin, hin⟩

/-- `n` UEs. -/
def ues (n : ℕ) : List Event := List.replicate n (.registerNode 8 .UE 1)

theorem exec_ues (s : BinderState) (n : ℕ) : ∃ s' os, machine.exec s (ues n) = some (s', os) := by
  induction n generalizing s with
  | zero => exact ⟨s, [], rfl⟩
  | succ n ih =>
    obtain ⟨s', os, hex⟩ := ih _
    exact ⟨s', _, Machine.exec_cons_eq_some.2 ⟨_, [], os, rfl, hex, rfl⟩⟩

theorem registrations_ues (n : ℕ) : registrations .UE (ues n) = n := by
  rw [registrations, ues, List.countP_replicate]
  rfl

/-- **The 64512th UE gets the id `0`**, which is not that of a UE. -/
theorem ue_without_id : ∃ s os, machine.exec {} (ues 64511) = some (s, os) ∧ s.nextId .UE = 0 ∧
    ¬FreshIds (ues 64512) := by
  obtain ⟨s, os, hex⟩ := exec_ues {} 64511
  obtain ⟨s', os', hex'⟩ := exec_ues {} 64512
  refine ⟨s, os, hex, Fin.ext ?_, fun hfresh => ?_⟩
  · rw [(counted_of_exec hex).nextId .UE (by decide), registrations_ues]
    rfl
  · have hin := inRange_of_freshIds hex' hfresh .UE
    rw [registrations_ues] at hin
    exact absurd hin (by decide)

end BinderState

end V2nLte
