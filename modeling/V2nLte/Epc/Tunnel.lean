import V2nLte.Epc.FilterTable
import V2nLte.Lte.Binder
import V2nLte.Machine.Pool
import Mathlib.Tactic.Ring

/-!
# The tunnels of the core network

Datagrams for a UE reach its eNB through GTP tunnels.  At an eNB and at the gateway (PGW) of the
core network `TrafficFlowFilterSimplified` looks up where a datagram has to go, and
`GtpUserSimplified` puts it into a tunnel, takes it out again, and sends it on if the UE has moved
in the meantime.  Both look into the binder, and the binder changes while datagrams are on their
way: here it is replaced by any other one at any moment.

The core network delivers every message that is sent through a tunnel, in any order.

* `datagrams_accounted` : no datagram is lost or doubled in the core network.
* `delivered_where_served` : the datagrams for a UE that stays in its cell all come out there, or
  at the eNB where they entered if the fast path is on, after at most two tunnels.
* `hops_bounded` : a datagram passes at most two tunnels, and at most two more for each time the
  binder changes.
* `core_drains` : while the binder stays as it is, every datagram leaves the core network.
-/

namespace V2nLte

/-- A node at the end of a tunnel. -/
inductive EpcNode where
  /-- The gateway. -/
  | pgw
  /-- The eNB with this id. -/
  | enb (macNodeId : MacNodeId)
  deriving DecidableEq

/-- The owner type of a node. -/
def EpcNode.ownerType : EpcNode → EpcNodeType
  | .pgw => .PGW
  | .enb _ => .ENB

/-- What the modules of the core network look up in the binder. -/
structure EpcView extends BinderView where
  /-- `getModuleNameByMacNodeId` knows the eNB with this id; it throws for any other id. -/
  hasName : MacNodeId → Bool

/-- A message in a tunnel. -/
structure Tunnelled where
  /-- Where the tunnel ends. -/
  peer : EpcNode
  /-- The datagram in the message. -/
  pkt : Packet
  deriving DecidableEq

/-- What a node of the core network does with a datagram. -/
inductive EpcOut where
  /-- It leaves through the gate `pppGate` of the node. -/
  | pppGate (node : EpcNode) (pkt : Packet)
  /-- It is sent through a tunnel. -/
  | socketOut (node peer : EpcNode) (pkt : Packet)
  /-- It is deleted. -/
  | deleted (node : EpcNode) (pkt : Packet)
  deriving DecidableEq

namespace GtpUserSimplified

/-- `handleFromTrafficFlowFilter`; `none` if it throws. -/
def handleFromTrafficFlowFilter (b : EpcView) (node : EpcNode) (flowId : ℤ) (pkt : Packet) :
    Option EpcOut :=
  if flowId = 0 then
    -- local delivery
    some (.pppGate node pkt)
  else if flowId = -1 then
    -- send to the PGW
    some (.socketOut node .pgw pkt)
  else
    let enb : MacNodeId := Fin.ofNat 65536 flowId.toNat
    if b.hasName enb then some (.socketOut node (.enb enb) pkt) else none

/-- `handleFromUdp`; `none` if it throws. -/
def handleFromUdp (b : EpcView) (node : EpcNode) (pkt : Packet) : Option EpcOut :=
  let destId := b.getMacNodeId pkt.destAddr
  match node with
  | .pgw =>
    if destId ≠ 0 then
      match b.getNextHop destId with
      | none => none
      | some destMaster =>
        if b.hasName destMaster then some (.socketOut .pgw (.enb destMaster) pkt) else none
    else
      -- destination is outside the LTE network
      some (.pppGate .pgw pkt)
  | .enb enbId =>
    if destId ≠ 0 then
      match b.getNextHop destId with
      | none => none
      | some destMaster =>
        if destMaster = enbId then some (.pppGate (.enb enbId) pkt)
        else some (.socketOut (.enb enbId) .pgw pkt)
    else some (.socketOut (.enb enbId) .pgw pkt)

end GtpUserSimplified

namespace TrafficFlowFilterSimplified

/-- `findTrafficFlow`; `none` if the binder throws. -/
def findTrafficFlow (b : BinderView) (fastForwarding : Bool) (ownerType : EpcNodeType)
    (srcAddress destAddress : Ipv4Address) : Option ℤ :=
  let destId := b.getMacNodeId destAddress
  if destId = 0 then
    match ownerType with
    | .ENB => some (-1)
    | .PGW => some (-2)
  else
    match b.getNextHop destId with
    | none => none
    | some destMaster =>
      match ownerType with
      | .PGW => some (destMaster : ℕ)
      | .ENB =>
        match b.getNextHop (b.getMacNodeId srcAddress) with
        | none => none
        | some srcMaster =>
          if fastForwarding = true ∧ srcMaster = destMaster then some 0 else some (-1)

/-- `handleMessage`, with what the GTP module then does. -/
def handleMessage (b : EpcView) (fastForwarding : Bool) (node : EpcNode) (pkt : Packet) :
    Option EpcOut :=
  match findTrafficFlow b.toBinderView fastForwarding node.ownerType pkt.srcAddr pkt.destAddr with
  | none => none
  | some tftId =>
    if tftId = -2 then some (.deleted node pkt)
    else GtpUserSimplified.handleFromTrafficFlowFilter b node tftId pkt

end TrafficFlowFilterSimplified

/-- The core network. -/
structure Epc where
  /-- What the binder knows now. -/
  binder : EpcView
  /-- The messages in the tunnels. -/
  inFlight : List Tunnelled := []

/-- What can happen in the core network. -/
inductive EpcEvent where
  /-- A datagram comes to the traffic filter of a node. -/
  | fromIp (node : EpcNode) (pkt : Packet)
  /-- The message at this position arrives at the end of its tunnel. -/
  | fromUdp (i : ℕ)
  /-- The binder changes: nodes come, move and go. -/
  | change (binder : EpcView)

namespace Epc

/-- A message that is sent is on its way. -/
def put (s : Epc) : EpcOut → Epc × List EpcOut
  | .socketOut node peer pkt =>
    ({ s with inFlight := s.inFlight ++ [⟨peer, pkt⟩] }, [.socketOut node peer pkt])
  | .pppGate node pkt => (s, [.pppGate node pkt])
  | .deleted node pkt => (s, [.deleted node pkt])

/-- The core network; `fastForwarding` is a parameter of each traffic filter. -/
def machine (fastForwarding : EpcNode → Bool) : Machine Epc EpcEvent EpcOut where
  step s
    | .fromIp node pkt =>
      (TrafficFlowFilterSimplified.handleMessage s.binder (fastForwarding node) node pkt).map s.put
    | .fromUdp i =>
      match s.inFlight[i]? with
      | none => none
      | some m =>
        (GtpUserSimplified.handleFromUdp s.binder m.peer m.pkt).map
          { s with inFlight := s.inFlight.eraseIdx i }.put
    | .change binder => some ({ s with binder }, [])

/-! ### What is counted -/

/-- The datagrams that have come into the core network. -/
def entered (es : List EpcEvent) : List Packet :=
  es.filterMap fun
    | .fromIp _ pkt => some pkt
    | _ => none

/-- The datagrams that have left the core network. -/
def left (os : List EpcOut) : List Packet :=
  os.filterMap fun
    | .pppGate _ pkt => some pkt
    | .deleted _ pkt => some pkt
    | .socketOut .. => none

/-- The tunnels that a datagram has passed. -/
def hops (pkt : Packet) (os : List EpcOut) : ℕ :=
  os.countP fun
    | .socketOut _ _ pkt' => pkt' = pkt
    | _ => false

/-- How often the binder changes. -/
def changes (es : List EpcEvent) : ℕ :=
  es.countP fun
    | .change _ => true
    | _ => false

/-- The node with this address is known, and served by `master`. -/
def Serves (b : BinderView) (destAddr : Ipv4Address) (master : MacNodeId) : Prop :=
  b.getMacNodeId destAddr ≠ 0 ∧ b.getNextHop (b.getMacNodeId destAddr) = some master

instance (b : BinderView) (destAddr : Ipv4Address) (master : MacNodeId) :
    Decidable (Serves b destAddr master) := inferInstanceAs (Decidable (_ ∧ _))

/-- The tunnels that a message still has to pass after this one, if the binder stays as it is. -/
def remaining (b : BinderView) (m : Tunnelled) : ℕ :=
  match m.peer with
  | .pgw => 1
  | .enb e => if Serves b m.pkt.destAddr e then 0 else 2

variable {b : EpcView} {fast : Bool} {node : EpcNode} {pkt : Packet} {o : EpcOut} {m m' : MacNodeId}

theorem Serves.unique (h : Serves b.toBinderView pkt.destAddr m)
    (h' : Serves b.toBinderView pkt.destAddr m') : m = m' :=
  Option.some.inj (h.2.symm.trans h'.2)

theorem remaining_le (b : BinderView) (m : Tunnelled) : remaining b m ≤ 2 := by
  unfold remaining
  split
  · omega
  · split <;> omega

/-! ### One datagram at one node -/

/-- What a node does with a datagram from a tunnel. -/
theorem handleFromUdp_cases (h : GtpUserSimplified.handleFromUdp b node pkt = some o) :
    (node = .pgw ∧ b.getMacNodeId pkt.destAddr = 0 ∧ o = .pppGate .pgw pkt) ∨
    (∃ m, node = .pgw ∧ Serves b.toBinderView pkt.destAddr m ∧ o = .socketOut .pgw (.enb m) pkt) ∨
    (∃ e, node = .enb e ∧ Serves b.toBinderView pkt.destAddr e ∧ o = .pppGate (.enb e) pkt) ∨
    ∃ e, node = .enb e ∧ ¬ Serves b.toBinderView pkt.destAddr e ∧
      o = .socketOut (.enb e) .pgw pkt := by
  unfold GtpUserSimplified.handleFromUdp at h
  by_cases hid : b.getMacNodeId pkt.destAddr = 0
  · cases node with
    | pgw => exact .inl ⟨rfl, hid, by simpa [hid] using h.symm⟩
    | enb e =>
      refine .inr (.inr (.inr ⟨e, rfl, fun hs => hs.1 hid, ?_⟩))
      simpa [hid] using h.symm
  · cases hhop : b.getNextHop (b.getMacNodeId pkt.destAddr) with
    | none => cases node <;> simp [hid, hhop] at h
    | some m =>
      have hs : Serves b.toBinderView pkt.destAddr m := ⟨hid, hhop⟩
      cases node with
      | pgw =>
        simp only [hid, hhop, ne_eq, not_false_eq_true, if_true] at h
        split at h
        · exact .inr (.inl ⟨m, rfl, hs, (Option.some.inj h).symm⟩)
        · cases h
      | enb e =>
        simp only [hid, hhop, ne_eq, not_false_eq_true, if_true] at h
        split at h
        · rename_i hme
          subst hme
          exact .inr (.inr (.inl ⟨m, rfl, hs, (Option.some.inj h).symm⟩))
        · rename_i hme
          refine .inr (.inr (.inr ⟨e, rfl, fun hs' => ?_, (Option.some.inj h).symm⟩))
          exact hme (hs.unique hs')

/-- What a node does with a datagram from its traffic filter.  The fast path asks whether both
ends have the same master, not whether it is this eNB. -/
theorem handleMessage_cases
    (h : TrafficFlowFilterSimplified.handleMessage b fast node pkt = some o) :
    (node = .pgw ∧ b.getMacNodeId pkt.destAddr = 0 ∧ o = .deleted .pgw pkt) ∨
    (node = .pgw ∧ Serves b.toBinderView pkt.destAddr 0 ∧ o = .pppGate .pgw pkt) ∨
    (∃ m, node = .pgw ∧ Serves b.toBinderView pkt.destAddr m ∧ o = .socketOut .pgw (.enb m) pkt) ∨
    (∃ e m, node = .enb e ∧ fast = true ∧ Serves b.toBinderView pkt.destAddr m ∧
      o = .pppGate (.enb e) pkt) ∨
    ∃ e, node = .enb e ∧ o = .socketOut (.enb e) .pgw pkt := by
  unfold TrafficFlowFilterSimplified.handleMessage TrafficFlowFilterSimplified.findTrafficFlow at h
  -- an address that no node has goes to the gateway, where it is deleted
  by_cases hid : b.getMacNodeId pkt.destAddr = 0
  · cases node with
    | pgw => exact .inl ⟨rfl, hid, by simpa [hid, EpcNode.ownerType] using h.symm⟩
    | enb e =>
      refine .inr (.inr (.inr (.inr ⟨e, rfl, ?_⟩)))
      simpa [hid, EpcNode.ownerType, GtpUserSimplified.handleFromTrafficFlowFilter] using h.symm
  · cases hhop : b.getNextHop (b.getMacNodeId pkt.destAddr) with
    | none => simp [hid, hhop] at h
    | some m =>
      -- the source asks for the next hop of the destination only
      have hs : Serves b.toBinderView pkt.destAddr m := ⟨hid, hhop⟩
      cases node with
      | pgw =>
        by_cases hm : m = 0
        · subst hm
          refine .inr (.inl ⟨rfl, hs, ?_⟩)
          simpa [hid, hhop, EpcNode.ownerType, GtpUserSimplified.handleFromTrafficFlowFilter]
            using h.symm
        · have hm' : (m : ℕ) ≠ 0 := fun h0 => hm (Fin.ext h0)
          have hne : ((m : ℕ) : ℤ) ≠ -2 ∧ ((m : ℕ) : ℤ) ≠ 0 ∧ ((m : ℕ) : ℤ) ≠ -1 := by omega
          simp only [hid, hhop, EpcNode.ownerType, GtpUserSimplified.handleFromTrafficFlowFilter,
            if_false, hne.1, hne.2.1, hne.2.2, Int.toNat_natCast, Fin.ofNat_eq_cast,
            Fin.cast_val_eq_self] at h
          split at h
          · exact .inr (.inr (.inl ⟨m, rfl, hs, (Option.some.inj h).symm⟩))
          · cases h
      | enb e =>
        cases hsrc : b.getNextHop (b.getMacNodeId pkt.srcAddr) with
        | none => simp [hid, hhop, hsrc, EpcNode.ownerType] at h
        | some srcMaster =>
          -- the fast path also asks for the next hop of the sender
          by_cases hfast : fast = true ∧ srcMaster = m
          · refine .inr (.inr (.inr (.inl ⟨e, m, rfl, hfast.1, hs, ?_⟩)))
            simpa [hid, hhop, hsrc, EpcNode.ownerType, hfast,
              GtpUserSimplified.handleFromTrafficFlowFilter] using h.symm
          · refine .inr (.inr (.inr (.inr ⟨e, rfl, ?_⟩)))
            simpa [hid, hhop, hsrc, EpcNode.ownerType, hfast,
              GtpUserSimplified.handleFromTrafficFlowFilter] using h.symm

/-! ### Runs -/

variable {fastForwarding : EpcNode → Bool} {b₀ : EpcView} {s s' : Epc} {e : EpcEvent}
  {es : List EpcEvent} {os o' : List EpcOut}

theorem entered_append (es es' : List EpcEvent) :
    entered (es ++ es') = entered es ++ entered es' := List.filterMap_append

theorem left_append (os os' : List EpcOut) : left (os ++ os') = left os ++ left os' :=
  List.filterMap_append

@[simp] theorem binder_put : (s.put o).1.binder = s.binder := by
  cases o <;> rfl

/-- The datagram of an output is in flight again, or it has left. -/
theorem coe_put (hpkt : ∀ node peer pkt', o = .socketOut node peer pkt' ∨
      o = .pppGate node pkt' ∨ o = .deleted node pkt' → pkt' = pkt) :
    ((s.put o).1.inFlight.map Tunnelled.pkt : Multiset Packet) + left (s.put o).2 =
      pkt ::ₘ (s.inFlight.map Tunnelled.pkt : Multiset Packet) := by
  cases o with
  | pppGate node pkt' =>
    obtain rfl := hpkt node node pkt' (.inr (.inl rfl))
    simp [put, left, add_comm]
  | socketOut node peer pkt' =>
    obtain rfl := hpkt node peer pkt' (.inl rfl)
    simp only [put, left, List.map_append, List.map_cons, List.map_nil, List.filterMap_cons,
      List.filterMap_nil, Multiset.coe_nil, add_zero, ← Multiset.coe_add, Multiset.coe_singleton]
    rw [add_comm, Multiset.singleton_add]
  | deleted node pkt' =>
    obtain rfl := hpkt node node pkt' (.inr (.inr rfl))
    simp [put, left, add_comm]

/-- What one step can do: a datagram comes in, a datagram comes out of a tunnel, or the binder
changes. -/
theorem step_cases (h : (machine fastForwarding).step s e = some (s', o')) :
    (∃ node pkt o, e = .fromIp node pkt ∧
      TrafficFlowFilterSimplified.handleMessage s.binder (fastForwarding node) node pkt = some o ∧
      s' = (s.put o).1 ∧ o' = (s.put o).2) ∨
    (∃ i m o, e = .fromUdp i ∧ s.inFlight[i]? = some m ∧
      GtpUserSimplified.handleFromUdp s.binder m.peer m.pkt = some o ∧
      s' = ({ s with inFlight := s.inFlight.eraseIdx i }.put o).1 ∧
      o' = ({ s with inFlight := s.inFlight.eraseIdx i }.put o).2) ∨
    ∃ b, e = .change b ∧ s' = { s with binder := b } ∧ o' = [] := by
  cases e with
  | fromIp node pkt =>
    obtain ⟨o, ho, hput⟩ := Option.map_eq_some_iff.1 h
    exact .inl ⟨node, pkt, o, rfl, ho, by rw [hput], by rw [hput]⟩
  | fromUdp i =>
    simp only [machine] at h
    cases hi : s.inFlight[i]? with
    | none => simp [hi] at h
    | some m =>
      rw [hi] at h
      obtain ⟨o, ho, hput⟩ := Option.map_eq_some_iff.1 h
      exact .inr (.inl ⟨i, m, o, rfl, hi, ho, by rw [hput], by rw [hput]⟩)
  | change b =>
    obtain ⟨rfl, rfl⟩ := Prod.mk.inj (Option.some.inj h)
    exact .inr (.inr ⟨b, rfl, rfl, rfl⟩)

/-- Every output is about the datagram that is handled. -/
theorem pkt_of_handleMessage
    (h : TrafficFlowFilterSimplified.handleMessage b fast node pkt = some o) (n p : EpcNode)
    (pkt' : Packet) (ho : o = .socketOut n p pkt' ∨ o = .pppGate n pkt' ∨ o = .deleted n pkt') :
    pkt' = pkt := by
  rcases handleMessage_cases h with ⟨-, -, rfl⟩ | ⟨-, -, rfl⟩ | ⟨m, -, -, rfl⟩ |
    ⟨e, m, -, -, -, rfl⟩ | ⟨e, -, rfl⟩ <;> simp_all

theorem pkt_of_handleFromUdp (h : GtpUserSimplified.handleFromUdp b node pkt = some o)
    (n p : EpcNode) (pkt' : Packet)
    (ho : o = .socketOut n p pkt' ∨ o = .pppGate n pkt' ∨ o = .deleted n pkt') : pkt' = pkt := by
  rcases handleFromUdp_cases h with ⟨-, -, rfl⟩ | ⟨m, -, -, rfl⟩ | ⟨e, -, -, rfl⟩ |
    ⟨e, -, -, rfl⟩ <;> simp_all

/-- One step neither loses nor doubles a datagram. -/
theorem accounted_step (h : (machine fastForwarding).step s e = some (s', o')) :
    (s.inFlight.map Tunnelled.pkt : Multiset Packet) + entered [e] =
      (s'.inFlight.map Tunnelled.pkt : Multiset Packet) + left o' := by
  rcases step_cases h with ⟨node, pkt, o, rfl, ho, rfl, rfl⟩ |
    ⟨i, m, o, rfl, hi, ho, rfl, rfl⟩ | ⟨b, rfl, rfl, rfl⟩
  · rw [coe_put (pkt_of_handleMessage ho), ← Multiset.singleton_add, add_comm]
    simp [entered]
  · have hcoe := congrArg (Multiset.map Tunnelled.pkt) (coe_of_getElem? hi)
    rw [coe_put (pkt_of_handleFromUdp ho)]
    simpa [entered] using hcoe
  · simp [entered, left]

theorem accounted (h : (machine fastForwarding).exec s es = some (s', os)) :
    (s.inFlight.map Tunnelled.pkt : Multiset Packet) + entered es =
      (s'.inFlight.map Tunnelled.pkt : Multiset Packet) + left os := by
  refine Machine.exec_induction (J := fun es s' os =>
    (s.inFlight.map Tunnelled.pkt : Multiset Packet) + entered es =
      (s'.inFlight.map Tunnelled.pkt : Multiset Packet) + left os) ?_ ?_ h
  · simp [entered, left]
  · intro es s₁ os e s' o _ ih hst
    rw [entered_append, left_append, ← Multiset.coe_add, ← Multiset.coe_add, ← add_assoc, ih,
      add_right_comm, accounted_step hst, add_right_comm, add_assoc]

/-- **No datagram is lost or doubled in the core network**: whatever happens to the binder, the
datagrams that have come in are those on their way and those that have left. -/
theorem datagrams_accounted
    (h : (machine fastForwarding).exec { binder := b₀ } es = some (s, os)) :
    (entered es : Multiset Packet) =
      (s.inFlight.map Tunnelled.pkt : Multiset Packet) + left os := by
  simpa using accounted h

/-- A UE with the address 7 at one of the eNBs 1 and 2. -/
def moving (master : MacNodeId) : EpcView where
  getMacNodeId a := if a = 7 then 1025 else 0
  getNextHop u := if u = 1025 then some master else none
  hasName m := m = 1 ∨ m = 2

/-- A datagram for this UE. -/
def forMoving : Packet := ⟨0, 9, 7, .udp 1 2⟩

/-- The datagram is on its way to the eNB 1 when the UE moves to the eNB 2. -/
def movingRun : List EpcEvent :=
  [.fromIp .pgw forMoving, .change (moving 2), .fromUdp 0, .fromUdp 0, .fromUdp 0]

/-- It is sent back to the gateway, and from there to the eNB 2. -/
def movingOuts : List EpcOut :=
  [.socketOut .pgw (.enb 1) forMoving, .socketOut (.enb 1) .pgw forMoving,
    .socketOut .pgw (.enb 2) forMoving, .pppGate (.enb 2) forMoving]

theorem exec_moving : (machine fun _ => false).exec { binder := moving 1 } movingRun =
    some ({ binder := moving 2 }, movingOuts) := rfl

theorem datagrams_accounted_moving :
    (entered movingRun : Multiset Packet) =
      (([] : List Tunnelled).map Tunnelled.pkt : Multiset Packet) + left movingOuts :=
  datagrams_accounted exec_moving

/-! ### How far a datagram goes -/

/-- The copies of a datagram that have come in. -/
def entries (pkt : Packet) (es : List EpcEvent) : ℕ := (entered es).count pkt

/-- The tunnels that the copies of a datagram still have to pass. -/
def toGo (pkt : Packet) (s : Epc) : ℕ :=
  (s.inFlight.map fun m => if m.pkt = pkt then remaining s.binder.toBinderView m else 0).sum

theorem hops_append (os os' : List EpcOut) : hops pkt (os ++ os') = hops pkt os + hops pkt os' :=
  List.countP_append

theorem entries_append (es es' : List EpcEvent) :
    entries pkt (es ++ es') = entries pkt es + entries pkt es' := by
  rw [entries, entered_append, List.count_append, entries, entries]

/-- The tunnels that an output adds to the way of a datagram. -/
def way (b : BinderView) (pkt : Packet) : EpcOut → ℕ
  | .socketOut _ peer pkt' => if pkt' = pkt then 1 + remaining b ⟨peer, pkt'⟩ else 0
  | _ => 0

theorem hops_put (pkt : Packet) (s : Epc) (o : EpcOut) :
    hops pkt (s.put o).2 + toGo pkt (s.put o).1 = toGo pkt s + way s.binder.toBinderView pkt o := by
  cases o with
  | pppGate node pkt' => simp [put, hops, toGo, way]
  | deleted node pkt' => simp [put, hops, toGo, way]
  | socketOut node peer pkt' =>
    by_cases hp : pkt' = pkt
    · simp only [put, hops, toGo, way, hp, List.countP_singleton, decide_true, if_true,
        List.map_append, List.map_cons, List.map_nil, List.sum_append, List.sum_singleton]
      omega
    · simp [put, hops, toGo, way, hp]

/-- A datagram that comes in is at most two tunnels away from where it leaves. -/
theorem way_handleMessage (pkt : Packet) {p : Packet}
    (h : TrafficFlowFilterSimplified.handleMessage b fast node p = some o) :
    way b.toBinderView pkt o ≤ 2 * if p = pkt then 1 else 0 := by
  rcases handleMessage_cases h with ⟨-, -, rfl⟩ | ⟨-, -, rfl⟩ | ⟨m, -, hs, rfl⟩ |
    ⟨e, m, -, -, -, rfl⟩ | ⟨e, -, rfl⟩
  · exact Nat.zero_le _
  · exact Nat.zero_le _
  · simp only [way, remaining, hs, if_true]
    split <;> omega
  · exact Nat.zero_le _
  · simp only [way, remaining]
    split <;> omega

/-- A tunnel that a node sends a datagram through was part of the way before. -/
theorem way_handleFromUdp (pkt : Packet) {p : Packet}
    (h : GtpUserSimplified.handleFromUdp b node p = some o) :
    way b.toBinderView pkt o ≤ if p = pkt then remaining b.toBinderView ⟨node, p⟩ else 0 := by
  rcases handleFromUdp_cases h with ⟨-, -, rfl⟩ | ⟨m, rfl, hs, rfl⟩ | ⟨e, -, -, rfl⟩ |
    ⟨e, rfl, hs, rfl⟩
  · exact Nat.zero_le _
  · simp only [way, remaining, hs, if_true]
    exact le_rfl
  · exact Nat.zero_le _
  · simp only [way, remaining, hs, if_false]
    exact le_rfl

/-- A step passes as many tunnels as it takes off the way, unless the datagram comes in or the
binder changes. -/
theorem hops_step (pkt : Packet) (h : (machine fastForwarding).step s e = some (s', o')) :
    hops pkt o' + toGo pkt s' ≤ toGo pkt s + 2 * entries pkt [e] +
      2 * changes [e] * (s.inFlight.map Tunnelled.pkt).count pkt := by
  rcases step_cases h with ⟨node, p, o, rfl, ho, rfl, rfl⟩ |
    ⟨i, m, o, rfl, hi, ho, rfl, rfl⟩ | ⟨b, rfl, rfl, rfl⟩
  · have hway := way_handleMessage pkt ho
    have hentries : entries pkt [.fromIp node p] = if p = pkt then 1 else 0 := by
      simp [entries, entered, List.count_singleton]
    rw [hops_put, hentries]
    omega
  · have hway : way s.binder.toBinderView pkt o ≤
        if m.pkt = pkt then remaining s.binder.toBinderView m else 0 := way_handleFromUdp pkt ho
    have hsum := sum_map_of_getElem?
      (fun m => if m.pkt = pkt then remaining s.binder.toBinderView m else 0) hi
    rw [hops_put]
    simp only [toGo] at hsum ⊢
    omega
  · -- the way of every copy is now at most two tunnels longer
    have hchange : ∀ l : List Tunnelled,
        (l.map fun m => if m.pkt = pkt then remaining b.toBinderView m else 0).sum ≤
          2 * (l.map Tunnelled.pkt).count pkt := by
      intro l
      induction l with
      | nil => simp
      | cons m l ih =>
        have hle := remaining_le b.toBinderView m
        by_cases hp : m.pkt = pkt
        · simp only [List.map_cons, List.sum_cons, hp, if_true, List.count_cons_self]
          omega
        · simp only [List.map_cons, List.sum_cons, hp, if_false, List.count_cons_of_ne hp]
          omega
    have hle := hchange s.inFlight
    have hone : changes [.change b] = 1 := rfl
    simp only [hops, toGo, hone, List.countP_nil, mul_one, Nat.zero_add]
    omega

/-- **A datagram is not sent around for ever**: it passes at most two tunnels, and at most two more
for each time the binder changes, whatever the binder says in between. -/
theorem hops_bounded (pkt : Packet)
    (h : (machine fastForwarding).exec { binder := b₀ } es = some (s, os)) :
    hops pkt os ≤ 2 * entries pkt es * (1 + changes es) := by
  have hinv : hops pkt os + toGo pkt s ≤ 2 * entries pkt es * (1 + changes es) := by
    refine Machine.exec_induction (J := fun es s os =>
      hops pkt os + toGo pkt s ≤ 2 * entries pkt es * (1 + changes es)) ?_ ?_ h
    · simp [hops, toGo, entries, entered]
    · intro es s os e s' o hex ih hst
      have hstep := hops_step pkt hst
      -- the copies on their way have all come in
      have hcopies : (s.inFlight.map Tunnelled.pkt).count pkt ≤ entries pkt es := by
        have hacc := congrArg (Multiset.count pkt) (accounted hex)
        simp only [List.map_nil, Multiset.coe_nil, zero_add, Multiset.count_add,
          Multiset.coe_count] at hacc
        rw [entries, hacc]
        exact Nat.le_add_right _ _
      have hmul := Nat.mul_le_mul_left (2 * changes [e]) hcopies
      rw [hops_append, entries_append, changes, List.countP_append]
      have hexpand : 2 * (entries pkt es + entries pkt [e]) * (1 + (changes es + changes [e])) =
          2 * entries pkt es * (1 + changes es) + 2 * changes [e] * entries pkt es +
            2 * entries pkt [e] + 2 * entries pkt [e] * (changes es + changes [e]) := by
        ring
      change _ ≤ 2 * (entries pkt es + entries pkt [e]) * (1 + (changes es + changes [e]))
      omega
  omega

theorem hops_bounded_moving :
    hops forMoving movingOuts ≤ 2 * entries forMoving movingRun * (1 + changes movingRun) :=
  hops_bounded forMoving exec_moving

/-! ### A UE that stays in its cell -/

/-- The UE with the address `a` is served by `m`, and what is on its way to it is on its way to
the gateway or to `m`. -/
structure Heading (a : Ipv4Address) (m : MacNodeId) (s : Epc) : Prop where
  serves : Serves s.binder.toBinderView a m
  peer : ∀ t ∈ s.inFlight, t.pkt.destAddr = a → t.peer = .pgw ∨ t.peer = .enb m

/-- What an output may do with a datagram for the UE. -/
def Fair (a : Ipv4Address) (m : MacNodeId) (fastForwarding : EpcNode → Bool) :
    EpcOut → Prop
  | .pppGate node pkt => pkt.destAddr = a →
    node = .enb m ∨ ∃ e, node = .enb e ∧ fastForwarding (.enb e) = true
  | .socketOut _ peer pkt => pkt.destAddr = a → peer = .pgw ∨ peer = .enb m
  | .deleted _ pkt => pkt.destAddr ≠ a

variable {a : Ipv4Address}

theorem fair_handleMessage (hm : m ≠ 0) (hs : Serves b.toBinderView a m)
    (h : TrafficFlowFilterSimplified.handleMessage b (fastForwarding node) node pkt = some o) :
    Fair a m fastForwarding o := by
  rcases handleMessage_cases h with ⟨-, hid, rfl⟩ | ⟨rfl, hs', rfl⟩ | ⟨m', -, hs', rfl⟩ |
    ⟨e, m', rfl, hfast, -, rfl⟩ | ⟨e, -, rfl⟩
  · rintro rfl
    exact hs.1 hid
  · rintro rfl
    exact absurd (hs.unique hs') hm
  · rintro rfl
    exact .inr (by rw [hs.unique hs'])
  · exact fun _ => .inr ⟨e, rfl, hfast⟩
  · exact fun _ => .inl rfl

theorem fair_handleFromUdp (hs : Serves b.toBinderView a m)
    (h : GtpUserSimplified.handleFromUdp b node pkt = some o) :
    Fair a m fastForwarding o := by
  rcases handleFromUdp_cases h with ⟨-, hid, rfl⟩ | ⟨m', -, hs', rfl⟩ | ⟨e, -, hs', rfl⟩ |
    ⟨e, -, -, rfl⟩
  · rintro rfl
    exact absurd hid hs.1
  · rintro rfl
    exact .inr (by rw [hs.unique hs'])
  · rintro rfl
    exact .inl (by rw [hs.unique hs'])
  · exact fun _ => .inl rfl

theorem heading_put (hs : Heading a m s) (ho : Fair a m fastForwarding o) :
    Heading a m (s.put o).1 ∧ ∀ o' ∈ (s.put o).2, Fair a m fastForwarding o' := by
  cases o with
  | pppGate node pkt => exact ⟨hs, by simpa [put] using ho⟩
  | deleted node pkt => exact ⟨hs, by simpa [put] using ho⟩
  | socketOut node peer pkt =>
    refine ⟨⟨hs.serves, fun t ht => ?_⟩, by simpa [put] using ho⟩
    rcases List.mem_append.1 ht with ht | ht
    · exact hs.peer t ht
    · obtain rfl := List.mem_singleton.1 ht
      exact ho

/-- The tunnels to go do not depend on how the others move. -/
theorem toGo_change (hs : Heading a m s) (hb : Serves b.toBinderView a m)
    (hpkt : pkt.destAddr = a) : toGo pkt { s with binder := b } = toGo pkt s := by
  unfold toGo
  congr 1
  refine List.map_congr_left fun t ht => ?_
  split
  · rename_i htp
    have hta : t.pkt.destAddr = a := by rw [htp, hpkt]
    rcases hs.peer t ht hta with hp | hp
    · simp [remaining, hp]
    · simp [remaining, hp, hta, hb, hs.serves]
  · rfl

/-- One step while the UE stays in its cell. -/
theorem heading_step (hm : m ≠ 0) (hs : Heading a m s)
    (he : ∀ b, e = .change b → Serves b.toBinderView a m)
    (h : (machine fastForwarding).step s e = some (s', o')) :
    Heading a m s' ∧ (∀ o ∈ o', Fair a m fastForwarding o) ∧
      ∀ pkt, pkt.destAddr = a → hops pkt o' + toGo pkt s' ≤ toGo pkt s + 2 * entries pkt [e] := by
  have hhops := fun pkt => hops_step pkt h
  rcases step_cases h with ⟨node, p, o, rfl, ho, rfl, rfl⟩ |
    ⟨i, t, o, rfl, hi, ho, rfl, rfl⟩ | ⟨b, rfl, rfl, rfl⟩
  · obtain ⟨hs', hfair⟩ := heading_put hs (fair_handleMessage hm hs.serves ho)
    exact ⟨hs', hfair, fun pkt _ => by simpa [changes] using hhops pkt⟩
  · have hrest : Heading a m { s with inFlight := s.inFlight.eraseIdx i } :=
      ⟨hs.serves, fun t ht => hs.peer t (List.mem_of_mem_eraseIdx ht)⟩
    have hfair : Fair a m fastForwarding o := fair_handleFromUdp hs.serves ho
    obtain ⟨hs', hfair⟩ := heading_put hrest hfair
    exact ⟨hs', hfair, fun pkt _ => by simpa [changes] using hhops pkt⟩
  · refine ⟨⟨he b rfl, hs.peer⟩, by simp, fun pkt hpkt => ?_⟩
    rw [toGo_change hs (he b rfl) hpkt]
    simp [hops]

/-- **The datagrams for a UE come out at the eNB that serves it**, while the UE stays in its cell
and whatever the others do, after at most two tunnels, and none of them is deleted; only the fast
path of an eNB may hand one out elsewhere. -/
theorem delivered_where_served (hm : m ≠ 0) (h₀ : Serves b₀.toBinderView a m)
    (hes : ∀ b, .change b ∈ es → Serves b.toBinderView a m)
    (h : (machine fastForwarding).exec { binder := b₀ } es = some (s, os)) :
    (∀ node pkt, .pppGate node pkt ∈ os → pkt.destAddr = a →
      node = .enb m ∨ ∃ e, node = .enb e ∧ fastForwarding (.enb e) = true) ∧
    (∀ node pkt, .deleted node pkt ∈ os → pkt.destAddr ≠ a) ∧
    ∀ pkt, pkt.destAddr = a → hops pkt os ≤ 2 * entries pkt es := by
  have hinv : (∀ b, .change b ∈ es → Serves b.toBinderView a m) →
      Heading a m s ∧ (∀ o ∈ os, Fair a m fastForwarding o) ∧
        ∀ pkt, pkt.destAddr = a → hops pkt os + toGo pkt s ≤ 2 * entries pkt es := by
    refine Machine.exec_induction (J := fun es s os =>
      (∀ b, .change b ∈ es → Serves b.toBinderView a m) →
        Heading a m s ∧ (∀ o ∈ os, Fair a m fastForwarding o) ∧
          ∀ pkt, pkt.destAddr = a → hops pkt os + toGo pkt s ≤ 2 * entries pkt es) ?_ ?_ h
    · intro _
      exact ⟨⟨h₀, by simp⟩, by simp, by simp [hops, toGo, entries, entered]⟩
    · intro es s os e s' o _ ih hst hes
      obtain ⟨hs, hos, hhops⟩ := ih fun b hb => hes b (List.mem_append_left _ hb)
      obtain ⟨hs', ho, hstep⟩ := heading_step hm hs (fun b hb => hes b (by simp [hb])) hst
      refine ⟨hs', ?_, ?_⟩
      · simp only [List.mem_append]
        rintro o' (ho' | ho')
        · exact hos o' ho'
        · exact ho o' ho'
      · intro pkt hpkt
        have hle := hhops pkt hpkt
        have hle' := hstep pkt hpkt
        rw [hops_append, entries_append]
        omega
  obtain ⟨-, hfair, hhops⟩ := hinv hes
  refine ⟨fun node pkt => hfair (.pppGate node pkt), fun node pkt => hfair (.deleted node pkt), ?_⟩
  intro pkt hpkt
  have hle := hhops pkt hpkt
  omega

/-- What happens to a datagram for a UE that stays at the eNB 1. -/
def stayingOuts : List EpcOut := [.socketOut .pgw (.enb 1) forMoving, .pppGate (.enb 1) forMoving]

theorem exec_staying : (machine fun _ => false).exec { binder := moving 1 }
    [.fromIp .pgw forMoving, .fromUdp 0] = some ({ binder := moving 1 }, stayingOuts) := rfl

theorem delivered_where_served_staying :
    (∀ node pkt, .pppGate node pkt ∈ stayingOuts → pkt.destAddr = 7 →
      node = .enb 1 ∨ ∃ e, node = .enb e ∧ false = true) ∧
    (∀ node pkt, .deleted node pkt ∈ stayingOuts → pkt.destAddr ≠ 7) ∧
    ∀ pkt, pkt.destAddr = 7 →
      hops pkt stayingOuts ≤ 2 * entries pkt [.fromIp .pgw forMoving, .fromUdp 0] :=
  delivered_where_served (m := 1) (a := 7) (by decide) (by decide) (by simp) exec_staying

/-! ### The core network runs empty -/

/-- Every node that has an address has a master, which is there. -/
def Complete (b : EpcView) : Prop :=
  ∀ a, b.getMacNodeId a ≠ 0 →
    ∃ m, b.getNextHop (b.getMacNodeId a) = some m ∧ b.hasName m = true

/-- The event is the arrival of a message. -/
def Arrival (e : EpcEvent) : Prop := ∃ i, e = .fromUdp i

/-- The tunnels to go, the present ones included. -/
def load (s : Epc) : ℕ := (s.inFlight.map fun t => remaining s.binder.toBinderView t + 1).sum

/-- With a complete binder no node throws. -/
theorem handleFromUdp_isSome (hb : Complete b) (node : EpcNode) (pkt : Packet) :
    ∃ o, GtpUserSimplified.handleFromUdp b node pkt = some o := by
  unfold GtpUserSimplified.handleFromUdp
  by_cases hid : b.getMacNodeId pkt.destAddr = 0
  · cases node <;> simp [hid]
  · obtain ⟨m, hhop, hname⟩ := hb pkt.destAddr hid
    cases node with
    | pgw => simp [hid, hhop, hname]
    | enb e =>
      by_cases hme : m = e
      · simp [hid, hhop, hme]
      · simp [hid, hhop, hme]

/-- An arrival takes off a tunnel. -/
theorem load_lt_of_arrival (he : Arrival e)
    (h : (machine fastForwarding).step s e = some (s', o')) :
    s'.binder = s.binder ∧ load s' < load s := by
  obtain ⟨i, rfl⟩ := he
  rcases step_cases h with ⟨_, _, _, heq, -⟩ | ⟨j, t, o, -, hi, ho, rfl, rfl⟩ | ⟨_, heq, -⟩
  · cases heq
  · have hsum := sum_map_of_getElem? (fun t => remaining s.binder.toBinderView t + 1) hi
    have hway := way_handleFromUdp t.pkt ho
    refine ⟨binder_put, ?_⟩
    have hput : load ({ s with inFlight := s.inFlight.eraseIdx j }.put o).1 ≤
        load { s with inFlight := s.inFlight.eraseIdx j } +
          way s.binder.toBinderView t.pkt o := by
      cases o with
      | pppGate node pkt => exact Nat.le_add_right _ _
      | deleted node pkt => exact Nat.le_add_right _ _
      | socketOut node peer pkt =>
        obtain rfl := pkt_of_handleFromUdp ho node peer pkt (.inl rfl)
        simp only [load, put, way, List.map_append, List.map_cons, List.map_nil, List.sum_append,
          List.sum_singleton, if_true]
        omega
    simp only [if_true] at hway
    have hpeer : remaining s.binder.toBinderView ⟨t.peer, t.pkt⟩ =
        remaining s.binder.toBinderView t := rfl
    simp only [load] at hput hsum ⊢
    omega
  · cases heq

theorem load_le (s : Epc) : load s ≤ 3 * s.inFlight.length := by
  unfold load
  have h := List.sum_le_card_nsmul (s.inFlight.map fun t => remaining s.binder.toBinderView t + 1) 3
  simp only [List.mem_map, List.length_map, smul_eq_mul] at h
  rw [Nat.mul_comm]
  refine h ?_
  rintro _ ⟨t, -, rfl⟩
  have hle := remaining_le s.binder.toBinderView t
  omega

/-- **The core network runs empty.**  From any state with a complete binder, the messages can
arrive in any order: there are at most three arrivals for each message, an arrival is possible as
long as there is a message, and in the end every datagram has left. -/
theorem core_drains (hb : Complete s.binder) :
    (∀ es s' os, (∀ e ∈ es, Arrival e) → (machine fastForwarding).exec s es = some (s', os) →
      es.length ≤ 3 * s.inFlight.length ∧
      ∀ i, i < s'.inFlight.length →
        ∃ r, (machine fastForwarding).step s' (.fromUdp i) = some r) ∧
    ∃ es s' os, (∀ e ∈ es, Arrival e) ∧ (machine fastForwarding).exec s es = some (s', os) ∧
      s'.inFlight = [] ∧
      (left os : Multiset Packet) = (s.inFlight.map Tunnelled.pkt : Multiset Packet) := by
  -- every arrival takes away from the load, and the binder stays
  have hstep : ∀ s₁ e s₂ o, s₁.binder = s.binder → Arrival e →
      (machine fastForwarding).step s₁ e = some (s₂, o) →
        s₂.binder = s.binder ∧ load s₂ < load s₁ := by
    intro s₁ e s₂ o hs₁ he hst
    obtain ⟨hs₂, hlt⟩ := load_lt_of_arrival he hst
    exact ⟨hs₂.trans hs₁, hlt⟩
  -- with a complete binder the first message in flight can always arrive
  have hprogress : ∀ s₁ : Epc, s₁.binder = s.binder → ∀ i, i < s₁.inFlight.length →
      ∃ r, (machine fastForwarding).step s₁ (.fromUdp i) = some r := by
    intro s₁ hs₁ i hi
    obtain ⟨o, ho⟩ := handleFromUdp_isSome (b := s₁.binder) (hs₁ ▸ hb)
      s₁.inFlight[i].peer s₁.inFlight[i].pkt
    refine ⟨{ s₁ with inFlight := s₁.inFlight.eraseIdx i }.put o, ?_⟩
    simp only [machine, List.getElem?_eq_getElem hi, ho, Option.map_some]
  constructor
  · -- the load is at most three for each message
    intro es s' os hes hex
    obtain ⟨hs', hle⟩ := Machine.length_add_le load hstep rfl hes hex
    have hload := load_le s
    exact ⟨by omega, hprogress s' hs'⟩
  · obtain ⟨es, s', os, hes, hex, -, hdone⟩ :=
      Machine.exists_exec_done (D := fun s' => s'.inFlight = []) load hstep
        (fun s₁ hs₁ hne => by
          obtain ⟨⟨s₂, o⟩, hst⟩ := hprogress s₁ hs₁ 0 (List.length_pos_of_ne_nil hne)
          exact ⟨.fromUdp 0, ⟨0, rfl⟩, s₂, o, hst⟩)
        rfl
    refine ⟨es, s', os, hes, hex, hdone, ?_⟩
    have hentered : entered es = [] := by
      rw [entered, List.filterMap_eq_nil_iff]
      intro e he
      obtain ⟨i, rfl⟩ := hes e he
      rfl
    have hacc := accounted hex
    simpa [hentered, hdone] using hacc.symm

theorem core_drains_moving :
    (∀ es s' os, (∀ e ∈ es, Arrival e) →
      (machine fun _ => false).exec ⟨moving 1, [⟨.enb 2, forMoving⟩]⟩ es = some (s', os) →
      es.length ≤ 3 * 1 ∧ ∀ i, i < s'.inFlight.length →
        ∃ r, (machine fun _ => false).step s' (.fromUdp i) = some r) ∧
    ∃ es s' os, (∀ e ∈ es, Arrival e) ∧
      (machine fun _ => false).exec ⟨moving 1, [⟨.enb 2, forMoving⟩]⟩ es = some (s', os) ∧
      s'.inFlight = [] ∧ (left os : Multiset Packet) = ([forMoving] : List Packet) :=
  core_drains (s := ⟨moving 1, [⟨.enb 2, forMoving⟩]⟩) (by
    intro a ha
    have ha7 : a = 7 := by
      by_contra hne
      exact ha (by simp [moving, hne])
    subst ha7
    exact ⟨1, rfl, rfl⟩)

end Epc

end V2nLte
