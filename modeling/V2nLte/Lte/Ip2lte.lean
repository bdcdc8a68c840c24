import V2nLte.Lte.Common
import V2nLte.Machine.Basic
import V2nLte.Machine.Collections
import Mathlib.Algebra.Order.BigOperators.Group.Finset

/-!
# The IP layer of an eNB

`IP2lte` is the module of an eNB between IP and the LTE stack.  During a handover it keeps
packets back:

* at the source, packets for a UE in `hoForwarding` are tunnelled over X2 to the target;
* at the target, packets for a UE in `hoHolding` are kept in `hoFromIp`, and the tunnelled ones
  in `hoFromX2`, until the handover is complete.

Addresses are resolved by the binder, which changes during a run; the functions take the part of
it that they look up as an argument (`BinderView`).  A function is `none` where the source throws.

The maps of the source are functions here, with `none` or the empty queue for a missing key.
The loops that empty a map of queues go through the keys in increasing order (`allQueued`).
-/

namespace V2nLte

/-! ### Packets -/

/-- An IPv4 address. -/
abbrev Ipv4Address := UInt32

/-- The transport header of a packet. -/
inductive TransportHeader where
  /-- TCP, with the length of its header in bytes. -/
  | tcp (srcPort destPort : UInt16) (headerLength : ℕ)
  /-- UDP. -/
  | udp (srcPort destPort : UInt16)
  /-- Any other protocol. -/
  | other
  deriving DecidableEq

/-- An IP packet; `uid` tells packets with the same headers apart. -/
structure Packet where
  /-- The identity of the packet. -/
  uid : ℕ
  /-- Where it comes from. -/
  srcAddr : Ipv4Address
  /-- Where it is going. -/
  destAddr : Ipv4Address
  /-- Its transport header. -/
  transport : TransportHeader
  deriving DecidableEq

/-- The tag that `toStackEnb` puts on a packet for the LTE stack. -/
structure FlowControlInfo where
  /-- Source address. -/
  srcAddr : Ipv4Address
  /-- Destination address. -/
  dstAddr : Ipv4Address
  /-- Source port, `0` if the protocol has none. -/
  srcPort : UInt16
  /-- Destination port, `0` if the protocol has none. -/
  dstPort : UInt16
  /-- The number of the packet in its flow. -/
  sequenceNumber : UInt32
  /-- The size of the transport header in bytes. -/
  headerSize : ℕ
  /-- The node the packet is sent to. -/
  destId : MacNodeId
  deriving DecidableEq

/-- What the functions of an eNB look up in the binder. -/
structure BinderView where
  /-- `getMacNodeId`, `0` for an unknown address. -/
  getMacNodeId : Ipv4Address → MacNodeId
  /-- `getNextHop`; `none` if it throws. -/
  getNextHop : MacNodeId → Option MacNodeId

/-! ### State and outputs -/

/-- The messages between handover managers. -/
inductive X2Msg where
  /-- A handover command: start it at the target, or report to the source that it is complete. -/
  | command (ueId : MacNodeId) (startHo : Bool)
  /-- A tunnelled packet. -/
  | data (pkt : Packet)
  deriving DecidableEq

/-- What an eNB's IP2lte module puts out. -/
inductive EnbOut where
  /-- A packet for the LTE stack. -/
  | toStack (pkt : Packet) (info : FlowControlInfo)
  /-- A message to another eNB. -/
  | x2 (dest : MacNodeId) (msg : X2Msg)
  deriving DecidableEq

/-- The IP2lte module of an eNB. -/
structure IP2lte where
  /-- There is a handover manager in the network card. -/
  hoManager : Bool := true
  /-- Sequence numbers of the flows. -/
  seqNums : Ipv4Address × Ipv4Address → UInt32 := fun _ => 0
  /-- The target of a UE that is leaving. -/
  hoForwarding : MacNodeId → Option MacNodeId := fun _ => none
  /-- The UE is arriving. -/
  hoHolding : MacNodeId → Bool := fun _ => false
  /-- Tunnelled packets for arriving UEs. -/
  hoFromX2 : MacNodeId → List Packet := fun _ => []
  /-- Packets from IP for arriving UEs. -/
  hoFromIp : MacNodeId → List Packet := fun _ => []

/-- All packets of a map of queues, by increasing key. -/
def allQueued (queues : MacNodeId → List Packet) : List Packet :=
  (List.finRange 65536).flatMap queues

theorem allQueued_nil : allQueued (fun _ => []) = [] := by
  rw [allQueued, List.flatMap_eq_nil_iff]
  intro u _
  rfl

theorem coe_allQueued (queues : MacNodeId → List Packet) :
    (allQueued queues : Multiset Packet) = ∑ v, (queues v : Multiset Packet) :=
  coe_flatMap_finRange queues

theorem allQueued_eq {queues : MacNodeId → List Packet} {u : MacNodeId}
    (h : ∀ v ≠ u, queues v = []) : allQueued queues = queues u :=
  flatMap_eq_of_others_nil (List.nodup_finRange _) (List.mem_finRange u) h

/-- All packets are those of `u` exactly if the other queues are empty. -/
theorem length_allQueued_eq (queues : MacNodeId → List Packet) (u : MacNodeId) :
    (allQueued queues).length = (queues u).length ↔ ∀ v ≠ u, queues v = [] := by
  have hlen : (allQueued queues).length =
      (queues u).length + ∑ v ∈ Finset.univ.erase u, (queues v).length := by
    rw [Finset.add_sum_erase _ (fun v => (queues v).length) (Finset.mem_univ u)]
    simpa using congrArg Multiset.card (coe_allQueued queues)
  rw [hlen, Nat.add_eq_left, Finset.sum_eq_zero_iff]
  simp

namespace IP2lte

variable (b : BinderView) (s : IP2lte)

/-! ### Packets to the stack -/

/-- The ports and the header size that go into the tag. -/
def portsAndSize : TransportHeader → UInt16 × UInt16 × ℕ
  | .tcp srcPort destPort headerLength => (srcPort, destPort, headerLength)
  | .udp srcPort destPort => (srcPort, destPort, 8)
  | .other => (0, 0, 0)

/-- The tag for `pkt` with the next hop `master`. -/
def flowInfo (pkt : Packet) (master : MacNodeId) : FlowControlInfo where
  srcAddr := pkt.srcAddr
  dstAddr := pkt.destAddr
  srcPort := (portsAndSize pkt.transport).1
  dstPort := (portsAndSize pkt.transport).2.1
  sequenceNumber := s.seqNums (pkt.srcAddr, pkt.destAddr)
  headerSize := (portsAndSize pkt.transport).2.2
  destId := master

/-- Send a packet down; it throws if the binder does not know the destination. -/
def toStackEnb (pkt : Packet) : Option (IP2lte × List EnbOut) :=
  match b.getNextHop (b.getMacNodeId pkt.destAddr) with
  | none => none
  | some master =>
    let flow := (pkt.srcAddr, pkt.destAddr)
    some ({ s with seqNums := Function.update s.seqNums flow (s.seqNums flow + 1) },
      [.toStack pkt (s.flowInfo pkt master)])

/-- A loop that sends packets down, one after the other. -/
def toStackLoop : Machine IP2lte Packet EnbOut := ⟨toStackEnb b⟩

/-! ### Handover -/

/-- Send a message through the handover manager, if there is one. -/
def viaHoManager (dest : MacNodeId) (msg : X2Msg) : List EnbOut :=
  if s.hoManager then [.x2 dest msg] else []

/-- The source starts to tunnel the packets of a UE. -/
def triggerHandoverSource (ueId targetEnb : MacNodeId) : IP2lte × List EnbOut :=
  ({ s with hoForwarding := Function.update s.hoForwarding ueId (some targetEnb) },
    s.viaHoManager targetEnb (.command ueId true))

/-- The target starts to hold the packets of a UE. -/
def triggerHandoverTarget (ueId : MacNodeId) : IP2lte :=
  { s with hoHolding := Function.update s.hoHolding ueId true }

/-- A tunnelled packet arrives at the target. -/
def receiveTunneledPacketOnHandover (pkt : Packet) : IP2lte :=
  let destId := b.getMacNodeId pkt.destAddr
  { s with hoFromX2 := Function.update s.hoFromX2 destId (s.hoFromX2 destId ++ [pkt]) }

/-- The source stops tunnelling. -/
def signalHandoverCompleteSource (ueId : MacNodeId) : IP2lte :=
  { s with hoForwarding := Function.update s.hoForwarding ueId none }

/-- The UE has arrived at the target: tell the source, send down what was kept back, first from
X2 and then from IP (the two loops, one after the other), and stop holding. -/
def signalHandoverCompleteTarget (ueId sourceEnb : MacNodeId) : Option (IP2lte × List EnbOut) :=
  if s.hoManager then
    match (toStackLoop b).exec { s with hoFromX2 := fun _ => [], hoFromIp := fun _ => [] }
        (allQueued s.hoFromX2 ++ allQueued s.hoFromIp) with
    | none => none
    | some (s₁, o₁) =>
      some ({ s₁ with hoHolding := Function.update s₁.hoHolding ueId false },
        .x2 sourceEnb (.command ueId false) :: o₁)
  else some (s, [])

/-- Keep back a packet from IP. -/
def hold (destId : MacNodeId) (pkt : Packet) : IP2lte :=
  { s with hoFromIp := Function.update s.hoFromIp destId (s.hoFromIp destId ++ [pkt]) }

/-- A packet arrives from IP. -/
def fromIpEnb (pkt : Packet) : Option (IP2lte × List EnbOut) :=
  let destId := b.getMacNodeId pkt.destAddr
  match s.hoForwarding destId with
  | some targetEnb => some (s, s.viaHoManager targetEnb (.data pkt))
  | none =>
    if s.hoHolding destId then some (s.hold destId pkt, []) else toStackEnb b s pkt

/-- A message from another eNB arrives at the handover manager. -/
def handleX2Message : X2Msg → IP2lte
  | .command ueId true => s.triggerHandoverTarget ueId
  | .command ueId false => s.signalHandoverCompleteSource ueId
  | .data pkt => receiveTunneledPacketOnHandover b s pkt

/-! ### What the loop does -/

variable {b s}

/-- The packets handed to the stack. -/
def stackPackets (os : List EnbOut) : List Packet :=
  os.filterMap fun
    | .toStack pkt _ => some pkt
    | .x2 _ _ => none

@[simp] theorem stackPackets_nil : stackPackets [] = [] := rfl

@[simp] theorem stackPackets_append (os os' : List EnbOut) :
    stackPackets (os ++ os') = stackPackets os ++ stackPackets os' := List.filterMap_append

@[simp] theorem stackPackets_toStack (pkt : Packet) (info : FlowControlInfo) (os : List EnbOut) :
    stackPackets (.toStack pkt info :: os) = pkt :: stackPackets os := rfl

@[simp] theorem stackPackets_x2 (dest : MacNodeId) (msg : X2Msg) (os : List EnbOut) :
    stackPackets (.x2 dest msg :: os) = stackPackets os := rfl

/-- The two states differ in their sequence numbers only. -/
def SameBut (s s' : IP2lte) : Prop := ∃ nums, s' = { s with seqNums := nums }

theorem toStackEnb_spec {pkt : Packet} {s' : IP2lte} {o : List EnbOut}
    (h : toStackEnb b s pkt = some (s', o)) :
    SameBut s s' ∧ ∃ info, o = [.toStack pkt info] := by
  unfold toStackEnb at h
  split at h
  · cases h
  · simp only [Option.some.injEq, Prod.mk.injEq] at h
    obtain ⟨rfl, rfl⟩ := h
    exact ⟨⟨_, rfl⟩, _, rfl⟩

/-- The loop sends down exactly its packets, in order. -/
theorem toStackLoop_spec {pkts : List Packet} {s' : IP2lte} {os : List EnbOut}
    (h : (toStackLoop b).exec s pkts = some (s', os)) :
    SameBut s s' ∧ stackPackets os = pkts ∧ ∀ dest msg, .x2 dest msg ∉ os := by
  refine Machine.exec_induction (J := fun pkts s' os =>
    SameBut s s' ∧ stackPackets os = pkts ∧ ∀ dest msg, .x2 dest msg ∉ os)
    ⟨⟨_, rfl⟩, rfl, by simp⟩ ?_ h
  rintro pkts s₁ os pkt s₂ o - ⟨⟨nums, rfl⟩, hpkts, hx2⟩ hst
  obtain ⟨⟨nums', rfl⟩, info, rfl⟩ := toStackEnb_spec hst
  exact ⟨⟨nums', rfl⟩, by simp [hpkts], by simpa using hx2⟩

/-- **What a completion at the target does.**  It sends down everything that is kept back, for
whichever UE, and stops holding the packets of this UE. -/
theorem signalHandoverCompleteTarget_spec {ueId sourceEnb : MacNodeId} {s' : IP2lte}
    {os : List EnbOut} (hm : s.hoManager = true)
    (h : signalHandoverCompleteTarget b s ueId sourceEnb = some (s', os)) :
    (∃ nums, s' = { s with
      seqNums := nums, hoFromX2 := fun _ => [], hoFromIp := fun _ => [],
      hoHolding := Function.update s.hoHolding ueId false }) ∧
    ∃ o, os = .x2 sourceEnb (.command ueId false) :: o ∧
      stackPackets o = allQueued s.hoFromX2 ++ allQueued s.hoFromIp ∧
      ∀ dest msg, .x2 dest msg ∉ o := by
  unfold signalHandoverCompleteTarget at h
  rw [if_pos hm] at h
  -- which packets there are does not matter, and there may be very many queues
  generalize allQueued s.hoFromX2 ++ allQueued s.hoFromIp = pkts at h ⊢
  split at h
  · cases h
  · rename_i s₁ o₁ h₁
    obtain ⟨⟨nums, rfl⟩, hpkts, hx2⟩ := toStackLoop_spec h₁
    simp only [Option.some.injEq, Prod.mk.injEq] at h
    obtain ⟨rfl, rfl⟩ := h
    exact ⟨⟨nums, rfl⟩, o₁, rfl, hpkts, hx2⟩

/-- A completion does not throw if the binder knows all destinations. -/
theorem signalHandoverCompleteTarget_isSome (hb : ∀ id, (b.getNextHop id).isSome = true)
    (s : IP2lte) (ueId sourceEnb : MacNodeId) :
    (signalHandoverCompleteTarget b s ueId sourceEnb).isSome = true := by
  have hloop : ∀ pkts s, ((toStackLoop b).exec s pkts).isSome = true := by
    intro pkts
    induction pkts with
    | nil => exact fun s => rfl
    | cons pkt pkts ih =>
      intro s
      have hstep : (toStackEnb b s pkt).isSome = true := by
        obtain ⟨master, hm⟩ := Option.isSome_iff_exists.1 (hb (b.getMacNodeId pkt.destAddr))
        simp [toStackEnb, hm]
      obtain ⟨⟨s₁, o₁⟩, h₁⟩ := Option.isSome_iff_exists.1 hstep
      obtain ⟨⟨s₂, o₂⟩, h₂⟩ := Option.isSome_iff_exists.1 (ih s₁)
      exact Option.isSome_iff_exists.2 ⟨(s₂, o₁ ++ o₂), Machine.exec_cons_eq_some.2
        ⟨s₁, o₁, o₂, h₁, h₂, rfl⟩⟩
  unfold signalHandoverCompleteTarget
  generalize allQueued s.hoFromX2 ++ allQueued s.hoFromIp = pkts
  split
  · obtain ⟨⟨s₁, o₁⟩, h₁⟩ := Option.isSome_iff_exists.1
      (hloop pkts { s with hoFromX2 := fun _ => [], hoFromIp := fun _ => [] })
    rw [h₁]
    rfl
  · rfl

/-- A completion with nothing to send down. -/
theorem signalHandoverCompleteTarget_empty {ueId sourceEnb : MacNodeId} (hm : s.hoManager = true)
    (hx2 : s.hoFromX2 = fun _ => []) (hip : s.hoFromIp = fun _ => []) :
    signalHandoverCompleteTarget b s ueId sourceEnb =
      some ({ s with hoHolding := Function.update s.hoHolding ueId false },
        [.x2 sourceEnb (.command ueId false)]) := by
  have hnone : allQueued s.hoFromX2 ++ allQueued s.hoFromIp = [] := by
    rw [hx2, hip, allQueued_nil, List.append_nil]
  have hs : ({ s with hoFromX2 := fun _ => [], hoFromIp := fun _ => [] } : IP2lte) = s := by
    cases s
    simp_all
  rw [signalHandoverCompleteTarget, if_pos hm, hnone, hs, Machine.exec_nil]

/-- **What a packet from IP can do.**  It is tunnelled, kept back or sent down. -/
theorem fromIpEnb_cases {pkt : Packet} {s' : IP2lte} {os : List EnbOut}
    (h : fromIpEnb b s pkt = some (s', os)) :
    (∃ target, s.hoForwarding (b.getMacNodeId pkt.destAddr) = some target ∧ s' = s ∧
      os = s.viaHoManager target (.data pkt)) ∨
    (s.hoForwarding (b.getMacNodeId pkt.destAddr) = none ∧
      s.hoHolding (b.getMacNodeId pkt.destAddr) = true ∧
      s' = s.hold (b.getMacNodeId pkt.destAddr) pkt ∧ os = []) ∨
    (s.hoForwarding (b.getMacNodeId pkt.destAddr) = none ∧
      s.hoHolding (b.getMacNodeId pkt.destAddr) = false ∧ SameBut s s' ∧
      ∃ info, os = [.toStack pkt info]) := by
  unfold fromIpEnb at h
  dsimp only at h
  split at h
  · rename_i target hf
    simp only [Option.some.injEq, Prod.mk.injEq] at h
    obtain ⟨rfl, rfl⟩ := h
    exact .inl ⟨target, hf, rfl, rfl⟩
  · rename_i hf
    split_ifs at h with hh
    · simp only [Option.some.injEq, Prod.mk.injEq] at h
      obtain ⟨rfl, rfl⟩ := h
      exact .inr (.inl ⟨hf, hh, rfl, rfl⟩)
    · exact .inr (.inr ⟨hf, by simpa using hh, toStackEnb_spec h⟩)

end IP2lte

end V2nLte
