import V2nLte.Lte.Ip2lte

/-!
# Several UEs arriving at one eNB

While UEs hand over to an eNB, its IP2lte module keeps packets back for each of them.  What it
is for is said by `HoldBuffer`, with the tunnelled packets as the early ones: the packets of a UE
go down when this UE has arrived, the tunnelled ones first.

The loops of `signalHandoverCompleteTarget` go through the queues of all UEs, not only of the one
that has arrived.  `target_releases_iff` says exactly when this makes a difference.
-/

namespace V2nLte

/-! ### Buffers that hold and release -/

/-- A buffer that keeps packets back for receivers `K`, each on its own.  The early packets take
precedence; the ordinary ones pass through unless the receiver is being held.  Nothing that happens
to one receiver has any effect on another. -/
structure HoldBuffer (K P : Type*) where
  /-- The receiver is being held. -/
  holding : K → Bool := fun _ => false
  /-- The packets that go first. -/
  early : K → List P := fun _ => []
  /-- The packets that go next. -/
  late : K → List P := fun _ => []

/-- What can happen to a buffer. -/
inductive HoldEvent (K P : Type*) where
  /-- Start holding a receiver. -/
  | hold (k : K)
  /-- An early packet arrives. -/
  | early (k : K) (p : P)
  /-- An ordinary packet arrives. -/
  | late (k : K) (p : P)
  /-- Hand out what is kept back for a receiver and stop holding it. -/
  | release (k : K)

namespace HoldBuffer

variable {K P : Type*} [DecidableEq K]

/-- The buffer after an event. -/
def next (h : HoldBuffer K P) : HoldEvent K P → HoldBuffer K P
  | .hold k => { h with holding := Function.update h.holding k true }
  | .early k p => { h with early := Function.update h.early k (h.early k ++ [p]) }
  | .late k p =>
    if h.holding k then { h with late := Function.update h.late k (h.late k ++ [p]) } else h
  | .release k =>
    { holding := Function.update h.holding k false
      early := Function.update h.early k []
      late := Function.update h.late k [] }

/-- The packets handed out at an event. -/
def out (h : HoldBuffer K P) : HoldEvent K P → List P
  | .hold _ => []
  | .early _ _ => []
  | .late k p => if h.holding k then [] else [p]
  | .release k => h.early k ++ h.late k

end HoldBuffer

/-! ### The target -/

open IP2lte

/-- The events at the target. -/
inductive TargetEvent where
  /-- A handover command from the source arrives. -/
  | triggerHandoverTarget (ueId : MacNodeId)
  /-- A tunnelled packet arrives. -/
  | receiveTunneledPacketOnHandover (b : BinderView) (pkt : Packet)
  /-- A packet from IP arrives. -/
  | fromIpEnb (b : BinderView) (pkt : Packet)
  /-- The UE has arrived. -/
  | signalHandoverCompleteTarget (b : BinderView) (ueId sourceEnb : MacNodeId)

/-- The IP2lte module of a target eNB. -/
def target : Machine IP2lte TargetEvent EnbOut where
  step s
    | .triggerHandoverTarget ueId => some (s.triggerHandoverTarget ueId, [])
    | .receiveTunneledPacketOnHandover b pkt =>
      some (IP2lte.receiveTunneledPacketOnHandover b s pkt, [])
    | .fromIpEnb b pkt => IP2lte.fromIpEnb b s pkt
    | .signalHandoverCompleteTarget b ueId sourceEnb =>
      IP2lte.signalHandoverCompleteTarget b s ueId sourceEnb

theorem target_complete {s : IP2lte} {b : BinderView} {ueId sourceEnb : MacNodeId} :
    target.step s (.signalHandoverCompleteTarget b ueId sourceEnb) =
      IP2lte.signalHandoverCompleteTarget b s ueId sourceEnb := rfl

/-- The event as an event of the buffer. -/
def TargetEvent.toHold : TargetEvent → HoldEvent MacNodeId Packet
  | .triggerHandoverTarget ueId => .hold ueId
  | .receiveTunneledPacketOnHandover b pkt => .early (b.getMacNodeId pkt.destAddr) pkt
  | .fromIpEnb b pkt => .late (b.getMacNodeId pkt.destAddr) pkt
  | .signalHandoverCompleteTarget _ ueId _ => .release ueId

/-- The module behaves like the buffer `h`. -/
structure BufferSim (s : IP2lte) (h : HoldBuffer MacNodeId Packet) : Prop where
  hoManager : s.hoManager = true
  hoForwarding : s.hoForwarding = fun _ => none
  hoHolding : s.hoHolding = h.holding
  hoFromX2 : s.hoFromX2 = h.early
  hoFromIp : s.hoFromIp = h.late

/-- The event completes a handover only if nothing is kept back for other UEs. -/
def Apart (s : IP2lte) : TargetEvent → Prop
  | .signalHandoverCompleteTarget _ ueId _ =>
    ∀ v ≠ ueId, s.hoFromX2 v = [] ∧ s.hoFromIp v = []
  | _ => True

variable {s s' : IP2lte} {h : HoldBuffer MacNodeId Packet} {e : TargetEvent} {o : List EnbOut}

/-- The two loops hand down the packets of `u` exactly if there are no others. -/
theorem release_eq_iff (s : IP2lte) (u : MacNodeId) :
    allQueued s.hoFromX2 ++ allQueued s.hoFromIp = s.hoFromX2 u ++ s.hoFromIp u ↔
      ∀ v ≠ u, s.hoFromX2 v = [] ∧ s.hoFromIp v = [] := by
  constructor
  · intro heq
    have hlen := congrArg List.length heq
    simp only [List.length_append] at hlen
    -- neither loop can hand down less than the queue of `u`
    have hle : ∀ q : MacNodeId → List Packet, (q u).length ≤ (allQueued q).length := fun q =>
      (List.sublist_flatten_of_mem (List.mem_map_of_mem (List.mem_finRange u))).length_le
    have hx2 := hle s.hoFromX2
    have hip := hle s.hoFromIp
    intro v hv
    exact ⟨(length_allQueued_eq s.hoFromX2 u).1 (by omega) v hv,
      (length_allQueued_eq s.hoFromIp u).1 (by omega) v hv⟩
  · intro hempty
    rw [allQueued_eq fun v hv => (hempty v hv).1, allQueued_eq fun v hv => (hempty v hv).2]

/-- A step hands down what the buffer hands out exactly if the UEs are apart. -/
theorem BufferSim.out_iff (hsim : BufferSim s h) (hst : target.step s e = some (s', o)) :
    stackPackets o = h.out e.toHold ↔ Apart s e := by
  cases e with
  | triggerHandoverTarget ueId =>
    simp only [target, Option.some.injEq, Prod.mk.injEq] at hst
    obtain ⟨-, rfl⟩ := hst
    exact iff_of_true rfl trivial
  | receiveTunneledPacketOnHandover b pkt =>
    simp only [target, Option.some.injEq, Prod.mk.injEq] at hst
    obtain ⟨-, rfl⟩ := hst
    exact iff_of_true rfl trivial
  | fromIpEnb b pkt =>
    refine iff_of_true ?_ trivial
    simp only [TargetEvent.toHold, HoldBuffer.out, ← hsim.hoHolding]
    rcases fromIpEnb_cases hst with ⟨t, hf, -⟩ | ⟨-, hh, -, rfl⟩ | ⟨-, hh, -, info, rfl⟩
    · simp [hsim.hoForwarding] at hf
    · simp [hh]
    · simp [hh]
  | signalHandoverCompleteTarget b ueId sourceEnb =>
    rw [target_complete] at hst
    obtain ⟨-, o', rfl, hpkts, -⟩ := signalHandoverCompleteTarget_spec hsim.hoManager hst
    simp only [TargetEvent.toHold, HoldBuffer.out, stackPackets_x2, hpkts, ← hsim.hoFromX2,
      ← hsim.hoFromIp]
    exact release_eq_iff s ueId

theorem update_of_others_empty {q : MacNodeId → List Packet} {u : MacNodeId}
    (hempty : ∀ v ≠ u, q v = []) : (fun _ => []) = Function.update q u [] := by
  funext v
  by_cases hv : v = u
  · subst hv; simp
  · rw [Function.update_of_ne hv, hempty v hv]

/-- As long as the UEs are apart the module behaves like the buffer. -/
theorem BufferSim.step (hsim : BufferSim s h) (hst : target.step s e = some (s', o))
    (hapart : Apart s e) : BufferSim s' (h.next e.toHold) := by
  cases e with
  | triggerHandoverTarget ueId =>
    simp only [target, Option.some.injEq, Prod.mk.injEq] at hst
    obtain ⟨rfl, -⟩ := hst
    refine ⟨hsim.hoManager, hsim.hoForwarding, ?_, hsim.hoFromX2, hsim.hoFromIp⟩
    simp [triggerHandoverTarget, TargetEvent.toHold, HoldBuffer.next, hsim.hoHolding]
  | receiveTunneledPacketOnHandover b pkt =>
    simp only [target, Option.some.injEq, Prod.mk.injEq] at hst
    obtain ⟨rfl, -⟩ := hst
    refine ⟨hsim.hoManager, hsim.hoForwarding, hsim.hoHolding, ?_, hsim.hoFromIp⟩
    simp [receiveTunneledPacketOnHandover, TargetEvent.toHold, HoldBuffer.next, hsim.hoFromX2]
  | fromIpEnb b pkt =>
    simp only [TargetEvent.toHold, HoldBuffer.next]
    rcases fromIpEnb_cases hst with ⟨t, hf, -⟩ | ⟨-, hh, rfl, -⟩ | ⟨-, hh, ⟨nums, rfl⟩, -⟩
    · simp [hsim.hoForwarding] at hf
    · rw [hsim.hoHolding] at hh
      rw [if_pos hh]
      exact ⟨hsim.hoManager, hsim.hoForwarding, hsim.hoHolding, hsim.hoFromX2,
        by simp [hold, hsim.hoFromIp]⟩
    · rw [hsim.hoHolding] at hh
      rw [if_neg (by simp [hh])]
      exact ⟨hsim.hoManager, hsim.hoForwarding, hsim.hoHolding, hsim.hoFromX2, hsim.hoFromIp⟩
  | signalHandoverCompleteTarget b ueId sourceEnb =>
    rw [target_complete] at hst
    obtain ⟨⟨nums, rfl⟩, -⟩ := signalHandoverCompleteTarget_spec hsim.hoManager hst
    refine ⟨hsim.hoManager, hsim.hoForwarding, ?_, ?_, ?_⟩
    · simp [TargetEvent.toHold, HoldBuffer.next, hsim.hoHolding]
    · exact (update_of_others_empty fun v hv => (hapart v hv).1).trans (by rw [hsim.hoFromX2]; rfl)
    · exact (update_of_others_empty fun v hv => (hapart v hv).2).trans (by rw [hsim.hoFromIp]; rfl)

/-- **UEs arriving at one eNB do not disturb each other exactly if they arrive one by one.**  In
a run of the target every step hands down precisely what the buffer hands out (the packets of
the UE that has arrived, tunnelled ones first, each group in the order of arrival, and nothing
that is kept back for another UE), if and only if every completion finds no packets kept back
for other UEs. -/
theorem target_releases_iff (es : List TargetEvent) :
    (∀ es₁ e es₂ s os s' o, es = es₁ ++ e :: es₂ → target.exec {} es₁ = some (s, os) →
      target.step s e = some (s', o) →
      stackPackets o =
        (es₁.foldl (fun h e => HoldBuffer.next h e.toHold) ({} : HoldBuffer _ _)).out e.toHold) ↔
    ∀ s e s' o, target.Takes {} es s e s' o → Apart s e :=
  Machine.good_iff_of_reference target (fun h e => HoldBuffer.next h e.toHold) {} es
    (R := BufferSim) (G := fun h e o => stackPackets o = h.out e.toHold)
    ⟨rfl, rfl, rfl, rfl, rfl⟩ (fun _ _ _ _ _ hsim hst => hsim.out_iff hst)
    fun _ _ _ _ _ hsim hst hapart => hsim.step hst hapart

/-- A binder that knows the UEs 1025 and 1026 by the addresses 1 and 2, in the cell of eNB 1. -/
def twoUes : BinderView where
  getMacNodeId addr := if addr = 1 then 1025 else if addr = 2 then 1026 else 0
  getNextHop id := if id = 1025 ∨ id = 1026 then some 1 else some 0

/-- A packet for the UE 1026. -/
def packetFor1026 : Packet := ⟨0, 9, 2, .udp 3000 4000⟩

/-- Two UEs are arriving and a tunnelled packet for the second one is kept back. -/
def twoArrivals : List TargetEvent :=
  [.triggerHandoverTarget 1025, .triggerHandoverTarget 1026,
    .receiveTunneledPacketOnHandover twoUes packetFor1026]

/-- The target after the two arrivals. -/
def afterArrivals : IP2lte :=
  IP2lte.receiveTunneledPacketOnHandover twoUes
    ((({} : IP2lte).triggerHandoverTarget 1025).triggerHandoverTarget 1026) packetFor1026

theorem afterArrivals_hoFromX2 :
    afterArrivals.hoFromX2 = Function.update (fun _ => []) 1026 [packetFor1026] := by
  have hid : twoUes.getMacNodeId packetFor1026.destAddr = 1026 := by decide
  simp [afterArrivals, IP2lte.receiveTunneledPacketOnHandover, hid, triggerHandoverTarget]

/-- The packet kept back for one UE goes down when another one has arrived. -/
theorem released_by_other_ue : ∃ s os s' o,
    target.exec {} twoArrivals = some (s, os) ∧
      target.step s (.signalHandoverCompleteTarget twoUes 1025 2) = some (s', o) ∧
      s.hoFromX2 1026 = [packetFor1026] ∧ packetFor1026 ∈ stackPackets o ∧
      s'.hoHolding 1026 = true := by
  have hknown : ∀ id, (twoUes.getNextHop id).isSome = true := by
    intro id
    simp only [twoUes]
    split <;> rfl
  obtain ⟨⟨s', o⟩, hst⟩ := Option.isSome_iff_exists.1
    (signalHandoverCompleteTarget_isSome hknown afterArrivals 1025 2)
  obtain ⟨⟨nums, rfl⟩, o', rfl, hpkts, -⟩ := signalHandoverCompleteTarget_spec rfl hst
  have hqueue : allQueued afterArrivals.hoFromX2 = [packetFor1026] := by
    rw [afterArrivals_hoFromX2, allQueued_eq (u := 1026) fun v hv => Function.update_of_ne hv _ _,
      Function.update_self]
  refine ⟨afterArrivals, [], _, _, rfl, target_complete.trans hst, ?_, ?_, ?_⟩
  · rw [afterArrivals_hoFromX2, Function.update_self]
  · rw [stackPackets_x2, hpkts, hqueue]
    exact List.mem_append_left _ (List.mem_singleton_self _)
  · show Function.update afterArrivals.hoHolding 1025 false 1026 = true
    decide

end V2nLte
