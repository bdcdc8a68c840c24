import V2nLte.Lte.Ip2lte
import Mathlib.Tactic.Abel

/-!
# Handovers over X2

Any number of eNBs exchange handover commands and tunnelled packets over X2.  Messages between
two eNBs arrive in the order in which they were sent, after any delay; messages of different
pairs overtake each other freely.  `x2net` is the IP2lte modules of all eNBs together with the
messages that are on the way.

* `packets_conserved` : no packet is lost or duplicated, in any run.
* `handover_packets_accounted` : moreover, if every tunnelled packet arrives while the target is
  still holding packets for its UE, then nothing is left behind once all handovers are over.

A tunnelled packet can be late: the source goes on tunnelling until it hears that the handover is
complete, and the target puts what arrives after the completion into a queue that nobody empties
(`packet_stranded`).
-/

namespace V2nLte

open IP2lte

/-! ### The network -/

/-- A message on its way. -/
structure X2Packet where
  /-- The sender. -/
  src : MacNodeId
  /-- The receiver. -/
  dst : MacNodeId
  /-- The message. -/
  msg : X2Msg
  deriving DecidableEq

/-- The eNBs and the messages between them, in the order in which they were sent. -/
structure X2Net where
  /-- The IP2lte modules. -/
  nodes : MacNodeId → IP2lte := fun _ => {}
  /-- The messages on their way. -/
  inFlight : List X2Packet := []

/-- What can happen in the network. -/
inductive X2Event where
  /-- A packet from IP arrives at an eNB. -/
  | fromIpEnb (enb : MacNodeId) (b : BinderView) (pkt : Packet)
  /-- A UE starts to leave an eNB. -/
  | triggerHandoverSource (enb ueId targetEnb : MacNodeId)
  /-- The oldest message from `src` to `dst` arrives. -/
  | deliver (src dst : MacNodeId) (b : BinderView)
  /-- A UE has arrived at an eNB. -/
  | signalHandoverCompleteTarget (enb : MacNodeId) (b : BinderView) (ueId sourceEnb : MacNodeId)

namespace X2Net

/-- The X2 messages among the outputs of an eNB. -/
def outbox (enb : MacNodeId) (o : List EnbOut) : List X2Packet :=
  o.filterMap fun
    | .toStack _ _ => none
    | .x2 dest msg => some ⟨enb, dest, msg⟩

/-- The message is from `src` to `dst`. -/
def onChannel (src dst : MacNodeId) (p : X2Packet) : Bool :=
  decide (p.src = src) && decide (p.dst = dst)

/-- An eNB changes its state and sends its messages. -/
def update (s : X2Net) (enb : MacNodeId) (r : IP2lte × List EnbOut) : X2Net where
  nodes := Function.update s.nodes enb r.1
  inFlight := s.inFlight ++ outbox enb r.2

/-- The oldest message on a channel arrives. -/
def deliver (s : X2Net) (src dst : MacNodeId) (b : BinderView) : Option X2Net :=
  (s.inFlight.find? (onChannel src dst)).map fun p =>
    { nodes := Function.update s.nodes dst (handleX2Message b (s.nodes dst) p.msg)
      inFlight := s.inFlight.eraseP (onChannel src dst) }

end X2Net

/-- The network as a machine. -/
def x2net : Machine X2Net X2Event EnbOut where
  step s
    | .fromIpEnb enb b pkt =>
      (IP2lte.fromIpEnb b (s.nodes enb) pkt).map fun r => (s.update enb r, r.2)
    | .triggerHandoverSource enb ueId targetEnb =>
      let r := (s.nodes enb).triggerHandoverSource ueId targetEnb
      some (s.update enb r, r.2)
    | .deliver src dst b => (s.deliver src dst b).map fun s' => (s', [])
    | .signalHandoverCompleteTarget enb b ueId sourceEnb =>
      (IP2lte.signalHandoverCompleteTarget b (s.nodes enb) ueId sourceEnb).map fun r =>
        (s.update enb r, r.2)

theorem x2net_complete {s : X2Net} {b : BinderView} {enb ueId sourceEnb : MacNodeId}
    (hm : (s.nodes enb).hoManager = true) (hx2 : (s.nodes enb).hoFromX2 = fun _ => [])
    (hip : (s.nodes enb).hoFromIp = fun _ => []) :
    x2net.step s (.signalHandoverCompleteTarget enb b ueId sourceEnb) =
      some (s.update enb ({ s.nodes enb with
          hoHolding := Function.update (s.nodes enb).hoHolding ueId false },
        [.x2 sourceEnb (.command ueId false)]), [.x2 sourceEnb (.command ueId false)]) := by
  simp only [x2net, signalHandoverCompleteTarget_empty hm hx2 hip, Option.map_some]

variable {s s' : X2Net} {e : X2Event} {o os : List EnbOut} {es : List X2Event}

/-! ### Where a packet is -/

/-- The packets that an event brings into the network. -/
def X2Event.accepted : X2Event → Multiset Packet
  | .fromIpEnb _ _ pkt => {pkt}
  | _ => 0

/-- The packets in a message. -/
def X2Msg.packets : X2Msg → Multiset Packet
  | .command _ _ => 0
  | .data pkt => {pkt}

/-- The packets on their way over X2. -/
def flying (ps : List X2Packet) : Multiset Packet := (ps.map fun p => p.msg.packets).sum

/-- The packets in the queues of an eNB. -/
def queued (n : IP2lte) : Multiset Packet :=
  ∑ u, (n.hoFromX2 u : Multiset Packet) + ∑ u, (n.hoFromIp u : Multiset Packet)

/-- The packets in all queues. -/
def X2Net.kept (s : X2Net) : Multiset Packet := ∑ enb, queued (s.nodes enb)

@[simp] theorem flying_append (ps qs : List X2Packet) :
    flying (ps ++ qs) = flying ps + flying qs := by
  simp [flying]

/-- A packet more in one queue is a packet more in the table. -/
theorem sum_push {K : Type} [Fintype K] [DecidableEq K] (q : K → List Packet) (k : K)
    (pkt : Packet) :
    ∑ u, (Function.update q k (q k ++ [pkt]) u : Multiset Packet) =
      ∑ u, (q u : Multiset Packet) + {pkt} := by
  have h := sum_update_add (Finset.mem_univ k) (fun l : List Packet => (l : Multiset Packet)) q
    (q k ++ [pkt])
  rw [← Multiset.coe_add, Multiset.coe_singleton, add_comm (q k : Multiset Packet),
    ← add_assoc] at h
  exact add_right_cancel h

/-- What an eNB does to packets: those it had in its queues and those that came in are in its
queues, handed down or sent. -/
def Balanced (enb : MacNodeId) (n : IP2lte) (acc : Multiset Packet) (r : IP2lte × List EnbOut) :
    Prop :=
  r.1.hoManager = true ∧
    queued r.1 + (stackPackets r.2 : Multiset Packet) + flying (X2Net.outbox enb r.2) =
      queued n + acc

theorem balanced_fromIpEnb (enb : MacNodeId) {b : BinderView} {n : IP2lte} {pkt : Packet}
    {r : IP2lte × List EnbOut} (hm : n.hoManager = true) (h : fromIpEnb b n pkt = some r) :
    Balanced enb n {pkt} r := by
  rcases fromIpEnb_cases h with ⟨t, -, hn, ho⟩ | ⟨-, -, hn, ho⟩ | ⟨-, -, ⟨nums, hn⟩, info, ho⟩
  · rw [Balanced, hn, ho, viaHoManager, if_pos hm]
    exact ⟨hm, by simp [X2Net.outbox, flying, X2Msg.packets]⟩
  · rw [Balanced, hn, ho]
    refine ⟨hm, ?_⟩
    simp [queued, hold, sum_push, X2Net.outbox, flying, add_assoc]
  · rw [Balanced, hn, ho]
    exact ⟨hm, by simp [queued, X2Net.outbox, flying]⟩

theorem balanced_triggerHandoverSource (enb : MacNodeId) {ueId targetEnb : MacNodeId} {n : IP2lte}
    (hm : n.hoManager = true) :
    Balanced enb n 0 (n.triggerHandoverSource ueId targetEnb) := by
  refine ⟨hm, ?_⟩
  simp [triggerHandoverSource, viaHoManager, hm, queued, X2Net.outbox, flying, X2Msg.packets]

theorem outbox_x2 {enb dest : MacNodeId} {msg : X2Msg} :
    X2Net.outbox enb (.x2 dest msg :: o) = ⟨enb, dest, msg⟩ :: X2Net.outbox enb o := rfl

theorem outbox_of_no_x2 {enb : MacNodeId} (h : ∀ dest msg, EnbOut.x2 dest msg ∉ o) :
    X2Net.outbox enb o = [] := by
  rw [X2Net.outbox, List.filterMap_eq_nil_iff]
  intro out hout
  cases out with
  | toStack pkt info => rfl
  | x2 dest msg => exact absurd hout (h dest msg)

theorem balanced_signalHandoverCompleteTarget (enb : MacNodeId) {ueId sourceEnb : MacNodeId}
    {b : BinderView} {n : IP2lte} {r : IP2lte × List EnbOut} (hm : n.hoManager = true)
    (h : signalHandoverCompleteTarget b n ueId sourceEnb = some r) : Balanced enb n 0 r := by
  obtain ⟨⟨nums, hn⟩, o, ho, hpkts, hx2⟩ := signalHandoverCompleteTarget_spec hm h
  rw [Balanced, hn, ho, stackPackets_x2, hpkts]
  refine ⟨hm, ?_⟩
  rw [outbox_x2, outbox_of_no_x2 hx2, ← Multiset.coe_add, coe_allQueued, coe_allQueued]
  simp [queued, flying, X2Msg.packets]

/-! ### No packet is lost -/

/-- The books of the network: `acc` is what has come in, `os` what has been put out. -/
structure Conserved (s : X2Net) (acc : Multiset Packet) (os : List EnbOut) : Prop where
  hoManager : ∀ enb, (s.nodes enb).hoManager = true
  packets : acc = (stackPackets os : Multiset Packet) + flying s.inFlight + s.kept

theorem Conserved.update {acc d : Multiset Packet} {enb : MacNodeId} {r : IP2lte × List EnbOut}
    (h : Conserved s acc os) (hr : Balanced enb (s.nodes enb) d r) :
    Conserved (s.update enb r) (acc + d) (os ++ r.2) := by
  refine ⟨fun k => ?_, ?_⟩
  · by_cases hk : k = enb
    · subst hk; simpa [X2Net.update] using hr.1
    · simpa [X2Net.update, hk] using h.hoManager k
  · have hkept : (s.update enb r).kept + queued (s.nodes enb) = s.kept + queued r.1 :=
      sum_update_add (Finset.mem_univ enb) queued s.nodes r.1
    have hflying : flying (s.update enb r).inFlight =
        flying s.inFlight + flying (X2Net.outbox enb r.2) := flying_append _ _
    -- compare the numbers of copies of each packet
    ext pkt
    have h₁ := congrArg (Multiset.count pkt) hkept
    have h₂ := congrArg (Multiset.count pkt) hr.2
    have h₃ := congrArg (Multiset.count pkt) h.packets
    rw [hflying, stackPackets_append, ← Multiset.coe_add]
    simp only [Multiset.count_add] at h₁ h₂ h₃ ⊢
    omega

theorem flying_eraseP {ps : List X2Packet} {f : X2Packet → Bool} {p : X2Packet}
    (h : ps.find? f = some p) : flying ps = p.msg.packets + flying (ps.eraseP f) := by
  induction ps with
  | nil => cases h
  | cons x ps ih =>
    by_cases hx : f x = true
    · rw [List.find?_cons_of_pos hx, Option.some.injEq] at h
      rw [List.eraseP_cons_of_pos hx, h]
      simp [flying]
    · rw [List.find?_cons_of_neg hx] at h
      rw [List.eraseP_cons_of_neg hx]
      have := ih h
      simp only [flying, List.map_cons, List.sum_cons] at this ⊢
      rw [this, add_left_comm]

theorem queued_handleX2Message (b : BinderView) (n : IP2lte) (msg : X2Msg) :
    queued (handleX2Message b n msg) = queued n + msg.packets := by
  cases msg with
  | command ueId startHo =>
    cases startHo with
    | true => simp [handleX2Message, triggerHandoverTarget, queued, X2Msg.packets]
    | false => simp [handleX2Message, signalHandoverCompleteSource, queued, X2Msg.packets]
  | data pkt =>
    simp only [handleX2Message, receiveTunneledPacketOnHandover, queued, X2Msg.packets, sum_push]
    rw [add_right_comm]

theorem hoManager_handleX2Message (b : BinderView) (n : IP2lte) (msg : X2Msg) :
    (handleX2Message b n msg).hoManager = n.hoManager := by
  cases msg with
  | command ueId startHo => cases startHo <;> rfl
  | data pkt => rfl

theorem Conserved.deliver {acc : Multiset Packet} {src dst : MacNodeId} {b : BinderView}
    (h : Conserved s acc os) (hd : s.deliver src dst b = some s') : Conserved s' acc os := by
  obtain ⟨p, hp, rfl⟩ := Option.map_eq_some_iff.1 hd
  refine ⟨fun k => ?_, ?_⟩
  · by_cases hk : k = dst
    · subst hk; simpa [hoManager_handleX2Message] using h.hoManager k
    · simpa [hk] using h.hoManager k
  · have hkept := sum_update_add (Finset.mem_univ dst) queued s.nodes
      (handleX2Message b (s.nodes dst) p.msg)
    rw [queued_handleX2Message] at hkept
    have hflying := flying_eraseP hp
    ext pkt
    have h₁ := congrArg (Multiset.count pkt) hkept
    have h₂ := congrArg (Multiset.count pkt) hflying
    have h₃ := congrArg (Multiset.count pkt) h.packets
    simp only [X2Net.kept, Multiset.count_add] at h₁ h₂ h₃ ⊢
    omega

theorem Conserved.step {acc : Multiset Packet} (h : Conserved s acc os)
    (hst : x2net.step s e = some (s', o)) : Conserved s' (acc + e.accepted) (os ++ o) := by
  cases e with
  | fromIpEnb enb b pkt =>
    obtain ⟨r, hr, heq⟩ := Option.map_eq_some_iff.1 hst
    obtain ⟨rfl, rfl⟩ := Prod.mk.inj heq
    exact h.update (balanced_fromIpEnb enb (h.hoManager enb) hr)
  | triggerHandoverSource enb ueId targetEnb =>
    obtain ⟨rfl, rfl⟩ := Prod.mk.inj (Option.some.inj hst)
    exact h.update (balanced_triggerHandoverSource enb (h.hoManager enb))
  | deliver src dst b =>
    obtain ⟨t, ht, heq⟩ := Option.map_eq_some_iff.1 hst
    obtain ⟨rfl, rfl⟩ := Prod.mk.inj heq
    simpa [X2Event.accepted] using h.deliver ht
  | signalHandoverCompleteTarget enb b ueId sourceEnb =>
    obtain ⟨r, hr, heq⟩ := Option.map_eq_some_iff.1 hst
    obtain ⟨rfl, rfl⟩ := Prod.mk.inj heq
    exact h.update (balanced_signalHandoverCompleteTarget enb (h.hoManager enb) hr)

/-- No packet is lost or duplicated in any run. -/
theorem packets_conserved (h : x2net.exec {} es = some (s, os)) :
    Conserved s (es.map X2Event.accepted).sum os := by
  refine Machine.exec_induction
    (J := fun es s os => Conserved s (es.map X2Event.accepted).sum os) ?_ ?_ h
  · exact ⟨fun _ => rfl, by simp [flying, X2Net.kept, queued]⟩
  · intro es s os e s' o _ ih hst
    simpa using ih.step hst

/-! ### Nothing is left behind -/

/-- Packets are kept for a UE only while it is being held. -/
def KeptOnlyHeld (n : IP2lte) : Prop :=
  ∀ u, n.hoHolding u = false → n.hoFromX2 u = [] ∧ n.hoFromIp u = []

/-- The event does not deliver a tunnelled packet for a UE that the receiver is not holding. -/
def OnTime (s : X2Net) : X2Event → Prop
  | .deliver src dst b => ∀ p pkt, s.inFlight.find? (X2Net.onChannel src dst) = some p →
      p.msg = .data pkt → (s.nodes dst).hoHolding (b.getMacNodeId pkt.destAddr) = true
  | _ => True

theorem KeptOnlyHeld.push {n : IP2lte} (h : KeptOnlyHeld n) {d : MacNodeId} {pkt : Packet}
    (hd : n.hoHolding d = true) : KeptOnlyHeld (n.hold d pkt) := by
  intro u hu
  have hne : u ≠ d := fun hud => by
    rw [hud] at hu
    exact Bool.false_ne_true (hu.symm.trans hd)
  simpa [hold, hne] using h u hu

theorem KeptOnlyHeld.fromIpEnb {n : IP2lte} {b : BinderView} {pkt : Packet}
    {r : IP2lte × List EnbOut} (h : KeptOnlyHeld n) (hr : fromIpEnb b n pkt = some r) :
    KeptOnlyHeld r.1 := by
  rcases fromIpEnb_cases hr with ⟨t, -, hn, -⟩ | ⟨-, hd, hn, -⟩ | ⟨-, -, ⟨nums, hn⟩, -⟩
  · rw [hn]; exact h
  · rw [hn]; exact h.push hd
  · rw [hn]; exact h

theorem KeptOnlyHeld.handleX2Message {n : IP2lte} {b : BinderView} {msg : X2Msg}
    (h : KeptOnlyHeld n)
    (hmsg : ∀ pkt, msg = .data pkt → n.hoHolding (b.getMacNodeId pkt.destAddr) = true) :
    KeptOnlyHeld (handleX2Message b n msg) := by
  cases msg with
  | command ueId startHo =>
    cases startHo with
    | true =>
      intro u hu
      by_cases hue : u = ueId
      · subst hue
        simp [IP2lte.handleX2Message, triggerHandoverTarget] at hu
      · exact h u (by simpa [IP2lte.handleX2Message, triggerHandoverTarget, hue] using hu)
    | false => exact h
  | data pkt =>
    have hd := hmsg pkt rfl
    intro u hu
    have hne : u ≠ b.getMacNodeId pkt.destAddr := fun hud => by
      subst hud
      exact Bool.false_ne_true (hu.symm.trans hd)
    simpa [IP2lte.handleX2Message, receiveTunneledPacketOnHandover, hne] using h u hu

theorem KeptOnlyHeld.signalHandoverCompleteTarget {n : IP2lte} {b : BinderView}
    {ueId sourceEnb : MacNodeId} {r : IP2lte × List EnbOut} (hm : n.hoManager = true)
    (hr : signalHandoverCompleteTarget b n ueId sourceEnb = some r) : KeptOnlyHeld r.1 := by
  obtain ⟨⟨nums, hn⟩, -⟩ := signalHandoverCompleteTarget_spec hm hr
  rw [hn]
  exact fun u _ => ⟨rfl, rfl⟩

/-- All eNBs keep packets only for the UEs they hold. -/
def Tidy (s : X2Net) : Prop :=
  ∀ enb, (s.nodes enb).hoManager = true ∧ KeptOnlyHeld (s.nodes enb)

theorem Tidy.update {nodes : MacNodeId → IP2lte} {ps qs : List X2Packet} {enb : MacNodeId}
    {n : IP2lte} (h : Tidy ⟨nodes, ps⟩) (hm : n.hoManager = true) (hn : KeptOnlyHeld n) :
    Tidy ⟨Function.update nodes enb n, qs⟩ := by
  intro k
  by_cases hk : k = enb
  · subst hk
    simpa using ⟨hm, hn⟩
  · simpa [hk] using h k

theorem Tidy.step (h : Tidy s) (hst : x2net.step s e = some (s', o)) (he : OnTime s e) :
    Tidy s' := by
  cases e with
  | fromIpEnb enb b pkt =>
    obtain ⟨r, hr, heq⟩ := Option.map_eq_some_iff.1 hst
    obtain ⟨rfl, rfl⟩ := Prod.mk.inj heq
    exact Tidy.update h (balanced_fromIpEnb enb (h enb).1 hr).1 ((h enb).2.fromIpEnb hr)
  | triggerHandoverSource enb ueId targetEnb =>
    obtain ⟨rfl, rfl⟩ := Prod.mk.inj (Option.some.inj hst)
    exact Tidy.update h (h enb).1 (h enb).2
  | deliver src dst b =>
    obtain ⟨t, ht, heq⟩ := Option.map_eq_some_iff.1 hst
    obtain ⟨rfl, rfl⟩ := Prod.mk.inj heq
    obtain ⟨p, hp, rfl⟩ := Option.map_eq_some_iff.1 ht
    refine Tidy.update h ?_ ((h dst).2.handleX2Message fun pkt hpkt => he p pkt hp hpkt)
    rw [hoManager_handleX2Message]
    exact (h dst).1
  | signalHandoverCompleteTarget enb b ueId sourceEnb =>
    obtain ⟨r, hr, heq⟩ := Option.map_eq_some_iff.1 hst
    obtain ⟨rfl, rfl⟩ := Prod.mk.inj heq
    exact Tidy.update h (balanced_signalHandoverCompleteTarget enb (h enb).1 hr).1
      (KeptOnlyHeld.signalHandoverCompleteTarget (h enb).1 hr)

/-- **Packets and handovers.**  In every run, every packet that came in from IP has been handed
to a stack, is on its way over X2 or is in exactly one queue.  If moreover every tunnelled
packet of the run arrives while the target is still holding packets for its UE, then all queues
are empty in every state in which nothing is on its way and no UE is being held. -/
theorem handover_packets_accounted (es : List X2Event) :
    (∀ s os, x2net.exec {} es = some (s, os) →
      (es.map X2Event.accepted).sum =
        (stackPackets os : Multiset Packet) + flying s.inFlight + s.kept) ∧
    ((∀ s e s' o, x2net.Takes {} es s e s' o → OnTime s e) →
      ∀ s, x2net.Visits {} es s → s.inFlight = [] →
        (∀ enb u, (s.nodes enb).hoHolding u = false) →
        ∀ enb u, (s.nodes enb).hoFromX2 u = [] ∧ (s.nodes enb).hoFromIp u = []) := by
  refine ⟨fun s os h => (packets_conserved h).packets, fun hontime s hvisits _ hholding enb u => ?_⟩
  have h₀ : Tidy {} := fun _ => ⟨rfl, fun _ _ => ⟨rfl, rfl⟩⟩
  have htidy : Tidy s := hvisits.invariant h₀ fun s e s' o htakes h => by
    obtain ⟨-, -, -, -, -, hst⟩ := id htakes
    exact h.step hst (hontime s e s' o htakes)
  exact (htidy enb).2 u (hholding enb u)

/-! ### A packet that stays behind -/

/-- A binder that knows the UE 1025 by the address 1. -/
def oneUe : BinderView where
  getMacNodeId addr := if addr = 1 then 1025 else 0
  getNextHop id := if id = 1025 then some 2 else some 0

/-- A packet for the UE 1025. -/
def latePacket : Packet := ⟨0, 9, 1, .udp 3000 4000⟩

/-- The UE 1025 moves from eNB 1 to eNB 2; a packet is tunnelled, and is still on its way when
the handover is complete. -/
def lateTunnel : List X2Event :=
  [.triggerHandoverSource 1 1025 2, .deliver 1 2 oneUe, .fromIpEnb 1 oneUe latePacket,
    .signalHandoverCompleteTarget 2 oneUe 1025 1, .deliver 2 1 oneUe, .deliver 1 2 oneUe]

/-- A tunnelled packet that arrives after the completion stays in its queue, with all handovers
over and nothing on its way. -/
theorem packet_stranded : ∃ s os, x2net.exec {} lateTunnel = some (s, os) ∧ s.inFlight = [] ∧
    (∀ enb u, (s.nodes enb).hoHolding u = false) ∧
    (s.nodes 2).hoFromX2 1025 = [latePacket] := by
  refine ⟨_, _, Machine.exec_cons_eq_some.2 ⟨_, _, _, rfl, Machine.exec_cons_eq_some.2
    ⟨_, _, _, rfl, Machine.exec_cons_eq_some.2 ⟨_, _, _, rfl, Machine.exec_cons_eq_some.2
    ⟨_, _, _, x2net_complete rfl rfl rfl,
      Machine.exec_cons_eq_some.2 ⟨_, _, _, rfl, Machine.exec_cons_eq_some.2
    ⟨_, _, _, rfl, rfl, rfl⟩, rfl⟩, rfl⟩, rfl⟩, rfl⟩, rfl⟩, ?_, ?_, ?_⟩
  · rfl
  · intro enb u
    simp only [X2Net.update, handleX2Message]
    by_cases htarget : enb = 2
    · subst htarget
      by_cases hue : u = 1025 <;>
        simp [receiveTunneledPacketOnHandover, triggerHandoverTarget, hue]
    · by_cases hsource : enb = 1
      · subst hsource
        simp [triggerHandoverSource, signalHandoverCompleteSource]
      · simp [htarget, hsource]
  · rfl

end V2nLte
