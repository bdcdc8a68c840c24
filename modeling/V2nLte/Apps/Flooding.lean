import Mathlib.Logic.Relation
import V2nLte.Apps.MultihopD2D

/-!
# Flooding without a limit

With `ttl_ < 0` the hops of a message are not limited, as the header file says.  Here the radio
loses nothing: a broadcast is received by every node that hears the sender.

* `flood_covers_iff` : a message reaches every node that can be reached, and each of them sends it
  once, exactly if no node receives it from a relay first.
* `flood_stops` : on a line of four nodes the last one never receives the message.

A relay builds a new header and copies the time to live only if it is positive, so that relayed
copies say that there are no hops left.
-/

namespace V2nLte

open MultihopD2D (Params Ok Later)

/-- The nodes, and the receptions to come: the receiver, the sender and the number of the copy
among those that the sender has sent. -/
structure Radio (ι : Type) where
  /-- The nodes. -/
  net : Flood ι
  /-- The receptions to come. -/
  pending : List (ι × ι × ℕ)

/-- What can happen. -/
inductive RadioEvent (ι : Type) where
  | sendPacket (i : ι) (localMsgId : UInt16) (now : ℚ) (myCoord : Coord)
  /-- The `k`-th of the receptions to come. -/
  | receive (k : ℕ) (draw : ℚ) (myCoord : Coord)
  | relayTimer (i : ι) (n : ℕ)

namespace Radio

variable {ι : Type}

/-- Nothing has been sent. -/
def init (ι : Type) : Radio ι := ⟨Flood.init ι, []⟩

/-- The receptions of the next copy that node `i` sends. -/
def broadcast (hears : ι → List ι) (s : Flood ι) (i : ι) : List (ι × ι × ℕ) :=
  (hears i).map fun v => (v, i, (s.node i).sent.length)

/-- One event. -/
def step [DecidableEq ι] (hears : ι → List ι) (par : ι → Params) (r : Radio ι) :
    RadioEvent ι → Option (Radio ι)
  | .sendPacket i localMsgId now myCoord =>
    (Flood.step par r.net (.sendPacket i localMsgId now myCoord)).map fun net =>
      ⟨net, r.pending ++ broadcast hears r.net i⟩
  | .receive k draw myCoord =>
    match r.pending[k]? with
    | none => none
    | some (i, j, n) =>
      (Flood.step par r.net (.receive i j n draw myCoord)).map fun net =>
        ⟨net, r.pending.eraseIdx k⟩
  | .relayTimer i n =>
    (Flood.step par r.net (.relayTimer i n)).map fun net =>
      ⟨net, r.pending ++ broadcast hears r.net i⟩

/-- The nodes with a radio that loses nothing. -/
def radio [DecidableEq ι] (hears : ι → List ι) (par : ι → Params) :
    Machine (Radio ι) (RadioEvent ι) Empty where
  step r e := (step hears par r e).map fun r' => (r', [])

/-- No reception and no timer is pending. -/
def Quiescent (r : Radio ι) : Prop :=
  r.pending = [] ∧ ∀ i, (r.net.node i).relayTimers = [] ∧ (r.net.node i).trickleTimers = []

/-- Neither hops nor a radius limit the flooding, nobody is selfish, and Trickle is off. -/
def Unlimited (par : Params) : Prop :=
  par.ttl < 0 ∧ par.maxBroadcastRadius ≤ 0 ∧ par.selfishProbability = 0 ∧
    par.trickleEnabled = false

/-- The copies that there are: those of the originator, and relayed ones without hops left. -/
def Copy (p : MultihopD2DPacket) : Prop :=
  p.maxRadius ≤ 0 ∧ ((p.hops = 1 ∧ p.ttl < 0) ∨ (p.hops ≠ 1 ∧ p.ttl = 0))

variable {hears : ι → List ι} {par : ι → Params} {r r' : Radio ι} {e : RadioEvent ι}
  {i j o : ι} {id : UInt32} {n k : ℕ} {draw : ℚ} {c : Coord} {p : MultihopD2DPacket}

theorem copy_newPacket (hpar : ∀ i, Unlimited (par i)) (i : ι) (l : UInt16) (now : ℚ) (c : Coord) :
    Copy ((par i).newPacket l now c) := by
  obtain ⟨httl, hradius, -, -⟩ := hpar i
  refine ⟨?_, .inl ⟨rfl, ?_⟩⟩
  · simp [Params.newPacket, not_lt.2 hradius]
  · simp only [Params.newPacket]
    omega

theorem copy_relayed (i : ι) (p : MultihopD2DPacket) (hp : Copy p) (httl : p.ttl ≠ 0) :
    Copy ((par i).relayed p) := by
  obtain ⟨hradius, ⟨hhops, hneg⟩ | ⟨-, hzero⟩⟩ := hp
  · refine ⟨hradius, .inr ⟨?_, ?_⟩⟩
    · simp [Params.relayed, hhops]
    · simp [Params.relayed, not_lt.2 hneg.le]
  · exact absurd hzero httl

/-- A copy is dropped exactly if it has been relayed. -/
theorem dropped_iff (hpar : Unlimited (par i)) (hp : Copy p) (hdraw : 0 ≤ draw) :
    MultihopD2D.dropped (par i) draw c p = true ↔ p.hops ≠ 1 := by
  obtain ⟨-, -, hselfish, -⟩ := hpar
  obtain ⟨hradius, ⟨hhops, hneg⟩ | ⟨hhops, hzero⟩⟩ := hp
  · simp [MultihopD2D.dropped, hselfish, not_lt.2 hdraw, not_lt.2 hradius, hneg.ne, hhops]
  · simp [MultihopD2D.dropped, hzero, hhops]

/-! ### What counts at a node -/

theorem load_handleRcvdPacket (par : Params) (st : MultihopD2D) (id : UInt32) :
    (MultihopD2D.handleRcvdPacket par draw c p st).load id = st.load id +
      if p.msgid = id ∧ st.relayedMsgMap id = none ∧ MultihopD2D.dropped par draw c p = false
      then 1 else 0 := by
  rcases MultihopD2D.handleRcvdPacket_cases par draw c p st with
    ⟨b, hsome, count, heq⟩ | ⟨hnone, st₁, hst₁, heq⟩
  · have hno : ¬ (p.msgid = id ∧ st.relayedMsgMap id = none ∧
        MultihopD2D.dropped par draw c p = false) := by
      rintro ⟨rfl, hnone, -⟩
      rw [hsome] at hnone
      cases hnone
    rw [heq, if_neg hno]
    rfl
  · have hload : st₁.load id = st.load id := by
      rw [hst₁]
      split_ifs <;> rfl
    rw [heq]
    by_cases hdrop : MultihopD2D.dropped par draw c p = true
    · rw [if_pos hdrop, if_neg (by simp [hdrop]), hload, Nat.add_zero]
    · rw [if_neg hdrop]
      have hcond : (p.msgid = id ∧ st.relayedMsgMap id = none ∧
          MultihopD2D.dropped par draw c p = false) ↔ p.msgid = id := by
        refine and_iff_left_of_imp ?_
        rintro rfl
        exact ⟨hnone, Bool.eq_false_iff.2 hdrop⟩
      rw [if_congr hcond rfl rfl, ← hload]
      unfold MultihopD2D.schedule
      split_ifs with htrickle hid hid
      · simp [MultihopD2D.load, hid, Nat.add_assoc]
      · simp [MultihopD2D.load, hid]
      · simp only [MultihopD2D.load, List.countP_append, List.countP_singleton, hid]
        simp
        omega
      · simp [MultihopD2D.load, hid]

theorem frame_handleRcvdPacket {par : Params} (htrickle : par.trickleEnabled = false)
    (draw : ℚ) (c : Coord) (p : MultihopD2DPacket) (st : MultihopD2D) :
    (MultihopD2D.handleRcvdPacket par draw c p st).sent = st.sent ∧
      (MultihopD2D.handleRcvdPacket par draw c p st).trickleTimers = st.trickleTimers := by
  rcases MultihopD2D.handleRcvdPacket_cases par draw c p st with
    ⟨b, -, count, heq⟩ | ⟨-, st₁, hst₁, heq⟩
  · rw [heq]
    exact ⟨rfl, rfl⟩
  · rw [htrickle, if_neg Bool.false_ne_true] at hst₁
    rw [heq, hst₁]
    unfold MultihopD2D.schedule
    rw [htrickle, if_neg Bool.false_ne_true]
    split_ifs
    · exact ⟨rfl, rfl⟩
    · exact ⟨rfl, rfl⟩

theorem seen_handleRcvdPacket (par : Params) (draw : ℚ) (c : Coord) (p : MultihopD2DPacket)
    (st : MultihopD2D) :
    (MultihopD2D.handleRcvdPacket par draw c p st).relayedMsgMap p.msgid ≠ none := by
  cases hmap : st.relayedMsgMap p.msgid with
  | none =>
    rw [(MultihopD2D.handleRcvdPacket_of_new par draw c hmap).1, Function.update_self]
    exact Option.some_ne_none false
  | some b =>
    have hlater : Later p.msgid st (MultihopD2D.handleRcvdPacket par draw c p st) :=
      .handleRcvdPacket
    refine (hlater.seen p.msgid ?_).1
    rw [hmap]
    exact Option.some_ne_none b

section

variable [DecidableEq ι] {P : MultihopD2DPacket → Prop} {s s' : Flood ι}

/-- Unless a Trickle interval ends, a message that a node has seen goes on counting as it did. -/
theorem load_step {f : FloodEvent ι} (h : Flood.FloodOk P s) (hst : Flood.step par s f = some s')
    (hf : ∀ i n, f ≠ .trickleTimer i n) (hseen : (s.node i).relayedMsgMap id ≠ none) :
    (s'.node i).load id = (s.node i).load id := by
  have hno : ∀ (a : ℕ) (q : Prop) [Decidable q], ¬ q → a + (if q then 1 else 0) = a :=
    fun a q _ h => by rw [if_neg h, Nat.add_zero]
  -- only the node of the event changes
  have hset : ∀ i' st, st.load id = (s.node i').load id ∨ i ≠ i' →
      ((s.setNode i' st).node i).load id = (s.node i).load id := by
    intro i' st hload
    by_cases hi : i = i'
    · subst hi
      rw [Flood.setNode_node_self]
      exact hload.resolve_right fun hne => hne rfl
    · rw [s.setNode_node_of_ne hi]
  cases f with
  | sendPacket i' l now c =>
    simp only [Flood.step] at hst
    split_ifs at hst with horig
    cases hst
    refine hset i' _ ?_
    by_cases hi : i = i'
    · subst hi
      have hne : ¬ (par i).msgId l = id := by
        rintro rfl
        exact horig (h.known i _ hseen)
      exact .inl ((MultihopD2D.load_transmit ((par i).newPacket l now c) _ id).trans
        (hno _ _ hne))
    · exact .inr hi
  | receive i' j n draw c =>
    simp only [Flood.step] at hst
    split at hst
    · cases hst
    · rename_i p hp
      split_ifs at hst
      cases hst
      refine hset i' _ ?_
      by_cases hi : i = i'
      · subst hi
        refine .inl ((load_handleRcvdPacket (par i) _ id).trans (hno _ _ ?_))
        rintro ⟨-, hnone, -⟩
        exact hseen hnone
      · exact .inr hi
  | relayTimer i' n =>
    simp only [Flood.step] at hst
    split at hst
    · cases hst
    · rename_i p hp
      cases hst
      refine hset i' _ (.inl ?_)
      exact (MultihopD2D.load_transmit ((par i').relayed p) _ id).trans
        (MultihopD2D.load_popRelay hp id)
  | trickleTimer i' n => exact absurd rfl (hf i' n)

end

/-! ### One event -/

variable [DecidableEq ι] {P : MultihopD2DPacket → Prop} {s s' : Flood ι}

/-- What the radio knows about the message `id` of the originator `o`. -/
structure Spread (hears : ι → List ι) (o : ι) (id : UInt32) (r : Radio ι) : Prop where
  ok : Flood.FloodOk Copy r.net
  quiet : ∀ i, (r.net.node i).trickleTimers = []
  /-- Who is to receive a copy hears its sender. -/
  sound : ∀ i j n, (i, j, n) ∈ r.pending → i ∈ hears j
  /-- Who hears the sender of a copy has seen the message or is to receive the copy. -/
  heard : ∀ j n p, (r.net.node j).sent[n]? = some p → ∀ i ∈ hears j,
    (r.net.node i).relayedMsgMap p.msgid ≠ none ∨ (i, j, n) ∈ r.pending
  /-- The message has only reached nodes that can be reached. -/
  reach : ∀ i, (r.net.node i).relayedMsgMap id ≠ none →
    Relation.ReflTransGen (fun j i => i ∈ hears j) o i

omit [DecidableEq ι] in
theorem spread_init : Spread hears o id (init ι) where
  ok := Flood.floodOk_init
  quiet := fun _ => rfl
  sound := fun i j n h => (nomatch h)
  heard := fun j n p h => by simp [init, Flood.init] at h
  reach := fun i h => absurd rfl h

/-- The events that originate the message `id` are those of the node `o`. -/
def OriginOnly (par : ι → Params) (o : ι) (id : UInt32) : RadioEvent ι → Prop
  | .sendPacket i l _ _ => (par i).msgId l = id → i = o
  | _ => True

theorem heard_broadcast
    (h : ∀ j n p, (r.net.node j).sent[n]? = some p → ∀ i ∈ hears j,
      (r.net.node i).relayedMsgMap p.msgid ≠ none ∨ (i, j, n) ∈ r.pending)
    {net : Flood ι} {q : MultihopD2DPacket}
    (hsent : (net.node i).sent = (r.net.node i).sent ++ [q])
    (hother : ∀ j, j ≠ i → net.node j = r.net.node j)
    (hseen : ∀ v id, (r.net.node v).relayedMsgMap id ≠ none →
      (net.node v).relayedMsgMap id ≠ none) :
    ∀ j n p, (net.node j).sent[n]? = some p → ∀ v ∈ hears j,
      (net.node v).relayedMsgMap p.msgid ≠ none ∨
        (v, j, n) ∈ r.pending ++ broadcast hears r.net i := by
  intro j n p hp v hv
  have hold : (r.net.node j).sent[n]? = some p → (net.node v).relayedMsgMap p.msgid ≠ none ∨
      (v, j, n) ∈ r.pending ++ broadcast hears r.net i := by
    intro hp
    rcases h j n p hp v hv with hv | hv
    · exact .inl (hseen v p.msgid hv)
    · exact .inr (List.mem_append_left _ hv)
  by_cases hj : j = i
  · subst hj
    rw [hsent] at hp
    rcases lt_or_ge n (r.net.node j).sent.length with hn | hn
    · rw [List.getElem?_append_left hn] at hp
      exact hold hp
    · -- the new copy
      have hlast : n = (r.net.node j).sent.length := by
        rw [List.getElem?_append_right hn] at hp
        have hlt := (List.getElem?_eq_some_iff.1 hp).1
        rw [List.length_singleton] at hlt
        omega
      exact .inr (List.mem_append_right _ (List.mem_map.2 ⟨v, hv, by rw [hlast]⟩))
  · rw [hother j hj] at hp
    exact hold hp

theorem send_step {f : FloodEvent ι} (h : Flood.FloodOk P s) (hst : Flood.step par s f = some s')
    (hf : (∃ l now c, f = .sendPacket i l now c) ∨ ∃ n, f = .relayTimer i n) :
    (∃ q, (s'.node i).sent = (s.node i).sent ++ [q]) ∧ (∀ j, j ≠ i → s'.node j = s.node j) ∧
      (s'.node i).trickleTimers = (s.node i).trickleTimers ∧
      ∀ id, (s'.node i).relayedMsgMap id ≠ none → (s.node i).relayedMsgMap id ≠ none ∨
        ∃ l now c, f = .sendPacket i l now c ∧ (par i).msgId l = id := by
  rcases hf with ⟨l, now, c, rfl⟩ | ⟨n, rfl⟩
  · -- the application sends a message of its own, which marks its id only
    simp only [Flood.step] at hst
    split_ifs at hst
    cases hst
    have hlater : Later ((par i).msgId l) (s.node i)
        (MultihopD2D.sendPacket (par i) l now c (s.node i)) :=
      .transmit ((par i).newPacket l now c) rfl rfl rfl
    refine ⟨⟨(par i).newPacket l now c, ?_⟩, fun j hj => s.setNode_node_of_ne hj _, ?_,
      fun id hid => ?_⟩
    · simp only [Flood.setNode_node_self]
      rfl
    · simp only [Flood.setNode_node_self]
      rfl
    · simp only [Flood.setNode_node_self] at hid
      rcases hlater.marks id hid with hid | rfl
      · exact .inl hid
      · exact .inr ⟨l, now, c, rfl, rfl⟩
  · -- a copy is relayed, of a message that the node has seen
    simp only [Flood.step] at hst
    split at hst
    · cases hst
    · rename_i p hp
      cases hst
      have hlater : Later p.msgid (s.node i)
          (MultihopD2D.relayPacket (par i) p ((s.node i).popRelay n)) :=
        .transmit ((par i).relayed p) rfl rfl rfl
      refine ⟨⟨(par i).relayed p, ?_⟩, fun j hj => s.setNode_node_of_ne hj _, ?_, fun id hid => ?_⟩
      · simp only [Flood.setNode_node_self]
        rfl
      · simp only [Flood.setNode_node_self]
        rfl
      · simp only [Flood.setNode_node_self] at hid
        rcases hlater.marks id hid with hid | rfl
        · exact .inl hid
        · exact .inl ((h.node i).seen (MultihopD2D.load_ne_zero_of_relay hp))

theorem spread_send (hpar : ∀ i, Unlimited (par i)) (h : Spread hears o id r)
    {f : FloodEvent ι} {net : Flood ι} (hst : Flood.step par r.net f = some net)
    (hf : (∃ l now c, f = .sendPacket i l now c) ∨ ∃ n, f = .relayTimer i n)
    (horigin : ∀ l now c, f = .sendPacket i l now c → (par i).msgId l = id → i = o) :
    Spread hears o id ⟨net, r.pending ++ broadcast hears r.net i⟩ := by
  obtain ⟨hok, m, hlater⟩ := Flood.floodOk_step (copy_newPacket hpar) copy_relayed h.ok hst
  obtain ⟨⟨q, hsent⟩, hother, htrickle, hmarks⟩ := send_step h.ok hst hf
  refine ⟨hok, fun j => ?_, fun v j n hv => ?_, ?_, fun v hv => ?_⟩
  · by_cases hj : j = i
    · subst hj
      exact htrickle.trans (h.quiet j)
    · dsimp only
      rw [hother j hj]
      exact h.quiet j
  · rcases List.mem_append.1 hv with hv | hv
    · exact h.sound v j n hv
    · obtain ⟨v', hv', heq⟩ := List.mem_map.1 hv
      cases heq
      exact hv'
  · exact heard_broadcast h.heard hsent hother fun v id hv => ((hlater v).seen id hv).1
  · dsimp only at hv
    by_cases hvi : v = i
    · subst hvi
      rcases hmarks id hv with hv | ⟨l, now, c, hl, hid⟩
      · exact h.reach v hv
      · rw [horigin l now c hl hid]
    · rw [hother v hvi] at hv
      exact h.reach v hv

theorem receive_cases (hst : step hears par r (.receive k draw c) = some r') :
    ∃ i j n p, r.pending[k]? = some (i, j, n) ∧ (r.net.node j).sent[n]? = some p ∧ 0 ≤ draw ∧
      Flood.step par r.net (.receive i j n draw c) = some r'.net ∧
      r' = ⟨r.net.setNode i (MultihopD2D.handleRcvdPacket (par i) draw c p (r.net.node i)),
        r.pending.eraseIdx k⟩ := by
  simp only [step] at hst
  split at hst
  · cases hst
  · rename_i i j n hk
    obtain ⟨net, hnet, rfl⟩ := Option.map_eq_some_iff.1 hst
    have hnet' := hnet
    simp only [Flood.step] at hnet
    split at hnet
    · cases hnet
    · rename_i p hp
      split_ifs at hnet with hdraw
      cases hnet
      exact ⟨i, j, n, p, hk, hp, hdraw.1, hnet', rfl⟩

theorem spread_receive (hpar : ∀ i, Unlimited (par i)) (h : Spread hears o id r)
    (hst : step hears par r (.receive k draw c) = some r') : Spread hears o id r' := by
  obtain ⟨i, j, n, p, hk, hp, hdraw, hnet, rfl⟩ := receive_cases hst
  obtain ⟨hok, m, hlater⟩ := Flood.floodOk_step (copy_newPacket hpar) copy_relayed h.ok hnet
  obtain ⟨hsent, htrickle⟩ :=
    frame_handleRcvdPacket (hpar i).2.2.2 draw c p (r.net.node i)
  have hseen := seen_handleRcvdPacket (par i) draw c p (r.net.node i)
  have hother : ∀ v, v ≠ i → (r.net.setNode i
      (MultihopD2D.handleRcvdPacket (par i) draw c p (r.net.node i))).node v = r.net.node v :=
    fun v hv => r.net.setNode_node_of_ne hv _
  refine ⟨hok, fun v => ?_, fun v j' n' hv => ?_, fun j' n' q hq v hv => ?_, fun v hv => ?_⟩
  · -- no trickle timer is armed without the trickle algorithm
    by_cases hvi : v = i
    · subst hvi
      simp only [Flood.setNode_node_self]
      exact htrickle.trans (h.quiet v)
    · dsimp only
      rw [hother v hvi]
      exact h.quiet v
  · exact h.sound v j' n' (List.mem_of_mem_eraseIdx hv)
  · -- the reception that took place is no longer pending, but its receiver has seen the message
    -- the copies that have been sent stay what they were
    have hq' : (r.net.node j').sent[n']? = some q := by
      by_cases hj : j' = i
      · subst hj
        simp only [Flood.setNode_node_self] at hq
        rwa [hsent] at hq
      · dsimp only at hq
        rwa [hother j' hj] at hq
    rcases h.heard j' n' q hq' v hv with hv | hv
    · exact .inl ((hlater v).seen q.msgid hv).1
    · obtain ⟨hklt, hkeq⟩ := List.getElem?_eq_some_iff.1 hk
      have hmem := (List.getElem_cons_eraseIdx_perm hklt).mem_iff.2 hv
      rcases List.mem_cons.1 hmem with heq | hmem
      · rw [hkeq] at heq
        cases heq
        obtain rfl : p = q := Option.some.inj (hp.symm.trans hq')
        left
        simp only [Flood.setNode_node_self]
        exact hseen
      · exact .inr hmem
  · -- what the node sees now, the sender of the copy has seen before
    by_cases hvi : v = i
    · subst hvi
      simp only [Flood.setNode_node_self] at hv
      have hlater' : Later p.msgid (r.net.node v)
          (MultihopD2D.handleRcvdPacket (par v) draw c p (r.net.node v)) := .handleRcvdPacket
      rcases hlater'.marks id hv with hv | rfl
      · exact h.reach v hv
      · have hj := (h.ok.node j).seen (MultihopD2D.load_ne_zero_of_sent (List.mem_of_getElem? hp))
        exact (h.reach j hj).tail (h.sound v j n (List.mem_of_getElem? hk))
    · dsimp only at hv
      rw [hother v hvi] at hv
      exact h.reach v hv

/-- **One event** of the radio. -/
theorem spread_step (hpar : ∀ i, Unlimited (par i)) (h : Spread hears o id r)
    (horigin : OriginOnly par o id e) (hst : step hears par r e = some r') :
    Spread hears o id r' := by
  cases e with
  | sendPacket i l now c =>
    obtain ⟨net, hnet, rfl⟩ := Option.map_eq_some_iff.1 hst
    refine spread_send hpar h hnet (.inl ⟨l, now, c, rfl⟩) ?_
    rintro l' now' c' heq hid
    cases heq
    exact horigin hid
  | receive k draw c => exact spread_receive hpar h hst
  | relayTimer i n =>
    obtain ⟨net, hnet, rfl⟩ := Option.map_eq_some_iff.1 hst
    refine spread_send hpar h hnet (.inr ⟨n, rfl⟩) ?_
    rintro l now c heq
    cases heq

/-- Every node that has seen the message counts it once. -/
def Full (id : UInt32) (r : Radio ι) : Prop :=
  ∀ i, (r.net.node i).relayedMsgMap id ≠ none → (r.net.node i).load id = 1

/-- The event is not the first reception of the message from a relay. -/
def Direct (id : UInt32) (r : Radio ι) : RadioEvent ι → Prop
  | .receive k _ _ => ∀ i j n p, r.pending[k]? = some (i, j, n) →
    (r.net.node j).sent[n]? = some p → p.msgid = id →
    (r.net.node i).relayedMsgMap id = none → p.hops = 1
  | _ => True

theorem load_radio_step (h : Spread hears o id r) (hst : step hears par r e = some r')
    (hseen : (r.net.node i).relayedMsgMap id ≠ none) :
    (r'.net.node i).load id = (r.net.node i).load id := by
  cases e with
  | sendPacket i' l now c =>
    obtain ⟨net, hnet, rfl⟩ := Option.map_eq_some_iff.1 hst
    exact load_step h.ok hnet (fun _ _ heq => (nomatch heq)) hseen
  | receive k draw c =>
    obtain ⟨i', j, n, p, -, -, -, hnet, -⟩ := receive_cases hst
    exact load_step h.ok hnet (fun _ _ heq => (nomatch heq)) hseen
  | relayTimer i' n =>
    obtain ⟨net, hnet, rfl⟩ := Option.map_eq_some_iff.1 hst
    exact load_step h.ok hnet (fun _ _ heq => (nomatch heq)) hseen

theorem seen_step (hpar : ∀ i, Unlimited (par i)) (h : Spread hears o id r)
    (hst : step hears par r e = some r') {id' : UInt32}
    (hseen : (r.net.node i).relayedMsgMap id' ≠ none) :
    (r'.net.node i).relayedMsgMap id' ≠ none := by
  obtain ⟨f, hf⟩ : ∃ f, Flood.step par r.net f = some r'.net := by
    cases e with
    | sendPacket i' l now c =>
      obtain ⟨net, hnet, rfl⟩ := Option.map_eq_some_iff.1 hst
      exact ⟨_, hnet⟩
    | receive k draw c =>
      obtain ⟨i', j, n, p, -, -, -, hnet, -⟩ := receive_cases hst
      exact ⟨_, hnet⟩
    | relayTimer i' n =>
      obtain ⟨net, hnet, rfl⟩ := Option.map_eq_some_iff.1 hst
      exact ⟨_, hnet⟩
  obtain ⟨-, m, hlater⟩ := Flood.floodOk_step (copy_newPacket hpar) copy_relayed h.ok hf
  exact ((hlater i).seen id' hseen).1

/-- Without a first reception from a relay every node that has seen the message counts it. -/
theorem full_step (hpar : ∀ i, Unlimited (par i)) (h : Spread hears o id r) (hfull : Full id r)
    (hdirect : Direct id r e) (hst : step hears par r e = some r') : Full id r' := by
  intro i hseen
  by_cases hold : (r.net.node i).relayedMsgMap id ≠ none
  · rw [load_radio_step h hst hold]
    exact hfull i hold
  -- the node sees the message now
  rw [not_not] at hold
  have hzero := ((h.ok.node i).unseen id hold).1
  cases e with
  | sendPacket i' l now c =>
    obtain ⟨net, hnet, rfl⟩ := Option.map_eq_some_iff.1 hst
    simp only [Flood.step] at hnet
    split_ifs at hnet
    cases hnet
    by_cases hi : i = i'
    · subst hi
      simp only [Flood.setNode_node_self] at hseen ⊢
      have hlater : Later ((par i).msgId l) (r.net.node i)
          (MultihopD2D.sendPacket (par i) l now c (r.net.node i)) :=
        .transmit ((par i).newPacket l now c) rfl rfl rfl
      have hid : ((par i).newPacket l now c).msgid = id :=
        ((hlater.marks id hseen).resolve_left fun h => h hold).symm
      refine (MultihopD2D.load_transmit ((par i).newPacket l now c) _ id).trans ?_
      rw [hzero, if_pos hid]
    · dsimp only at hseen
      rw [r.net.setNode_node_of_ne hi] at hseen
      exact absurd hold hseen
  | receive k draw c =>
    obtain ⟨i', j, n, p, hk, hp, hdraw, -, rfl⟩ := receive_cases hst
    by_cases hi : i = i'
    · subst hi
      simp only [Flood.setNode_node_self] at hseen ⊢
      have hlater : Later p.msgid (r.net.node i)
          (MultihopD2D.handleRcvdPacket (par i) draw c p (r.net.node i)) := .handleRcvdPacket
      have hid : id = p.msgid := (hlater.marks id hseen).resolve_left fun h => h hold
      have hcopy := (h.ok.node j).sent p (List.mem_of_getElem? hp)
      have hhops := hdirect i j n p hk hp hid.symm hold
      have hkeep : MultihopD2D.dropped (par i) draw c p = false := by
        rw [← Bool.not_eq_true, dropped_iff (hpar i) hcopy hdraw, not_not]
        exact hhops
      rw [load_handleRcvdPacket, hzero, if_pos ⟨hid.symm, hold, hkeep⟩]
    · dsimp only at hseen
      rw [r.net.setNode_node_of_ne hi] at hseen
      exact absurd hold hseen
  | relayTimer i' n =>
    obtain ⟨net, hnet, rfl⟩ := Option.map_eq_some_iff.1 hst
    obtain ⟨-, hother, -, hmarks⟩ := send_step h.ok hnet (.inr ⟨n, rfl⟩)
    by_cases hi : i = i'
    · subst hi
      rcases hmarks id hseen with hv | ⟨l, now, c, hl, -⟩
      · exact absurd hold hv
      · cases hl
    · dsimp only at hseen
      rw [hother i hi] at hseen
      exact absurd hold hseen

/-- A node that receives a message first from a relay has seen it and does not count it. -/
theorem receive_of_not_direct (hpar : ∀ i, Unlimited (par i)) (h : Spread hears o id r)
    (hdirect : ¬ Direct id r (.receive k draw c))
    (hst : step hears par r (.receive k draw c) = some r') :
    ∃ i, (r'.net.node i).relayedMsgMap id ≠ none ∧ (r'.net.node i).load id = 0 := by
  simp only [Direct, not_forall] at hdirect
  obtain ⟨i, j, n, p, hk, hp, rfl, hnew, hhops⟩ := hdirect
  obtain ⟨i', j', n', p', hk', hp', hdraw, -, rfl⟩ := receive_cases hst
  cases hk.symm.trans hk'
  cases hp.symm.trans hp'
  have hcopy := (h.ok.node j).sent p (List.mem_of_getElem? hp)
  have hdrop := (dropped_iff (c := c) (hpar i) hcopy hdraw).2 hhops
  have hzero := ((h.ok.node i).unseen p.msgid hnew).1
  refine ⟨i, ?_, ?_⟩
  · simp only [Flood.setNode_node_self]
    exact seen_handleRcvdPacket (par i) _ _ _ _
  · simp only [Flood.setNode_node_self]
    rw [load_handleRcvdPacket, hzero, if_neg]
    rintro ⟨-, -, hkeep⟩
    rw [hkeep] at hdrop
    cases hdrop

/-! ### Runs -/

variable {es : List (RadioEvent ι)} {os : List Empty}

theorem step_of_radio {out : List Empty} (h : (radio hears par).step r e = some (r', out)) :
    step hears par r e = some r' := by
  obtain ⟨r₁, hr₁, heq⟩ := Option.map_eq_some_iff.1 h
  cases heq
  exact hr₁

theorem originated_step (hst : step hears par r e = some r') :
    (∀ id ∈ r.net.originated, id ∈ r'.net.originated) ∧
      ∀ i l now c, e = .sendPacket i l now c →
        (par i).msgId l ∉ r.net.originated ∧ (par i).msgId l ∈ r'.net.originated := by
  cases e with
  | sendPacket i l now c =>
    obtain ⟨net, hnet, rfl⟩ := Option.map_eq_some_iff.1 hst
    simp only [Flood.step] at hnet
    split_ifs at hnet with horig
    cases hnet
    refine ⟨fun id hid => List.mem_cons_of_mem _ hid, ?_⟩
    rintro i' l' now' c' heq
    cases heq
    exact ⟨horig, List.mem_cons_self⟩
  | receive k draw c =>
    obtain ⟨i, j, n, p, -, -, -, -, rfl⟩ := receive_cases hst
    exact ⟨fun id hid => hid, fun i l now c heq => by cases heq⟩
  | relayTimer i n =>
    obtain ⟨net, hnet, rfl⟩ := Option.map_eq_some_iff.1 hst
    simp only [Flood.step] at hnet
    split at hnet
    · cases hnet
    · cases hnet
      exact ⟨fun id hid => hid, fun i l now c heq => by cases heq⟩

theorem originOnly_of_mem (h : (radio hears par).exec (init ι) es = some (r, os)) {l : UInt16}
    {now : ℚ} {c : Coord} (ho : RadioEvent.sendPacket o l now c ∈ es) :
    ∀ e ∈ es, OriginOnly par o ((par o).msgId l) e := by
  have hboth : (∀ i l now c, RadioEvent.sendPacket i l now c ∈ es →
        (par i).msgId l ∈ r.net.originated) ∧
      ∀ i l now c i' l' now' c', RadioEvent.sendPacket i l now c ∈ es →
        RadioEvent.sendPacket i' l' now' c' ∈ es → (par i).msgId l = (par i').msgId l' →
          i = i' := by
    refine Machine.exec_induction (J := fun es r _ =>
      (∀ i l now c, RadioEvent.sendPacket i l now c ∈ es → (par i).msgId l ∈ r.net.originated) ∧
      ∀ i l now c i' l' now' c', RadioEvent.sendPacket i l now c ∈ es →
        RadioEvent.sendPacket i' l' now' c' ∈ es → (par i).msgId l = (par i').msgId l' →
          i = i')
      ⟨fun i l now c hi => (nomatch hi), fun i l now c i' l' now' c' hi => (nomatch hi)⟩ ?_ h
    intro es r os e r' out hex hJ hst
    obtain ⟨hmono, hnew⟩ := originated_step (step_of_radio hst)
    refine ⟨fun i l now c hi => ?_, fun i l now c i' l' now' c' hi hi' heq => ?_⟩
    · rcases List.mem_append.1 hi with hi | hi
      · exact hmono _ (hJ.1 i l now c hi)
      · exact (hnew i l now c (List.mem_singleton.1 hi).symm).2
    · -- an identifier that is in use is refused
      rcases List.mem_append.1 hi with hi | hi <;> rcases List.mem_append.1 hi' with hi' | hi'
      · exact hJ.2 i l now c i' l' now' c' hi hi' heq
      · have hused := hJ.1 i l now c hi
        rw [heq] at hused
        exact absurd hused (hnew i' l' now' c' (List.mem_singleton.1 hi').symm).1
      · have hused := hJ.1 i' l' now' c' hi'
        rw [← heq] at hused
        exact absurd hused (hnew i l now c (List.mem_singleton.1 hi).symm).1
      · have hsame := (List.mem_singleton.1 hi).trans (List.mem_singleton.1 hi').symm
        cases hsame
        rfl
  intro e he
  cases e with
  | sendPacket i l' now' c' => exact fun heq => hboth.2 i l' now' c' o l now c he ho heq
  | receive k draw c => trivial
  | relayTimer i n => trivial

/-- The books of the radio after a run in which one node originates the message. -/
theorem spread_exec (hpar : ∀ i, Unlimited (par i)) {r₀ : Radio ι} (h₀ : Spread hears o id r₀)
    (horigin : ∀ e ∈ es, OriginOnly par o id e)
    (h : (radio hears par).exec r₀ es = some (r, os)) : Spread hears o id r := by
  refine Machine.exec_induction_of (C := fun _ e => OriginOnly par o id e)
    (J := fun _ r _ => Spread hears o id r) h₀ (fun es r os e r' out _ hr hC hst => ?_)
    (fun r e r' out ht => horigin e ht.mem) h
  exact spread_step hpar hr hC (step_of_radio hst)

theorem load_exec (hpar : ∀ i, Unlimited (par i)) {r₀ : Radio ι} (h₀ : Spread hears o id r₀)
    (horigin : ∀ e ∈ es, OriginOnly par o id e)
    (h : (radio hears par).exec r₀ es = some (r, os))
    (hseen : (r₀.net.node i).relayedMsgMap id ≠ none) :
    (r.net.node i).relayedMsgMap id ≠ none ∧
      (r.net.node i).load id = (r₀.net.node i).load id := by
  have hall : Spread hears o id r ∧ (r.net.node i).relayedMsgMap id ≠ none ∧
      (r.net.node i).load id = (r₀.net.node i).load id := by
    refine Machine.exec_induction_of (C := fun _ e => OriginOnly par o id e)
      (J := fun _ r _ => Spread hears o id r ∧ (r.net.node i).relayedMsgMap id ≠ none ∧
        (r.net.node i).load id = (r₀.net.node i).load id)
      ⟨h₀, hseen, rfl⟩ (fun es r os e r' out _ hr hC hst => ?_)
      (fun r e r' out ht => horigin e ht.mem) h
    obtain ⟨hspread, hseen, hload⟩ := hr
    have hst := step_of_radio hst
    exact ⟨spread_step hpar hspread hC hst, seen_step hpar hspread hst hseen,
      (load_radio_step hspread hst hseen).trans hload⟩
  exact hall.2

omit [DecidableEq ι] in
/-- When nothing is pending, everybody has the message and has sent it, if those who have it
count it. -/
theorem covers_of_full (h : Spread hears o id r) (hfull : Full id r) (hquiet : r.Quiescent)
    (hseen : (r.net.node o).relayedMsgMap id ≠ none) {v : ι}
    (hv : Relation.ReflTransGen (fun j i => i ∈ hears j) o v) :
    (r.net.node v).relayedMsgMap id ≠ none ∧ ((r.net.node v).copies id).length = 1 := by
  have hone : ∀ i, (r.net.node i).relayedMsgMap id ≠ none →
      ((r.net.node i).copies id).length = 1 := by
    intro i hi
    have hload := hfull i hi
    rw [MultihopD2D.length_copies, ← hload]
    simp [MultihopD2D.load, hquiet.2 i]
  induction hv with
  | refl => exact ⟨hseen, hone o hseen⟩
  | @tail j i hreach hji ih =>
    -- the node that is heard has sent the message
    obtain ⟨p, hp⟩ := List.length_eq_one_iff.1 ih.2
    have hmem : p ∈ (r.net.node j).copies id := hp ▸ List.mem_singleton_self p
    obtain ⟨hsent, hid⟩ := List.mem_filter.1 hmem
    rw [decide_eq_true_eq] at hid
    obtain ⟨n, hn⟩ := List.mem_iff_getElem?.1 hsent
    have hi : (r.net.node i).relayedMsgMap id ≠ none := by
      rcases h.heard j n p hn i hji with hi | hi
      · rwa [hid] at hi
      · rw [hquiet.1] at hi
        cases hi
    exact ⟨hi, hone i hi⟩

theorem seen_sendPacket {l : UInt16} {now : ℚ}
    (hst : step hears par r (.sendPacket o l now c) = some r') :
    (r'.net.node o).relayedMsgMap ((par o).msgId l) ≠ none := by
  obtain ⟨net, hnet, rfl⟩ := Option.map_eq_some_iff.1 hst
  simp only [Flood.step] at hnet
  split_ifs at hnet
  cases hnet
  simp only [Flood.setNode_node_self]
  simp [MultihopD2D.sendPacket, MultihopD2D.markAsRelayed]

/-- **Flooding without a limit covers the network exactly if no node gets the message from a
relay first.**  In a run at whose end nothing is pending, every node that can be reached from the
originator has received the message and has sent it once, if and only if every first reception
was of the originator's own copy. -/
theorem flood_covers_iff (hears : ι → List ι) (par : ι → Params) (hpar : ∀ i, Unlimited (par i))
    (es : List (RadioEvent ι)) (r : Radio ι) (os : List Empty)
    (h : (radio hears par).exec (init ι) es = some (r, os)) (hquiet : r.Quiescent) (o : ι)
    (l : UInt16) (now : ℚ) (c : Coord) (ho : RadioEvent.sendPacket o l now c ∈ es) :
    (∀ v, Relation.ReflTransGen (fun j i => i ∈ hears j) o v →
      (r.net.node v).relayedMsgMap ((par o).msgId l) ≠ none ∧
        ((r.net.node v).copies ((par o).msgId l)).length = 1) ↔
    ∀ r₁ e r₂ out, (radio hears par).Takes (init ι) es r₁ e r₂ out →
      Direct ((par o).msgId l) r₁ e := by
  have horigin := originOnly_of_mem h ho
  constructor
  · intro hcovers r₁ e r₂ out ht
    by_contra hdirect
    obtain ⟨es₁, es₂, os₁, rfl, hex, hst⟩ := ht
    have hspread₁ := spread_exec hpar spread_init
      (fun f hf => horigin f (List.mem_append_left _ hf)) hex
    have hspread₂ := spread_step hpar hspread₁ (horigin e (by simp)) (step_of_radio hst)
    obtain ⟨r₁', o₁, o₂, hex₁, hex₂, -⟩ := Machine.exec_append_eq_some.1 h
    obtain ⟨rfl, -⟩ := Prod.mk.inj (Option.some.inj (hex.symm.trans hex₁))
    obtain ⟨r₂', o₃, o₄, hst', hex₃, -⟩ := Machine.exec_cons_eq_some.1 hex₂
    obtain ⟨rfl, -⟩ := Prod.mk.inj (Option.some.inj (hst.symm.trans hst'))
    cases e with
    | receive k draw c =>
      obtain ⟨i, hseen, hzero⟩ := receive_of_not_direct hpar hspread₁ hdirect (step_of_radio hst)
      -- what does not count now will never be sent
      obtain ⟨-, hload⟩ := load_exec hpar hspread₂
        (fun f hf => horigin f (List.mem_append_right _ (List.mem_cons_of_mem _ hf))) hex₃ hseen
      have hone := (hcovers i (hspread₂.reach i hseen)).2
      rw [MultihopD2D.length_copies] at hone
      rw [hzero] at hload
      simp only [MultihopD2D.load] at hload
      omega
    | sendPacket i l now c => exact hdirect trivial
    | relayTimer i n => exact hdirect trivial
  · intro hdirect v hv
    have hfull : Spread hears o ((par o).msgId l) r ∧ Full ((par o).msgId l) r := by
      refine Machine.exec_induction_of
        (C := fun r e => OriginOnly par o ((par o).msgId l) e ∧ Direct ((par o).msgId l) r e)
        (J := fun _ r _ => Spread hears o ((par o).msgId l) r ∧ Full ((par o).msgId l) r)
        ⟨spread_init, fun i hi => absurd rfl hi⟩ (fun es r os e r' out _ hr hC hst => ?_)
        (fun r e r' out ht => ⟨horigin e ht.mem, hdirect r e r' out ht⟩) h
      have hst := step_of_radio hst
      exact ⟨spread_step hpar hr.1 hC.1 hst, full_step hpar hr.1 hr.2 hC.2 hst⟩
    have hseen : (r.net.node o).relayedMsgMap ((par o).msgId l) ≠ none := by
      obtain ⟨es₁, es₂, rfl⟩ := List.append_of_mem ho
      obtain ⟨r₁, o₁, o₂, hex₁, hex₂, -⟩ := Machine.exec_append_eq_some.1 h
      obtain ⟨r₂, o₃, o₄, hst, hex₃, -⟩ := Machine.exec_cons_eq_some.1 hex₂
      have hspread₁ := spread_exec hpar spread_init
        (fun f hf => horigin f (List.mem_append_left _ hf)) hex₁
      have hown : OriginOnly par o ((par o).msgId l) (.sendPacket o l now c) := fun _ => rfl
      have hspread₂ := spread_step hpar hspread₁ hown (step_of_radio hst)
      exact (load_exec hpar hspread₂
        (fun f hf => horigin f (List.mem_append_right _ (List.mem_cons_of_mem _ hf))) hex₃
        (seen_sendPacket (step_of_radio hst))).1
    exact covers_of_full hfull.1 hfull.2 hquiet hseen hv

/-- Every node hears its neighbours on the line. -/
def line (n : ℕ) (i : Fin n) : List (Fin n) :=
  (List.finRange n).filter fun j => j.val + 1 = i.val ∨ i.val + 1 = j.val

/-- Nodes without a limit. -/
def unlimited (n : ℕ) (i : Fin n) : Params where
  senderAppId := UInt16.ofNat i
  lteNodeId := 1025 + i
  ttl := -1

theorem unlimited_ok (n : ℕ) (i : Fin n) : Unlimited (unlimited n i) :=
  ⟨show (-1 : ℤ) < 0 by decide, show (-1 : ℚ) ≤ 0 by decide, rfl, rfl⟩

/-- The middle node of three originates a message. -/
def middleRun : List (RadioEvent (Fin 3)) :=
  [.sendPacket 1 7 0 ⟨0, 0, 0⟩, .receive 0 0 ⟨0, 0, 0⟩, .receive 0 0 ⟨0, 0, 0⟩, .relayTimer 0 0,
    .relayTimer 2 0, .receive 0 0 ⟨0, 0, 0⟩, .receive 0 0 ⟨0, 0, 0⟩]

theorem flood_covers_middle :
    ∃ r, (radio (line 3) (unlimited 3)).exec (init (Fin 3)) middleRun = some (r, []) ∧
      ((∀ v, Relation.ReflTransGen (fun j i => i ∈ line 3 j) 1 v →
        (r.net.node v).relayedMsgMap ((unlimited 3 1).msgId 7) ≠ none ∧
          ((r.net.node v).copies ((unlimited 3 1).msgId 7)).length = 1) ↔
      ∀ r₁ e r₂ out, (radio (line 3) (unlimited 3)).Takes (init (Fin 3)) middleRun r₁ e r₂ out →
        Direct ((unlimited 3 1).msgId 7) r₁ e) := by
  refine ⟨_, rfl, flood_covers_iff (line 3) (unlimited 3) (unlimited_ok 3) middleRun _ _ rfl ?_ 1 7
    0 ⟨0, 0, 0⟩ List.mem_cons_self⟩
  refine ⟨by decide +kernel, ?_⟩
  decide +kernel

/-- The first node of four originates a message. -/
def lineRun : List (RadioEvent (Fin 4)) :=
  [.sendPacket 0 7 0 ⟨0, 0, 0⟩, .receive 0 0 ⟨0, 0, 0⟩, .relayTimer 1 0, .receive 0 0 ⟨0, 0, 0⟩,
    .receive 0 0 ⟨0, 0, 0⟩]

/-- On a line of four nodes the third does not relay the message, the fourth never receives it. -/
theorem flood_stops :
    ∃ r, (radio (line 4) (unlimited 4)).exec (init (Fin 4)) lineRun = some (r, []) ∧
      r.Quiescent ∧ Relation.ReflTransGen (fun j i => i ∈ line 4 j) 0 3 ∧
      (r.net.node 3).relayedMsgMap ((unlimited 4 0).msgId 7) = none := by
  refine ⟨_, rfl, ⟨by decide +kernel, by decide +kernel⟩, ?_, by decide +kernel⟩
  have h₁ : (1 : Fin 4) ∈ line 4 0 := by decide
  have h₂ : (2 : Fin 4) ∈ line 4 1 := by decide
  have h₃ : (3 : Fin 4) ∈ line 4 2 := by decide
  exact ((Relation.ReflTransGen.single h₁).tail h₂).tail h₃

end Radio

end V2nLte
