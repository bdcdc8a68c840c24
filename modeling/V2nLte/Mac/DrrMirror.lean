import Mathlib.Data.Finset.Sort
import V2nLte.Mac.WorkConservation
import V2nLte.Machine.Basic

/-!
# The mirror set of `LteDrr`

`activeConnectionSet_` is meant to mirror `activeList_`: the clean-up after a UE that has left goes
through the set and erases from the list.  `prepareSchedule` copies the list, but not the set:
`activeConnectionTempSet_` is only ever erased from, so that after every `commitSchedule` the
mirror is empty, whatever the list holds.

`mirror_kept` : the two agree in every run where no connection stays active over a round.
-/

namespace V2nLte

namespace LteDrr

variable (E : SchedulerEnv) (enb : LteSchedulerEnb) (d : LteDrr)

/-- `LteScheduler::schedule`. -/
def schedule : Option LteDrr :=
  match d.prepareSchedule E enb with
  | .error _ => none
  | .ok (d', _, _) => some d'.commitSchedule

/-- The connections of a node in the mirror set, as `LteSchedulerEnb::removeActiveConnections` goes
through them. -/
def connectionsOf (nodeId : MacNodeId) : List MacCid :=
  (d.activeConnectionSet.sort (· ≤ ·)).filter fun cid => MacCidToNodeId cid == nodeId

/-- `removeActiveConnections`; `none` is undefined behaviour. -/
def removeActiveConnections (nodeId : MacNodeId) : Option LteDrr :=
  (d.connectionsOf nodeId).foldlM (fun d cid => d.removeActiveConnection cid) d

/-- The operations; a node can leave the binder between any two of them. -/
inductive Event where
  | notifyActiveConnection (cid : MacCid)
  | removeActiveConnection (cid : MacCid)
  | updateSchedulingInfo (E : SchedulerEnv) (enb : LteSchedulerEnb)
  | schedule (E : SchedulerEnv) (enb : { s : LteSchedulerEnb // s.allocator.Wf })
  | removeActiveConnections (nodeId : MacNodeId)

/-- One operation. -/
def handle : Event → Option (LteDrr × List Empty)
  | .notifyActiveConnection cid => some (d.notifyActiveConnection cid, [])
  | .removeActiveConnection cid => (d.removeActiveConnection cid).map fun d' => (d', [])
  | .updateSchedulingInfo E enb => some (d.updateSchedulingInfo E enb, [])
  | .schedule E enb => (d.schedule E enb.1).map fun d' => (d', [])
  | .removeActiveConnections nodeId => (d.removeActiveConnections nodeId).map fun d' => (d', [])

/-- `LteDrr` as a machine. -/
def machine : Machine LteDrr Event Empty where
  step := handle

/-! ### The mirror -/

/-- The set holds exactly the elements of the list. -/
structure Mirror : Prop where
  /-- Set and list have the same elements. -/
  mem_iff : ∀ cid, cid ∈ d.activeConnectionSet ↔ cid ∈ d.activeList.list
  /-- The list has no element twice. -/
  nodup : d.activeList.list.Nodup

/-- The clean-up after a node erases elements of the list only, and leaves none of its
connections. -/
structure CleansUp (nodeId : MacNodeId) : Prop where
  /-- Each connection of the node is in the list when its turn to be erased comes. -/
  present : ∀ pre cid post, d.connectionsOf nodeId = pre ++ cid :: post →
    ∃ d₁, pre.foldlM (fun d cid => removeActiveConnection d cid) d = some d₁ ∧
      cid ∈ d₁.activeList.list
  /-- None of them is left in the end. -/
  gone : ∃ d', d.removeActiveConnections nodeId = some d' ∧
    ∀ cid ∈ d'.activeList.list, MacCidToNodeId cid ≠ nodeId

/-! ### The condition -/

/-- A grant for the connection finds its queue empty or books all of it. -/
def Drained (s : LteSchedulerEnb) (cid : MacCid) : Prop :=
  ¬E.SpaceEnded s cid ∧ s.allocatedCws (MacCidToNodeId cid) = 0 ∧ E.HarqFree cid ∧
    ∃ b, E.conn s cid = some b ∧ (b.queueOccupancy = 0 ∨ (E.booking s cid b).2 = true)

/-- Every connection of a list leaves it when it is visited: its UE has left or it is drained. -/
inductive AllLeave (map : MacCid → DrrDesc) : LteSchedulerEnb → List MacCid → Prop
  | nil {s : LteSchedulerEnb} : AllLeave map s []
  | stale {s : LteSchedulerEnb} {cid : MacCid} {rest : List MacCid} :
    E.binder.getOmnetId (MacCidToNodeId cid) = 0 → AllLeave map s rest →
    AllLeave map s (cid :: rest)
  | drained {s s' : LteSchedulerEnb} {cid : MacCid} {rest : List MacCid} :
    E.binder.getOmnetId (MacCidToNodeId cid) ≠ 0 → (map cid).eligible = true →
    Drained E s cid → E.offer s cid = .ok s' → AllLeave map s' rest →
    AllLeave map s (cid :: rest)

/-- A connection that is removed is in the list, and no connection is active after a round. -/
def Event.Ok (d : LteDrr) : Event → Prop
  | .removeActiveConnection cid => d.activeList.list = [] ∨ cid ∈ d.activeList.list
  | .schedule E enb => AllLeave E d.drrMap enb.1 d.activeList.rotation
  | _ => True

/-! ### A round -/

variable {E enb d} {s s' : LteSchedulerEnb} {cid : MacCid} {g : Grant} {r r' : DrrRound}

/-- A drained connection is no longer active, and the loop goes on. -/
theorem drained_grant (hreg : E.binder.getOmnetId (MacCidToNodeId cid) ≠ 0)
    (ho : E.Outcome s cid s' g) (h : Drained E s cid) : g.active = false ∧ g.terminate = false := by
  obtain ⟨hspace, hcws, hharq, b, hb, hall⟩ := h
  cases ho with
  | stale h₀ => exact absurd h₀ hreg
  | ended _ h₀ => exact absurd h₀ hspace
  | busy _ _ h₀ => omega
  | notEligible _ _ _ h₀ => exact absurd hharq h₀
  | empty => exact ⟨rfl, rfl⟩
  | booked _ _ _ _ hb' hocc =>
    rw [hb] at hb'
    cases hb'
    refine ⟨?_, rfl⟩
    rw [hall.resolve_left hocc]
    rfl

/-- **A round in which all the connections leave** ends with an empty list. -/
theorem rounds_allLeave {map : MacCid → DrrDesc} {todo : List MacCid} {n : ℕ}
    (h : AllLeave E map r.enb todo) (hwf : r.enb.allocator.Wf) (hring : r.list.Ring)
    (hrot : r.list.rotation = todo) (hnodup : todo.Nodup) (hel : todo.length ≤ r.eligible)
    (hmap : ∀ c ∈ todo, r.map c = map c) (hr : E.rounds n r = .ok r') :
    r'.list.list = [] ∧ r'.list.Ring := by
  induction todo generalizing n r with
  -- all have been visited
  | nil =>
    have hover : r.finished = true := decide_eq_true (.inl (hring.size_eq_zero.2 hrot))
    obtain ⟨-, rfl⟩ | ⟨hno, -⟩ := SchedulerEnv.rounds_cases hr
    · have hlen := CircularList.length_rotation (l := r'.list)
      rw [hrot] at hlen
      exact ⟨List.length_eq_zero_iff.1 hlen.symm, hring⟩
    · rw [hover] at hno
      cases hno
  | cons cid rest ih =>
    rw [List.length_cons] at hel
    obtain ⟨hnot, hnodup'⟩ := List.nodup_cons.1 hnodup
    obtain ⟨hover, -⟩ | ⟨-, m, r₁, stop, -, hvisit, hr⟩ := SchedulerEnv.rounds_cases hr
    · -- while a connection is to be visited the round goes on
      have hsize : r.list.size ≠ 0 := fun h₀ => by
        rw [hring.size_eq_zero, hrot] at h₀
        cases h₀
      have := of_decide_eq_true hover
      omega
    have hmap' : ∀ c ∈ rest, r.map c = map c := fun c hc => hmap c (List.mem_cons_of_mem _ hc)
    cases h with
    -- the UE has left, and its connection is dropped
    | stale hreg hrest =>
      rcases SchedulerEnv.visit_cases hring hrot hvisit with ⟨-, rfl, rfl⟩ | ⟨hreg', -⟩ |
        ⟨hreg', -⟩
      · obtain ⟨hf, -⟩ | ⟨-, hr⟩ := hr
        · cases hf
        exact ih (r := { r with list := r.list.erase, temp := r.temp.erase cid }) hrest hwf
          hring.erase (hring.rotation_erase hrot) hnodup' (by simp only; omega) hmap' hr
      · exact absurd hreg hreg'
      · exact absurd hreg hreg'
    -- the queue has been drained, and the connection leaves the list
    | @drained _ s' _ _ hreg helig hdrained hoffer hrest =>
      rcases SchedulerEnv.visit_cases hring hrot hvisit with ⟨hreg', -⟩ | ⟨-, hinel, -⟩ |
        ⟨-, -, enb, g, hgrant, rfl, rfl⟩
      · exact absurd hreg' hreg
      · rw [hmap cid (List.mem_cons_self ..), helig] at hinel
        cases hinel
      · obtain ⟨g', hgrant'⟩ := SchedulerEnv.offer_eq_ok.1 hoffer
        obtain ⟨rfl, rfl⟩ : s' = enb ∧ g' = g :=
          Prod.mk.inj (Except.ok.inj (hgrant'.symm.trans hgrant))
        have ho := SchedulerEnv.requestGrant_outcome hgrant
        obtain ⟨ha, ht⟩ := drained_grant hreg ho hdrained
        obtain ⟨hf, -⟩ | ⟨-, hr⟩ := hr
        · rw [ht] at hf
          cases hf
        have hlist : (r.settle cid s' g').list = r.list.erase := by simp [DrrRound.settle, ha]
        refine ih (r := r.settle cid s' g') hrest (ho.wf hwf).1 (hlist ▸ hring.erase)
          (hlist ▸ hring.rotation_erase hrot) hnodup' ?_ (fun c hc => ?_) hr
        · simp only [DrrRound.settle, ha, or_true, if_true]
          omega
        · have hne : c ≠ cid := fun hcid => hnot (hcid ▸ hc)
          rw [SchedulerEnv.settle_map_ne hne]
          exact hmap' c hc

/-- The temporary set never gets an element. -/
theorem rounds_temp {n : ℕ} (hwf : r.enb.allocator.Wf) (hring : r.list.Ring) (h₀ : r.temp = ∅)
    (hr : E.rounds n r = .ok r') : r'.temp = ∅ := by
  have hkeep := SchedulerEnv.rounds_induction
    (I := fun r => r.enb.allocator.Wf ∧ r.list.Ring ∧ r.temp = ∅) ⟨hwf, hring, h₀⟩ ?_ hr
  · exact hkeep.2.2
  rintro r r₁ stop ⟨hwf, hring, h₀⟩ hover hvisit
  obtain ⟨hwf', hring', -⟩ := SchedulerEnv.visit_kept hwf hring hover hvisit
  refine ⟨hwf', hring', ?_⟩
  obtain ⟨cid, rest, hrot⟩ := SchedulerEnv.exists_rotation hring hover
  rcases SchedulerEnv.visit_cases hring hrot hvisit with ⟨-, -, rfl⟩ | ⟨-, -, -, rfl⟩ |
    ⟨-, -, enb, g, -, -, rfl⟩
  · simp [h₀]
  · exact h₀
  · simp only [DrrRound.settle]
    split <;> simp [h₀]

/-! ### A run -/

/-- The mirror, with what it needs. -/
structure Inv (d : LteDrr) : Prop extends Mirror d where
  ring : d.activeList.Ring
  temp : d.activeConnectionTempSet = ∅

theorem inv_initial : Inv {} where
  mem_iff _ := by simp
  nodup := List.nodup_nil
  ring := CircularList.ring_empty
  temp := rfl

theorem Inv.notifyActiveConnection (h : Inv d) (cid : MacCid) :
    Inv (d.notifyActiveConnection cid) := by
  have hfind := h.ring.find_eq cid
  by_cases hin : cid ∈ d.activeList.list
  · have hl : (d.notifyActiveConnection cid).activeList = d.activeList := by
      simp [LteDrr.notifyActiveConnection, hfind.2 hin]
    refine ⟨⟨fun c => ?_, hl ▸ h.nodup⟩, hl ▸ h.ring, h.temp⟩
    rw [hl]
    simp only [LteDrr.notifyActiveConnection, Finset.mem_insert, h.mem_iff]
    exact or_iff_right_of_imp fun hc => hc ▸ hin
  · have hl : (d.notifyActiveConnection cid).activeList = d.activeList.insert cid := by
      have hf : d.activeList.find cid = false := by simpa using mt hfind.1 hin
      simp [LteDrr.notifyActiveConnection, hf]
    refine ⟨⟨fun c => ?_, hl ▸ h.ring.nodup_insert h.nodup hin⟩, hl ▸ h.ring.insert cid, h.temp⟩
    rw [hl, h.ring.mem_insert]
    simp only [LteDrr.notifyActiveConnection, Finset.mem_insert, h.mem_iff]
    exact or_comm

/-- A connection that is in the list can be removed. -/
theorem Inv.removeActiveConnection (h : Inv d) (hcid : cid ∈ d.activeList.list) :
    ∃ d', d.removeActiveConnection cid = some d' ∧ Inv d' ∧
      ∀ c, c ∈ d'.activeList.list ↔ c ∈ d.activeList.list ∧ c ≠ cid := by
  obtain ⟨l, hl, hring, hlist⟩ := h.ring.eraseElem hcid
  have hmem : ∀ c, c ∈ l.list ↔ c ∈ d.activeList.list ∧ c ≠ cid := fun c => by
    rw [hlist, h.nodup.mem_erase_iff, and_comm]
  refine ⟨{ d with activeList := l, activeConnectionSet := d.activeConnectionSet.erase cid },
    by rw [LteDrr.removeActiveConnection, hl]; rfl, ⟨⟨fun c => ?_, ?_⟩, hring, h.temp⟩, hmem⟩
  · rw [Finset.mem_erase, h.mem_iff, hmem, and_comm]
  · exact hlist ▸ h.nodup.erase cid

theorem Inv.removeActiveConnection_of_empty (h : Inv d) (hempty : d.activeList.list = []) :
    ∃ d', d.removeActiveConnection cid = some d' ∧ Inv d' := by
  have hsize : d.activeList.size = 0 := by rw [h.ring.size_eq, hempty]; rfl
  have hl : d.activeList.eraseElem cid = some d.activeList := by
    rw [CircularList.eraseElem, if_pos (.inl hsize)]
  refine ⟨{ d with activeConnectionSet := d.activeConnectionSet.erase cid },
    by rw [LteDrr.removeActiveConnection, hl]; rfl, ⟨⟨fun c => ?_, h.nodup⟩, h.ring, h.temp⟩⟩
  rw [Finset.mem_erase, h.mem_iff]
  refine and_iff_right_of_imp fun hc => ?_
  rw [hempty] at hc
  cases hc

/-- Connections of the list can be removed one after the other. -/
theorem Inv.removeAll {cs : List MacCid} (h : Inv d) (hcs : cs.Nodup)
    (hmem : ∀ c ∈ cs, c ∈ d.activeList.list) :
    ∃ d', cs.foldlM (fun d cid => LteDrr.removeActiveConnection d cid) d = some d' ∧ Inv d' ∧
      ∀ c, c ∈ d'.activeList.list ↔ c ∈ d.activeList.list ∧ c ∉ cs := by
  induction cs generalizing d with
  | nil => exact ⟨d, rfl, h, fun c => by simp⟩
  | cons cid cs ih =>
    obtain ⟨hnot, hcs⟩ := List.nodup_cons.1 hcs
    obtain ⟨d₁, hd₁, h₁, hmem₁⟩ := h.removeActiveConnection (hmem cid (List.mem_cons_self ..))
    obtain ⟨d', hd', h', hmem'⟩ := ih h₁ hcs fun c hc =>
      (hmem₁ c).2 ⟨hmem c (List.mem_cons_of_mem _ hc), fun heq => hnot (heq ▸ hc)⟩
    refine ⟨d', ?_, h', fun c => ?_⟩
    · rw [List.foldlM_cons, hd₁]
      exact hd'
    · rw [hmem', hmem₁, List.mem_cons, not_or, and_assoc]

theorem Inv.mem_connectionsOf (h : Inv d) {nodeId : MacNodeId} :
    cid ∈ d.connectionsOf nodeId ↔ cid ∈ d.activeList.list ∧ MacCidToNodeId cid = nodeId := by
  rw [connectionsOf, List.mem_filter, Finset.mem_sort, h.mem_iff, beq_iff_eq]

theorem nodup_connectionsOf (d : LteDrr) (nodeId : MacNodeId) :
    (d.connectionsOf nodeId).Nodup := (Finset.sort_nodup _ _).filter _

theorem Inv.removeActiveConnections (h : Inv d) (nodeId : MacNodeId) :
    ∃ d', d.removeActiveConnections nodeId = some d' ∧ Inv d' ∧
      ∀ c ∈ d'.activeList.list, MacCidToNodeId c ≠ nodeId := by
  obtain ⟨d', hd', h', hmem⟩ := h.removeAll (nodup_connectionsOf d nodeId) fun c hc =>
    (h.mem_connectionsOf.1 hc).1
  refine ⟨d', hd', h', fun c hc hnode => ?_⟩
  obtain ⟨hin, hout⟩ := (hmem c).1 hc
  exact hout (h.mem_connectionsOf.2 ⟨hin, hnode⟩)

theorem Inv.cleansUp (h : Inv d) (nodeId : MacNodeId) : d.CleansUp nodeId where
  present pre cid post hsplit := by
    have hnodup := hsplit ▸ nodup_connectionsOf d nodeId
    have hin : ∀ c ∈ pre ++ cid :: post, c ∈ d.activeList.list := fun c hc =>
      (h.mem_connectionsOf.1 (hsplit ▸ hc)).1
    obtain ⟨d₁, hd₁, -, hmem⟩ := h.removeAll (List.nodup_append.1 hnodup).1 fun c hc =>
      hin c (List.mem_append_left _ hc)
    refine ⟨d₁, hd₁, (hmem cid).2 ⟨hin cid (by simp), fun hc => ?_⟩⟩
    exact (List.nodup_append.1 hnodup).2.2 cid hc cid (List.mem_cons_self ..) rfl
  gone := by
    obtain ⟨d', hd', -, hgone⟩ := h.removeActiveConnections nodeId
    exact ⟨d', hd', hgone⟩

/-- After a round the set is empty; the mirror is right if the list is, too. -/
theorem Inv.schedule {d' : LteDrr} (h : Inv d) (hwf : enb.allocator.Wf)
    (hleave : AllLeave E d.drrMap enb d.activeList.rotation)
    (hd : d.schedule E enb = some d') : Inv d' := by
  unfold LteDrr.schedule at hd
  split at hd
  · cases hd
  · rename_i d₁ enb' calls hprep
    cases hd
    obtain ⟨r, hr, -, -, rfl⟩ := prepareSchedule_eq_ok hprep
    obtain ⟨hempty, hring⟩ := rounds_allLeave (r := d.start enb) hleave hwf h.ring rfl
      (CircularList.nodup_rotation.2 h.nodup)
      (by simp [LteDrr.start, h.ring.size_eq]) (fun _ _ => rfl) hr
    have htemp := rounds_temp (r := d.start enb) hwf h.ring h.temp hr
    refine ⟨⟨fun c => ?_, ?_⟩, hring, htemp⟩
    · simp [commitSchedule, hempty, htemp]
    · simp [commitSchedule, hempty]

/-- **The set mirrors the list and the clean-up works**, in every state of a run in which no
connection stays active over a round. -/
theorem mirror_kept {es : List Event} {os : List Empty} (hrun : machine.exec {} es = some (d, os))
    (hok : ∀ s e s' o, machine.Takes {} es s e s' o → e.Ok s) :
    Mirror d ∧ ∀ nodeId, d.CleansUp nodeId := by
  have hinv : Inv d := by
    refine Machine.exec_induction_of (C := fun s e => Event.Ok s e) (J := fun _ d _ => Inv d)
      inv_initial ?_ hok hrun
    intro es d os e d' o _ ih hC hst
    cases e with
    | notifyActiveConnection cid =>
      cases hst
      exact ih.notifyActiveConnection cid
    | removeActiveConnection cid =>
      obtain ⟨d₁, hd₁, hst⟩ := Option.map_eq_some_iff.1 hst
      cases hst
      obtain ⟨d₂, hd₂, h₂⟩ : ∃ d₂, d.removeActiveConnection cid = some d₂ ∧ Inv d₂ := by
        rcases hC with hempty | hin
        · exact ih.removeActiveConnection_of_empty hempty
        · obtain ⟨d₂, hd₂, h₂, -⟩ := ih.removeActiveConnection hin
          exact ⟨d₂, hd₂, h₂⟩
      rw [hd₁] at hd₂
      cases hd₂
      exact h₂
    | updateSchedulingInfo E enb =>
      cases hst
      exact ⟨⟨ih.mem_iff, ih.nodup⟩, ih.ring, ih.temp⟩
    | schedule E enb =>
      obtain ⟨d₁, hd₁, hst⟩ := Option.map_eq_some_iff.1 hst
      cases hst
      exact ih.schedule enb.2 hC hd₁
    | removeActiveConnections nodeId =>
      obtain ⟨d₁, hd₁, hst⟩ := Option.map_eq_some_iff.1 hst
      cases hst
      obtain ⟨d₂, hd₂, h₂, -⟩ := ih.removeActiveConnections nodeId
      rw [hd₁] at hd₂
      cases hd₂
      exact h₂
  exact ⟨hinv.toMirror, hinv.cleansUp⟩

/-- With an empty set nothing is cleaned up. -/
theorem removeActiveConnections_of_empty (h : d.activeConnectionSet = ∅) {nodeId : MacNodeId} :
    d.removeActiveConnections nodeId = some d := by
  simp [removeActiveConnections, connectionsOf, h]

/-! ### One queue -/

/-- `n` free blocks, and a queue of 500 bytes for the connection `1` of the UE `1025`. -/
def fiveHundred (n : ℕ) : { s : LteSchedulerEnb // s.allocator.Wf } :=
  ⟨{ allocator := .initAndReset n 1
     vbuf := fun cid => if cid = SchedulerEnv.cidOf 1025 1 then some ⟨[500]⟩ else none },
    LteAllocationModule.wf_initAndReset n 1⟩

/-- The connection becomes active and a round is scheduled. -/
def oneSchedule (n : ℕ) : List Event :=
  [.notifyActiveConnection (SchedulerEnv.cidOf 1025 1),
    .updateSchedulingInfo SchedulerEnv.twoUes (fiveHundred n).1,
    .schedule SchedulerEnv.twoUes (fiveHundred n)]

/-- Ten blocks hold the whole queue. -/
theorem oneSchedule_ok : machine.Meets (fun d e => e.Ok d) {} (oneSchedule 10) := by
  refine ⟨trivial, trivial, ?_, trivial⟩
  exact AllLeave.drained (by decide) (by decide)
    ⟨fun h => absurd h.1 (by decide), by decide, rfl, ⟨[500]⟩, rfl, .inr (by decide)⟩ rfl .nil

theorem mirror_kept_oneSchedule : ∃ d os, machine.exec {} (oneSchedule 10) = some (d, os) ∧
    Mirror d ∧ ∀ nodeId, d.CleansUp nodeId := by
  have hrun : machine.exec {} (oneSchedule 10) = some (_, _) := rfl
  exact ⟨_, _, hrun, mirror_kept hrun fun s e s' o ht => oneSchedule_ok.takes ht⟩

/-- **A connection that is served in part falls out of the mirror**, so that the clean-up leaves it
in the list. -/
theorem stays_behind : ∃ d os, machine.exec {} (oneSchedule 1) = some (d, os) ∧
    d.activeConnectionSet = ∅ ∧ d.activeList.list = [SchedulerEnv.cidOf 1025 1] ∧ ¬Mirror d ∧
      ¬d.CleansUp 1025 := by
  have hrun : machine.exec {} (oneSchedule 1) = some (_, _) := rfl
  refine ⟨_, _, hrun, rfl, by decide, fun h => ?_, fun h => ?_⟩
  · exact absurd ((h.mem_iff (SchedulerEnv.cidOf 1025 1)).2 (by decide)) (Finset.notMem_empty _)
  · obtain ⟨d', hd', hgone⟩ := h.gone
    rw [removeActiveConnections_of_empty rfl] at hd'
    obtain rfl := Option.some.inj hd'
    exact hgone (SchedulerEnv.cidOf 1025 1) (by decide) (by decide)

end LteDrr

end V2nLte
