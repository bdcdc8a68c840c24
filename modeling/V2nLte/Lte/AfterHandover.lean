import V2nLte.Lte.UserFlows

/-!
# After a handover

Only registering a node enters a UE into the table of the binder, and a handover takes it out.  From
its first handover on PHY of every eNB deletes the frames of the UE, PDCP of the UE sends to the
node 0, and so does PDCP of the eNBs with what they have for the UE.

* `Routed.not_hears` : no one takes a frame to or from a UE that is not in the table.
* `nothing_after_handover` : nothing comes up at either end any more, in any run.
-/

namespace V2nLte

namespace UserPlane

/-- A receiver has been handed something on the connection. -/
def Out.Received (c : UmConnection) : Out → Prop
  | .arrived info _ => info.conn = c
  | .up info _ => info.conn = c
  | _ => False

section Silence

variable {P : UserPlaneParams} {s s' : UserPlane} {os o : List Out} {c : UmConnection}
  {info : ConnectionInfo} {e : Event} {ue : MacNodeId}

/-- No one takes a frame to or from a UE that is not in the table of the binder. -/
theorem Routed.not_hears {cells : Cells} (hr : Routed cells info)
    (hue : getNodeTypeById ue = .UE) (hnext : cells.nextHop ue = 0)
    (h : info.sourceId = ue ∨ info.destId = ue) : ¬hears cells info = true := by
  rw [hr.hears_iff]
  intro hends
  rcases h with rfl | rfl
  · rw [← hr.next_of_source hue, hnext, getNodeTypeById_zero] at hends
    rcases hends with ⟨-, hd⟩ | ⟨-, hd⟩ <;> cases hd
  · rw [← hr.next_of_dest hue, hnext, getNodeTypeById_zero] at hends
    rcases hends with ⟨hs, -⟩ | ⟨hs, -⟩ <;> cases hs

/-- What a step can do: a handover takes its UE out of the table, any other step leaves the table
alone, and a receiver only gets what PHY has taken. -/
theorem Placed.step_cases (h : Placed s) (hst : (machine P).step s e = some (s', o)) :
    (∃ ue, o = [.deleted ue] ∧ s'.cells.nextHop = Function.update s.cells.nextHop ue 0) ∨
    s'.cells = s.cells ∧ ∀ x ∈ o, (∀ ue, x ≠ .deleted ue) ∧ ∀ c, x.Received c →
      ∃ info, info.conn = c ∧ Routed s.cells info ∧ hears s.cells info = true := by
  have hen := enabled_of_step hst
  rw [show (machine P).step s e = _ from dif_pos hen] at hst
  cases e with
  | fromDataPort nodeId pkt =>
    change UserPlane.fromDataPort P s nodeId pkt = _ at hst
    unfold UserPlane.fromDataPort at hst
    split at hst
    · cases hst
    · dsimp only at hst
      split at hst
      · cases hst
      · obtain ⟨rfl, rfl⟩ := Prod.mk.inj (Option.some.inj hst)
        refine .inr ⟨rfl, fun x hx => ?_⟩
        rw [List.mem_singleton.1 hx]
        split <;> exact ⟨fun ue heq => (by cases heq), fun c hrec => False.elim hrec⟩
  | sduRequest nodeId cid size =>
    change UserPlane.sduRequest P s nodeId cid size = _ at hst
    unfold UserPlane.sduRequest at hst
    split at hst
    · cases hst
    · dsimp only at hst
      split at hst
      · cases hst
      · obtain ⟨rfl, rfl⟩ := Prod.mk.inj (Option.some.inj hst)
        refine .inr ⟨rfl, fun x hx => ?_⟩
        obtain ⟨frame, -, rfl⟩ := List.mem_map.1 hx
        exact ⟨fun ue heq => (by cases heq), fun c hrec => False.elim hrec⟩
  | arrive frame =>
    change UserPlane.arrive P s frame = _ at hst
    unfold UserPlane.arrive at hst
    split at hst
    · rename_i hhears
      split at hst
      · cases hst
      · obtain ⟨rfl, rfl⟩ := Prod.mk.inj (Option.some.inj hst)
        refine .inr ⟨rfl, fun x hx => ?_⟩
        have hr := h.air frame hen
        rcases List.mem_cons.1 hx with rfl | hx
        · exact ⟨fun ue heq => (by cases heq), fun c hrec => ⟨frame.1, hrec, hr, hhears⟩⟩
        · obtain ⟨sdu, -, rfl⟩ := List.mem_map.1 hx
          exact ⟨fun ue heq => (by cases heq), fun c hrec => ⟨frame.1, hrec, hr, hhears⟩⟩
    · -- PHY deletes the frame
      obtain ⟨rfl, rfl⟩ := Prod.mk.inj (Option.some.inj hst)
      exact .inr ⟨rfl, fun x hx => by cases hx⟩
  | timer nodeId cid =>
    -- an entity is only made for a connection that PHY hears
    change UserPlane.timer s nodeId cid = _ at hst
    obtain ⟨⟨i, u⟩, hfind, -⟩ := hen
    obtain ⟨-, hr, hhears, -⟩ := h.rx _ _ _ _ hfind
    rw [UserPlane.timer, LteRlcUm.handleTimer_eq hfind] at hst
    cases htimer : u.handleTimer with
    | error err =>
      rw [htimer] at hst
      cases hst
    | ok r =>
      rw [htimer] at hst
      obtain ⟨rfl, rfl⟩ := Prod.mk.inj (Option.some.inj hst)
      refine .inr ⟨rfl, fun x hx => ?_⟩
      obtain ⟨sdu, -, rfl⟩ := List.mem_map.1 hx
      exact ⟨fun ue heq => (by cases heq), fun c hrec => ⟨i, hrec, hr, hhears⟩⟩
  | handover ue enb =>
    obtain ⟨rfl, rfl⟩ := Prod.mk.inj (Option.some.inj hst)
    exact .inl ⟨ue, rfl, rfl⟩

theorem foldl_add_of_not_received (h : ∀ x ∈ o, ¬x.Received c) (l : Log) (harrived : l.arrived = [])
    (hup : l.up = []) :
    (o.foldl (Log.add c) l).arrived = [] ∧ (o.foldl (Log.add c) l).up = [] := by
  induction o generalizing l with
  | nil => exact ⟨harrived, hup⟩
  | cons x o ih =>
    have hx : (Log.add c l x).arrived = [] ∧ (Log.add c l x).up = [] := by
      have hnot := h x List.mem_cons_self
      cases x with
      | taken info flow sdu =>
        rw [Log.add]
        split <;> exact ⟨harrived, hup⟩
      | dropped => exact ⟨harrived, hup⟩
      | sent info pdu =>
        rw [Log.add]
        split <;> exact ⟨harrived, hup⟩
      | arrived info pdu =>
        have hne : info.conn ≠ c := hnot
        rw [Log.add, if_neg hne]
        exact ⟨harrived, hup⟩
      | up info sdu =>
        have hne : info.conn ≠ c := hnot
        rw [Log.add, if_neg hne]
        exact ⟨harrived, hup⟩
      | deleted ue =>
        rw [Log.add]
        split
        · exact ⟨rfl, rfl⟩
        · exact ⟨harrived, hup⟩
    rw [List.foldl_cons]
    exact ih (fun y hy => h y (List.mem_cons_of_mem x hy)) _ hx.1 hx.2

/-- A UE that has been handed over is not in the table of the binder, and nothing has come of what
goes to or from it. -/
def Silent (ue : MacNodeId) (s : UserPlane) (os : List Out) : Prop :=
  .deleted ue ∈ os → s.cells.nextHop ue = 0 ∧ ∀ c : UmConnection, c.source = ue ∨ c.dest = ue →
    (logOf c os).arrived = [] ∧ (logOf c os).up = []

theorem Silent.step (hs : Silent ue s os) (h : Placed s) (hue : getNodeTypeById ue = .UE)
    (hst : (machine P).step s e = some (s', o)) : Silent ue s' (os ++ o) := by
  intro hmem
  -- unless this is its handover, the UE is out of the table, and no one gets anything of it
  have hbefore : (∀ c : UmConnection, ∀ x ∈ o, x.Received c →
      ∃ info, info.conn = c ∧ Routed s.cells info ∧ hears s.cells info = true) →
      .deleted ue ∉ o → s.cells.nextHop ue = 0 ∧
        ∀ c : UmConnection, c.source = ue ∨ c.dest = ue →
          (logOf c (os ++ o)).arrived = [] ∧ (logOf c (os ++ o)).up = [] := by
    intro hheard hnot
    obtain ⟨hnext, hlog⟩ := hs ((List.mem_append.1 hmem).resolve_right hnot)
    refine ⟨hnext, fun c hc => ?_⟩
    rw [logOf_append]
    refine foldl_add_of_not_received (fun x hx hrec => ?_) _ (hlog c hc).1 (hlog c hc).2
    obtain ⟨info, rfl, hr, hhears⟩ := hheard c x hx hrec
    exact hr.not_hears hue hnext hc hhears
  rcases h.step_cases hst with ⟨ue', rfl, hnext⟩ | ⟨hcells, hout⟩
  · by_cases heq : ue' = ue
    · subst heq
      refine ⟨hnext ▸ Function.update_self .., fun c hc => ?_⟩
      rw [logOf_deleted hc]
      exact ⟨rfl, rfl⟩
    · rw [hnext, Function.update_of_ne (Ne.symm heq)]
      refine hbefore (fun c x hx hrec => ?_) fun hmem => heq ?_
      · rw [List.mem_singleton.1 hx] at hrec
        exact False.elim hrec
      · cases List.mem_singleton.1 hmem
        rfl
  · rw [hcells]
    exact hbefore (fun c x hx hrec => (hout x hx).2 c hrec) fun hmem => (hout _ hmem).1 ue rfl

end Silence

/-- **A handover is the end of the user plane of a UE**: in no run does anything that is sent to or
from a UE after its first handover reach a receiver. -/
theorem nothing_after_handover (P : UserPlaneParams)
    (hmap : P.um.mapAllLcidsToSingleBearer = false) (cells : Cells) {es : List Event}
    {s : UserPlane} {os : List Out} (hrun : (machine P).exec (initial cells) es = some (s, os))
    (hok : ∀ s e s' o, (machine P).Takes (initial cells) es s e s' o → e.Ok P s)
    {ue : MacNodeId} (hue : getNodeTypeById ue = .UE) (hdeleted : .deleted ue ∈ os)
    (c : UmConnection) (hc : c.source = ue ∨ c.dest = ue) :
    (logOf c os).arrived = [] ∧ (logOf c os).up = [] := by
  have hinv : Inv P s os ∧ Silent ue s os :=
    Machine.exec_induction_of (J := fun _ s os => Inv P s os ∧ Silent ue s os)
      ⟨inv_initial P cells, fun hmem => nomatch hmem⟩
      (fun _ _ _ _ _ _ _ hinv hok hst =>
        ⟨(hinv.1.step hmap (enabled_of_step hst) hok).1 _ _ hst,
          hinv.2.step hinv.1.placed hue hst⟩)
      hok hrun
  exact (hinv.2 hdeleted).2 c hc

theorem nothing_after_handover_moving : ∃ s os,
    (machine smallParams).exec (initial firstCell) movingRun = some (s, os) ∧
      (logOf (uplinkInfo 0).conn os).sent = [packetPdu 3 0] ∧
      (logOf (uplinkInfo 0).conn os).arrived = [] := by
  have hlog : ((machine smallParams).exec (initial firstCell) movingRun).map
      (fun r => ((logOf (uplinkInfo 0).conn r.2).sent,
        r.2.any fun | .deleted ue => decide (ue = 1025) | _ => false)) =
        some ([packetPdu 3 0], true) := by decide +kernel
  obtain ⟨⟨s, os⟩, hrun, hlog⟩ := Option.map_eq_some_iff.1 hlog
  obtain ⟨hsent, hdeleted⟩ := Prod.mk.inj hlog
  have hdeleted : .deleted 1025 ∈ os := by
    obtain ⟨x, hx, hdel⟩ := List.any_eq_true.1 hdeleted
    cases x with
    | deleted ue => exact of_decide_eq_true hdel ▸ hx
    | _ => cases hdel
  exact ⟨s, os, hrun, hsent, (nothing_after_handover smallParams rfl firstCell hrun
    (fun s e s' o ht => meets_movingRun.takes ht) (by decide : getNodeTypeById 1025 = .UE) hdeleted
    (uplinkInfo 0).conn (.inl rfl)).1⟩

end UserPlane

end V2nLte
