import V2nLte.Lte.Unregister
import V2nLte.Rlc.UmWindow

/-!
# Mode switches at the receiving side of RLC UM

When two UEs start or stop to talk to each other directly, the entity of the old connection and
that of the new one are told so by `rlcHandleD2DModeSwitch`.  The new connection is numbered from
`0` again, so nothing of the old numbering may be left then: no PDU in the window, no SDU that
waits for its missing part, and no running timer.

The entity of the old connection takes care of that (`window_clearBuffers`), but only if it is
told to clear its buffers, and never on the downlink leg at a UE.  The entity of the new
connection only starts its window again.

* `UmRxEntity.switch_iff` : in a run in which every new connection starts from a clean entity, the
  window is in order, and a switch leaves nothing behind iff it finds a clean entity, too.
* `UmRxEntity.dirty_switch` : a run in which something of everything is left.
-/

namespace V2nLte

namespace UmRxEntity

/-- Forget the PDUs of the window and the SDU that waits for its missing part, and stop
t-reordering. -/
def clearBuffers (s : UmRxEntity) : UmRxEntity :=
  { s with
    pduBuffer := fun _ => none
    received := s.received.map fun _ => false
    buffered := none
    tReordering := false }

/-- A D2D mode switch: `oldConnection` says whether this is the entity of the connection that is
given up. -/
def rlcHandleD2DModeSwitch (s : UmRxEntity) (ownerNodeId : MacNodeId) (oldConnection : Bool)
    (oldMode : LteD2DMode) (clearBuffer : Bool) : Except RxError (UmRxEntity × List RlcSdu) :=
  if oldConnection then
    -- there is nothing to do for the downlink leg
    if getNodeTypeById ownerNodeId = .UE ∧ oldMode = .IM then .ok (s, [])
    else if clearBuffer then do
      let (s, out) ← reassembleRange 0 s.rxWindowDesc.windowSize s
      .ok (s.clearBuffers, out)
    else .ok (s, [])
  else .ok ({ s with rxWindowDesc := s.rxWindowDesc.clear 0, resetFlag := true }, [])

/-- What can happen to an entity that takes part in mode switches. -/
inductive Action where
  | event (e : Event)
  | switch (oldConnection : Bool) (oldMode : LteD2DMode) (clearBuffer : Bool)

/-- The handler of an action. -/
def handleAction (ownerNodeId : MacNodeId) (s : UmRxEntity) :
    Action → Except RxError (UmRxEntity × List RlcSdu)
  | .event e => s.handle e
  | .switch old oldMode clear => s.rlcHandleD2DModeSwitch ownerNodeId old oldMode clear

/-- The action can happen now. -/
def Action.Enabled (s : UmRxEntity) : Action → Prop
  | .event e => e.Enabled s
  | .switch _ _ _ => True

instance (s : UmRxEntity) (a : Action) : Decidable (a.Enabled s) := by
  cases a <;> unfold Action.Enabled <;> infer_instance

/-- The entity with mode switches as a machine; an exception ends the run. -/
def d2dMachine (ownerNodeId : MacNodeId) : Machine UmRxEntity Action RlcSdu where
  step s a := if a.Enabled s then (s.handleAction ownerNodeId a).toOption else none

/-- Nothing is left of the current numbering. -/
structure Clean (s : UmRxEntity) : Prop where
  received : ∀ i : ℕ, s.received[i]? ≠ some true
  buffered : s.buffered = none
  timer : s.tReordering = false

theorem clean_iff (s : UmRxEntity) :
    s.Clean ↔ true ∉ s.received ∧ s.buffered.isNone = true ∧ s.tReordering = false := by
  rw [Option.isNone_iff_eq_none, List.mem_iff_getElem?, not_exists]
  exact ⟨fun h => ⟨h.received, h.buffered, h.timer⟩, fun h => ⟨h.1, h.2.1, h.2.2⟩⟩

instance (s : UmRxEntity) : Decidable s.Clean := decidable_of_iff' _ s.clean_iff

/-- Every arrival is admissible, and every new connection starts from a clean entity. -/
def Action.Ok (s : UmRxEntity) : Action → Prop
  | .event e => e.Ok s
  | .switch old _ _ => old = false → s.Clean

instance (s : UmRxEntity) : (e : Event) → Decidable (e.Ok s)
  | .arrive pdu => inferInstanceAs (Decidable (s.Admissible pdu.pduSequenceNumber))
  | .expire => inferInstanceAs (Decidable True)

instance (s : UmRxEntity) (a : Action) : Decidable (a.Ok s) := by
  cases a <;> unfold Action.Ok <;> infer_instance

/-- The window is in order, and what it holds is not beyond VR(UH) and still waits to be passed. -/
structure Consistent (s : UmRxEntity) : Prop extends WindowOk s where
  /-- A PDU in the window is from VR(UR) on and below VR(UH). -/
  inside : ∀ i : ℕ, s.received[i]? = some true →
    s.rxWindowDesc.firstSnoForReordering ≤ s.rxWindowDesc.firstSno + i ∧
      s.rxWindowDesc.firstSno + i < s.rxWindowDesc.highestReceivedSno

/-- The switch ends the current numbering: it starts the window again or clears the buffers. -/
def EndsNumbering (ownerNodeId : MacNodeId) (old : Bool) (oldMode : LteD2DMode) (clear : Bool) :
    Prop :=
  old = true → ¬(getNodeTypeById ownerNodeId = .UE ∧ oldMode = .IM) ∧ clear = true

/-- What a switch should leave behind: a window in order and, if it ends a numbering, no part of
an SDU of the old numbering and no timer that was started for it. -/
structure SwitchedOver (ownerNodeId : MacNodeId) (old : Bool) (oldMode : LteD2DMode) (clear : Bool)
    (s' : UmRxEntity) : Prop where
  /-- The window is in order. -/
  consistent : s'.Consistent
  /-- A new numbering begins without a part of an SDU. -/
  buffered : EndsNumbering ownerNodeId old oldMode clear → s'.buffered = none
  /-- And it begins without a timer. -/
  timer : EndsNumbering ownerNodeId old oldMode clear → s'.tReordering = false

section

variable {known : UmDataPdu → Prop} {s : UmRxEntity} {ownerNodeId : MacNodeId}

theorem Window.consistent (hw : Window known s) : s.Consistent := by
  refine ⟨hw.ok, fun i hi => ?_⟩
  obtain ⟨p, hp⟩ := Option.isSome_iff_exists.1 ((hw.slots.held i).1 hi)
  exact (hw.slots.pdu i p hp).2.2.2

theorem clearBuffers_received (i : ℕ) : s.clearBuffers.received[i]? ≠ some true := by
  unfold clearBuffers
  simp [List.getElem?_replicate]

theorem window_clearBuffers {r : UmRxEntity} (hw : Window known s) (hf : Frame s r) :
    Window known r.clearBuffers := by
  have hwin : r.clearBuffers.rxWindowDesc = s.rxWindowDesc := hf.window
  have hlen : r.clearBuffers.received.length = s.received.length := by
    rw [← hf.length]
    exact List.length_map _
  refine ⟨⟨?_, ?_, fun i => ?_, fun i p hp => ?_⟩, ?_, ?_, ?_, ?_, fun h => ?_, fun hm hi => ?_⟩
  · rw [hwin]; exact hw.slots.pos
  · rw [hwin, hlen]; exact hw.slots.le
  · constructor
    · intro h
      exact (clearBuffers_received i h).elim
    · intro h
      cases h
  · cases hp
  · rw [hwin]; exact hw.first_le
  · rw [hwin]; exact hw.le
  · rw [hwin]; exact hw.high_le
  · rw [hwin]; exact hw.lt
  · cases h
  · rw [hwin]
    exact ⟨(hw.fresh (hf.multi.symm.trans hm) (hf.init.symm.trans hi)).1, rfl, fun _ => rfl⟩

/-- A clean entity can be numbered from `0` again. -/
theorem window_restart (hw : Window known s) (hclean : s.Clean) :
    Window known { s with rxWindowDesc := s.rxWindowDesc.clear 0, resetFlag := true } := by
  have hnone : ∀ i, s.pduBuffer i = none := by
    intro i
    cases hb : s.pduBuffer i with
    | none => rfl
    | some p => exact (hclean.received i ((hw.slots.held i).2 (by rw [hb]; rfl))).elim
  refine ⟨⟨hw.slots.pos, hw.slots.le, hw.slots.held, fun i p hp => ?_⟩, le_rfl, le_rfl,
    Nat.zero_le _, Nat.zero_lt_succ _, fun h => ?_, fun _ _ => ⟨rfl, hclean.timer, hnone⟩⟩
  · rw [show _ = none from hnone i] at hp
    cases hp
  · rw [show _ = false from hclean.timer] at h
    cases h

/-- A switch keeps the window in order, if a new connection starts from a clean entity, and it
leaves nothing of a numbering that it ends. -/
theorem switch_spec (ownerNodeId : MacNodeId) (hw : Window (fun _ => True) s) {old : Bool}
    (oldMode : LteD2DMode) (clear : Bool) (hok : old = false → s.Clean) :
    Ensures RxError.OfContents (fun r => Window (fun _ => True) r.1 ∧
        (EndsNumbering ownerNodeId old oldMode clear →
          r.1.buffered = none ∧ r.1.tReordering = false))
      (s.rlcHandleD2DModeSwitch ownerNodeId old oldMode clear) := by
  unfold rlcHandleD2DModeSwitch
  cases old with
  | false =>
    have hclean := hok rfl
    exact ⟨window_restart hw hclean, fun _ => ⟨hclean.buffered, hclean.timer⟩⟩
  | true =>
    rw [if_pos rfl]
    split
    · rename_i hleg
      exact ⟨hw, fun h => ((h rfl).1 hleg).elim⟩
    · split
      · refine Ensures.bind (reassembleRange_spec (D := []) reader_any (fun _ _ _ _ _ => trivial)
          hw.slots ?_ (fun j _ => Nat.zero_le j) (fun _ _ _ _ _ => trivial) trivial) fun r hr => ?_
        · rw [Nat.zero_add]
          exact hw.slots.le
        · exact ⟨window_clearBuffers hw hr.frame, fun _ => ⟨rfl, rfl⟩⟩
      · rename_i hkeep
        exact ⟨hw, fun h => (hkeep (h rfl).2).elim⟩

/-- What an entity that is not clean leaves behind when it is numbered from `0` again. -/
theorem clean_of_restart {oldMode : LteD2DMode} {clear : Bool}
    (h : SwitchedOver ownerNodeId false oldMode clear
      { s with rxWindowDesc := s.rxWindowDesc.clear 0, resetFlag := true }) : s.Clean := by
  have hends : EndsNumbering ownerNodeId false oldMode clear := fun h => (Bool.false_ne_true h).elim
  refine ⟨fun i hi => ?_, h.buffered hends, h.timer hends⟩
  exact Nat.not_lt_zero _ (h.consistent.inside i hi).2

end

/-! ### Whole runs -/

theorem d2d_step_eq_some {ownerNodeId : MacNodeId} {s s' : UmRxEntity} {a : Action}
    {o : List RlcSdu} :
    (d2dMachine ownerNodeId).step s a = some (s', o) ↔
      a.Enabled s ∧ s.handleAction ownerNodeId a = .ok (s', o) := by
  unfold d2dMachine
  dsimp only
  split
  · rename_i hen
    rw [toOption_eq_some]
    simp [hen]
  · rename_i hen
    simp [hen]

theorem window_step {ownerNodeId : MacNodeId} {s s' : UmRxEntity} {a : Action} {o : List RlcSdu}
    (hw : Window (fun _ => True) s) (hok : a.Ok s)
    (hstep : (d2dMachine ownerNodeId).step s a = some (s', o)) : Window (fun _ => True) s' := by
  obtain ⟨hen, hhandle⟩ := d2d_step_eq_some.1 hstep
  cases a with
  | event e =>
    have h := handle_spec (D := []) reader_any (fun _ _ _ _ _ => trivial) hw hen hok
      (fun _ _ => trivial) trivial
    rw [show s.handle e = .ok (s', o) from hhandle] at h
    exact h.1
  | switch old oldMode clear =>
    have h := switch_spec ownerNodeId hw oldMode clear hok
    rw [show s.rlcHandleD2DModeSwitch ownerNodeId old oldMode clear = .ok (s', o) from hhandle]
      at h
    exact h.1

/-- The window after a run in which every new connection starts from a clean entity. -/
theorem window_d2d_run {ownerNodeId : MacNodeId} {W : ℕ} (hpos : 1 ≤ W) (hW : W < 2147483648)
    (multi : Bool) {as : List Action} {s : UmRxEntity} {os : List RlcSdu}
    (hrun : (d2dMachine ownerNodeId).exec (initial W hW multi) as = some (s, os))
    (hok : ∀ s a s' o, (d2dMachine ownerNodeId).Takes (initial W hW multi) as s a s' o → a.Ok s) :
    Window (fun _ => True) s := by
  have hvisits : (d2dMachine ownerNodeId).Visits (initial W hW multi) as s :=
    ⟨as, [], os, (List.append_nil as).symm, hrun⟩
  refine hvisits.invariant (window_initial hpos hW multi) fun s a s' o ht hw => ?_
  have ha := hok s a s' o ht
  obtain ⟨as₁, as₂, os₁, -, -, hstep⟩ := ht
  exact window_step hw ha hstep

/-- **A mode switch leaves the receiver consistent** in a run in which every new connection starts
from a clean entity, and the next switch does so iff it meets the condition, too. -/
theorem switch_iff (ownerNodeId : MacNodeId) {W : ℕ} (hpos : 1 ≤ W) (hW : W < 2147483648)
    (multi : Bool) {as : List Action} {s : UmRxEntity} {os : List RlcSdu}
    (hrun : (d2dMachine ownerNodeId).exec (initial W hW multi) as = some (s, os))
    (hok : ∀ s a s' o, (d2dMachine ownerNodeId).Takes (initial W hW multi) as s a s' o → a.Ok s) :
    s.Consistent ∧ ∀ old oldMode clear s' o,
      (d2dMachine ownerNodeId).step s (.switch old oldMode clear) = some (s', o) →
        (SwitchedOver ownerNodeId old oldMode clear s' ↔
          (Action.switch old oldMode clear).Ok s) := by
  have hw := window_d2d_run hpos hW multi hrun hok
  refine ⟨hw.consistent, fun old oldMode clear s' o hstep => ⟨fun hover => ?_, fun hclean => ?_⟩⟩
  · rintro rfl
    obtain ⟨-, hhandle⟩ := d2d_step_eq_some.1 hstep
    obtain ⟨rfl, -⟩ := Prod.mk.inj (Except.ok.inj hhandle)
    exact clean_of_restart hover
  · obtain ⟨-, hhandle⟩ := d2d_step_eq_some.1 hstep
    have h := switch_spec ownerNodeId hw oldMode clear hclean
    rw [show s.rlcHandleD2DModeSwitch ownerNodeId old oldMode clear = .ok (s', o) from hhandle]
      at h
    exact ⟨h.1.consistent, fun hends => (h.2 hends).1, fun hends => (h.2 hends).2⟩

/-- A PDU with the first half of an SDU. -/
def halfPdu (tsn : ℕ) : UmDataPdu :=
  ⟨tsn, 1, [(RlcSdu.small 1 9, 5)]⟩

theorem switch_iff_cleared :
    ∃ s os, (d2dMachine 1025).exec (initial 16 (by decide) false)
        [.event (.arrive (halfPdu 16)), .event (.arrive (onePdu 18)), .switch true .DM true,
          .switch false .IM true] = some (s, os) ∧ s.Consistent := by
  have hsome : ((d2dMachine 1025).exec (initial 16 (by decide) false)
    [.event (.arrive (halfPdu 16)), .event (.arrive (onePdu 18)), .switch true .DM true,
      .switch false .IM true]).isSome := rfl
  obtain ⟨⟨s, os⟩, hrun⟩ := Option.isSome_iff_exists.1 hsome
  refine ⟨s, os, hrun, (switch_iff 1025 (by decide) (by decide) false hrun ?_).1⟩
  have hmeets : (d2dMachine 1025).Meets (fun s a => Action.Ok s a) (initial 16 (by decide) false)
    [.event (.arrive (halfPdu 16)), .event (.arrive (onePdu 18)), .switch true .DM true,
      .switch false .IM true] := by decide +kernel
  exact fun s a s' o ht => hmeets.takes ht

/-- PDU 16 has left the first half of an SDU, and PDU 18 is at position 2 of the window, for PDU 17
is missing.  Then the entity gets a new connection: the window starts at `0`, PDU 18 is at the
place of PDU 2, the half of the SDU is still there, and the timer runs. -/
theorem dirty_switch :
    ∃ s os s' o, (d2dMachine 1025).exec (initial 16 (by decide) false)
        [.event (.arrive (halfPdu 16)), .event (.arrive (onePdu 18))] = some (s, os) ∧
      (d2dMachine 1025).step s (.switch false .IM true) = some (s', o) ∧
      s'.rxWindowDesc.firstSno = 0 ∧ s'.received[2]? = some true ∧
      s'.pduBuffer 2 = some (onePdu 18) ∧ s'.buffered.isSome ∧ s'.tReordering = true ∧
      ¬SwitchedOver 1025 false .IM true s' := by
  refine ⟨_, _, _, _, rfl, rfl, rfl, rfl, rfl, rfl, rfl, fun h => ?_⟩
  have htimer := h.timer fun hold => (Bool.false_ne_true hold).elim
  cases htimer

end UmRxEntity

end V2nLte
