import V2nLte.Rlc.UmSwitch

/-!
# How far a PDU moves the window of RLC UM

A PDU beyond the end of the window should move it by as much as is needed to hold the PDU, so that
the last PDUs before it can still come.  `enque` moves the window by the distance from VR(UH) to
the PDU instead.  That is the same only if VR(UH) is at the end of the window; otherwise PDUs that
are missing are given up although they fit into the window, and their timer does not count.

* `UmRxEntity.keeps_last_iff` : the window is moved as far as needed, and VR(UR) stays before every
  missing PDU in it, iff the PDU fits into the window or the window is used up to its end.
* `UmRxEntity.shift_too_far` : the first PDU of all is PDU 16, in a window of 16.
-/

namespace V2nLte

namespace UmRxEntity

/-- The PDU `L` is not in the window. -/
def Missing (s : UmRxEntity) (L : ℕ) : Prop :=
  s.received[L - s.rxWindowDesc.firstSno]? ≠ some true

/-- The last PDUs up to `tsn` can still come: the window moves just far enough to hold the PDU
`tsn`, and VR(UR) does not pass a PDU of the new window that is missing. -/
structure KeepsLast (s s' : UmRxEntity) (tsn : ℕ) : Prop where
  /-- The window ends at `tsn`, unless it was beyond it before. -/
  first : s'.rxWindowDesc.firstSno =
    max s.rxWindowDesc.firstSno (tsn + 1 - s'.rxWindowDesc.windowSize)
  /-- VR(UR) stays at or before a PDU of the new window that is missing. -/
  reordering : ∀ L, s.rxWindowDesc.firstSnoForReordering ≤ L →
    tsn + 1 ≤ L + s'.rxWindowDesc.windowSize → L ≠ tsn → s.Missing L →
      s'.rxWindowDesc.firstSnoForReordering ≤ L

/-- The PDU does not need another window, or it needs one and VR(UH) is at the end of the old one,
or the window has one position only.  The end of the window is computed modulo `2 ^ 32`. -/
def FitsOrFull (s : UmRxEntity) (tsn : ℕ) : Prop :=
  let w := s.rxWindowDesc
  tsn < w.highestReceivedSno ∨ tsn = w.firstSno ∨
    w.firstSno + w.windowSize < 4294967296 ∧
      (tsn < w.firstSno + w.windowSize ∨ w.highestReceivedSno = w.firstSno + w.windowSize ∨
        w.windowSize = 1)

instance (s : UmRxEntity) (tsn : ℕ) : Decidable (s.FitsOrFull tsn) := by
  unfold FitsOrFull
  infer_instance

section

variable {known : UmDataPdu → Prop} {s s' : UmRxEntity} {tsn : ℕ}

theorem firstAfter_eq_iff (hw : Window known s)
    (hadm : s.rxWindowDesc.highestReceivedSno ≤ tsn → tsn + 1 < 4294967296) :
    s.firstAfter tsn = max s.rxWindowDesc.firstSno (tsn + 1 - s.rxWindowDesc.windowSize) ↔
      s.FitsOrFull tsn := by
  have hfl := hw.first_le
  have hle := hw.le
  have hhl := hw.high_le
  have hlt := hw.lt
  have hpos := hw.slots.pos
  have hW := s.rxWindowDesc.windowSize_lt
  unfold firstAfter FitsOrFull u32
  split
  · omega
  · omega

/-- Starting a multicast connection does not matter for where the window should start. -/
theorem startMulti_first (hw : Window known s) :
    max (s.startMulti tsn).rxWindowDesc.firstSno
        (tsn + 1 - (s.startMulti tsn).rxWindowDesc.windowSize) =
      max s.rxWindowDesc.firstSno (tsn + 1 - (s.startMulti tsn).rxWindowDesc.windowSize) := by
  unfold startMulti
  split
  · rename_i hstart
    have hzero := (hw.fresh hstart.2 hstart.1).1
    have hfl := hw.first_le
    simp only [RlcUmRxWindowDesc.clear]
    omega
  · rfl

/-- What VR(UR) must not pass after the start of a multicast connection. -/
theorem startMulti_le {L : ℕ}
    (hL : s.rxWindowDesc.firstSnoForReordering ≤ L)
    (hlast : tsn + 1 ≤ L + (s.startMulti tsn).rxWindowDesc.windowSize) :
    (s.startMulti tsn).rxWindowDesc.firstSnoForReordering ≤ L := by
  unfold startMulti at hlast ⊢
  split
  · rename_i hstart
    rw [if_pos hstart] at hlast
    exact Nat.le_of_succ_le_succ hlast
  · exact hL

end

/-- **How far a PDU moves the window**, after every run in which every new connection starts from
a clean entity. -/
theorem keeps_last_iff (ownerNodeId : MacNodeId) {W : ℕ} (hpos : 1 ≤ W) (hW : W < 2147483648)
    (multi : Bool) {as : List Action} {s : UmRxEntity} {os : List RlcSdu}
    (hrun : (d2dMachine ownerNodeId).exec (initial W hW multi) as = some (s, os))
    (hok : ∀ s a s' o, (d2dMachine ownerNodeId).Takes (initial W hW multi) as s a s' o → a.Ok s)
    {pdu : UmDataPdu} (hadm : s.Admissible pdu.pduSequenceNumber) {s' : UmRxEntity}
    {o : List RlcSdu} (henque : s.enque pdu = .ok (s', o)) :
    KeepsLast s s' pdu.pduSequenceNumber ↔
      (s.startMulti pdu.pduSequenceNumber).FitsOrFull pdu.pduSequenceNumber := by
  have hw := window_d2d_run hpos hW multi hrun hok
  -- the PDUs in the window afterwards are this one and those that were there
  have hknown : Window (fun p => p = pdu ∨ ∃ i, s.pduBuffer i = some p) s :=
    hw.own.mono fun p hp => .inr hp
  have harrived := enque_spec (D := []) reader_any (fun _ _ _ _ _ => trivial) hknown (.inl rfl)
    hadm (fun _ _ _ => trivial) trivial
  rw [henque] at harrived
  have hstart := (startMulti_spec (D := []) reader_any hw hadm (fun _ _ _ => trivial) trivial).1
  have hfirst := firstAfter_eq_iff hstart fun h => (hadm h).1
  have hsize : s'.rxWindowDesc.windowSize =
      (s.startMulti pdu.pduSequenceNumber).rxWindowDesc.windowSize := harrived.size
  have hafter : s'.rxWindowDesc.firstSno =
      (s.startMulti pdu.pduSequenceNumber).firstAfter pdu.pduSequenceNumber := harrived.first
  rw [startMulti_first hw, ← hsize, ← hafter] at hfirst
  rw [← hfirst]
  refine ⟨KeepsLast.first, fun heq => ⟨heq, fun L hL hlast hne hmissing => ?_⟩⟩
  by_contra hpassed
  have hfl := hw.first_le
  have hin : s'.rxWindowDesc.firstSno ≤ L := by omega
  obtain ⟨p, rfl | ⟨i, hi⟩, hsno⟩ := harrived.passed L (startMulti_le hL (hsize ▸ hlast)) hin
    (by simpa using hpassed)
  · exact hne hsno.symm
  · have hplace := (hw.slots.pdu i p hi).2.2.1
    refine hmissing ?_
    rw [show L - s.rxWindowDesc.firstSno = i by omega]
    exact (hw.slots.held i).2 (by rw [hi]; rfl)

theorem keeps_last_iff_full :
    ∃ s os s' o, (d2dMachine 1025).exec (initial 16 (by decide) false)
        [.event (.arrive (onePdu 15))] = some (s, os) ∧ s.enque (onePdu 17) = .ok (s', o) ∧
      KeepsLast s s' 17 := by
  have hall : ((d2dMachine 1025).exec (initial 16 (by decide) false)
      [.event (.arrive (onePdu 15))]).any (fun r =>
        (r.1.startMulti 17).FitsOrFull 17 ∧ r.1.Admissible 17 ∧
          (r.1.enque (onePdu 17)).toOption.isSome) = true := by decide +kernel
  obtain ⟨⟨s, os⟩, hrun, h⟩ := (Option.any_eq_true _ _).1 hall
  obtain ⟨hfits, hadm, hsome⟩ := of_decide_eq_true h
  obtain ⟨⟨s', o⟩, henque⟩ := Option.isSome_iff_exists.1 hsome
  rw [toOption_eq_some] at henque
  have hmeets : (d2dMachine 1025).Meets (fun s a => Action.Ok s a) (initial 16 (by decide) false)
    [.event (.arrive (onePdu 15))] := by decide +kernel
  have hadm' : s.Admissible (onePdu 17).pduSequenceNumber := hadm
  exact ⟨s, os, s', o, hrun, henque, (keeps_last_iff 1025 (by decide) (by decide) false hrun
    (fun s a s' o ht => hmeets.takes ht) hadm' henque).2 hfits⟩

/-- The first PDU of all is PDU 16, in a window of 16: the window should start at PDU 1, but it
starts at PDU 16, and VR(UR) has passed the 15 PDUs between them. -/
theorem shift_too_far :
    ∃ s' o, (initial 16 (by decide) false).enque (onePdu 16) = .ok (s', o) ∧
      s'.rxWindowDesc.firstSno = 16 ∧ s'.rxWindowDesc.firstSnoForReordering = 17 ∧
      ¬KeepsLast (initial 16 (by decide) false) s' 16 := by
  refine ⟨_, _, rfl, rfl, rfl, fun h => ?_⟩
  have hfirst := h.first
  revert hfirst
  decide

end UmRxEntity

end V2nLte
