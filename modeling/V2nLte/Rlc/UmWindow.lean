import V2nLte.Rlc.UmRx

/-!
# The receive window of RLC UM

The operations of `UmRxEntity` one by one, from `reassemble` up to `enque` and the timer.  What
is done with the contents of the PDUs is left open: a `Reader` is any property `J L b D` of the
SDU `b` that waits for its missing part and the SDUs `D` passed up so far, when the PDUs below
`L` have been dealt with, that survives taking the PDU `L` and, where `Skip L` allows it, giving
it up.  The window itself is `UmRxEntity.Window`.
-/

namespace V2nLte

namespace UmRxEntity

/-- A property of the reassembly that is kept from PDU to PDU. -/
structure Reader (known : UmDataPdu → Prop) (Skip : ℕ → Prop) (E : RxError → Prop)
    (J : ℕ → Option (RlcSdu × ℕ) → List RlcSdu → Prop) : Prop where
  take : ∀ p b D, known p → J p.pduSequenceNumber b D →
    Ensures E (fun r => J (p.pduSequenceNumber + 1) r.1 (D ++ r.2))
      (takeSdus p.framingInfo p.sdus.length 0 b p.sdus)
  skip : ∀ L b D, Skip L → J L b D → J (L + 1) b D

/-- The property is kept when nothing waits any more, as right after a mode switch. -/
def Resettable (J : ℕ → Option (RlcSdu × ℕ) → List RlcSdu → Prop) : Prop :=
  ∀ L b D, J L b D → J L none D

theorem awaiting_keeps {J : ℕ → Option (RlcSdu × ℕ) → List RlcSdu → Prop} {s : UmRxEntity} {L : ℕ}
    {D : List RlcSdu} (hreset : s.resetFlag = true → Resettable J) (hJ : J L s.buffered D)
    (pdu : UmDataPdu) : J L (s.awaiting pdu) D := by
  unfold awaiting
  split
  · rename_i h
    exact hreset h.1 L _ D hJ
  · exact hJ

/-- The flags and the buffer agree, and what they hold has a sequence number from `lo` to below
`hi`. -/
structure Slots (known : UmDataPdu → Prop) (lo hi : ℕ) (s : UmRxEntity) : Prop where
  pos : 0 < s.rxWindowDesc.windowSize
  le : s.rxWindowDesc.windowSize ≤ s.received.length
  held : ∀ i, s.received[i]? = some true ↔ (s.pduBuffer i).isSome
  pdu : ∀ i p, s.pduBuffer i = some p → known p ∧ i < s.rxWindowDesc.windowSize ∧
    p.pduSequenceNumber = s.rxWindowDesc.firstSno + i ∧
    lo ≤ s.rxWindowDesc.firstSno + i ∧ s.rxWindowDesc.firstSno + i < hi

/-- What the reassembly of PDUs does not touch. -/
structure Frame (s s' : UmRxEntity) : Prop where
  window : s'.rxWindowDesc = s.rxWindowDesc
  timer : s'.tReordering = s.tReordering
  init : s'.init = s.init
  multi : s'.isD2DMultiConnection = s.isD2DMultiConnection
  length : s'.received.length = s.received.length
  reset : s'.resetFlag = true → s.resetFlag = true

theorem Frame.refl (s : UmRxEntity) : Frame s s := ⟨rfl, rfl, rfl, rfl, rfl, id⟩

theorem Frame.trans {s s' s'' : UmRxEntity} (h : Frame s s') (h' : Frame s' s'') : Frame s s'' :=
  ⟨h'.window.trans h.window, h'.timer.trans h.timer, h'.init.trans h.init,
    h'.multi.trans h.multi, h'.length.trans h.length, fun hr => h.reset (h'.reset hr)⟩

section

variable {known : UmDataPdu → Prop} {Skip : ℕ → Prop} {E : RxError → Prop}
  {J : ℕ → Option (RlcSdu × ℕ) → List RlcSdu → Prop} {s : UmRxEntity} {lo hi : ℕ}
  {D : List RlcSdu}

theorem receivedAt_ensures {i : ℕ} (h : i < s.received.length) :
    Ensures E (fun r => s.received[i]? = some r) (s.receivedAt i) := by
  unfold receivedAt
  rw [List.getElem?_eq_getElem h]
  rfl

theorem Slots.isSome_iff (hs : Slots known lo hi s) {i : ℕ} {r : Bool}
    (h : s.received[i]? = some r) : (s.pduBuffer i).isSome = r := by
  have := hs.held i
  rw [h] at this
  cases r with
  | true => exact this.1 rfl
  | false =>
    cases hb : s.pduBuffer i with
    | none => rfl
    | some p => simp [hb] at this

/-- The slots depend on the window only through its place and its size. -/
theorem Slots.of_eq {s' : UmRxEntity} (hs : Slots known lo hi s)
    (hfirst : s'.rxWindowDesc.firstSno = s.rxWindowDesc.firstSno)
    (hsize : s'.rxWindowDesc.windowSize = s.rxWindowDesc.windowSize)
    (hreceived : s'.received = s.received) (hbuffer : s'.pduBuffer = s.pduBuffer) :
    Slots known lo hi s' := by
  refine ⟨?_, ?_, ?_, ?_⟩
  · rw [hsize]; exact hs.pos
  · rw [hsize, hreceived]; exact hs.le
  · rw [hreceived, hbuffer]; exact hs.held
  · rw [hfirst, hsize, hbuffer]; exact hs.pdu

/-! ### Reassembly -/

/-- What reassembling the positions from `i` to below `i + n` leaves behind. -/
structure Cleared (known : UmDataPdu → Prop)
    (J : ℕ → Option (RlcSdu × ℕ) → List RlcSdu → Prop) (lo hi : ℕ) (D : List RlcSdu) (i n : ℕ)
    (s : UmRxEntity) (r : UmRxEntity × List RlcSdu) : Prop where
  frame : Frame s r.1
  slots : Slots known (max lo (s.rxWindowDesc.firstSno + i + n)) hi r.1
  buffer : ∀ j, r.1.pduBuffer j = if i ≤ j ∧ j < i + n then none else s.pduBuffer j
  reads : J (max lo (s.rxWindowDesc.firstSno + i + n)) r.1.buffered (D ++ r.2)

theorem reassemble_spec (R : Reader known Skip E J) (hreset : s.resetFlag = true → Resettable J)
    (hs : Slots known lo hi s) {i : ℕ}
    (hlt : i < s.received.length) (hlow : ∀ j, (s.pduBuffer j).isSome → i ≤ j)
    (hskip : lo ≤ s.rxWindowDesc.firstSno + i → s.pduBuffer i = none →
      Skip (s.rxWindowDesc.firstSno + i))
    (hJ : J (max lo (s.rxWindowDesc.firstSno + i)) s.buffered D) :
    Ensures E (Cleared known J lo hi D i 1 s) (s.reassemble i) := by
  unfold reassemble
  refine Ensures.bind (receivedAt_ensures hlt) fun r hr => ?_
  have hsome := hs.isSome_iff hr
  cases r with
  | false =>
    -- no PDU is stored, and the state stays
    have hnone : s.pduBuffer i = none := by simpa using hsome
    have hbuf : ∀ j, s.pduBuffer j = if i ≤ j ∧ j < i + 1 then none else s.pduBuffer j := by
      intro j
      split
      · rw [show j = i by omega, hnone]
      · rfl
    have hne : ∀ j p, s.pduBuffer j = some p → i + 1 ≤ j := by
      intro j p hj
      rcases Nat.lt_or_ge i j with h | h
      · exact h
      · have hij := hlow j (by simp [hj])
        rw [show j = i by omega, hnone] at hj
        cases hj
    refine ⟨Frame.refl s, ⟨hs.pos, hs.le, hs.held, fun j p hj => ?_⟩, hbuf, ?_⟩
    · obtain ⟨hk, hjW, hsno, hlo, hhi⟩ := hs.pdu j p hj
      have := hne j p hj
      exact ⟨hk, hjW, hsno, show max lo _ ≤ s.rxWindowDesc.firstSno + j by omega, hhi⟩
    · rw [List.append_nil]
      by_cases hle : lo ≤ s.rxWindowDesc.firstSno + i
      · rw [max_eq_right hle] at hJ
        rw [max_eq_right (by omega)]
        exact R.skip _ _ _ (hskip hle hnone) hJ
      · rw [max_eq_left (by omega)] at hJ
        rwa [max_eq_left (by omega)]
  -- the PDU is taken out and read
  | true =>
    obtain ⟨p, hp⟩ := Option.isSome_iff_exists.1 hsome
    obtain ⟨hk, hiW, hsno, hlo, hhi⟩ := hs.pdu i p hp
    rw [max_eq_right hlo, ← hsno] at hJ
    simp only [if_true, hp]
    refine Ensures.bind (R.take p _ D hk (awaiting_keeps hreset hJ p)) fun r hr => ?_
    refine ⟨⟨rfl, rfl, rfl, rfl, by simp, fun h => (Bool.and_eq_true_iff.1 h).1⟩,
      ⟨hs.pos, by simpa using hs.le, fun j => ?_,
      fun j q hj => ?_⟩, fun j => ?_, ?_⟩
    · by_cases hj : j = i
      · subst hj; simp [hlt]
      · simpa [Function.update_of_ne hj, List.getElem?_set_ne (Ne.symm hj)] using hs.held j
    · by_cases hji : j = i
      · subst hji; simp at hj
      · simp only [Function.update_of_ne hji] at hj
        obtain ⟨hk', hjW, hsno', hlo', hhi'⟩ := hs.pdu j q hj
        have := hlow j (by simp [hj])
        refine ⟨hk', hjW, hsno', ?_, hhi'⟩
        simp only; omega
    · by_cases hji : j = i
      · subst hji; simp
      · have hout : ¬(i ≤ j ∧ j < i + 1) := by omega
        simp only [Function.update_of_ne hji, if_neg hout]
    · rw [max_eq_right (by omega), ← hsno]
      exact hr

theorem reassembleRange_spec (R : Reader known Skip E J)
    (hreset : s.resetFlag = true → Resettable J) (hs : Slots known lo hi s) {i n : ℕ}
    (hn : i + n ≤ s.received.length) (hlow : ∀ j, (s.pduBuffer j).isSome → i ≤ j)
    (hskip : ∀ j, i ≤ j → j < i + n → lo ≤ s.rxWindowDesc.firstSno + j → s.pduBuffer j = none →
      Skip (s.rxWindowDesc.firstSno + j))
    (hJ : J (max lo (s.rxWindowDesc.firstSno + i)) s.buffered D) :
    Ensures E (Cleared known J lo hi D i n s) (reassembleRange i n s) := by
  induction n generalizing i s lo D with
  | zero =>
    have hbuf : ∀ j, s.pduBuffer j = if i ≤ j ∧ j < i + 0 then none else s.pduBuffer j := by
      intro j
      rw [if_neg (by omega)]
    refine ⟨Frame.refl s, ⟨hs.pos, hs.le, hs.held, fun j p hj => ?_⟩, hbuf, by simpa using hJ⟩
    obtain ⟨hk, hjW, hsno, hlo, hhi⟩ := hs.pdu j p hj
    have := hlow j (Option.isSome_iff_exists.2 ⟨p, hj⟩)
    exact ⟨hk, hjW, hsno, show max lo _ ≤ s.rxWindowDesc.firstSno + j by omega, hhi⟩
  | succ n ih =>
    unfold reassembleRange
    refine Ensures.bind (reassemble_spec R hreset hs (by omega) hlow
      (fun hle hnone => hskip i le_rfl (by omega) hle hnone) hJ) fun r hr => ?_
    have hfirst : r.1.rxWindowDesc.firstSno = s.rxWindowDesc.firstSno := by rw [hr.frame.window]
    have hbuf : ∀ j, i + 1 ≤ j → r.1.pduBuffer j = s.pduBuffer j := by
      intro j hj
      rw [hr.buffer j, if_neg (by omega)]
    have hreads := hr.reads
    have hs' := hr.slots
    rw [show s.rxWindowDesc.firstSno + i + 1 = s.rxWindowDesc.firstSno + (i + 1) by omega]
      at hreads hs'
    refine Ensures.bind (ih (i := i + 1) (D := D ++ r.2) (fun h => hreset (hr.frame.reset h)) hs'
      ?_ ?_ ?_ ?_) fun r' hr' => ?_
    · rw [hr.frame.length]; omega
    · intro j hj
      rw [hr.buffer j] at hj
      split at hj
      · cases hj
      · have := hlow j hj; omega
    · intro j hij hjn hle hnone
      rw [hfirst] at hle ⊢
      rw [hbuf j hij] at hnone
      exact hskip j (by omega) (by omega) (by omega) hnone
    · rw [hfirst, max_eq_left (le_max_right _ _)]
      exact hreads
    · -- both parts together read what lies before
      have heq : max (max lo (s.rxWindowDesc.firstSno + (i + 1)))
          (s.rxWindowDesc.firstSno + (i + 1) + n) =
          max lo (s.rxWindowDesc.firstSno + i + (n + 1)) := by omega
      have hslots := hr'.slots
      have hread := hr'.reads
      rw [hfirst, heq] at hslots hread
      refine ⟨hr.frame.trans hr'.frame, hslots, fun j => ?_, by simpa using hread⟩
      simp only
      rw [hr'.buffer j]
      by_cases hj : i + 1 ≤ j ∧ j < i + 1 + n
      · rw [if_pos hj, if_pos (by omega)]
      · rw [if_neg hj, hr.buffer j]
        by_cases hji : i ≤ j ∧ j < i + 1
        · rw [if_pos hji, if_pos (by omega)]
        · rw [if_neg hji, if_neg (by omega)]

/-! ### Moving the window -/

/-- The entity with its window starting at `first`. -/
def withFirst (s : UmRxEntity) (first : ℕ) : UmRxEntity := { s with rxWindowDesc.firstSno := first }

/-- While the window is moved by `p`, the positions below `m` have been dealt with. -/
structure Moving (s : UmRxEntity) (p m : ℕ) (s' : UmRxEntity) : Prop where
  frame : Frame s s'
  buffered : s'.buffered = s.buffered
  buffer : ∀ j, s'.pduBuffer j =
    if j + p < m then s.pduBuffer (j + p) else if j < m then none else s.pduBuffer j
  held : ∀ i, s'.received[i]? = some true ↔ (s'.pduBuffer i).isSome

theorem movePdu_spec {p m : ℕ} (hne : m - p ≠ m) (hfree : s.pduBuffer (m - p) = none) :
    Ensures E (fun b => ∀ j, b j =
      if j = m then none else if j = m - p then s.pduBuffer m else s.pduBuffer j)
      (s.movePdu p m) := by
  unfold movePdu
  cases hb : s.pduBuffer m with
  | none =>
    intro j
    by_cases hj : j = m
    · subst hj; simpa using hb
    · by_cases hj' : j = m - p
      · subst hj'; simp [hne, hfree]
      · simp [hj, hj']
  | some q =>
    simp only [Function.update_of_ne hne, hfree]
    intro j
    by_cases hj : j = m
    · subst hj; simp [Function.update_of_ne hne.symm]
    · by_cases hj' : j = m - p
      · subst hj'; simp [hne]
      · simp [hj, hj']

theorem moveSlot_spec {s' : UmRxEntity} {p m : ℕ} (hp : 0 < p) (hpm : p ≤ m)
    (hm : m < s.received.length) (h : Moving s p m s') :
    Ensures E (Moving s p (m + 1)) (moveSlot p s' m) := by
  have hbm : s'.pduBuffer m = s.pduBuffer m := by
    rw [h.buffer m, if_neg (by omega), if_neg (by omega)]
  have hfree : s'.pduBuffer (m - p) = none := by
    rw [h.buffer (m - p), if_neg (by omega), if_pos (by omega)]
  have hne : m - p ≠ m := by omega
  have hm' : m < s'.received.length := by rw [h.frame.length]; exact hm
  unfold moveSlot
  refine Ensures.bind (movePdu_spec hne hfree) ?_
  intro b hb
  refine Ensures.bind (receivedAt_ensures hm') fun r hr => ?_
  have hrm : (s'.pduBuffer m).isSome = r := by
    have := h.held m
    rw [hr] at this
    cases r with
    | true => exact this.1 rfl
    | false => simpa using this
  refine ⟨⟨h.frame.window, h.frame.timer, h.frame.init, h.frame.multi, ?_, h.frame.reset⟩,
    h.buffered,
    fun j => ?_, fun j => ?_⟩
  · simpa using h.frame.length
  · -- the slot that is moved is free then, and the one it moves to is taken
    simp only [hb j]
    by_cases hj : j = m
    · subst hj; rw [if_pos rfl, if_neg (by omega), if_pos (by omega)]
    · rw [if_neg hj]
      by_cases hj' : j = m - p
      · subst hj'
        rw [if_pos rfl, if_pos (by omega), hbm, Nat.sub_add_cancel hpm]
      · rw [if_neg hj', h.buffer j]
        by_cases hlt : j + p < m
        · rw [if_pos hlt, if_pos (by omega)]
        · rw [if_neg hlt, if_neg (show ¬ j + p < m + 1 by omega)]
          by_cases hjm : j < m
          · rw [if_pos hjm, if_pos (by omega)]
          · rw [if_neg hjm, if_neg (by omega)]
  · simp only [hb j]
    by_cases hj : j = m
    · subst hj; simp [hm']
    · rw [if_neg hj, List.getElem?_set_ne (Ne.symm hj)]
      by_cases hj' : j = m - p
      · subst hj'
        have : m - p < s'.received.length := by omega
        simp [this, hrm]
      · rw [if_neg hj', List.getElem?_set_ne (Ne.symm hj')]
        exact h.held j

/-- What moving the window to `first` leaves behind. -/
structure Moved (known : UmDataPdu → Prop) (lo hi first : ℕ) (s s' : UmRxEntity) : Prop where
  frame : Frame (s.withFirst first) s'
  slots : Slots known lo hi s'
  buffered : s'.buffered = s.buffered

theorem moveRxWindow_spec (hs : Slots known lo hi s) {p : ℕ}
    (hp : p ≤ s.rxWindowDesc.windowSize) (hempty : ∀ j, j < p → s.pduBuffer j = none)
    (hno : s.rxWindowDesc.firstSno + p < 4294967296) :
    Ensures E (Moved known lo hi (s.rxWindowDesc.firstSno + p) s) (s.moveRxWindow p) := by
  unfold moveRxWindow
  by_cases hp0 : p = 0
  · subst hp0
    exact ⟨⟨rfl, rfl, rfl, rfl, rfl, id⟩, hs, rfl⟩
  rw [if_neg (by omega), if_neg (by simpa using hp), Int.toNat_natCast]
  have hstart : Moving s p p s := by
    refine ⟨Frame.refl s, rfl, fun j => ?_, hs.held⟩
    rw [if_neg (by omega)]
    split
    · exact hempty j ‹_›
    · rfl
  refine Ensures.bind (Ensures.foldlM_range' hstart fun m s' hpm hm h =>
    moveSlot_spec (by omega) hpm (by have := hs.le; omega) h) fun s' h => ?_
  rw [show p + (s.rxWindowDesc.windowSize - p) = s.rxWindowDesc.windowSize by omega] at h
  have hw := h.frame.window
  have hfirst : u32 (s.rxWindowDesc.firstSno + p) = s.rxWindowDesc.firstSno + p := u32_of_lt hno
  refine ⟨⟨?_, h.frame.timer, h.frame.init, h.frame.multi, h.frame.length, h.frame.reset⟩,
    ⟨?_, ?_, h.held, ?_⟩, h.buffered⟩
  · simp only [withFirst, hw, hfirst]
  · simpa [hw] using hs.pos
  · simpa [hw, h.frame.length] using hs.le
  · intro j q hj
    simp only [h.buffer j] at hj
    simp only [hw, hfirst]
    split at hj
    · obtain ⟨hk, hjW, hsno, hlo, hhi⟩ := hs.pdu _ q hj
      exact ⟨hk, by omega, by omega, by omega, by omega⟩
    · split at hj
      · cases hj
      · have := (hs.pdu j q hj).2.1
        omega

/-- What the loop that moves the window leaves behind. -/
structure Shifted (known : UmDataPdu → Prop)
    (J : ℕ → Option (RlcSdu × ℕ) → List RlcSdu → Prop) (lo hi : ℕ) (D : List RlcSdu) (first : ℕ)
    (s : UmRxEntity) (r : UmRxEntity × List RlcSdu) : Prop where
  frame : Frame (s.withFirst first) r.1
  slots : Slots known (max lo first) hi r.1
  reads : J (max lo first) r.1.buffered (D ++ r.2)

theorem Frame.withFirst {s s' : UmRxEntity} (h : Frame s s') (first : ℕ) :
    Frame (s.withFirst first) (s'.withFirst first) := by
  refine ⟨?_, h.timer, h.init, h.multi, h.length, h.reset⟩
  simp only [UmRxEntity.withFirst, h.window]

/-- Only the last place where the window starts counts. -/
theorem Frame.again {s s' s'' : UmRxEntity} {first first' : ℕ} (h : Frame (s.withFirst first) s')
    (h' : Frame (s'.withFirst first') s'') : Frame (s.withFirst first') s'' :=
  (h.withFirst first').trans h'

/-- How far one round moves the window, after the correction by `tsn`. -/
theorem capStep_stepSize {tsn shift : ℕ} (hfirst : s.rxWindowDesc.firstSno ≤ tsn)
    (hshift : s.rxWindowDesc.firstSno + shift ≤ tsn + 1) (htsn : tsn + 1 < 4294967296) :
    s.stepSize shift = (min shift s.rxWindowDesc.windowSize : ℕ) ∧
      s.capStep tsn (min shift s.rxWindowDesc.windowSize : ℕ) =
        (min (min shift s.rxWindowDesc.windowSize) (tsn - s.rxWindowDesc.firstSno) : ℕ) := by
  have hW := s.rxWindowDesc.windowSize_lt
  constructor
  · unfold stepSize
    rw [Int.toNat_natCast]
    split <;> omega
  · unfold capStep
    rw [Int.toNat_natCast, u32_of_lt (by omega), sub32_of_le hfirst (by omega)]
    split
    · rw [i32_of_lt (by omega)]
      omega
    · omega

/-- The loop that has nothing to move. -/
theorem shiftLoop_zero (hs : Slots known lo hi s) (hlo : s.rxWindowDesc.firstSno ≤ lo) {tsn : ℕ}
    (hfirst : s.rxWindowDesc.firstSno ≤ tsn) (hJ : J lo s.buffered D) :
    Shifted known J lo hi D (min (s.rxWindowDesc.firstSno + 0) tsn) s (s, []) := by
  have hmin : min (s.rxWindowDesc.firstSno + 0) tsn = s.rxWindowDesc.firstSno := by omega
  have hmax : max lo s.rxWindowDesc.firstSno = lo := max_eq_left hlo
  rw [hmin]
  refine ⟨⟨rfl, rfl, rfl, rfl, rfl, id⟩, ?_, ?_⟩
  · rwa [hmax]
  · rwa [hmax, List.append_nil]

theorem shiftLoop_spec (R : Reader known Skip E J) (hreset : s.resetFlag = true → Resettable J)
    {tsn : ℕ} (htsn : tsn + 1 < 4294967296) {fuel : ℕ} (shift : ℕ) (hfuel : shift ≤ fuel)
    (hs : Slots known lo hi s)
    (hshift : s.rxWindowDesc.firstSno + shift ≤ tsn + 1) (hfirst : s.rxWindowDesc.firstSno ≤ tsn)
    (hlo : s.rxWindowDesc.firstSno ≤ lo) (hskip : ∀ L, lo ≤ L → L < tsn → Skip L)
    (hJ : J lo s.buffered D) :
    Ensures E (Shifted known J lo hi D (min (s.rxWindowDesc.firstSno + shift) tsn) s)
      (shiftLoop tsn fuel shift s) := by
  induction fuel generalizing shift s lo D with
  | zero =>
    obtain rfl : shift = 0 := by omega
    rw [shiftLoop, if_pos (by simp)]
    exact shiftLoop_zero hs hlo hfirst hJ
  | succ fuel ih =>
    rw [shiftLoop]
    by_cases h0 : shift = 0
    · subst h0
      rw [if_pos (by simp)]
      exact shiftLoop_zero hs hlo hfirst hJ
    rw [if_neg (by omega)]
    have hW := s.rxWindowDesc.windowSize_lt
    have hpos := hs.pos
    have hle := hs.le
    obtain ⟨hstep₀, hstep⟩ := s.capStep_stepSize hfirst hshift htsn
    -- the step before and after the correction by `tsn`
    obtain ⟨p₀, hp₀⟩ : ∃ p₀, p₀ = min shift s.rxWindowDesc.windowSize := ⟨_, rfl⟩
    obtain ⟨p, hp⟩ : ∃ p, p = min p₀ (tsn - s.rxWindowDesc.firstSno) := ⟨_, rfl⟩
    rw [← hp₀] at hstep₀ hstep
    rw [← hp] at hstep
    simp only [hstep₀, hstep, Int.toNat_natCast]
    have hJ' : J (max lo (s.rxWindowDesc.firstSno + 0)) s.buffered D := by
      rwa [Nat.add_zero, max_eq_left hlo]
    refine Ensures.bind (reassembleRange_spec R hreset hs (by omega) (fun j _ => Nat.zero_le j)
      (fun j _ hj hle' _ => hskip _ hle' (by omega)) hJ') fun r hr => ?_
    have hwin : r.1.rxWindowDesc = s.rxWindowDesc := hr.frame.window
    have hempty : ∀ j, j < p → r.1.pduBuffer j = none := by
      intro j hj
      rw [hr.buffer j, if_pos (by omega)]
    refine Ensures.bind (moveRxWindow_spec hr.slots (by rw [hwin]; omega) hempty
      (by rw [hwin]; omega)) fun s' hs' => ?_
    have hfirst' : s'.rxWindowDesc.firstSno = s.rxWindowDesc.firstSno + p := by
      rw [hs'.frame.window]
      simp only [withFirst, hwin]
    have hslots := hs'.slots
    have hreads := hr.reads
    rw [Nat.add_zero] at hslots hreads
    rw [show ((shift : ℤ) - p₀) = ((shift - p₀ : ℕ) : ℤ) by omega]
    refine Ensures.bind (ih (s := s') (D := D ++ r.2)
      (fun h => hreset (hr.frame.reset (hs'.frame.reset h))) (shift - p₀) (by omega) hslots
      (by omega) (by omega) (by omega) (fun L hL => hskip L (by omega))
      (by rw [hs'.buffered]; exact hreads)) fun r' hr' => ?_
    have hmin : min (s'.rxWindowDesc.firstSno + (shift - p₀)) tsn =
        min (s.rxWindowDesc.firstSno + shift) tsn := by omega
    have hmax : max (max lo (s.rxWindowDesc.firstSno + p))
        (min (s.rxWindowDesc.firstSno + shift) tsn) =
        max lo (min (s.rxWindowDesc.firstSno + shift) tsn) := by omega
    have hframe := hr'.frame
    have hslots' := hr'.slots
    have hreads' := hr'.reads
    rw [hmin] at hframe hslots' hreads'
    rw [hmax] at hslots' hreads'
    refine ⟨(hr.frame.withFirst _).trans (hs'.frame.again hframe), hslots', ?_⟩
    rwa [← List.append_assoc]

/-! ### A PDU arrives -/

/-- The window between two events. -/
structure Window (known : UmDataPdu → Prop) (s : UmRxEntity) : Prop where
  slots : Slots known s.rxWindowDesc.firstSnoForReordering s.rxWindowDesc.highestReceivedSno s
  first_le : s.rxWindowDesc.firstSno ≤ s.rxWindowDesc.firstSnoForReordering
  le : s.rxWindowDesc.firstSnoForReordering ≤ s.rxWindowDesc.highestReceivedSno
  high_le : s.rxWindowDesc.highestReceivedSno ≤
    s.rxWindowDesc.firstSno + s.rxWindowDesc.windowSize
  lt : s.rxWindowDesc.highestReceivedSno < 4294967296
  timer : s.tReordering = true →
    s.rxWindowDesc.firstSnoForReordering < s.rxWindowDesc.reorderingSno ∧
      s.rxWindowDesc.reorderingSno ≤ s.rxWindowDesc.highestReceivedSno
  /-- A multicast connection that has not started has seen nothing. -/
  fresh : s.isD2DMultiConnection = true → s.init = false →
    s.rxWindowDesc.firstSnoForReordering = 0 ∧ s.tReordering = false ∧ ∀ i, s.pduBuffer i = none

theorem Window.mono {known' : UmDataPdu → Prop} (hw : Window known s)
    (h : ∀ p, known p → known' p) : Window known' s := by
  refine ⟨⟨hw.slots.pos, hw.slots.le, hw.slots.held, fun i p hp => ?_⟩, hw.first_le, hw.le,
    hw.high_le, hw.lt, hw.timer, hw.fresh⟩
  obtain ⟨hk, hrest⟩ := hw.slots.pdu i p hp
  exact ⟨h p hk, hrest⟩

/-- The window holds the PDUs that are in its buffer. -/
theorem Window.own (hw : Window known s) : Window (fun p => ∃ i, s.pduBuffer i = some p) s := by
  refine ⟨⟨hw.slots.pos, hw.slots.le, hw.slots.held, fun i p hp => ?_⟩, hw.first_le, hw.le,
    hw.high_le, hw.lt, hw.timer, hw.fresh⟩
  exact ⟨⟨i, hp⟩, (hw.slots.pdu i p hp).2⟩

/-- The sequence number of an arriving PDU is not too far ahead: beyond VR(UH) it is less than
`2 ^ 31` away, and not the last number there is. -/
def Admissible (s : UmRxEntity) (tsn : ℕ) : Prop :=
  (s.startMulti tsn).rxWindowDesc.highestReceivedSno ≤ tsn → tsn + 1 < 4294967296 ∧
    tsn + 1 - (s.startMulti tsn).rxWindowDesc.highestReceivedSno < 2147483648

instance (s : UmRxEntity) (tsn : ℕ) : Decidable (s.Admissible tsn) := by
  unfold Admissible
  infer_instance

theorem Reader.skipTo (R : Reader known Skip E J) {L L' : ℕ} {b : Option (RlcSdu × ℕ)}
    (h : J L b D) (hle : L ≤ L') (hskip : ∀ K, L ≤ K → K < L' → Skip K) : J L' b D := by
  induction L', hle using Nat.le_induction with
  | base => exact h
  | succ n hn ih =>
    exact R.skip n b D (hskip n hn (Nat.lt_succ_self n)) (ih fun K hK hKn => hskip K hK (by omega))

theorem startMulti_resetFlag {tsn : ℕ} : (s.startMulti tsn).resetFlag = s.resetFlag := by
  unfold startMulti
  split <;> rfl

/-- Starting a multicast connection at its first PDU. -/
theorem startMulti_spec (R : Reader known Skip E J) (hw : Window known s) {tsn : ℕ}
    (hadm : s.Admissible tsn)
    (hskip : ∀ L, s.rxWindowDesc.firstSnoForReordering ≤ L → L < tsn → Skip L)
    (hJ : J s.rxWindowDesc.firstSnoForReordering s.buffered D) :
    Window known (s.startMulti tsn) ∧
      J (s.startMulti tsn).rxWindowDesc.firstSnoForReordering (s.startMulti tsn).buffered D ∧
      s.rxWindowDesc.firstSnoForReordering ≤
        (s.startMulti tsn).rxWindowDesc.firstSnoForReordering ∧
      ((s.startMulti tsn).isD2DMultiConnection = true → (s.startMulti tsn).init = true) := by
  by_cases hstart : s.init = false ∧ s.isD2DMultiConnection
  · obtain ⟨hzero, htimer, hnone⟩ := hw.fresh hstart.2 hstart.1
    have heq : s.startMulti tsn = { s with
      rxWindowDesc := { s.rxWindowDesc.clear tsn with windowSize := 1, windowSize_lt := by decide }
      init := true } := if_pos hstart
    unfold Admissible at hadm
    rw [heq] at hadm ⊢
    have hlt := (hadm le_rfl).1
    refine ⟨⟨⟨Nat.one_pos, ?_, hw.slots.held, ?_⟩, le_rfl, le_rfl, Nat.le_succ tsn, ?_, ?_, ?_⟩,
      ?_, ?_, fun _ => rfl⟩
    · exact le_trans hw.slots.pos hw.slots.le
    · intro i p hp
      rw [show _ = none from hnone i] at hp
      cases hp
    · exact Nat.lt_of_succ_lt hlt
    · intro h
      rw [show _ = false from htimer] at h
      cases h
    · intro _ h
      cases h
    · exact R.skipTo hJ (by rw [hzero]; exact Nat.zero_le _) hskip
    · rw [hzero]; exact Nat.zero_le _
  · have heq : s.startMulti tsn = s := if_neg hstart
    rw [heq]
    refine ⟨hw, hJ, le_rfl, fun hm => ?_⟩
    by_contra hinit
    exact hstart ⟨by simpa using hinit, hm⟩

/-- Where the window starts after the PDU `tsn` has moved it. -/
def firstAfter (s : UmRxEntity) (tsn : ℕ) : ℕ :=
  if tsn < s.rxWindowDesc.highestReceivedSno ∨
      tsn + 1 ≤ u32 (s.rxWindowDesc.firstSno + s.rxWindowDesc.windowSize) then
    s.rxWindowDesc.firstSno
  else min (s.rxWindowDesc.firstSno + (tsn + 1 - s.rxWindowDesc.highestReceivedSno)) tsn

/-- What a PDU finds after the window has been moved for it. -/
structure Opened (known : UmDataPdu → Prop)
    (J : ℕ → Option (RlcSdu × ℕ) → List RlcSdu → Prop) (D : List RlcSdu) (tsn : ℕ)
    (s : UmRxEntity) (r : UmRxEntity × List RlcSdu) : Prop where
  timer : r.1.tReordering = s.tReordering
  init : r.1.init = s.init
  multi : r.1.isD2DMultiConnection = s.isD2DMultiConnection
  reset : r.1.resetFlag = true → s.resetFlag = true
  reordering : r.1.rxWindowDesc.reorderingSno = s.rxWindowDesc.reorderingSno
  ur : r.1.rxWindowDesc.firstSnoForReordering =
    max s.rxWindowDesc.firstSnoForReordering r.1.rxWindowDesc.firstSno
  uh : r.1.rxWindowDesc.highestReceivedSno = max s.rxWindowDesc.highestReceivedSno (tsn + 1)
  size : r.1.rxWindowDesc.windowSize = s.rxWindowDesc.windowSize
  first : r.1.rxWindowDesc.firstSno = s.firstAfter tsn
  first_le : r.1.rxWindowDesc.firstSno ≤ tsn
  high_le : r.1.rxWindowDesc.highestReceivedSno ≤
    r.1.rxWindowDesc.firstSno + r.1.rxWindowDesc.windowSize
  slots : Slots known r.1.rxWindowDesc.firstSnoForReordering s.rxWindowDesc.highestReceivedSno r.1
  free : r.1.pduBuffer (tsn - r.1.rxWindowDesc.firstSno) = none
  reads : J r.1.rxWindowDesc.firstSnoForReordering r.1.buffered (D ++ r.2)

theorem Slots.free (hs : Slots known lo hi s) {tsn : ℕ} (hfirst : s.rxWindowDesc.firstSno ≤ tsn)
    (htsn : hi ≤ tsn) : s.pduBuffer (tsn - s.rxWindowDesc.firstSno) = none := by
  cases hb : s.pduBuffer (tsn - s.rxWindowDesc.firstSno) with
  | none => rfl
  | some p =>
    have := (hs.pdu _ p hb).2.2.2.2
    omega

theorem advanceWindow_spec (R : Reader known Skip E J)
    (hreset : s.resetFlag = true → Resettable J) (hw : Window known s) {tsn : ℕ}
    (hur : s.rxWindowDesc.firstSnoForReordering ≤ tsn)
    (hadm : s.rxWindowDesc.highestReceivedSno ≤ tsn → tsn + 1 < 4294967296 ∧
      tsn + 1 - s.rxWindowDesc.highestReceivedSno < 2147483648)
    (hnew : tsn < s.rxWindowDesc.highestReceivedSno →
      s.pduBuffer (tsn - s.rxWindowDesc.firstSno) = none)
    (hskip : ∀ L, s.rxWindowDesc.firstSnoForReordering ≤ L → L < tsn → Skip L)
    (hJ : J s.rxWindowDesc.firstSnoForReordering s.buffered D) :
    Ensures E (Opened known J D tsn s) (s.advanceWindow tsn) := by
  have hfl := hw.first_le
  have hle := hw.le
  have hhl := hw.high_le
  have hpos := hw.slots.pos
  unfold advanceWindow
  -- the PDU lies before the highest one received
  by_cases hold : tsn < s.rxWindowDesc.highestReceivedSno
  · rw [if_pos hold]
    exact ⟨rfl, rfl, rfl, id, rfl, (max_eq_left hfl).symm,
      (max_eq_left (Nat.succ_le_of_lt hold)).symm, rfl, (if_pos (.inl hold)).symm,
      le_trans hfl hur, hhl, hw.slots, hnew hold, by simpa using hJ⟩
  rw [if_neg hold]
  obtain ⟨hlt, hfar⟩ := hadm (by omega)
  -- it opens new places, and the window may have to move
  have hmax : max s.rxWindowDesc.highestReceivedSno (tsn + 1) = tsn + 1 := by omega
  simp only [u32_of_lt hlt]
  by_cases hout : u32 (s.rxWindowDesc.firstSno + s.rxWindowDesc.windowSize) < tsn + 1
  · rw [if_pos hout]
    have hshift : i32 (sub32 (tsn + 1) s.rxWindowDesc.highestReceivedSno) =
        ((tsn + 1 - s.rxWindowDesc.highestReceivedSno : ℕ) : ℤ) := by
      rw [sub32_of_le (by omega) hlt, i32_of_lt hfar]
    simp only [hshift, Int.toNat_natCast]
    refine Ensures.bind (shiftLoop_spec (s := { s with rxWindowDesc.highestReceivedSno := tsn + 1 })
      R hreset hlt _ le_rfl (hw.slots.of_eq rfl rfl rfl rfl) ?_ (le_trans hfl hur)
      hfl hskip hJ) fun r hr => ?_
    · simp only; omega
    -- the window does not move past the new PDU
    obtain ⟨f, hf⟩ : ∃ f, f = min (s.rxWindowDesc.firstSno +
        (tsn + 1 - s.rxWindowDesc.highestReceivedSno)) tsn := ⟨_, rfl⟩
    have hwin : r.1.rxWindowDesc =
        { s.rxWindowDesc with highestReceivedSno := tsn + 1, firstSno := f } := by
      rw [hr.frame.window, hf]
      rfl
    have hslots := hr.slots
    have hreads := hr.reads
    simp only [← hf] at hslots hreads
    have hafter : s.firstAfter tsn = f := by
      rw [firstAfter, if_neg (by omega), hf]
    refine ⟨hr.frame.timer, hr.frame.init, hr.frame.multi, hr.frame.reset, ?_, ?_, ?_, ?_, ?_, ?_,
      ?_, ?_, ?_, ?_⟩
    · simp only [hwin]
    · simp only [hwin]
    · simp only [hwin, hmax]
    · simp only [hwin]
    · simp only [hwin, hafter]
    · simp only [hwin]; omega
    · simp only [hwin]; omega
    · have hur' : max r.1.rxWindowDesc.firstSnoForReordering r.1.rxWindowDesc.firstSno =
          max s.rxWindowDesc.firstSnoForReordering f := by rw [hwin]
      rw [← hur'] at hslots
      exact hslots.of_eq rfl rfl rfl rfl
    · exact hslots.free (by simp only [hwin]; omega) (by omega)
    · simp only [hwin]
      exact hreads
  · -- the new PDU lies in the window
    rw [if_neg hout]
    have hnowrap : tsn + 1 ≤ s.rxWindowDesc.firstSno + s.rxWindowDesc.windowSize := by
      have : u32 (s.rxWindowDesc.firstSno + s.rxWindowDesc.windowSize) ≤
          s.rxWindowDesc.firstSno + s.rxWindowDesc.windowSize := Nat.mod_le _ _
      omega
    exact ⟨rfl, rfl, rfl, id, rfl, (max_eq_left hfl).symm, hmax.symm, rfl,
      (if_pos (.inr (not_lt.1 hout))).symm, le_trans hfl hur, hnowrap,
      hw.slots.of_eq rfl rfl rfl rfl, hw.slots.free (le_trans hfl hur) (by omega),
      by simpa using hJ⟩

/-- What storing a PDU leaves behind. -/
structure Stored (known : UmDataPdu → Prop) (lo hi : ℕ) (pdu : UmDataPdu) (s s' : UmRxEntity) :
    Prop where
  frame : Frame s s'
  buffered : s'.buffered = s.buffered
  slots : Slots known lo hi s'
  here : s'.pduBuffer (pdu.pduSequenceNumber - s.rxWindowDesc.firstSno) = some pdu

theorem store_spec (hi' : ℕ) (hs : Slots known lo hi s) {pdu : UmDataPdu} (hk : known pdu)
    (hfirst : s.rxWindowDesc.firstSno ≤ pdu.pduSequenceNumber) (hlo : lo ≤ pdu.pduSequenceNumber)
    (hhi : pdu.pduSequenceNumber < hi') (hhi' : hi ≤ hi') (hlt : hi' < 4294967296)
    (hin : pdu.pduSequenceNumber < s.rxWindowDesc.firstSno + s.rxWindowDesc.windowSize)
    (hfree : s.pduBuffer (pdu.pduSequenceNumber - s.rxWindowDesc.firstSno) = none) :
    Ensures E (Stored known lo hi' pdu s) (s.store pdu) := by
  have hW := s.rxWindowDesc.windowSize_lt
  have hle := hs.le
  obtain ⟨i, hi_eq⟩ : ∃ i, i = pdu.pduSequenceNumber - s.rxWindowDesc.firstSno := ⟨_, rfl⟩
  have hindex : i32 (sub32 pdu.pduSequenceNumber s.rxWindowDesc.firstSno) = (i : ℤ) := by
    rw [sub32_of_le hfirst (by omega), ← hi_eq, i32_of_lt (by omega)]
  rw [← hi_eq] at hfree
  unfold store
  simp only [hindex, Int.toNat_natCast]
  rw [if_neg (by omega), if_neg (by simp [hfree]), if_neg (by omega)]
  refine ⟨⟨rfl, rfl, rfl, rfl, by simp, id⟩, rfl, ⟨hs.pos, by simpa using hle, fun j => ?_,
    fun j q hj => ?_⟩, ?_⟩
  · by_cases hj : j = i
    · subst hj
      have : j < s.received.length := by omega
      simp [this]
    · simpa [Function.update_of_ne hj, List.getElem?_set_ne (Ne.symm hj)] using hs.held j
  · by_cases hji : j = i
    · subst hji
      simp only [Function.update_self, Option.some.injEq] at hj
      subst hj
      refine ⟨hk, ?_, ?_, ?_, ?_⟩ <;> simp only <;> omega
    · simp only [Function.update_of_ne hji] at hj
      obtain ⟨hkq, hjW, hsno, hloq, hhiq⟩ := hs.pdu j q hj
      exact ⟨hkq, hjW, hsno, hloq, lt_of_lt_of_le hhiq hhi'⟩
  · rw [← hi_eq]
    exact Function.update_self i (some pdu) s.pduBuffer

/-! ### Passing PDUs -/

/-- The entity with VR(UR) at `u`. -/
def withUr (s : UmRxEntity) (u : ℕ) : UmRxEntity :=
  { s with rxWindowDesc.firstSnoForReordering := u }

/-- VR(UR) may go to `u` : it passes only PDUs that are there or below `bound`, and it does
pass one that is there. -/
structure Passes (bound : ℕ) (s : UmRxEntity) (u : ℕ) : Prop where
  ge : s.rxWindowDesc.firstSnoForReordering ≤ u
  le : u ≤ s.rxWindowDesc.highestReceivedSno
  passed : ∀ L, s.rxWindowDesc.firstSnoForReordering ≤ L → L < u →
    (s.pduBuffer (L - s.rxWindowDesc.firstSno)).isSome ∨ L < bound
  here : (s.pduBuffer (s.rxWindowDesc.firstSnoForReordering - s.rxWindowDesc.firstSno)).isSome →
    s.rxWindowDesc.firstSnoForReordering < u

theorem advance_spec {bound fuel : ℕ} (hs : Slots known lo hi s)
    (hfirst : s.rxWindowDesc.firstSno ≤ s.rxWindowDesc.firstSnoForReordering)
    (hle : s.rxWindowDesc.firstSnoForReordering < s.rxWindowDesc.highestReceivedSno)
    (hhigh : s.rxWindowDesc.highestReceivedSno ≤
      s.rxWindowDesc.firstSno + s.rxWindowDesc.windowSize)
    (hlt : s.rxWindowDesc.highestReceivedSno < 4294967296)
    (hfuel : s.rxWindowDesc.highestReceivedSno - s.rxWindowDesc.firstSnoForReordering ≤ fuel) :
    Ensures E (fun s' => ∃ u, s' = s.withUr u ∧ Passes bound s u) (advance bound fuel s) := by
  induction fuel generalizing s with
  | zero => omega
  | succ fuel ih =>
    have hlen := hs.le
    unfold advance
    have hindex : sub32 s.rxWindowDesc.firstSnoForReordering s.rxWindowDesc.firstSno =
        s.rxWindowDesc.firstSnoForReordering - s.rxWindowDesc.firstSno :=
      sub32_of_le hfirst (by omega)
    simp only [hindex, u32_of_lt (show s.rxWindowDesc.firstSnoForReordering + 1 < 4294967296 by
      omega)]
    refine Ensures.bind (receivedAt_ensures (by omega)) fun r hr => ?_
    have hsome := hs.isSome_iff hr
    split
    · -- the place has its PDU, or lies before the bound
      rename_i hgo
      have hpass : (s.pduBuffer
          (s.rxWindowDesc.firstSnoForReordering - s.rxWindowDesc.firstSno)).isSome ∨
          s.rxWindowDesc.firstSnoForReordering < bound := by
        rcases hgo with rfl | hb
        · exact .inl hsome
        · exact .inr hb
      split
      · rename_i hend
        refine ⟨_, rfl, Nat.le_succ _, hend.le, fun L hL hLu => ?_, fun _ => Nat.lt_succ_self _⟩
        rwa [show L = s.rxWindowDesc.firstSnoForReordering by omega]
      · rename_i hend
        have hnext := ih (s := s.withUr (s.rxWindowDesc.firstSnoForReordering + 1))
          (hs.of_eq rfl rfl rfl rfl) (Nat.le_succ_of_le hfirst)
          (show s.rxWindowDesc.firstSnoForReordering + 1 < _ from lt_of_le_of_ne hle hend) hhigh hlt
          (show _ - (s.rxWindowDesc.firstSnoForReordering + 1) ≤ fuel from by
            simp only [withUr]; omega)
        refine hnext.mono ?_
        rintro s' ⟨u, rfl, hu⟩
        have hge : s.rxWindowDesc.firstSnoForReordering + 1 ≤ u := hu.ge
        refine ⟨u, rfl, by omega, hu.le, fun L hL hLu => ?_, fun _ => hge⟩
        rcases Nat.lt_or_ge s.rxWindowDesc.firstSnoForReordering L with h | h
        · exact hu.passed L h hLu
        · rwa [show L = s.rxWindowDesc.firstSnoForReordering by omega]
    · -- the first missing PDU at or after the bound
      rename_i hgo
      refine ⟨s.rxWindowDesc.firstSnoForReordering, rfl, le_rfl, hle.le,
        fun L hL hLu => by omega, fun h => ?_⟩
      rw [hsome] at h
      exact (hgo (.inl h)).elim

/-- What moving VR(UR) and reassembling leaves behind. -/
structure Delivered (known : UmDataPdu → Prop)
    (J : ℕ → Option (RlcSdu × ℕ) → List RlcSdu → Prop) (bound : ℕ) (D : List RlcSdu)
    (s : UmRxEntity) (r : UmRxEntity × List RlcSdu) (u : ℕ) : Prop where
  frame : Frame (s.withUr u) r.1
  ge : s.rxWindowDesc.firstSnoForReordering ≤ u
  le : u ≤ s.rxWindowDesc.highestReceivedSno
  passed : ∀ L, s.rxWindowDesc.firstSnoForReordering ≤ L → L < u →
    (s.pduBuffer (L - s.rxWindowDesc.firstSno)).isSome ∨ L < bound
  here : (s.pduBuffer (s.rxWindowDesc.firstSnoForReordering - s.rxWindowDesc.firstSno)).isSome →
    s.rxWindowDesc.firstSnoForReordering < u
  slots : Slots known u s.rxWindowDesc.highestReceivedSno r.1
  reads : J u r.1.buffered (D ++ r.2)

theorem deliver_spec (R : Reader known Skip E J) (hreset : s.resetFlag = true → Resettable J)
    (bound : ℕ)
    (hs : Slots known s.rxWindowDesc.firstSnoForReordering s.rxWindowDesc.highestReceivedSno s)
    (hfirst : s.rxWindowDesc.firstSno ≤ s.rxWindowDesc.firstSnoForReordering)
    (hle : s.rxWindowDesc.firstSnoForReordering < s.rxWindowDesc.highestReceivedSno)
    (hhigh : s.rxWindowDesc.highestReceivedSno ≤
      s.rxWindowDesc.firstSno + s.rxWindowDesc.windowSize)
    (hlt : s.rxWindowDesc.highestReceivedSno < 4294967296) (hskip : ∀ L, L < bound → Skip L)
    (hJ : J s.rxWindowDesc.firstSnoForReordering s.buffered D) :
    Ensures E (fun r => ∃ u, Delivered known J bound D s r u) (s.deliver bound) := by
  have hlen := hs.le
  unfold deliver
  refine Ensures.bind (advance_spec hs hfirst hle hhigh hlt (by omega)) ?_
  rintro _ ⟨u, rfl, hu⟩
  have hge := hu.ge
  have hule := hu.le
  have hold : sub32 s.rxWindowDesc.firstSnoForReordering (s.withUr u).rxWindowDesc.firstSno =
      s.rxWindowDesc.firstSnoForReordering - s.rxWindowDesc.firstSno :=
    sub32_of_le hfirst (by omega)
  have hnew : sub32 (s.withUr u).rxWindowDesc.firstSnoForReordering
      (s.withUr u).rxWindowDesc.firstSno = u - s.rxWindowDesc.firstSno :=
    sub32_of_le (show s.rxWindowDesc.firstSno ≤ u by omega) (show u < _ by omega)
  simp only [hold, hnew]
  obtain ⟨i, hi_eq⟩ : ∃ i, i = s.rxWindowDesc.firstSnoForReordering - s.rxWindowDesc.firstSno :=
    ⟨_, rfl⟩
  obtain ⟨n, hn⟩ : ∃ n, n = u - s.rxWindowDesc.firstSno - i := ⟨_, rfl⟩
  rw [← hi_eq, ← hn]
  have hlow : s.rxWindowDesc.firstSno + i = s.rxWindowDesc.firstSnoForReordering := by omega
  have hsum : s.rxWindowDesc.firstSno + i + n = u := by omega
  -- the reassembly reads from the old to the new place
  have hrange := reassembleRange_spec (s := s.withUr u) (i := i) (n := n) (D := D) R hreset
    (hs.of_eq rfl rfl rfl rfl) (show i + n ≤ s.received.length by omega) ?_ ?_ ?_
  · refine hrange.mono fun r hr => ⟨u, hr.frame, hge, hule, hu.passed, hu.here, ?_, ?_⟩
    · have hslots := hr.slots
      rwa [show (s.withUr u).rxWindowDesc.firstSno + i + n = u from hsum, max_eq_right hge]
        at hslots
    · have hreads := hr.reads
      rwa [show (s.withUr u).rxWindowDesc.firstSno + i + n = u from hsum, max_eq_right hge]
        at hreads
  · intro j hj
    obtain ⟨p, hp⟩ := Option.isSome_iff_exists.1 hj
    have := (hs.pdu j p hp).2.2.2.1
    omega
  · intro j hij hjn _ hnone
    have hL : s.rxWindowDesc.firstSnoForReordering ≤ s.rxWindowDesc.firstSno + j := by omega
    rcases hu.passed _ hL (by omega) with hsome | hb
    · rw [Nat.add_sub_cancel_left, show s.pduBuffer j = none from hnone] at hsome
      cases hsome
    · exact hskip _ hb
  · rw [show (s.withUr u).rxWindowDesc.firstSno + i = _ from hlow, max_self]
    exact hJ

/-- What an event leaves behind. -/
structure Handled (known : UmDataPdu → Prop)
    (J : ℕ → Option (RlcSdu × ℕ) → List RlcSdu → Prop) (D : List RlcSdu) (s : UmRxEntity)
    (r : UmRxEntity × List RlcSdu) : Prop where
  reset : r.1.resetFlag = true → s.resetFlag = true
  window : Window known r.1
  reads : J r.1.rxWindowDesc.firstSnoForReordering r.1.buffered (D ++ r.2)

/-- The entity with t-reordering running or not, for the PDUs below `x`. -/
def withTimer (s : UmRxEntity) (busy : Bool) (x : ℕ) : UmRxEntity :=
  { s with tReordering := busy, rxWindowDesc.reorderingSno := x }

/-- The window after VR(UR) has been moved to `u`, with t-reordering as it is then. -/
theorem Delivered.window {bound u x : ℕ} {busy : Bool} {r : UmRxEntity × List RlcSdu}
    (hu : Delivered known J bound D s r u)
    (hfirst : s.rxWindowDesc.firstSno ≤ s.rxWindowDesc.firstSnoForReordering)
    (hhigh : s.rxWindowDesc.highestReceivedSno ≤
      s.rxWindowDesc.firstSno + s.rxWindowDesc.windowSize)
    (hlt : s.rxWindowDesc.highestReceivedSno < 4294967296)
    (hstarted : s.isD2DMultiConnection = true → s.init = true)
    (htimer : busy = true → u < x ∧ x ≤ s.rxWindowDesc.highestReceivedSno) :
    Window known (r.1.withTimer busy x) := by
  have hwin : r.1.rxWindowDesc = { s.rxWindowDesc with firstSnoForReordering := u } :=
    hu.frame.window
  have hge := hu.ge
  have hle := hu.le
  refine ⟨?_, ?_, ?_, ?_, ?_, ?_, fun hm hi => ?_⟩
  · simp only [withTimer, hwin]
    exact hu.slots.of_eq (by simp only [hwin]) (by simp only [hwin]) rfl rfl
  · simp only [withTimer, hwin]; omega
  · simp only [withTimer, hwin]; omega
  · simp only [withTimer, hwin]; omega
  · simp only [withTimer, hwin]; omega
  · simpa only [withTimer, hwin] using htimer
  · have hinit := hstarted (hu.frame.multi.symm.trans hm)
    exact absurd (hinit.symm.trans (hu.frame.init.symm.trans hi)) nofun

theorem handleReordering_spec (s : UmRxEntity) :
    ∃ busy x, s.handleReordering = s.withTimer busy x ∧
      (busy = true → s.rxWindowDesc.firstSnoForReordering < x ∧
        x ≤ s.rxWindowDesc.highestReceivedSno) := by
  unfold handleReordering
  dsimp only
  split
  · rename_i hstart
    exact ⟨true, _, rfl, fun _ => ⟨hstart.2, le_rfl⟩⟩
  · refine ⟨_, s.rxWindowDesc.reorderingSno, rfl, fun hbusy => ?_⟩
    simp only [Bool.and_eq_true, Bool.not_eq_true', Bool.or_eq_false_iff, decide_eq_false_iff_not,
      not_le, not_lt] at hbusy
    exact ⟨hbusy.2.1.1, hbusy.2.2⟩

theorem alreadyReceived_spec (hw : Window known s) {tsn : ℕ} :
    Ensures E (fun r => (r = true → tsn < s.rxWindowDesc.highestReceivedSno) ∧
      (r = false → s.rxWindowDesc.firstSnoForReordering ≤ tsn →
        tsn < s.rxWindowDesc.highestReceivedSno →
        s.pduBuffer (tsn - s.rxWindowDesc.firstSno) = none)) (s.alreadyReceived tsn) := by
  have hfl := hw.first_le
  have hhl := hw.high_le
  have hlt := hw.lt
  have hlen := hw.slots.le
  have hW := s.rxWindowDesc.windowSize_lt
  unfold alreadyReceived
  dsimp only
  split
  · rename_i hin
    have hindex : i32 (sub32 tsn s.rxWindowDesc.firstSno) =
        ((tsn - s.rxWindowDesc.firstSno : ℕ) : ℤ) := by
      rw [sub32_of_le (by omega) (by omega), i32_of_lt (by omega)]
    rw [hindex, if_neg (by omega), Int.toNat_natCast]
    refine (receivedAt_ensures (by omega)).mono fun r hr =>
      ⟨fun _ => hin.2, fun hfalse _ _ => ?_⟩
    subst hfalse
    simpa using hw.slots.isSome_iff hr
  · rename_i hin
    exact ⟨fun h => (Bool.false_ne_true h).elim, fun _ h₁ h₂ => (hin ⟨h₁, h₂⟩).elim⟩

/-- What the arrival of the PDU `tsn` leaves behind. -/
structure Arrived (known : UmDataPdu → Prop)
    (J : ℕ → Option (RlcSdu × ℕ) → List RlcSdu → Prop) (D : List RlcSdu) (tsn : ℕ)
    (s : UmRxEntity) (r : UmRxEntity × List RlcSdu) : Prop extends Handled known J D s r where
  /-- The PDU that was waited for is passed. -/
  ur : s.rxWindowDesc.firstSnoForReordering = tsn → s.rxWindowDesc.highestReceivedSno ≤ tsn →
    tsn < r.1.rxWindowDesc.firstSnoForReordering
  uh : r.1.rxWindowDesc.highestReceivedSno ≤ max s.rxWindowDesc.highestReceivedSno (tsn + 1)
  size : r.1.rxWindowDesc.windowSize = s.rxWindowDesc.windowSize
  first : r.1.rxWindowDesc.firstSno = s.firstAfter tsn
  /-- VR(UR) passes only PDUs that are there, unless they fall out of the window. -/
  passed : ∀ L, s.rxWindowDesc.firstSnoForReordering ≤ L → r.1.rxWindowDesc.firstSno ≤ L →
    L < r.1.rxWindowDesc.firstSnoForReordering → ∃ p, known p ∧ p.pduSequenceNumber = L

/-- A PDU that is thrown away changes nothing. -/
theorem arrived_rejected (hw : Window known s) {tsn : ℕ}
    (hold : tsn < s.rxWindowDesc.highestReceivedSno)
    (hJ : J s.rxWindowDesc.firstSnoForReordering s.buffered D) :
    Arrived known J D tsn s (s, []) := by
  have hreads : J s.rxWindowDesc.firstSnoForReordering s.buffered (D ++ []) := by
    rwa [List.append_nil]
  exact ⟨⟨id, hw, hreads⟩, fun _ hhigh => absurd hold (not_lt.2 hhigh), le_max_left _ _, rfl,
    (if_pos (.inl hold)).symm, fun L hL _ hlt => absurd hlt (not_lt.2 hL)⟩

/-- What a PDU leaves that has been stored when those that are there have been delivered. -/
theorem Opened.arrived (hw : Window known s) {pdu : UmDataPdu} {a d : UmRxEntity × List RlcSdu}
    {s₁ : UmRxEntity} {u : ℕ} (hr : Opened known J D pdu.pduSequenceNumber s a)
    (hs₁ : Stored known a.1.rxWindowDesc.firstSnoForReordering
      a.1.rxWindowDesc.highestReceivedSno pdu a.1 s₁)
    (hu : Delivered known J 0 (D ++ a.2) s₁ d u)
    (hinit : s.isD2DMultiConnection = true → s.init = true)
    (hhigh : a.1.rxWindowDesc.highestReceivedSno < 4294967296) :
    Arrived known J D pdu.pduSequenceNumber s (d.1.handleReordering, a.2 ++ d.2) := by
  have hlt := hw.lt
  have hle := hw.le
  have huh := hr.uh
  have hur := hr.ur
  have hfl := hr.first_le
  have hhl := hr.high_le
  have hwin := hs₁.frame.window
  obtain ⟨busy, x, heq, hbusy⟩ := handleReordering_spec d.1
  have hwin' : d.1.rxWindowDesc = { a.1.rxWindowDesc with firstSnoForReordering := u } := by
    rw [hu.frame.window]
    simp only [withUr, hwin]
  have hge := hu.ge
  have hle' := hu.le
  rw [hwin] at hge hle'
  have hstarted : s₁.isD2DMultiConnection = true → s₁.init = true := by
    intro hm
    rw [hs₁.frame.init, hr.init]
    exact hinit (hr.multi.symm.trans (hs₁.frame.multi.symm.trans hm))
  have hbusy' : busy = true → u < x ∧ x ≤ s₁.rxWindowDesc.highestReceivedSno := by
    rw [hwin]
    simpa only [hwin'] using hbusy
  have hwindow : Window known (d.1.withTimer busy x) := by
    refine hu.window ?_ ?_ ?_ hstarted hbusy' <;> rw [hwin] <;> omega
  refine ⟨⟨?_, ?_, ?_⟩, ?_, ?_, ?_, ?_, ?_⟩ <;> simp only [heq]
  · exact fun h => hr.reset (hs₁.frame.reset (hu.frame.reset h))
  · exact hwindow
  · simp only [withTimer, hwin']
    simpa using hu.reads
  · intro h₁ h₂
    -- nothing was there to pass before, so the PDU itself is the one waited for
    have hhere : s₁.rxWindowDesc.firstSnoForReordering = pdu.pduSequenceNumber := by
      rw [hwin]; omega
    have := hu.here (by rw [hhere, hwin, hs₁.here]; rfl)
    simp only [withTimer, hwin']
    omega
  · simp only [withTimer, hwin']; omega
  · simp only [withTimer, hwin', hr.size]
  · simp only [withTimer, hwin', hr.first]
  · simp only [withTimer, hwin']
    intro L hL hfirst hLu
    have hpassed := hu.passed L (by rw [hwin]; omega) hLu
    rw [hwin] at hpassed
    obtain ⟨p, hp⟩ := Option.isSome_iff_exists.1 (hpassed.resolve_right (Nat.not_lt_zero L))
    obtain ⟨hkp, -, hsno, -⟩ := hs₁.slots.pdu _ p hp
    rw [hwin] at hsno
    exact ⟨p, hkp, by omega⟩

theorem receive_spec (R : Reader known Skip E J) (hreset : s.resetFlag = true → Resettable J)
    (hw : Window known s) {pdu : UmDataPdu} (hk : known pdu)
    (hinit : s.isD2DMultiConnection = true → s.init = true)
    (hadm : s.rxWindowDesc.highestReceivedSno ≤ pdu.pduSequenceNumber →
      pdu.pduSequenceNumber + 1 < 4294967296 ∧
        pdu.pduSequenceNumber + 1 - s.rxWindowDesc.highestReceivedSno < 2147483648)
    (hskip : ∀ L, s.rxWindowDesc.firstSnoForReordering ≤ L → L < pdu.pduSequenceNumber → Skip L)
    (hJ : J s.rxWindowDesc.firstSnoForReordering s.buffered D) :
    Ensures E (Arrived known J D pdu.pduSequenceNumber s) (s.receive pdu) := by
  have hlt := hw.lt
  have hle := hw.le
  unfold receive
  refine Ensures.bind (alreadyReceived_spec hw) fun r hr => ?_
  cases r with
  | true =>
    exact arrived_rejected hw (hr.1 rfl) hJ
  | false =>
    simp only [Bool.false_eq_true, if_false]
    -- the PDU is older than what has been read
    split
    · rename_i hold
      exact arrived_rejected hw (by omega) hJ
    rename_i hnew
    rw [not_lt] at hnew
    refine Ensures.bind (advanceWindow_spec R hreset hw hnew hadm (hr.2 rfl hnew) hskip hJ)
      fun r hr => ?_
    have huh := hr.uh
    have hur := hr.ur
    have hfl := hr.first_le
    have hhl := hr.high_le
    have hhigh : r.1.rxWindowDesc.highestReceivedSno < 4294967296 := by
      rcases Nat.lt_or_ge pdu.pduSequenceNumber s.rxWindowDesc.highestReceivedSno with h | h
      · omega
      · have := (hadm h).1
        omega
    refine Ensures.bind (store_spec r.1.rxWindowDesc.highestReceivedSno hr.slots hk hfl
      (by omega) (by omega) (by omega) hhigh (by omega) hr.free) fun s₁ hs₁ => ?_
    have hwin := hs₁.frame.window
    have hflag : s₁.resetFlag = true → s.resetFlag = true :=
      fun h => hr.reset (hs₁.frame.reset h)
    have hdel := deliver_spec (s := s₁) (D := D ++ r.2) R (fun h => hreset (hflag h)) 0
      (by rw [hwin]; exact hs₁.slots) (by rw [hwin]; omega) (by rw [hwin]; omega)
      (by rw [hwin]; omega) (by rw [hwin]; omega) (fun L hL => by omega)
      (by rw [hwin, hs₁.buffered]; exact hr.reads)
    refine Ensures.bind hdel ?_
    rintro r' ⟨u, hu⟩
    exact hr.arrived hw hs₁ hu hinit hhigh

/-- **A PDU arrives.** -/
theorem enque_spec (R : Reader known Skip E J) (hreset : s.resetFlag = true → Resettable J)
    (hw : Window known s) {pdu : UmDataPdu} (hk : known pdu)
    (hadm : s.Admissible pdu.pduSequenceNumber)
    (hskip : ∀ L, s.rxWindowDesc.firstSnoForReordering ≤ L → L < pdu.pduSequenceNumber → Skip L)
    (hJ : J s.rxWindowDesc.firstSnoForReordering s.buffered D) :
    Ensures E (Arrived known J D pdu.pduSequenceNumber (s.startMulti pdu.pduSequenceNumber))
      (s.enque pdu) := by
  obtain ⟨hw', hJ', hle, hinit⟩ := startMulti_spec R hw hadm hskip hJ
  exact receive_spec R (fun h => hreset (startMulti_resetFlag.symm.trans h)) hw' hk hinit hadm
    (fun L hL => hskip L (le_trans hle hL)) hJ'

/-- **The timer expires.** -/
theorem handleTimer_spec (R : Reader known Skip E J)
    (hreset : s.resetFlag = true → Resettable J) (hw : Window known s)
    (hbusy : s.tReordering = true) (hskip : ∀ L, Skip L)
    (hJ : J s.rxWindowDesc.firstSnoForReordering s.buffered D) :
    Ensures E (fun r => Handled known J D s r ∧
      r.1.rxWindowDesc.highestReceivedSno = s.rxWindowDesc.highestReceivedSno) s.handleTimer := by
  obtain ⟨hux, hxh⟩ := hw.timer hbusy
  unfold handleTimer
  have hdel := deliver_spec (s := { s with tReordering := false }) (D := D) R hreset
    s.rxWindowDesc.reorderingSno (hw.slots.of_eq rfl rfl rfl rfl) hw.first_le
    (lt_of_lt_of_le hux hxh) hw.high_le hw.lt (fun L _ => hskip L) hJ
  refine Ensures.bind hdel ?_
  rintro r ⟨u, hu⟩
  have hwin : r.1.rxWindowDesc = { s.rxWindowDesc with firstSnoForReordering := u } :=
    hu.frame.window
  have hge : s.rxWindowDesc.firstSnoForReordering ≤ u := hu.ge
  have hule : u ≤ s.rxWindowDesc.highestReceivedSno := hu.le
  have hreads := hu.reads
  -- a receiver that has not begun has no timer
  have hstarted : s.isD2DMultiConnection = true → s.init = true := by
    intro hm
    by_contra hinit
    have hidle := (hw.fresh hm (by simpa using hinit)).2.1
    rw [hbusy] at hidle
    cases hidle
  have hwindow : ∀ busy x, (busy = true → u < x ∧ x ≤ s.rxWindowDesc.highestReceivedSno) →
      Window known (r.1.withTimer busy x) := fun busy x htimer =>
    hu.window hw.first_le hw.high_le hw.lt hstarted htimer
  dsimp only
  -- the timer is started again if PDUs are still missing
  split
  · rename_i hmore
    rw [hwin] at hmore
    have hstart := hwindow true s.rxWindowDesc.highestReceivedSno fun _ => ⟨hmore, le_rfl⟩
    have heq : r.1.withTimer true s.rxWindowDesc.highestReceivedSno =
        { r.1 with
          rxWindowDesc.reorderingSno := r.1.rxWindowDesc.highestReceivedSno
          tReordering := true } := by
      simp only [withTimer, hwin]
    refine ⟨⟨hu.frame.reset, ?_, ?_⟩, by simp only [hwin]⟩
    · rw [heq] at hstart
      exact hstart
    · simp only [hwin]
      exact hreads
  · have hidle : r.1.tReordering = false := hu.frame.timer
    have hstop := hwindow false r.1.rxWindowDesc.reorderingSno fun h => by cases h
    have heq : r.1.withTimer false r.1.rxWindowDesc.reorderingSno = r.1 := by
      rw [← hidle]
      rfl
    rw [heq] at hstop
    refine ⟨⟨hu.frame.reset, hstop, ?_⟩, by rw [hwin]⟩
    rw [hwin]
    exact hreads

end

/-! ### Whole runs -/

/-- What can happen to an entity. -/
inductive Event where
  /-- A PDU arrives. -/
  | arrive (pdu : UmDataPdu)
  /-- t-reordering expires. -/
  | expire

/-- The handler of an event. -/
def handle (s : UmRxEntity) : Event → Except RxError (UmRxEntity × List RlcSdu)
  | .arrive pdu => s.enque pdu
  | .expire => s.handleTimer

/-- The event can happen now: only a running timer expires. -/
def Event.Enabled (s : UmRxEntity) : Event → Prop
  | .arrive _ => True
  | .expire => s.tReordering = true

instance (s : UmRxEntity) (e : Event) : Decidable (e.Enabled s) := by
  cases e <;> unfold Event.Enabled <;> infer_instance

/-- The entity as a machine; an exception ends the run. -/
def machine : Machine UmRxEntity Event RlcSdu where
  step s e := if e.Enabled s then (s.handle e).toOption else none

/-- The window is in order. -/
structure WindowOk (s : UmRxEntity) : Prop where
  /-- VR(UR) is not below the window. -/
  first_le : s.rxWindowDesc.firstSno ≤ s.rxWindowDesc.firstSnoForReordering
  /-- VR(UH) is not below VR(UR). -/
  le : s.rxWindowDesc.firstSnoForReordering ≤ s.rxWindowDesc.highestReceivedSno
  /-- VR(UH) is not beyond the window. -/
  high_le : s.rxWindowDesc.highestReceivedSno ≤
    s.rxWindowDesc.firstSno + s.rxWindowDesc.windowSize
  /-- A position is marked iff it holds the PDU of its number. -/
  received : ∀ i, s.received[i]? = some true ↔
    ∃ pdu, s.pduBuffer i = some pdu ∧ pdu.pduSequenceNumber = s.rxWindowDesc.firstSno + i
  /-- If t-Reordering runs, VR(UX) is beyond VR(UR) and not beyond VR(UH). -/
  timer : s.tReordering = true →
    s.rxWindowDesc.firstSnoForReordering < s.rxWindowDesc.reorderingSno ∧
      s.rxWindowDesc.reorderingSno ≤ s.rxWindowDesc.highestReceivedSno

/-- The arrivals of a run are admissible where they happen. -/
def Event.Ok (s : UmRxEntity) : Event → Prop
  | .arrive pdu => s.Admissible pdu.pduSequenceNumber
  | .expire => True

instance (s : UmRxEntity) (e : Event) : Decidable (e.Ok s) := by
  cases e <;> unfold Event.Ok <;> infer_instance

theorem Window.ok {known : UmDataPdu → Prop} {s : UmRxEntity} (hw : Window known s) :
    WindowOk s := by
  refine ⟨hw.first_le, hw.le, hw.high_le, fun i => ?_, hw.timer⟩
  rw [hw.slots.held i, Option.isSome_iff_exists]
  constructor
  · rintro ⟨p, hp⟩
    exact ⟨p, hp, (hw.slots.pdu i p hp).2.2.1⟩
  · rintro ⟨p, hp, -⟩
    exact ⟨p, hp⟩

theorem window_initial {known : UmDataPdu → Prop} {W : ℕ} (hpos : 1 ≤ W) (hW : W < 2147483648)
    (multi : Bool) : Window known (initial W hW multi) := by
  refine ⟨⟨hpos, ?_, fun i => ?_, fun i p hp => ?_⟩, le_rfl, le_rfl, Nat.zero_le _, ?_, ?_, ?_⟩
  · simp [initial]
  · by_cases hi : i < W
    · simp [initial, hi]
    · simp [initial, hi]
  · cases hp
  · exact Nat.zero_lt_succ _
  · intro h
    cases h
  · intro _ _
    exact ⟨rfl, rfl, fun _ => rfl⟩

theorem takePart_ensures (b : Option (RlcSdu × ℕ)) (c : RlcSdu × ℕ) (part : Part) :
    Ensures RxError.OfContents (fun _ => True) (takePart b c part) := by
  cases part with
  | whole =>
    simp only [takePart]
    split
    · exact .inl rfl
    · trivial
  | first => trivial
  | mid =>
    cases b with
    | none => trivial
    | some p =>
      unfold takePart
      dsimp only
      split <;> trivial
  | last =>
    cases b with
    | none => trivial
    | some p =>
      unfold takePart
      dsimp only
      split
      · trivial
      · split
        · trivial
        · split
          · exact .inl rfl
          · trivial

theorem takeSdus_ensures (fi numSdu i : ℕ) (b : Option (RlcSdu × ℕ)) (cs : List (RlcSdu × ℕ)) :
    Ensures RxError.OfContents (fun _ => True) (takeSdus fi numSdu i b cs) := by
  induction cs generalizing i b with
  | nil => trivial
  | cons c cs ih =>
    unfold takeSdus
    split
    · exact .inr rfl
    · refine Ensures.bind (takePart_ensures b c _) fun r _ => ?_
      exact Ensures.bind (ih (i + 1) r.1) fun r' _ => trivial

/-- Whatever the PDUs contain, only their contents can cause an exception. -/
theorem reader_any {known : UmDataPdu → Prop} :
    Reader known (fun _ => True) RxError.OfContents fun _ _ _ => True :=
  ⟨fun p b _ _ _ => takeSdus_ensures p.framingInfo p.sdus.length 0 b p.sdus,
    fun _ _ _ _ _ => trivial⟩

theorem handle_spec {known : UmDataPdu → Prop} {E : RxError → Prop}
    {J : ℕ → Option (RlcSdu × ℕ) → List RlcSdu → Prop} {s : UmRxEntity} {D : List RlcSdu}
    (R : Reader known (fun _ => True) E J) (hreset : s.resetFlag = true → Resettable J)
    (hw : Window known s) {e : Event} (hen : e.Enabled s) (hok : e.Ok s)
    (hk : ∀ pdu, e = .arrive pdu → known pdu)
    (hJ : J s.rxWindowDesc.firstSnoForReordering s.buffered D) :
    Ensures E (fun r => Window known r.1 ∧ J r.1.rxWindowDesc.firstSnoForReordering r.1.buffered
      (D ++ r.2)) (s.handle e) := by
  cases e with
  | arrive pdu =>
    exact (enque_spec R hreset hw (hk pdu rfl) hok (fun _ _ _ => trivial) hJ).mono
      fun r hr => ⟨hr.window, hr.reads⟩
  | expire =>
    exact (handleTimer_spec R hreset hw hen (fun _ => trivial) hJ).mono
      fun r hr => ⟨hr.1.window, hr.1.reads⟩

theorem step_eq_some {s s' : UmRxEntity} {e : Event} {o : List RlcSdu} :
    machine.step s e = some (s', o) ↔ e.Enabled s ∧ s.handle e = .ok (s', o) := by
  unfold machine
  dsimp only
  split
  · rename_i hen
    cases h : s.handle e with
    | ok r => simp [Except.toOption, hen]
    | error err => simp [Except.toOption]
  · rename_i hen
    simp [hen]

/-- **The window is in order after every run whose arrivals are admissible, and the next event
does not use a position out of range.** -/
theorem window_kept {W : ℕ} (hpos : 1 ≤ W) (hW : W < 2147483648) (multi : Bool)
    {es : List Event} {s : UmRxEntity} {os : List RlcSdu}
    (hrun : machine.exec (initial W hW multi) es = some (s, os))
    (hok : ∀ s e s' o, machine.Takes (initial W hW multi) es s e s' o → e.Ok s) :
    WindowOk s ∧ ∀ e : Event, e.Enabled s → e.Ok s →
      ∀ err, s.handle e = .error err → err.OfContents := by
  have hw : Window (fun _ => True) s := by
    have hvisits : machine.Visits (initial W hW multi) es s :=
      ⟨es, [], os, (List.append_nil es).symm, hrun⟩
    refine hvisits.invariant (window_initial hpos hW multi) fun s e s' o ht hw => ?_
    have he := hok s e s' o ht
    obtain ⟨es₁, es₂, os₁, -, -, hstep⟩ := ht
    obtain ⟨hen, hhandle⟩ := step_eq_some.1 hstep
    have h := handle_spec (D := []) reader_any (fun _ _ _ _ _ => trivial) hw hen he
      (fun _ _ => trivial)
      trivial
    rw [hhandle] at h
    exact h.1
  refine ⟨hw.ok, fun e hen he err herr => ?_⟩
  have h := handle_spec (D := []) reader_any (fun _ _ _ _ _ => trivial) hw hen he
    (fun _ _ => trivial)
    trivial
  rw [herr] at h
  exact h

/-- One SDU in one PDU, with the sequence number `tsn`. -/
def onePdu (tsn : ℕ) : UmDataPdu := ⟨tsn, 0, [(RlcSdu.small 1 9, 10)]⟩

/-- PDUs with gaps, a timer that expires, a late PDU, one that moves the window and a duplicate. -/
def reordered : List Event :=
  [.arrive (onePdu 3), .arrive (onePdu 5), .expire, .arrive (onePdu 4), .arrive (onePdu 20),
    .arrive (onePdu 18), .arrive (onePdu 18)]

theorem window_kept_reordered :
    ∃ s os, machine.exec (initial 16 (by decide) false) reordered = some (s, os) ∧ WindowOk s := by
  have hsome : (machine.exec (initial 16 (by decide) false) reordered).isSome := by
    decide +kernel
  obtain ⟨⟨s, os⟩, hrun⟩ := Option.isSome_iff_exists.1 hsome
  have hmeets : machine.Meets (fun s e => Event.Ok s e) (initial 16 (by decide) false)
    reordered := by decide +kernel
  exact ⟨s, os, hrun, (window_kept (by decide) (by decide) false hrun fun s e s' o ht =>
    hmeets.takes ht).1⟩

/-- A first PDU that is `2 ^ 31` ahead is put at a negative position. -/
theorem far_pdu_out_of_range :
    (initial 16 (by decide) false).handle (.arrive (onePdu 2147483648)) = .error .outOfRange := by
  rfl

end UmRxEntity

end V2nLte
