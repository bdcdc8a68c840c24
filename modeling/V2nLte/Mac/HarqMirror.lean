import V2nLte.Mac.Harq

/-!
# The mirror of a D2D H-ARQ buffer

Two UEs send PDUs to each other directly, and the eNB grants the blocks for it.  For the eNB to know
which processes of the sender wait for a retransmission, the receiver sends a copy of each feedback
to it, and the eNB has a `LteHarqBufferMirrorD2D` that follows the sender.

The feedback and its copy are on their way at the same time, and either may come first: the eNB may
be behind the sender or ahead of it.  What both make of the same feedback is a `tally` : which PDU
is in the process and how often it has failed.

* `mirror_agrees` : when what is on the way has arrived, the mirror agrees with the sender.
* `grants_answer_nacks` : a retransmission is granted for the length of a PDU of the sender, and not
  more often than it is asked for.

The sender and the receiver are those of `HarqPair`.  Both MACs have the same `maxHarqRtx`, and the
connection is neither a multicast one nor switched to another mode.
-/

namespace V2nLte

/-- A codeword of a `LteHarqProcessMirrorD2D`. -/
structure HarqMirrorUnit where
  /-- The status of the unit at the sender, as far as the eNB knows. -/
  status : TxHarqPduStatus := .EMPTY
  /-- The length of the PDU in it. -/
  pduLength : ℕ := 0
  /-- How often the eNB has heard of it. -/
  transmissions : ℕ := 0

/-- `LteHarqFeedbackMirror`. -/
structure HarqFeedbackMirror extends HarqFeedback where
  /-- The length of the PDU that it is about. -/
  pduLength : ℕ

/-- `LteHarqProcessMirrorD2D::storeFeedback`. -/
def HarqMirrorUnit.storeFeedback (maxTransmissions : ℕ) (u : HarqMirrorUnit)
    (fb : HarqFeedbackMirror) : HarqMirrorUnit :=
  let u := { u with pduLength := fb.pduLength, transmissions := u8 (u.transmissions + 1) }
  if fb.result then { u with transmissions := 0, status := .EMPTY }
  else if u.transmissions = u8 maxTransmissions + 1 then
    { u with transmissions := 0, status := .EMPTY }
  else { u with status := .BUFFERED }

/-- `markSelectedAsWaiting`, for a unit. -/
def HarqMirrorUnit.markSelectedAsWaiting (u : HarqMirrorUnit) : HarqMirrorUnit :=
  if u.status = .SELECTED then { u with status := .WAITING } else u

/-- A D2D connection and the mirror at the eNB. -/
structure HarqD2D where
  /-- The two UEs. -/
  pair : HarqPair := {}
  /-- The copies of the feedback on their way to the eNB. -/
  toMirror : List HarqFeedbackMirror := []
  /-- The mirror, by process. -/
  mirror : ℕ → HarqMirrorUnit := fun _ => {}

/-- What can be seen. -/
inductive HarqD2DOutput where
  /-- What the UEs do. -/
  | pair (o : HarqOutput)
  /-- The mirror is told of a feedback. -/
  | mirrored (acid : ℕ) (result : Bool)
  /-- Blocks for a retransmission of so many bytes are granted. -/
  | rtx (acid bytes : ℕ)
  deriving DecidableEq

namespace HarqD2D

/-- What can happen. -/
inductive Event where
  /-- Something happens at the UEs. -/
  | pair (e : HarqPair.Event)
  /-- The oldest copy of a feedback arrives at the eNB. -/
  | mirror
  /-- The scheduler of the eNB finds room for a retransmission. -/
  | schedulePerAcidRtxD2D (acid : ℕ)
  /-- The eNB has sent its grants. -/
  | flushHarqBuffers

variable (P : HarqParams) (byteLength : ℕ → ℕ) (s : HarqD2D)

/-- The feedback that an event of the UEs puts on the way. -/
def reports : HarqPair.Event → List HarqFeedback
  | .rxTti => (List.range P.numProc).filterMap fun acid =>
      HarqPair.feedbackOf s.pair.now acid (s.pair.rx acid)
  | _ => []

/-- `createFeedbackMirror`, which is called whenever `createFeedback` is. -/
def copies (e : HarqPair.Event) : List HarqFeedbackMirror :=
  (s.reports P e).map fun fb => { fb with pduLength := byteLength fb.fbMacPduId }

/-- The UEs and the eNB. -/
def machine : Machine HarqD2D Event HarqD2DOutput where
  step s
    | .pair e =>
      ((HarqPair.machine P).step s.pair e).map fun r =>
        ({ s with pair := r.1, toMirror := s.toMirror ++ s.copies P byteLength e },
          r.2.map .pair)
    | .mirror =>
      match s.toMirror with
      | [] => none
      | fb :: rest =>
        some ({ s with
          toMirror := rest
          mirror := Function.update s.mirror fb.acid
            ((s.mirror fb.acid).storeFeedback P.maxHarqRtx fb) }, [.mirrored fb.acid fb.result])
    | .schedulePerAcidRtxD2D acid =>
      let u := s.mirror acid
      if u.status = .BUFFERED then
        some ({ s with mirror := Function.update s.mirror acid { u with status := .SELECTED } },
          [.rtx acid u.pduLength])
      else some (s, [])
    | .flushHarqBuffers =>
      some ({ s with mirror := fun acid => (s.mirror acid).markSelectedAsWaiting }, [])

/-! ### What is made of the feedback -/

/-- The PDU of a process and how often it has failed, if it has, after a feedback. -/
def tally (maxHarqRtx : ℕ) (t : Option (ℕ × ℕ)) (fb : HarqFeedback) : Option (ℕ × ℕ) :=
  if fb.result then none
  else
    let n := (t.map Prod.snd).getD 0 + 1
    if n = maxHarqRtx + 1 then none else some (fb.fbMacPduId, n)

/-- How often the PDU of a process of the sender has failed. -/
def failures (t : HarqProcessTx) : ℕ :=
  if t.status = .WAITING then t.transmissions - 1 else t.transmissions

/-- What the sender has made of its feedback. -/
def known (t : HarqProcessTx) : Option (ℕ × ℕ) :=
  match t.pduId with
  | none => none
  | some p => if failures t = 0 then none else some (p, failures t)

/-- A unit of the mirror agrees with what is made of the feedback. -/
inductive Agrees : HarqMirrorUnit → Option (ℕ × ℕ) → Prop
  | empty {u : HarqMirrorUnit} (hstatus : u.status = .EMPTY) (htx : u.transmissions = 0) :
      Agrees u none
  | failed {u : HarqMirrorUnit} {p n : ℕ} (hstatus : u.status ≠ .EMPTY)
      (htx : u.transmissions = n) (hpos : 1 ≤ n) (hn : n ≤ P.maxHarqRtx)
      (hlen : u.pduLength = byteLength p) : Agrees u (some (p, n))

variable {P byteLength s} {u : HarqMirrorUnit} {t : Option (ℕ × ℕ)} {q : HarqProcessTx}
  {fb : HarqFeedback} {m : HarqFeedbackMirror}

/-- The mirror makes of a copy what is to be made of the feedback. -/
theorem Agrees.storeFeedback (h : Agrees P byteLength u t) (hlim : P.maxHarqRtx ≤ 254)
    (hm : m.pduLength = byteLength m.fbMacPduId) :
    Agrees P byteLength (u.storeFeedback P.maxHarqRtx m)
      (tally P.maxHarqRtx t m.toHarqFeedback) := by
  obtain ⟨n, hn, htx, ht⟩ : ∃ n, n ≤ P.maxHarqRtx ∧ u.transmissions = n ∧
      (t.map Prod.snd).getD 0 = n := by
    cases h with
    | empty hstatus htx => exact ⟨0, Nat.zero_le _, htx, rfl⟩
    | failed hstatus htx hpos hn hlen => exact ⟨_, hn, htx, rfl⟩
  have hu : u8 (u.transmissions + 1) = n + 1 := by rw [htx, u8_of_lt (by omega)]
  have hmax : u8 P.maxHarqRtx = P.maxHarqRtx := u8_of_lt (by omega)
  simp only [HarqMirrorUnit.storeFeedback, tally, hu, hmax, ht]
  split
  · exact .empty rfl rfl
  · split
    · exact .empty rfl rfl
    · exact .failed (by simp) rfl (Nat.succ_pos n) (by omega) hm

/-- The scheduler of the eNB only moves a unit on that is not empty. -/
theorem Agrees.withStatus (h : Agrees P byteLength u t) {status : TxHarqPduStatus}
    (hu : u.status ≠ .EMPTY) (hstatus : status ≠ .EMPTY) :
    Agrees P byteLength { u with status } t := by
  cases h with
  | empty hempty htx => exact absurd hempty hu
  | failed _ htx hpos hn hlen => exact .failed hstatus htx hpos hn hlen

theorem Agrees.markSelectedAsWaiting (h : Agrees P byteLength u t) :
    Agrees P byteLength u.markSelectedAsWaiting t := by
  unfold HarqMirrorUnit.markSelectedAsWaiting
  split
  · rename_i hu
    exact h.withStatus (by simp [hu]) (by simp)
  · exact h

/-- When the copies arrive that are on the way. -/
theorem Agrees.foldl {l : List HarqFeedbackMirror} (h : Agrees P byteLength u t)
    (hlim : P.maxHarqRtx ≤ 254) (hl : ∀ m ∈ l, m.pduLength = byteLength m.fbMacPduId) :
    Agrees P byteLength (l.foldl (HarqMirrorUnit.storeFeedback P.maxHarqRtx) u)
      ((l.map HarqFeedbackMirror.toHarqFeedback).foldl (tally P.maxHarqRtx) t) := by
  induction l generalizing u t with
  | nil => exact h
  | cons m l ih =>
    rw [List.map_cons, List.foldl_cons, List.foldl_cons]
    exact ih (h.storeFeedback hlim (hl m List.mem_cons_self))
      fun m' hm' => hl m' (List.mem_cons_of_mem _ hm')

/-! ### The sender -/

section Sender

variable {r r' : HarqPair} {os o : List HarqOutput} {e : HarqPair.Event} {rest : List HarqFeedback}

theorem known_update {a : ℕ} {q' : HarqProcessTx} (hq : known q' = known (r.tx a)) (b : ℕ) :
    known (Function.update r.tx a q' b) = known (r.tx b) := by
  by_cases hb : b = a
  · subst hb
    rw [Function.update_self, hq]
  · rw [Function.update_of_ne hb]

/-- A new PDU has not failed. -/
theorem known_insertPdu (h : HarqPair.Inv P r os) {acid pdu : ℕ}
    (hempty : (r.tx acid).status = .EMPTY) (hst : r.insertPdu acid pdu = some r') (b : ℕ) :
    known (r'.tx b) = known (r.tx b) := by
  simp only [HarqPair.insertPdu] at hst
  split at hst
  · cases hst
  · split at hst
    · cases hst
    · obtain rfl := Option.some.inj hst
      refine known_update ?_ b
      rw [((h.phase acid).of_empty hempty).1]
      rfl

/-- To be selected is not to have failed again. -/
theorem known_markSelected {acid : ℕ} (hst : r.markSelected acid = some r') (b : ℕ) :
    known (r'.tx b) = known (r.tx b) := by
  simp only [HarqPair.markSelected] at hst
  split at hst
  · cases hst
  · split at hst
    · cases hst
    · rename_i hbuffered
      obtain rfl := Option.some.inj hst
      refine known_update ?_ b
      have hstatus : (r.tx acid).status = .BUFFERED := not_not.1 hbuffered
      simp [known, failures, hstatus]

/-- Nor is to be sent. -/
theorem known_sendSelectedDown (h : HarqPair.Inv P r os) (hlim : P.maxHarqRtx ≤ 254)
    (hst : r.sendSelectedDown = some (r', o)) (b : ℕ) : known (r'.tx b) = known (r.tx b) := by
  simp only [HarqPair.sendSelectedDown] at hst
  split at hst
  · obtain ⟨rfl, -⟩ := Prod.mk.inj (Option.some.inj hst)
    rfl
  · split at hst
    · rename_i pdu hstatus hpdu
      split at hst
      · cases hst
      · obtain ⟨rfl, -⟩ := Prod.mk.inj (Option.some.inj hst)
        obtain ⟨p, k, htx, hk, -⟩ := (h.phase r.selectedAcid).of_selected hstatus
        refine known_update ?_ b
        have hu : u8 (k + 1) = k + 1 := u8_of_lt (by omega)
        simp [known, failures, htx, hu]
    · obtain ⟨rfl, -⟩ := Prod.mk.inj (Option.some.inj hst)
      rfl

/-- The sender makes of a feedback what is to be made of it. -/
theorem known_receiveHarqFeedback (h : HarqPair.Inv P r os) (hlim : P.maxHarqRtx ≤ 254)
    (hfb : r.feedback = fb :: rest) (hst : r.receiveHarqFeedback P fb rest = some (r', o)) :
    r'.feedback = rest ∧ r'.used = r.used ∧ ∀ b, known (r'.tx b) =
      if b = fb.acid then tally P.maxHarqRtx (known (r.tx b)) fb else known (r.tx b) := by
  have hhead : fb ∈ r.feedback.filter (·.acid = fb.acid) := by simp [hfb]
  obtain ⟨p, k, htx, hk, -⟩ := (h.phase fb.acid).of_feedback (h.settled fb.acid).1 hhead
  have hlimit : u32 (u32 P.maxHarqRtx + 1) = P.maxHarqRtx + 1 := by
    rw [u32_of_lt (show P.maxHarqRtx < 4294967296 by omega), u32_of_lt (by omega)]
  have htally : tally P.maxHarqRtx (known (r.tx fb.acid)) fb =
      if fb.result then none
      else if k + 1 = P.maxHarqRtx + 1 then none else some (fb.fbMacPduId, k + 1) := by
    by_cases hk0 : k = 0
    · simp [tally, known, failures, htx, hk0]
    · simp [tally, known, failures, htx, hk0]
  simp only [HarqPair.receiveHarqFeedback, htx, hlimit] at hst
  -- feedback for another PDU, or for a unit that does not wait for it
  split at hst
  · cases hst
  · rename_i hpdu
    have hid : p = fb.fbMacPduId := by simpa using hpdu
    split at hst
    · simp_all
    · split at hst
      · -- the unit is reset
        rename_i hdone
        obtain ⟨rfl, -⟩ := Prod.mk.inj (Option.some.inj hst)
        refine ⟨rfl, rfl, fun b => ?_⟩
        by_cases hb : b = fb.acid
        · subst hb
          rw [if_pos rfl, htally]
          simp only [Function.update_self]
          rcases hdone with hack | hlast
          · simp [known, hack]
          · simp [known, hlast]
        · simp [hb]
      · -- the unit is buffered, and the failure counted
        rename_i hmore
        obtain ⟨rfl, -⟩ := Prod.mk.inj (Option.some.inj hst)
        refine ⟨rfl, rfl, fun b => ?_⟩
        obtain ⟨hnack, hnot⟩ := not_or.1 hmore
        by_cases hb : b = fb.acid
        · subst hb
          rw [if_pos rfl, htally, if_neg hnack, if_neg hnot]
          simp [known, failures, hid]
        · simp [hb]

/-- The feedback on its way and the PDUs so far after an event that is not about them. -/
theorem quiet_step (hst : (HarqPair.machine P).step s.pair e = some (r', o))
    (he : e ≠ .feedback) :
    r'.feedback = s.pair.feedback ++ s.reports P e ∧ ∀ p ∈ s.pair.used, p ∈ r'.used := by
  obtain ⟨-, hhandle⟩ := HarqPair.step_eq_some.1 hst
  -- an event without feedback for the sender or the mirror
  have hquiet : r'.feedback = s.pair.feedback → s.reports P e = [] → r'.used = s.pair.used →
      r'.feedback = s.pair.feedback ++ s.reports P e ∧ ∀ p ∈ s.pair.used, p ∈ r'.used := by
    intro hfeedback hreports hused
    rw [hreports, List.append_nil, hfeedback, hused]
    exact ⟨rfl, fun _ hp => hp⟩
  cases e with
  | insert acid pdu =>
    obtain ⟨r₁, hr₁, heq⟩ := Option.map_eq_some_iff.1 hhandle
    obtain ⟨rfl, rfl⟩ := Prod.mk.inj heq
    simp only [HarqPair.insertPdu] at hr₁
    split at hr₁
    · cases hr₁
    · split at hr₁
      · cases hr₁
      · obtain rfl := Option.some.inj hr₁
        exact ⟨(List.append_nil _).symm, fun p hp => List.mem_cons_of_mem _ hp⟩
  | markSelected acid =>
    obtain ⟨r₁, hr₁, heq⟩ := Option.map_eq_some_iff.1 hhandle
    obtain ⟨rfl, rfl⟩ := Prod.mk.inj heq
    simp only [HarqPair.markSelected] at hr₁
    split at hr₁
    · cases hr₁
    · split at hr₁
      · cases hr₁
      · obtain rfl := Option.some.inj hr₁
        exact hquiet rfl rfl rfl
  | send =>
    simp only [HarqPair.handle, HarqPair.sendSelectedDown] at hhandle
    split at hhandle
    · obtain ⟨rfl, -⟩ := Prod.mk.inj (Option.some.inj hhandle)
      exact hquiet rfl rfl rfl
    · split at hhandle
      · split at hhandle
        · cases hhandle
        · obtain ⟨rfl, -⟩ := Prod.mk.inj (Option.some.inj hhandle)
          exact hquiet rfl rfl rfl
      · obtain ⟨rfl, -⟩ := Prod.mk.inj (Option.some.inj hhandle)
        exact hquiet rfl rfl rfl
  | arrive f decoded =>
    simp only [HarqPair.handle, HarqPair.receive] at hhandle
    split at hhandle
    · cases hhandle
    · split at hhandle
      · cases hhandle
      · obtain ⟨rfl, -⟩ := Prod.mk.inj (Option.some.inj hhandle)
        exact hquiet rfl rfl rfl
  | rxTti =>
    obtain ⟨rfl, -⟩ := Prod.mk.inj (Option.some.inj hhandle)
    simp only [HarqPair.purgeCorruptedPdus]
    split
    · exact ⟨rfl, fun _ hp => hp⟩
    · exact ⟨rfl, fun _ hp => hp⟩
  | feedback => exact absurd rfl he
  | tick =>
    obtain ⟨rfl, -⟩ := Prod.mk.inj (Option.some.inj hhandle)
    exact hquiet rfl rfl rfl

/-- What the sender knows changes with its feedback only. -/
theorem known_step (h : HarqPair.Inv P r os) (hlim : P.maxHarqRtx ≤ 254)
    (hst : (HarqPair.machine P).step r e = some (r', o)) (he : e ≠ .feedback) (b : ℕ) :
    known (r'.tx b) = known (r.tx b) := by
  obtain ⟨hen, hhandle⟩ := HarqPair.step_eq_some.1 hst
  cases e with
  | insert acid pdu =>
    obtain ⟨r₁, hr₁, heq⟩ := Option.map_eq_some_iff.1 hhandle
    obtain ⟨rfl, rfl⟩ := Prod.mk.inj heq
    exact known_insertPdu h hen.2.2.1 hr₁ b
  | markSelected acid =>
    obtain ⟨r₁, hr₁, heq⟩ := Option.map_eq_some_iff.1 hhandle
    obtain ⟨rfl, rfl⟩ := Prod.mk.inj heq
    exact known_markSelected hr₁ b
  | send => exact known_sendSelectedDown h hlim hhandle b
  | arrive f decoded =>
    simp only [HarqPair.handle, HarqPair.receive] at hhandle
    split at hhandle
    · cases hhandle
    · split at hhandle
      · cases hhandle
      · obtain ⟨rfl, -⟩ := Prod.mk.inj (Option.some.inj hhandle)
        rfl
  | rxTti =>
    obtain ⟨rfl, -⟩ := Prod.mk.inj (Option.some.inj hhandle)
    simp only [HarqPair.purgeCorruptedPdus]
    split <;> rfl
  | feedback => exact absurd rfl he
  | tick =>
    obtain ⟨rfl, -⟩ := Prod.mk.inj (Option.some.inj hhandle)
    rfl

/-- The PDU of a feedback is one of the sender. -/
theorem used_of_feedback (h : HarqPair.Inv P r os) (hfb : fb ∈ r.feedback) :
    fb.fbMacPduId ∈ r.used := by
  have hmem : fb ∈ r.feedback.filter (·.acid = fb.acid) := by simp [hfb]
  obtain ⟨p, k, htx, -, -, hlist⟩ :=
    (h.phase fb.acid).of_feedback (h.settled fb.acid).1 hmem
  have hid : fb.fbMacPduId = p := by
    rcases hlist with ⟨hlist, -⟩ | ⟨hlist, -⟩ <;>
    · rw [hlist, List.mem_singleton] at hmem
      rw [hmem]
  rw [hid]
  exact h.used fb.acid p (by rw [htx])

end Sender

/-! ### Runs -/

/-- The outputs of the UEs. -/
def pairOutputs (os : List HarqD2DOutput) : List HarqOutput :=
  os.filterMap fun
    | .pair o => some o
    | _ => none

/-- The feedback for a process that is on its way to the sender. -/
def toSender (s : HarqD2D) (a : ℕ) : List HarqFeedback := s.pair.feedback.filter (·.acid = a)

/-- The copies for a process that are on their way to the mirror. -/
def copiesOf (s : HarqD2D) (a : ℕ) : List HarqFeedbackMirror := s.toMirror.filter (·.acid = a)

/-- How often the mirror was told that the PDU of a process has failed. -/
def nacks (a : ℕ) (os : List HarqD2DOutput) : ℕ := os.count (.mirrored a false)

/-- How often a retransmission was granted for a process. -/
def grants (a : ℕ) (os : List HarqD2DOutput) : ℕ :=
  os.countP fun
    | .rtx a' _ => a' = a
    | _ => false

/-- The mirror follows the sender. -/
structure Follows (P : HarqParams) (byteLength : ℕ → ℕ) (s : HarqD2D) (os : List HarqD2DOutput) :
    Prop where
  pair : HarqPair.Inv P s.pair (pairOutputs os)
  lengths : ∀ m ∈ s.toMirror, m.pduLength = byteLength m.fbMacPduId
  ids : ∀ m ∈ s.toMirror, m.fbMacPduId ∈ s.pair.used
  /-- What the mirror has made of the copies so far; the sender comes to the same. -/
  agrees : ∃ t : ℕ → Option (ℕ × ℕ), ∀ a, Agrees P byteLength (s.mirror a) (t a) ∧
    (∀ p n, t a = some (p, n) → p ∈ s.pair.used) ∧
    ((s.copiesOf a).map HarqFeedbackMirror.toHarqFeedback).foldl (tally P.maxHarqRtx) (t a) =
      (s.toSender a).foldl (tally P.maxHarqRtx) (known (s.pair.tx a))
  granted : ∀ a, grants a os + (if (s.mirror a).status = .BUFFERED then 1 else 0) ≤ nacks a os
  bytes : ∀ a n, .rtx a n ∈ os → ∃ p ∈ s.pair.used, n = byteLength p

section Runs

variable {s' : HarqD2D} {os o : List HarqD2DOutput} {a : ℕ} {ev : Event}

@[simp] theorem pairOutputs_append :
    pairOutputs (os ++ o) = pairOutputs os ++ pairOutputs o := List.filterMap_append

@[simp] theorem pairOutputs_pair (l : List HarqOutput) : pairOutputs (l.map .pair) = l := by
  simp [pairOutputs, List.filterMap_map]

@[simp] theorem grants_append : grants a (os ++ o) = grants a os + grants a o :=
  List.countP_append

@[simp] theorem grants_pair (l : List HarqOutput) : grants a (l.map .pair) = 0 := by
  simp [grants, List.countP_eq_zero]

@[simp] theorem nacks_append : nacks a (os ++ o) = nacks a os + nacks a o := List.count_append

@[simp] theorem nacks_pair (l : List HarqOutput) : nacks a (l.map .pair) = 0 := by
  simp [nacks, List.count_eq_zero]

/-- The copies of the feedback for a process. -/
theorem map_filter_copies (e : HarqPair.Event) :
    ((s.copies P byteLength e).filter (·.acid = a)).map HarqFeedbackMirror.toHarqFeedback =
      (s.reports P e).filter (·.acid = a) := by
  rw [copies, List.filter_map, List.map_map]
  exact List.map_id _

theorem follows_init : Follows P byteLength {} [] where
  pair := HarqPair.inv_initial P
  lengths := by simp
  ids := by simp
  agrees := ⟨fun _ => none, fun a => ⟨.empty rfl rfl, by simp, rfl⟩⟩
  granted := by simp [grants, nacks]
  bytes := by simp

/-- Something happens at the UEs. -/
theorem Follows.pairStep (h : Follows P byteLength s os) (hlim : P.maxHarqRtx ≤ 254)
    {e : HarqPair.Event} {r : HarqPair} {l : List HarqOutput}
    (hst : (HarqPair.machine P).step s.pair e = some (r, l)) :
    Follows P byteLength
      { s with pair := r, toMirror := s.toMirror ++ s.copies P byteLength e }
      (os ++ l.map .pair) := by
  obtain ⟨hen, hhandle⟩ := HarqPair.step_eq_some.1 hst
  obtain ⟨r₁, l₁, heq, hinv⟩ := HarqPair.inv_handle h.pair hlim hen
  rw [hhandle, Option.some.injEq, Prod.mk.injEq] at heq
  obtain ⟨rfl, rfl⟩ := heq
  obtain ⟨t, ht⟩ := h.agrees
  -- the PDUs so far, and what is said about a process by the feedback and by the copies
  have hstep : (∀ p ∈ s.pair.used, p ∈ r.used) ∧
      (∀ fb ∈ s.reports P e, fb.fbMacPduId ∈ r.used) ∧ ∀ a,
      ((s.reports P e).filter (·.acid = a)).foldl (tally P.maxHarqRtx)
          ((s.toSender a).foldl (tally P.maxHarqRtx) (known (s.pair.tx a))) =
        (r.feedback.filter (·.acid = a)).foldl (tally P.maxHarqRtx) (known (r.tx a)) := by
    by_cases he : e = .feedback
    · subst he
      obtain ⟨fb, rest, hfb⟩ := List.exists_cons_of_ne_nil hen
      simp only [HarqPair.handle, hfb] at hhandle
      obtain ⟨hrest, hused, hknown⟩ := known_receiveHarqFeedback h.pair hlim hfb hhandle
      refine ⟨by simp [hused], by simp [reports], fun a => ?_⟩
      rw [hknown, hrest]
      by_cases ha : a = fb.acid
      · subst ha
        simp [reports, toSender, hfb]
      · simp [reports, toSender, hfb, ha, Ne.symm ha]
    · obtain ⟨hfeedback, hused⟩ := quiet_step hst he
      refine ⟨hused, fun fb hfb => ?_, fun a => ?_⟩
      · exact used_of_feedback hinv (by rw [hfeedback]; exact List.mem_append_right _ hfb)
      · rw [known_step h.pair hlim hst he, hfeedback, List.filter_append, List.foldl_append]
        rfl
  obtain ⟨hused, hnew, hfold⟩ := hstep
  constructor
  · rw [pairOutputs_append, pairOutputs_pair]
    exact hinv
  · intro m hm
    rcases List.mem_append.1 hm with hm | hm
    · exact h.lengths m hm
    · obtain ⟨fb, -, rfl⟩ := List.mem_map.1 hm
      rfl
  · intro m hm
    rcases List.mem_append.1 hm with hm | hm
    · exact hused _ (h.ids m hm)
    · obtain ⟨fb, hfb, rfl⟩ := List.mem_map.1 hm
      exact hnew fb hfb
  · refine ⟨t, fun a => ⟨(ht a).1, fun p n hp => hused p ((ht a).2.1 p n hp), ?_⟩⟩
    simp only [copiesOf, toSender, List.filter_append, List.map_append, List.foldl_append,
      map_filter_copies]
    rw [← hfold a]
    have hcopies := (ht a).2.2
    rw [copiesOf] at hcopies
    rw [hcopies]
  · simpa using h.granted
  · intro a n hmem
    rcases List.mem_append.1 hmem with hmem | hmem
    · obtain ⟨p, hp, hn⟩ := h.bytes a n hmem
      exact ⟨p, hused p hp, hn⟩
    · simp at hmem

/-- A copy arrives at the mirror. -/
theorem Follows.mirrorStep (h : Follows P byteLength s os) (hlim : P.maxHarqRtx ≤ 254)
    {m : HarqFeedbackMirror} {rest : List HarqFeedbackMirror} (hm : s.toMirror = m :: rest) :
    Follows P byteLength
      { s with
        toMirror := rest
        mirror := Function.update s.mirror m.acid
          ((s.mirror m.acid).storeFeedback P.maxHarqRtx m) }
      (os ++ [.mirrored m.acid m.result]) := by
  have hmem : m ∈ s.toMirror := by simp [hm]
  have hrest : ∀ m' ∈ rest, m' ∈ s.toMirror := by
    intro m' hm'
    simp [hm, hm']
  obtain ⟨t, ht⟩ := h.agrees
  constructor
  · simpa [pairOutputs] using h.pair
  · exact fun m' hm' => h.lengths m' (hrest m' hm')
  · exact fun m' hm' => h.ids m' (hrest m' hm')
  · -- the mirror counts the copy at the front
    refine ⟨Function.update t m.acid (tally P.maxHarqRtx (t m.acid) m.toHarqFeedback),
      fun a => ?_⟩
    by_cases ha : a = m.acid
    · subst ha
      obtain ⟨hagrees, hid, hfold⟩ := ht m.acid
      simp only [Function.update_self]
      refine ⟨hagrees.storeFeedback hlim (h.lengths m hmem), fun p n hp => ?_, ?_⟩
      · simp only [tally] at hp
        split at hp
        · cases hp
        · split at hp
          · cases hp
          · obtain ⟨rfl, -⟩ := Prod.mk.inj (Option.some.inj hp)
            exact h.ids m hmem
      · rw [show s.toSender m.acid = _ from rfl] at hfold
        simp only [copiesOf, hm, List.filter_cons, decide_true, if_true, List.map_cons,
          List.foldl_cons] at hfold
        exact hfold
    · obtain ⟨hagrees, hid, hfold⟩ := ht a
      simp only [Function.update_of_ne ha]
      refine ⟨hagrees, hid, ?_⟩
      simpa [copiesOf, toSender, hm, Ne.symm ha] using hfold
  · -- a grant answers a NACK that the mirror has seen
    intro a
    have hle := h.granted a
    by_cases ha : a = m.acid
    · subst ha
      cases hres : m.result with
      | true =>
        simp only [Function.update_self, HarqMirrorUnit.storeFeedback, hres, if_true]
        simp [grants, nacks] at hle ⊢
        omega
      | false =>
        have hone : nacks m.acid [.mirrored m.acid false] = 1 := by simp [nacks]
        have hzero : grants m.acid [.mirrored m.acid false] = 0 := by simp [grants]
        rw [grants_append, nacks_append, hone, hzero]
        split <;> omega
    · have hzero : nacks a [.mirrored m.acid m.result] = 0 := by
        simp [nacks, Ne.symm ha]
      have hzero' : grants a [.mirrored m.acid m.result] = 0 := by simp [grants]
      simp only [Function.update_of_ne ha, grants_append, nacks_append, hzero, hzero']
      exact hle
  · intro a n hmem
    exact h.bytes a n (by simpa using hmem)

/-- A retransmission is granted. -/
theorem Follows.grantStep (h : Follows P byteLength s os) {acid : ℕ}
    (hu : (s.mirror acid).status = .BUFFERED) :
    Follows P byteLength
      { s with mirror :=
          Function.update s.mirror acid { s.mirror acid with status := .SELECTED } }
      (os ++ [.rtx acid (s.mirror acid).pduLength]) := by
  obtain ⟨t, ht⟩ := h.agrees
  constructor
  · simpa [pairOutputs] using h.pair
  · exact h.lengths
  · exact h.ids
  · refine ⟨t, fun a => ⟨?_, (ht a).2⟩⟩
    by_cases ha : a = acid
    · subst ha
      simp only [Function.update_self]
      exact (ht a).1.withStatus (by simp [hu]) (by simp)
    · simp only [Function.update_of_ne ha]
      exact (ht a).1
  · intro a
    have hle := h.granted a
    by_cases ha : a = acid
    · subst ha
      simp [grants, nacks, hu] at hle ⊢
      omega
    · simpa [grants, nacks, ha, Ne.symm ha] using hle
  · intro a n hmem
    rcases List.mem_append.1 hmem with hmem | hmem
    · exact h.bytes a n hmem
    · obtain ⟨rfl, rfl⟩ : a = acid ∧ n = (s.mirror acid).pduLength := by simpa using hmem
      -- a unit that is buffered has the length of a PDU that has failed
      obtain ⟨hagrees, hid, -⟩ := ht a
      cases hta : t a with
      | none =>
        rw [hta] at hagrees
        cases hagrees with
        | empty hstatus => simp [hu] at hstatus
      | some pn =>
        obtain ⟨p, k⟩ := pn
        rw [hta] at hagrees
        cases hagrees with
        | failed _ _ _ _ hlen => exact ⟨p, hid p k hta, hlen⟩

theorem Follows.flushStep (h : Follows P byteLength s os) :
    Follows P byteLength
      { s with mirror := fun acid => (s.mirror acid).markSelectedAsWaiting } os where
  pair := h.pair
  lengths := h.lengths
  ids := h.ids
  agrees := by
    obtain ⟨t, ht⟩ := h.agrees
    exact ⟨t, fun a => ⟨(ht a).1.markSelectedAsWaiting, (ht a).2⟩⟩
  granted a := by
    have hle := h.granted a
    simp only [HarqMirrorUnit.markSelectedAsWaiting]
    split
    · rename_i hsel
      simp only [hsel] at hle
      simpa using hle
    · exact hle
  bytes := h.bytes

theorem Follows.step (h : Follows P byteLength s os) (hlim : P.maxHarqRtx ≤ 254)
    (hst : (machine P byteLength).step s ev = some (s', o)) :
    Follows P byteLength s' (os ++ o) := by
  cases ev with
  | pair e =>
    obtain ⟨⟨r, l⟩, hr, heq⟩ := Option.map_eq_some_iff.1 hst
    obtain ⟨rfl, rfl⟩ := Prod.mk.inj heq
    exact h.pairStep hlim hr
  | mirror =>
    simp only [machine] at hst
    split at hst
    · cases hst
    · rename_i m rest hm
      obtain ⟨rfl, rfl⟩ := Prod.mk.inj (Option.some.inj hst)
      exact h.mirrorStep hlim hm
  | schedulePerAcidRtxD2D acid =>
    simp only [machine] at hst
    split at hst
    · rename_i hu
      obtain ⟨rfl, rfl⟩ := Prod.mk.inj (Option.some.inj hst)
      exact h.grantStep hu
    · obtain ⟨rfl, rfl⟩ := Prod.mk.inj (Option.some.inj hst)
      rw [List.append_nil]
      exact h
  | flushHarqBuffers =>
    obtain ⟨rfl, rfl⟩ := Prod.mk.inj (Option.some.inj hst)
    rw [List.append_nil]
    exact h.flushStep

theorem follows_exec (hlim : P.maxHarqRtx ≤ 254) {es : List Event}
    (h : (machine P byteLength).exec {} es = some (s, os)) : Follows P byteLength s os :=
  Machine.exec_induction (J := fun _ s os => Follows P byteLength s os) follows_init
    (fun _ _ _ _ _ _ _ ih hst => ih.step hlim hst) h

end Runs

/-- A copy takes the mirror to where the feedback takes the sender; so with nothing on its way for a
process, the mirror has the retransmissions that the sender waits for, and no others. -/
theorem mirror_agrees (hlim : P.maxHarqRtx ≤ 254) {es : List Event} {os : List HarqD2DOutput}
    (h : (machine P byteLength).exec {} es = some (s, os)) (a : ℕ) :
    Agrees P byteLength
        ((s.copiesOf a).foldl (HarqMirrorUnit.storeFeedback P.maxHarqRtx) (s.mirror a))
        ((s.toSender a).foldl (tally P.maxHarqRtx) (known (s.pair.tx a))) ∧
      (s.toSender a = [] → s.copiesOf a = [] →
        ((s.pair.tx a).status = .BUFFERED → (s.mirror a).status ≠ .EMPTY ∧
          (s.mirror a).transmissions = (s.pair.tx a).transmissions) ∧
        ((s.mirror a).status ≠ .EMPTY →
          ∃ p, (s.pair.tx a).pduId = some p ∧ (s.mirror a).pduLength = byteLength p)) := by
  have hinv := follows_exec hlim h
  obtain ⟨t, ht⟩ := hinv.agrees
  obtain ⟨hagrees, -, hfold⟩ := ht a
  have hmirror := hagrees.foldl hlim (l := s.copiesOf a)
    fun m hm => hinv.lengths m (List.mem_of_mem_filter hm)
  rw [hfold] at hmirror
  refine ⟨hmirror, fun hsender hcopies => ?_⟩
  rw [hsender, hcopies, List.foldl_nil, List.foldl_nil] at hmirror
  -- a buffered unit has a failure to its name, and so has its mirror
  constructor
  · intro hstatus
    obtain ⟨p, k, htx, -⟩ := (hinv.pair.phase a).of_buffered hstatus
    have hknown : known (s.pair.tx a) = some (p, k + 1) := by simp [known, failures, htx]
    rw [hknown] at hmirror
    cases hmirror with
    | failed hne htrans => exact ⟨hne, by rw [htrans, htx]⟩
  · -- a mirror that is not empty has a failure to its name, and so has the unit
    intro hne
    cases hknown : known (s.pair.tx a) with
    | none =>
      rw [hknown] at hmirror
      cases hmirror with
      | empty hempty => exact absurd hempty hne
    | some pn =>
      obtain ⟨p, n⟩ := pn
      rw [hknown] at hmirror
      have hp : (s.pair.tx a).pduId = some p := by
        simp only [known] at hknown
        split at hknown
        · cases hknown
        · split at hknown
          · cases hknown
          · rename_i hid _
            rw [hid, (Prod.mk.inj (Option.some.inj hknown)).1]
      cases hmirror with
      | failed _ _ _ _ hlen => exact ⟨p, hp, hlen⟩

/-- The first transmission of the PDU 7 fails, and the copy of the feedback comes first. -/
def failedOnce : List Event :=
  [.pair (.insert 0 7), .pair .send, .pair (.arrive ⟨0, 7, true⟩ false), .pair .tick, .pair .tick,
    .pair .tick, .pair .rxTti, .mirror, .schedulePerAcidRtxD2D 0, .flushHarqBuffers]

theorem mirror_agrees_failedOnce :
    ∃ s os, (machine ⟨3, 8, true⟩ (· + 93)).exec {} (failedOnce ++ [.pair .feedback]) =
        some (s, os) ∧
      (s.mirror 0).status = .WAITING ∧ (s.mirror 0).transmissions = 1 ∧
      ∃ p, (s.pair.tx 0).pduId = some p ∧ (s.mirror 0).pduLength = p + 93 := by
  have hsome : ((machine ⟨3, 8, true⟩ (· + 93)).exec {}
    (failedOnce ++ [.pair .feedback])).isSome := by decide +kernel
  obtain ⟨⟨s, os⟩, hrun⟩ := Option.isSome_iff_exists.1 hsome
  obtain ⟨hs, -⟩ := Prod.mk.inj (Option.some.inj hrun)
  obtain ⟨-, hquiet⟩ := mirror_agrees (by decide) hrun 0
  have hwaiting : (s.mirror 0).status = .WAITING := by
    rw [← hs]
    decide +kernel
  have hbuffered : (s.pair.tx 0).status = .BUFFERED ∧ (s.pair.tx 0).transmissions = 1 := by
    rw [← hs]
    decide +kernel
  obtain ⟨hsame, hlen⟩ := hquiet (by rw [← hs]; decide +kernel) (by rw [← hs]; decide +kernel)
  obtain ⟨hne, htrans⟩ := hsame hbuffered.1
  exact ⟨s, os, hrun, hwaiting, htrans.trans hbuffered.2, hlen hne⟩

/-- However the copies and the grants go, a retransmission is only granted when the mirror was told
of a failure, one for each, and for as many bytes as a PDU of the sender has. -/
theorem grants_answer_nacks (hlim : P.maxHarqRtx ≤ 254) {es : List Event}
    {os : List HarqD2DOutput} (h : (machine P byteLength).exec {} es = some (s, os)) (a : ℕ) :
    grants a os ≤ nacks a os ∧
      ∀ n, .rtx a n ∈ os → ∃ p ∈ s.pair.used, n = byteLength p := by
  have hinv := follows_exec hlim h
  exact ⟨le_trans (Nat.le_add_right _ _) (hinv.granted a), hinv.bytes a⟩

theorem grants_answer_nacks_failedOnce :
    ∃ s os, (machine ⟨3, 8, true⟩ (· + 93)).exec {} (failedOnce ++ failedOnce.drop 8) =
        some (s, os) ∧
      grants 0 os = 1 ∧ nacks 0 os = 1 ∧ ∃ p ∈ s.pair.used, 100 = p + 93 := by
  have hsome : ((machine ⟨3, 8, true⟩ (· + 93)).exec {}
    (failedOnce ++ failedOnce.drop 8)).isSome := by decide +kernel
  obtain ⟨⟨s, os⟩, hrun⟩ := Option.isSome_iff_exists.1 hsome
  obtain ⟨-, hos⟩ := Prod.mk.inj (Option.some.inj hrun)
  obtain ⟨hle, hbytes⟩ := grants_answer_nacks (by decide) hrun 0
  have hnacks : nacks 0 os = 1 := by
    rw [← hos]
    decide +kernel
  have hgranted : 1 ≤ grants 0 os := by
    rw [← hos]
    decide +kernel
  have hmem : HarqD2DOutput.rtx 0 100 ∈ os := by
    rw [← hos]
    decide +kernel
  exact ⟨s, os, hrun, by omega, hnacks, hbytes 100 hmem⟩

end HarqD2D

end V2nLte
