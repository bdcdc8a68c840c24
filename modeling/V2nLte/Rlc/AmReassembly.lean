import V2nLte.Machine.Shift
import V2nLte.Rlc.AmRx
import Mathlib.Data.List.Nodup
import Mathlib.Data.Set.Insert

/-!
# Which SDUs the RLC AM receiver passes up

A `Layout` says which fragment has which sequence number.  Fragments come in any order, more than
once or not at all, with commands to move the window between them; a `History` is the start of the
window and the fragments that have come so far.

Between two events the window holds the fragments of the history (`Stored`), and those that have
left it since the end of an SDU are pending (`pend`).  A fragment that completes its SDU is found by
the searches to do so if the SDU is in the window as a whole, or if the window starts at the
fragment.  If the window starts inside the SDU, and the fragment is at a later position, the
backward search ends at position 0 without a first fragment, and the SDU is never passed up.

## Main results

* `AmRxQueue.checkCompleteSdu_spec` : what the searches find, from the position of any fragment.
* `AmRxQueue.moveRxWindow_spec` : what moving the window keeps.
* `AmRxQueue.passed_up_once` : in every run, each SDU is passed up once, when its last fragment
  comes, unless the window starts inside it at that time and the fragment is not at the start.
* `AmRxQueue.not_passed_up` : passing up does not move the window, and what can go wrong otherwise.
-/

namespace V2nLte

/-! ### The fragments that are sent -/

/-- How a sender has laid out its SDUs over the sequence numbers, which do not wrap here. -/
structure Layout (P : AmTxParams) where
  /-- The SDU that the fragment with this number belongs to. -/
  sdu : ℕ → LteRlcAmSdu
  /-- The number of its first fragment. -/
  first : ℕ → ℕ
  /-- It is the first one. -/
  first_le : ∀ sn, first sn ≤ sn
  /-- The fragment is before the next SDU. -/
  lt_next : ∀ sn, sn < first sn + AmTxQueue.nrFragments P (sdu sn)
  /-- The fragments of an SDU stand side by side. -/
  same : ∀ sn t, first sn ≤ t → t < first sn + AmTxQueue.nrFragments P (sdu sn) →
    first t = first sn ∧ sdu t = sdu sn
  /-- The number of fragments is an `int`. -/
  total_lt : ∀ sn, AmTxQueue.nrFragments P (sdu sn) < 2147483648
  /-- The number of an SDU is an `unsigned int`, and -1 stands for no SDU. -/
  sno_lt : ∀ sn, (sdu sn).snoMainPacket < 4294967295

namespace Layout

variable {P : AmTxParams} (L : Layout P) {sn t : ℕ}

/-- The number of fragments of the SDU. -/
def total (sn : ℕ) : ℕ := AmTxQueue.nrFragments P (L.sdu sn)

/-- The first number after the SDU. -/
def next (sn : ℕ) : ℕ := L.first sn + L.total sn

/-- The fragment as the sender makes it. -/
def pdu (sn : ℕ) : LteRlcAmPdu :=
  AmTxQueue.fragment P (L.sdu sn) (u32 (L.first sn)) (L.total sn) (sn - L.first sn)

/-- The fragments of the SDU that starts at `a`. -/
def fragments (a : ℕ) : List LteRlcAmPdu := (List.range' a (L.total a)).map L.pdu

/-- All fragments of the SDU have been received. -/
def Complete (R : Set ℕ) (sn : ℕ) : Prop := ∀ t, L.first sn ≤ t → t < L.next sn → t ∈ R

variable {L}

theorem lt_next' : sn < L.next sn := L.lt_next sn

theorem next_le : L.next sn ≤ L.first sn + 2147483647 := by
  have h := L.total_lt sn
  unfold next total
  omega

theorem first_eq (h : L.first sn ≤ t) (h' : t < L.next sn) : L.first t = L.first sn :=
  (L.same sn t h h').1

theorem sdu_eq (h : L.first sn ≤ t) (h' : t < L.next sn) : L.sdu t = L.sdu sn :=
  (L.same sn t h h').2

theorem total_eq (h : L.first sn ≤ t) (h' : t < L.next sn) : L.total t = L.total sn :=
  congrArg (AmTxQueue.nrFragments P) (sdu_eq h h')

theorem next_eq (h : L.first sn ≤ t) (h' : t < L.next sn) : L.next t = L.next sn := by
  unfold next
  rw [first_eq h h', total_eq h h']

theorem first_first : L.first (L.first sn) = L.first sn :=
  first_eq le_rfl (lt_of_le_of_lt (L.first_le sn) lt_next')

theorem complete_congr {R : Set ℕ} (h : L.first t = L.first sn) (h' : L.next t = L.next sn) :
    L.Complete R t ↔ L.Complete R sn := by
  unfold Complete
  rw [h, h']

@[simp] theorem pdu_amType : (L.pdu sn).amType = .DATA := rfl

@[simp] theorem pdu_snoMainPacket : (L.pdu sn).snoMainPacket = (L.sdu sn).snoMainPacket := rfl

@[simp] theorem pdu_totalFragments : (L.pdu sn).totalFragments = L.total sn := rfl

@[simp] theorem pdu_snoFragment : (L.pdu sn).snoFragment = u32 sn := by
  have h := L.first_le sn
  change u32 (u32 (L.first sn) + (sn - L.first sn)) = u32 sn
  unfold u32
  omega

theorem pdu_isFirst : (L.pdu sn).isFirst ↔ L.first sn = sn := by
  have h := L.first_le sn
  have h' : sn < L.next sn := lt_next'
  have hn : L.next sn ≤ L.first sn + 2147483647 := next_le
  unfold LteRlcAmPdu.isFirst
  rw [pdu_snoFragment]
  change ofInt32 (i32 (u32 (L.first sn))) = u32 sn ↔ _
  unfold ofInt32 i32 u32
  split <;> omega

theorem pdu_isLast : (L.pdu sn).isLast ↔ L.next sn = sn + 1 := by
  have h := L.first_le sn
  have h' : sn < L.next sn := lt_next'
  have hn : L.next sn ≤ L.first sn + 2147483647 := next_le
  have htotal : L.next sn = L.first sn + L.total sn := rfl
  unfold LteRlcAmPdu.isLast
  rw [pdu_snoFragment]
  change ofInt32 (i32 (u32 (L.first sn)) + L.total sn - 1) = u32 sn ↔ _
  unfold ofInt32 i32 u32
  split <;> omega

theorem pdu_isWhole : (L.pdu sn).isWhole ↔ L.total sn = 1 := by
  change i32 (u32 (L.first sn)) = i32 (u32 (L.first sn)) + L.total sn - 1 ↔ _
  omega

end Layout

/-! ### Histories -/

namespace AmRxQueue

/-- What comes to the receiver. -/
inductive Arrival where
  /-- The fragment with this number. -/
  | fragment (sn : ℕ)
  /-- A command to start the window at this number. -/
  | mrw (sn mrwSeqNum : ℕ)
  /-- The timer expires. -/
  | timer

/-- What has come to the receiver. -/
structure History where
  /-- Where its window starts. -/
  start : ℕ
  /-- The fragments that came before the window had passed them. -/
  received : Set ℕ

/-- One more arrival. -/
def History.after (h : History) : Arrival → History
  | .fragment sn => { h with received := { t | t ∈ h.received ∨ t = sn ∧ h.start ≤ sn } }
  | .mrw sn _ => { h with start := max h.start sn }
  | .timer => h

/-- The history of a run; the arrivals have times. -/
def history (as : List (ℕ × Arrival)) : History :=
  as.foldl (fun h a => h.after a.2) ⟨0, ∅⟩

theorem history_concat {as : List (ℕ × Arrival)} {a : ℕ × Arrival} :
    history (as ++ [a]) = (history as).after a.2 := List.foldl_concat ..

/-- The event for the receiver of what is laid out as `L`. -/
def Arrival.event {P : AmTxParams} (L : Layout P) : Arrival → Event
  | .fragment sn => .enque (L.pdu sn)
  | .mrw sn mrwSeqNum => .enque (AmTxQueue.mrwPdu P mrwSeqNum (i32 sn))
  | .timer => .timer

/-- The receiver of what is laid out as `L`. -/
def receiver {P : AmTxParams} (L : Layout P) (Q : AmRxParams) :
    Machine AmRxQueue (ℕ × Arrival) AmRxOutput where
  step s a := (machine Q).step s (a.1, a.2.event L)

/-- The SDUs that have been passed up. -/
def sdus (os : List AmRxOutput) : List (List LteRlcAmPdu) :=
  os.filterMap fun
    | .sdu fragments => some fragments
    | _ => none

@[simp] theorem sdus_append (os os' : List AmRxOutput) : sdus (os ++ os') = sdus os ++ sdus os' :=
  List.filterMap_append

/-! ### What is in the window -/

variable {P : AmTxParams} {L : Layout P} {Q : AmRxParams} {F : ℕ} {R : Set ℕ} {s s' : AmRxQueue}
  {sn i : ℕ}

/-- The window starts at `F` and holds the fragments `R`. -/
structure Stored (L : Layout P) (Q : AmRxParams) (F : ℕ) (R : Set ℕ) (s : AmRxQueue) : Prop where
  first : s.rxWindowDesc.firstSeqNum = u32 F
  received_length : s.received.length = Q.rxWindowSize
  discarded_length : s.discarded.length = Q.rxWindowSize
  received : ∀ i, flag s.received i = true ↔ F + i ∈ R
  pdu : ∀ i, F + i ∈ R → s.pduBuffer.get i = some (L.pdu (F + i))
  free : ∀ i, F + i ∉ R → s.pduBuffer.get i = none
  lt : ∀ t ∈ R, t < F + Q.rxWindowSize

theorem boolAt_of_lt {xs : List Bool} (hi : i < xs.length) : boolAt xs i = .ok (flag xs i) := by
  unfold boolAt flag
  rw [List.getD_eq_getElem?_getD, List.getElem?_eq_getElem hi]
  rfl

theorem Stored.pduAt (h : Stored L Q F R s) (hi : F + i ∈ R) :
    s.pduAt i = .ok (L.pdu (F + i)) := by
  unfold AmRxQueue.pduAt
  rw [h.pdu i hi]

theorem Stored.boolAt (h : Stored L Q F R s) (hi : i < Q.rxWindowSize) :
    boolAt s.received i = .ok (flag s.received i) :=
  boolAt_of_lt (h.received_length ▸ hi)

/-- The backward search finds the first fragment of the SDU if it is in the window, without a gap
after it. -/
theorem searchFirst_spec (h : Stored L Q F R s) (sn : ℕ) (hlt : L.first sn < F + i)
    (hi : F + i ≤ sn) (hW : i ≤ Q.rxWindowSize) (hrun : ∀ t, F + i ≤ t → t < sn → t ∈ R) :
    ∃ r, searchFirst s (L.pdu sn) i = .ok r ∧
      ((∃ j, r = some j ∧ F + j = L.first sn ∧ ∀ t, L.first sn ≤ t → t < sn → t ∈ R) ∨
        r = none ∧ (F ≤ L.first sn → ∃ t, L.first sn ≤ t ∧ t < sn ∧ t ∉ R)) := by
  induction i with
  | zero => exact ⟨none, rfl, .inr ⟨rfl, fun hle => by omega⟩⟩
  | succ i ih =>
    have hnext : sn < L.next sn := L.lt_next'
    unfold searchFirst
    rw [h.boolAt (by omega)]
    by_cases hmem : F + i ∈ R
    · -- the fragment before belongs to the same SDU
      have hfirst : L.first (F + i) = L.first sn := L.first_eq (by omega) (by omega)
      have hsdu : L.sdu (F + i) = L.sdu sn := L.sdu_eq (by omega) (by omega)
      have hnexti : L.next (F + i) = L.next sn := L.next_eq (by omega) (by omega)
      have hrun' : ∀ t, F + i ≤ t → t < sn → t ∈ R := fun t ht hts => by
        rcases Nat.eq_or_lt_of_le ht with rfl | hgt
        · exact hmem
        · exact hrun t (by omega) hts
      rw [(h.received i).2 hmem]
      change ∃ r, (do
        let tempPdu ← s.pduAt i
        if tempPdu.snoMainPacket ≠ (L.pdu sn).snoMainPacket then .error .fragmentation
        else if tempPdu.isFirst then .ok (some i)
        else if tempPdu.isLast ∨ tempPdu.isWhole then .error .sequence
        else searchFirst s (L.pdu sn) i) = .ok r ∧ _
      rw [h.pduAt hmem]
      change ∃ r, (if (L.pdu (F + i)).snoMainPacket ≠ (L.pdu sn).snoMainPacket then _
        else if (L.pdu (F + i)).isFirst then .ok (some i)
        else if (L.pdu (F + i)).isLast ∨ (L.pdu (F + i)).isWhole then _
        else searchFirst s (L.pdu sn) i) = .ok r ∧ _
      rw [if_neg (by simp [hsdu])]
      by_cases hhead : L.first sn = F + i
      · rw [if_pos (L.pdu_isFirst.2 (hfirst.trans hhead))]
        exact ⟨some i, rfl, .inl ⟨i, rfl, hhead.symm, fun t ht hts => hrun' t (by omega) hts⟩⟩
      · rw [if_neg (fun hf => hhead (hfirst.symm.trans (L.pdu_isFirst.1 hf))), if_neg]
        · exact ih (by omega) (by omega) (by omega) hrun'
        · rintro (hl | hw)
          · have := L.pdu_isLast.1 hl
            omega
          · have htotal := L.pdu_isWhole.1 hw
            have : L.next (F + i) = L.first (F + i) + L.total (F + i) := rfl
            omega
    · -- a fragment is missing
      have hflag : flag s.received i = false := by
        rw [← Bool.not_eq_true, h.received i]
        exact hmem
      rw [hflag]
      exact ⟨none, rfl, .inr ⟨rfl, fun _ => ⟨F + i, by omega, by omega, hmem⟩⟩⟩

/-- The forward search succeeds iff all later fragments of the SDU are in the window. -/
theorem searchLast_spec (h : Stored L Q F R s) (sn : ℕ) {n : ℕ} (hn : i + n = Q.rxWindowSize)
    (hlt : sn < F + i) (hi : F + i < L.next sn) (hrun : ∀ t, sn ≤ t → t < F + i → t ∈ R) :
    ∃ b, searchLast s (L.pdu sn) n i = .ok b ∧
      (b = true ↔ ∀ t, sn ≤ t → t < L.next sn → t ∈ R) := by
  have hle : L.first sn ≤ sn := L.first_le sn
  induction n generalizing i with
  | zero =>
    refine ⟨false, rfl, by simp, fun hall => ?_⟩
    have := h.lt _ (hall (F + i) hlt.le hi)
    omega
  | succ n ih =>
    unfold searchLast
    rw [h.boolAt (by omega)]
    -- the next fragment belongs to the same SDU
    by_cases hmem : F + i ∈ R
    · have hfirst : L.first (F + i) = L.first sn := L.first_eq (by omega) hi
      have hsdu : L.sdu (F + i) = L.sdu sn := L.sdu_eq (by omega) hi
      have hnexti : L.next (F + i) = L.next sn := L.next_eq (by omega) hi
      have hrun' : ∀ t, sn ≤ t → t < F + (i + 1) → t ∈ R := fun t ht hti => by
        rcases Nat.eq_or_lt_of_le (Nat.le_of_lt_succ hti) with rfl | hgt
        · exact hmem
        · exact hrun t ht hgt
      rw [(h.received i).2 hmem]
      change ∃ b, (do
        let tempPdu ← s.pduAt i
        if tempPdu.snoMainPacket ≠ (L.pdu sn).snoMainPacket then .error .sduNumbers
        else if tempPdu.isLast then .ok true
        else if tempPdu.isFirst ∨ tempPdu.isWhole then .error .sequencer
        else searchLast s (L.pdu sn) n (i + 1)) = .ok b ∧ _
      rw [h.pduAt hmem]
      change ∃ b, (if (L.pdu (F + i)).snoMainPacket ≠ (L.pdu sn).snoMainPacket then _
        else if (L.pdu (F + i)).isLast then .ok true
        else if (L.pdu (F + i)).isFirst ∨ (L.pdu (F + i)).isWhole then _
        else searchLast s (L.pdu sn) n (i + 1)) = .ok b ∧ _
      rw [if_neg (by simp [hsdu])]
      by_cases hlast : L.next (F + i) = F + i + 1
      · rw [if_pos (L.pdu_isLast.2 hlast)]
        exact ⟨true, rfl, fun _ t ht hts => hrun' t ht (by omega), fun _ => rfl⟩
      · rw [if_neg (fun hl => hlast (L.pdu_isLast.1 hl)), if_neg]
        · exact ih (by omega) (by omega) (by omega) hrun'
        · rintro (hf | hw)
          · have := L.pdu_isFirst.1 hf
            omega
          · have htotal := L.pdu_isWhole.1 hw
            have : L.next (F + i) = L.first (F + i) + L.total (F + i) := rfl
            omega
    · -- a fragment is missing
      have hflag : flag s.received i = false := by
        rw [← Bool.not_eq_true, h.received i]
        exact hmem
      rw [hflag]
      exact ⟨false, rfl, by simp, fun hall => absurd (hall _ hlt.le hi) hmem⟩

/-! ### Passing up -/

theorem lt_size {α : Type} {xs : CArray α} (hi : (xs.get i).isSome) : i < CArray.size xs := by
  induction xs using List.reverseRecOn with
  | nil => cases hi
  | append_singleton xs x ih =>
    unfold CArray.size
    rw [List.reverse_append, List.reverse_singleton, List.singleton_append]
    have hlen : i < xs.length + 1 := by
      by_contra hge
      unfold CArray.get at hi
      rw [List.getElem?_eq_none (by simpa using hge)] at hi
      cases hi
    cases x with
    | none =>
      rw [List.dropWhile_cons_of_pos rfl]
      refine ih ?_
      unfold CArray.get at hi ⊢
      rcases Nat.lt_succ_iff_lt_or_eq.1 hlen with hlt | rfl
      · rwa [List.getElem?_append_left hlt] at hi
      · rw [List.getElem?_concat_length] at hi
        cases hi
    | some a =>
      rw [List.dropWhile_cons_of_neg (by simp)]
      simpa using hlen

theorem collect_of_le {pkId total n auxIndex : ℕ} {frameBuff : List LteRlcAmPdu}
    (h : total ≤ frameBuff.length) :
    collect s pkId total n auxIndex frameBuff = .ok frameBuff := by
  cases n with
  | zero => rfl
  | succ n => exact if_pos h

/-- The fragments of an SDU are collected, from the `k`-th one on. -/
theorem collect_spec (h : Stored L Q F R s) {a k n : ℕ} (ha : L.first a = a) (hk : k ≤ L.total a)
    (hstart : F ≤ a + k) (hall : ∀ t, a + k ≤ t → t < L.next a → t ∈ R)
    (hn : L.total a ≤ k + n) :
    collect s (L.sdu a).snoMainPacket (L.total a) n (a + k - F) ((List.range' a k).map L.pdu) =
      .ok (L.fragments a) := by
  have hnext : L.next a = a + L.total a := by rw [Layout.next, ha]
  induction n generalizing k with
  | zero =>
    obtain rfl : k = L.total a := by omega
    rfl
  | succ n ih =>
    by_cases hdone : L.total a ≤ k
    · obtain rfl : k = L.total a := by omega
      exact collect_of_le (by simp)
    · have hmem : F + (a + k - F) ∈ R := by
        rw [Nat.add_sub_cancel' hstart]
        exact hall _ le_rfl (by omega)
      have hsno : (L.sdu (a + k)).snoMainPacket = (L.sdu a).snoMainPacket :=
        congrArg LteRlcAmSdu.snoMainPacket (L.sdu_eq (by omega) (by omega))
      have hframes : (List.range' a k).map L.pdu ++ [L.pdu (a + k)] =
          (List.range' a (k + 1)).map L.pdu := by
        rw [List.range'_concat, List.map_append, one_mul]
        rfl
      unfold collect
      rw [if_neg (by simpa using hdone), h.pduAt hmem, Nat.add_sub_cancel' hstart]
      change collect s _ _ n _ (if (L.sdu (a + k)).snoMainPacket = (L.sdu a).snoMainPacket
        then _ else _) = _
      rw [if_pos hsno, hframes]
      by_cases hlast : k + 1 = L.total a
      · rw [hlast]
        exact collect_of_le (by simp)
      · -- the next fragment is in the window as well
        have hmem' : F + (a + k - F + 1) ∈ R := by
          rw [show F + (a + k - F + 1) = a + (k + 1) by omega]
          exact hall _ (by omega) (by omega)
        have hsize : _ < s.pduBuffer.size := lt_size (by rw [h.pdu _ hmem']; rfl)
        rw [if_neg (by omega), show a + k - F + 1 = a + (k + 1) - F by omega]
        exact ih (by omega) (by omega) (fun t ht => hall t (by omega)) (by omega)

/-- A status report changes nothing but its time. -/
theorem sendStatusReport_spec (hpos : s.received ≠ []) (now : ℕ) :
    ∃ t out, sendStatusReport Q now s = .ok ({ s with lastSentAck := t }, out) ∧
      sdus out = [] := by
  unfold sendStatusReport
  split
  · exact ⟨s.lastSentAck, [], rfl, rfl⟩
  · exact ⟨now, _, rfl, rfl⟩

theorem sendStatusReport_ok {now : ℕ} {out : List AmRxOutput}
    (h : sendStatusReport Q now s = .ok (s', out)) :
    ∃ t, s' = { s with lastSentAck := t } ∧ sdus out = [] := by
  unfold sendStatusReport at h
  split at h
  · cases h
    exact ⟨s.lastSentAck, rfl, rfl⟩
  · split at h
    · cases h
    · cases h
      exact ⟨now, rfl, rfl⟩

theorem Layout.fragments_ne_nil {a : ℕ} (ha : L.first a = a) : L.fragments a ≠ [] := by
  have hpos : a < L.next a := L.lt_next'
  have hnext : L.next a = a + L.total a := by rw [Layout.next, ha]
  intro hnil
  have hlen := congrArg List.length hnil
  rw [Layout.fragments, List.length_map, List.length_range', List.length_nil] at hlen
  omega

theorem Stored.received_ne_nil (h : Stored L Q F R s) (hmem : F + i ∈ R) : s.received ≠ [] := by
  intro hnil
  have hlen := h.received_length
  have hlt := h.lt _ hmem
  rw [hnil, List.length_nil] at hlen
  omega

/-- **A complete SDU that is in the window as a whole is passed up.** -/
theorem passUp_spec (h : Stored L Q F R s) {a : ℕ} (ha : L.first a = a) (hF : F ≤ a)
    (hall : L.Complete R a) (now : ℕ) :
    ∃ t out, passUp Q now s (a - F) =
      .ok ({ s with lastSentAck := t }, .sdu (L.fragments a) :: out) ∧ sdus out = [] := by
  have hlt : a < L.next a := L.lt_next'
  have hnext : L.next a = a + L.total a := by rw [Layout.next, ha]
  have hmem : F + (a - F) ∈ R := by
    rw [Nat.add_sub_cancel' hF]
    exact hall a ha.le hlt
  obtain ⟨t, out, hreport, hout⟩ :=
    sendStatusReport_spec (Q := Q) (h.received_ne_nil hmem) now
  refine ⟨t, out, ?_, hout⟩
  unfold passUp
  rw [h.pduAt hmem, Nat.add_sub_cancel' hF]
  change (if (L.pdu a).isWhole then _ else _) = _
  by_cases hwhole : (L.pdu a).isWhole
  · rw [if_pos hwhole, hreport, Layout.fragments, L.pdu_isWhole.1 hwhole]
    rfl
  · have hend : F + (L.next a - 1 - F) ∈ R := hall _ (by omega) (by omega)
    have hsize : _ < s.pduBuffer.size := lt_size (by rw [h.pdu _ hend]; rfl)
    have hcollect := collect_spec h (k := 0) (n := s.pduBuffer.size) ha (Nat.zero_le _) hF
      (fun t ht => hall t (ha.le.trans ht)) (by omega)
    rw [if_neg hwhole, if_neg (fun hc => hc.2 (L.pdu_isFirst.2 ha)), Layout.pdu_snoMainPacket,
      Layout.pdu_totalFragments]
    change (collect s (L.sdu a).snoMainPacket (L.total a) s.pduBuffer.size (a - F) [] >>= _) = _
    rw [show collect s (L.sdu a).snoMainPacket (L.total a) s.pduBuffer.size (a - F) [] =
      .ok (L.fragments a) from hcollect]
    change (if L.fragments a = [] then _ else _) = _
    rw [if_neg (Layout.fragments_ne_nil ha), hreport]
    rfl

/-- **A complete SDU in the middle of which the window starts is passed up** by the fragment at the
start, if its other fragments are pending. -/
theorem passUp_pending (h : Stored L Q F R s) (hF : L.first F < F)
    (hall : L.Complete R F)
    (hpending : s.pendingPduBuffer = (List.range' (L.first F) (F - L.first F)).map L.pdu)
    (now : ℕ) :
    ∃ t out, passUp Q now s 0 =
      .ok ({ s with pendingPduBuffer := [], lastSentAck := t },
        .sdu (L.fragments (L.first F)) :: out) ∧ sdus out = [] := by
  have hlt : F < L.next F := L.lt_next'
  have hle := L.first_le F
  have hfirst : L.first (L.first F) = L.first F := L.first_first
  have hsdu : L.sdu (L.first F) = L.sdu F := L.sdu_eq le_rfl (by omega)
  have hnext : L.next (L.first F) = L.next F := L.next_eq le_rfl (by omega)
  have htotal : L.total (L.first F) = L.total F := L.total_eq le_rfl (by omega)
  have hlen : L.next F = L.first F + L.total F := rfl
  have hmem : F + 0 ∈ R := hall F hle hlt
  -- a report goes out with what is passed up
  obtain ⟨t, out, hreport, hout⟩ := sendStatusReport_spec (Q := Q)
    (s := { s with pendingPduBuffer := [] }) (h.received_ne_nil hmem) now
  -- the fragments after the pending ones are in the window
  refine ⟨t, out, ?_, hout⟩
  have hend : F + (L.next F - 1 - F) ∈ R := hall _ (by omega) (by omega)
  have hsize : _ < s.pduBuffer.size := lt_size (by rw [h.pdu _ hend]; rfl)
  have hcollect := collect_spec h (k := F - L.first F) (n := s.pduBuffer.size) hfirst (by omega)
    (by omega) (fun t ht hts => hall t (by omega) (hnext ▸ hts)) (by omega)
  rw [hsdu, htotal, ← hpending, show L.first F + (F - L.first F) - F = 0 by omega] at hcollect
  have hwhole : ¬(L.pdu F).isWhole := fun hw => by
    have := L.pdu_isWhole.1 hw
    omega
  have hmiddle : ¬(L.pdu F).isFirst := fun hf => hF.ne (L.pdu_isFirst.1 hf)
  have hsame : s.pendingPduBuffer.any (·.snoMainPacket ≠ (L.pdu F).snoMainPacket) = false := by
    rw [List.any_eq_false, hpending]
    intro pdu hpdu
    obtain ⟨t, ht, rfl⟩ := List.mem_map.1 hpdu
    rw [List.mem_range'_1] at ht
    rw [Layout.pdu_snoMainPacket, Layout.pdu_snoMainPacket,
      L.sdu_eq ht.1 (by omega)]
    simp
  -- the source looks for a whole fragment first, then for one in the middle
  unfold passUp
  rw [h.pduAt hmem, Nat.add_zero]
  change (if (L.pdu F).isWhole then _ else if 0 = 0 ∧ ¬(L.pdu F).isFirst then
    (if s.pendingPduBuffer.any (·.snoMainPacket ≠ (L.pdu F).snoMainPacket) then _ else _)
    else _) = _
  rw [if_neg hwhole, if_pos ⟨rfl, hmiddle⟩, hsame, if_neg Bool.false_ne_true,
    Layout.pdu_snoMainPacket, Layout.pdu_totalFragments, hcollect]
  change (if L.fragments (L.first F) = [] then _ else _) = _
  rw [if_neg (Layout.fragments_ne_nil hfirst), hreport]
  rfl

/-! ### Checking for a complete SDU -/

/-- The other fragments of the SDU in whose middle the window starts. -/
def before (L : Layout P) (F : ℕ) : List LteRlcAmPdu :=
  (List.range' (L.first F) (F - L.first F)).map L.pdu

/-- The fragments before `F` of the SDU of `F` have been received. -/
def Begun (L : Layout P) (F : ℕ) (R : Set ℕ) : Prop := ∀ t, L.first F ≤ t → t < F → t ∈ R

/-- What the fragment `sn` finds at its arrival.  If it is at the start of the window, those before
it have been received, and `firstSdu` is their SDU; if it completes that, they are pending. -/
structure Found (L : Layout P) (Q : AmRxParams) (F : ℕ) (R : Set ℕ) (sn : ℕ) (s : AmRxQueue) :
    Prop where
  stored : Stored L Q F R s
  mem : sn ∈ R
  le : F ≤ sn
  begun : sn = F → L.first F < F → Begun L F R
  firstSdu : L.first F < F → Begun L F R → s.firstSdu = i32 (L.sdu F).snoMainPacket
  ok : L.Complete R sn → sn = F → L.first F < F → s.pendingPduBuffer = before L F

/-- The SDU is complete, and the window does not start inside it, unless at this fragment. -/
def Ready (L : Layout P) (F : ℕ) (R : Set ℕ) (sn : ℕ) : Prop :=
  L.Complete R sn ∧ (F ≤ L.first sn ∨ sn = F)

/-- The first fragment of the SDU that is in the window is found if none is missing before `sn`. -/
theorem firstIndex_spec (h : Found L Q F R sn s) :
    ∃ r, firstIndex s (L.pdu sn) (sn - F) = .ok r ∧
      ((∃ j, r = some j ∧ (∀ t, L.first sn ≤ t → t < sn → t ∈ R) ∧
          (F + j = L.first sn ∨ L.first sn < F ∧ sn = F ∧ j = 0)) ∨
        r = none ∧ ¬Ready L F R sn) := by
  have hle := h.le
  have hfirst := L.first_le sn
  unfold firstIndex
  by_cases hhead : L.first sn = sn
  · rw [if_pos (L.pdu_isFirst.2 hhead)]
    exact ⟨_, rfl, .inl ⟨_, rfl, fun t ht hts => by omega, .inl (by omega)⟩⟩
  rw [if_neg (fun hf => hhead (L.pdu_isFirst.1 hf))]
  by_cases hzero : sn - F = 0
  · obtain rfl : sn = F := by omega
    have hlt : L.first sn < sn := Nat.lt_of_le_of_ne hfirst hhead
    rw [if_pos hzero, Layout.pdu_snoMainPacket, if_pos (h.firstSdu hlt (h.begun rfl hlt))]
    exact ⟨_, rfl, .inl ⟨0, rfl, h.begun rfl hlt, .inr ⟨hlt, rfl, rfl⟩⟩⟩
  · rw [if_neg hzero]
    have hlt := h.stored.lt sn h.mem
    obtain ⟨r, hr, hfound⟩ := searchFirst_spec h.stored sn (i := sn - F) (by omega)
      (by omega) (by omega) (fun t ht hts => by omega)
    refine ⟨r, hr, ?_⟩
    obtain ⟨j, rfl, hj, hall⟩ | ⟨rfl, hmissing⟩ := hfound
    · exact .inl ⟨j, rfl, hall, .inl hj⟩
    · refine .inr ⟨rfl, fun ⟨hcomplete, hF⟩ => ?_⟩
      have hne : sn ≠ F := fun heq => hzero (by omega)
      obtain ⟨t, ht, hts, hnot⟩ := hmissing (hF.resolve_right hne)
      exact hnot (hcomplete t ht (hts.trans L.lt_next'))

/-- What `checkCompleteSdu` has done. -/
structure Checked (L : Layout P) (Q : AmRxParams) (F : ℕ) (R : Set ℕ) (sn : ℕ) (s s' : AmRxQueue)
    (out : List AmRxOutput) : Prop where
  stored : Stored L Q F R s'
  firstSdu : L.first F < F → Begun L F R → s'.firstSdu = s.firstSdu
  pending : s'.pendingPduBuffer = s.pendingPduBuffer ∨ L.first F < F ∧ L.Complete R F
  out : Ready L F R sn ∧ sdus out = [L.fragments (L.first sn)] ∨
    ¬Ready L F R sn ∧ sdus out = []

/-- The window is the same if only the other parts have changed. -/
theorem Stored.congr (h : Stored L Q F R s)
    (hfirst : s'.rxWindowDesc.firstSeqNum = s.rxWindowDesc.firstSeqNum)
    (hbuffer : s'.pduBuffer = s.pduBuffer) (hreceived : s'.received = s.received)
    (hdiscarded : s'.discarded = s.discarded) : Stored L Q F R s' where
  first := hfirst.trans h.first
  received_length := hreceived ▸ h.received_length
  discarded_length := hdiscarded ▸ h.discarded_length
  received := hreceived ▸ h.received
  pdu := hbuffer ▸ h.pdu
  free := hbuffer ▸ h.free
  lt := h.lt

/-- A complete SDU is passed up from where its first fragment in the window is. -/
theorem passUp_found (h : Found L Q F R sn s) (hall : L.Complete R sn) {j : ℕ}
    (hj : F + j = L.first sn ∨ L.first sn < F ∧ sn = F ∧ j = 0) (now : ℕ) :
    ∃ s' out, passUp Q now s j = .ok (s', out) ∧ Checked L Q F R sn s s' out := by
  rcases hj with hj | ⟨hlt, rfl, rfl⟩
  · have hcomplete : L.Complete R (L.first sn) :=
      (L.complete_congr L.first_first (L.next_eq le_rfl
        (lt_of_le_of_lt (L.first_le sn) L.lt_next'))).2 hall
    obtain ⟨t, out, hpass, hout⟩ :=
      passUp_spec h.stored (Q := Q) L.first_first (by omega) hcomplete now
    rw [← hj, Nat.add_sub_cancel_left] at hpass
    refine ⟨_, _, hpass, h.stored.congr rfl rfl rfl rfl, fun _ _ => rfl, .inl rfl,
      .inl ⟨⟨hall, .inl (by omega)⟩, ?_⟩⟩
    rw [hj]
    exact congrArg (_ :: ·) hout
  · obtain ⟨t, out, hpass, hout⟩ := passUp_pending h.stored hlt hall (h.ok hall rfl hlt) now
    exact ⟨_, _, hpass, h.stored.congr rfl rfl rfl rfl, fun _ _ => rfl, .inr ⟨hlt, hall⟩,
      .inl ⟨⟨hall, .inr rfl⟩, congrArg (_ :: ·) hout⟩⟩

/-- The SDU in whose middle the window starts keeps its number. -/
theorem Found.keepFirst (h : Found L Q F R sn s) : ∃ f,
    (if s.firstSdu = -1 then { s with firstSdu := i32 (L.pdu sn).snoMainPacket } else s) =
      ({ s with firstSdu := f } : AmRxQueue) ∧
        (L.first F < F → Begun L F R → f = s.firstSdu) := by
  by_cases hnone : s.firstSdu = -1
  · refine ⟨_, if_pos hnone, fun hF hbegun => ?_⟩
    have hsno := L.sno_lt F
    rw [h.firstSdu hF hbegun] at hnone
    unfold i32 u32 at hnone
    split at hnone <;> omega
  · exact ⟨s.firstSdu, if_neg hnone, fun _ _ => rfl⟩

/-- If the fragments before one are there, those from it on decide. -/
theorem complete_iff_after (hbefore : ∀ t, L.first sn ≤ t → t < sn → t ∈ R) :
    L.Complete R sn ↔ ∀ t, sn ≤ t → t < L.next sn → t ∈ R := by
  have hfirst := L.first_le sn
  constructor
  · intro hall t ht hts
    exact hall t (by omega) hts
  · intro hafter t ht hts
    by_cases hlt : t < sn
    · exact hbefore t ht hlt
    · exact hafter t (Nat.not_lt.1 hlt) hts

/-- **The SDU is passed up iff the fragment completes it** and the window does not start inside it,
unless at the fragment. -/
theorem checkCompleteSdu_spec (h : Found L Q F R sn s) (now : ℕ) :
    ∃ s' out, checkCompleteSdu Q now s (sn - F) = .ok (s', out) ∧ Checked L Q F R sn s s' out := by
  have hmem : F + (sn - F) ∈ R := by
    rw [Nat.add_sub_cancel' h.le]
    exact h.mem
  -- the fragment becomes the first of an SDU
  have hfirst := L.first_le sn
  have hlt : sn < L.next sn := L.lt_next'
  obtain ⟨f, hs, hf⟩ := h.keepFirst
  have hfound : Found L Q F R sn { s with firstSdu := f } := ⟨h.stored.congr rfl rfl rfl rfl, h.mem,
    h.le, h.begun, fun hF hb => (hf hF hb).trans (h.firstSdu hF hb), h.ok⟩
  have hchecked : ∀ {s' out}, Checked L Q F R sn { s with firstSdu := f } s' out →
      Checked L Q F R sn s s' out := fun hc =>
    ⟨hc.stored, fun hF hb => (hc.firstSdu hF hb).trans (hf hF hb), hc.pending, hc.out⟩
  have hpassed : ∀ {j}, L.Complete R sn → (F + j = L.first sn ∨ L.first sn < F ∧ sn = F ∧ j = 0) →
      ∃ s' out, passUp Q now { s with firstSdu := f } j = .ok (s', out) ∧
        Checked L Q F R sn s s' out := fun hall hj => by
    obtain ⟨s', out, hpass, hc⟩ := passUp_found hfound hall hj now
    exact ⟨s', out, hpass, hchecked hc⟩
  have hnothing : ¬Ready L F R sn → Checked L Q F R sn s { s with firstSdu := f } [] := fun hn =>
    ⟨h.stored.congr rfl rfl rfl rfl, hf, .inl rfl, .inr ⟨hn, rfl⟩⟩
  unfold checkCompleteSdu
  rw [h.stored.pduAt hmem, Nat.add_sub_cancel' h.le]
  change ∃ s' out, (if (L.pdu sn).isWhole then passUp Q now (if s.firstSdu = -1 then _ else s) _
    else _) = _ ∧ _
  rw [hs]
  -- the fragment is an SDU on its own
  by_cases hwhole : (L.pdu sn).isWhole
  · rw [if_pos hwhole]
    have htotal := L.pdu_isWhole.1 hwhole
    have hnext : L.next sn = L.first sn + L.total sn := rfl
    have hall : L.Complete R sn := (complete_iff_after fun t ht hlt => by omega).2 fun t ht hts =>
      (show t = sn by omega) ▸ h.mem
    have hle := h.le
    exact hpassed hall (.inl (by omega))
  rw [if_neg hwhole]
  -- the search towards the start of the SDU
  obtain ⟨r, hr, hcase⟩ := firstIndex_spec hfound
  rw [hr]
  obtain ⟨j, rfl, hbefore, hj⟩ | ⟨rfl, hnot⟩ := hcase
  swap
  · exact ⟨_, _, rfl, hnothing hnot⟩
  change ∃ s' out, (if (L.pdu sn).isLast then passUp Q now _ j else _) = _ ∧ _
  by_cases hlast : (L.pdu sn).isLast
  · rw [if_pos hlast]
    have hnext := L.pdu_isLast.1 hlast
    have hall : L.Complete R sn := (complete_iff_after hbefore).2 fun t ht hts =>
      (show t = sn by omega) ▸ h.mem
    exact hpassed hall hj
  · -- the search towards its end
    rw [if_neg hlast]
    have hnext : L.next sn ≠ sn + 1 := fun heq => hlast (L.pdu_isLast.2 heq)
    have hle := h.le
    have hW := h.stored.lt sn h.mem
    obtain ⟨b, hb, hiff⟩ := searchLast_spec hfound.stored sn (i := sn - F + 1)
      (n := Q.rxWindowSize - (sn - F + 1)) (by omega) (by omega) (by omega) (fun t ht hts => by
        obtain rfl : t = sn := by omega
        exact h.mem)
    have hcomplete : L.Complete R sn ↔ b = true := (complete_iff_after hbefore).trans hiff.symm
    rw [hb]
    change ∃ s' out, (if b = true then passUp Q now _ j else _) = _ ∧ _
    by_cases hbt : b = true
    · rw [if_pos hbt]
      exact hpassed (hcomplete.2 hbt) hj
    · rw [if_neg hbt]
      exact ⟨_, _, rfl, hnothing fun hready => hbt (hcomplete.1 hready.1)⟩

/-! ### The pending buffer -/

open Classical in
/-- The fragments that are pending when everything before `n` has left the window: those that have
been received after the last one that ends an SDU. -/
noncomputable def pend (L : Layout P) (R : Set ℕ) : ℕ → List ℕ
  | 0 => []
  | n + 1 => if n ∈ R then if L.next n = n + 1 then [] else pend L R n ++ [n] else pend L R n

theorem pend_last {n : ℕ} (hn : n ∈ R) (hlast : L.next n = n + 1) : pend L R (n + 1) = [] := by
  rw [pend, if_pos hn, if_pos hlast]

theorem pend_middle {n : ℕ} (hn : n ∈ R) (hlast : L.next n ≠ n + 1) :
    pend L R (n + 1) = pend L R n ++ [n] := by
  rw [pend, if_pos hn, if_neg hlast]

theorem pend_missing {n : ℕ} (hn : n ∉ R) : pend L R (n + 1) = pend L R n := by
  rw [pend, if_neg hn]

/-- What is pending depends on what has left the window only. -/
theorem pend_congr {R' : Set ℕ} {n : ℕ} (h : ∀ t < n, t ∈ R ↔ t ∈ R') :
    pend L R n = pend L R' n := by
  induction n with
  | zero => rfl
  | succ n ih =>
    have hn := ih fun t ht => h t (Nat.lt_succ_of_lt ht)
    by_cases hmem : n ∈ R
    · have hmem' := (h n (Nat.lt_succ_self n)).1 hmem
      by_cases hlast : L.next n = n + 1
      · rw [pend_last hmem hlast, pend_last hmem' hlast]
      · rw [pend_middle hmem hlast, pend_middle hmem' hlast, hn]
    · rw [pend_missing hmem, pend_missing fun h' => hmem ((h n (Nat.lt_succ_self n)).2 h'), hn]

/-- No fragment of an SDU before `a` is pending: each one is followed by one that ends an SDU. -/
def Clean (L : Layout P) (R : Set ℕ) (a : ℕ) : Prop :=
  ∀ t < a, t ∈ R → ∃ l, t ≤ l ∧ l < a ∧ L.next l = l + 1 ∧ l ∈ R

theorem pend_clean {n : ℕ} (h : Clean L R n) : pend L R n = [] := by
  induction n with
  | zero => rfl
  | succ n ih =>
    by_cases hmem : n ∈ R
    · obtain ⟨l, hle, hlt, hlast, -⟩ := h n (Nat.lt_succ_self n) hmem
      obtain rfl : l = n := by omega
      exact pend_last hmem hlast
    · rw [pend_missing hmem]
      refine ih fun t ht htR => ?_
      obtain ⟨l, hle, hlt, hlast, hl⟩ := h t (Nat.lt_succ_of_lt ht) htR
      have hne : l ≠ n := by
        rintro rfl
        exact hmem hl
      exact ⟨l, hle, by omega, hlast, hl⟩

/-- In the middle of an SDU of which nothing is missing so far, its fragments are pending. -/
theorem pend_inside (hclean : Clean L R (L.first F))
    (hbegun : Begun L F R) : pend L R F = List.range' (L.first F) (F - L.first F) := by
  have hle := L.first_le F
  have hlt : F < L.next F := L.lt_next'
  have hpart : ∀ k, L.first F + k ≤ F →
      pend L R (L.first F + k) = List.range' (L.first F) k := by
    intro k hk
    induction k with
    | zero => exact pend_clean hclean
    | succ k ih =>
      have hnext : L.next (L.first F + k) = L.next F := L.next_eq (by omega) (by omega)
      rw [← Nat.add_assoc, pend_middle (hbegun _ (by omega) (by omega)) (by omega),
        ih (by omega), List.range'_concat, one_mul]
  have h := hpart (F - L.first F) (by omega)
  rwa [Nat.add_sub_cancel' hle] at h

/-! ### Between two events -/

/-- The state after the history `h`. -/
structure Holds (L : Layout P) (Q : AmRxParams) (h : History) (s : AmRxQueue) : Prop where
  stored : Stored L Q h.start h.received s
  firstSdu : L.first h.start < h.start → Begun L h.start h.received →
    s.firstSdu = i32 (L.sdu h.start).snoMainPacket
  /-- Once the SDU is complete, it does not matter which of its fragments are pending. -/
  pending : (L.first h.start < h.start → ¬L.Complete h.received h.start) →
    s.pendingPduBuffer = (pend L h.received h.start).map L.pdu

/-- The fragment is the last one of its SDU to be received. -/
def Completes (L : Layout P) (h : History) (sn : ℕ) : Prop :=
  h.start ≤ sn ∧ sn ∉ h.received ∧ L.Complete (h.after (.fragment sn)).received sn

/-- The fragment completes its SDU, and the window does not start inside that, unless at the
fragment. -/
def Delivers (L : Layout P) (h : History) (sn : ℕ) : Prop :=
  Completes L h sn ∧ (h.start ≤ L.first sn ∨ sn = h.start)

/-- If the fragment comes to the start of the window and is not the first one of its SDU, no part of
that has been skipped, and if it is complete now, no fragment of an SDU before it is pending. -/
def Continues (L : Layout P) (h : History) (sn : ℕ) : Prop :=
  sn = h.start → sn ∉ h.received → L.first sn < sn →
    Begun L sn h.received ∧ (Completes L h sn → Clean L h.received (L.first sn))

/-- The numbers are less than half of all numbers apart. -/
def Near (F sn : ℕ) : Prop := F ≤ sn + 2147483648 ∧ sn < F + 2147483648

theorem sub32_near (h : Near F sn) (hF : F ≤ sn) :
    sub32 (u32 sn) (u32 F) = sn - F ∧ i32 (sub32 (u32 sn) (u32 F)) = (sn - F : ℕ) := by
  obtain ⟨h₁, h₂⟩ := h
  have hsub : sub32 (u32 sn) (u32 F) = sn - F := by
    unfold sub32 u32
    omega
  rw [hsub]
  exact ⟨rfl, i32_of_lt (by omega)⟩

theorem sub32_near_neg (h : Near F sn) (hF : sn < F) : i32 (sub32 (u32 sn) (u32 F)) < 0 := by
  obtain ⟨h₁, h₂⟩ := h
  unfold i32 sub32 u32
  split <;> omega

/-! ### A fragment comes -/

/-- A fragment that has come before, or is too late, changes nothing. -/
theorem History.after_known {h : History} (hknown : sn < h.start ∨ sn ∈ h.received) :
    h.after (.fragment sn) = h := by
  have hset : { t | t ∈ h.received ∨ t = sn ∧ h.start ≤ sn } = h.received := by
    ext t
    constructor
    · rintro (hmem | ⟨rfl, hle⟩)
      · exact hmem
      · exact hknown.resolve_left (by omega)
    · exact Or.inl
  calc h.after (.fragment sn)
      = { h with received := { t | t ∈ h.received ∨ t = sn ∧ h.start ≤ sn } } := rfl
    _ = h := by rw [hset]

/-- A fragment is put into the window. -/
theorem Stored.add {h : History} (hs : Stored L Q h.start h.received s) (hle : h.start ≤ sn)
    (hlt : sn < h.start + Q.rxWindowSize) :
    Stored L Q h.start (h.after (.fragment sn)).received { s with
      pduBuffer := s.pduBuffer.addAt (sn - h.start) (L.pdu sn)
      received := s.received.set (sn - h.start) true } := by
  have hi : sn - h.start < s.received.length := by
    rw [hs.received_length]
    omega
  refine ⟨hs.first, (List.length_set ..).trans hs.received_length, hs.discarded_length,
    fun i => ?_, fun i hmem => ?_, fun i hfree => ?_, fun t ht => ?_⟩
  · dsimp only
    rw [flag_set hi, Function.update_apply]
    by_cases hpos : i = sn - h.start
    · rw [if_pos hpos]
      exact iff_of_true rfl (.inr ⟨by omega, hle⟩)
    · rw [if_neg hpos, hs.received i]
      exact ⟨Or.inl, fun hmem => hmem.resolve_right fun heq => by omega⟩
  · dsimp only
    rw [CArray.get_addAt]
    by_cases hpos : i = sn - h.start
    · rw [hpos, Function.update_self, Nat.add_sub_cancel' hle]
    · rw [Function.update_of_ne hpos]
      exact hs.pdu i (hmem.resolve_right fun heq => by omega)
  · dsimp only
    rw [CArray.get_addAt, Function.update_of_ne]
    · exact hs.free i fun hmem => hfree (.inl hmem)
    · rintro rfl
      exact hfree (.inr ⟨by omega, hle⟩)
  · rcases ht with ht | ⟨rfl, -⟩
    · exact hs.lt t ht
    · exact hlt

/-- What the arrival of a fragment has done. -/
structure Arrived (L : Layout P) (Q : AmRxParams) (h : History) (sn : ℕ) (s' : AmRxQueue)
    (out : List AmRxOutput) : Prop where
  holds : Holds L Q (h.after (.fragment sn)) s'
  out : Delivers L h sn ∧ sdus out = [L.fragments (L.first sn)] ∨
    ¬Delivers L h sn ∧ sdus out = []

theorem buffer_spec {h : History} (hs : Holds L Q h s) (hle : h.start ≤ sn)
    (hlt : sn < h.start + Q.rxWindowSize)
    (hok : Continues L h sn) (now : ℕ) :
    ∃ s' out, buffer Q now s (L.pdu sn) (sn - h.start) = .ok (s', out) ∧
      Arrived L Q h sn s' out := by
  unfold buffer
  rw [hs.stored.boolAt (by omega)]
  by_cases hmem : sn ∈ h.received
  · -- it has been received before
    have hmem' : h.start + (sn - h.start) ∈ h.received := by rwa [Nat.add_sub_cancel' hle]
    rw [(hs.stored.received _).2 hmem']
    change ∃ s' out, (do
      let buffered ← s.pduAt (sn - h.start)
      if buffered.snoMainPacket = (L.pdu sn).snoMainPacket then .ok (s, []) else .error .overlap) =
        .ok (s', out) ∧ _
    rw [hs.stored.pduAt hmem', Nat.add_sub_cancel' hle]
    refine ⟨s, [], if_pos rfl, ?_, .inr ⟨fun hd => hd.1.2.1 hmem, rfl⟩⟩
    rw [History.after_known (.inr hmem)]
    exact hs
  have hmem' : h.start + (sn - h.start) ∉ h.received := by rwa [Nat.add_sub_cancel' hle]
  have hflag : flag s.received (sn - h.start) = false := by
    rw [← Bool.not_eq_true, hs.stored.received]
    exact hmem'
  rw [hflag]
  change ∃ s' out, (if (s.pduBuffer.get (sn - h.start)).isSome then _ else
    checkCompleteSdu Q now _ (sn - h.start)) = .ok (s', out) ∧ _
  rw [if_neg (by rw [hs.stored.free _ hmem']; simp)]
  -- what is pending has not changed
  have hpend : pend L (h.after (.fragment sn)).received h.start = pend L h.received h.start :=
    pend_congr fun t ht => ⟨fun hR => hR.resolve_right fun heq => by omega, Or.inl⟩
  have hbegun : Begun L h.start (h.after (.fragment sn)).received → Begun L h.start h.received :=
    fun hb t ht hts => (hb t ht hts).resolve_right fun heq => by omega
  have hincomplete : ¬L.Complete h.received sn := fun hall =>
    hmem (hall sn (L.first_le sn) L.lt_next')
  have hfound : Found L Q h.start (h.after (.fragment sn)).received sn { s with
      pduBuffer := s.pduBuffer.addAt (sn - h.start) (L.pdu sn)
      received := s.received.set (sn - h.start) true } := by
    refine ⟨hs.stored.add hle hlt, .inr ⟨rfl, hle⟩, hle, fun heq hF t ht hts => ?_,
      fun hF hb => hs.firstSdu hF (hbegun hb), fun hall heq hF => ?_⟩
    · subst heq
      exact .inl ((hok rfl hmem hF).1 t ht hts)
    · subst heq
      obtain ⟨hb, hclean⟩ := hok rfl hmem hF
      refine (hs.pending fun _ => hincomplete).trans ?_
      rw [pend_inside (hclean ⟨hle, hmem, hall⟩) hb]
      rfl
  obtain ⟨s', out, hcheck, hc⟩ := checkCompleteSdu_spec hfound now
  refine ⟨s', out, hcheck, ⟨hc.stored, fun hF hb => ?_, fun hF => ?_⟩, ?_⟩
  · exact (hc.firstSdu hF hb).trans (hs.firstSdu hF (hbegun hb))
  · rcases hc.pending with hsame | ⟨hlt, hall⟩
    · refine hsame.trans ((hs.pending fun hlt hall => hF hlt fun t ht hts => ?_).trans ?_)
      · exact .inl (hall t ht hts)
      · exact congrArg (List.map L.pdu) hpend.symm
    · exact absurd hall (hF hlt)
  · exact hc.out.imp (And.imp_left fun hready => ⟨⟨hle, hmem, hready.1⟩, hready.2⟩)
      (And.imp_left fun hnot hd => hnot ⟨hd.1.2.2, hd.2⟩)

theorem Holds.congr {h : History} (hs : Holds L Q h s)
    (hfirst : s'.rxWindowDesc.firstSeqNum = s.rxWindowDesc.firstSeqNum)
    (hbuffer : s'.pduBuffer = s.pduBuffer) (hreceived : s'.received = s.received)
    (hdiscarded : s'.discarded = s.discarded) (hsdu : s'.firstSdu = s.firstSdu)
    (hpending : s'.pendingPduBuffer = s.pendingPduBuffer) : Holds L Q h s' :=
  ⟨hs.stored.congr hfirst hbuffer hreceived hdiscarded,
    fun hF hb => hsdu.trans (hs.firstSdu hF hb), fun hF => hpending.trans (hs.pending hF)⟩

/-- **A fragment that is not beyond the window** is handled without an exception. -/
theorem enqueData_spec {h : History} (hs : Holds L Q h s) (hnear : Near h.start sn)
    (hlt : sn < h.start + Q.rxWindowSize)
    (hok : Continues L h sn) (now : ℕ) :
    ∃ s' out, enqueData Q now s (L.pdu sn) = .ok (s', out) ∧ Arrived L Q h sn s' out := by
  have hfirst := hs.stored.first
  unfold enqueData
  dsimp only
  rw [Layout.pdu_snoFragment]
  by_cases hle : h.start ≤ sn
  swap
  · -- it is too late
    rw [if_pos (hfirst ▸ sub32_near_neg hnear (Nat.not_le.1 hle))]
    refine ⟨_, _, rfl, ?_, .inr ⟨fun hd => hle hd.1.1, rfl⟩⟩
    rw [History.after_known (.inl (Nat.not_le.1 hle))]
    exact hs.congr rfl rfl rfl rfl rfl rfl
  obtain ⟨hsub, hint⟩ := sub32_near hnear hle
  rw [← hfirst] at hsub hint
  rw [if_neg (by rw [hint]; omega), hsub, if_neg (by omega)]
  -- the number that was expected
  by_cases hseq : u32 sn = s.rxWindowDesc.seqNum
  · rw [if_pos hseq]
    exact buffer_spec (s := { s with
      timer := true, flowControlInfo := true
      rxWindowDesc.seqNum := u32 (s.rxWindowDesc.seqNum + 1) })
      (hs.congr rfl rfl rfl rfl rfl rfl) hle hlt hok now
  · -- a number further on: the gap is reported
    rw [if_neg hseq]
    have hlen := hs.stored.received_length
    have hne : s.received ≠ [] := by
      intro hnil
      rw [hnil, List.length_nil] at hlen
      omega
    obtain ⟨t, report, hreport, hnone⟩ := sendStatusReport_spec (Q := Q) (s := { s with
      timer := true, flowControlInfo := true, rxWindowDesc.seqNum := u32 (u32 sn + 1) }) hne now
    obtain ⟨s', out, hbuffer, harrived⟩ := buffer_spec (s := { s with
      timer := true, flowControlInfo := true, rxWindowDesc.seqNum := u32 (u32 sn + 1)
      lastSentAck := t }) (hs.congr rfl rfl rfl rfl rfl rfl) hle hlt hok now
    refine ⟨s', report ++ out, ?_, harrived.holds, ?_⟩
    · rw [hreport]
      change (buffer Q now _ (L.pdu sn) (sn - h.start) >>= _) = _
      rw [hbuffer]
      rfl
    · rw [sdus_append, hnone, List.nil_append]
      exact harrived.out

/-! ### The window moves -/

/-- Everything before position `j` has left the window, which has not been moved yet. -/
structure Leaving (L : Layout P) (h : History) (s : AmRxQueue) (pos j : ℕ) (s' : AmRxQueue) :
    Prop where
  rxWindowDesc : s'.rxWindowDesc = s.rxWindowDesc
  received : s'.received = s.received
  discarded : s'.discarded = s.discarded
  buffer : s'.pduBuffer.get = shifted s.pduBuffer.get none pos j
  firstSdu : 0 < j → L.first (h.start + j) < h.start + j → h.start + j - 1 ∈ h.received →
    s'.firstSdu = i32 (L.sdu (h.start + j)).snoMainPacket
  pending : (L.first (h.start + j) < h.start + j → ¬L.Complete h.received (h.start + j)) →
    s'.pendingPduBuffer = (pend L h.received (h.start + j)).map L.pdu

theorem leavePosition_spec {h : History} {pos j : ℕ} (hs : Holds L Q h s)
    (hl : Leaving L h s pos j s') (hj : j < pos) :
    Leaving L h s pos (j + 1) (leavePosition s' j) := by
  have hget : s'.pduBuffer.get j = s.pduBuffer.get j := by
    rw [hl.buffer, shifted_of_le le_rfl]
  have hclear : (s'.pduBuffer.remove j).get = shifted s.pduBuffer.get none pos (j + 1) := by
    rw [CArray.get_remove, hl.buffer, shifted_clear hj]
  have hnext : h.start + j < L.next (h.start + j) := L.lt_next'
  unfold leavePosition
  by_cases hmem : h.start + j ∈ h.received
  · rw [hget, hs.stored.pdu j hmem]
    dsimp only
    by_cases hlast : L.next (h.start + j) = h.start + j + 1
    · -- the SDU ends here: nothing is pending any more
      rw [if_pos (.inl (L.pdu_isLast.2 hlast))]
      refine ⟨hl.rxWindowDesc, hl.received, hl.discarded, hclear, fun _ hfirst _ => ?_, fun _ => ?_⟩
      · -- so the next position is not in the middle of an SDU
        rw [← Nat.add_assoc] at hfirst
        have hlt : h.start + j + 1 < L.next (h.start + j + 1) := L.lt_next'
        have hsame : L.next (h.start + j) = L.next (h.start + j + 1) :=
          L.next_eq (Nat.le_of_lt_succ hfirst) (by omega)
        omega
      · rw [← Nat.add_assoc, pend_last hmem hlast]
        rfl
    · have hmiddle : ¬((L.pdu (h.start + j)).isLast ∨ (L.pdu (h.start + j)).isWhole) := by
        rintro (hl | hw)
        · exact hlast (L.pdu_isLast.1 hl)
        · have htotal := L.pdu_isWhole.1 hw
          have hlen : L.next (h.start + j) = L.first (h.start + j) + L.total (h.start + j) := rfl
          have hfirst := L.first_le (h.start + j)
          omega
      have hfirst : L.first (h.start + j + 1) = L.first (h.start + j) :=
        L.first_eq (by have := L.first_le (h.start + j); omega) (by omega)
      have hsdu : L.sdu (h.start + j + 1) = L.sdu (h.start + j) :=
        L.sdu_eq (by have := L.first_le (h.start + j); omega) (by omega)
      have hsame : L.next (h.start + j + 1) = L.next (h.start + j) :=
        L.next_eq (by have := L.first_le (h.start + j); omega) (by omega)
      rw [if_neg hmiddle]
      refine ⟨hl.rxWindowDesc, hl.received, hl.discarded, hclear, fun _ _ _ => ?_, fun hp => ?_⟩
      · rw [← Nat.add_assoc, hsdu]
        rfl
      · have hincomplete : ¬L.Complete h.received (h.start + j) := by
          rw [← L.complete_congr hfirst hsame]
          refine hp ?_
          rw [← Nat.add_assoc, hfirst]
          exact Nat.lt_succ_of_le (L.first_le _)
        dsimp only
        rw [hl.pending fun _ => hincomplete, ← Nat.add_assoc, pend_middle hmem hlast,
          List.map_append]
        rfl
  · -- nothing arrived at this position
    have hfree := hs.stored.free j hmem
    rw [hget, hfree]
    refine ⟨hl.rxWindowDesc, hl.received, hl.discarded, ?_, fun _ _ hmem' => absurd hmem' hmem,
      fun _ => ?_⟩
    · rw [← hclear, CArray.get_remove]
      exact (Function.update_eq_self_iff.2 (hget.trans hfree).symm).symm
    · rw [← Nat.add_assoc, pend_missing hmem]
      exact hl.pending fun _ hall => hmem (hall _ (L.first_le _) L.lt_next')

/-- The positions before `j` have been moved. -/
structure Shifting (s t : AmRxQueue) (pos j : ℕ) (s' : AmRxQueue) : Prop where
  frame : s' = { t with
    pduBuffer := s'.pduBuffer, received := s'.received, discarded := s'.discarded }
  buffer : s'.pduBuffer.get = shifted s.pduBuffer.get none pos j
  received : flag s'.received = copied (flag s.received) false pos j
  received_length : s'.received.length = s.received.length
  discarded_length : s'.discarded.length = s.discarded.length

theorem shiftMark_spec {xs : List Bool} {f : ℕ → Bool} {pos j : ℕ}
    (hxs : flag xs = copied f false pos j) (hpos : 0 < pos) (hj : pos ≤ j) (hlt : j < xs.length) :
    ∃ ys, shiftMark xs pos j = .ok ys ∧ flag ys = copied f false pos (j + 1) ∧
      ys.length = xs.length := by
  unfold shiftMark
  rw [boolAt_of_lt hlt]
  refine ⟨_, rfl, ?_, by rw [List.length_set, List.length_set]⟩
  rw [flag_set (by rwa [List.length_set]), flag_set (by omega), hxs, copied_of_le le_rfl,
    copied_move hpos hj]

theorem shiftPosition_spec {t : AmRxQueue} {pos j : ℕ} (hm : Shifting s t pos j s')
    (hpos : 0 < pos) (hj : pos ≤ j) (hreceived : j < s.received.length)
    (hdiscarded : j < s.discarded.length) :
    Ensures (fun _ => False) (Shifting s t pos (j + 1)) (shiftPosition pos s' j) := by
  obtain ⟨received, hr, hflag, hlen⟩ :=
    shiftMark_spec hm.received hpos hj (by rw [hm.received_length]; exact hreceived)
  have hlt : j < s'.discarded.length := by rw [hm.discarded_length]; exact hdiscarded
  have hd : shiftMark s'.discarded pos j =
      .ok ((s'.discarded.set (j - pos) (flag s'.discarded j)).set j false) := by
    unfold shiftMark
    rw [boolAt_of_lt hlt]
    rfl
  have hget : s'.pduBuffer.get j = s.pduBuffer.get j := by
    rw [hm.buffer, shifted_of_le le_rfl]
  have htarget : (s'.pduBuffer.remove j).get (j - pos) = none := by
    rw [CArray.get_remove, Function.update_of_ne (by omega), hm.buffer, shifted_target hpos hj]
  unfold shiftPosition
  rw [hr, hd]
  dsimp only [bind, Except.bind]
  have hlength : ((s'.discarded.set (j - pos) (flag s'.discarded j)).set j false).length =
      s.discarded.length := by
    rw [List.length_set, List.length_set, hm.discarded_length]
  cases hbuffered : s'.pduBuffer.get j with
  | none =>
    refine ⟨by rw [hm.frame], ?_, hflag, hlen.trans hm.received_length, hlength⟩
    -- an empty position is moved
    rw [hget] at hbuffered
    dsimp only
    have hfree : Function.update (shifted s.pduBuffer.get none pos j) (j - pos) none =
        shifted s.pduBuffer.get none pos j :=
      Function.update_eq_self_iff.2 (shifted_target hpos hj).symm
    have hempty : none = shifted s.pduBuffer.get none pos j j :=
      ((shifted_of_le le_rfl).trans hbuffered).symm
    rw [← shifted_move hpos hj, hbuffered, hfree, Function.update_eq_self_iff.2 hempty, hm.buffer]
  | some pdu =>
    dsimp only
    rw [htarget, if_neg (by simp)]
    refine ⟨by rw [hm.frame], ?_, hflag, hlen.trans hm.received_length, hlength⟩
    rw [hget] at hbuffered
    dsimp only
    rw [CArray.get_addAt, CArray.get_remove, Function.update_comm (by omega), hm.buffer,
      ← hbuffered, shifted_move hpos hj]

theorem leaving {h : History} {pos j : ℕ} (hs : Holds L Q h s) (hj : j ≤ pos) :
    Leaving L h s pos j ((List.range j).foldl leavePosition s) := by
  induction j with
  | zero => exact ⟨rfl, rfl, rfl, shifted_zero.symm, fun h₀ => absurd h₀ (lt_irrefl 0), hs.pending⟩
  | succ j ih =>
    rw [List.range_succ, List.foldl_concat]
    exact leavePosition_spec hs (ih (by omega)) hj

/-- The window before and after a move to `sn`: no mark stays behind. -/
def NoStale (Q : AmRxParams) (h : History) (sn : ℕ) : Prop :=
  ∀ t < sn, h.start + Q.rxWindowSize ≤ t + (sn - h.start) → t ∉ h.received

/-- The window after a move. -/
theorem Stored.moved {h : History} (hs : Holds L Q h s) {t : AmRxQueue} (hlt : h.start < sn)
    (hstale : NoStale Q h sn) (ht : t.rxWindowDesc = s.rxWindowDesc)
    (hm : Shifting s t (sn - h.start) Q.rxWindowSize s') :
    Stored L Q sn h.received { s' with
      rxWindowDesc.firstSeqNum := u32 (s'.rxWindowDesc.firstSeqNum + (sn - h.start)) } := by
  -- the window is copied down by as many positions as it moves
  have hflags : flag s'.received = fun i => flag s.received (i + (sn - h.start)) := by
    rw [hm.received]
    refine copied_all (fun i hi => ?_) fun i hi hpos => ?_
    · rw [← Bool.not_eq_true, hs.stored.received]
      intro hmem
      have := hs.stored.lt _ hmem
      omega
    · rw [← Bool.not_eq_true, hs.stored.received]
      exact hstale _ (by omega) (by omega)
  have hbuffer : s'.pduBuffer.get = fun i => s.pduBuffer.get (i + (sn - h.start)) := by
    rw [hm.buffer]
    refine shifted_all fun i hi => hs.stored.free i fun hmem => ?_
    have := hs.stored.lt _ hmem
    omega
  have hposition : ∀ i, sn + i = h.start + (i + (sn - h.start)) := fun i => by omega
  refine ⟨?_, hm.received_length.trans hs.stored.received_length,
    hm.discarded_length.trans hs.stored.discarded_length, fun i => ?_, fun i hmem => ?_,
    fun i hfree => ?_, fun t ht => ?_⟩
  · rw [hm.frame]
    dsimp only
    rw [ht, hs.stored.first]
    unfold u32
    omega
  · dsimp only
    rw [hflags, hposition]
    exact hs.stored.received _
  · rw [hposition] at hmem ⊢
    dsimp only
    rw [hbuffer]
    exact hs.stored.pdu _ hmem
  · rw [hposition] at hfree
    dsimp only
    rw [hbuffer]
    exact hs.stored.free _ hfree
  · have := hs.stored.lt t ht
    omega

theorem moved {h : History} (hs : Holds L Q h s) {t : AmRxQueue} (hlt : h.start < sn)
    (hstale : NoStale Q h sn)
    (hl : Leaving L h s (sn - h.start) (sn - h.start) t)
    (hm : Shifting s t (sn - h.start) Q.rxWindowSize s') (mrwSeqNum : ℕ) :
    Holds L Q (h.after (.mrw sn mrwSeqNum)) { s' with
      rxWindowDesc.firstSeqNum := u32 (s'.rxWindowDesc.firstSeqNum + (sn - h.start)) } := by
  have hafter : h.after (.mrw sn mrwSeqNum) = { h with start := sn } := by
    calc h.after (.mrw sn mrwSeqNum) = { h with start := max h.start sn } := rfl
      _ = { h with start := sn } := by rw [max_eq_right hlt.le]
  have hstart : h.start + (sn - h.start) = sn := Nat.add_sub_cancel' hlt.le
  have hsdu := hl.firstSdu (Nat.sub_pos_of_lt hlt)
  have hpending := hl.pending
  rw [hstart] at hsdu hpending
  rw [hafter]
  refine ⟨Stored.moved hs hlt hstale hl.rxWindowDesc hm, fun hF hb => ?_, fun hF => ?_⟩
  · rw [hm.frame]
    exact hsdu hF (hb _ (Nat.le_sub_one_of_lt hF) (Nat.sub_one_lt_of_lt hlt))
  · rw [hm.frame]
    exact hpending hF

/-- **The window moves** as it is told, unless by more than its size. -/
theorem moveRxWindow_spec {h : History} (hs : Holds L Q h s) (hnear : Near h.start sn)
    (hstale : h.start < sn → NoStale Q h sn) (mrwSeqNum : ℕ) :
    Ensures (fun _ => h.start + Q.rxWindowSize < sn) (Holds L Q (h.after (.mrw sn mrwSeqNum)))
      (moveRxWindow Q s (i32 sn)) := by
  have hfirst := hs.stored.first
  unfold moveRxWindow
  rw [ofInt32_i32]
  dsimp only
  -- the window has moved as far before
  by_cases hle : sn ≤ h.start
  · have hafter : h.after (.mrw sn mrwSeqNum) = h := by
      calc h.after (.mrw sn mrwSeqNum) = { h with start := max h.start sn } := rfl
        _ = h := by rw [max_eq_left hle]
    have hneg : i32 (sub32 (u32 sn) s.rxWindowDesc.firstSeqNum) ≤ 0 := by
      rw [hfirst]
      rcases Nat.lt_or_eq_of_le hle with hlt | rfl
      · exact (sub32_near_neg hnear hlt).le
      · rw [(sub32_near hnear le_rfl).2]
        omega
    rw [if_pos hneg, hafter]
    exact hs
  have hlt : h.start < sn := Nat.not_le.1 hle
  obtain ⟨hsub, hint⟩ := sub32_near hnear hlt.le
  rw [← hfirst] at hsub hint
  rw [if_neg (by rw [hint]; omega), hsub]
  by_cases hW : Q.rxWindowSize < sn - h.start
  · rw [if_pos hW]
    exact Ensures.error.2 (by omega)
  rw [if_neg hW]
  -- the positions that are left behind, and those that stay
  have hl := leaving hs (le_refl (sn - h.start))
  have hstart : Shifting s ((List.range (sn - h.start)).foldl leavePosition s) (sn - h.start)
      (sn - h.start) ((List.range (sn - h.start)).foldl leavePosition s) :=
    ⟨rfl, hl.buffer, by rw [hl.received, copied_start], by rw [hl.received],
      by rw [hl.discarded]⟩
  have hloop := Ensures.foldlM_range' (n := Q.rxWindowSize - (sn - h.start)) hstart
    fun j s' hj hjn hm => (shiftPosition_spec hm (Nat.sub_pos_of_lt hlt) hj
      (by rw [hs.stored.received_length]; omega)
      (by rw [hs.stored.discarded_length]; omega))
  rw [Nat.add_sub_cancel' (Nat.not_lt.1 hW)] at hloop
  refine Ensures.bind (hloop.weaken fun _ => False.elim) fun s' hm => ?_
  exact moved hs hlt (hstale hlt) hl hm mrwSeqNum

/-! ### Runs -/

/-- What is assumed of an arrival: the window is near, no mark stays behind when it moves, and a
fragment at its start continues its SDU. -/
def Arrival.Ok (L : Layout P) (Q : AmRxParams) (h : History) : Arrival → Prop
  | .fragment sn => Near h.start sn ∧ Continues L h sn
  | .mrw sn _ => Near h.start sn ∧ (h.start < sn → NoStale Q h sn)
  | .timer => True

/-- All arrivals after `h` are as assumed. -/
def Allowed (L : Layout P) (Q : AmRxParams) : History → List (ℕ × Arrival) → Prop
  | _, [] => True
  | h, a :: as => a.2.Ok L Q h ∧ Allowed L Q (h.after a.2) as

theorem allowed_concat {h : History} {as : List (ℕ × Arrival)} {a : ℕ × Arrival} :
    Allowed L Q h (as ++ [a]) ↔
      Allowed L Q h as ∧ a.2.Ok L Q (as.foldl (fun h a => h.after a.2) h) := by
  induction as generalizing h with
  | nil => exact and_comm
  | cons b as ih => exact (and_congr_right fun _ => ih).trans and_assoc.symm

/-- The SDUs that have been passed up, by their first fragments. -/
structure PassedUp (L : Layout P) (as : List (ℕ × Arrival)) (os : List AmRxOutput)
    (passed : List ℕ) : Prop where
  /-- What has been passed up is made of all fragments of these SDUs. -/
  sdus : sdus os = passed.map L.fragments
  /-- No SDU has been passed up twice. -/
  nodup : passed.Nodup
  /-- An SDU is named by its first fragment, and all its fragments have been received. -/
  complete : ∀ a ∈ passed, L.first a = a ∧ L.Complete (history as).received a
  /-- No SDU has been missed. -/
  mem : ∀ as₁ now sn as₂, as = as₁ ++ (now, .fragment sn) :: as₂ → Delivers L (history as₁) sn →
    L.first sn ∈ passed

theorem History.received_subset {h : History} (a : Arrival) :
    h.received ⊆ (h.after a).received := by
  cases a with
  | fragment sn => exact fun t => Or.inl
  | mrw sn mrwSeqNum => exact fun t => id
  | timer => exact fun t => id

/-- The SDU is complete then. -/
theorem Delivers.complete {h : History} (hd : Delivers L h sn) :
    L.Complete (h.after (.fragment sn)).received (L.first sn) :=
  (L.complete_congr L.first_first
    (L.next_eq le_rfl (lt_of_le_of_lt (L.first_le sn) L.lt_next'))).2 hd.1.2.2

/-- The fragment had been missing, so the SDU is not one of those that were complete. -/
theorem Delivers.not_mem {h : History} {passed : List ℕ} (hd : Delivers L h sn)
    (hcomplete : ∀ a ∈ passed, L.first a = a ∧ L.Complete h.received a) :
    L.first sn ∉ passed := by
  have hnext : L.next (L.first sn) = L.next sn :=
    L.next_eq le_rfl (lt_of_le_of_lt (L.first_le sn) L.lt_next')
  exact fun hmem => hd.1.2.1 ((hcomplete _ hmem).2 sn (L.first_first.le.trans (L.first_le sn))
    (hnext ▸ L.lt_next'))

/-- What one more arrival adds. -/
theorem PassedUp.after {as : List (ℕ × Arrival)} {os out : List AmRxOutput} {passed : List ℕ}
    (hp : PassedUp L as os passed) {a : ℕ × Arrival}
    (hout : (∃ sn, a.2 = .fragment sn ∧ Delivers L (history as) sn ∧
        AmRxQueue.sdus out = [L.fragments (L.first sn)]) ∨
      (∀ sn, a.2 = .fragment sn → ¬Delivers L (history as) sn) ∧ AmRxQueue.sdus out = []) :
    ∃ passed, PassedUp L (as ++ [a]) (os ++ out) passed := by
  have hmono : ∀ a' ∈ passed, L.first a' = a' ∧ L.Complete (history (as ++ [a])).received a' :=
    fun a' ha' => by
      obtain ⟨hfirst, hall⟩ := hp.complete a' ha'
      rw [history_concat]
      exact ⟨hfirst, fun t ht hts => History.received_subset a.2 (hall t ht hts)⟩
  -- an arrival is one of the earlier ones, or the last one
  have hcases : ∀ as₁ now sn as₂, as ++ [a] = as₁ ++ (now, .fragment sn) :: as₂ →
      Delivers L (history as₁) sn → L.first sn ∈ passed ∨ as₁ = as ∧ a.2 = .fragment sn := by
    intro as₁ now sn as₂ heq hd
    rcases List.eq_nil_or_concat as₂ with rfl | ⟨as₂, b, rfl⟩
    · obtain ⟨rfl, hlast⟩ := List.append_inj' heq rfl
      obtain rfl := List.singleton_inj.1 hlast
      exact .inr ⟨rfl, rfl⟩
    · rw [List.concat_eq_append, ← List.cons_append, ← List.append_assoc] at heq
      exact .inl (hp.mem as₁ now sn as₂ (List.append_inj' heq rfl).1 hd)
  rcases hout with ⟨sn, hsn, hd, hout⟩ | ⟨hnot, hout⟩
  · refine ⟨passed ++ [L.first sn], ?_, ?_, fun a' ha' => ?_, fun as₁ now t as₂ heq ht => ?_⟩
    · rw [sdus_append, hp.sdus, hout, List.map_append]
      rfl
    · rw [← List.concat_eq_append]
      exact hp.nodup.concat (hd.not_mem hp.complete)
    · rcases List.mem_append.1 ha' with hmem | hmem
      · exact hmono a' hmem
      · obtain rfl := List.mem_singleton.1 hmem
        rw [history_concat, hsn]
        exact ⟨L.first_first, hd.complete⟩
    · rcases hcases as₁ now t as₂ heq ht with hmem | ⟨-, ha⟩
      · exact List.mem_append_left _ hmem
      · rw [hsn] at ha
        cases ha
        exact List.mem_append_right _ (List.mem_singleton_self _)
  · refine ⟨passed, ?_, hp.nodup, hmono, fun as₁ now t as₂ heq ht => ?_⟩
    · rw [sdus_append, hp.sdus, hout, List.append_nil]
    · rcases hcases as₁ now t as₂ heq ht with hmem | ⟨rfl, ha⟩
      · exact hmem
      · exact absurd ht (hnot t ha)

/-- What a fragment can do at most is to complete an SDU. -/
theorem fragment_step {h : History} (hs : Holds L Q h s) {now : ℕ} {out : List AmRxOutput}
    (hok : (Arrival.fragment sn).Ok L Q h)
    (hstep : enqueData Q now s (L.pdu sn) = .ok (s', out)) : Arrived L Q h sn s' out := by
  by_cases hlt : sn < h.start + Q.rxWindowSize
  · obtain ⟨s₁, out₁, henque, harrived⟩ := enqueData_spec hs hok.1 hlt hok.2 now
    cases henque.symm.trans hstep
    exact harrived
  · -- it is beyond the window
    obtain ⟨hsub, hint⟩ := sub32_near hok.1 (show h.start ≤ sn by omega)
    rw [← hs.stored.first] at hsub hint
    unfold enqueData at hstep
    dsimp only at hstep
    rw [Layout.pdu_snoFragment, if_neg (by rw [hint]; omega), hsub, if_pos (by omega)] at hstep
    cases hstep

theorem mrw_step {h : History} (hs : Holds L Q h s) {mrwSeqNum : ℕ} (now : ℕ)
    {out : List AmRxOutput}
    (hok : (Arrival.mrw sn mrwSeqNum).Ok L Q h)
    (hstep : enque Q now s (AmTxQueue.mrwPdu P mrwSeqNum (i32 sn)) = .ok (s', out)) :
    Holds L Q (h.after (.mrw sn mrwSeqNum)) s' ∧ sdus out = [] := by
  obtain ⟨s₁, hmove, hstep⟩ := bind_eq_ok.1 hstep
  have hmoved := moveRxWindow_spec hs hok.1 hok.2 mrwSeqNum
  rw [show moveRxWindow Q s (i32 sn) = .ok s₁ from hmove] at hmoved
  split at hstep
  · cases hstep
    exact ⟨hmoved, rfl⟩
  · cases hstep

theorem timer_step {h : History} (hs : Holds L Q h s) {now : ℕ} {out : List AmRxOutput}
    (hstep : handleMessage Q now s = .ok (s', out)) : Holds L Q h s' ∧ sdus out = [] := by
  obtain ⟨⟨s₁, report⟩, hreport, hstep⟩ := bind_eq_ok.1 hstep
  obtain ⟨t, rfl, hnone⟩ := sendStatusReport_ok hreport
  cases hstep
  exact ⟨hs.congr rfl rfl rfl rfl rfl rfl, hnone⟩

/-- **What one arrival does.** -/
theorem arrival_step {h : History} (hs : Holds L Q h s) {a : ℕ × Arrival} {out : List AmRxOutput}
    (hok : a.2.Ok L Q h) (hstep : (receiver L Q).step s a = some (s', out)) :
    Holds L Q (h.after a.2) s' ∧
      ((∃ sn, a.2 = .fragment sn ∧ Delivers L h sn ∧ sdus out = [L.fragments (L.first sn)]) ∨
        (∀ sn, a.2 = .fragment sn → ¬Delivers L h sn) ∧ sdus out = []) := by
  obtain ⟨now, a⟩ := a
  have hhandle : handle Q now s (a.event L) = .ok (s', out) := by
    change (if a.event L = .timer ∧ s.timer = false then none else _) = _ at hstep
    split at hstep
    · cases hstep
    · exact toOption_eq_some.1 hstep
  cases a with
  | fragment sn =>
    have harrived := fragment_step hs hok hhandle
    refine ⟨harrived.holds, harrived.out.imp (fun hd => ⟨sn, rfl, hd⟩) fun hd => ⟨?_, hd.2⟩⟩
    rintro t ⟨⟩
    exact hd.1
  | mrw sn mrwSeqNum =>
    obtain ⟨hholds, hnone⟩ := mrw_step hs now hok hhandle
    exact ⟨hholds, .inr ⟨nofun, hnone⟩⟩
  | timer =>
    obtain ⟨hholds, hnone⟩ := timer_step hs hhandle
    exact ⟨hholds, .inr ⟨nofun, hnone⟩⟩

theorem holds_initial : Holds L Q ⟨0, ∅⟩ (initial Q) := by
  refine ⟨⟨rfl, List.length_replicate, List.length_replicate, fun i => ?_, fun i hi => hi.elim,
    fun _ _ => rfl, fun _ ht => ht.elim⟩,
    fun hlt => absurd hlt (Nat.not_lt_zero _), fun _ => rfl⟩
  change flag (List.replicate Q.rxWindowSize false) i = true ↔ False
  rw [flag_replicate]
  simp

/-- **What a run has done.** -/
theorem run_holds {as : List (ℕ × Arrival)} {os : List AmRxOutput}
    (h : (receiver L Q).exec (initial Q) as = some (s, os)) (hok : Allowed L Q ⟨0, ∅⟩ as) :
    Holds L Q (history as) s ∧ ∃ passed, PassedUp L as os passed := by
  refine Machine.exec_induction (J := fun as s os => Allowed L Q ⟨0, ∅⟩ as →
    Holds L Q (history as) s ∧ ∃ passed, PassedUp L as os passed) (fun _ => ?_) ?_ h hok
  · exact ⟨holds_initial, [], rfl, List.nodup_nil, nofun, fun as₁ now sn as₂ heq => by simp at heq⟩
  · intro as s os a s' out _ ih hstep hok
    obtain ⟨has, ha⟩ := allowed_concat.1 hok
    obtain ⟨hs, passed, hp⟩ := ih has
    obtain ⟨hs', hout⟩ := arrival_step hs ha hstep
    rw [history_concat]
    exact ⟨hs', hp.after hout⟩

/-- **Every SDU is passed up once**, when its last fragment comes, whatever the order of the
fragments, unless the window starts inside it at that time and the fragment is not at the start.
The window starts where the commands say. -/
theorem passed_up_once {as : List (ℕ × Arrival)} {os : List AmRxOutput}
    (h : (receiver L Q).exec (initial Q) as = some (s, os))
    (hok : Allowed L Q ⟨0, ∅⟩ as) :
    (∃ passed, PassedUp L as os passed) ∧
      s.rxWindowDesc.firstSeqNum = u32 (history as).start ∧
      ∀ now sn, (Arrival.fragment sn).Ok L Q (history as) →
        sn < (history as).start + Q.rxWindowSize →
        ∃ s' out, (receiver L Q).step s (now, .fragment sn) = some (s', out) ∧
          (Delivers L (history as) sn → sdus out = [L.fragments (L.first sn)]) := by
  obtain ⟨hs, hpassed⟩ := run_holds h hok
  refine ⟨hpassed, hs.stored.first, fun now sn hfragment hlt => ?_⟩
  obtain ⟨s', out, henque, harrived⟩ := enqueData_spec hs hfragment.1 hlt hfragment.2 now
  refine ⟨s', out, ?_, fun hd => (harrived.out.resolve_right fun hn => hn.1 hd).2⟩
  change (if Event.enque (L.pdu sn) = .timer ∧ s.timer = false then none else _) = _
  rw [if_neg nofun]
  exact toOption_eq_some.2 henque

theorem nrFragments_triple (sno : ℕ) :
    AmTxQueue.nrFragments AmTxQueue.smallParams ⟨sno, 90⟩ = 3 := by
  simp [AmTxQueue.nrFragments, AmTxQueue.smallParams]

/-- SDUs of three fragments each. -/
def triples : Layout AmTxQueue.smallParams where
  sdu sn := ⟨sn / 3 % 1000, 90⟩
  first sn := sn - sn % 3
  first_le := fun sn => Nat.sub_le ..
  lt_next := fun sn => by
    rw [nrFragments_triple]
    omega
  same := fun sn t ht hts => by
    rw [nrFragments_triple] at hts
    have hdiv : t / 3 = sn / 3 := by omega
    exact ⟨by omega, by rw [hdiv]⟩
  total_lt := fun sn => by
    rw [nrFragments_triple]
    decide
  sno_lt := fun sn => by
    change sn / 3 % 1000 < 4294967295
    omega

/-- A receiver with a window of 16 positions. -/
def smallRxParams : AmRxParams where
  rxWindowSize := 16
  rxWindowSize_lt := sixteen_lt_int
  ackReportInterval := 10

/-- The first SDU comes out of order, and the window moves into the second one, of which the last
fragment is missing. -/
def movedInside : List (ℕ × Arrival) :=
  [(1, .fragment 1), (2, .fragment 0), (3, .fragment 2), (4, .fragment 4), (5, .fragment 3),
    (6, .mrw 5 0), (7, .timer)]

theorem movedInside_received (t : ℕ) : t ∈ (history movedInside).received ↔ t < 5 := by
  simp [history, movedInside, History.after]
  omega

/-- A fragment that is not at the start of the window, or the first one of its SDU, need not
continue anything. -/
theorem continues_of {h : History} (hne : sn ≠ h.start ∨ L.first sn = sn) : Continues L h sn :=
  fun heq _ hlt => absurd (hne.resolve_left fun hn => hn heq) hlt.ne

theorem movedInside_allowed : Allowed triples smallRxParams ⟨0, ∅⟩ movedInside := by
  refine ⟨⟨⟨by decide, by decide⟩, continues_of (.inl (by decide))⟩,
    ⟨⟨by decide, by decide⟩, continues_of (.inr rfl)⟩,
    ⟨⟨by decide, by decide⟩, continues_of (.inl (by decide))⟩,
    ⟨⟨by decide, by decide⟩, continues_of (.inl (by decide))⟩,
    ⟨⟨by decide, by decide⟩, continues_of (.inl (by decide))⟩,
    ⟨⟨by decide, by decide⟩, fun _ t ht hW => ?_⟩, trivial, trivial⟩
  change 0 + 16 ≤ t + (5 - 0) at hW
  omega

theorem movedInside_continues : Continues triples (history movedInside) 5 := by
  refine fun _ _ _ => ⟨fun t _ ht => (movedInside_received t).2 ht, fun _ t ht _ => ?_⟩
  change t < 5 - 5 % 3 at ht
  exact ⟨2, by omega, by decide, by decide +kernel, (movedInside_received 2).2 (by decide)⟩

theorem movedInside_delivers : Delivers triples (history movedInside) 5 := by
  refine ⟨⟨le_rfl, fun hmem => ?_, fun t _ ht => ?_⟩, .inr rfl⟩
  · have := (movedInside_received 5).1 hmem
    omega
  · have hnext : triples.next 5 = 6 := by decide +kernel
    rw [hnext] at ht
    rcases Nat.lt_or_eq_of_le (Nat.le_of_lt_succ ht) with hlt | rfl
    · exact .inl ((movedInside_received t).2 hlt)
    · exact .inr ⟨rfl, le_rfl⟩

theorem passed_up_once_inside :
    ∃ s os, (receiver triples smallRxParams).exec (initial smallRxParams) movedInside =
        some (s, os) ∧
      (∃ passed, PassedUp triples movedInside os passed) ∧
      ∃ s' out, (receiver triples smallRxParams).step s (8, .fragment 5) = some (s', out) ∧
        sdus out = [triples.fragments 3] := by
  have hsome : ((receiver triples smallRxParams).exec (initial smallRxParams)
      movedInside).isSome := by decide +kernel
  obtain ⟨⟨s, os⟩, hrun⟩ := Option.isSome_iff_exists.1 hsome
  obtain ⟨hpassed, -, hnext⟩ := passed_up_once hrun movedInside_allowed
  obtain ⟨s', out, hstep, hout⟩ :=
    hnext 8 5 ⟨⟨by decide, by decide⟩, movedInside_continues⟩ (by decide)
  exact ⟨s, os, hrun, hpassed, s', out, hstep, hout movedInside_delivers⟩

/-- The SDUs that have been passed up after a run and the start of the window. -/
def outcome (as : List (ℕ × Arrival)) : Option (List (List LteRlcAmPdu) × ℕ) :=
  ((receiver triples smallRxParams).exec (initial smallRxParams) as).map fun r =>
    (sdus r.2, r.1.rxWindowDesc.firstSeqNum)

/-- The window does not move past an SDU that is passed up.  An SDU is never passed up if the window
starts inside it when its last fragment comes, and that is not at the start.  A run ends with an
exception if a mark has stayed behind, if a fragment of a skipped SDU is pending, or if one comes to
the start of the window. -/
theorem not_passed_up :
    outcome [(0, .fragment 0), (1, .fragment 1), (2, .fragment 2)] =
        some ([triples.fragments 0], 0) ∧
      outcome [(0, .fragment 0), (1, .fragment 1), (2, .mrw 1 0), (3, .fragment 2)] =
        some ([], 1) ∧
      outcome ((List.range 9).map (fun i => (i, .fragment i)) ++
        [(9, .mrw 9 0), (10, .fragment 16)]) = none ∧
      outcome [(0, .fragment 0), (1, .mrw 3 0), (2, .fragment 3), (3, .mrw 4 1), (4, .fragment 5),
        (5, .fragment 4)] = none ∧
      outcome [(0, .fragment 3), (1, .mrw 1 0), (2, .fragment 4), (3, .fragment 1)] = none := by
  decide +kernel

end AmRxQueue

end V2nLte
