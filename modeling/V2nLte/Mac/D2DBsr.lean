import V2nLte.Mac.SendGrants
import V2nLte.Mac.UeTables
import V2nLte.Mac.UlGrants
import Mathlib.Algebra.BigOperators.Group.Multiset.Basic
import Mathlib.Data.Nat.ModEq

/-!
# The buffer status reports of a D2D UE

`LteMacUeD2D::macPduMake` makes a report in two places.  With an uplink grant and nothing scheduled
it adds up the buffers of all the D2D (or D2D multicast) connections and sends a PDU with nothing
but a report.  Otherwise it adds up the buffers of what is scheduled while it makes the PDUs, and
puts the report into the first of them.

Both loops add the RLC header of a connection if the *running total* is positive, so that an empty
connection counts by its header once a connection before it has had data.

* `foldl_addReport` : what such a loop adds up.
* `D2DBsrState.reported_iff` : when a report is exact.
-/

namespace V2nLte

/-! ### Adding up with headers -/

/-- One connection, by its bytes and its header, is added to the running total. -/
def addReport (size : ℕ) (c : ℕ × ℕ) : ℕ :=
  if 0 < size + c.1 then size + c.1 + c.2 else size + c.1

/-- What a connection needs: its bytes and a header, if it has bytes. -/
def withHeader (c : ℕ × ℕ) : ℕ := if 0 < c.1 then c.1 + c.2 else 0

/-- The headers of the empty connections behind the first one with bytes. -/
def stragglers (cs : List (ℕ × ℕ)) : ℕ :=
  (((cs.dropWhile fun c => c.1 = 0).filter fun c => c.1 = 0).map Prod.snd).sum

theorem foldl_addReport_of_pos {size : ℕ} (h : 0 < size) (cs : List (ℕ × ℕ)) :
    cs.foldl addReport size =
      size + (cs.map withHeader).sum + ((cs.filter fun c => c.1 = 0).map Prod.snd).sum := by
  induction cs generalizing size with
  | nil => rfl
  | cons c cs ih =>
    have hstep : addReport size c = size + c.1 + c.2 := if_pos (by omega)
    rw [List.foldl_cons, hstep, ih (by omega), List.map_cons, List.sum_cons, List.filter_cons]
    by_cases hc : c.1 = 0
    · have hneed : withHeader c = 0 := if_neg (by omega)
      rw [if_pos (by simp [hc]), List.map_cons, List.sum_cons, hneed]
      omega
    · have hneed : withHeader c = c.1 + c.2 := if_pos (by omega)
      rw [if_neg (by simp [hc]), hneed]
      omega

/-- **What the loops add up**: what the connections need, and the headers of the stragglers. -/
theorem foldl_addReport (cs : List (ℕ × ℕ)) :
    cs.foldl addReport 0 = (cs.map withHeader).sum + stragglers cs := by
  induction cs with
  | nil => rfl
  | cons c cs ih =>
    rw [List.foldl_cons, List.map_cons, List.sum_cons, stragglers, List.dropWhile_cons]
    by_cases hc : c.1 = 0
    · have hstep : addReport 0 c = 0 := by rw [addReport, hc]; rfl
      have hneed : withHeader c = 0 := if_neg (by omega)
      rw [hstep, ih, hneed, if_pos (by simp [hc]), stragglers, Nat.zero_add]
    · have hstep : addReport 0 c = c.1 + c.2 := by
        rw [addReport, if_pos (by omega)]
        omega
      have hneed : withHeader c = c.1 + c.2 := if_pos (by omega)
      rw [hstep, foldl_addReport_of_pos (by omega), hneed, if_neg (by simp [hc]),
        List.filter_cons, if_neg (by simp [hc])]

theorem addReport_mono {m n : ℕ} (h : m ≤ n) (c : ℕ × ℕ) : addReport m c ≤ addReport n c := by
  unfold addReport
  split <;> split <;> omega

theorem le_addReport (size : ℕ) (c : ℕ × ℕ) : size + c.1 ≤ addReport size c := by
  unfold addReport
  split <;> omega

theorem foldl_addReport_mono {m n : ℕ} (h : m ≤ n) (cs : List (ℕ × ℕ)) :
    cs.foldl addReport m ≤ cs.foldl addReport n := by
  induction cs generalizing m n with
  | nil => exact h
  | cons c cs ih => exact ih (addReport_mono h c)

theorem le_foldl_addReport (size : ℕ) (cs : List (ℕ × ℕ)) : size ≤ cs.foldl addReport size := by
  induction cs generalizing size with
  | nil => exact le_refl _
  | cons c cs ih => exact (Nat.le_of_add_right_le (le_addReport size c)).trans (ih _)

/-- The same with a running total that is an `int`. -/
def addReport32 (size : ℤ) (c : ℕ × ℕ) : ℤ :=
  let size := i32 (ofInt32 size + c.1)
  if 0 < size then i32 (ofInt32 size + c.2) else size

theorem addReport32_i32 (n : ℕ) (c : ℕ × ℕ) :
    addReport32 (i32 n) c =
      if 0 < i32 (n + c.1) then i32 (n + c.1 + c.2) else i32 (n + c.1) := by
  have hi32 : ∀ m k, i32 (ofInt32 (i32 m) + k) = i32 (m + k) := by
    intro m k
    have hmod : u32 (u32 m + k) = u32 (m + k) := Nat.mod_add_mod _ _ _
    rw [ofInt32_i32]
    unfold i32
    rw [hmod]
  rw [addReport32, hi32, hi32]

theorem foldl_addReport32_lt {z : ℤ} (h : z < 2147483648) (cs : List (ℕ × ℕ)) :
    cs.foldl addReport32 z < 2147483648 := by
  induction cs generalizing z with
  | nil => exact h
  | cons c cs ih =>
    refine ih ?_
    unfold addReport32
    dsimp only
    split
    · exact i32_lt _
    · exact i32_lt _

/-- An `int` shows the total exactly if it is in range, else it ends below `0`. -/
theorem foldl_addReport32 {n : ℕ} (cs : List (ℕ × ℕ))
    (h : cs.foldl addReport n < 4294967296) : ∃ n', cs.foldl addReport32 (i32 n) = i32 n' ∧
      n ≤ n' ∧ n' ≤ cs.foldl addReport n ∧
      (cs.foldl addReport n < 2147483648 → n' = cs.foldl addReport n) ∧
      (2147483648 ≤ cs.foldl addReport n → 2147483648 ≤ n') := by
  induction cs generalizing n with
  | nil => exact ⟨n, rfl, le_refl _, le_refl _, fun _ => rfl, id⟩
  | cons c cs ih =>
    rw [List.foldl_cons] at h
    rw [List.foldl_cons, List.foldl_cons, addReport32_i32]
    have hle := le_addReport n c
    have hfold := le_foldl_addReport (addReport n c) cs
    by_cases hlt : n + c.1 < 2147483648
    · have hstep : (if 0 < i32 (n + c.1) then i32 (n + c.1 + c.2) else i32 (n + c.1)) =
          i32 (addReport n c) := by
        rw [i32_of_lt hlt, addReport]
        by_cases hpos : 0 < n + c.1
        · rw [if_pos (by omega), if_pos hpos]
        · rw [if_neg (by omega), if_neg hpos, i32_of_lt hlt]
      rw [hstep]
      obtain ⟨n', heq, hle', hrest⟩ := ih h
      exact ⟨n', heq, by omega, hrest⟩
    · -- from here on no header is added any more
      have hneg := i32_neg (n := n + c.1) (by omega) (by omega)
      rw [if_neg (by omega)]
      have hmono := foldl_addReport_mono hle cs
      obtain ⟨n', heq, hle', hge, -, -⟩ := ih (n := n + c.1) (by omega)
      exact ⟨n', heq, by omega, by omega, fun hsmall => by omega, fun _ => by omega⟩

/-! ### `macPduMake` -/

/-- A packet in a queue of `mbuf_`, with the group in its first `LteControlInfo`, if it has one. -/
structure QueuedSdu where
  /-- The packet. -/
  id : ℕ
  /-- The group, `-1` for none. -/
  multicastGroupId : Option ℤ
  deriving DecidableEq

/-- A MAC PDU with its control info. -/
structure LteMacPdu where
  /-- Who it is for. -/
  destId : MacNodeId
  /-- The direction, `none` if the number is not one of a direction. -/
  direction : Option FlowDirection
  /-- The logical channel. -/
  lcid : ℕ
  /-- The group, `-1` for none. -/
  multicastGroupId : ℤ := -1
  /-- The SDUs in it. -/
  sdus : List QueuedSdu := []
  /-- The size in its `MacBsr`. -/
  bsr : Option ℤ := none
  deriving DecidableEq

/-- `macPduList_`, by the destination and the codeword. -/
abbrev MacPduList := OrderedMap (MacNodeId ×ₗ ℕ) LteMacPdu

/-- How `macPduMake` can fail. -/
inductive MacPduFault where
  /-- `connDesc_.at` of a connection that is not there. -/
  | missingDescriptor
  /-- The connection has no virtual buffer. -/
  | nullBuffer
  /-- "Unable to find mac buffer for cid". -/
  | noMacBuffer
  /-- "No tag of type LteControlInfo found". -/
  | noControlInfo
  deriving DecidableEq

/-- What `macPduMake` uses of `LteMacUeD2D`. -/
structure D2DBsrState where
  /-- The serving eNB. -/
  cellId : MacNodeId
  /-- A report is to be sent. -/
  bsrTriggered : Bool
  /-- A report about a multicast is to be sent. -/
  bsrD2DMulticastTriggered : Bool
  /-- The direction of `schedulingGrant_`. -/
  grantDirection : FlowDirection
  /-- The SDUs to be sent, by connection and codeword. -/
  scheduleList : LteMacScheduleList
  /-- The virtual buffers. -/
  macBuffers : OrderedMap MacCid LteMacBuffer
  /-- What is known about the connections. -/
  connDesc : OrderedMap MacCid ConnectionInfo
  /-- The queues of SDUs. -/
  mbuf : OrderedMap MacCid (List QueuedSdu)
  /-- The buffers are in the order of their connections. -/
  sorted : macBuffers.Sorted

/-- What the loop over `scheduleList_` works on. -/
structure PduMaking where
  /-- The PDUs so far. -/
  macPduList : MacPduList := []
  /-- The queues of SDUs. -/
  mbuf : OrderedMap MacCid (List QueuedSdu)
  /-- An `int64`. -/
  size : ℕ := 0

/-- What `macPduMake` leaves. -/
structure PdusMade where
  /-- The PDUs. -/
  macPduList : MacPduList
  /-- The queues of SDUs. -/
  mbuf : OrderedMap MacCid (List QueuedSdu)
  /-- A report is still to be sent. -/
  bsrTriggered : Bool
  /-- A report about a multicast is still to be sent. -/
  bsrD2DMulticastTriggered : Bool
  deriving DecidableEq

namespace D2DBsrState

variable (s : D2DBsrState)

/-- `connDesc_[cid]`, which makes a descriptor with default values if there is none. -/
def descriptor (cid : MacCid) : ConnectionInfo :=
  (s.connDesc.find cid).getD ⟨0, 0, 0, some .DL, 0, .TM, 0⟩

/-- One connection in the loop that computes `sizeBsr`. -/
def addConnection (sizeBsr : ℤ) (e : MacCid × LteMacBuffer) : ℤ :=
  let info := s.descriptor e.1
  if s.bsrTriggered ∧ info.direction ≠ some .D2D then sizeBsr
  else if s.bsrD2DMulticastTriggered ∧ info.direction ≠ some .D2D_MULTI then sizeBsr
  else
    let sizeBsr := i32 (ofInt32 sizeBsr + e.2.queueOccupancy)
    if 0 < sizeBsr then i32 (ofInt32 sizeBsr + UeTables.rlcHeader info.rlcType) else sizeBsr

/-- `sizeBsr`. -/
def sizeBsr : ℤ := s.macBuffers.foldl s.addConnection 0

/-- `makeBsr`, with the logical connection that is set afterwards. -/
def makeBsr (size : ℤ) : LteMacPdu where
  destId := s.cellId
  direction := some .UL
  lcid := if s.bsrD2DMulticastTriggered then D2D_MULTI_SHORT_BSR else D2D_SHORT_BSR
  bsr := some size

/-- The loop that adds `sduPerCid` SDUs of a connection to a PDU. -/
def addSdus (destCid : MacCid) : ℕ → LteMacPdu × OrderedMap MacCid (List QueuedSdu) →
    Except MacPduFault (LteMacPdu × OrderedMap MacCid (List QueuedSdu))
  | 0, r => .ok r
  | sduPerCid + 1, (macPkt, mbuf) =>
    match mbuf.find destCid with
    | none => .error .noMacBuffer
    | some [] => .ok (macPkt, mbuf)  -- fewer than expected
    | some (pkt :: queue) =>
      match pkt.multicastGroupId with
      | none => .error .noControlInfo
      | some groupId =>
        addSdus destCid sduPerCid ({ macPkt with
          multicastGroupId := if 0 ≤ groupId then groupId else macPkt.multicastGroupId
          sdus := macPkt.sdus ++ [pkt] }, mbuf.put destCid queue)

/-- One entry of `scheduleList_`. -/
def makePdu (r : PduMaking) (e : (MacCid ×ₗ ℕ) × ℕ) : Except MacPduFault PduMaking :=
  let destCid := (ofLex e.1).1
  match s.connDesc.find destCid with
  | none => .error .missingDescriptor
  | some lteInfo =>
    if e.2 = 0 ∧ !s.bsrTriggered ∧ !s.bsrD2DMulticastTriggered then .ok r
    else do
      let pktId := toLex (lteInfo.destId, (ofLex e.1).2)
      let macPkt := (r.macPduList.find pktId).getD
        { destId := lteInfo.destId, direction := lteInfo.direction, lcid := (SHORT_BSR : ℕ) }
      let (macPkt, mbuf) ← addSdus destCid e.2 (macPkt, r.mbuf)
      match s.macBuffers.find destCid with
      | none => .error .nullBuffer
      | some buffer =>
        let size := r.size + buffer.queueOccupancy
        return {
          macPduList := r.macPduList.put pktId macPkt
          mbuf := mbuf
          size := if 0 < size then size + UeTables.rlcHeader lteInfo.rlcType else size }

/-- The BSR is attached to the first of the PDUs, if there is one. -/
def attachBsr (r : PduMaking) : PdusMade :=
  match r.macPduList with
  | [] => ⟨[], r.mbuf, s.bsrTriggered, s.bsrD2DMulticastTriggered⟩
  | (pktId, macPkt) :: macPduList =>
    if s.bsrTriggered ∨ s.bsrD2DMulticastTriggered then
      ⟨(pktId, { macPkt with bsr := some (i32 r.size) }) :: macPduList, r.mbuf, false, false⟩
    else ⟨(pktId, macPkt) :: macPduList, r.mbuf, s.bsrTriggered, s.bsrD2DMulticastTriggered⟩

/-- The PDUs for what is scheduled. -/
def makePdus : Except MacPduFault PdusMade :=
  (s.scheduleList.foldlM s.makePdu { mbuf := s.mbuf }).map s.attachBsr

/-- The UE has an uplink grant for nothing but a BSR. -/
def bsrOnly : Bool :=
  (s.bsrTriggered || s.bsrD2DMulticastTriggered) && s.grantDirection = .UL &&
    s.scheduleList.isEmpty

/-- `macPduMake`, up to the H-ARQ buffers, which the PDUs go to. -/
def macPduMake : Except MacPduFault PdusMade :=
  if s.bsrOnly then
    if 0 < s.sizeBsr then
      .ok ⟨[(toLex (s.cellId, 0), s.makeBsr s.sizeBsr)], s.mbuf, false, false⟩
    else makePdus { s with bsrTriggered := false, bsrD2DMulticastTriggered := false }
  else s.makePdus

/-! ### What a report should say -/

/-- The class that an eNB takes a report for. -/
def reportedClass (lcid : ℕ) : FlowDirection :=
  if lcid = D2D_MULTI_SHORT_BSR then .D2D_MULTI else if lcid = D2D_SHORT_BSR then .D2D else .UL

/-- The connections of a class, in the order of their cids. -/
def connections (c : FlowDirection) : List MacCid :=
  (s.macBuffers.map Prod.fst).filter fun cid => (s.descriptor cid).direction = some c

/-- The bytes of a connection and its header. -/
def report (cid : MacCid) : ℕ × ℕ :=
  (((s.macBuffers.find cid).map LteMacBuffer.queueOccupancy).getD 0,
    UeTables.rlcHeader (s.descriptor cid).rlcType)

/-- What the connections `cids` need. -/
def need (cids : Multiset MacCid) : ℕ := (cids.map fun cid => withHeader (s.report cid)).sum

/-- The size that a report of a class should have. -/
def exactSize (c : FlowDirection) : ℕ := s.need (s.connections c)

/-- The connections that are scheduled, each as often as it is. -/
def scheduled : List MacCid := s.scheduleList.map fun e => (ofLex e.1).1

/-- When a report that comes alone is exact: it is in the range of an `int`, and there are no
stragglers in its class. -/
def AloneExact (c : FlowDirection) : Prop :=
  s.exactSize c < 2147483648 ∧ stragglers ((s.connections c).map s.report) = 0

/-- When a report that comes with data is exact: what is scheduled beyond the connections of the
class, and the stragglers, make up for the connections of the class that are not scheduled. -/
def PiggybackExact (c : FlowDirection) : Prop :=
  s.exactSize c < 2147483648 ∧
    s.need (s.scheduled - s.connections c : Multiset MacCid) +
      stragglers (s.scheduled.map s.report) ≡
    s.need (s.connections c - s.scheduled : Multiset MacCid) [MOD 4294967296]

variable {s} {c : FlowDirection} {r r' : PduMaking} {cid : MacCid}

/-! ### A report that comes alone -/

theorem report_of_mem {e : MacCid × LteMacBuffer} (he : e ∈ s.macBuffers) :
    s.report e.1 = (e.2.queueOccupancy, UeTables.rlcHeader (s.descriptor e.1).rlcType) := by
  rw [report, s.sorted.find_of_mem he]
  rfl

/-- What triggers a report decides which class the loop takes. -/
theorem sizeBsr_eq (hclass : ∀ info : ConnectionInfo,
    (s.bsrTriggered = true ∧ info.direction ≠ some .D2D) ∨
      (s.bsrD2DMulticastTriggered = true ∧ info.direction ≠ some .D2D_MULTI) ↔
    info.direction ≠ some c) :
    s.sizeBsr = ((s.connections c).map s.report).foldl addReport32 0 := by
  have hfold : ∀ (m : OrderedMap MacCid LteMacBuffer) (z : ℤ), (∀ e ∈ m, e ∈ s.macBuffers) →
      m.foldl s.addConnection z = (((m.map Prod.fst).filter fun cid =>
        (s.descriptor cid).direction = some c).map s.report).foldl addReport32 z := by
    intro m
    induction m with
    | nil => exact fun _ _ => rfl
    | cons e m ih =>
      intro z hm
      obtain ⟨he, hm⟩ := List.forall_mem_cons.1 hm
      rw [List.foldl_cons, List.map_cons, List.filter_cons, ih _ hm]
      have hskip := hclass (s.descriptor e.1)
      by_cases hdir : (s.descriptor e.1).direction = some c
      · have hnot := not_or.1 fun hor => hskip.1 hor hdir
        have hstep : s.addConnection z e = addReport32 z (s.report e.1) := by
          rw [report_of_mem he, addConnection]
          dsimp only
          rw [if_neg hnot.1, if_neg hnot.2]
          rfl
        rw [if_pos (decide_eq_true hdir), List.map_cons, List.foldl_cons, hstep]
      · have hstep : s.addConnection z e = z := by
          rw [addConnection]
          dsimp only
          rcases hskip.2 hdir with hd2d | hmulti
          · rw [if_pos hd2d]
          · rw [if_pos hmulti, ite_self]
        rw [if_neg (by simpa using hdir), hstep]
  exact hfold s.macBuffers 0 fun _ => id

theorem exactSize_eq : s.exactSize c = (((s.connections c).map s.report).map withHeader).sum := by
  rw [exactSize, need, Multiset.map_coe, Multiset.sum_coe, List.map_map]
  rfl

theorem rlcHeader_le (t : LteRlcType) : UeTables.rlcHeader t ≤ 2 := by
  cases t <;> decide

theorem stragglers_le (cs : List (ℕ × ℕ)) (h : ∀ x ∈ cs, x.2 ≤ 2) :
    stragglers cs ≤ 2 * cs.length := by
  have hsub := (List.filter_sublist (p := fun x : ℕ × ℕ => x.1 = 0)).trans
    (List.dropWhile_sublist (l := cs) fun x => x.1 = 0)
  have hsum := List.sum_le_card_nsmul
    (((cs.dropWhile fun x => x.1 = 0).filter fun x => x.1 = 0).map Prod.snd) 2
    (List.forall_mem_map.2 fun x hx => h x (hsub.subset hx))
  have hlen := hsub.length_le
  rw [List.length_map, smul_eq_mul] at hsum
  rw [stragglers]
  omega

/-- When the loop of a report that comes alone finds the exact size. -/
theorem sizeBsr_exact (hsize : s.sizeBsr = ((s.connections c).map s.report).foldl addReport32 0) :
    (s.AloneExact c → s.sizeBsr = s.exactSize c) ∧
      (s.macBuffers.length ≤ 1073741824 → s.sizeBsr = s.exactSize c → s.AloneExact c) := by
  have htotal := foldl_addReport ((s.connections c).map s.report)
  rw [← exactSize_eq] at htotal
  have hrun := foldl_addReport32 (n := 0) ((s.connections c).map s.report)
  rw [htotal, i32_of_lt (by decide), Nat.cast_zero, ← hsize] at hrun
  constructor
  · rintro ⟨hlt, hnone⟩
    rw [hnone, Nat.add_zero] at hrun
    obtain ⟨n', heq, -, -, hn', -⟩ := hrun (by omega)
    rw [heq, hn' hlt, i32_of_lt hlt]
  · intro hlen hexact
    have hbound := stragglers_le ((s.connections c).map s.report)
      (List.forall_mem_map.2 fun cid _ => rlcHeader_le _)
    have hcount : ((s.connections c).map s.report).length ≤ s.macBuffers.length := by
      rw [List.length_map]
      exact (List.length_filter_le _ _).trans (by rw [List.length_map])
    have hlt : s.exactSize c < 2147483648 := by
      have hrange := foldl_addReport32_lt (z := 0) (by decide) ((s.connections c).map s.report)
      rw [← hsize, hexact] at hrange
      omega
    refine ⟨hlt, ?_⟩
    obtain ⟨n', heq, -, hle, hsmall, hlarge⟩ := hrun (by omega)
    rw [heq] at hexact
    by_cases hfits : s.exactSize c + stragglers ((s.connections c).map s.report) < 2147483648
    · rw [hsmall hfits, i32_of_lt hfits] at hexact
      omega
    · -- a total beyond the range of an `int` shows as a negative number
      have hneg := i32_neg (hlarge (by omega)) (by omega)
      omega

/-! ### A report that comes with data -/

theorem addSdus_bsr {n : ℕ} {p p' : LteMacPdu × OrderedMap MacCid (List QueuedSdu)}
    (h : addSdus cid n p = .ok p') : p'.1.bsr = p.1.bsr := by
  induction n generalizing p with
  | zero =>
    obtain rfl := Except.ok.inj h
    rfl
  | succ n ih =>
    obtain ⟨macPkt, mbuf⟩ := p
    rw [addSdus] at h
    split at h
    · cases h
    · obtain rfl := Except.ok.inj h
      rfl
    · split at h
      · cases h
      · exact (ih h).trans rfl

/-- What the loop over the schedule list has made. -/
structure Made (s : D2DBsrState) (r r' : PduMaking) (cids : List MacCid) : Prop where
  noBsr : (∀ p ∈ r.macPduList, p.2.bsr = none) → ∀ p ∈ r'.macPduList, p.2.bsr = none
  size : s.bsrTriggered = true ∨ s.bsrD2DMulticastTriggered = true →
    r'.size = (cids.map s.report).foldl addReport r.size

/-- One entry of the schedule list. -/
theorem makePdu_spec {e : (MacCid ×ₗ ℕ) × ℕ} (h : s.makePdu r e = .ok r') :
    Made s r r' [(ofLex e.1).1] := by
  unfold makePdu at h
  dsimp only at h
  split at h
  · cases h
  · rename_i lteInfo hdesc
    split at h
    · rename_i hskip
      obtain rfl := Except.ok.inj h
      refine ⟨id, fun htrig => ?_⟩
      simp only [Bool.not_eq_true'] at hskip
      rcases htrig with htrig | htrig
      · rw [hskip.2.1] at htrig
        cases htrig
      · rw [hskip.2.2] at htrig
        cases htrig
    · obtain ⟨⟨macPkt, mbuf⟩, hadd, h⟩ := bind_eq_ok.1 h
      dsimp only at h
      split at h
      · cases h
      · rename_i buffer hbuffer
        obtain rfl := Except.ok.inj h
        constructor
        · intro hnone p hp
          rcases OrderedMap.mem_of_mem_put hp with rfl | hp
          · refine (addSdus_bsr hadd).trans ?_
            dsimp only
            cases hfind : r.macPduList.find (toLex (lteInfo.destId, (ofLex e.1).2)) with
            | none => rfl
            | some q => exact hnone _ (OrderedMap.mem_of_find hfind)
          · exact hnone p hp
        · intro _
          have hreport : s.report (ofLex e.1).1 =
              (buffer.queueOccupancy, UeTables.rlcHeader lteInfo.rlcType) := by
            rw [report, descriptor, hbuffer, hdesc]
            rfl
          rw [List.map_singleton, hreport]
          rfl

theorem makePdus_spec {l : LteMacScheduleList} (h : l.foldlM s.makePdu r = .ok r') :
    Made s r r' (l.map fun e => (ofLex e.1).1) := by
  induction l generalizing r with
  | nil =>
    obtain rfl := Except.ok.inj h
    exact ⟨id, fun _ => rfl⟩
  | cons e l ih =>
    rw [List.foldlM_cons] at h
    obtain ⟨r₁, hr₁, h⟩ := bind_eq_ok.1 h
    have hstep := makePdu_spec hr₁
    have hrest := ih h
    refine ⟨fun hnone => hrest.noBsr (hstep.noBsr hnone), fun htrig => ?_⟩
    rw [hrest.size htrig, hstep.size htrig]
    rfl

theorem i32_eq_natCast {n m : ℕ} :
    i32 n = m ↔ m < 2147483648 ∧ n ≡ m [MOD 4294967296] := by
  unfold i32 u32 Nat.ModEq
  split <;> omega

/-- What is scheduled and what is missing from it make up for each other. -/
theorem need_scheduled (c : FlowDirection) :
    s.need s.scheduled + s.need (s.connections c - s.scheduled : Multiset MacCid) =
      s.exactSize c + s.need (s.scheduled - s.connections c : Multiset MacCid) := by
  have hadd : ∀ A B : Multiset MacCid, s.need (A + B) = s.need A + s.need B := by
    intro A B
    rw [need, Multiset.map_add, Multiset.sum_add]
    rfl
  rw [exactSize, ← hadd, ← hadd, add_comm (s.scheduled : Multiset MacCid),
    add_comm (s.connections c : Multiset MacCid), ← Multiset.union_def, ← Multiset.union_def,
    Multiset.union_comm]

/-- When the total of what is scheduled is the exact size. -/
theorem piggyback_exact (c : FlowDirection) :
    i32 ((s.scheduled.map s.report).foldl addReport 0) = s.exactSize c ↔ s.PiggybackExact c := by
  have htotal := foldl_addReport (s.scheduled.map s.report)
  have hneed : ((s.scheduled.map s.report).map withHeader).sum = s.need s.scheduled := by
    rw [need, Multiset.map_coe, Multiset.sum_coe, List.map_map]
    rfl
  rw [hneed] at htotal
  have hbalance := need_scheduled (s := s) c
  rw [i32_eq_natCast, htotal, PiggybackExact]
  refine and_congr_right fun _ => ?_
  unfold Nat.ModEq
  omega

/-! ### Every report -/

/-- A PDU with a report comes alone, or it is the first one for what is scheduled. -/
theorem bsr_cases {o : PdusMade} (h : s.macPduMake = .ok o) {p : (MacNodeId ×ₗ ℕ) × LteMacPdu}
    (hp : p ∈ o.macPduList) {z : ℤ} (hz : p.2.bsr = some z) :
    s.bsrOnly = true ∧ 0 < s.sizeBsr ∧ p.2 = s.makeBsr s.sizeBsr ∧ z = s.sizeBsr ∨
      s.bsrOnly = false ∧ z = i32 ((s.scheduled.map s.report).foldl addReport 0) := by
  -- no PDU carries a report before one is attached
  have hnil : ∀ m, ∀ q ∈ (({ mbuf := m } : PduMaking)).macPduList, q.2.bsr = none := fun m => nofun
  unfold macPduMake at h
  split at h
  · rename_i honly
    split at h
    · rename_i hpos
      obtain rfl := Except.ok.inj h
      obtain rfl := List.mem_singleton.1 hp
      exact .inl ⟨honly, hpos, rfl, (Option.some.inj hz).symm⟩
    · -- nothing is scheduled
      have hempty : s.scheduleList = [] := by
        simp only [bsrOnly, Bool.and_eq_true, List.isEmpty_iff] at honly
        exact honly.2
      unfold makePdus at h
      dsimp only at h
      rw [hempty] at h
      obtain rfl := Except.ok.inj h
      cases hp
  · rename_i honly
    unfold makePdus at h
    cases hr : s.scheduleList.foldlM s.makePdu { mbuf := s.mbuf } with
    | error e =>
      rw [hr] at h
      cases h
    | ok r =>
      rw [hr] at h
      obtain rfl := Except.ok.inj h
      have hmade := makePdus_spec hr
      have hnone := hmade.noBsr (hnil _)
      unfold attachBsr at hp
      split at hp
      · cases hp
      · rename_i pktId macPkt macPduList hlist
        rw [hlist] at hnone
        obtain ⟨hfirst, hrest⟩ := List.forall_mem_cons.1 hnone
        -- only the first PDU gets the report
        split at hp
        · rename_i htrig
          rcases List.mem_cons.1 hp with rfl | hp
          · refine .inr ⟨Bool.eq_false_iff.2 honly, ?_⟩
            rw [← Option.some.inj hz, hmade.size htrig]
            rfl
          · rw [hrest p hp] at hz
            cases hz
        · rcases List.mem_cons.1 hp with rfl | hp
          · rw [hfirst] at hz
            cases hz
          · rw [hrest p hp] at hz
            cases hz

/-- The class of a report that comes alone. -/
theorem sizeBsr_class (hpos : 0 < s.sizeBsr) (honly : s.bsrOnly = true) :
    s.sizeBsr = ((s.connections (reportedClass (s.makeBsr s.sizeBsr).lcid)).map s.report).foldl
      addReport32 0 := by
  apply sizeBsr_eq
  intro info
  have htrig : s.bsrTriggered = true ∨ s.bsrD2DMulticastTriggered = true := by
    simp only [bsrOnly, Bool.and_eq_true, Bool.or_eq_true] at honly
    exact honly.1.1
  cases hmulti : s.bsrD2DMulticastTriggered with
  | false =>
    have hd2d : s.bsrTriggered = true := by simpa [hmulti] using htrig
    have hclass : reportedClass (s.makeBsr s.sizeBsr).lcid = .D2D := by
      rw [makeBsr, hmulti]
      rfl
    rw [hclass, hd2d]
    simp
  | true =>
    have hclass : reportedClass (s.makeBsr s.sizeBsr).lcid = .D2D_MULTI := by
      rw [makeBsr, hmulti]
      rfl
    rw [hclass]
    cases hd2d : s.bsrTriggered with
    | false => simp
    | true =>
      -- with both triggers every connection is left out
      have hzero : ∀ m : OrderedMap MacCid LteMacBuffer, m.foldl s.addConnection 0 = 0 := by
        intro m
        induction m with
        | nil => rfl
        | cons e m ih =>
          have hstep : s.addConnection 0 e = 0 := by
            rw [addConnection]
            dsimp only
            by_cases hdir : (s.descriptor e.1).direction = some .D2D
            · rw [if_neg (by simp [hdir]), if_pos (by simp [hmulti, hdir])]
            · rw [if_pos ⟨hd2d, hdir⟩]
          rw [List.foldl_cons, hstep]
          exact ih
      rw [sizeBsr, hzero] at hpos
      exact absurd hpos (lt_irrefl 0)

/-- **When a buffer status report is exact.**  A report that comes alone is exact if its class is
in the range of an `int` and has no stragglers, and, unless there are more than 2^30 connections,
only then.  A report that comes with data is exact for a class exactly if what it counts beyond the
class makes up for what it leaves out. -/
theorem reported_iff {o : PdusMade} (h : s.macPduMake = .ok o)
    {p : (MacNodeId ×ₗ ℕ) × LteMacPdu} (hp : p ∈ o.macPduList) {z : ℤ}
    (hz : p.2.bsr = some z) :
    if s.bsrOnly then
      (s.AloneExact (reportedClass p.2.lcid) → z = s.exactSize (reportedClass p.2.lcid)) ∧
        (s.macBuffers.length ≤ 1073741824 →
          z = s.exactSize (reportedClass p.2.lcid) → s.AloneExact (reportedClass p.2.lcid))
    else ∀ c, z = s.exactSize c ↔ s.PiggybackExact c := by
  rcases bsr_cases h hp hz with ⟨honly, hpos, hpdu, rfl⟩ | ⟨honly, rfl⟩
  · rw [honly, if_pos rfl, hpdu]
    exact sizeBsr_exact (sizeBsr_class hpos honly)
  · rw [honly, if_neg Bool.false_ne_true]
    exact fun c => piggyback_exact c

/-- A UE with an uplink grant and D2D connections over UM that have these bytes each. -/
def d2dFlows (first second : List ℕ) : D2DBsrState where
  cellId := 1
  bsrTriggered := true
  bsrD2DMulticastTriggered := false
  grantDirection := .UL
  scheduleList := []
  macBuffers := [(1, ⟨first⟩), (2, ⟨second⟩)]
  connDesc := [(1, ⟨1025, 1026, 1, some .D2D, 0, .UM, 1026⟩),
    (2, ⟨1025, 1027, 2, some .D2D, 0, .UM, 1027⟩)]
  mbuf := []
  sorted := by
    show List.Pairwise (· < ·) [1, 2]
    decide

theorem reported_empty_first :
    if (d2dFlows [] [10]).bsrOnly then
      ((d2dFlows [] [10]).AloneExact (reportedClass 1) →
          (12 : ℤ) = (d2dFlows [] [10]).exactSize (reportedClass 1)) ∧
        ((d2dFlows [] [10]).macBuffers.length ≤ 1073741824 →
          (12 : ℤ) = (d2dFlows [] [10]).exactSize (reportedClass 1) →
            (d2dFlows [] [10]).AloneExact (reportedClass 1))
    else ∀ c, (12 : ℤ) = (d2dFlows [] [10]).exactSize c ↔ (d2dFlows [] [10]).PiggybackExact c :=
  reported_iff (s := d2dFlows [] [10]) (o := ⟨_, _, _, _⟩)
    (p := (toLex (1, 0), (d2dFlows [] [10]).makeBsr 12)) rfl (List.mem_singleton_self _) rfl

/-- An empty connection behind one with data counts by its header. -/
theorem header_of_empty : ∃ o p z, (d2dFlows [10] []).macPduMake = .ok o ∧ p ∈ o.macPduList ∧
    p.2.bsr = some z ∧ p.2.lcid = D2D_SHORT_BSR ∧ z = 14 ∧
      (d2dFlows [10] []).exactSize (reportedClass p.2.lcid) = 12 :=
  ⟨⟨_, _, _, _⟩, (toLex (1, 0), (d2dFlows [10] []).makeBsr 14), 14, rfl,
    List.mem_singleton_self _, rfl, rfl, rfl, by decide⟩

end D2DBsrState

end V2nLte
