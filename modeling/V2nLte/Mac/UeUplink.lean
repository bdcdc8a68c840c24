import V2nLte.Lte.Common
import V2nLte.Rlc.UmTx
import V2nLte.Machine.Basic
import Mathlib.Data.List.Sort
import Mathlib.Logic.Function.Basic

/-!
# The uplink of a UE: grants, MAC buffers and RLC queues

An SDU of a UM connection is put into the queue of its `UmTxEntity` and announced to the MAC,
which notes its size in the virtual buffer of the connection.  When a grant comes,
`LcgScheduler::schedule` shares the granted bytes out among the backlogged connections, in the
order of their traffic classes, and takes the bytes out of the virtual buffers; then
`macSduRequest` asks RLC for one PDU per connection, in the order of their ids.

The MAC header is charged to the first connection both times.  `backlog_kept` says that MAC and
RLC agree on the backlog as long as it is the same connection.

Every connection is UM and there is one codeword.  Buckets, statistics and the BSR are left out,
and so is `scheduledBytesList_` from earlier grants, which is not read: every connection that is
asked for a PDU has a new entry.
-/

namespace V2nLte

/-! ### Virtual buffers -/

/-- `LteMacBuffer`: the sizes of the packets of a connection. -/
structure LteMacBuffer where
  /-- The sizes, the oldest first. -/
  queue : List ℕ := []
  deriving DecidableEq

namespace LteMacBuffer

/-- The bytes in the buffer, an `unsigned int` that is updated with every packet. -/
def queueOccupancy (b : LteMacBuffer) : ℕ := u32 b.queue.sum

/-- A packet is announced. -/
def pushBack (b : LteMacBuffer) (size : ℕ) : LteMacBuffer := ⟨b.queue ++ [size]⟩

/-- Take `alloc` bytes from the front of a queue, the last packet possibly in part.  It throws
"Packet queue empty" if there are not that many. -/
def takeBytes : List ℕ → ℕ → Option (List ℕ)
  | q, 0 => some q
  | [], _ + 1 => none
  | p :: q, alloc + 1 =>
    if alloc + 1 < p then some ((p - (alloc + 1)) :: q) else takeBytes q (alloc + 1 - p)

theorem takeBytes_spec {q : List ℕ} {n : ℕ} (h : n ≤ q.sum) :
    ∃ q', takeBytes q n = some q' ∧ q'.sum + n = q.sum := by
  induction q generalizing n with
  | nil =>
    obtain rfl : n = 0 := by simpa using h
    exact ⟨[], rfl, rfl⟩
  | cons p q ih =>
    cases n with
    | zero => exact ⟨p :: q, rfl, rfl⟩
    | succ n =>
      rw [List.sum_cons] at h ⊢
      unfold takeBytes
      split
      · refine ⟨_, rfl, ?_⟩
        rw [List.sum_cons]
        omega
      · obtain ⟨q', hq, hsum⟩ := ih (n := n + 1 - p) (by omega)
        exact ⟨q', hq, by omega⟩

end LteMacBuffer

/-! ### The UE -/

/-- What the MAC keeps of the `FlowControlInfo` of a connection. -/
structure UlConnection where
  /-- The `MacCid` of the connection. -/
  cid : ℕ
  /-- The traffic class. -/
  traffic : LteTrafficClass
  /-- The direction. -/
  direction : FlowDirection
  deriving DecidableEq

/-- The uplink side of a UE. -/
structure UeUplink where
  /-- The connections that have a virtual buffer, in the order in which they got it. -/
  lcgMap : List UlConnection := []
  /-- The virtual buffers. -/
  macBuffers : ℕ → LteMacBuffer := fun _ => {}
  /-- The RLC entities. -/
  txEntity : ℕ → UmTxEntity

/-- An entry of `scheduleList_` and `scheduledBytesList_`. -/
structure Scheduled where
  /-- The connection. -/
  cid : ℕ
  /-- The bytes for this connection. -/
  sentData : ℕ

/-- A `LteMacSduRequest`. -/
structure SduRequest where
  /-- The connection. -/
  cid : ℕ
  /-- The bytes scheduled for the connection. -/
  scheduled : ℕ
  /-- The size that is asked for. -/
  sduSize : ℕ
  deriving DecidableEq

/-- What came of a grant. -/
structure GrantReport where
  /-- The granted bytes. -/
  grantedBytes : ℕ
  /-- The requests to RLC. -/
  requests : List SduRequest
  /-- The RLC PDUs that go into the MAC PDU. -/
  pdus : List UmDataPdu
  deriving DecidableEq

/-- The length of the MAC PDU. -/
def GrantReport.macPduLength (r : GrantReport) : ℕ :=
  MAC_HEADER + (r.pdus.map UmDataPdu.byteLength).sum

namespace UeUplink

/-- The traffic classes in the order of `LcgScheduler::schedule`. -/
def trafficClasses : List LteTrafficClass :=
  [.CONVERSATIONAL, .STREAMING, .INTERACTIVE, .BACKGROUND]

/-- The connections in the order of `LcgScheduler::schedule`. -/
def visits (lcgMap : List UlConnection) : List UlConnection :=
  trafficClasses.flatMap fun c => lcgMap.filter (·.traffic = c)

/-- The state of the loop of `LcgScheduler::schedule`. -/
structure LcgState where
  /-- The bytes that are left of the grant. -/
  availableBytes : ℕ
  /-- The MAC header has not been paid for yet. -/
  firstSdu : Bool := true
  /-- The virtual buffers. -/
  macBuffers : ℕ → LteMacBuffer
  /-- What has been shared out. -/
  scheduleList : List Scheduled := []

/-- The MAC header, if it is not charged yet. -/
def macHeader (firstSdu : Bool) : ℕ := if firstSdu then MAC_HEADER else 0

/-- The entry of a connection, with what is left in its virtual buffer. -/
def LcgState.serve (st : LcgState) (cid sentData : ℕ) (left : List ℕ) : LcgState where
  availableBytes := st.availableBytes - sentData
  firstSdu := false
  macBuffers := Function.update st.macBuffers cid ⟨left⟩
  scheduleList := st.scheduleList ++ [⟨cid, sentData⟩]

/-- One connection in the loop of `LcgScheduler::schedule`. -/
def visit (grantDir : FlowDirection) (st : LcgState) (c : UlConnection) : Option LcgState :=
  let vQueue := st.macBuffers c.cid
  if c.direction ≠ grantDir then some st
  else if vQueue.queueOccupancy = 0 then some st
  else
    let toServe := u32 (vQueue.queueOccupancy + RLC_HEADER_UM + macHeader st.firstSdu)
    if st.availableBytes = 0 ∨ toServe = 0 then
      some { st with scheduleList := st.scheduleList ++ [⟨c.cid, 0⟩] }
    else if toServe ≤ st.availableBytes then some (st.serve c.cid toServe [])
    else
      let alloc : ℤ := i32 st.availableBytes - macHeader st.firstSdu - RLC_HEADER_UM
      match LteMacBuffer.takeBytes vQueue.queue alloc.toNat with
      | none => none
      | some left => some (st.serve c.cid st.availableBytes left)

/-- `LcgScheduler::schedule`. -/
def schedule (s : UeUplink) (availableBytes : ℕ) (grantDir : FlowDirection) : Option LcgState :=
  (visits s.lcgMap).foldlM (visit grantDir) { availableBytes, macBuffers := s.macBuffers }

/-- `macSduRequest`, for the scheduled connections in the order of their ids. -/
def macSduRequest : Bool → List Scheduled → List SduRequest
  | _, [] => []
  | firstSdu, e :: es =>
    ⟨e.cid, e.sentData, if firstSdu then sub32 e.sentData MAC_HEADER else e.sentData⟩ ::
      macSduRequest false es

/-- RLC answers a request.  The size is an `unsigned int` here and an `int` there. -/
def reply (acc : (ℕ → UmTxEntity) × List UmDataPdu) (r : SduRequest) :
    Option ((ℕ → UmTxEntity) × List UmDataPdu) :=
  match (acc.1 r.cid).rlcPduMake (i32 r.sduSize) with
  | none => none
  | some (t, pdu) => some (Function.update acc.1 r.cid t, acc.2 ++ pdu.toList)

/-- A grant from its arrival to the last answer of RLC. -/
def handleGrant (s : UeUplink) (bytes : ℕ) (dir : FlowDirection) :
    Option (UeUplink × List GrantReport) :=
  match s.schedule bytes dir with
  | none => none
  | some st =>
    let requests := macSduRequest true (st.scheduleList.insertionSort fun a b => a.cid ≤ b.cid)
    match requests.foldlM reply (s.txEntity, []) with
    | none => none
    | some (txEntity, pdus) =>
      some ({ s with macBuffers := st.macBuffers, txEntity }, [⟨bytes, requests, pdus⟩])

/-- An SDU comes from PDCP; if RLC takes it, it is announced to the MAC. -/
def handleSdu (s : UeUplink) (c : UlConnection) (pkt : RlcSdu) : UeUplink :=
  let (t, accepted) := (s.txEntity c.cid).enque pkt
  if accepted then
    { lcgMap := if c.cid ∈ s.lcgMap.map (·.cid) then s.lcgMap else s.lcgMap ++ [c]
      macBuffers := Function.update s.macBuffers c.cid
        ((s.macBuffers c.cid).pushBack pkt.lengthMainPacket)
      txEntity := Function.update s.txEntity c.cid t }
  else s

/-- What can happen. -/
inductive Event where
  /-- An SDU of a connection. -/
  | sdu (c : UlConnection) (pkt : RlcSdu)
  /-- A grant. -/
  | grant (bytes : ℕ) (dir : FlowDirection)

/-- The handler of an event; an exception is `none`. -/
def handle (s : UeUplink) : Event → Option (UeUplink × List GrantReport)
  | .sdu c pkt => some (s.handleSdu c pkt, [])
  | .grant bytes dir => s.handleGrant bytes dir

/-- The UE as a machine. -/
def machine : Machine UeUplink Event GrantReport where
  step := handle

/-- The UE without connections; `queueSize` is the limit of every RLC queue. -/
def initial (queueSize : ℕ) : UeUplink where
  txEntity := fun _ => { queueSize }

/-- The backlogged connections for a grant of direction `dir`, in the order of
`LcgScheduler::schedule`. -/
def active (s : UeUplink) (dir : FlowDirection) : List ℕ :=
  ((visits s.lcgMap).filter fun c =>
    c.direction = dir ∧ (s.macBuffers c.cid).queueOccupancy ≠ 0).map (·.cid)

/-- For a grant: there is room for the MAC header, and the backlogged connection that comes first
by its traffic class comes first by its id.  For an SDU: the bytes of the connection stay in the
range of an `int`. -/
def Event.Ok (s : UeUplink) : Event → Prop
  | .sdu c pkt =>
    (s.txEntity c.cid).backlog + pkt.lengthMainPacket + RLC_HEADER_UM + MAC_HEADER < 2147483648
  | .grant bytes dir => ∀ c ∈ s.active dir,
    MAC_HEADER ≤ bytes ∧ ∀ h ∈ (s.active dir).head?, h ≤ c

instance (s : UeUplink) (e : Event) : Decidable (e.Ok s) := by
  cases e <;> unfold Event.Ok <;> infer_instance

/-! ### Sharing out a grant -/

/-- What the connections `cs` are to ask for when `a` bytes are left for RLC PDUs and `occ` is
their backlog: each as much as it can use, as long as there is something left. -/
def shares (occ : ℕ → ℕ) : ℕ → List ℕ → List (ℕ × ℕ)
  | _, [] => []
  | a, c :: cs =>
    (c, min a (occ c + RLC_HEADER_UM)) :: shares occ (a - min a (occ c + RLC_HEADER_UM)) cs

theorem shares_map_fst (occ : ℕ → ℕ) (a : ℕ) (cs : List ℕ) :
    (shares occ a cs).map Prod.fst = cs := by
  induction cs generalizing a with
  | nil => rfl
  | cons c cs ih => simp [shares, ih]

theorem shares_sum_le (occ : ℕ → ℕ) (a : ℕ) (cs : List ℕ) :
    ((shares occ a cs).map Prod.snd).sum ≤ a := by
  induction cs generalizing a with
  | nil => exact Nat.zero_le a
  | cons c cs ih =>
    have := ih (a - min a (occ c + RLC_HEADER_UM))
    simp only [shares, List.map_cons, List.sum_cons]
    omega

theorem shares_le (occ : ℕ → ℕ) (a : ℕ) (cs : List ℕ) :
    ∀ e ∈ shares occ a cs, e.2 ≤ occ e.1 + RLC_HEADER_UM := by
  induction cs generalizing a with
  | nil => simp [shares]
  | cons c cs ih =>
    intro e he
    rcases List.mem_cons.1 he with rfl | he
    · exact min_le_right _ _
    · exact ih _ e he

section

variable {dir : FlowDirection} {occ : ℕ → ℕ} {st : LcgState}

/-- The connection takes part in a grant of direction `dir`. -/
def Active (dir : FlowDirection) (occ : ℕ → ℕ) (c : UlConnection) : Prop :=
  c.direction = dir ∧ occ c.cid ≠ 0

instance (dir : FlowDirection) (occ : ℕ → ℕ) : DecidablePred (Active dir occ) := by
  unfold Active
  infer_instance

theorem occupancy_eq {b : LteMacBuffer} {n : ℕ} (hsum : b.queue.sum = n) (hlt : n < 2147483648) :
    b.queueOccupancy = n := by
  rw [LteMacBuffer.queueOccupancy, hsum, u32_of_lt (by omega)]

theorem visit_of_not_active {c : UlConnection} (hsum : (st.macBuffers c.cid).queue.sum = occ c.cid)
    (hlt : occ c.cid < 2147483648) (h : ¬ Active dir occ c) : visit dir st c = some st := by
  unfold visit
  dsimp only
  split
  · rfl
  · rename_i hdir
    rw [not_ne_iff] at hdir
    rw [occupancy_eq hsum hlt, if_pos]
    by_contra hocc
    exact h ⟨hdir, hocc⟩

/-- A backlogged connection gets what it can use, if there is that much. -/
theorem visit_of_active {c : UlConnection} (hsum : (st.macBuffers c.cid).queue.sum = occ c.cid)
    (hlt : occ c.cid + RLC_HEADER_UM + MAC_HEADER < 2147483648) (h : Active dir occ c)
    (hfirst : st.firstSdu = true → 0 < st.availableBytes) (sent : ℕ)
    (hsent : sent = min st.availableBytes (occ c.cid + RLC_HEADER_UM + macHeader st.firstSdu)) :
    ∃ left, visit dir st c = some (st.serve c.cid sent left) ∧
      left.sum + (sent - (RLC_HEADER_UM + macHeader st.firstSdu)) = occ c.cid := by
  obtain ⟨hdir, hocc⟩ := h
  have hheader : macHeader st.firstSdu ≤ MAC_HEADER := by
    unfold macHeader
    split
    · exact le_rfl
    · exact Nat.zero_le _
  have hserve : u32 (occ c.cid + RLC_HEADER_UM + macHeader st.firstSdu) =
      occ c.cid + RLC_HEADER_UM + macHeader st.firstSdu := u32_of_lt (by omega)
  unfold visit
  dsimp only
  rw [if_neg (not_ne_iff.2 hdir), occupancy_eq hsum (by omega), if_neg hocc, hserve]
  by_cases hnone : st.availableBytes = 0
  · -- nothing is left, and the header has been charged before
    have hf : st.firstSdu = false := by
      by_contra hf
      have := hfirst (by simpa using hf)
      omega
    obtain rfl : sent = 0 := by omega
    refine ⟨(st.macBuffers c.cid).queue, ?_, by omega⟩
    rw [if_pos (.inl hnone)]
    simp only [LcgState.serve, Nat.sub_zero, Option.some.injEq, LcgState.mk.injEq]
    exact ⟨trivial, hf, (Function.update_eq_self _ _).symm, trivial⟩
  · -- the connection is active, so there is something to serve
    rw [if_neg (by omega)]
    split
    · -- served as a whole
      rename_i hfit
      rw [min_eq_right hfit] at hsent
      subst hsent
      exact ⟨[], rfl, by simp only [List.sum_nil]; omega⟩
    · -- the rest of the grant
      rename_i hfit
      rw [min_eq_left (by omega)] at hsent
      have halloc : (i32 st.availableBytes - macHeader st.firstSdu - RLC_HEADER_UM : ℤ).toNat =
          sent - (RLC_HEADER_UM + macHeader st.firstSdu) := by
        rw [i32_of_lt (by omega)]
        omega
      obtain ⟨left, htake, hleft⟩ := LteMacBuffer.takeBytes_spec (q := (st.macBuffers c.cid).queue)
        (n := sent - (RLC_HEADER_UM + macHeader st.firstSdu)) (by omega)
      refine ⟨left, ?_, by omega⟩
      rw [halloc, htake, hsent]

/-- The entries of the schedule. -/
def entries (rs : List (ℕ × ℕ)) : List Scheduled := rs.map fun e => ⟨e.1, e.2⟩

/-- The entries when the first of them carries the MAC header too. -/
def chargeFirst : List (ℕ × ℕ) → List Scheduled
  | [] => []
  | e :: rs => ⟨e.1, e.2 + MAC_HEADER⟩ :: entries rs

/-- What the loop leaves behind when the bytes `rs` were shared out. -/
structure SharedOut (occ : ℕ → ℕ) (rs : List (ℕ × ℕ)) (es : List Scheduled) (st st' : LcgState) :
    Prop where
  list : st'.scheduleList = st.scheduleList ++ es
  served : ∀ e ∈ rs, (st'.macBuffers e.1).queue.sum + (e.2 - RLC_HEADER_UM) = occ e.1
  others : ∀ c, c ∉ rs.map Prod.fst → st'.macBuffers c = st.macBuffers c

theorem SharedOut.cons {rs : List (ℕ × ℕ)} {es : List Scheduled} {c sent r : ℕ} {left : List ℕ}
    {st' : LcgState} {e : Scheduled} (h : SharedOut occ rs es (st.serve c sent left) st')
    (he : (st.serve c sent left).scheduleList = st.scheduleList ++ [e])
    (hleft : left.sum + (r - RLC_HEADER_UM) = occ c) (hnew : c ∉ rs.map Prod.fst) :
    SharedOut occ ((c, r) :: rs) (e :: es) st st' := by
  refine ⟨?_, fun d hd => ?_, fun d hd => ?_⟩
  · rw [h.list, he]
    simp
  · rcases List.mem_cons.1 hd with rfl | hd
    · -- later connections have other buffers
      rw [h.others c hnew]
      simpa [LcgState.serve] using hleft
    · exact h.served d hd
  · rw [List.map_cons, List.mem_cons, not_or] at hd
    rw [h.others d hd.2]
    exact Function.update_of_ne hd.1 _ _

theorem not_mem_active {vs : List UlConnection} {c : ℕ} (hne : ∀ d ∈ vs, d.cid ≠ c) :
    c ∉ (vs.filter (Active dir occ)).map (·.cid) := by
  intro hmem
  obtain ⟨d, hd, heq⟩ := List.mem_map.1 hmem
  exact hne d (List.mem_filter.1 hd).1 heq

/-- The loop once the MAC header is charged. -/
theorem visits_spec (dir : FlowDirection) (st : LcgState) (vs : List UlConnection)
    (hnodup : (vs.map (·.cid)).Nodup)
    (hfirst : st.firstSdu = false) (hsum : ∀ c ∈ vs, (st.macBuffers c.cid).queue.sum = occ c.cid)
    (hlt : ∀ c, occ c + RLC_HEADER_UM + MAC_HEADER < 2147483648) :
    ∃ st' rs, rs = shares occ st.availableBytes ((vs.filter (Active dir occ)).map (·.cid)) ∧
      vs.foldlM (visit dir) st = some st' ∧ SharedOut occ rs (entries rs) st st' := by
  induction vs generalizing st with
  | nil => exact ⟨st, [], rfl, rfl, by simp [entries], fun e he => by (cases he), fun _ _ => rfl⟩
  | cons c vs ih =>
    rw [List.map_cons, List.nodup_cons] at hnodup
    obtain ⟨hfresh, hnodup⟩ := hnodup
    have hc := hsum c (List.mem_cons_self ..)
    have hrest : ∀ d ∈ vs, (st.macBuffers d.cid).queue.sum = occ d.cid :=
      fun d hd => hsum d (List.mem_cons_of_mem c hd)
    have hltc := hlt c.cid
    rw [List.foldlM_cons]
    by_cases ha : Active dir occ c
    · obtain ⟨left, hvisit, hleft⟩ := visit_of_active hc (hlt c.cid) ha
        (fun h => by rw [hfirst] at h; cases h) _ rfl
      have hheader : macHeader st.firstSdu = 0 := by rw [hfirst]; rfl
      rw [hheader, Nat.add_zero, Nat.add_zero] at hleft
      rw [hheader, Nat.add_zero] at hvisit
      rw [hvisit]
      have hne : ∀ d ∈ vs, d.cid ≠ c.cid := fun d hd heq =>
        hfresh (heq ▸ List.mem_map_of_mem hd)
      obtain ⟨st', rs, hrs, hfold, hshared⟩ := ih (st.serve c.cid _ left) hnodup rfl
        (fun d hd => by
          simp only [LcgState.serve, Function.update_of_ne (hne d hd)]
          exact hrest d hd)
      refine ⟨st', _ :: rs, ?_, hfold, hshared.cons (by simp [LcgState.serve]) hleft ?_⟩
      · rw [List.filter_cons_of_pos (by simpa using ha), hrs]
        rfl
      · rw [hrs, shares_map_fst]
        exact not_mem_active hne
    · rw [visit_of_not_active hc (by omega) ha]
      obtain ⟨st', rs, hrs, hfold, hshared⟩ := ih st hnodup hfirst hrest
      refine ⟨st', rs, ?_, hfold, hshared⟩
      rw [List.filter_cons_of_neg (by simpa using ha)]
      exact hrs

/-- The loop from its start, if there is room for the MAC header. -/
theorem visits_first_spec (dir : FlowDirection) (occ : ℕ → ℕ) (st : LcgState)
    (vs : List UlConnection) (hnodup : (vs.map (·.cid)).Nodup)
    (hfirst : st.firstSdu = true) (hsum : ∀ c ∈ vs, (st.macBuffers c.cid).queue.sum = occ c.cid)
    (hlt : ∀ c, occ c + RLC_HEADER_UM + MAC_HEADER < 2147483648)
    (hroom : vs.filter (Active dir occ) ≠ [] → MAC_HEADER ≤ st.availableBytes) :
    ∃ st' rs, rs = shares occ (st.availableBytes - MAC_HEADER)
        ((vs.filter (Active dir occ)).map (·.cid)) ∧
      vs.foldlM (visit dir) st = some st' ∧ SharedOut occ rs (chargeFirst rs) st st' := by
  induction vs with
  | nil =>
    exact ⟨st, [], rfl, rfl, by simp [chargeFirst], fun e he => by (cases he), fun _ _ => rfl⟩
  | cons c vs ih =>
    rw [List.map_cons, List.nodup_cons] at hnodup
    obtain ⟨hfresh, hnodup⟩ := hnodup
    have hc := hsum c (List.mem_cons_self ..)
    have hrest : ∀ d ∈ vs, (st.macBuffers d.cid).queue.sum = occ d.cid :=
      fun d hd => hsum d (List.mem_cons_of_mem c hd)
    have hltc := hlt c.cid
    rw [List.foldlM_cons]
    -- the first active connection is charged for the header
    by_cases ha : Active dir occ c
    · have hne : ∀ d ∈ vs, d.cid ≠ c.cid := fun d hd heq =>
        hfresh (heq ▸ List.mem_map_of_mem hd)
      have hpos : List.filter (Active dir occ) (c :: vs) = c :: vs.filter (Active dir occ) :=
        List.filter_cons_of_pos (by simpa using ha)
      have hheader : macHeader st.firstSdu = MAC_HEADER := by rw [hfirst]; rfl
      have hle := hroom (by rw [hpos]; simp)
      obtain ⟨r, hr⟩ : ∃ r, r = min (st.availableBytes - MAC_HEADER) (occ c.cid + RLC_HEADER_UM) :=
        ⟨_, rfl⟩
      obtain ⟨left, hvisit, hleft⟩ := visit_of_active hc
        (hlt c.cid) ha (fun _ => by unfold MAC_HEADER at hle; omega) (r + MAC_HEADER)
        (by rw [hheader]; omega)
      rw [hheader] at hleft
      rw [hvisit]
      obtain ⟨st', rs, hrs, hfold, hshared⟩ := visits_spec dir
        (st.serve c.cid (r + MAC_HEADER) left) vs hnodup rfl
        (fun d hd => by
          simp only [LcgState.serve, Function.update_of_ne (hne d hd)]
          exact hrest d hd) hlt
      refine ⟨st', (c.cid, r) :: rs, ?_, hfold,
        hshared.cons (by simp [LcgState.serve]) (by omega) ?_⟩
      · rw [hpos, hrs, List.map_cons, shares, ← hr]
        simp only [LcgState.serve]
        rw [show st.availableBytes - (r + MAC_HEADER) = st.availableBytes - MAC_HEADER - r by omega]
      · rw [hrs, shares_map_fst]
        exact not_mem_active hne
    · -- a connection that is not active is passed over
      have hneg : List.filter (Active dir occ) (c :: vs) = vs.filter (Active dir occ) :=
        List.filter_cons_of_neg (by simpa using ha)
      rw [hneg] at hroom ⊢
      rw [visit_of_not_active hc (by omega) ha]
      exact ih hnodup hrest hroom

end

/-! ### The requests -/

theorem macSduRequest_false (es : List Scheduled) :
    macSduRequest false es = es.map fun e => ⟨e.cid, e.sentData, e.sentData⟩ := by
  induction es with
  | nil => rfl
  | cons e es ih => simp [macSduRequest, ih]

/-- The entries of a list in the order of their ids. -/
abbrev sortByCid (es : List Scheduled) : List Scheduled :=
  es.insertionSort fun a b => a.cid ≤ b.cid

theorem sortByCid_cons {e : Scheduled} {es : List Scheduled} (h : ∀ d ∈ es, e.cid ≤ d.cid) :
    sortByCid (e :: es) = e :: sortByCid es := by
  unfold sortByCid
  rw [List.insertionSort_cons]
  cases hs : es.insertionSort fun a b => a.cid ≤ b.cid with
  | nil => rfl
  | cons d ds =>
    have hd : d ∈ es := (List.perm_insertionSort _ es).mem_iff.1 (hs ▸ List.mem_cons_self ..)
    exact List.orderedInsert_cons_of_le _ ds (h d hd)

/-- If the connection with the MAC header comes first by its id, every connection is asked for its
share. -/
theorem requests_spec (rs : List (ℕ × ℕ)) (hmin : ∀ c ∈ rs.map Prod.fst,
      ∀ h ∈ (rs.map Prod.fst).head?, h ≤ c) (hlt : ∀ e ∈ rs, e.2 + MAC_HEADER < 4294967296) :
    ((macSduRequest true (sortByCid (chargeFirst rs))).map fun r => (r.cid, r.sduSize)).Perm rs ∧
      ∀ r ∈ macSduRequest true (sortByCid (chargeFirst rs)), r.sduSize ≤ r.scheduled := by
  cases rs with
  | nil => exact ⟨.nil, fun r hr => by cases hr⟩
  | cons e rs =>
    have hle : ∀ d ∈ entries rs, e.1 ≤ d.cid := by
      intro d hd
      obtain ⟨x, hx, rfl⟩ := List.mem_map.1 hd
      exact hmin x.1 (List.mem_map_of_mem (List.mem_cons_of_mem e hx)) e.1 rfl
    have hsub : sub32 (e.2 + MAC_HEADER) MAC_HEADER = e.2 := by
      rw [sub32_of_le (Nat.le_add_left _ _) (hlt e (List.mem_cons_self ..)), Nat.add_sub_cancel]
    rw [chargeFirst, sortByCid_cons hle, macSduRequest, macSduRequest_false, if_pos rfl, hsub]
    constructor
    · rw [List.map_cons, List.map_map]
      refine List.Perm.cons e ?_
      have hperm := (List.perm_insertionSort (fun a b : Scheduled => a.cid ≤ b.cid)
        (entries rs)).map fun x => (x.cid, x.sentData)
      refine hperm.trans ?_
      simp [entries, Function.comp_def]
    · intro r hr
      rcases List.mem_cons.1 hr with rfl | hr
      · exact Nat.le_add_right _ _
      · obtain ⟨d, -, rfl⟩ := List.mem_map.1 hr
        exact le_rfl

/-! ### The answers of RLC -/

/-- The entity is somewhere in its stream. -/
def Sound (t : UmTxEntity) : Prop := ∃ sdus a, t.At sdus a

theorem reply_spec {t : UmTxEntity} (h : Sound t) {size : ℕ} (hlt : size < 2147483648) :
    ∃ t' pdu, t.rlcPduMake (i32 size) = some (t', pdu) ∧ Sound t' ∧
      t'.backlog + min (size - RLC_HEADER_UM) t.backlog = t.backlog ∧
      (pdu.toList.map UmDataPdu.byteLength).sum ≤ size := by
  obtain ⟨sdus, a, hat⟩ := h
  obtain ⟨t', pdu, b, hmake, hs⟩ := UmTxEntity.rlcPduMake_spec hat (i32 size)
  have hroom : (i32 size - (RLC_HEADER_UM : ℤ)).toNat = size - RLC_HEADER_UM := by
    rw [i32_of_lt hlt]
    omega
  have hbytes := hs.bytes
  have hback := hs.backlog
  rw [hroom] at hbytes
  refine ⟨t', pdu, hmake, ⟨sdus, b, hs.place⟩, by omega, ?_⟩
  cases pdu with
  | none => exact Nat.zero_le size
  | some pdu =>
    -- a PDU has at least one byte of data, so the request was larger than the header
    have hcut := (hs.data pdu rfl).2.2.2.1
    have hpos : chunkBytes pdu.sdus ≠ 0 := fun h0 =>
      (hs.data pdu rfl).2.2.1 ((UmTxEntity.Cut.chunkBytes_eq_zero hcut).1 h0)
    simp only [UmTxEntity.replyBytes] at hbytes
    simp only [Option.toList, List.map_cons, List.map_nil, List.sum_cons, List.sum_nil,
      UmDataPdu.byteLength]
    omega

/-- What the answers to the requests `rs` leave behind. -/
structure Answered (rs : List SduRequest) (tx tx' : ℕ → UmTxEntity) (pdus : List UmDataPdu) :
    Prop where
  bytes : (pdus.map UmDataPdu.byteLength).sum ≤ (rs.map SduRequest.sduSize).sum
  asked : ∀ r ∈ rs, Sound (tx' r.cid) ∧
    (tx' r.cid).backlog + min (r.sduSize - RLC_HEADER_UM) (tx r.cid).backlog =
      (tx r.cid).backlog
  others : ∀ c, c ∉ rs.map SduRequest.cid → tx' c = tx c

theorem replies_spec (rs : List SduRequest) (hnodup : (rs.map SduRequest.cid).Nodup)
    (tx : ℕ → UmTxEntity) (pdus : List UmDataPdu) (hsound : ∀ r ∈ rs, Sound (tx r.cid))
    (hlt : ∀ r ∈ rs, r.sduSize < 2147483648) :
    ∃ tx' ps, rs.foldlM reply (tx, pdus) = some (tx', pdus ++ ps) ∧ Answered rs tx tx' ps := by
  induction rs generalizing tx pdus with
  | nil => exact ⟨tx, [], by simp, le_rfl, fun r hr => by (cases hr), fun _ _ => rfl⟩
  | cons r rs ih =>
    rw [List.map_cons, List.nodup_cons] at hnodup
    obtain ⟨hfresh, hnodup⟩ := hnodup
    have hne : ∀ q ∈ rs, q.cid ≠ r.cid := fun q hq heq => hfresh (heq ▸ List.mem_map_of_mem hq)
    obtain ⟨t, pdu, hmake, ht, hback, hbytes⟩ :=
      reply_spec (hsound r (List.mem_cons_self ..)) (hlt r (List.mem_cons_self ..))
    obtain ⟨tx', ps, hfold, h⟩ := ih hnodup (Function.update tx r.cid t) (pdus ++ pdu.toList)
      (fun q hq => by
        rw [Function.update_of_ne (hne q hq)]
        exact hsound q (List.mem_cons_of_mem r hq))
      (fun q hq => hlt q (List.mem_cons_of_mem r hq))
    refine ⟨tx', pdu.toList ++ ps, ?_, ?_, fun q hq => ?_, fun c hc => ?_⟩
    · rw [List.foldlM_cons, reply]
      simp only [hmake]
      rw [← List.append_assoc]
      exact hfold
    · have := h.bytes
      rw [List.map_append, List.sum_append, List.map_cons, List.sum_cons]
      omega
    · rcases List.mem_cons.1 hq with rfl | hq
      · rw [h.others q.cid hfresh, Function.update_self]
        exact ⟨ht, hback⟩
      · have := h.asked q hq
        rwa [Function.update_of_ne (hne q hq)] at this
    · rw [List.map_cons, List.mem_cons, not_or] at hc
      rw [h.others c hc.2, Function.update_of_ne hc.1]

/-! ### MAC and RLC -/

/-- MAC and RLC agree on the backlog of every connection. -/
structure Agree (s : UeUplink) : Prop where
  nodup : (s.lcgMap.map (·.cid)).Nodup
  sound : ∀ c, Sound (s.txEntity c)
  agree : ∀ c, (s.macBuffers c).queue.sum = (s.txEntity c).backlog
  lt : ∀ c, (s.txEntity c).backlog + RLC_HEADER_UM + MAC_HEADER < 2147483648

theorem agree_initial (queueSize : ℕ) : Agree (initial queueSize) := by
  refine ⟨List.nodup_nil, fun c => ⟨[], (0, 0), le_rfl, rfl, .inl ⟨rfl, rfl, rfl⟩⟩, fun c => rfl,
    fun c => ?_⟩
  show 0 + RLC_HEADER_UM + MAC_HEADER < 2147483648
  decide

theorem backlog_enque {t : UmTxEntity} (h : Sound t) {pkt : RlcSdu}
    (hacc : (t.enque pkt).2 = true) :
    Sound (t.enque pkt).1 ∧ (t.enque pkt).1.backlog = t.backlog + pkt.lengthMainPacket := by
  obtain ⟨sdus, a, hat⟩ := h
  refine ⟨⟨_, a, hat.enque hacc⟩, ?_⟩
  unfold UmTxEntity.enque at hacc ⊢
  split at hacc
  · rw [if_pos ‹_›]
    simp only [UmTxEntity.backlog]
    cases hq : t.sduQueue with
    | nil =>
      -- an empty queue has no SDU that was cut
      rcases hat.frag with ⟨-, hfrag, -⟩ | ⟨p, -, hp, -⟩
      · simp [hfrag, UmTxEntity.bytesLeft]
      · have hlen := (List.getElem?_eq_some_iff.1 hp).1
        have hnil := hat.queue
        rw [hq] at hnil
        have := List.drop_eq_nil_iff.1 hnil.symm
        omega
    | cons p q =>
      rcases t.fragmentInfo with - | ⟨cut, size⟩
      · simp [UmTxEntity.bytesLeft, Nat.add_assoc]
      · simp [UmTxEntity.bytesLeft, Nat.add_assoc]
  · cases hacc

theorem agree_sdu {s : UeUplink} (h : Agree s) {c : UlConnection} {pkt : RlcSdu}
    (hok : (s.txEntity c.cid).backlog + pkt.lengthMainPacket + RLC_HEADER_UM + MAC_HEADER <
      2147483648) : Agree (s.handleSdu c pkt) := by
  unfold handleSdu
  dsimp only
  split
  · rename_i hacc
    obtain ⟨hsound, hback⟩ := backlog_enque (h.sound c.cid) hacc
    refine ⟨?_, fun d => ?_, fun d => ?_, fun d => ?_⟩
    · dsimp only
      split
      · exact h.nodup
      · rename_i hnew
        rw [List.map_append, List.map_singleton]
        exact List.nodup_append.2 ⟨h.nodup, List.nodup_singleton _, fun x hx y hy heq =>
          hnew (by rw [← List.mem_singleton.1 hy, ← heq]; exact hx)⟩
    all_goals
      by_cases hd : d = c.cid
      · subst hd
        simp only [Function.update_self]
        first
        | exact hsound
        | (rw [hback]; simp [LteMacBuffer.pushBack, h.agree])
        | (rw [hback]; exact hok)
      · simp only [Function.update_of_ne hd]
        first
        | exact h.sound d
        | exact h.agree d
        | exact h.lt d
  · exact h

theorem visits_nodup {m : List UlConnection} (h : (m.map (·.cid)).Nodup) :
    ((visits m).map (·.cid)).Nodup := by
  have hpair : m.Pairwise fun x y => x.cid ≠ y.cid := List.pairwise_map.1 h
  have hinj : ∀ x ∈ m, ∀ y ∈ m, x.cid = y.cid → x = y := fun x hx y hy =>
    List.inj_on_of_nodup_map h hx hy
  refine List.pairwise_map.2 (List.pairwise_flatMap.2 ⟨fun c _ => ?_, ?_⟩)
  · exact hpair.sublist List.filter_sublist
  · have hclasses : trafficClasses.Pairwise (· ≠ ·) := by decide
    refine hclasses.imp fun hne x hx y hy heq => ?_
    obtain ⟨hx, hxc⟩ := List.mem_filter.1 hx
    obtain ⟨hy, hyc⟩ := List.mem_filter.1 hy
    rw [hinj x hx y hy heq, decide_eq_true_eq] at hxc
    rw [decide_eq_true_eq] at hyc
    exact hne (hxc.symm.trans hyc)

theorem active_eq {s : UeUplink} (h : Agree s) (dir : FlowDirection) :
    s.active dir = ((visits s.lcgMap).filter
      (Active dir fun c => (s.txEntity c).backlog)).map (·.cid) := by
  unfold active
  congr 1
  refine List.filter_congr fun c _ => ?_
  have hlt := h.lt c.cid
  rw [occupancy_eq (h.agree c.cid) (by omega)]
  rfl

/-- What a grant does: MAC and RLC still agree, no request has wrapped, and the MAC PDU fits into
the grant. -/
structure Granted (bytes : ℕ) (r : UeUplink × List GrantReport) : Prop where
  agree : Agree r.1
  reports : ∀ g ∈ r.2, g.grantedBytes = bytes ∧ (∀ q ∈ g.requests, q.sduSize ≤ q.scheduled) ∧
    (g.pdus ≠ [] → g.macPduLength ≤ bytes)

/-- Who asks for what. -/
theorem mem_of_requests {requests : List SduRequest} {rs : List (ℕ × ℕ)}
    (hperm : (requests.map fun r => (r.cid, r.sduSize)).Perm rs) :
    (∀ q ∈ requests, (q.cid, q.sduSize) ∈ rs) ∧
      (requests.map SduRequest.cid).Perm (rs.map Prod.fst) := by
  have hcids := hperm.map Prod.fst
  rw [List.map_map] at hcids
  exact ⟨fun q hq => hperm.mem_iff.1 (List.mem_map.2 ⟨q, hq, rfl⟩), hcids⟩

/-- MAC and RLC agree on what is left when all the requests have been answered. -/
theorem agree_of_answered {s : UeUplink} (h : Agree s) {st st' : LcgState} {rs : List (ℕ × ℕ)}
    {es : List Scheduled} {requests : List SduRequest} {tx' : ℕ → UmTxEntity}
    {ps : List UmDataPdu}
    (hperm : (requests.map fun r => (r.cid, r.sduSize)).Perm rs)
    (hle : ∀ e ∈ rs, e.2 ≤ (s.txEntity e.1).backlog + RLC_HEADER_UM)
    (hbuffers : st.macBuffers = s.macBuffers)
    (hshared : SharedOut (fun c => (s.txEntity c).backlog) rs es st st')
    (hans : Answered requests s.txEntity tx' ps) :
    Agree { s with macBuffers := st'.macBuffers, txEntity := tx' } := by
  obtain ⟨hmem, hcids⟩ := mem_of_requests hperm
  have hcase : ∀ c, (∃ q ∈ requests, q.cid = c) ∨ c ∉ rs.map Prod.fst := by
    intro c
    by_cases hc : c ∈ rs.map Prod.fst
    · obtain ⟨q, hq, rfl⟩ := List.mem_map.1 (hcids.mem_iff.2 hc)
      exact .inl ⟨q, hq, rfl⟩
    · exact .inr hc
  have hsame : ∀ c, c ∉ rs.map Prod.fst → tx' c = s.txEntity c := fun c hc =>
    hans.others c fun hc' => hc (hcids.mem_iff.1 hc')
  refine ⟨h.nodup, fun c => ?_, fun c => ?_, fun c => ?_⟩
  · rcases hcase c with ⟨q, hq, rfl⟩ | hc
    · exact (hans.asked q hq).1
    · simp only [hsame c hc]
      exact h.sound c
  · rcases hcase c with ⟨q, hq, rfl⟩ | hc
    · have hmac := hshared.served _ (hmem q hq)
      have hrlc := (hans.asked q hq).2
      have := hle _ (hmem q hq)
      simp only at hmac this ⊢
      omega
    · simp only [hsame c hc, hshared.others c hc, hbuffers]
      exact h.agree c
  · have hlt := h.lt c
    rcases hcase c with ⟨q, hq, rfl⟩ | hc
    · have hrlc := (hans.asked q hq).2
      simp only
      omega
    · simp only [hsame c hc]
      exact hlt

/-- The MAC PDU fits into the grant, if there is one. -/
theorem macPduLength_le {bytes : ℕ} {rs : List (ℕ × ℕ)} {requests : List SduRequest}
    {tx tx' : ℕ → UmTxEntity} {ps : List UmDataPdu}
    (hperm : (requests.map fun r => (r.cid, r.sduSize)).Perm rs)
    (htotal : (rs.map Prod.snd).sum ≤ bytes - MAC_HEADER)
    (hroom : requests ≠ [] → MAC_HEADER ≤ bytes) (hans : Answered requests tx tx' ps)
    (hne : ps ≠ []) : (⟨bytes, requests, ps⟩ : GrantReport).macPduLength ≤ bytes := by
  have hbytes := hans.bytes
  -- there is a PDU, so the grant has room for the header
  have hsome : requests ≠ [] := by
    rintro rfl
    obtain ⟨p, ps', rfl⟩ := List.exists_cons_of_ne_nil hne
    rw [List.map_cons, List.sum_cons, UmDataPdu.byteLength] at hbytes
    simp [RLC_HEADER_UM] at hbytes
  have hheader := hroom hsome
  have hsum : (requests.map SduRequest.sduSize).sum = (rs.map Prod.snd).sum := by
    have := (hperm.map Prod.snd).sum_nat
    rwa [List.map_map] at this
  unfold GrantReport.macPduLength
  simp only
  omega

theorem agree_grant {s : UeUplink} (h : Agree s) {bytes : ℕ} {dir : FlowDirection}
    (hok : Event.Ok s (.grant bytes dir)) :
    ∃ r, s.handleGrant bytes dir = some r ∧ Granted bytes r := by
  have hactive := active_eq h dir
  obtain ⟨st, rs, hrs, hfold, hshared⟩ := visits_first_spec dir
    (fun c => (s.txEntity c).backlog)
    { availableBytes := bytes, macBuffers := s.macBuffers } (visits s.lcgMap)
    (visits_nodup h.nodup) rfl (fun c _ => h.agree c.cid) h.lt (fun hne => by
      obtain ⟨c, hc⟩ := List.exists_mem_of_ne_nil _ hne
      exact (hok c.cid (hactive ▸ List.mem_map_of_mem hc)).1)
  -- the entries of the list are those of the active connections
  have hfst : rs.map Prod.fst = s.active dir := by rw [hrs, shares_map_fst, hactive]
  have hle : ∀ e ∈ rs, e.2 ≤ (s.txEntity e.1).backlog + RLC_HEADER_UM := by
    rw [hrs]
    exact shares_le _ _ _
  obtain ⟨hperm, hnowrap⟩ := requests_spec rs
    (by rw [hfst]; exact fun c hc => (hok c hc).2)
    (fun e he => by have := hle e he; have := h.lt e.1; omega)
  have hlist : st.scheduleList = chargeFirst rs := by simpa using hshared.list
  -- sorted by cid, each entry becomes a request to RLC
  obtain ⟨requests, hreq⟩ : ∃ q, q = macSduRequest true (sortByCid (chargeFirst rs)) := ⟨_, rfl⟩
  rw [← hreq] at hperm hnowrap
  obtain ⟨hmem, hcids⟩ := mem_of_requests hperm
  have hnodup : (rs.map Prod.fst).Nodup := by
    rw [hfst, hactive]
    exact (visits_nodup h.nodup).sublist (List.filter_sublist.map _)
  obtain ⟨tx', ps, hreply, hans⟩ := replies_spec requests
    (hcids.nodup_iff.2 hnodup) s.txEntity [] (fun q _ => h.sound q.cid) (fun q hq => by
      have hq' : q.sduSize ≤ (s.txEntity q.cid).backlog + RLC_HEADER_UM := hle _ (hmem q hq)
      have := h.lt q.cid
      omega)
  refine ⟨({ s with macBuffers := st.macBuffers, txEntity := tx' }, [⟨bytes, requests, ps⟩]), ?_,
    agree_of_answered h hperm hle rfl hshared hans, fun g hg => ?_⟩
  · simp only [handleGrant, schedule, hfold, hlist]
    rw [← hreq, hreply]
    simp
  · obtain rfl := List.mem_singleton.1 hg
    refine ⟨rfl, hnowrap, macPduLength_le hperm ?_ (fun hne => ?_) hans⟩
    · rw [hrs]
      exact shares_sum_le _ _ _
    · obtain ⟨q, hq⟩ := List.exists_mem_of_ne_nil _ hne
      exact (hok q.cid (hfst ▸ List.mem_map_of_mem (hmem q hq))).1

/-- One event: it does not throw, and MAC and RLC still agree. -/
theorem agree_handle {s : UeUplink} (h : Agree s) {e : Event} (hok : e.Ok s) :
    ∃ s' os, s.handle e = some (s', os) ∧ Agree s' ∧
      ∀ g ∈ os, (∀ q ∈ g.requests, q.sduSize ≤ q.scheduled) ∧
        (g.pdus ≠ [] → g.macPduLength ≤ g.grantedBytes) := by
  cases e with
  | sdu c pkt => exact ⟨_, [], rfl, agree_sdu h hok, fun g hg => by cases hg⟩
  | grant bytes dir =>
    obtain ⟨⟨s', os⟩, hgrant, hagree, hreports⟩ := agree_grant h hok
    refine ⟨s', os, hgrant, hagree, fun g hg => ?_⟩
    obtain ⟨hbytes, hrest⟩ := hreports g hg
    rw [hbytes]
    exact hrest

/-- **MAC and RLC agree on the backlog** after every run in which each grant has room for the MAC
header and meets first, by traffic class, the backlogged connection with the smallest id.  No
request has wrapped, no MAC PDU is larger than its grant, and nothing throws. -/
theorem backlog_kept {queueSize : ℕ} {es : List Event} {s : UeUplink} {os : List GrantReport}
    (hrun : machine.exec (initial queueSize) es = some (s, os))
    (hok : ∀ s e s' o, machine.Takes (initial queueSize) es s e s' o → e.Ok s) :
    (∀ c, (s.macBuffers c).queueOccupancy = (s.txEntity c).backlog) ∧
    (∀ g ∈ os, (∀ q ∈ g.requests, q.sduSize ≤ q.scheduled) ∧
      (g.pdus ≠ [] → g.macPduLength ≤ g.grantedBytes)) ∧
    ∀ e : Event, e.Ok s → (s.handle e).isSome := by
  have hinv : Agree s ∧ ∀ g ∈ os, (∀ q ∈ g.requests, q.sduSize ≤ q.scheduled) ∧
      (g.pdus ≠ [] → g.macPduLength ≤ g.grantedBytes) := by
    refine Machine.exec_induction (J := fun es s os =>
      (∀ s e s' o, machine.Takes (initial queueSize) es s e s' o → e.Ok s) → Agree s ∧
        ∀ g ∈ os, (∀ q ∈ g.requests, q.sduSize ≤ q.scheduled) ∧
          (g.pdus ≠ [] → g.macPduLength ≤ g.grantedBytes))
      (fun _ => ⟨agree_initial queueSize, fun g hg => by cases hg⟩) ?_ hrun hok
    intro es s os e s' o hex ih hstep hok
    obtain ⟨hagree, hold⟩ := ih fun s e s' o ht => hok s e s' o ht.append_right
    obtain ⟨s₁, o₁, hhandle, hagree', hnew⟩ :=
      agree_handle hagree (hok s e s' o (Machine.takes_concat hex hstep))
    have heq : some (s₁, o₁) = some (s', o) := hhandle.symm.trans hstep
    obtain ⟨rfl, rfl⟩ := Prod.mk.inj (Option.some.inj heq)
    refine ⟨hagree', fun g hg => ?_⟩
    rcases List.mem_append.1 hg with hg | hg
    · exact hold g hg
    · exact hnew g hg
  refine ⟨fun c => ?_, hinv.2, fun e he => ?_⟩
  · have hlt := hinv.1.lt c
    exact occupancy_eq (hinv.1.agree c) (by omega)
  · obtain ⟨s', o, hhandle, -⟩ := agree_handle hinv.1 he
    rw [hhandle]
    rfl

/-- An SDU of `n + 1` bytes. -/
def sduOf (sno n : ℕ) (h : n + 1 < 2147483648) : RlcSdu := ⟨sno, n + 1, n + 2, Nat.succ_pos n, h⟩

/-- Two connections: the first by traffic class has the id `i`, the second the id `j`. -/
def twoSdus (i j : ℕ) : List Event :=
  [.sdu ⟨i, .CONVERSATIONAL, .UL⟩ (sduOf 1 99 (by decide)),
    .sdu ⟨j, .BACKGROUND, .UL⟩ (sduOf 1 29 (by decide))]

theorem backlog_kept_two_grants :
    ∃ s os, machine.exec (initial 0) (twoSdus 1 2 ++ [.grant 10 .UL, .grant 120 .UL]) =
        some (s, os) ∧
      ∀ c, (s.macBuffers c).queueOccupancy = (s.txEntity c).backlog := by
  have hsome : (machine.exec (initial 0)
    (twoSdus 1 2 ++ [.grant 10 .UL, .grant 120 .UL])).isSome := by decide +kernel
  obtain ⟨⟨s, os⟩, hrun⟩ := Option.isSome_iff_exists.1 hsome
  have hmeets : machine.Meets (fun s e => Event.Ok s e) (initial 0)
    (twoSdus 1 2 ++ [.grant 10 .UL, .grant 120 .UL]) := by decide +kernel
  exact ⟨s, os, hrun, (backlog_kept hrun fun s e s' o ht => hmeets.takes ht).1⟩

/-- With the ids the other way round, the second connection is asked for `2 ^ 32 - 2` bytes, RLC
sends two bytes more of the first than the MAC has taken off, and the MAC PDU has 12 bytes in a
grant of 10. -/
theorem header_charged_twice :
    ((machine.exec (initial 0) (twoSdus 2 1 ++ [.grant 10 .UL])).map fun r =>
      ((r.1.macBuffers 2).queueOccupancy, (r.1.txEntity 2).backlog,
        r.2.map fun g => (g.requests.map (·.sduSize), g.macPduLength))) =
      some (94, 92, [([4294967294, 10], 12)]) := by
  decide +kernel

end UeUplink

end V2nLte
