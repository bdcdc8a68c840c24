import V2nLte.Mac.DlRequests

/-!
# From the downlink scheduler into the H-ARQ buffers

In a TTI the eNB schedules, asks the RLC for SDUs, makes a PDU of each answer and puts it into an
H-ARQ unit of the UE; at the end of the TTI the selected units are sent.  Feedback comes at any
time.

`checkEligibility` asks `firstAvailable` for a free codeword.  The answer `HARQ_NONE`, which is
given when every process is in use, is taken for a UE without a buffer: such a UE gets its grant,
its virtual buffer is consumed, and `macPduMake` finds no codeword and deletes the PDU.

* `Ready` : the invariant.
* `pdu_inserted_iff` : the PDU of an answer is inserted iff the UE has an empty process.
* `pdu_deleted` : with all the processes waiting for feedback it is deleted.
-/

namespace V2nLte

/-- `ENB_TX_HARQ_PROCESSES`. -/
def ENB_TX_HARQ_PROCESSES : ℕ := 8

/-- The parameters of the MAC of an eNB. -/
structure DlMacParams where
  /-- How often a PDU is sent again. -/
  maxHarqRtx : ℕ
  /-- The size of the queues of MAC SDUs, `0` if it is not limited. -/
  queueSize : ℕ

/-- What can be seen of the downlink side. -/
inductive DlOutput where
  /-- A PDU is in a unit of a H-ARQ process. -/
  | inserted (destId : MacNodeId) (acid cw : ℕ)
  /-- A PDU is deleted: "no available process for this MAC pdu in TxHarqBuffer". -/
  | deleted (destId : MacNodeId)
  deriving DecidableEq

/-- The downlink side of `LteMacEnb`. -/
structure DlMac where
  /-- The downlink scheduler. -/
  sched : LteSchedulerEnb
  /-- The H-ARQ buffers of the UEs. -/
  harqTxBuffers : HarqTxBuffers := []
  /-- The MAC SDUs of a connection, by their sizes. -/
  mbuf : MacCid → List ℕ := fun _ => []
  /-- The SDU requests that the RLC has not answered yet. -/
  requests : List MacCid := []
  /-- The flush of this TTI is to come. -/
  scheduled : Bool := false

/-- What happens on the downlink side. -/
inductive DlEvent where
  /-- The RLC has new data for a connection. -/
  | newData (cid : MacCid) (bytes : ℕ)
  /-- The downlink part of the main loop, with the calls of the scheduling discipline. -/
  | schedule (D : DlEnv) (resourceBlocks : ℕ) (calls : List DlEnv.DlCall)
  /-- The RLC answers a request with an SDU; `buffered` says whether the queue of the connection
  takes it. -/
  | reply (cid : MacCid) (sdu pduId : ℕ) (buffered : Bool)
  /-- The RLC has no SDU that fits. -/
  | noReply (cid : MacCid)
  /-- The end of the TTI. -/
  | flushHarqBuffers
  | harqFeedback (src : MacNodeId) (acid cw pduId : ℕ) (ack : Bool)
  | deleteQueues (nodeId : MacNodeId)

namespace DlMac

/-! ### The PDUs -/

/-- The first loop of `macPduMake`, over the entries of a connection in the schedule list: the SDUs
that are left and the PDUs. -/
def buildPdus (entries : ℕ → Option ℕ) (pduId : ℕ) :
    List ℕ → List ℕ → Except HarqError (List ℕ × List MacPdu)
  | [], queue => .ok (queue, [])
  | cw :: cws, queue =>
    match entries cw with
    | none => buildPdus entries pduId cws queue
    | some sduPerCid =>
      -- the RLC has not sent any data
      if queue = [] then .ok (queue, [])
      else if queue.length < sduPerCid then .error .abnormalQueueLength
      else do
        let (queue', pdus) ← buildPdus entries pduId cws (queue.drop sduPerCid)
        let pdu : MacPdu :=
          { id := pduId + cw, byteLength := MAC_HEADER + (queue.take sduPerCid).sum, cw := cw }
        return (queue', if sduPerCid = 0 then pdus else pdu :: pdus)

/-- The second loop of `macPduMake`, for one PDU. -/
def storePdu (m : HarqTxBuffers) (destId : MacNodeId) (pdu : MacPdu) :
    Except HarqError (HarqTxBuffers × DlOutput) :=
  let txBuf := (m.find destId).getD { numProc := ENB_TX_HARQ_PROCESSES }
  let (acid, cws) := txBuf.firstAvailable
  if cws = [] then .ok (m.put destId txBuf, .deleted destId)
  else if acid = HARQ_NONE then .error .voidProcess
  else do
    let txBuf ← txBuf.insertPdu acid pdu.cw pdu
    return (m.put destId txBuf, .inserted destId acid pdu.cw)

/-- The second loop of `macPduMake`. -/
def storePdus (destId : MacNodeId) :
    List MacPdu → HarqTxBuffers → Except HarqError (HarqTxBuffers × List DlOutput)
  | [], m => .ok (m, [])
  | pdu :: pdus, m => do
    let (m', o) ← storePdu m destId pdu
    let (m'', os) ← storePdus destId pdus m'
    return (m'', o :: os)

/-- `macPduMake`. -/
def macPduMake (s : DlMac) (cid : MacCid) (pduId : ℕ) :
    Except HarqError (DlMac × List DlOutput) := do
  let (queue, pdus) ←
    buildPdus (s.sched.scheduleList cid) pduId (List.range MAX_CODEWORDS) (s.mbuf cid)
  let (m, os) ← storePdus (MacCidToNodeId cid) pdus s.harqTxBuffers
  return ({ s with mbuf := Function.update s.mbuf cid queue, harqTxBuffers := m }, os)

/-- `handleUpperMessage` for a MAC SDU. -/
def handleSdu (s : DlMac) (cid : MacCid) (sdu pduId : ℕ) (buffered : Bool) :
    Except HarqError (DlMac × List DlOutput) :=
  let queue := if buffered then s.mbuf cid ++ [sdu] else s.mbuf cid
  macPduMake { s with mbuf := Function.update s.mbuf cid queue } cid pduId

/-! ### The main loop -/

/-- The connections in the schedule list, which has entries for the codeword `0` of connections
that `scheduleGrant` has been called for. -/
def listedCids (s : LteSchedulerEnb) (cids : List MacCid) : List MacCid :=
  cids.dedup.filter fun cid => (s.scheduleList cid 0).isSome

/-- The downlink part of `handleSelfMessage`: schedule and ask for SDUs. -/
def scheduleDl (P : DlMacParams) (s : DlMac) (D : DlEnv) (resourceBlocks : ℕ)
    (calls : List DlEnv.DlCall) : Option DlMac :=
  match D.rtxschedule ⟨s.sched.startTti resourceBlocks D.env.numBands, s.harqTxBuffers⟩ with
  | .error _ => none
  | .ok (st, full) =>
    -- without free blocks there are no grants
    match (D.dlCalls st.harqTxBuffers).exec st.sched (if full then [] else calls) with
    | none => none
    | some (sched, _) =>
      let requests := listedCids sched (calls.map (·.cid))
      -- "configured queueSize too low"
      if P.queueSize ≠ 0 ∧
          requests.any fun cid => P.queueSize < sched.sduSize D.env.numBands cid then none
      else
        some { s with
          sched := sched
          harqTxBuffers := st.harqTxBuffers
          requests := requests
          scheduled := true }

/-- Append a virtual packet to the virtual buffer of a connection. -/
def bufferizeNewData (s : LteSchedulerEnb) (cid : MacCid) (bytes : ℕ) : LteSchedulerEnb :=
  { s with
    vbuf := Function.update s.vbuf cid (some ⟨((s.vbuf cid).elim [] (·.queue)) ++ [bytes]⟩) }

/-- The downlink side as a machine.  A handler that throws ends the run. -/
def machine (P : DlMacParams) : Machine DlMac DlEvent DlOutput where
  step s
    | .newData cid bytes => some ({ s with sched := bufferizeNewData s.sched cid bytes }, [])
    | .schedule D resourceBlocks calls =>
      if s.scheduled ∨ D.env.direction ≠ .DL then none
      else (scheduleDl P s D resourceBlocks calls).map fun s' => (s', [])
    | .reply cid sdu pduId buffered =>
      if cid ∉ s.requests then none
      else
        match handleSdu s cid sdu pduId buffered with
        | .error _ => none
        | .ok (s', os) => some ({ s' with requests := s.requests.erase cid }, os)
    | .noReply cid =>
      if cid ∉ s.requests then none else some ({ s with requests := s.requests.erase cid }, [])
    | .flushHarqBuffers =>
      -- the requests are answered before, the message of the flush has a lower priority
      if ¬s.scheduled ∨ s.requests ≠ [] then none
      else
        match s.harqTxBuffers.mapM fun b => (b.sendSelectedDown).map Prod.fst with
        | .error _ => none
        | .ok m => some ({ s with harqTxBuffers := m, scheduled := false }, [])
    | .harqFeedback src acid cw pduId ack =>
      match s.harqTxBuffers.find src with
      | none => some (s, [])
      | some b =>
        match b.receiveHarqFeedback P.maxHarqRtx acid cw pduId ack with
        | .error _ => none
        | .ok b' => some ({ s with harqTxBuffers := s.harqTxBuffers.put src b' }, [])
    | .deleteQueues nodeId =>
      some ({ s with
        sched := { s.sched with
          vbuf := fun cid => if MacCidToNodeId cid = nodeId then none else s.sched.vbuf cid }
        mbuf := fun cid => if MacCidToNodeId cid = nodeId then [] else s.mbuf cid
        harqTxBuffers := s.harqTxBuffers.erase nodeId }, [])

/-- The downlink side at the start. -/
def initial : DlMac where
  sched := { allocator := .initAndReset 0 0 }

/-! ### The invariant -/

variable {P : DlMacParams} {s s' : DlMac} {cid : MacCid} {sdu pduId : ℕ} {buffered : Bool}
  {m m' : HarqTxBuffers} {destId n : MacNodeId} {pdu : MacPdu} {o : DlOutput}

/-- The UE has no H-ARQ buffer yet, or one of its processes is empty. -/
def HasProcess (s : DlMac) (n : MacNodeId) : Prop := ∀ b ∈ s.harqTxBuffers.find n, b.HasEmpty

/-- What holds between the handlers.  A UE whose data has been asked for has no process selected in
this TTI, be it for a retransmission or for another connection. -/
structure Ready (s : DlMac) : Prop where
  wf : ∀ n, ∀ b ∈ s.harqTxBuffers.find n, b.Wf
  idle : s.scheduled = false → s.requests = [] ∧
    ∀ n, ∀ b ∈ s.harqTxBuffers.find n, b.selectedAcid = HARQ_NONE
  /-- One SDU for the first codeword. -/
  listed : ∀ cid ∈ s.requests, ∀ cw, s.sched.scheduleList cid cw = if cw = 0 then some 1 else none
  free : ∀ cid ∈ s.requests, ∀ b ∈ s.harqTxBuffers.find (MacCidToNodeId cid),
    b.selectedAcid = HARQ_NONE
  distinct : (s.requests.map MacCidToNodeId).Nodup

theorem ready_initial : Ready initial where
  wf _ _ h := nomatch h
  idle _ := ⟨rfl, fun _ _ h => nomatch h⟩
  listed _ h := nomatch h
  free _ h := nomatch h
  distinct := List.nodup_nil

/-- The buffer that a PDU for a UE is put into. -/
def txBuf (m : HarqTxBuffers) (destId : MacNodeId) : LteHarqBufferTx :=
  (m.find destId).getD { numProc := ENB_TX_HARQ_PROCESSES }

theorem wf_txBuf (h : ∀ n, ∀ b ∈ m.find n, b.Wf) (destId : MacNodeId) : (txBuf m destId).Wf := by
  unfold txBuf
  cases hfind : m.find destId with
  | none => exact LteHarqBufferTx.wf_new (by decide)
  | some b => exact h destId b hfind

theorem storePdu_frame (h : ∀ n, ∀ b ∈ m.find n, b.Wf) (hm : storePdu m destId pdu = .ok (m', o)) :
    (∀ n, ∀ b ∈ m'.find n, b.Wf) ∧ ∀ n, n ≠ destId → m'.find n = m.find n := by
  have hput : ∀ b : LteHarqBufferTx, b.Wf →
      (∀ n, ∀ c ∈ (m.put destId b).find n, c.Wf) ∧
        ∀ n, n ≠ destId → (m.put destId b).find n = m.find n := by
    intro b hb
    refine ⟨fun n c hc => ?_, fun n hn => ?_⟩
    · rw [OrderedMap.find_put] at hc
      split at hc
      · cases hc
        exact hb
      · exact h n c hc
    · rw [OrderedMap.find_put, if_neg hn]
  have hbuf := wf_txBuf h destId
  rw [storePdu] at hm
  change (if (txBuf m destId).firstAvailable.2 = [] then _ else _) = _ at hm
  split at hm
  · cases hm
    exact hput _ hbuf
  split at hm
  · cases hm
  · obtain ⟨b, hb, hm⟩ := bind_eq_ok.1 hm
    cases hm
    exact hput b (hbuf.insertPdu hb)

theorem storePdus_frame {pdus : List MacPdu} {os : List DlOutput}
    (h : ∀ n, ∀ b ∈ m.find n, b.Wf) (hm : storePdus destId pdus m = .ok (m', os)) :
    (∀ n, ∀ b ∈ m'.find n, b.Wf) ∧ ∀ n, n ≠ destId → m'.find n = m.find n := by
  induction pdus generalizing m os with
  | nil =>
    cases hm
    exact ⟨h, fun _ _ => rfl⟩
  | cons pdu pdus ih =>
    obtain ⟨⟨m₁, o₁⟩, hm₁, hm⟩ := bind_eq_ok.1 hm
    obtain ⟨⟨m₂, os₂⟩, hm₂, hm⟩ := bind_eq_ok.1 hm
    cases hm
    obtain ⟨hwf₁, hsame₁⟩ := storePdu_frame h hm₁
    obtain ⟨hwf₂, hsame₂⟩ := ih hwf₁ hm₂
    exact ⟨hwf₂, fun n hn => (hsame₂ n hn).trans (hsame₁ n hn)⟩

theorem handleSdu_frame {os : List DlOutput} (h : ∀ n, ∀ b ∈ s.harqTxBuffers.find n, b.Wf)
    (hs' : handleSdu s cid sdu pduId buffered = .ok (s', os)) :
    s'.sched = s.sched ∧ s'.scheduled = s.scheduled ∧
      (∀ n, ∀ b ∈ s'.harqTxBuffers.find n, b.Wf) ∧
      ∀ n, n ≠ MacCidToNodeId cid → s'.harqTxBuffers.find n = s.harqTxBuffers.find n := by
  rw [handleSdu, macPduMake] at hs'
  obtain ⟨⟨queue, pdus⟩, -, hs'⟩ := bind_eq_ok.1 hs'
  obtain ⟨⟨m, os'⟩, hm, hs'⟩ := bind_eq_ok.1 hs'
  cases hs'
  exact ⟨rfl, rfl, storePdus_frame h hm⟩

/-- **After scheduling** the requests are for different UEs without a selected process. -/
theorem scheduleDl_ready {D : DlEnv} {resourceBlocks : ℕ} {calls : List DlEnv.DlCall}
    (h : Ready s) (hidle : s.scheduled = false) (hdir : D.env.direction = .DL)
    (hs' : scheduleDl P s D resourceBlocks calls = some s') : Ready s' := by
  obtain ⟨hnoreq, hnone⟩ := h.idle hidle
  rw [scheduleDl] at hs'
  split at hs'
  · cases hs'
  rename_i st full hrtx
  split at hs'
  · cases hs'
  rename_i sched reports hrun
  dsimp only at hs'
  split at hs'
  · cases hs'
  cases hs'
  have hrt := DlEnv.rtxschedule_retransmitted hrtx
  have hempty : ∀ cid cw, st.sched.scheduleList cid cw = none := fun cid cw => by rw [hrt.list]; rfl
  have hentry := DlEnv.oneEntry_of_exec hdir hempty hrun
  have hsome : ∀ cid ∈ listedCids sched (calls.map (·.cid)), (sched.scheduleList cid 0).isSome :=
    fun cid hcid => (List.mem_filter.1 hcid).2
  refine ⟨hrt.wf h.wf, nofun, fun cid hcid cw => ?_, fun cid hcid b hb => ?_, ?_⟩
  · obtain ⟨k, hk⟩ := Option.isSome_iff_exists.1 (hsome cid hcid)
    split <;> rename_i hcw
    · rw [hcw, hk, (hentry.listed cid 0 k hk).2.1]
    · cases hlist : sched.scheduleList cid cw with
      | none => rfl
      | some k' => exact absurd (hentry.listed cid cw k' hlist).1 hcw
  · obtain ⟨k, hk⟩ := Option.isSome_iff_exists.1 (hsome cid hcid)
    -- the UE has had no codeword before the grants, so its buffer is the one of before
    rcases (hrt.buffers _ (hentry.listed cid 0 k hk).2.2).2 with hfind | hleft
    · exact hnone _ b (hfind ▸ hb)
    · exact nomatch hleft.symm.trans hb
  · refine List.Nodup.map_on (fun cid hcid cid' hcid' hnode => ?_)
      ((List.nodup_dedup _).filter _)
    exact hentry.unique cid cid' 0 0 (hsome cid hcid) (hsome cid' hcid') hnode

theorem Ready.answer (h : Ready s) (hcid : cid ∈ s.requests) (hsched : s'.sched = s.sched)
    (hscheduled : s'.scheduled = s.scheduled) (hwf : ∀ n, ∀ b ∈ s'.harqTxBuffers.find n, b.Wf)
    (hsame : ∀ n, n ≠ MacCidToNodeId cid → s'.harqTxBuffers.find n = s.harqTxBuffers.find n) :
    Ready { s' with requests := s.requests.erase cid } := by
  have hnodup : s.requests.Nodup := h.distinct.of_map _
  refine ⟨hwf, fun hidle => ?_, fun c hc => ?_, fun c hc => ?_, ?_⟩
  · rw [(h.idle (hscheduled.symm.trans hidle)).1] at hcid
    cases hcid
  · rw [hsched]
    exact h.listed c (List.mem_of_mem_erase hc)
  · obtain ⟨hne, hmem⟩ := (hnodup.mem_erase_iff).1 hc
    have hnode : MacCidToNodeId c ≠ MacCidToNodeId cid := fun heq =>
      hne (List.inj_on_of_nodup_map h.distinct hmem hcid heq)
    intro b hb
    rw [hsame _ hnode] at hb
    exact h.free c hmem b hb
  · exact h.distinct.sublist ((List.erase_sublist).map _)

theorem Ready.congr (h : Ready s) (hlist : s'.sched.scheduleList = s.sched.scheduleList)
    (hreq : s'.requests = s.requests) (hscheduled : s'.scheduled = s.scheduled)
    (hwf : ∀ n, ∀ b ∈ s'.harqTxBuffers.find n, b.Wf)
    (hsel : ∀ n, ∀ b' ∈ s'.harqTxBuffers.find n,
      ∃ b ∈ s.harqTxBuffers.find n, b'.selectedAcid = b.selectedAcid) : Ready s' := by
  have hnone : ∀ n, (∀ b ∈ s.harqTxBuffers.find n, b.selectedAcid = HARQ_NONE) →
      ∀ b' ∈ s'.harqTxBuffers.find n, b'.selectedAcid = HARQ_NONE := by
    intro n hn b' hb'
    obtain ⟨b, hb, heq⟩ := hsel n b' hb'
    exact heq.trans (hn b hb)
  refine ⟨hwf, fun hidle => ?_, fun cid hcid => ?_, fun cid hcid => ?_, hreq ▸ h.distinct⟩
  · obtain ⟨hnoreq, hbufs⟩ := h.idle (hscheduled ▸ hidle)
    exact ⟨hreq.trans hnoreq, fun n => hnone n (hbufs n)⟩
  · rw [hlist]
    exact h.listed cid (hreq ▸ hcid)
  · exact hnone _ (h.free cid (hreq ▸ hcid))

theorem Ready.flush (h : Ready s) (hreq : s.requests = [])
    (hm : (s.harqTxBuffers.mapM fun b => (b.sendSelectedDown).map Prod.fst) = .ok m) :
    Ready { s with harqTxBuffers := m, scheduled := false } := by
  have hbuf : ∀ n, ∀ b ∈ m.find n, b.Wf ∧ b.selectedAcid = HARQ_NONE := by
    intro n b hb
    rcases OrderedMap.find_mapM hm n with ⟨-, hnone⟩ | ⟨b₀, b₁, hb₀, hb₁, hsend⟩
    · exact nomatch hnone.symm.trans hb
    · cases hb₁.symm.trans hb
      cases hcall : b₀.sendSelectedDown with
      | error e =>
        rw [hcall] at hsend
        cases hsend
      | ok r =>
        rw [hcall] at hsend
        cases hsend
        exact (h.wf n b₀ hb₀).sendSelectedDown hcall
  refine ⟨fun n b hb => (hbuf n b hb).1, fun _ => ⟨hreq, fun n b hb => (hbuf n b hb).2⟩, ?_, ?_,
    h.distinct⟩
  · exact h.listed
  · intro cid hcid
    rw [hreq] at hcid
    cases hcid

/-- **One handler.** -/
theorem Ready.step (h : Ready s) {e : DlEvent} {os : List DlOutput}
    (hst : (machine P).step s e = some (s', os)) : Ready s' := by
  cases e with
  | newData cid bytes =>
    cases hst
    exact h.congr rfl rfl rfl h.wf fun n b hb => ⟨b, hb, rfl⟩
  | schedule D resourceBlocks calls =>
    simp only [machine] at hst
    split at hst <;> rename_i hoff
    · cases hst
    · obtain ⟨hidle, hdir⟩ := not_or.1 hoff
      obtain ⟨s₁, hs₁, hst⟩ := Option.map_eq_some_iff.1 hst
      cases hst
      exact scheduleDl_ready h (Bool.eq_false_iff.2 hidle) (not_not.1 hdir) hs₁
  | reply cid sdu pduId buffered =>
    simp only [machine] at hst
    split at hst <;> rename_i hreq
    · cases hst
    split at hst
    · cases hst
    rename_i s₁ os₁ hs₁
    cases hst
    obtain ⟨hsched, hscheduled, hwf, hsame⟩ := handleSdu_frame h.wf hs₁
    exact h.answer (not_not.1 hreq) hsched hscheduled hwf hsame
  | noReply cid =>
    simp only [machine] at hst
    split at hst <;> rename_i hreq
    · cases hst
    cases hst
    exact h.answer (not_not.1 hreq) rfl rfl h.wf fun _ _ => rfl
  -- the selected processes are sent at the end of the TTI
  | flushHarqBuffers =>
    simp only [machine] at hst
    split at hst <;> rename_i hoff
    · cases hst
    split at hst
    · cases hst
    rename_i m hm
    cases hst
    exact h.flush (not_not.1 (not_or.1 hoff).2) hm
  | harqFeedback src acid cw pduId ack =>
    simp only [machine] at hst
    split at hst
    · cases hst
      exact h
    rename_i b hb
    split at hst
    · cases hst
    rename_i b' hb'
    cases hst
    obtain ⟨hwf, hsel⟩ := (h.wf src b hb).receiveHarqFeedback hb'
    -- feedback changes one buffer, and no selection
    have hput : ∀ n, ∀ c ∈ (s.harqTxBuffers.put src b').find n,
        c.Wf ∧ ∃ c₀ ∈ s.harqTxBuffers.find n, c.selectedAcid = c₀.selectedAcid := by
      intro n c hc
      rw [OrderedMap.find_put] at hc
      split at hc <;> rename_i hn
      · cases hc
        exact ⟨hwf, b, hn ▸ hb, hsel⟩
      · exact ⟨h.wf n c hc, c, hc, rfl⟩
    exact h.congr rfl rfl rfl (fun n c hc => (hput n c hc).1) fun n c hc => (hput n c hc).2
  | deleteQueues nodeId =>
    cases hst
    have herase : ∀ n, ∀ c ∈ (s.harqTxBuffers.erase nodeId).find n,
        c ∈ s.harqTxBuffers.find n := by
      intro n c hc
      rw [OrderedMap.find_erase] at hc
      split at hc
      · cases hc
      · exact hc
    exact h.congr rfl rfl rfl (fun n c hc => h.wf n c (herase n c hc))
      fun n c hc => ⟨c, herase n c hc, rfl⟩

/-- **Every reachable state is ready.** -/
theorem ready_of_exec {es : List DlEvent} {os : List DlOutput}
    (hrun : (machine P).exec initial es = some (s, os)) : Ready s :=
  Machine.exec_invariant (I := Ready) ready_initial (fun _ _ _ _ h hst => h.step hst) hrun

/-! ### The fate of a PDU -/

/-- A PDU for the first codeword of a UE without a selected process goes into the first empty
process, or it is deleted if there is none. -/
theorem storePdu_eq (pdu : MacPdu) (h : ∀ n, ∀ b ∈ m.find n, b.Wf)
    (hnone : ∀ b ∈ m.find destId, b.selectedAcid = HARQ_NONE) (hpdu : pdu.cw = 0) :
    ((∀ b ∈ m.find destId, b.HasEmpty) ∧
      ∃ m' acid, storePdu m destId pdu = .ok (m', .inserted destId acid 0)) ∨
    ((∃ b ∈ m.find destId, ¬b.HasEmpty) ∧
      ∃ m', storePdu m destId pdu = .ok (m', .deleted destId)) := by
  have hwf := wf_txBuf h destId
  have hsel : (txBuf m destId).selectedAcid = HARQ_NONE := by
    unfold txBuf
    cases hfind : m.find destId with
    | none => rfl
    | some b => exact hnone b hfind
  have hstore : storePdu m destId pdu =
      if (txBuf m destId).firstAvailable.2 = [] then
        .ok (m.put destId (txBuf m destId), .deleted destId)
      else if (txBuf m destId).firstAvailable.1 = HARQ_NONE then .error .voidProcess
      else do
        let b ← (txBuf m destId).insertPdu (txBuf m destId).firstAvailable.1 pdu.cw pdu
        return (m.put destId b, .inserted destId (txBuf m destId).firstAvailable.1 pdu.cw) := rfl
  by_cases hempty : (txBuf m destId).HasEmpty
  · obtain ⟨hlt, hacid⟩ := LteHarqBufferTx.availableAcid_of_none hsel hempty
    have hne : (txBuf m destId).availableAcid ≠ HARQ_NONE := by
      have := hwf.numProc_le
      omega
    have hcws : (txBuf m destId).firstAvailable.2 = List.range MAX_CODEWORDS := by
      rw [LteHarqBufferTx.firstAvailable, if_neg hne,
        (hwf.counted _).emptyUnitsIds_of_isEmpty hacid]
    obtain ⟨b', hb', -⟩ := hwf.insertPdu_of_isEmpty hacid (by decide) hpdu
    refine .inl ⟨fun b hb => ?_, m.put destId b', (txBuf m destId).availableAcid, ?_⟩
    · have hb : m.find destId = some b := hb
      rwa [txBuf, hb] at hempty
    · rw [hstore, hcws, if_neg (by decide)]
      change (if (txBuf m destId).availableAcid = HARQ_NONE then _ else _) = _
      rw [if_neg hne, hpdu]
      change (txBuf m destId).insertPdu (txBuf m destId).availableAcid 0 pdu >>= _ = _
      rw [hb']
      rfl
  · refine .inr ⟨?_, m.put destId (txBuf m destId), ?_⟩
    · cases hfind : m.find destId with
      | none =>
        -- a new buffer has empty processes
        rw [txBuf, hfind] at hempty
        exact absurd ⟨0, by decide, rfl⟩ hempty
      | some b =>
        rw [txBuf, hfind] at hempty
        exact ⟨b, rfl, hempty⟩
    · rw [hstore, LteHarqBufferTx.firstAvailable_of_not_hasEmpty hsel hempty, if_pos rfl]

theorem handleSdu_eq (sdu pduId : ℕ) (h : Ready s) (hcid : cid ∈ s.requests)
    (hdata : buffered = true ∨ s.mbuf cid ≠ []) :
    ∃ queue byteLength, handleSdu s cid sdu pduId buffered =
      (storePdu s.harqTxBuffers (MacCidToNodeId cid) ⟨pduId, byteLength, 0⟩).map fun r =>
        ({ s with mbuf := Function.update s.mbuf cid queue, harqTxBuffers := r.1 }, [r.2]) := by
  obtain ⟨x, q, hq⟩ : ∃ x q, (if buffered then s.mbuf cid ++ [sdu] else s.mbuf cid) = x :: q := by
    refine List.exists_cons_of_ne_nil ?_
    rcases hdata with hb | hne
    · rw [if_pos hb]
      exact List.append_ne_nil_of_right_ne_nil _ (List.cons_ne_nil _ _)
    · split
      · exact List.append_ne_nil_of_left_ne_nil hne _
      · exact hne
  have hbuild : buildPdus (s.sched.scheduleList cid) pduId (List.range MAX_CODEWORDS) (x :: q) =
      .ok (q, [⟨pduId, MAC_HEADER + x, 0⟩]) := by
    have h₀ := h.listed cid hcid 0
    have h₁ := h.listed cid hcid 1
    rw [if_pos rfl] at h₀
    rw [if_neg (by decide)] at h₁
    show buildPdus (s.sched.scheduleList cid) pduId [0, 1] (x :: q) = _
    simp only [buildPdus, h₀, h₁]
    rw [if_neg (List.cons_ne_nil x q), if_neg (by simp)]
    rfl
  refine ⟨q, MAC_HEADER + x, ?_⟩
  rw [handleSdu, hq, macPduMake]
  dsimp only
  rw [Function.update_self, hbuild]
  show (storePdus (MacCidToNodeId cid) [⟨pduId, MAC_HEADER + x, 0⟩] s.harqTxBuffers >>= _) = _
  rw [storePdus]
  cases storePdu s.harqTxBuffers (MacCidToNodeId cid) ⟨pduId, MAC_HEADER + x, 0⟩ with
  | error e => rfl
  | ok r =>
    show Except.ok _ = Except.ok _
    rw [Function.update_idem]

/-- **When downlink data is kept.**  After every run, the PDU that `macPduMake` makes of the answer
to an SDU request is inserted into a H-ARQ unit iff the UE has no H-ARQ buffer yet or one of its
processes is empty; otherwise it is deleted. -/
theorem pdu_inserted_iff {es : List DlEvent} {os : List DlOutput}
    (hrun : (machine P).exec initial es = some (s, os)) (hcid : cid ∈ s.requests)
    (hdata : buffered = true ∨ s.mbuf cid ≠ []) :
    (∃ s' acid, handleSdu s cid sdu pduId buffered =
      .ok (s', [.inserted (MacCidToNodeId cid) acid 0])) ↔ s.HasProcess (MacCidToNodeId cid) := by
  have hready := ready_of_exec hrun
  obtain ⟨queue, byteLength, hsdu⟩ := handleSdu_eq sdu pduId hready hcid hdata
  rw [hsdu]
  rcases storePdu_eq ⟨pduId, byteLength, 0⟩ hready.wf (hready.free cid hcid) rfl with
    ⟨hempty, m', acid, hstore⟩ | ⟨⟨b, hb, hfull⟩, m', hstore⟩
  · rw [hstore]
    exact iff_of_true ⟨_, acid, rfl⟩ hempty
  · rw [hstore]
    refine iff_of_false ?_ fun hempty => hfull (hempty b hb)
    rintro ⟨s', acid, heq⟩
    cases heq

/-! ### Slow feedback -/

/-- A cell with the UE `1025`. -/
def cell : DlEnv := DlEnv.downlinkCell.withAmc SchedulerEnv.sixteenBits

/-- The MAC of its eNB. -/
def cellParams : DlMacParams where
  maxHarqRtx := 3
  queueSize := 0

/-- A TTI in which eleven bytes for the connection `5` of the UE arrive and are scheduled, and the
RLC is asked for them. -/
def requestTti : List DlEvent :=
  [.newData (65536 * 1025 + 5) 11,
    .schedule cell 10 [{ cid := 65536 * 1025 + 5, bytes := 0 }]]

/-- The RLC answers and the PDU is sent. -/
def answerTti : List DlEvent := [.reply (65536 * 1025 + 5) 11 0 true, .flushHarqBuffers]

/-- Some TTIs without feedback. -/
def noFeedback : ℕ → List DlEvent
  | 0 => []
  | n + 1 => requestTti ++ answerTti ++ noFeedback n

/-- With seven PDUs waiting for feedback the eighth is inserted. -/
theorem pdu_inserted_eighth : ∃ s, (machine cellParams).exec initial (noFeedback 7 ++ requestTti) =
      some (s, (List.range 7).map fun acid => .inserted 1025 acid 0) ∧
    ∃ s' acid, handleSdu s (65536 * 1025 + 5) 11 0 true = .ok (s', [.inserted 1025 acid 0]) := by
  obtain ⟨s, b, hrun, hreq, hb, hempty⟩ : ∃ s b,
      (machine cellParams).exec initial (noFeedback 7 ++ requestTti) =
          some (s, (List.range 7).map fun acid => .inserted 1025 acid 0) ∧
        65536 * 1025 + 5 ∈ s.requests ∧ s.harqTxBuffers.find 1025 = some b ∧ b.HasEmpty :=
    ⟨_, _, rfl, List.mem_singleton_self _, rfl, 7, by decide, rfl⟩
  refine ⟨s, hrun, (pdu_inserted_iff hrun hreq (.inl rfl)).2 fun b' hb' => ?_⟩
  obtain rfl := Option.some.inj (hb.symm.trans hb')
  exact hempty

/-- **With eight PDUs waiting for feedback the ninth is deleted**, although the scheduler has
granted bytes for it and the RLC has sent it. -/
theorem pdu_deleted : ∃ s, (machine cellParams).exec initial (noFeedback 8 ++ requestTti) =
      some (s, (List.range 8).map fun acid => .inserted 1025 acid 0) ∧
    s.requests = [65536 * 1025 + 5] ∧
    (s.sched.vbuf (65536 * 1025 + 5)).map (·.queue) = some [] ∧
    ∃ s', handleSdu s (65536 * 1025 + 5) 11 0 true = .ok (s', [.deleted 1025]) :=
  ⟨_, rfl, rfl, rfl, _, rfl⟩

end DlMac

end V2nLte
