import V2nLte.Lte.UserPlane

/-!
# Flows in order

Seen from one connection, every event of the user plane is one of three things: it has nothing to
do with the connection, it is an event of the connection by itself (`UmLink`), or it is a handover,
after which the connection starts again.  `Kept` says what is known of a connection at any time.

* `flows_in_order` : whatever the nodes do to each other, each flow comes up in order and no packet
  of it twice.
* `complete_since_deletion` : nothing is missing where nothing was lost since the last handover.
* `user_plane_goes_on` : no handler throws.
-/

namespace V2nLte

namespace UserPlane

variable (P : UserPlaneParams) (s : UserPlane)

/-! ### The invariant -/

/-- The sender of a connection. -/
def txOf (c : UmConnection) : UmTxEntity :=
  (s.rlc c.source).txEntities.entityOf (cidOf c) c P.um.newTx

/-- The receiver of a connection. -/
def rxOf (c : UmConnection) : UmRxEntity :=
  (s.rlc c.dest).rxEntities.entityOf (cidOf c) c
    (UmRxEntity.initial P.um.rxWindowSize P.um.lt false)

/-- The PDUs of a connection that have been sent. -/
def airOf (c : UmConnection) : List UmDataPdu :=
  (s.air.filter fun frame => frame.1.conn = c).map Prod.snd

/-- A connection by itself, with what the log says about it. -/
def linkOf (c : UmConnection) (l : Log) : UmLink where
  tx := txOf P s c
  rx := rxOf P s c
  accepted := l.taken
  produced := l.sent
  arrived := l.arrived.map (·.pduSequenceNumber)

/-- The entities and the frames are where they belong. -/
structure Placed (s : UserPlane) : Prop where
  tx : ∀ n cid info t, (s.rlc n).txEntities.find cid = some (info, t) →
    info.sourceId = n ∧ Routed s.cells info ∧ cid = cidOf info.conn
  rx : ∀ n cid info t, (s.rlc n).rxEntities.find cid = some (info, t) →
    info.destId = n ∧ Routed s.cells info ∧ hears s.cells info = true ∧ cid = cidOf info.conn
  air : ∀ frame ∈ s.air, Routed s.cells frame.1

/-- A connection since its entities were deleted, and what was before: `old` had been taken then
and `oldUp` gone up. -/
structure Kept (P : UserPlaneParams) (s : UserPlane) (os : List Out) (c : UmConnection)
    (old oldUp : List RlcSdu) (pos : ℕ → ℕ × ℕ) : Prop where
  taken : takenOf c os = old ++ (logOf c os).taken
  up : upOf c os = oldUp ++ (logOf c os).up
  sublist : oldUp.Sublist old
  increasing : Increasing (takenOf c os)
  numbered : ∀ sdu ∈ takenOf c os, sdu.snoMainPacket < (s.pdcp c.source).entities c.lcid
  air : airOf s c = (logOf c os).sent
  link : UmLink.Inv (linkOf P s c (logOf c os)) (logOf c os).up pos

/-- What holds between two events. -/
structure Inv (P : UserPlaneParams) (s : UserPlane) (os : List Out) : Prop where
  placed : Placed s
  kept : ∀ c, ∃ old oldUp pos, Kept P s os c old oldUp pos
  flows : ∀ n, ∃ seen entries, LtePdcpRrc.Inv false seen entries (s.pdcp n).rrc ∧
    ∀ info flow sdu, .taken info flow sdu ∈ os → info.sourceId = n → entries flow = some info.lcid

/-- All the nodes at the start. -/
def initial (cells : Cells) : UserPlane := { cells }

theorem inv_initial (P : UserPlaneParams) (cells : Cells) : Inv P (initial cells) [] where
  placed := ⟨fun _ _ _ _ h => (nomatch h), fun _ _ _ _ h => (nomatch h), fun _ h => nomatch h⟩
  kept _ := ⟨[], [], fun _ => (0, 0), rfl, rfl, List.Sublist.slnil, List.Pairwise.nil,
    fun _ h => (nomatch h), rfl, UmLink.inv_initial P.um.pos P.um.lt false⟩
  flows _ := ⟨∅, fun _ => none, LtePdcpRrc.inv_initial, fun _ _ _ h => nomatch h⟩

section Frames

variable {P : UserPlaneParams} {s s' : UserPlane} {os o : List Out} {c : UmConnection}
  {old oldUp : List RlcSdu} {pos : ℕ → ℕ × ℕ} {info : ConnectionInfo}

/-- Nothing has happened on a connection. -/
theorem Kept.frame (h : Kept P s os c old oldUp pos) (htx : txOf P s' c = txOf P s c)
    (hrx : rxOf P s' c = rxOf P s c) (hair : airOf s' c = airOf s c)
    (hpdcp : (s.pdcp c.source).entities c.lcid ≤ (s'.pdcp c.source).entities c.lcid)
    (ho : ∀ x ∈ o, ¬x.About c) : Kept P s' (os ++ o) c old oldUp pos := by
  have htaken : takenOf c (os ++ o) = takenOf c os := by
    rw [takenOf_append, takenOf_of_not_about ho, List.append_nil]
  have hup : upOf c (os ++ o) = upOf c os := by
    rw [upOf_append, upOf_of_not_about ho, List.append_nil]
  have hlog : logOf c (os ++ o) = logOf c os := by
    rw [logOf_append, foldl_add_of_not_about ho]
  have hlink : linkOf P s' c (logOf c os) = linkOf P s c (logOf c os) := by
    rw [linkOf, linkOf, htx, hrx]
  refine ⟨?_, ?_, h.sublist, ?_, ?_, ?_, ?_⟩
  · rw [htaken, hlog]
    exact h.taken
  · rw [hup, hlog]
    exact h.up
  · rw [htaken]
    exact h.increasing
  · rw [htaken]
    exact fun sdu hsdu => lt_of_lt_of_le (h.numbered sdu hsdu) hpdcp
  · rw [hair, hlog]
    exact h.air
  · rw [hlog, hlink]
    exact h.link

/-- An event on the connection that PDCP has no part in: RLC and the log agree on what it was. -/
theorem Kept.link_step (h : Kept P s os c old oldUp pos) {l : Log} {u : List RlcSdu}
    {pos' : ℕ → ℕ × ℕ} (hlog : o.foldl (Log.add c) (logOf c os) = l)
    (hkeep : l.taken = (logOf c os).taken) (htaken : takenOf c o = []) (hup : upOf c o = u)
    (hlup : l.up = (logOf c os).up ++ u) (hair : airOf s' c = l.sent) (hpdcp : s'.pdcp = s.pdcp)
    (hlink : UmLink.Inv (linkOf P s' c l) ((logOf c os).up ++ u) pos') :
    Kept P s' (os ++ o) c old oldUp pos' := by
  have htaken' : takenOf c (os ++ o) = takenOf c os := by
    rw [takenOf_append, htaken, List.append_nil]
  refine ⟨?_, ?_, h.sublist, ?_, ?_, ?_, ?_⟩
  · rw [htaken', logOf_append, hlog, hkeep]
    exact h.taken
  · rw [upOf_append, hup, logOf_append, hlog, hlup, h.up, List.append_assoc]
  · rw [htaken']
    exact h.increasing
  · rw [htaken', hpdcp]
    exact h.numbered
  · rw [logOf_append, hlog]
    exact hair
  · rw [logOf_append, hlog, hlup]
    exact hlink

theorem Placed.tx_unique (h : Placed s) (hr : Routed s.cells info) :
    ∀ i t, (s.rlc info.sourceId).txEntities.find (cidOf info.conn) = some (i, t) →
      i.conn = info.conn := by
  intro i t hfind
  obtain ⟨hsource, hrouted, hcid⟩ := h.tx _ _ i t hfind
  exact hrouted.conn_eq_of_source hr hsource hcid.symm

theorem Placed.rx_unique (h : Placed s) (hr : Routed s.cells info)
    (hhears : hears s.cells info = true) :
    ∀ i t, (s.rlc info.destId).rxEntities.find (cidOf info.conn) = some (i, t) →
      i.conn = info.conn := by
  intro i t hfind
  obtain ⟨hdest, hrouted, hhears', hcid⟩ := h.rx _ _ i t hfind
  exact hrouted.conn_eq_of_dest hr hhears' hhears hdest hcid.symm

end Frames

/-! ### Replacing an entity -/

/-- A sender is replaced. -/
def putTx (info : ConnectionInfo) (t : UmTxEntity) : UserPlane :=
  s.setRlc info.sourceId { s.rlc info.sourceId with
    txEntities := (s.rlc info.sourceId).txEntities.put (cidOf info.conn) (info, t) }

/-- A receiver is replaced. -/
def putRx (info : ConnectionInfo) (t : UmRxEntity) : UserPlane :=
  s.setRlc info.destId { s.rlc info.destId with
    rxEntities := (s.rlc info.destId).rxEntities.put (cidOf info.conn) (info, t) }

section Replace

variable {P : UserPlaneParams} {s : UserPlane} {c : UmConnection} {info : ConnectionInfo}
  {t : UmTxEntity} {u : UmRxEntity}

theorem txEntities_putTx (n : MacNodeId) : ((s.putTx info t).rlc n).txEntities =
    if n = info.sourceId then (s.rlc n).txEntities.put (cidOf info.conn) (info, t)
    else (s.rlc n).txEntities := by
  show (Function.update s.rlc _ _ n).txEntities = _
  rw [Function.update_apply]
  split <;> rename_i hn
  · rw [hn]
  · rfl

theorem rxEntities_putTx (n : MacNodeId) :
    ((s.putTx info t).rlc n).rxEntities = (s.rlc n).rxEntities := by
  show (Function.update s.rlc _ _ n).rxEntities = _
  rw [Function.update_apply]
  split <;> rename_i hn
  · rw [hn]
  · rfl

theorem rxEntities_putRx (n : MacNodeId) : ((s.putRx info u).rlc n).rxEntities =
    if n = info.destId then (s.rlc n).rxEntities.put (cidOf info.conn) (info, u)
    else (s.rlc n).rxEntities := by
  show (Function.update s.rlc _ _ n).rxEntities = _
  rw [Function.update_apply]
  split <;> rename_i hn
  · rw [hn]
  · rfl

theorem txEntities_putRx (n : MacNodeId) :
    ((s.putRx info u).rlc n).txEntities = (s.rlc n).txEntities := by
  show (Function.update s.rlc _ _ n).txEntities = _
  rw [Function.update_apply]
  split <;> rename_i hn
  · rw [hn]
  · rfl

theorem txOf_putTx (h : Placed s) (hr : Routed s.cells info) (c : UmConnection) :
    txOf P (s.putTx info t) c = if info.conn = c then t else txOf P s c := by
  rw [txOf, txOf, txEntities_putTx]
  by_cases hc : info.conn = c
  · subst hc
    rw [if_pos rfl, if_pos info.conn_source]
    exact EntityMap.entityOf_put_self info
  · rw [if_neg hc]
    split <;> rename_i hsource
    · exact EntityMap.entityOf_put_of_ne hc (hsource ▸ h.tx_unique hr)
    · rfl

theorem rxOf_putTx (c : UmConnection) : rxOf P (s.putTx info t) c = rxOf P s c := by
  rw [rxOf, rxOf, rxEntities_putTx]

theorem rxOf_putRx (h : Placed s) (hr : Routed s.cells info)
    (hhears : hears s.cells info = true) (c : UmConnection) :
    rxOf P (s.putRx info u) c = if info.conn = c then u else rxOf P s c := by
  rw [rxOf, rxOf, rxEntities_putRx]
  by_cases hc : info.conn = c
  · subst hc
    rw [if_pos rfl, if_pos info.conn_dest]
    exact EntityMap.entityOf_put_self info
  · rw [if_neg hc]
    split <;> rename_i hdest
    · exact EntityMap.entityOf_put_of_ne hc (hdest ▸ h.rx_unique hr hhears)
    · rfl

theorem txOf_putRx (c : UmConnection) : txOf P (s.putRx info u) c = txOf P s c := by
  rw [txOf, txOf, txEntities_putRx]

theorem Placed.putTx (h : Placed s) (hr : Routed s.cells info) : Placed (s.putTx info t) where
  tx n cid i t' hfind := by
    rw [txEntities_putTx] at hfind
    split at hfind <;> rename_i hn
    · rw [OrderedMap.find_put] at hfind
      split at hfind <;> rename_i hcid
      · obtain ⟨rfl, -⟩ := Prod.mk.inj (Option.some.inj hfind)
        exact ⟨hn.symm, hr, hcid⟩
      · exact h.tx _ _ _ _ hfind
    · exact h.tx _ _ _ _ hfind
  rx n cid i t' hfind := by
    rw [rxEntities_putTx] at hfind
    exact h.rx _ _ _ _ hfind
  air := h.air

theorem Placed.putRx (h : Placed s) (hr : Routed s.cells info)
    (hhears : hears s.cells info = true) : Placed (s.putRx info u) where
  tx n cid i t' hfind := by
    rw [txEntities_putRx] at hfind
    exact h.tx _ _ _ _ hfind
  rx n cid i t' hfind := by
    rw [rxEntities_putRx] at hfind
    split at hfind <;> rename_i hn
    · rw [OrderedMap.find_put] at hfind
      split at hfind <;> rename_i hcid
      · obtain ⟨rfl, -⟩ := Prod.mk.inj (Option.some.inj hfind)
        exact ⟨hn.symm, hr, hhears, hcid⟩
      · exact h.rx _ _ _ _ hfind
    · exact h.rx _ _ _ _ hfind
  air := h.air

end Replace

/-! ### A packet from IP -/

section Steps

variable {P : UserPlaneParams} {s s' : UserPlane} {os o : List Out} {nodeId : MacNodeId}
  {pkt : PdcpPacket} {lcid : LogicalCid} {info : ConnectionInfo} {c : UmConnection}
  {old oldUp : List RlcSdu} {pos : ℕ → ℕ × ℕ}

theorem routed_controlInfo
    (hnode : getNodeTypeById nodeId = .UE ∨ getNodeTypeById nodeId = .ENODEB) :
    Routed s.cells (controlInfo P s nodeId pkt lcid) where
  node := hnode
  direction := rfl
  current := by
    refine ⟨fun hue => (if_pos hue).symm, fun hue => ?_⟩
    change getNodeTypeById (getDestId P s nodeId pkt) = .UE at hue
    change s.cells.nextHop (getDestId P s nodeId pkt) = nodeId
    rw [getDestId] at hue ⊢
    split at hue
    · exact absurd hue (s.cells.noUe _)
    · rename_i hself
      rw [if_neg hself]
      dsimp only at hue ⊢
      split at hue
      · exact absurd hue (s.cells.noUe _)
      · rename_i hmaster
        rw [if_neg hmaster]
        exact not_not.1 hmaster

theorem Placed.congr (h : Placed s) (hrlc : s'.rlc = s.rlc) (hcells : s'.cells = s.cells)
    (hair : ∀ frame ∈ s'.air, Routed s.cells frame.1) : Placed s' where
  tx n cid i t hfind := by
    rw [hrlc] at hfind
    rw [hcells]
    exact h.tx n cid i t hfind
  rx n cid i t hfind := by
    rw [hrlc] at hfind
    rw [hcells]
    exact h.rx n cid i t hfind
  air := by
    rw [hcells]
    exact hair

/-- The control info that the entity of a connection has is as good as that of the packet. -/
theorem Placed.routed_of_stored (h : Placed s) {i : ConnectionInfo} {cid : MacCid}
    (hr : Routed s.cells info)
    (hi : i = info ∨ ∃ t, (s.rlc nodeId).txEntities.find cid = some (i, t)) :
    Routed s.cells i := by
  rcases hi with rfl | ⟨t, hfind⟩
  · exact hr
  · exact (h.tx _ _ _ _ hfind).2.1

/-- A packet from IP: PDCP gives it its LCID and its number, RLC takes it into the queue of the
connection if there is room. -/
theorem fromDataPort_cases (h : Placed s) (hmap : P.um.mapAllLcidsToSingleBearer = false)
    (hnode : getNodeTypeById nodeId = .UE ∨ getNodeTypeById nodeId = .ENODEB)
    {pdcp : PdcpLayer} {sno : ℕ}
    (hpdcp : (s.pdcp nodeId).fromDataPort P.steps pkt = some (pdcp, lcid, sno)) :
    ∃ i, Routed s.cells i ∧ i.conn = (controlInfo P s nodeId pkt lcid).conn ∧
      fromDataPort P s nodeId pkt =
        some ({ s.putTx i ((txOf P s i.conn).enque (pkt.sdu sno)).1 with
          pdcp := Function.update s.pdcp nodeId pdcp },
          [if ((txOf P s i.conn).enque (pkt.sdu sno)).2
            then .taken (controlInfo P s nodeId pkt lcid) pkt.flow (pkt.sdu sno)
            else .dropped (controlInfo P s nodeId pkt lcid) pkt.flow (pkt.sdu sno)]) := by
  have hr : Routed s.cells (controlInfo P s nodeId pkt lcid) := routed_controlInfo hnode
  obtain ⟨i, hconn, hfrom, heq⟩ := LteRlcUm.handleUpperMessage_eq (hr.txCid_eq hmap)
    (h.tx_unique hr) (pkt.sdu sno)
  have hsource : i.sourceId = nodeId := (ConnectionInfo.conn_eq_iff.1 hconn).1
  refine ⟨i, h.routed_of_stored hr hfrom, hconn, ?_⟩
  have hheq : (s.rlc nodeId).handleUpperMessage P.um (controlInfo P s nodeId pkt lcid)
      (pkt.sdu sno) = _ := heq
  rw [fromDataPort, hpdcp]
  dsimp only
  rw [hheq]
  simp only [putTx, hsource, hconn]
  rfl

theorem PdcpLayer.fromDataPort_eq_some {n : ℕ} {p p' : PdcpLayer} {sno : ℕ}
    (h : p.fromDataPort n pkt = some (p', lcid, sno)) :
    p.rrc.identify n pkt.flow = some (p'.rrc, [lcid]) ∧ sno = p.entities lcid ∧
      p'.entities = Function.update p.entities lcid (u32 (p.entities lcid + 1)) := by
  unfold PdcpLayer.fromDataPort at h
  split at h
  · rename_i rrc lcid' hid
    simp only [Option.some.injEq, Prod.mk.injEq] at h
    obtain ⟨rfl, rfl, rfl⟩ := h
    exact ⟨hid, rfl, rfl⟩
  · cases h

/-- The next packet of a connection goes into its queue, if there is room. -/
theorem Kept.take (h : Kept P s os c old oldUp pos) {sdu : RlcSdu} {flow : Flow}
    (hc : info.conn = c) (hsno : sdu.snoMainPacket = (s.pdcp c.source).entities c.lcid)
    (ho : o = [if ((txOf P s c).enque sdu).2 then .taken info flow sdu
      else .dropped info flow sdu])
    (htx : txOf P s' c = ((txOf P s c).enque sdu).1) (hrx : rxOf P s' c = rxOf P s c)
    (hair : airOf s' c = airOf s c)
    (hpdcp : (s'.pdcp c.source).entities c.lcid = (s.pdcp c.source).entities c.lcid + 1) :
    Kept P s' (os ++ o) c old oldUp pos := by
  -- what is taken gets the highest number so far
  by_cases htaken : ((txOf P s c).enque sdu).2 = true
  · rw [if_pos htaken] at ho
    subst ho
    have hsdus : takenOf c [.taken info flow sdu] = [sdu] := by
      simp [takenOf, hc]
    have hup : upOf c [.taken info flow sdu] = [] := rfl
    have hlog : logOf c (os ++ [.taken info flow sdu]) =
        { logOf c os with taken := (logOf c os).taken ++ [sdu] } := by
      rw [logOf_append, List.foldl_cons, List.foldl_nil, Log.add, if_pos hc]
    have hlt : ∀ q ∈ takenOf c os, q.snoMainPacket < sdu.snoMainPacket := by
      rw [hsno]
      exact h.numbered
    have hold : ∀ q ∈ (linkOf P s c (logOf c os)).accepted, q.snoMainPacket < sdu.snoMainPacket :=
      fun q hq => hlt q (h.taken ▸ List.mem_append_right old hq)
    have hlink := UmLink.inv_enque h.link hold
    refine ⟨?_, ?_, h.sublist, ?_, ?_, ?_, ?_⟩
    · rw [takenOf_append, hsdus, hlog, h.taken, List.append_assoc]
    · rw [upOf_append, hup, List.append_nil, hlog]
      exact h.up
    · rw [takenOf_append, hsdus]
      exact List.pairwise_append.2 ⟨h.increasing, List.pairwise_singleton _ _,
        fun q hq r hr => List.mem_singleton.1 hr ▸ hlt q hq⟩
    · rw [takenOf_append, hsdus, hpdcp]
      intro q hq
      rcases List.mem_append.1 hq with hq | hq
      · exact Nat.lt_succ_of_lt (h.numbered q hq)
      · rw [List.mem_singleton.1 hq, hsno]
        exact Nat.lt_succ_self _
    · rw [hair, hlog]
      exact h.air
    · rw [hlog]
      have heq : linkOf P s' c { logOf c os with taken := (logOf c os).taken ++ [sdu] } =
          (linkOf P s c (logOf c os)).enqueTx sdu := by
        simp only [linkOf, UmLink.enqueTx, htx, hrx, htaken, if_true]
      rw [heq]
      exact hlink
  · -- what is dropped leaves the queue as it was
    rw [if_neg htaken] at ho
    rw [Bool.not_eq_true] at htaken
    refine h.frame (htx.trans (UmTxEntity.enque_of_not_accepted htaken)) hrx hair
      (hpdcp ▸ Nat.le_succ _) fun x hx => ?_
    rw [ho, List.mem_singleton] at hx
    rw [hx]
    exact id

theorem airOf_eq_of_air (h : s'.air = s.air) : airOf s' c = airOf s c := by
  rw [airOf, airOf, h]

theorem Inv.fromDataPort (h : Inv P s os) (hmap : P.um.mapAllLcidsToSingleBearer = false)
    (hnode : getNodeTypeById nodeId = .UE ∨ getNodeTypeById nodeId = .ENODEB)
    (hok : ∀ r ∈ (s.pdcp nodeId).fromDataPort P.steps pkt, r.2.2 + 1 < 4294967296)
    (hst : UserPlane.fromDataPort P s nodeId pkt = some (s', o)) : Inv P s' (os ++ o) := by
  cases hpdcp : (s.pdcp nodeId).fromDataPort P.steps pkt with
  | none =>
    rw [UserPlane.fromDataPort, hpdcp] at hst
    cases hst
  | some r =>
    obtain ⟨pdcp, lcid, sno⟩ := r
    obtain ⟨hid, rfl, hentities⟩ := PdcpLayer.fromDataPort_eq_some hpdcp
    rw [u32_of_lt (hok _ hpdcp)] at hentities
    obtain ⟨i, hr, hconn, heq⟩ := fromDataPort_cases h.placed hmap hnode hpdcp
    rw [heq] at hst
    obtain ⟨rfl, rfl⟩ := Prod.mk.inj (Option.some.inj hst)
    have hself : Function.update s.pdcp nodeId pdcp nodeId = pdcp := Function.update_self ..
    have htx : ∀ c t, txOf P { s.putTx i t with pdcp := Function.update s.pdcp nodeId pdcp } c =
        if i.conn = c then t else txOf P s c := fun c t => txOf_putTx h.placed hr c
    have hrx : ∀ c t, rxOf P { s.putTx i t with pdcp := Function.update s.pdcp nodeId pdcp } c =
        rxOf P s c := fun c t => rxOf_putTx c
    refine ⟨(h.placed.putTx hr).congr rfl rfl h.placed.air, fun c => ?_, fun n => ?_⟩
    · obtain ⟨old, oldUp, pos, hkept⟩ := h.kept c
      -- the connection of the packet takes it, the others stay as they are
      by_cases hc : i.conn = c
      · refine ⟨old, oldUp, pos, hkept.take (hconn.symm.trans hc) ?_ (by rw [hc]) ?_ (hrx _ _)
          (airOf_eq_of_air rfl) ?_⟩
        · rw [← hc, hconn]
          rfl
        · rw [htx, if_pos hc, hc]
        · rw [← hc, hconn]
          change (Function.update s.pdcp nodeId pdcp nodeId).entities lcid = _
          rw [hself, hentities, Function.update_self]
          rfl
      · refine ⟨old, oldUp, pos, hkept.frame ?_ (hrx _ _) (airOf_eq_of_air rfl) ?_ fun x hx => ?_⟩
        · rw [htx, if_neg hc]
        · by_cases hn : c.source = nodeId
          · change _ ≤ (Function.update s.pdcp nodeId pdcp c.source).entities c.lcid
            rw [hn, hself, hentities, Function.update_apply]
            split <;> rename_i hlcid
            · rw [hlcid]
              exact Nat.le_succ _
            · exact le_rfl
          · change _ ≤ (Function.update s.pdcp nodeId pdcp c.source).entities c.lcid
            rw [Function.update_of_ne hn]
        · rw [List.mem_singleton.1 hx]
          split
          · exact fun heq => hc (hconn.trans heq)
          · exact id
    · obtain ⟨seen, entries, hinv, hflow⟩ := h.flows n
      change ∃ seen entries, LtePdcpRrc.Inv false seen entries
        (Function.update s.pdcp nodeId pdcp n).rrc ∧ _
      -- the node identifies the flow of the packet, the flows of the others stay
      by_cases hn : n = nodeId
      · subst hn
        obtain ⟨entries', v, hv, hinv', hentry, hkeep⟩ := hinv.identify rfl hid
        obtain rfl := List.singleton_inj.1 hv
        rw [hself]
        refine ⟨_, entries', hinv', fun info flow sdu hmem hsource => ?_⟩
        rcases List.mem_append.1 hmem with hmem | hmem
        · exact hkeep _ _ (hflow info flow sdu hmem hsource)
        · have hmem := List.mem_singleton.1 hmem
          split at hmem
          · cases hmem
            exact hentry
          · cases hmem
      · rw [Function.update_of_ne hn]
        refine ⟨seen, entries, hinv, fun info flow sdu hmem hsource => ?_⟩
        rcases List.mem_append.1 hmem with hmem | hmem
        · exact hflow info flow sdu hmem hsource
        · have hmem := List.mem_singleton.1 hmem
          split at hmem
          · cases hmem
            exact absurd hsource.symm hn
          · cases hmem

/-! ### PDUs -/

/-- Nothing is taken from PDCP. -/
theorem flows_of_not_taken (h : Inv P s os) (hpdcp : s'.pdcp = s.pdcp)
    (ho : ∀ info flow sdu, .taken info flow sdu ∉ o) (n : MacNodeId) :
    ∃ seen entries, LtePdcpRrc.Inv false seen entries (s'.pdcp n).rrc ∧
      ∀ info flow sdu, .taken info flow sdu ∈ os ++ o → info.sourceId = n →
        entries flow = some info.lcid := by
  obtain ⟨seen, entries, hinv, hflow⟩ := h.flows n
  rw [hpdcp]
  refine ⟨seen, entries, hinv, fun info flow sdu hmem => ?_⟩
  rcases List.mem_append.1 hmem with hmem | hmem
  · exact hflow info flow sdu hmem
  · exact absurd hmem (ho info flow sdu)

/-- The sender of a connection makes a PDU. -/
theorem Inv.sduRequest (h : Inv P s os) (hmap : P.um.mapAllLcidsToSingleBearer = false)
    {cid : MacCid} {t : UmTxEntity} (hfind : (s.rlc nodeId).txEntities.find cid = some (info, t))
    (hok : t.sno + 1 < 4294967296) (size : ℤ) :
    ∃ s' o, UserPlane.sduRequest P s nodeId cid size = some (s', o) ∧ Inv P s' (os ++ o) := by
  obtain ⟨hsource, hr, hcid⟩ := h.placed.tx _ _ _ _ hfind
  subst hsource hcid
  have hown : txOf P s info.conn = t := EntityMap.entityOf_of_find hfind
  obtain ⟨old, oldUp, pos, hkept⟩ := h.kept info.conn
  have hsno : (linkOf P s info.conn (logOf info.conn os)).tx = t := hown
  obtain ⟨tx, r, pos', hmake, hlink⟩ := UmLink.inv_request size hkept.link (hsno ▸ hok)
  -- the PDU that is made is on the air now
  rw [hsno] at hmake
  refine ⟨{ s.putTx info tx with air := s.air ++ (r.map (info, ·)).toList },
    r.toList.map fun pdu => .sent info pdu, ?_, ?_, fun c => ?_,
    flows_of_not_taken h rfl fun i flow sdu hmem => ?_⟩
  · rw [UserPlane.sduRequest, hfind]
    dsimp only
    rw [LteRlcUm.handleSduRequest_eq (hr.txCid_eq hmap) hfind, hmake]
    cases r <;> rfl
  · refine (h.placed.putTx (t := tx) hr).congr rfl rfl fun frame hframe => ?_
    rcases List.mem_append.1 hframe with hframe | hframe
    · exact h.placed.air frame hframe
    · obtain ⟨pdu, -, rfl⟩ := Option.map_eq_some_iff.1 (Option.mem_toList.1 hframe)
      exact hr
  · have htx : txOf P { s.putTx info tx with air := s.air ++ (r.map (info, ·)).toList } c =
        if info.conn = c then tx else txOf P s c := txOf_putTx h.placed hr c
    have hrx : rxOf P { s.putTx info tx with air := s.air ++ (r.map (info, ·)).toList } c =
        rxOf P s c := rxOf_putTx c
    have hair : airOf { s.putTx info tx with air := s.air ++ (r.map (info, ·)).toList } c =
        airOf s c ++ if info.conn = c then r.toList else [] := by
      change ((s.air ++ (r.map (info, ·)).toList).filter _).map _ = _
      rw [List.filter_append, List.map_append]
      congr 1
      cases r <;> by_cases hc : info.conn = c <;> simp [hc]
    -- the connection that was asked sends, the others see nothing
    by_cases hc : info.conn = c
    · subst hc
      rw [if_pos rfl] at htx hair
      refine ⟨old, oldUp, pos', hkept.link_step (l := { logOf info.conn os with
        sent := (logOf info.conn os).sent ++ r.toList }) (u := []) ?_ rfl ?_ ?_
        (List.append_nil _).symm ?_ rfl ?_⟩
      · cases r with
        | none => simp
        | some pdu => simp [Log.add]
      · cases r <;> rfl
      · cases r <;> rfl
      · rw [hair, hkept.air]
      · rw [List.append_nil, linkOf, htx, hrx]
        exact hlink
    · rw [if_neg hc] at htx hair
      obtain ⟨old, oldUp, pos, hkept⟩ := h.kept c
      refine ⟨old, oldUp, pos, hkept.frame htx hrx ?_ le_rfl fun x hx => ?_⟩
      · rw [hair, List.append_nil]
      · obtain ⟨pdu, -, rfl⟩ := List.mem_map.1 hx
        exact hc
  · obtain ⟨pdu, -, hpdu⟩ := List.mem_map.1 hmem
    cases hpdu

theorem newRx_eq (hr : Routed s.cells info) :
    P.um.newRx info = UmRxEntity.initial P.um.rxWindowSize P.um.lt false := by
  rw [UmParams.newRx, hr.direction, getDirection]
  split <;> rfl

theorem rxOf_eq (hr : Routed s.cells info) : rxOf P s info.conn =
    (s.rlc info.destId).rxEntities.entityOf (LteRlcUm.rxCid info) info.conn (P.um.newRx info) := by
  rw [newRx_eq hr, hr.rxCid_eq]
  rfl

/-- What a receiver puts out when PDUs have arrived or its timer has expired. -/
def received (info : ConnectionInfo) (pdus : List UmDataPdu) (sdus : List RlcSdu) : List Out :=
  pdus.map (.arrived info) ++ sdus.map (.up info)

/-- The receiver of a connection has done something. -/
theorem Inv.receive (h : Inv P s os) {i : ConnectionInfo} (hr : Routed s.cells i)
    (hhears : hears s.cells i = true) (hconn : info.conn = i.conn) {u : UmRxEntity}
    {pdus : List UmDataPdu} {sdus : List RlcSdu}
    (hlink : ∀ pos, UmLink.Inv (linkOf P s i.conn (logOf i.conn os)) (logOf i.conn os).up pos →
      ∃ pos', UmLink.Inv { linkOf P s i.conn (logOf i.conn os) with
        rx := u
        arrived := (logOf i.conn os).arrived.map (·.pduSequenceNumber) ++
          pdus.map (·.pduSequenceNumber) } ((logOf i.conn os).up ++ sdus) pos') :
    Inv P (s.putRx i u) (os ++ received info pdus sdus) := by
  refine ⟨h.placed.putRx hr hhears, fun c => ?_, flows_of_not_taken h rfl fun _ _ _ hmem => ?_⟩
  · have hrx := rxOf_putRx (P := P) (u := u) h.placed hr hhears c
    -- the connection of the PDU receives, the others see nothing
    by_cases hc : i.conn = c
    · subst hc
      rw [if_pos rfl] at hrx
      obtain ⟨old, oldUp, pos, hkept⟩ := h.kept i.conn
      obtain ⟨pos', hlink⟩ := hlink pos hkept.link
      refine ⟨old, oldUp, pos', hkept.link_step (l := { logOf i.conn os with
        arrived := (logOf i.conn os).arrived ++ pdus
        up := (logOf i.conn os).up ++ sdus }) (u := sdus) ?_ rfl ?_ ?_ rfl ?_ rfl ?_⟩
      · rw [received, List.foldl_append, ← hconn, foldl_add_map_arrived, foldl_add_map_up]
      · rw [received, takenOf_append, takenOf_map_up, List.append_nil]
        simp [takenOf, List.filterMap_map]
      · rw [received, upOf_append, ← hconn, upOf_map_up]
        simp [upOf, List.filterMap_map]
      · exact hkept.air
      · rw [linkOf, hrx, txOf_putRx, List.map_append]
        exact hlink
    · rw [if_neg hc] at hrx
      obtain ⟨old, oldUp, pos, hkept⟩ := h.kept c
      refine ⟨old, oldUp, pos, hkept.frame (txOf_putRx c) hrx (airOf_eq_of_air rfl) le_rfl
        fun x hx => ?_⟩
      rcases List.mem_append.1 hx with hx | hx
      · obtain ⟨pdu, -, rfl⟩ := List.mem_map.1 hx
        exact fun heq => hc (hconn.symm.trans heq)
      · obtain ⟨sdu, -, rfl⟩ := List.mem_map.1 hx
        exact fun heq => hc (hconn.symm.trans heq)
  · rcases List.mem_append.1 hmem with hmem | hmem
    · obtain ⟨pdu, -, hpdu⟩ := List.mem_map.1 hmem
      cases hpdu
    · obtain ⟨sdu, -, hsdu⟩ := List.mem_map.1 hmem
      cases hsdu

/-- A PDU arrives. -/
theorem Inv.arrive (h : Inv P s os) {frame : ConnectionInfo × UmDataPdu} (hair : frame ∈ s.air)
    (hok : Event.Ok P s (.arrive frame)) :
    ∃ s' o, UserPlane.arrive P s frame = some (s', o) ∧ Inv P s' (os ++ o) := by
  obtain ⟨info, pdu⟩ := frame
  have hr := h.placed.air _ hair
  by_cases hhears : hears s.cells info = true
  · obtain ⟨i, hi, hfrom, hget, heq⟩ := LteRlcUm.handlePdu_eq (P := P.um)
      (hr.rxCid_eq ▸ h.placed.rx_unique hr hhears) pdu
    rw [← rxOf_eq hr] at hget heq
    have hadm : (rxOf P s info.conn).Admissible pdu.pduSequenceNumber := hget ▸ hok hhears
    have hri : Routed s.cells i ∧ hears s.cells i = true := by
      rcases hfrom with rfl | ⟨u, hfind⟩
      · exact ⟨hr, hhears⟩
      · exact ⟨(h.placed.rx _ _ _ _ hfind).2.1, (h.placed.rx _ _ _ _ hfind).2.2.1⟩
    have hdest : i.destId = info.destId := (ConnectionInfo.conn_eq_iff.1 hi).2.1
    obtain ⟨old, oldUp, pos, hkept⟩ := h.kept info.conn
    -- the PDU is one that the sender has made
    have hsent : pdu ∈ (logOf info.conn os).sent := by
      rw [← hkept.air]
      exact List.mem_map.2 ⟨_, List.mem_filter.2 ⟨hair, by simp⟩, rfl⟩
    obtain ⟨j, hj⟩ := List.mem_iff_getElem?.1 hsent
    have hsno : pdu.pduSequenceNumber = j := (hkept.link.stream.pdu j pdu hj).1
    obtain ⟨u, sdus, henque, -⟩ := UmLink.inv_arrive hkept.link hj hadm
    change (rxOf P s info.conn).enque pdu = .ok (u, sdus) at henque
    refine ⟨s.putRx i u, received info [pdu] sdus, ?_,
      h.receive hri.1 hri.2 hi.symm fun pos hlink => ?_⟩
    · rw [UserPlane.arrive, if_pos hhears]
      dsimp only
      rw [heq, henque, putRx, hi, hr.rxCid_eq, hdest]
      rfl
    · rw [hi] at hlink ⊢
      obtain ⟨u', sdus', henque', hlink'⟩ := UmLink.inv_arrive hlink hj hadm
      obtain ⟨rfl, rfl⟩ := Prod.mk.inj (Except.ok.inj (henque.symm.trans henque'))
      rw [List.map_singleton, hsno]
      exact ⟨pos, hlink'⟩
  · refine ⟨s, [], ?_, ?_⟩
    · rw [UserPlane.arrive, if_neg hhears]
    · rw [List.append_nil]
      exact h

/-- The timer of a connection expires. -/
theorem Inv.timer (h : Inv P s os) {cid : MacCid} {u : UmRxEntity}
    (hfind : (s.rlc nodeId).rxEntities.find cid = some (info, u)) (hu : u.tReordering = true) :
    ∃ s' o, UserPlane.timer s nodeId cid = some (s', o) ∧ Inv P s' (os ++ o) := by
  obtain ⟨hdest, hr, hhears, hcid⟩ := h.placed.rx _ _ _ _ hfind
  subst hdest hcid
  have hown : rxOf P s info.conn = u := EntityMap.entityOf_of_find hfind
  obtain ⟨old, oldUp, pos, hkept⟩ := h.kept info.conn
  have hrx : (linkOf P s info.conn (logOf info.conn os)).rx = u := hown
  obtain ⟨u', sdus, htimer, -⟩ := UmLink.inv_expire hkept.link (hrx ▸ hu)
  rw [hrx] at htimer
  refine ⟨s.putRx info u', received info [] sdus, ?_,
    h.receive hr hhears rfl fun pos hlink => ?_⟩
  · rw [UserPlane.timer, LteRlcUm.handleTimer_eq hfind, htimer]
    rfl
  · obtain ⟨u'', sdus', htimer', hlink'⟩ := UmLink.inv_expire hlink (hrx ▸ hu)
    rw [hrx] at htimer'
    obtain ⟨rfl, rfl⟩ := Prod.mk.inj (Except.ok.inj (htimer.symm.trans htimer'))
    rw [List.map_nil, List.append_nil]
    exact ⟨pos, hlink'⟩

/-! ### Handovers -/

/-- The connections of a UE are those with its id in their key. -/
theorem Routed.of_ue_iff {cells : Cells} {ue : MacNodeId} (hr : Routed cells info)
    (hue : getNodeTypeById ue = .UE) :
    info.sourceId = ue ∨ info.destId = ue ↔ MacCidToNodeId (cidOf info.conn) = ue := by
  rw [cidOf_conn, MacCidToNodeId_idToMacCid]
  constructor
  · intro h
    rcases hr.ends hue h with ⟨hs, -⟩ | ⟨hs, hd⟩
    · exact (if_pos (hs ▸ hue)).trans hs
    · rw [if_neg (by rw [hs, cells.master ue hue]; decide), hd]
  · intro hnode
    split at hnode
    · exact .inl hnode
    · exact .inr hnode

theorem Routed.doHandover {cells : Cells} {ue enb : MacNodeId} (hr : Routed cells info)
    (hs : info.sourceId ≠ ue) (hd : info.destId ≠ ue) (hue : getNodeTypeById ue = .UE)
    (henb : getNodeTypeById enb = .ENODEB) : Routed (cells.doHandover ue enb hue henb) info where
  node := hr.node
  direction := hr.direction
  current := by
    refine ⟨fun h => ?_, fun h => ?_⟩
    · exact (Function.update_of_ne hs _ _).trans (hr.next_of_source h)
    · exact (Function.update_of_ne hd _ _).trans (hr.next_of_dest h)

theorem hears_doHandover {cells : Cells} {ue enb : MacNodeId} (hs : info.sourceId ≠ ue)
    (hd : info.destId ≠ ue) (hue : getNodeTypeById ue = .UE)
    (henb : getNodeTypeById enb = .ENODEB) :
    hears (cells.doHandover ue enb hue henb) info = hears cells info := by
  rw [hears, hears, Cells.doHandover]
  simp only [Function.update_of_ne hs, Function.update_of_ne hd]

section Deleted

variable {ue enb : MacNodeId} {cid : MacCid} {i : ConnectionInfo} {n : MacNodeId}

/-- The nodes and keys whose entities are deleted. -/
theorem find_deleteOldBuffers (hue : getNodeTypeById ue = .UE) (n : MacNodeId) (cid : MacCid) :
    (((deleteOldBuffers s ue).rlc n).txEntities.find cid =
      if n = ue ∨ n = s.cells.masterId ue ∧ MacCidToNodeId cid = ue then none
      else (s.rlc n).txEntities.find cid) ∧
    ((deleteOldBuffers s ue).rlc n).rxEntities.find cid =
      if n = ue ∨ n = s.cells.masterId ue ∧ MacCidToNodeId cid = ue then none
      else (s.rlc n).rxEntities.find cid := by
  have hne : s.cells.masterId ue ≠ ue := fun heq => by
    have henb := s.cells.master ue hue
    rw [heq, hue] at henb
    cases henb
  simp only [deleteOldBuffers]
  by_cases hn : n = ue
  · simp [hn, LteRlcUm.deleteQueues, EntityMap.find_deleteQueues]
  · by_cases hm : n = s.cells.masterId ue
    · subst hm
      simp [hne, LteRlcUm.deleteQueues, EntityMap.find_deleteQueues]
    · simp [hn, hm]

theorem Placed.tx_deleteOldBuffers (h : Placed s) (hue : getNodeTypeById ue = .UE)
    {t : UmTxEntity} : ((deleteOldBuffers s ue).rlc n).txEntities.find cid = some (i, t) ↔
      (s.rlc n).txEntities.find cid = some (i, t) ∧ ¬(i.sourceId = ue ∨ i.destId = ue) := by
  rw [(find_deleteOldBuffers hue n cid).1]
  constructor
  · intro hfind
    split at hfind
    · cases hfind
    · rename_i hnot
      obtain ⟨rfl, hr, rfl⟩ := h.tx _ _ _ _ hfind
      refine ⟨hfind, fun hof => hnot ?_⟩
      exact (hr.ends hue hof).imp And.left fun hs => ⟨hs.1, (hr.of_ue_iff hue).1 hof⟩
  · rintro ⟨hfind, hnot⟩
    obtain ⟨rfl, hr, rfl⟩ := h.tx _ _ _ _ hfind
    rw [if_neg, hfind]
    rintro (hs | ⟨-, hnode⟩)
    · exact hnot (.inl hs)
    · exact hnot ((hr.of_ue_iff hue).2 hnode)

theorem Placed.rx_deleteOldBuffers (h : Placed s) (hue : getNodeTypeById ue = .UE)
    {u : UmRxEntity} : ((deleteOldBuffers s ue).rlc n).rxEntities.find cid = some (i, u) ↔
      (s.rlc n).rxEntities.find cid = some (i, u) ∧ ¬(i.sourceId = ue ∨ i.destId = ue) := by
  rw [(find_deleteOldBuffers hue n cid).2]
  constructor
  · intro hfind
    split at hfind
    · cases hfind
    · rename_i hnot
      obtain ⟨rfl, hr, hhears, rfl⟩ := h.rx _ _ _ _ hfind
      refine ⟨hfind, fun hof => hnot ?_⟩
      rcases hr.ends hue hof with ⟨-, hd | hd⟩ | ⟨-, hd⟩
      · exact .inr ⟨hd, (hr.of_ue_iff hue).1 hof⟩
      · have hends := hr.hears_iff.1 hhears
        rw [hd, getNodeTypeById_zero] at hends
        rcases hends with ⟨-, hends⟩ | ⟨-, hends⟩ <;> cases hends
      · exact .inl hd
  · rintro ⟨hfind, hnot⟩
    obtain ⟨rfl, hr, -, rfl⟩ := h.rx _ _ _ _ hfind
    rw [if_neg, hfind]
    rintro (hd | ⟨-, hnode⟩)
    · exact hnot (.inr hd)
    · exact hnot ((hr.of_ue_iff hue).2 hnode)

variable {hue : getNodeTypeById ue = .UE} {henb : getNodeTypeById enb = .ENODEB}

theorem Placed.doHandover (h : Placed s) : Placed (doHandover s ue enb hue henb) where
  tx n cid i t hfind := by
    obtain ⟨hfind, hi⟩ := (h.tx_deleteOldBuffers hue).1 hfind
    obtain ⟨hsource, hr, hcid⟩ := h.tx _ _ _ _ hfind
    obtain ⟨hs, hd⟩ := not_or.1 hi
    exact ⟨hsource, hr.doHandover hs hd hue henb, hcid⟩
  rx n cid i u hfind := by
    obtain ⟨hfind, hi⟩ := (h.rx_deleteOldBuffers hue).1 hfind
    obtain ⟨hdest, hr, hhears, hcid⟩ := h.rx _ _ _ _ hfind
    obtain ⟨hs, hd⟩ := not_or.1 hi
    have hhears' := (hears_doHandover hs hd hue henb).trans hhears
    exact ⟨hdest, hr.doHandover hs hd hue henb, hhears', hcid⟩
  air frame hframe := by
    obtain ⟨hmem, hi⟩ := List.mem_filter.1 hframe
    obtain ⟨hs, hd⟩ := of_decide_eq_true hi
    exact (h.air frame hmem).doHandover hs hd hue henb

/-- The connections of the UE start again. -/
theorem Placed.linkOf_doHandover (h : Placed s) (hc : c.source = ue ∨ c.dest = ue) :
    linkOf P (UserPlane.doHandover s ue enb hue henb) c {} =
      UmLink.initial P.um.queueSize P.um.rxWindowSize P.um.lt false := by
  have hof : ∀ i : ConnectionInfo, i.conn = c → i.sourceId = ue ∨ i.destId = ue := by
    rintro i rfl
    exact hc
  have htx : txOf P (UserPlane.doHandover s ue enb hue henb) c = P.um.newTx :=
    EntityMap.entityOf_eq_new fun i t hfind hi => ((h.tx_deleteOldBuffers hue).1 hfind).2 (hof i hi)
  have hrx : rxOf P (UserPlane.doHandover s ue enb hue henb) c =
      UmRxEntity.initial P.um.rxWindowSize P.um.lt false :=
    EntityMap.entityOf_eq_new fun i t hfind hi => ((h.rx_deleteOldBuffers hue).1 hfind).2 (hof i hi)
  rw [linkOf, htx, hrx]
  rfl

theorem Placed.txOf_doHandover (h : Placed s) (hc : ¬(c.source = ue ∨ c.dest = ue)) :
    txOf P (UserPlane.doHandover s ue enb hue henb) c = txOf P s c := by
  refine EntityMap.entityOf_congr fun i t hi => ?_
  subst hi
  exact (h.tx_deleteOldBuffers hue).trans (and_iff_left hc)

theorem Placed.rxOf_doHandover (h : Placed s) (hc : ¬(c.source = ue ∨ c.dest = ue)) :
    rxOf P (UserPlane.doHandover s ue enb hue henb) c = rxOf P s c := by
  refine EntityMap.entityOf_congr fun i u hi => ?_
  subst hi
  exact (h.rx_deleteOldBuffers hue).trans (and_iff_left hc)

theorem airOf_doHandover (c : UmConnection) :
    airOf (UserPlane.doHandover s ue enb hue henb) c =
      if c.source = ue ∨ c.dest = ue then [] else airOf s c := by
  change ((s.air.filter _).filter _).map _ = _
  rw [List.filter_filter]
  split <;> rename_i hc
  · rw [List.filter_eq_nil_iff.2]
    · rfl
    · intro frame _ hframe
      obtain ⟨hconn, hne⟩ := Bool.and_eq_true_iff.1 hframe
      have hconn := of_decide_eq_true hconn
      subst hconn
      exact not_or.2 (of_decide_eq_true hne) hc
  · rw [airOf]
    congr 1
    refine List.filter_congr fun frame _ => ?_
    by_cases hf : frame.1.conn = c
    · subst hf
      simpa using not_or.1 hc
    · simp [hf]

theorem logOf_deleted (hc : c.source = ue ∨ c.dest = ue) :
    logOf c (os ++ [.deleted ue]) = {} := by
  rw [logOf_append, List.foldl_cons, List.foldl_nil, Log.add, if_pos hc]

theorem takenOf_deleted : takenOf c (os ++ [.deleted ue]) = takenOf c os := by
  rw [takenOf_append]
  exact List.append_nil _

theorem upOf_deleted : upOf c (os ++ [.deleted ue]) = upOf c os := by
  rw [upOf_append]
  exact List.append_nil _

end Deleted

/-- What has gone up since the entities were deleted has been taken since then. -/
theorem Kept.up_sublist (h : Kept P s os c old oldUp pos) :
    (logOf c os).up.Sublist (logOf c os).taken := by
  have hmem : (logOf c os).up ⊆ (logOf c os).taken := fun sdu hsdu => by
    obtain ⟨i, -, hget, -⟩ := h.link.gapped.up sdu hsdu
    exact List.mem_of_getElem? hget
  have hnodup : (logOf c os).up.Nodup := by
    refine List.Pairwise.imp (fun {p q} hlt => ?_) h.link.gapped.increasing
    rintro rfl
    exact lt_irrefl _ hlt
  have : Std.Antisymm fun p q : RlcSdu => p.snoMainPacket < q.snoMainPacket :=
    ⟨fun _ _ hlt hgt => absurd hlt (lt_asymm hgt)⟩
  exact List.sublist_of_subperm_of_pairwise (List.subperm_of_subset hnodup hmem)
    h.link.gapped.increasing h.link.stream.increasing

/-- What has been taken and gone up until now was before. -/
theorem Kept.deleted (h : Kept P s os c old oldUp pos) (hplaced : Placed s) {ue enb : MacNodeId}
    {hue : getNodeTypeById ue = .UE} {henb : getNodeTypeById enb = .ENODEB}
    (hc : c.source = ue ∨ c.dest = ue) :
    Kept P (UserPlane.doHandover s ue enb hue henb) (os ++ [.deleted ue]) c (takenOf c os)
      (upOf c os) fun _ => (0, 0) where
  taken := by rw [takenOf_deleted, logOf_deleted hc, List.append_nil]
  up := by rw [upOf_deleted, logOf_deleted hc, List.append_nil]
  sublist := by
    rw [h.taken, h.up]
    exact h.sublist.append h.up_sublist
  increasing := by
    rw [takenOf_deleted]
    exact h.increasing
  numbered := by
    rw [takenOf_deleted]
    exact h.numbered
  air := by rw [airOf_doHandover, if_pos hc, logOf_deleted hc]
  link := by
    rw [logOf_deleted hc, hplaced.linkOf_doHandover hc]
    exact UmLink.inv_initial P.um.pos P.um.lt false

/-- A handover: the connections of the UE start again, the others do not notice. -/
theorem Inv.handover (h : Inv P s os) {ue enb : MacNodeId} (hue : getNodeTypeById ue = .UE)
    (henb : getNodeTypeById enb = .ENODEB) :
    Inv P (UserPlane.doHandover s ue enb hue henb) (os ++ [.deleted ue]) := by
  refine ⟨h.placed.doHandover, fun c => ?_, flows_of_not_taken h rfl fun _ _ _ hmem => ?_⟩
  · obtain ⟨old, oldUp, pos, hkept⟩ := h.kept c
    by_cases hc : c.source = ue ∨ c.dest = ue
    · exact ⟨_, _, _, hkept.deleted h.placed hc⟩
    · refine ⟨old, oldUp, pos, hkept.frame (h.placed.txOf_doHandover hc)
        (h.placed.rxOf_doHandover hc) ?_ le_rfl fun x hx => ?_⟩
      · rw [airOf_doHandover, if_neg hc]
      · rw [List.mem_singleton.1 hx]
        exact hc
  · cases List.mem_singleton.1 hmem

/-! ### Whole runs -/

/-- One event: it keeps the invariant, and it is handled, a packet as long as PDCP has room for one
more flow. -/
theorem Inv.step (h : Inv P s os) (hmap : P.um.mapAllLcidsToSingleBearer = false) {e : Event}
    (hen : e.Enabled s) (hok : e.Ok P s) :
    (∀ s' o, (machine P).step s e = some (s', o) → Inv P s' (os ++ o)) ∧
      (P.steps = TABLE_SIZE → ((machine P).step s e).isSome) := by
  have hstep : (machine P).step s e = _ := dif_pos hen
  rw [hstep]
  cases e with
  | fromDataPort nodeId pkt =>
    refine ⟨fun s' o hst => h.fromDataPort hmap hen hok.2 hst, fun hsteps => ?_⟩
    obtain ⟨seen, entries, hinv, -⟩ := h.flows nodeId
    have hroom : seen.card < TABLE_SIZE := by
      have hlcid := hinv.lcid
      have hle : ((s.pdcp nodeId).rrc.lcid : ℕ) ≤ TABLE_SIZE := hok.1
      omega
    obtain ⟨⟨rrc, lcids⟩, hid⟩ := hinv.exists_identify (f := pkt.flow) rfl (.inr hroom)
    obtain ⟨-, lcid, rfl, -⟩ := hinv.identify rfl hid
    have hpdcp : ∃ r, (s.pdcp nodeId).fromDataPort P.steps pkt = some r := by
      rw [PdcpLayer.fromDataPort, hsteps, hid]
      exact ⟨_, rfl⟩
    obtain ⟨⟨pdcp, lcid', sno⟩, hpdcp⟩ := hpdcp
    obtain ⟨i, -, -, heq⟩ := fromDataPort_cases h.placed hmap hen hpdcp
    change (UserPlane.fromDataPort P s nodeId pkt).isSome = true
    rw [heq]
    rfl
  | sduRequest nodeId cid size =>
    obtain ⟨⟨info, t⟩, hfind⟩ := Option.isSome_iff_exists.1 hen
    obtain ⟨s', o, heq, hinv⟩ := h.sduRequest hmap hfind (hok _ hfind) size
    change (∀ s' o, UserPlane.sduRequest P s nodeId cid size = some (s', o) → _) ∧
      (_ → (UserPlane.sduRequest P s nodeId cid size).isSome = true)
    rw [heq]
    refine ⟨fun s'' o' hst => ?_, fun _ => rfl⟩
    obtain ⟨rfl, rfl⟩ := Prod.mk.inj (Option.some.inj hst)
    exact hinv
  | arrive frame =>
    obtain ⟨s', o, heq, hinv⟩ := h.arrive hen hok
    change (∀ s' o, UserPlane.arrive P s frame = some (s', o) → _) ∧
      (_ → (UserPlane.arrive P s frame).isSome = true)
    rw [heq]
    refine ⟨fun s'' o' hst => ?_, fun _ => rfl⟩
    obtain ⟨rfl, rfl⟩ := Prod.mk.inj (Option.some.inj hst)
    exact hinv
  | timer nodeId cid =>
    obtain ⟨⟨info, u⟩, hfind, hu⟩ := hen
    obtain ⟨s', o, heq, hinv⟩ := h.timer hfind hu
    change (∀ s' o, UserPlane.timer s nodeId cid = some (s', o) → _) ∧
      (_ → (UserPlane.timer s nodeId cid).isSome = true)
    rw [heq]
    refine ⟨fun s'' o' hst => ?_, fun _ => rfl⟩
    obtain ⟨rfl, rfl⟩ := Prod.mk.inj (Option.some.inj hst)
    exact hinv
  | handover ue enb =>
    refine ⟨fun s'' o' hst => ?_, fun _ => rfl⟩
    obtain ⟨rfl, rfl⟩ := Prod.mk.inj (Option.some.inj hst)
    exact h.handover hen.1 hen.2.1

theorem enabled_of_step {e : Event} (hst : (machine P).step s e = some (s', o)) : e.Enabled s := by
  by_contra hen
  rw [show (machine P).step s e = none from dif_neg hen] at hst
  cases hst

theorem inv_exec (hmap : P.um.mapAllLcidsToSingleBearer = false) {cells : Cells}
    {es : List Event} (hrun : (machine P).exec (initial cells) es = some (s, os))
    (hok : ∀ s e s' o, (machine P).Takes (initial cells) es s e s' o → e.Ok P s) :
    Inv P s os :=
  Machine.exec_induction_of (J := fun _ s os => Inv P s os) (inv_initial P cells)
    (fun _ _ _ _ _ _ _ hinv hok hst => (hinv.step hmap (enabled_of_step hst) hok).1 _ _ hst)
    hok hrun

end Steps

/-- **Each flow comes up in order, and no packet twice**: in every run, whatever is lost, doubled
or reordered and wherever the UEs go, what goes up on a connection is a part of what was taken for
it, in the same order, and the packets of a node have the same LCID iff they are of one flow. -/
theorem flows_in_order (P : UserPlaneParams) (hmap : P.um.mapAllLcidsToSingleBearer = false)
    (cells : Cells) {es : List Event} {s : UserPlane} {os : List Out}
    (hrun : (machine P).exec (initial cells) es = some (s, os))
    (hok : ∀ s e s' o, (machine P).Takes (initial cells) es s e s' o → e.Ok P s) :
    (∀ c, (upOf c os).Sublist (takenOf c os) ∧ Increasing (takenOf c os)) ∧
    ∀ info flow sdu info' flow' sdu', .taken info flow sdu ∈ os → .taken info' flow' sdu' ∈ os →
      info.sourceId = info'.sourceId → (info.lcid = info'.lcid ↔ flow = flow') := by
  have hinv := inv_exec hmap hrun hok
  refine ⟨fun c => ?_, fun info flow sdu info' flow' sdu' hmem hmem' hsource => ?_⟩
  · obtain ⟨old, oldUp, pos, hkept⟩ := hinv.kept c
    refine ⟨?_, hkept.increasing⟩
    rw [hkept.taken, hkept.up]
    exact hkept.sublist.append hkept.up_sublist
  · obtain ⟨seen, entries, hpdcp, hflow⟩ := hinv.flows info'.sourceId
    have hentry := hflow info flow sdu hmem hsource
    have hentry' := hflow info' flow' sdu' hmem' rfl
    constructor
    · intro hlcid
      exact hpdcp.inj _ _ _ hentry (hlcid ▸ hentry')
    · intro heq
      exact Option.some.inj (hentry.symm.trans (heq ▸ hentry'))

/-- All UEs are at the eNB 1. -/
def firstCell : Cells where
  nextHop n := if getNodeTypeById n = .ENODEB then n else 1
  masterId _ := 1
  self n hn := if_pos hn
  slave n hn := by
    rw [if_neg (by rw [hn]; decide)]
    exact .inl rfl
  master _ _ := by decide
  noUe n := by
    split
    · rename_i hn
      rw [hn]
      decide
    · decide

/-- A window of 16 PDUs, and one UE with an address. -/
def smallParams : UserPlaneParams where
  um := { rxWindowSize := 16, pos := by decide, lt := sixteen_lt_int }
  steps := TABLE_SIZE
  getMacNodeId _ := 1025

theorem smallLength_lt : 5 < 2147483648 := by decide

/-- A packet to a server. -/
def packetFrom (port : UInt16) : PdcpPacket where
  srcAddr := 0x0A000001
  dstAddr := 0x0A000002
  srcPort := port
  dstPort := 80
  traffic := 0
  length := 5
  pos := by decide
  lt := smallLength_lt

/-- The first flow of the UE. -/
def uplinkInfo (destId : MacNodeId) : ConnectionInfo where
  sourceId := 1025
  destId := destId
  lcid := 1
  direction := some .UL
  traffic := 0
  rlcType := .UM

/-- A PDU with one packet of the first flow. -/
def packetPdu (sno tsn : ℕ) : UmDataPdu := ⟨tsn, 0, [((packetFrom 7).sdu sno, 5)]⟩

/-- The UE sends two packets, the second of which arrives twice, and has two more in its queues
when it goes to the eNB 2.  What it sends then is for the node 0. -/
def movingRun : List Event := [
  .fromDataPort 1025 (packetFrom 7), .sduRequest 1025 (idToMacCid 1025 1) 7,
  .arrive (uplinkInfo 1, packetPdu 0 0), .fromDataPort 1025 (packetFrom 7),
  .sduRequest 1025 (idToMacCid 1025 1) 7, .arrive (uplinkInfo 1, packetPdu 1 1),
  .arrive (uplinkInfo 1, packetPdu 1 1), .fromDataPort 1025 (packetFrom 7),
  .fromDataPort 1025 (packetFrom 8), .handover 1025 2, .fromDataPort 1025 (packetFrom 7),
  .sduRequest 1025 (idToMacCid 1025 1) 7, .arrive (uplinkInfo 0, packetPdu 3 0)]

theorem meets_movingRun : (machine smallParams).Meets (fun s e => Event.Ok smallParams s e)
    (initial firstCell) movingRun := by decide +kernel

theorem flows_in_order_moving : ∃ s os,
    (machine smallParams).exec (initial firstCell) movingRun = some (s, os) ∧
      upOf (uplinkInfo 1).conn os = [(packetFrom 7).sdu 0, (packetFrom 7).sdu 1] ∧
      (upOf (uplinkInfo 1).conn os).Sublist (takenOf (uplinkInfo 1).conn os) := by
  have hup : ((machine smallParams).exec (initial firstCell) movingRun).map
      (fun r => upOf (uplinkInfo 1).conn r.2) =
        some [(packetFrom 7).sdu 0, (packetFrom 7).sdu 1] := by decide +kernel
  obtain ⟨⟨s, os⟩, hrun, hup⟩ := Option.map_eq_some_iff.1 hup
  exact ⟨s, os, hrun, hup, ((flows_in_order smallParams rfl firstCell hrun
    fun s e s' o ht => meets_movingRun.takes ht).1 (uplinkInfo 1).conn).1⟩

/-- **Nothing is missing** where every PDU of a connection has arrived once and in order since its
entities were last deleted: what has been taken since then has gone up or is in the queue. -/
theorem complete_since_deletion (P : UserPlaneParams)
    (hmap : P.um.mapAllLcidsToSingleBearer = false) (cells : Cells) {es : List Event}
    {s : UserPlane} {os : List Out} (hrun : (machine P).exec (initial cells) es = some (s, os))
    (hok : ∀ s e s' o, (machine P).Takes (initial cells) es s e s' o → e.Ok P s)
    (c : UmConnection) (harrived : (logOf c os).arrived = (logOf c os).sent) :
    (logOf c os).taken = (logOf c os).up ++ (txOf P s c).sduQueue := by
  obtain ⟨old, oldUp, pos, hkept⟩ := (inv_exec hmap hrun hok).kept c
  have hlink := hkept.link
  -- the PDUs have their places as their numbers
  have hnumbers : (logOf c os).arrived.map (·.pduSequenceNumber) =
      List.range (logOf c os).sent.length := by
    rw [harrived]
    refine List.ext_getElem (by simp) fun j hj _ => ?_
    have hlen : j < (logOf c os).sent.length := by simpa using hj
    rw [List.getElem_map, List.getElem_range]
    exact (hlink.stream.pdu j _ (List.getElem?_eq_getElem hlen)).1
  have hlen : ((logOf c os).arrived.map (·.pduSequenceNumber)).length =
      (logOf c os).sent.length := by rw [List.length_map, harrived]
  have hio := hlink.inOrder (hnumbers.trans (congrArg List.range hlen.symm))
  have hup := hio.gapless.up
  have hqueue := hlink.place.queue
  change (logOf c os).up = (logOf c os).taken.take
    (pos ((logOf c os).arrived.map (·.pduSequenceNumber)).length).1 at hup
  change (txOf P s c).sduQueue = (logOf c os).taken.drop (pos (logOf c os).sent.length).1 at hqueue
  rw [hqueue, hup, hlen, List.take_append_drop]

theorem complete_since_deletion_first : ∃ s os,
    (machine smallParams).exec (initial firstCell) (movingRun.take 4) = some (s, os) ∧
      (logOf (uplinkInfo 1).conn os).arrived = [packetPdu 0 0] ∧
      (logOf (uplinkInfo 1).conn os).taken =
        (logOf (uplinkInfo 1).conn os).up ++ (txOf smallParams s (uplinkInfo 1).conn).sduQueue := by
  have hlog : ((machine smallParams).exec (initial firstCell) (movingRun.take 4)).map
      (fun r => ((logOf (uplinkInfo 1).conn r.2).arrived, (logOf (uplinkInfo 1).conn r.2).sent)) =
        some ([packetPdu 0 0], [packetPdu 0 0]) := by decide +kernel
  obtain ⟨⟨s, os⟩, hrun, hlog⟩ := Option.map_eq_some_iff.1 hlog
  obtain ⟨harrived, hsent⟩ := Prod.mk.inj hlog
  refine ⟨s, os, hrun, harrived, complete_since_deletion smallParams rfl firstCell hrun
    (fun s e s' o ht => ?_) (uplinkInfo 1).conn (harrived.trans hsent.symm)⟩
  have htakes : (machine smallParams).Takes (initial firstCell)
      (movingRun.take 4 ++ movingRun.drop 4) s e s' o := ht.append_right
  exact meets_movingRun.takes htakes

/-- **The user plane goes on**: after every run, every event that is possible is handled without an
exception, as long as the numbers suffice and PDCP has room for one more flow. -/
theorem user_plane_goes_on (P : UserPlaneParams) (hmap : P.um.mapAllLcidsToSingleBearer = false)
    (hsteps : P.steps = TABLE_SIZE) (cells : Cells) {es : List Event} {s : UserPlane}
    {os : List Out} (hrun : (machine P).exec (initial cells) es = some (s, os))
    (hok : ∀ s e s' o, (machine P).Takes (initial cells) es s e s' o → e.Ok P s) (e : Event)
    (hen : e.Enabled s) (he : e.Ok P s) : ((machine P).step s e).isSome :=
  ((inv_exec hmap hrun hok).step hmap hen he).2 hsteps

theorem user_plane_goes_on_moving : ∃ s os,
    (machine smallParams).exec (initial firstCell) movingRun = some (s, os) ∧
      ((machine smallParams).step s (.fromDataPort 1025 (packetFrom 9))).isSome := by
  have hroom : ((machine smallParams).exec (initial firstCell) movingRun).map
      (fun r => decide (Event.Ok smallParams r.1 (.fromDataPort 1025 (packetFrom 9)))) =
        some true := by decide +kernel
  obtain ⟨⟨s, os⟩, hrun, hroom⟩ := Option.map_eq_some_iff.1 hroom
  exact ⟨s, os, hrun, user_plane_goes_on smallParams rfl rfl firstCell hrun
    (fun s e s' o ht => meets_movingRun.takes ht) _
    (.inl (by decide : getNodeTypeById 1025 = .UE)) (of_decide_eq_true hroom)⟩

end UserPlane

end V2nLte
