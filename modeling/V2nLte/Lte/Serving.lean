import V2nLte.Lte.Network

/-!
# The serving cell of a UE

Six tables say which eNB serves a UE: `masterId` of its PHY, `cellId` of its MAC, `nextHop` and
`dMap` of the binder and the users of the AMCs, up and down.  They agree as long as UEs register
and leave (`Consistent.step`).  A handover breaks the agreement: `doHandover` takes the UE out of
`nextHop` and `dMap` and nothing enters it again (`disagreement_after_switch`), although the
binder's documentation says that the next hop is registered on handovers.

`serving_cell_agreement` puts the two together.
-/

namespace V2nLte

open LteNet

/-- The users of an AMC in one direction. -/
def Amc.users (a : Amc) : Direction → AmcUsers
  | .UL => a.ul
  | .DL => a.dl

/-- The UE `u` is attached to the AMC of `x`. -/
def LteNet.attached (s : LteNet) (x u : MacNodeId) (dir : Direction) : Prop :=
  ∃ a, s.getAmcModule x = some a ∧ (a.users dir).attached u

/-- All tables say that `e` is the serving eNB of the UE `u`. -/
structure Serves (s : LteNet) (u : MacNodeId) (ue : Ue) (e : MacNodeId) : Prop where
  masterId : ue.masterId = e
  cellId : ue.cellId = e
  nextHop : s.binder.getNextHop u = some e
  dMap : ∀ x, s.binder.dMap x u = some true ↔ x = e
  attached : ∀ x dir, s.attached x u dir ↔ x = e

/-- Every UE that is not in a handover has a serving eNB on which all tables agree. -/
def Agreement (s : LteNet) : Prop :=
  ∀ u ue, s.ues u = some ue → s.binder.ueHandoverTriggered u = false → ∃ e, Serves s u ue e

/-! ### The invariant -/

/-- Different nodes are different modules. -/
def LteBinder.Distinct (b : LteBinder) : Prop :=
  ∀ x y id, b.nodeIds x = some id → b.nodeIds y = some id → x = y

/-- The tables agree on all UEs, and there is nothing in them about anyone else. -/
structure Consistent (s : LteNet) : Prop where
  serves : ∀ u ue, s.ues u = some ue → Serves s u ue ue.masterId
  dMap_ue : ∀ x u, s.binder.dMap x u = some true → (s.ues u).isSome = true
  attached_ue : ∀ x u dir, s.attached x u dir → (s.ues u).isSome = true
  registered : ∀ u, (s.ues u).isSome = true → (s.binder.nodeIds u).isSome = true
  distinct : s.binder.Distinct
  nodeIds_le : ∀ x id, s.binder.nodeIds x = some id → 0 < id ∧ id ≤ s.lastOmnetId
  modules_le : ∀ id, (s.modules id).isSome = true → id ≤ s.lastOmnetId

theorem Consistent.agreement {s : LteNet} (h : Consistent s) : Agreement s :=
  fun u ue hue _ => ⟨_, h.serves u ue hue⟩

theorem consistent_init : Consistent {} := by
  refine ⟨fun u ue h => ?_, fun x u h => ?_, fun x u dir h => ?_, fun u h => ?_,
    fun x y id h => ?_, fun x id h => ?_, fun id h => ?_⟩
  · cases h
  · cases h
  · obtain ⟨a, ha, -⟩ := h
    simp [getAmcModule, LteBinder.getOmnetId] at ha
  · cases h
  · cases h
  · cases h
  · cases h

/-- The tables of `s'` are those of `s`. -/
structure SameTables (s s' : LteNet) : Prop where
  nodeIds : s'.binder.nodeIds = s.binder.nodeIds
  nextHop : s'.binder.nextHop = s.binder.nextHop
  dMap : s'.binder.dMap = s.binder.dMap
  amc : s'.getAmcModule = s.getAmcModule
  modules : ∀ id, (s'.modules id).isSome = (s.modules id).isSome
  lastOmnetId : s'.lastOmnetId = s.lastOmnetId
  ues : ∀ u, (s'.ues u).map (fun ue => (ue.masterId, ue.cellId)) =
    (s.ues u).map (fun ue => (ue.masterId, ue.cellId))

variable {s s' : LteNet} {u x m : MacNodeId} {ue ue' : Ue}

/-- What is said about a UE depends on its entries only. -/
theorem Serves.congr {e : MacNodeId} (h : Serves s u ue e)
    (hnext : s'.binder.getNextHop u = s.binder.getNextHop u)
    (hdMap : ∀ x, s'.binder.dMap x u = s.binder.dMap x u)
    (hatt : ∀ x dir, s'.attached x u dir ↔ s.attached x u dir) : Serves s' u ue e := by
  refine ⟨h.masterId, h.cellId, hnext.trans h.nextHop, fun x => ?_, fun x dir => ?_⟩
  · rw [hdMap]; exact h.dMap x
  · rw [hatt]; exact h.attached x dir

theorem Consistent.congr (h : Consistent s) (hs : SameTables s s') : Consistent s' := by
  have hsome : ∀ u, (s'.ues u).isSome = (s.ues u).isSome := fun u => by
    simpa using congrArg Option.isSome (hs.ues u)
  have hatt : ∀ x u dir, s'.attached x u dir ↔ s.attached x u dir := fun x u dir => by
    rw [LteNet.attached, hs.amc, LteNet.attached]
  refine ⟨fun u ue' hue' => ?_, fun x u hd => ?_, fun x u dir ha => ?_, fun u hu => ?_, ?_, ?_,
    fun id hid => ?_⟩
  · have heq := hs.ues u
    rw [hue', Option.map_some] at heq
    obtain ⟨ue, hue, hpair⟩ := Option.map_eq_some_iff.1 heq.symm
    obtain ⟨hmaster, hcell⟩ := Prod.mk.inj hpair
    have hserves : Serves s' u ue ue.masterId := (h.serves u ue hue).congr
      (by rw [LteBinder.getNextHop, hs.nextHop]; rfl) (fun x => by rw [hs.dMap])
      fun x dir => hatt x u dir
    rw [hmaster] at hserves
    exact ⟨rfl, hcell.symm.trans hserves.cellId, hserves.nextHop, hserves.dMap, hserves.attached⟩
  · rw [hsome]
    rw [hs.dMap] at hd
    exact h.dMap_ue x u hd
  · rw [hsome]
    exact h.attached_ue x u dir ((hatt x u dir).1 ha)
  · rw [hs.nodeIds]
    rw [hsome] at hu
    exact h.registered u hu
  · rw [LteBinder.Distinct, hs.nodeIds]; exact h.distinct
  · rw [hs.nodeIds, hs.lastOmnetId]; exact h.nodeIds_le
  · rw [hs.modules] at hid
    rw [hs.lastOmnetId]
    exact h.modules_le id hid

theorem map_serving_update (hue : s.ues u = some ue) (hm : ue'.masterId = ue.masterId)
    (hc : ue'.cellId = ue.cellId) (v : MacNodeId) :
    (Function.update s.ues u (some ue') v).map (fun ue => (ue.masterId, ue.cellId)) =
      (s.ues v).map (fun ue => (ue.masterId, ue.cellId)) := by
  by_cases hv : v = u
  · subst hv; simp [hue, hm, hc]
  · simp [hv]

/-! ### Events that do not change the tables -/

theorem isSome_modifyModule {id k : OmnetId} {f : EnbModule → EnbModule} :
    ((s.modifyModule id f).modules k).isSome = (s.modules k).isSome := by
  by_cases hk : k = id
  · subst hk; simp [modifyModule]
  · simp [modifyModule, hk]

theorem serving_hearBroadcast (s : LteNet) (ue : Ue) (src : MacNodeId) (rssi : ℚ) :
    (s.hearBroadcast ue src rssi).masterId = ue.masterId ∧
      (s.hearBroadcast ue src rssi).cellId = ue.cellId := by
  unfold hearBroadcast handoverHandler
  split_ifs <;> exact ⟨rfl, rfl⟩

theorem sameTables_triggerHandover {o : List LteOut} (hue : s.ues u = some ue)
    (hm : ue'.masterId = ue.masterId) (hc : ue'.cellId = ue.cellId)
    (h : s.triggerHandover u ue' = some (s', o)) : SameTables s s' := by
  rcases triggerHandover_cases h with habort | ⟨⟨id, ip, rfl⟩, -⟩
  · obtain ⟨rfl, -⟩ := Prod.mk.inj habort
    exact ⟨rfl, rfl, rfl, rfl, fun _ => rfl, rfl, map_serving_update hue hm hc⟩
  · refine ⟨rfl, rfl, rfl, ?_, fun _ => isSome_modifyModule, rfl, fun v => ?_⟩
    · rw [getAmcModule_setUe, getAmcModule_modifyModule fun m => EnbModule.amc_setIp2lte ip m,
        getAmcModule_setUe, getAmcModule_setBinder (b := s.binder.addUeHandoverTriggered u) rfl]
    · -- the UE is entered twice
      rw [ues_setUe, ues_modifyModule, ues_setUe, ues_setBinder, Function.update_idem]
      refine map_serving_update hue ?_ ?_ v
      · exact hm
      · exact hc

theorem sameTables_abort (r : HandoverReturn) (hue : s.ues u = some ue)
    (hm : ue'.masterId = ue.masterId) (hc : ue'.cellId = ue.cellId) :
    SameTables s ((s.setUe u ue').abort u r).1 :=
  ⟨rfl, rfl, rfl, rfl, fun _ => rfl, rfl, map_serving_update hue hm hc⟩

theorem sameTables_setUe (hue : s.ues u = some ue) (hm : ue'.masterId = ue.masterId)
    (hc : ue'.cellId = ue.cellId) : SameTables s (s.setUe u ue') :=
  ⟨rfl, rfl, rfl, rfl, fun _ => rfl, rfl, map_serving_update hue hm hc⟩

/-! ### Departure -/

theorem nodeIds_of_getOmnetId {id : OmnetId} (h : s.binder.getOmnetId x = id) (h0 : id ≠ 0) :
    s.binder.nodeIds x = some id := by
  unfold LteBinder.getOmnetId at h
  cases hx : s.binder.nodeIds x with
  | none => rw [hx] at h; exact absurd h.symm h0
  | some k => rw [hx] at h; rw [← h]; rfl

theorem getOmnetId_ne_zero (h : (s.getAmcModule x).isSome = true) :
    s.binder.getOmnetId x ≠ 0 := by
  intro h0
  simp [getAmcModule, h0] at h

/-- Changing the AMC of one eNB changes no other. -/
theorem LteBinder.Distinct.getAmcModule_modifyAmc (h : s.binder.Distinct) {f : Amc → Amc} :
    (s.modifyAmc m f).getAmcModule x =
      if x = m then (s.getAmcModule x).map f else s.getAmcModule x := by
  unfold modifyAmc
  split_ifs with hamc hx hx
  · rw [hx, getAmcModule_mapAmc, if_pos rfl]
  · have hne : s.binder.getOmnetId x ≠ s.binder.getOmnetId m := fun heq =>
      hx (h x m _ (nodeIds_of_getOmnetId heq (getOmnetId_ne_zero hamc))
        (nodeIds_of_getOmnetId rfl (getOmnetId_ne_zero hamc)))
    rw [getAmcModule_mapAmc, if_neg hne]
  · rw [hx, Option.not_isSome_iff_eq_none.1 hamc, Option.map_none]
  · rfl

theorem isSome_modifyAmc {f : Amc → Amc} {id : OmnetId} :
    ((s.modifyAmc m f).modules id).isSome = (s.modules id).isSome := by
  unfold modifyAmc
  split
  · exact isSome_modifyModule
  · rfl

theorem isSome_setLambda {p : Option OmnetId} {v : Bool} {id : OmnetId} :
    ((s.setLambda p u v).modules id).isSome = (s.modules id).isSome := by
  cases p with
  | none => rfl
  | some k => exact isSome_modifyModule

theorem users_detachBoth {a : Amc} {dir : Direction} :
    (a.detachBoth u).users dir = (a.users dir).detachUser u := by
  cases dir <;> rfl

theorem users_attachBoth {a : Amc} {dir : Direction} :
    (a.attachBoth u).users dir = (a.users dir).attachUser u := by
  cases dir <;> rfl

theorem LteBinder.Distinct.attached_detach (h : s.binder.Distinct) {v : MacNodeId}
    {dir : Direction} :
    (s.modifyAmc m (Amc.detachBoth u)).attached x v dir ↔
      s.attached x v dir ∧ ¬ (x = m ∧ v = u) := by
  unfold LteNet.attached
  rw [h.getAmcModule_modifyAmc]
  by_cases hx : x = m
  · simp only [hx, ↓reduceIte, Option.map_eq_some_iff, true_and]
    constructor
    · rintro ⟨-, ⟨a, ha, rfl⟩, hatt⟩
      rw [users_detachBoth, AmcUsers.attached_detachUser] at hatt
      exact ⟨⟨a, ha, hatt.2⟩, hatt.1⟩
    · rintro ⟨⟨a, ha, hatt⟩, hv⟩
      exact ⟨_, ⟨a, ha, rfl⟩, by
        rw [users_detachBoth, AmcUsers.attached_detachUser]; exact ⟨hv, hatt⟩⟩
  · simp [hx]

theorem LteBinder.Distinct.attached_attach (h : s.binder.Distinct) {v : MacNodeId}
    {dir : Direction} (hm : (s.getAmcModule m).isSome = true) :
    (s.modifyAmc m (Amc.attachBoth u)).attached x v dir ↔
      x = m ∧ v = u ∨ s.attached x v dir := by
  unfold LteNet.attached
  rw [h.getAmcModule_modifyAmc]
  by_cases hx : x = m
  · obtain ⟨a, ha⟩ := Option.isSome_iff_exists.1 hm
    simp only [hx, ↓reduceIte, ha, Option.map_some, Option.some.injEq, exists_eq_left', true_and]
    rw [users_attachBoth, AmcUsers.attached_attachUser]
  · simp [hx]

theorem Consistent.finishUe (h : Consistent s) (hue : s.ues u = some ue) :
    Consistent (s.finishUe u ue) := by
  have hserves := h.serves u ue hue
  have hues : (s.finishUe u ue).ues = Function.update s.ues u none := ues_finishUe
  have hbinder : (s.finishUe u ue).binder = s.binder.unregisterNextHop ue.masterId u := by
    simp [LteNet.finishUe]
  have hlast : (s.finishUe u ue).lastOmnetId = s.lastOmnetId := by
    simp [LteNet.finishUe]
  have hamc : (s.finishUe u ue).getAmcModule =
      (s.modifyAmc ue.masterId (Amc.detachBoth u)).getAmcModule := by
    refine (getAmcModule_setLambda (s := LteNet.setBinder _ _)).trans (getAmcModule_setBinder ?_)
    rfl
  -- the modules stay, only the AMC of the cell changes
  have hmodules : ∀ id, ((s.finishUe u ue).modules id).isSome = (s.modules id).isSome := by
    intro id
    exact isSome_setLambda.trans isSome_modifyAmc
  -- the UE is taken out of the tables about it
  have hdMap : ∀ x v, (s.finishUe u ue).binder.dMap x v =
      if x = ue.masterId ∧ v = u then some false else s.binder.dMap x v := by
    intro x v
    rw [hbinder]
    exact LteBinder.setDMap_apply
  have hatt : ∀ x v dir, (s.finishUe u ue).attached x v dir ↔
      s.attached x v dir ∧ ¬ (x = ue.masterId ∧ v = u) := by
    intro x v dir
    rw [LteNet.attached, hamc]
    exact h.distinct.attached_detach
  have hstays : ∀ v, v ≠ u → (s.ues v).isSome = true → ((s.finishUe u ue).ues v).isSome = true := by
    intro v hv hsome
    rwa [hues, Function.update_of_ne hv]
  refine ⟨fun v uev huev => ?_, fun x v hd => ?_, fun x v dir ha => ?_, fun v hv => ?_, ?_, ?_,
    fun id hid => ?_⟩
  · -- the tables about the other UEs are as before
    rw [hues] at huev
    have hv : v ≠ u := by rintro rfl; simp at huev
    rw [Function.update_of_ne hv] at huev
    refine (h.serves v uev huev).congr ?_ (fun x => ?_) fun x dir => ?_
    · rw [hbinder, LteBinder.getNextHop_unregisterNextHop_of_ne hv]
    · rw [hdMap, if_neg fun hx => hv hx.2]
    · rw [hatt]
      exact ⟨fun ha => ha.1, fun ha => ⟨ha, fun hx => hv hx.2⟩⟩
  · rw [hdMap] at hd
    split_ifs at hd with hx
    · cases hd
    · refine hstays v (fun hv => hx ⟨?_, hv⟩) (h.dMap_ue x v hd)
      exact (hserves.dMap x).1 (hv ▸ hd)
  · obtain ⟨ha, hx⟩ := (hatt x v dir).1 ha
    refine hstays v (fun hv => hx ⟨?_, hv⟩) (h.attached_ue x v dir ha)
    exact (hserves.attached x dir).1 (hv ▸ ha)
  · rw [hbinder]
    refine h.registered v ?_
    rw [hues] at hv
    by_cases hvu : v = u
    · rw [hvu, hue]; rfl
    · rwa [Function.update_of_ne hvu] at hv
  · rw [hbinder]; exact h.distinct
  · rw [hbinder, hlast]; exact h.nodeIds_le
  · rw [hmodules] at hid
    rw [hlast]
    exact h.modules_le id hid

/-! ### Registration -/

/-- A node that is not registered serves no one. -/
theorem Consistent.no_user (h : Consistent s) (hx : s.binder.nodeIds x = none) {v : MacNodeId} :
    s.binder.dMap x v ≠ some true := by
  intro hd
  obtain ⟨ue, hue⟩ := Option.isSome_iff_exists.1 (h.dMap_ue x v hd)
  have hserves := h.serves v ue hue
  -- its master has an AMC
  obtain ⟨a, ha, -⟩ := (hserves.attached x .UL).2 ((hserves.dMap x).1 hd)
  simp [getAmcModule, LteBinder.getOmnetId, hx] at ha

theorem Consistent.getOmnetId_le (h : Consistent s) (x : MacNodeId) :
    s.binder.getOmnetId x ≤ s.lastOmnetId := by
  unfold LteBinder.getOmnetId
  cases hx : s.binder.nodeIds x with
  | none => exact Nat.zero_le _
  | some id => exact (h.nodeIds_le x id hx).2

theorem attached_newEnb {parts : EnbParts} {row : MacNodeId → Option Bool} {a : Amc}
    {dir : Direction} (ha : (newEnb parts row).amc = some a) :
    (a.users dir).attached u ↔ row u = some true := by
  have ha : a = ⟨.deployed row, .deployed row⟩ := by
    unfold newEnb EnbModule.amc at ha
    split_ifs at ha <;> simp_all
  subst ha
  cases dir <;> rfl

/-- An eNB is not entered into `dMap`. -/
theorem dMap_registerEnb (parts : EnbParts) :
    (s.registerEnb parts).binder.dMap = s.binder.dMap :=
  if_neg (not_not.2 rfl)

theorem Consistent.attached_registerEnb (h : Consistent s) {parts : EnbParts} {v : MacNodeId}
    {dir : Direction} (hfree : s.binder.nodeIds s.binder.enbCounter = none) :
    (s.registerEnb parts).attached x v dir ↔ s.attached x v dir := by
  have hid : (s.registerEnb parts).binder.getOmnetId x =
      if x = s.binder.enbCounter then s.lastOmnetId + 1 else s.binder.getOmnetId x :=
    LteBinder.getOmnetId_registerNode (t := .ENODEB) (m := 0)
  have hmodules : (s.registerEnb parts).modules = Function.update s.modules (s.lastOmnetId + 1)
      (some (newEnb parts (s.binder.dMap s.binder.enbCounter))) := by
    rw [← dMap_registerEnb parts]
    rfl
  by_cases hx : x = s.binder.enbCounter
  · -- the new eNB has no users, and before it was not there
    have hno : ¬ s.attached x v dir := by
      rintro ⟨a, ha, -⟩
      simp [getAmcModule, LteBinder.getOmnetId, hx, hfree] at ha
    refine ⟨fun ha => ?_, fun ha => absurd ha hno⟩
    obtain ⟨a, ha, hatt⟩ := ha
    unfold getAmcModule at ha
    rw [hid, if_pos hx, if_neg (Nat.succ_ne_zero _)] at ha
    split at ha
    · cases ha
    · rw [getModule, if_neg (Nat.succ_ne_zero _), hmodules, Function.update_self,
        Option.bind_some] at ha
      exact absurd ((attached_newEnb ha).1 hatt) (h.no_user hfree)
  · have hamc : (s.registerEnb parts).getAmcModule x = s.getAmcModule x := by
      have hne : s.binder.getOmnetId x ≠ s.lastOmnetId + 1 :=
        Nat.ne_of_lt (Nat.lt_succ_of_le (h.getOmnetId_le x))
      unfold getAmcModule getModule
      rw [hid, if_neg hx, hmodules, Function.update_of_ne hne]
    rw [LteNet.attached, hamc, LteNet.attached]

theorem isSome_update {α : Type*} {f : MacNodeId → Option α} {y : MacNodeId} {a : α}
    (hx : (f x).isSome = true) : (Function.update f y (some a) x).isSome = true := by
  by_cases hxy : x = y
  · subst hxy; simp
  · rwa [Function.update_of_ne hxy]

theorem Consistent.ne_of_free (h : Consistent s) {y : MacNodeId} (hue : s.ues u = some ue)
    (hy : s.binder.nodeIds y = none) : u ≠ y := by
  rintro rfl
  have hreg := h.registered u (by rw [hue]; rfl)
  rw [hy] at hreg
  exact Bool.false_ne_true hreg

/-- A new node with a new module id keeps the ids of nodes and modules apart. -/
theorem Consistent.registerNode (h : Consistent s) {b : LteBinder} {y : MacNodeId}
    (hb : b.nodeIds = Function.update s.binder.nodeIds y (some (s.lastOmnetId + 1))) :
    b.Distinct ∧ ∀ x id, b.nodeIds x = some id → 0 < id ∧ id ≤ s.lastOmnetId + 1 := by
  have hnew : ∀ x id, b.nodeIds x = some id →
      x = y ∧ id = s.lastOmnetId + 1 ∨
        s.binder.nodeIds x = some id ∧ 0 < id ∧ id < s.lastOmnetId + 1 := by
    intro x id hx
    rw [hb] at hx
    by_cases hxy : x = y
    · subst hxy
      rw [Function.update_self, Option.some.injEq] at hx
      exact .inl ⟨rfl, hx.symm⟩
    · rw [Function.update_of_ne hxy] at hx
      obtain ⟨hpos, hle⟩ := h.nodeIds_le x id hx
      exact .inr ⟨hx, hpos, Nat.lt_succ_of_le hle⟩
  constructor
  · intro x z id hx hz
    rcases hnew x id hx with ⟨rfl, hid⟩ | ⟨hx, -, hlt⟩ <;>
      rcases hnew z id hz with ⟨rfl, hid'⟩ | ⟨hz, -, hlt'⟩
    · rfl
    · exact absurd hid hlt'.ne
    · exact absurd hid' hlt.ne
    · exact h.distinct x z id hx hz
  · intro x id hx
    rcases hnew x id hx with ⟨-, rfl⟩ | ⟨-, hpos, hlt⟩
    · exact ⟨Nat.succ_pos _, le_rfl⟩
    · exact ⟨hpos, hlt.le⟩

theorem Consistent.registerEnb (h : Consistent s) {parts : EnbParts}
    (hfree : s.binder.nodeIds s.binder.enbCounter = none) :
    Consistent (s.registerEnb parts) := by
  have hnodeIds : (s.registerEnb parts).binder.nodeIds =
      Function.update s.binder.nodeIds s.binder.enbCounter (some (s.lastOmnetId + 1)) :=
    LteBinder.nodeIds_registerNode (t := .ENODEB) (m := 0)
  obtain ⟨hinj, hle⟩ := h.registerNode hnodeIds
  refine ⟨fun v ue hue => ?_, fun x v hd => ?_, fun x v dir ha => ?_, fun v hv => ?_, hinj, hle,
    fun id hid => ?_⟩
  · have hserves := h.serves v ue hue
    refine hserves.congr ?_ (fun x => by rw [dMap_registerEnb]) fun x dir =>
      h.attached_registerEnb hfree
    rw [hserves.nextHop]
    exact LteBinder.getNextHop_registerNextHop_of_ne (h.ne_of_free hue hfree) hserves.nextHop
  · rw [dMap_registerEnb] at hd
    exact h.dMap_ue x v hd
  · exact h.attached_ue x v dir ((h.attached_registerEnb hfree).1 ha)
  · rw [hnodeIds]
    exact isSome_update (h.registered v hv)
  · by_cases hk : id = s.lastOmnetId + 1
    · exact hk.le
    · have hold : (s.modules id).isSome = true :=
        (congrArg Option.isSome (Function.update_of_ne hk _ s.modules)).symm.trans hid
      exact (h.modules_le id hold).trans (Nat.le_succ _)

/-- The network while a new UE enters it: it is registered and not yet attached. -/
def LteNet.withUe (s : LteNet) (master : MacNodeId) : LteNet :=
  { s with
    binder := (s.binder.registerNode (s.lastOmnetId + 1) .UE master).1
    lastOmnetId := s.lastOmnetId + 1 }

theorem Consistent.getAmcModule_withUe (h : Consistent s)
    (hfree : s.binder.nodeIds s.binder.ueCounter = none) :
    (s.withUe m).getAmcModule x = s.getAmcModule x := by
  have hid : (s.withUe m).binder.getOmnetId x =
      if x = s.binder.ueCounter then s.lastOmnetId + 1 else s.binder.getOmnetId x :=
    LteBinder.getOmnetId_registerNode (t := .UE) (m := m)
  by_cases hx : x = s.binder.ueCounter
  · -- a UE has no module here
    have hnone : s.modules (s.lastOmnetId + 1) = none := by
      refine Option.not_isSome_iff_eq_none.1 fun hsome => ?_
      exact absurd (h.modules_le _ hsome) (Nat.not_succ_le_self _)
    have hmodule : (s.withUe m).getModule (s.lastOmnetId + 1) = none :=
      (if_neg (Nat.succ_ne_zero _)).trans hnone
    unfold getAmcModule
    rw [hid, if_pos hx, hmodule]
    simp [LteBinder.getOmnetId, hx, hfree]
  · unfold getAmcModule
    rw [hid, if_neg hx]
    rfl

/-- A new UE whose master has an AMC is attached to it. -/
theorem attachNewUe_eq (address : Ipv4Address) (hm : (s.getAmcModule m).isSome = true) :
    s.attachNewUe u m address =
      (s.modifyAmc m (Amc.attachBoth u)).setBinder (s.binder.setMacNodeId address u) := by
  have hamc : ((s.getModule (s.binder.getOmnetId m)).bind EnbModule.amc).isSome = true := by
    unfold getAmcModule at hm
    split_ifs at hm
    · cases hm
    · cases hm
    · exact hm
  rw [attachNewUe, if_pos hamc, modifyAmc, if_pos hm]

/-- The steps in which a UE enters the network. -/
theorem registerUe_eq (rssi : ℚ) (enable : Bool) (address : Ipv4Address)
    (hm : ((s.withUe m).getAmcModule m).isSome = true) :
    ∃ p ue, ue.masterId = m ∧ ue.cellId = m ∧ s.registerUe m rssi enable address =
      ((((s.withUe m).modifyAmc m (Amc.attachBoth s.binder.ueCounter)).setBinder
        ((s.withUe m).binder.setMacNodeId address s.binder.ueCounter)).setLambda p
        s.binder.ueCounter true).setUe s.binder.ueCounter ue := by
  rw [← attachNewUe_eq address hm]
  exact ⟨_, _, rfl, rfl, rfl⟩

/-- What `registerUe` leaves, apart from the attached users. -/
theorem Consistent.registerUe_parts (h : Consistent s) (rssi : ℚ) (enable : Bool)
    (address : Ipv4Address) (hfree : s.binder.nodeIds s.binder.ueCounter = none)
    (hm : (s.getAmcModule m).isSome = true) :
    ∃ ue, ue.masterId = m ∧ ue.cellId = m ∧
      (s.registerUe m rssi enable address).ues =
        Function.update s.ues s.binder.ueCounter (some ue) ∧
      (s.registerUe m rssi enable address).lastOmnetId = s.lastOmnetId + 1 ∧
      (∀ id, ((s.registerUe m rssi enable address).modules id).isSome = (s.modules id).isSome) ∧
      (s.registerUe m rssi enable address).binder.nodeIds =
        Function.update s.binder.nodeIds s.binder.ueCounter (some (s.lastOmnetId + 1)) ∧
      (∀ x v, (s.registerUe m rssi enable address).binder.dMap x v =
        if x = m ∧ v = s.binder.ueCounter then some true else s.binder.dMap x v) ∧
      ∀ v, (s.registerUe m rssi enable address).binder.getNextHop v =
        (s.binder.registerNextHop m s.binder.ueCounter).getNextHop v := by
  have hmaster : m ≠ s.binder.ueCounter := by
    rintro rfl
    simp [getAmcModule, LteBinder.getOmnetId, hfree] at hm
  rw [← h.getAmcModule_withUe (m := m) hfree] at hm
  obtain ⟨p, ue, hmasterId, hcellId, heq⟩ := registerUe_eq rssi enable address hm
  have hbinder : (s.registerUe m rssi enable address).binder =
      (s.withUe m).binder.setMacNodeId address s.binder.ueCounter := by simp [heq]
  refine ⟨ue, hmasterId, hcellId, ?_, ?_, fun id => ?_, ?_, fun x v => ?_, fun v => ?_⟩
  · simp [heq]
    rfl
  · simp [heq]
    rfl
  · rw [heq]
    exact isSome_setLambda.trans isSome_modifyAmc
  · rw [hbinder]
    exact LteBinder.nodeIds_registerNode (t := .UE) (m := m)
  · rw [hbinder]
    exact (congrFun (congrFun (if_pos hmaster) x) v).trans LteBinder.setDMap_apply
  · rw [hbinder]
    rfl

theorem Consistent.attached_registerUe (h : Consistent s) {rssi : ℚ} {enable : Bool}
    {address : Ipv4Address} {v : MacNodeId} {dir : Direction}
    (hfree : s.binder.nodeIds s.binder.ueCounter = none) (hm : (s.getAmcModule m).isSome = true) :
    (s.registerUe m rssi enable address).attached x v dir ↔
      x = m ∧ v = s.binder.ueCounter ∨ s.attached x v dir := by
  have hdistinct : (s.withUe m).binder.Distinct :=
    (h.registerNode (LteBinder.nodeIds_registerNode (t := .UE) (m := m))).1
  rw [← h.getAmcModule_withUe (m := m) hfree] at hm
  obtain ⟨p, ue, -, -, heq⟩ := registerUe_eq rssi enable address hm
  have hold : (s.withUe m).attached x v dir ↔ s.attached x v dir := by
    rw [LteNet.attached, h.getAmcModule_withUe hfree, LteNet.attached]
  have hnodeIds : ((s.withUe m).binder.setMacNodeId address s.binder.ueCounter).nodeIds =
      ((s.withUe m).modifyAmc m (Amc.attachBoth s.binder.ueCounter)).binder.nodeIds := by
    rw [binder_modifyAmc]
    rfl
  rw [heq, LteNet.attached, getAmcModule_setUe, getAmcModule_setLambda,
    getAmcModule_setBinder hnodeIds, ← hold]
  exact hdistinct.attached_attach hm

theorem Consistent.registerUe (h : Consistent s) {rssi : ℚ} {enable : Bool}
    {address : Ipv4Address} (hfree : s.binder.nodeIds s.binder.ueCounter = none)
    (hnew : s.ues s.binder.ueCounter = none) (hm : (s.getAmcModule m).isSome = true) :
    Consistent (s.registerUe m rssi enable address) := by
  have hatt : ∀ x v dir, (s.registerUe m rssi enable address).attached x v dir ↔
      x = m ∧ v = s.binder.ueCounter ∨ s.attached x v dir :=
    fun x v dir => h.attached_registerUe hfree hm
  obtain ⟨ue, hmasterId, hcellId, hues, hlast, hmodules, hnodeIds, hdMap, hnextHop⟩ :=
    h.registerUe_parts rssi enable address hfree hm
  obtain ⟨hdistinct, hle⟩ := h.registerNode hnodeIds
  refine ⟨fun v uev huev => ?_, fun x v hd => ?_, fun x v dir ha => ?_, fun v hv => ?_, hdistinct,
    ?_, fun id hid => ?_⟩
  · -- the new UE is served by its master, the others by whom they were
    rw [hues] at huev
    by_cases hv : v = s.binder.ueCounter
    · -- nothing was known about the new UE
      subst hv
      rw [Function.update_self, Option.some.injEq] at huev
      subst huev
      refine ⟨rfl, hcellId.trans hmasterId.symm, ?_, fun x => ?_, fun x dir => ?_⟩
      · rw [hnextHop, hmasterId]
        exact LteBinder.getNextHop_registerNextHop_self
      · have hno : s.binder.dMap x s.binder.ueCounter ≠ some true := fun hd => by
          simpa [hnew] using h.dMap_ue x _ hd
        rw [hdMap, hmasterId]
        by_cases hx : x = m <;> simp [hx, hno]
      · have hno : ¬ s.attached x s.binder.ueCounter dir := fun ha => by
          simpa [hnew] using h.attached_ue x _ dir ha
        rw [hatt, hmasterId]
        simp [hno]
    · rw [Function.update_of_ne hv] at huev
      have hserves := h.serves v uev huev
      refine hserves.congr ?_ (fun x => ?_) fun x dir => ?_
      · rw [hnextHop, hserves.nextHop]
        exact LteBinder.getNextHop_registerNextHop_of_ne hv hserves.nextHop
      · rw [hdMap, if_neg fun hx => hv hx.2]
      · rw [hatt]
        simp [hv]
  · rw [hues]
    rw [hdMap] at hd
    split_ifs at hd with hx
    · rw [hx.2, Function.update_self]; rfl
    · exact isSome_update (h.dMap_ue x v hd)
  · rw [hues]
    rcases (hatt x v dir).1 ha with hx | ha
    · rw [hx.2, Function.update_self]; rfl
    · exact isSome_update (h.attached_ue x v dir ha)
  · rw [hues] at hv
    rw [hnodeIds]
    by_cases hvu : v = s.binder.ueCounter
    · rw [hvu, Function.update_self]; rfl
    · rw [Function.update_of_ne hvu] at hv
      exact isSome_update (h.registered v hv)
  · rw [hlast]; exact hle
  · rw [hmodules] at hid
    rw [hlast]
    exact (h.modules_le id hid).trans (Nat.le_succ _)

/-! ### The deletion of an eNB that serves no UE -/

theorem Consistent.getAmcModule_deleteEnb (h : Consistent s) :
    (s.deleteEnb m).getAmcModule x = if x = m then none else s.getAmcModule x := by
  have hid : (s.deleteEnb m).binder.getOmnetId x = s.binder.getOmnetId x := rfl
  unfold getAmcModule getModule
  rw [hid]
  by_cases h0 : s.binder.getOmnetId x = 0
  · simp [h0]
  · have hmodule : (s.deleteEnb m).modules (s.binder.getOmnetId x) =
        if x = m then none else s.modules (s.binder.getOmnetId x) := by
      by_cases hx : x = m
      · rw [if_pos hx, hx]
        exact Function.update_self _ _ _
      · have hne : s.binder.getOmnetId x ≠ s.binder.getOmnetId m := fun heq =>
          hx (h.distinct x m _ (nodeIds_of_getOmnetId rfl h0) (nodeIds_of_getOmnetId heq.symm h0))
        rw [if_neg hx]
        exact Function.update_of_ne hne _ _
    rw [hmodule]
    split_ifs <;> rfl

theorem Consistent.deleteEnb (h : Consistent s)
    (hm : ∀ u ue, s.ues u = some ue → ue.masterId ≠ m) : Consistent (s.deleteEnb m) := by
  have hatt : ∀ x v dir, (s.deleteEnb m).attached x v dir ↔ s.attached x v dir := by
    intro x v dir
    rw [LteNet.attached, h.getAmcModule_deleteEnb]
    by_cases hx : x = m
    · -- whoever is attached there is served there
      have hno : ¬ s.attached x v dir := fun ha => by
        obtain ⟨ue, hue⟩ := Option.isSome_iff_exists.1 (h.attached_ue x v dir ha)
        exact hm v ue hue ((((h.serves v ue hue).attached x dir).1 ha).symm.trans hx)
      simp [hx, hx ▸ hno]
    · rw [if_neg hx, LteNet.attached]
  refine ⟨fun v ue hue => ?_, h.dMap_ue, fun x v dir ha => ?_, h.registered, h.distinct,
    h.nodeIds_le, fun id hid => ?_⟩
  · exact (h.serves v ue hue).congr rfl (fun _ => rfl) fun x dir => hatt x v dir
  · exact h.attached_ue x v dir ((hatt x v dir).1 ha)
  · refine h.modules_le id ?_
    by_cases hk : id = s.binder.getOmnetId m
    · subst hk
      simp [LteNet.deleteEnb] at hid
    · simpa [LteNet.deleteEnb, hk] using hid

/-! ### Runs -/

/-- The event is not a handover that is carried out; UEs register at an eNB with an AMC, and no
eNB is deleted that serves a UE. -/
def Settled (s : LteNet) : LteEvent → Prop
  | .registerUe master _ _ _ => (s.getAmcModule master).isSome = true
  | .handoverTrigger u => ∀ ue, s.ues u = some ue → ¬ CarriesOut s ue
  | .deleteEnb id => ∀ u ue, s.ues u = some ue → ue.masterId ≠ id
  | _ => True

variable {e : LteEvent} {o : List LteOut}

theorem Consistent.step (h : Consistent s) (hst : lte.step s e = some (s', o))
    (hs : Settled s e) : Consistent s' := by
  cases lteStep_of_step hst with
  | registerEnb hfree => exact h.registerEnb hfree
  | registerUe hfree hnew => exact h.registerUe hfree hnew hs
  | @broadcast u src rssi ue hue =>
    obtain ⟨hm, hc⟩ := serving_hearBroadcast s ue src rssi
    exact h.congr (sameTables_setUe hue hm hc)
  | handoverStarter hue _ hue' hst =>
    exact h.congr (sameTables_triggerHandover hue (by rw [hue']) (by rw [hue']) hst)
  | @handoverTrigger u ue ue' _ _ hue _ hue' hst =>
    have hno : ¬ CarriesOut (s.setUe u ue') ue' := by
      rw [carriesOut_setUe ue (by rw [hue'])]
      exact hs ue hue
    obtain ⟨r, -, habort⟩ := doHandover_of_not_carriesOut hst hno
    obtain ⟨rfl, -⟩ := Prod.mk.inj habort
    exact h.congr (sameTables_abort r hue (by rw [hue']) (by rw [hue']))
  | hold hue => exact h.congr (sameTables_setUe hue rfl rfl)
  | pass => exact h
  | finishUe hue => exact h.finishUe hue
  | deleteEnb => exact h.deleteEnb hs

/-! ### A handover that is carried out -/

/-- However the second half of `doHandover` is left, the UE stays with its new master, and of the
binder's tables only the list of handovers changes. -/
theorem enterCell_spec {old : MacNodeId} (hue : s.ues u = some ue)
    (hst : s.enterCell u ue old = some (s', o)) :
    (∃ ue', s'.ues u = some ue' ∧ ue'.masterId = ue.masterId) ∧
      s'.binder = s.binder.removeUeHandoverTriggered u := by
  rcases enterCell_cases hst with ⟨r, -, habort⟩ | ⟨⟨p, hues⟩, hbinder, -⟩
  · obtain ⟨rfl, -⟩ := Prod.mk.inj habort
    exact ⟨⟨ue, hue, rfl⟩, rfl⟩
  · exact ⟨⟨_, (congrFun hues u).trans (Function.update_self _ _ _), rfl⟩, hbinder⟩

/-- After a handover the UE has a new master but no next hop. -/
theorem doHandover_of_carriesOut (hst : s.doHandover u ue = some (s', o))
    (h : CarriesOut s ue) :
    (∃ ue', s'.ues u = some ue' ∧ ue'.masterId = ue.candidateMasterId) ∧
      s'.binder = (s.binder.unregisterNextHop ue.masterId u).removeUeHandoverTriggered u := by
  obtain ⟨ue', hues, hmaster, -, -⟩ := ues_switchCell s u ue
  rw [doHandover_eq h hues] at hst
  rw [← hmaster, ← binder_switchCell]
  exact enterCell_spec ((congrFun hues u).trans (Function.update_self _ _ _)) hst

theorem ne_zero_of_enb (hx : getNodeTypeById x = .ENODEB) : x ≠ 0 := by
  rintro rfl
  exact absurd hx (by decide)

theorem disagreement_after_switch (hst : s.doHandover u ue = some (s', o))
    (h : CarriesOut s ue) : ¬ Agreement s' := by
  intro hag
  obtain ⟨⟨ue', hue', hmaster⟩, hbinder⟩ := doHandover_of_carriesOut hst h
  have hdone : s'.binder.ueHandoverTriggered u = false := by
    rw [hbinder]
    exact Function.update_self _ _ _
  obtain ⟨e, hserves⟩ := hag u ue' hue' hdone
  have hzero : e = 0 := by
    have hnext := hserves.nextHop
    rw [hbinder] at hnext
    exact LteBinder.getNextHop_unregisterNextHop_self (m := ue.masterId) hnext
  refine ne_zero_of_enb h.1 ?_
  rw [← hmaster, hserves.masterId, hzero]

/-- **The tables agree exactly until the first handover.**  In every run in which no handover is
carried out (UEs register at eNBs with an AMC, and no eNB is deleted that serves a UE) all tables
agree on the serving eNB of every UE that is not in a handover; and after every handover that is
carried out they do not. -/
theorem serving_cell_agreement (es : List LteEvent) :
    ((∀ s e s' o, lte.Takes {} es s e s' o → Settled s e) →
      ∀ s, lte.Visits {} es s → Agreement s) ∧
    ∀ s u s' o ue, lte.Takes {} es s (.handoverTrigger u) s' o → s.ues u = some ue →
      CarriesOut s ue → ¬ Agreement s' := by
  constructor
  · intro hsettled s hvisits
    refine Consistent.agreement (hvisits.invariant consistent_init ?_)
    rintro s e s' o htakes h
    obtain ⟨es₁, es₂, os, -, -, hst⟩ := id htakes
    exact h.step hst (hsettled s e s' o htakes)
  · rintro s u s' o ue ⟨es₁, es₂, os, -, -, hst⟩ hue hcarries
    cases lteStep_of_step hst with
    | @handoverTrigger _ ue₁ ue' _ _ hue₁ _ hue' hst =>
      obtain rfl : ue = ue₁ := Option.some.inj (hue.symm.trans hue₁)
      refine disagreement_after_switch hst ?_
      rw [carriesOut_setUe ue (by rw [hue'])]
      exact hcarries

/-- Two eNBs and the UE 1025 in the first cell. -/
def twoCells : LteNet := ((({} : LteNet).registerEnb {}).registerEnb {}).registerUe 1 10 true 1

/-- The UE after it has heard the second eNB. -/
def heardSecond : Ue where
  enableHandover := true
  masterId := 1
  candidateMasterId := 2
  currentMasterRssi := 10
  candidateMasterRssi := 30
  hysteresisTh := 3
  handoverStarter := true
  cellInfo := some 1
  cellId := 1

/-- The UE goes from the first to the second cell. -/
def oneHandover : List LteEvent :=
  [.registerEnb {}, .registerEnb {}, .registerUe 1 10 true 1, .broadcast 1025 2 30,
    .handoverStarter 1025, .handoverTrigger 1025]

theorem broadcast_twoCells :
    lte.step twoCells (.broadcast 1025 2 30) = some (twoCells.setUe 1025 heardSecond, []) := by
  have hheard : (twoCells.ues 1025).map (fun ue => twoCells.hearBroadcast ue 2 30) =
      some heardSecond := by decide +kernel
  obtain ⟨ue, hue, hheard⟩ := Option.map_eq_some_iff.1 hheard
  simp only [lte, hue, hheard, Option.map_some]

/-- The network after the start of the handover. -/
def handoverStarted : Option (LteNet × List LteOut) :=
  lte.step (twoCells.setUe 1025 heardSecond) (.handoverStarter 1025)

/-- The UE when the handover latency is over. -/
def ueStarted : Ue := { heardSecond with handoverStarter := false, ueHold := true }

/-- The network after the first half of `doHandover`. -/
def handoverSwitched : Option LteNet :=
  handoverStarted.map fun r => (r.1.setUe 1025 ueStarted).switchCell 1025 ueStarted

set_option maxRecDepth 20000 in
theorem ip2lte_handoverSwitched :
    (handoverSwitched.bind fun s => (s.getModule 2).bind fun k => k.lteNic.bind EnbNic.ip2lte) =
      some {} := rfl

theorem handoverSwitched_parts :
    (handoverSwitched.bind fun s => (s.getModule (s.binder.getOmnetId 2)).bind fun k =>
      k.lteNic.map fun nic => (s.binder.getOmnetId 2, nic.mac.isSome, k.cellInfo.isSome)) =
      some (2, true, true) := by
  decide +kernel

theorem handoverTrigger_completes : ∃ s os s' o, handoverStarted = some (s, os) ∧
    CarriesOut (s.setUe 1025 ueStarted) ueStarted ∧
    (s.setUe 1025 ueStarted).doHandover 1025 ueStarted = some (s', o) ∧
    lte.step s (.handoverTrigger 1025) = some (s', o) ∧ .handover 1025 .completed ∈ o := by
  have hues : (handoverStarted.bind fun r => r.1.ues 1025) =
      some { ueStarted with handoverTrigger := true } := by decide +kernel
  have hamc : (handoverStarted.bind fun r => r.1.getAmcModule 2).isSome = true := by
    decide +kernel
  obtain ⟨⟨s, os⟩, hs, hue⟩ := Option.bind_eq_some_iff.1 hues
  simp only [hs, Option.bind_some] at hamc hue
  have hcarries : CarriesOut (s.setUe 1025 ueStarted) ueStarted := ⟨by decide, hamc⟩
  have hswitched : handoverSwitched =
      some ((s.setUe 1025 ueStarted).switchCell 1025 ueStarted) := by
    rw [handoverSwitched, hs]
    rfl
  have hparts := handoverSwitched_parts
  have hempty := ip2lte_handoverSwitched
  rw [hswitched, Option.bind_some] at hparts hempty
  obtain ⟨k, hk, hparts⟩ := Option.bind_eq_some_iff.1 hparts
  obtain ⟨nic, hnic, hparts⟩ := Option.map_eq_some_iff.1 hparts
  obtain ⟨hid, hmac, hcell⟩ := by simpa only [Prod.mk.injEq] using hparts
  obtain ⟨ue', hues', hmaster, -, -⟩ := ues_switchCell (s.setUe 1025 ueStarted) 1025 ueStarted
  have hdo := doHandover_eq hcarries hues'
  have htarget : ue'.masterId = 2 := hmaster
  rw [← htarget] at hk
  rw [← hid, ← htarget, hk, Option.bind_some, hnic, Option.bind_some] at hempty
  obtain ⟨s', o, hst, hdone⟩ :=
    enterCell_completes 1025 1 hk hnic hmac hcell hempty rfl rfl rfl
  refine ⟨s, os, s', o, hs, hcarries, hdo.trans hst, ?_, hdone⟩
  simp only [lte, hue, Option.bind_some]
  exact hdo.trans hst

theorem exec_twoCells :
    lte.exec {} [.registerEnb {}, .registerEnb {}, .registerUe 1 10 true 1] =
      some (twoCells, []) := rfl

/-- After one completed handover the UE has the master 2 and the next hop 0. -/
theorem no_next_hop_after_handover : ∃ s os ue, lte.exec {} oneHandover = some (s, os) ∧
    .handover 1025 .completed ∈ os ∧ s.ues 1025 = some ue ∧ ue.masterId = 2 ∧
    s.binder.getNextHop 1025 = some 0 ∧ ¬ Agreement s := by
  have hnext : (handoverStarted.bind fun r =>
      (r.1.binder.unregisterNextHop 1 1025).getNextHop 1025) = some 0 := by decide +kernel
  obtain ⟨s, os, s', o, hs, hcarries, hdo, hst, hdone⟩ := handoverTrigger_completes
  obtain ⟨⟨ue, hue, hmaster⟩, hbinder⟩ := doHandover_of_carriesOut hdo hcarries
  rw [hs, Option.bind_some] at hnext
  have hsplit : oneHandover = [.registerEnb {}, .registerEnb {}, .registerUe 1 10 true 1] ++
      [.broadcast 1025 2 30, .handoverStarter 1025, .handoverTrigger 1025] := rfl
  have hrun : lte.exec twoCells [.broadcast 1025 2 30, .handoverStarter 1025,
      .handoverTrigger 1025] = some (s', [] ++ (os ++ (o ++ []))) :=
    Machine.exec_cons_eq_some.2 ⟨_, _, _, broadcast_twoCells,
      Machine.exec_cons_eq_some.2 ⟨_, _, _, hs,
        Machine.exec_cons_eq_some.2 ⟨_, _, _, hst, Machine.exec_nil, rfl⟩, rfl⟩, rfl⟩
  refine ⟨s', [] ++ ([] ++ (os ++ (o ++ []))), ue, ?_, ?_, hue, hmaster, ?_,
    disagreement_after_switch hdo hcarries⟩
  · rw [hsplit]
    exact Machine.exec_append_eq_some.2 ⟨twoCells, _, _, exec_twoCells, hrun, rfl⟩
  · simp [hdone]
  · rw [hbinder, LteBinder.getNextHop_removeUeHandoverTriggered, binder_setUe]
    exact hnext

end V2nLte
