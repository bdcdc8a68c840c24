import V2nLte.Mac.Circular
import V2nLte.Mac.ScoreSchedulers

/-!
# `LteDrr`

Deficit round robin visits the connections of a circular list.  A visit adds a quantum to the
deficit of the connection, offers it a grant and takes what was granted off the deficit.  The loop
works on copies of the list and of the descriptors, which `commitSchedule` makes permanent.

In the first lap every connection is visited once, as long as no grant says `terminate`
(`rounds_pass`); a later grant changes nothing that the schedulers see.  What the visits of a
round leave behind is said once, in `visit_cases`.
-/

namespace V2nLte

/-- The quantum of every connection: `ceil((500 / 500) * 160)`. -/
def DRR_QUANTUM : ℕ := 160

/-- `DrrDesc`. -/
structure DrrDesc where
  /-- What a visit adds to the deficit. -/
  quantum : ℕ := 0
  /-- The bytes that it may still get. -/
  deficit : ℕ := 0
  /-- It is in the active list. -/
  active : Bool := false
  /-- It may still get something in this round. -/
  eligible : Bool := false
  deriving DecidableEq

/-- `LteDrr`.  A descriptor that is not in a map is a new one. -/
structure LteDrr where
  /-- The active connections. -/
  activeList : CircularList MacCid := {}
  /-- The active connections of the round. -/
  activeTempList : CircularList MacCid := {}
  /-- The descriptors. -/
  drrMap : MacCid → DrrDesc := fun _ => {}
  /-- The descriptors of the round. -/
  drrTempMap : MacCid → DrrDesc := fun _ => {}
  /-- The connections that the MAC has made active. -/
  activeConnectionSet : Finset MacCid := ∅
  /-- Those of the round. -/
  activeConnectionTempSet : Finset MacCid := ∅

/-- The variables of `prepareSchedule`. -/
structure DrrRound where
  /-- The scheduler of the eNB. -/
  enb : LteSchedulerEnb
  /-- `activeTempList_`. -/
  list : CircularList MacCid
  /-- `drrTempMap_`. -/
  map : MacCid → DrrDesc
  /-- `activeConnectionTempSet_`. -/
  temp : Finset MacCid
  /-- The connections that may still be eligible. -/
  eligible : ℕ
  /-- The calls of `scheduleGrant` so far. -/
  calls : List GrantCall := []

namespace DrrRound

variable (r : DrrRound) (cid : MacCid)

/-- The deficit that the connection is offered. -/
def offered : ℕ := u32 ((r.map cid).deficit + (r.map cid).quantum)

/-- The descriptor after a grant. -/
def settled (g : Grant) : DrrDesc :=
  let desc := r.map cid
  let deficit := sub32 (r.offered cid) g.granted
  let eligible := desc.eligible && (g.eligible && g.active)
  if g.active = false then { desc with deficit := 0, active := false, eligible := eligible }
  else if g.terminate = true ∧ desc.quantum ≤ deficit then
    -- the quantum is added again when the connection is visited next
    { desc with deficit := deficit - desc.quantum, eligible := eligible }
  else { desc with deficit := deficit, eligible := eligible }

/-- The round after a grant. -/
def settle (enb : LteSchedulerEnb) (g : Grant) : DrrRound where
  enb := enb
  list :=
    if g.active = false then r.list.erase
    else if g.terminate = true ∧ (r.map cid).quantum ≤ sub32 (r.offered cid) g.granted then r.list
    else r.list.move
  map := Function.update r.map cid (r.settled cid g)
  temp := if g.active = false then r.temp.erase cid else r.temp
  eligible := if g.eligible = false ∨ g.active = false then r.eligible - 1 else r.eligible
  calls := r.calls ++ [⟨cid, r.offered cid, g⟩]

/-- The loop is over: the list is empty or no connection is eligible. -/
def finished : Bool := decide (r.list.size = 0 ∨ r.eligible = 0)

end DrrRound

namespace SchedulerEnv

variable (E : SchedulerEnv)

/-- The direction of the scheduler. -/
def flowDirection : FlowDirection :=
  match E.direction with
  | .DL => .DL
  | .UL => .UL

/-- One iteration, and whether it is the last one. -/
def visit (r : DrrRound) : Except SchedulerError (DrrRound × Bool) :=
  match r.list.current with
  | none => .error .outOfRange
  | some cid =>
    if E.binder.getOmnetId (MacCidToNodeId cid) = 0 then
      .ok ({ r with list := r.list.erase, temp := r.temp.erase cid }, false)
    else if (r.map cid).eligible = false then
      .ok ({ r with list := r.list.move, eligible := r.eligible - 1 }, false)
    else do
      let (enb, g) ← E.requestGrant r.enb cid (r.offered cid)
      -- unsigned numbers are never negative
      if sub32 (r.offered cid) g.granted < 0 then .error (.unexpectedDeficit cid (r.offered cid))
      else return (r.settle cid enb g, g.terminate)

/-- The loop of `prepareSchedule`. -/
def rounds : ℕ → DrrRound → Except SchedulerError DrrRound
  | 0, r => if r.finished then .ok r else .error .notFinished
  | n + 1, r =>
    if r.finished then .ok r
    else do
      let (r', stop) ← E.visit r
      if stop then return r' else rounds n r'

end SchedulerEnv

namespace LteDrr

variable (E : SchedulerEnv) (enb : LteSchedulerEnb) (d : LteDrr)

/-- The round at the beginning of `prepareSchedule`. -/
def start : DrrRound where
  enb := enb
  list := d.activeList
  map := d.drrMap
  temp := d.activeConnectionTempSet
  eligible := d.activeList.size

/-- `LteDrr::prepareSchedule`, with the grants it has asked for. -/
def prepareSchedule : Except SchedulerError (LteDrr × LteSchedulerEnb × List GrantCall) := do
  let r ← E.rounds (3 * d.activeList.size) (d.start enb)
  return ({ d with
      activeTempList := r.list
      drrTempMap := r.map
      activeConnectionTempSet := r.temp }, r.enb, r.calls)

/-- `LteDrr::commitSchedule`. -/
def commitSchedule : LteDrr :=
  { d with
    activeList := d.activeTempList
    activeConnectionSet := d.activeConnectionTempSet
    drrMap := d.drrTempMap }

/-- `LteDrr::updateSchedulingInfo`: a descriptor for every connection with a buffer. -/
def updateSchedulingInfo : LteDrr :=
  { d with
    drrMap := fun cid =>
      if (E.conn enb cid).isSome then
        let info := E.computeTxParams (MacCidToNodeId cid) E.flowDirection
        { d.drrMap cid with
          quantum := DRR_QUANTUM
          eligible :=
            enb.allocatedCws (MacCidToNodeId cid) != info.getLayers.length && !info.cqiNull }
      else d.drrMap cid }

/-- `LteDrr::notifyActiveConnection`. -/
def notifyActiveConnection (cid : MacCid) : LteDrr :=
  let alreadyIn := d.activeList.find cid
  let active := if alreadyIn then (d.drrMap cid).active else true
  { d with
    activeConnectionSet := insert cid d.activeConnectionSet
    activeList := if alreadyIn then d.activeList else d.activeList.insert cid
    drrMap :=
      Function.update d.drrMap cid { d.drrMap cid with active := active, eligible := true } }

/-- `LteDrr::removeActiveConnection`; `none` is undefined behaviour. -/
def removeActiveConnection (cid : MacCid) : Option LteDrr := do
  let list ← d.activeList.eraseElem cid
  return { d with activeList := list, activeConnectionSet := d.activeConnectionSet.erase cid }

end LteDrr

namespace SchedulerEnv

variable {E : SchedulerEnv} {r r' : DrrRound} {cid : MacCid} {xs rest : List MacCid} {n : ℕ}
  {stop : Bool} {s s' : LteSchedulerEnb}

/-! ### A visit -/

/-- **What a visit does**: the connection has left, is not eligible or is offered a grant. -/
theorem visit_cases (hring : r.list.Ring) (hr : r.list.rotation = cid :: rest)
    (h : E.visit r = .ok (r', stop)) :
    (E.binder.getOmnetId (MacCidToNodeId cid) = 0 ∧ stop = false ∧
      r' = { r with list := r.list.erase, temp := r.temp.erase cid }) ∨
    (E.binder.getOmnetId (MacCidToNodeId cid) ≠ 0 ∧ (r.map cid).eligible = false ∧
      stop = false ∧ r' = { r with list := r.list.move, eligible := r.eligible - 1 }) ∨
    (E.binder.getOmnetId (MacCidToNodeId cid) ≠ 0 ∧ (r.map cid).eligible = true ∧
      ∃ enb g, E.requestGrant r.enb cid (r.offered cid) = .ok (enb, g) ∧
        stop = g.terminate ∧ r' = r.settle cid enb g) := by
  unfold visit at h
  rw [hring.current_eq hr] at h
  simp only at h
  split at h <;> rename_i hreg
  · cases h
    exact .inl ⟨hreg, rfl, rfl⟩
  · split at h <;> rename_i hel
    · cases h
      exact .inr (.inl ⟨hreg, hel, rfl, rfl⟩)
    · obtain ⟨⟨enb, g⟩, hgrant, h⟩ := bind_eq_ok.1 h
      simp only [Nat.not_lt_zero, if_false] at h
      cases h
      exact .inr (.inr ⟨hreg, by simpa using hel, enb, g, hgrant, rfl, rfl⟩)

theorem rounds_cases (h : E.rounds n r = .ok r') :
    (r.finished = true ∧ r' = r) ∨
      (r.finished = false ∧ ∃ m r₁ stop, n = m + 1 ∧ E.visit r = .ok (r₁, stop) ∧
        ((stop = true ∧ r' = r₁) ∨ (stop = false ∧ E.rounds m r₁ = .ok r'))) := by
  cases n with
  | zero =>
    unfold rounds at h
    split at h <;> rename_i hover
    · cases h
      exact .inl ⟨hover, rfl⟩
    · cases h
  | succ m =>
    unfold rounds at h
    split at h <;> rename_i hover
    · cases h
      exact .inl ⟨hover, rfl⟩
    · obtain ⟨⟨r₁, stop⟩, hvisit, h⟩ := bind_eq_ok.1 h
      refine .inr ⟨by simpa using hover, m, r₁, stop, rfl, hvisit, ?_⟩
      simp only at h
      split at h <;> rename_i hstop
      · cases h
        exact .inl ⟨hstop, rfl⟩
      · exact .inr ⟨by simpa using hstop, h⟩

theorem exists_rotation (hring : r.list.Ring) (h : r.finished = false) :
    ∃ cid rest, r.list.rotation = cid :: rest := by
  unfold DrrRound.finished at h
  have hs : r.list.rotation ≠ [] := fun h₀ =>
    of_decide_eq_false h (.inl (hring.size_eq_zero.2 h₀))
  exact List.exists_cons_of_ne_nil hs

/-- **The invariant rule** for the loop. -/
theorem rounds_induction {I : DrrRound → Prop} (h₀ : I r)
    (hstep : ∀ r r₁ stop, I r → r.finished = false → E.visit r = .ok (r₁, stop) → I r₁)
    (h : E.rounds n r = .ok r') : I r' := by
  induction n generalizing r with
  | zero =>
    obtain ⟨-, rfl⟩ | ⟨-, m, -, -, hm, -⟩ := rounds_cases h
    · exact h₀
    · cases hm
  | succ n ih =>
    obtain ⟨-, rfl⟩ | ⟨hover, m, r₁, stop, hm, hvisit, h⟩ := rounds_cases h
    · exact h₀
    · obtain rfl := Nat.succ.inj hm
      have h₁ := hstep r r₁ stop h₀ hover hvisit
      rcases h with ⟨-, rfl⟩ | ⟨-, h⟩
      · exact h₁
      · exact ih h₁ h

theorem settle_list_cases (r : DrrRound) (cid : MacCid) (enb : LteSchedulerEnb) (g : Grant) :
    (r.settle cid enb g).list = r.list.erase ∨ (r.settle cid enb g).list = r.list ∨
      (r.settle cid enb g).list = r.list.move := by
  unfold DrrRound.settle
  dsimp only
  split
  · exact .inl rfl
  · split
    · exact .inr (.inl rfl)
    · exact .inr (.inr rfl)

theorem ring_settle (hring : r.list.Ring) (cid : MacCid) (enb : LteSchedulerEnb) (g : Grant) :
    (r.settle cid enb g).list.Ring := by
  rcases settle_list_cases r cid enb g with hl | hl | hl <;> rw [hl]
  · exact hring.erase
  · exact hring
  · exact hring.move

theorem visit_kept (hwf : r.enb.allocator.Wf) (hring : r.list.Ring) (hover : r.finished = false)
    (h : E.visit r = .ok (r', stop)) : r'.enb.allocator.Wf ∧ r'.list.Ring ∧
      r'.list.list.Subperm r.list.list := by
  obtain ⟨cid, rest, hrot⟩ := exists_rotation hring hover
  have herase : r.list.erase.list.Subperm r.list.list := by
    refine (CircularList.rotation_perm _).symm.subperm.trans
      (List.Subperm.trans ?_ (CircularList.rotation_perm _).subperm)
    rw [hring.rotation_erase hrot, hrot]
    exact (List.sublist_cons_self _ _).subperm
  have hmove : r.list.move.list = r.list.list := by
    unfold CircularList.move
    split <;> rfl
  rcases visit_cases hring hrot h with ⟨-, -, rfl⟩ | ⟨-, -, -, rfl⟩ | ⟨-, -, enb, g, hgrant, -, rfl⟩
  · exact ⟨hwf, hring.erase, herase⟩
  · exact ⟨hwf, hring.move, hmove ▸ .refl _⟩
  · refine ⟨((requestGrant_outcome hgrant).wf hwf).1, ring_settle hring cid enb g, ?_⟩
    rcases settle_list_cases r cid enb g with hl | hl | hl
    · rw [hl]
      exact herase
    · rw [hl]
    · rw [hl, hmove]

theorem rounds_kept (hwf : r.enb.allocator.Wf) (hring : r.list.Ring) (h : E.rounds n r = .ok r') :
    r'.enb.allocator.Wf ∧ r'.list.Ring ∧ r'.list.list.Subperm r.list.list := by
  refine rounds_induction (I := fun t => t.enb.allocator.Wf ∧ t.list.Ring ∧
    t.list.list.Subperm r.list.list) ⟨hwf, hring, .refl _⟩ ?_ h
  intro t t₁ stop hI hover hvisit
  obtain ⟨hwf₁, hring₁, hsub⟩ := visit_kept hI.1 hI.2.1 hover hvisit
  exact ⟨hwf₁, hring₁, hsub.trans hI.2.2⟩

/-! ### The loop ends -/

/-- What is left to do: connections to remove, to find not eligible and to give a codeword. -/
def work (r : DrrRound) : ℕ :=
  r.list.list.length + r.eligible +
    r.list.rotation.countP fun c => r.enb.allocatedCws (MacCidToNodeId c) == 0

/-- Every visit but the last one does some of it. -/
theorem work_lt (hring : r.list.Ring) (hover : r.finished = false)
    (h : E.visit r = .ok (r', false)) : work r' < work r := by
  obtain ⟨cid, rest, hrot⟩ := exists_rotation hring hover
  have hpos : 0 < r.eligible := by
    unfold DrrRound.finished at hover
    have hno := of_decide_eq_false hover
    omega
  have hlen : r.list.list.length = rest.length + 1 := by
    rw [← CircularList.length_rotation, hrot, List.length_cons]
  have herase : r.list.erase.list.length = rest.length := by
    rw [← CircularList.length_rotation, hring.rotation_erase hrot]
  have hmove : r.list.move.list.length = rest.length + 1 := by
    rw [← CircularList.length_rotation, hring.rotation_move hrot, List.length_append]
    rfl
  unfold work
  rcases visit_cases hring hrot h with ⟨-, -, rfl⟩ | ⟨-, -, -, rfl⟩ |
    ⟨hreg, -, enb, g, hgrant, hstop, rfl⟩
  · simp only [herase, hring.rotation_erase hrot, hrot, hlen, List.countP_cons]
    omega
  · simp only [hmove, hring.rotation_move hrot, hrot, hlen, List.countP_append, List.countP_cons,
      List.countP_nil]
    omega
  · have ho := requestGrant_outcome hgrant
    have hterm : g.terminate = false := hstop.symm
    -- codewords are only given, not taken back
    have hmono : ∀ l : List MacCid,
        l.countP (fun c => enb.allocatedCws (MacCidToNodeId c) == 0) ≤
          l.countP (fun c => r.enb.allocatedCws (MacCidToNodeId c) == 0) := fun l => by
      refine List.countP_mono_left fun c _ hc => ?_
      have hle := ho.cws_le (MacCidToNodeId c)
      simp only [beq_iff_eq] at hc ⊢
      omega
    have hrest := hmono rest
    have henb : (r.settle cid enb g).enb = enb := rfl
    rw [henb]
    cases ha : g.active
    · -- a connection that becomes inactive leaves the list
      have hlist : (r.settle cid enb g).list = r.list.erase := by simp [DrrRound.settle, ha]
      have hel : (r.settle cid enb g).eligible = r.eligible - 1 := by simp [DrrRound.settle, ha]
      rw [hlist, hel, herase, hring.rotation_erase hrot, hrot, hlen, List.countP_cons]
      omega
    · -- one that stays active goes behind the others
      have hlist : (r.settle cid enb g).list = r.list.move := by
        simp [DrrRound.settle, ha, hterm]
      rw [hlist, hmove, hring.rotation_move hrot, hrot, hlen, List.countP_append,
        List.countP_cons, List.countP_cons, List.countP_nil]
      cases he : g.eligible
      · have hel : (r.settle cid enb g).eligible = r.eligible - 1 := by
          simp [DrrRound.settle, he]
        have hhead := hmono [cid]
        rw [List.countP_cons, List.countP_cons, List.countP_nil, List.countP_nil] at hhead
        rw [hel]
        omega
      · -- the UE has got its codeword
        have hcws := (ho.stays hterm ha he).2
        have hzero : r.enb.allocatedCws (MacCidToNodeId cid) = 0 := by
          have hno := mt (ho.terminate_iff hreg).2 (by simp [hterm])
          exact Nat.eq_zero_of_not_pos fun hp => hno (.inr hp)
        have hel : (r.settle cid enb g).eligible = r.eligible := by
          simp [DrrRound.settle, ha, he]
        rw [hel, hzero, if_pos (beq_self_eq_true 0), if_neg (by simpa using hcws.ne')]
        omega

/-- **The loop of `prepareSchedule` ends**: an exception it throws is one of a grant. -/
theorem rounds_error {e : SchedulerError} (hwf : r.enb.allocator.Wf) (hring : r.list.Ring)
    (hn : work r ≤ n) (h : E.rounds n r = .error e) :
    ∃ s c b, E.requestGrant s c b = .error e := by
  induction n generalizing r with
  -- no work is left, so the list is empty
  | zero =>
    have hlen : r.list.list.length = 0 := by
      unfold work at hn
      omega
    have hover : r.finished = true := by
      rw [DrrRound.finished, hring.size_eq, hlen]
      rfl
    unfold rounds at h
    rw [if_pos hover] at h
    cases h
  | succ n ih =>
    unfold rounds at h
    split at h <;> rename_i hover
    · cases h
    have hover : r.finished = false := by simpa using hover
    cases hvisit : E.visit r with
    -- a visit takes away from the work that is left
    | ok p =>
      obtain ⟨r₁, stop⟩ := p
      rw [hvisit] at h
      simp only [bind, Except.bind] at h
      split at h <;> rename_i hstop
      · cases h
      · obtain rfl : stop = false := by simpa using hstop
        obtain ⟨hwf₁, hring₁, -⟩ := visit_kept hwf hring hover hvisit
        have hlt := work_lt hring hover hvisit
        exact ih hwf₁ hring₁ (by omega) h
    -- only a grant can fail
    | error e' =>
      rw [hvisit] at h
      cases h
      obtain ⟨cid, rest, hrot⟩ := exists_rotation hring hover
      unfold visit at hvisit
      rw [hring.current_eq hrot] at hvisit
      simp only at hvisit
      split at hvisit
      · cases hvisit
      split at hvisit
      · cases hvisit
      cases hgrant : E.requestGrant r.enb cid (r.offered cid) with
      | error e'' =>
        rw [hgrant] at hvisit
        cases hvisit
        exact ⟨_, _, _, hgrant⟩
      | ok p =>
        rw [hgrant] at hvisit
        simp only [bind, Except.bind, Nat.not_lt_zero, if_false] at hvisit
        cases hvisit

/-! ### The first lap -/

/-- A connection that has been visited: it is not eligible any more, or its UE has a codeword. -/
def Spent (E : SchedulerEnv) (r : DrrRound) (c : MacCid) : Prop :=
  E.binder.getOmnetId (MacCidToNodeId c) ≠ 0 ∧ ((r.map c).eligible = false ∨
    (0 < r.enb.allocatedCws (MacCidToNodeId c) ∧ c ∈ r.calls.map GrantCall.cid))

/-- **The rule for what comes after the first lap**: visits that skip, and at most one grant, to a
UE that has a codeword. -/
theorem rounds_rest {I : DrrRound → Prop} (h₀ : I r) (hring : r.list.Ring)
    (hspent : ∀ c ∈ r.list.list, E.Spent r c)
    (hskip : ∀ r, I r → I { r with list := r.list.move, eligible := r.eligible - 1 })
    (hlast : ∀ r cid enb g, I r → E.requestGrant r.enb cid (r.offered cid) = .ok (enb, g) →
      g.terminate = true → cid ∈ r.calls.map GrantCall.cid → I (r.settle cid enb g))
    (h : E.rounds n r = .ok r') : I r' := by
  induction n generalizing r with
  | zero =>
    obtain ⟨-, rfl⟩ | ⟨-, m, -, -, hm, -⟩ := rounds_cases h
    · exact h₀
    · cases hm
  | succ n ih =>
    obtain ⟨-, rfl⟩ | ⟨hover, m, r₁, stop, hm, hvisit, h⟩ := rounds_cases h
    · exact h₀
    obtain rfl := Nat.succ.inj hm
    obtain ⟨cid, rest, hrot⟩ := exists_rotation hring hover
    have hmem : ∀ c, c ∈ cid :: rest → E.Spent r c := fun c hc =>
      hspent c (CircularList.mem_rotation.1 (hrot ▸ hc))
    obtain ⟨hreg, hdone⟩ := hmem cid List.mem_cons_self
    rcases visit_cases hring hrot hvisit with ⟨hgone, -, -⟩ | ⟨-, -, rfl, rfl⟩ |
      ⟨-, hel, enb, g, hgrant, rfl, rfl⟩
    · exact absurd hgone hreg
    · rcases h with ⟨hf, -⟩ | ⟨-, h⟩
      · cases hf
      · refine ih (r := { r with list := r.list.move, eligible := r.eligible - 1 }) (hskip r h₀)
          hring.move (fun c hc => hmem c ?_) h
        rw [← CircularList.mem_rotation, hring.rotation_move hrot] at hc
        exact (List.perm_append_singleton cid rest).mem_iff.1 hc
    · obtain hf | ⟨hcws, hcall⟩ := hdone
      · rw [hel] at hf
        cases hf
      have ht := ((requestGrant_outcome hgrant).terminate_iff hreg).2 (.inr hcws)
      rcases h with ⟨-, rfl⟩ | ⟨hf, -⟩
      · exact hlast r cid enb g h₀ hgrant ht hcall
      · rw [ht] at hf
        cases hf

/-- A connection ends a DRR round although there may be blocks: its UE has a codeword. -/
def CutsDrr (s : LteSchedulerEnb) (cid : MacCid) : Prop :=
  0 < s.allocatedCws (MacCidToNodeId cid)

/-- A grant for `cid` ends a DRR round: no space, or a second codeword. -/
def EndsDrr (E : SchedulerEnv) (s : LteSchedulerEnb) (cid : MacCid) : Prop :=
  E.SpaceEnded s cid ∨ CutsDrr s cid

/-- The connections that are not offered a grant: the UE has left or the descriptor says so. -/
def Skips (E : SchedulerEnv) (map : MacCid → DrrDesc) (c : MacCid) : Prop :=
  E.binder.getOmnetId (MacCidToNodeId c) = 0 ∨ (map c).eligible = false

instance (map : MacCid → DrrDesc) : DecidablePred (E.Skips map) := fun _ =>
  inferInstanceAs (Decidable (_ ∨ _))

theorem Spent.mono {r₁ : DrrRound} {c : MacCid} (h : E.Spent r c)
    (hmap : (r.map c).eligible = false → (r₁.map c).eligible = false)
    (hcws : r.enb.allocatedCws (MacCidToNodeId c) ≤ r₁.enb.allocatedCws (MacCidToNodeId c))
    (hcalls : c ∈ r.calls.map GrantCall.cid → c ∈ r₁.calls.map GrantCall.cid) :
    E.Spent r₁ c :=
  ⟨h.1, h.2.imp hmap fun ⟨h₁, h₂⟩ => ⟨Nat.lt_of_lt_of_le h₁ hcws, hcalls h₂⟩⟩

theorem settle_map_ne {enb : LteSchedulerEnb} {g : Grant} {c : MacCid} (hc : c ≠ cid) :
    (r.settle cid enb g).map c = r.map c := Function.update_of_ne hc _ _

theorem mem_calls_settle {enb : LteSchedulerEnb} {g : Grant} {c : MacCid} :
    c ∈ (r.settle cid enb g).calls.map GrantCall.cid ↔
      c ∈ r.calls.map GrantCall.cid ∨ c = cid := by
  simp [DrrRound.settle]

/-- After a grant that does not end the round, the connection leaves the list or goes behind the
visited ones. -/
theorem settle_lap {todo spent : List MacCid} {enb : LteSchedulerEnb} {g : Grant}
    (hring : r.list.Ring)
    (hrot : r.list.rotation = cid :: (todo ++ spent)) (hnodup : (cid :: (todo ++ spent)).Nodup)
    (hspent : ∀ c ∈ spent, E.Spent r c) (hreg : E.binder.getOmnetId (MacCidToNodeId cid) ≠ 0)
    (hgrant : E.requestGrant r.enb cid (r.offered cid) = .ok (enb, g))
    (ht : g.terminate = false) :
    ∃ spent', (r.settle cid enb g).list.Ring ∧
      (r.settle cid enb g).list.rotation = todo ++ spent' ∧ (todo ++ spent').Nodup ∧
      ∀ c ∈ spent', E.Spent (r.settle cid enb g) c := by
  have ho := requestGrant_outcome hgrant
  obtain ⟨hnot, hnodup'⟩ := List.nodup_cons.1 hnodup
  have hspent' : ∀ c ∈ spent, E.Spent (r.settle cid enb g) c := by
    intro c hc
    have hne : c ≠ cid := fun heq => hnot (List.mem_append_right _ (heq ▸ hc))
    refine (hspent c hc).mono (fun hf => ?_) (ho.cws_le _) fun hm => mem_calls_settle.2 (.inl hm)
    rw [settle_map_ne hne]
    exact hf
  cases ha : g.active with
  | false =>
    -- the queue is empty
    have hlist : (r.settle cid enb g).list = r.list.erase := by simp [DrrRound.settle, ha]
    rw [hlist]
    exact ⟨spent, hring.erase, hring.rotation_erase hrot, hnodup', hspent'⟩
  | true =>
    have hlist : (r.settle cid enb g).list = r.list.move := by simp [DrrRound.settle, ha, ht]
    rw [hlist]
    refine ⟨spent ++ [cid], hring.move, ?_, ?_, fun c hc => ?_⟩
    · rw [hring.rotation_move hrot, List.append_assoc]
    · rw [← List.append_assoc]
      exact (List.perm_append_singleton cid _).nodup_iff.2 hnodup
    · rcases List.mem_append.1 hc with hc | hc
      · exact hspent' c hc
      · rw [List.mem_singleton.1 hc]
        refine ⟨hreg, ?_⟩
        cases he : g.eligible with
        | false =>
          left
          simp [DrrRound.settle, DrrRound.settled, ha, he, ht]
        | true =>
          right
          exact ⟨(ho.stays ht ha he).2, mem_calls_settle.2 (.inr rfl)⟩

/-- The first lap: the connections `todo` have not been visited yet, the connections `spent` have.
`map` are the descriptors before the round. -/
structure Lap (E : SchedulerEnv) (map : MacCid → DrrDesc) (r : DrrRound)
    (todo spent : List MacCid) : Prop where
  wf : r.enb.allocator.Wf
  ring : r.list.Ring
  rotation : r.list.rotation = todo ++ spent
  nodup : (todo ++ spent).Nodup
  /-- The loop is not over before the lap is. -/
  eligible : todo.length ≤ r.eligible
  map : ∀ c ∈ todo, r.map c = map c
  spent : ∀ c ∈ spent, E.Spent r c

/-- The loop goes on with a visit as long as there is someone to visit. -/
theorem Lap.rounds {map : MacCid → DrrDesc} {todo spent : List MacCid}
    (h : Lap E map r (cid :: todo) spent) (hr : E.rounds n r = .ok r') :
    ∃ m r₁ stop, E.visit r = .ok (r₁, stop) ∧
      (stop = true ∧ r' = r₁ ∨ stop = false ∧ E.rounds m r₁ = .ok r') := by
  obtain ⟨hover, -⟩ | ⟨-, m, r₁, stop, -, hvisit, hr⟩ := rounds_cases hr
  · have hsize : r.list.size ≠ 0 := fun h₀ => by
      rw [h.ring.size_eq_zero, h.rotation] at h₀
      cases h₀
    have hel := h.eligible
    rcases of_decide_eq_true hover with h₀ | h₀
    · exact absurd h₀ hsize
    · rw [h₀] at hel
      cases hel
  · exact ⟨m, r₁, stop, hvisit, hr⟩

/-- **A visit of the first lap**: the connection is skipped, or it is offered a grant, its first
one in the round. -/
theorem Lap.visit {map : MacCid → DrrDesc} {todo spent : List MacCid}
    (h : Lap E map r (cid :: todo) spent) (hvisit : E.visit r = .ok (r', stop)) :
    (E.Skips map cid ∧ stop = false ∧ r'.enb = r.enb ∧ r'.map = r.map ∧ r'.calls = r.calls ∧
      ∃ spent', Lap E map r' todo spent') ∨
    (¬E.Skips map cid ∧ ∃ enb g, E.requestGrant r.enb cid (r.offered cid) = .ok (enb, g) ∧
      stop = g.terminate ∧ r' = r.settle cid enb g ∧
      (stop = false → ∃ spent', Lap E map r' todo spent')) := by
  have hrot : r.list.rotation = cid :: (todo ++ spent) := h.rotation
  obtain ⟨hnot, hnodup⟩ := List.nodup_cons.1 h.nodup
  have hel := h.eligible
  rw [List.length_cons] at hel
  have hmap : ∀ c ∈ todo, r.map c = map c := fun c hc => h.map c (List.mem_cons_of_mem _ hc)
  have hcid := h.map cid List.mem_cons_self
  rcases visit_cases h.ring hrot hvisit with ⟨hreg, rfl, rfl⟩ | ⟨hreg, hinel, rfl, rfl⟩ |
    ⟨hreg, helig, enb, g, hgrant, rfl, rfl⟩
  · -- the UE has left
    exact .inl ⟨.inl hreg, rfl, rfl, rfl, rfl, spent, h.wf, h.ring.erase,
      h.ring.rotation_erase hrot, hnodup, Nat.le_of_succ_le hel, hmap, h.spent⟩
  · -- a connection that stays in the list goes behind the visited ones
    have hback : (todo ++ (spent ++ [cid])).Nodup := by
      rw [← List.append_assoc]
      exact (List.perm_append_singleton cid _).nodup_iff.2 h.nodup
    refine .inl ⟨.inr (hcid ▸ hinel), rfl, rfl, rfl, rfl, spent ++ [cid], h.wf, h.ring.move,
      ?_, hback, Nat.le_sub_one_of_lt hel, hmap, fun c hc => ?_⟩
    · rw [h.ring.rotation_move hrot, List.append_assoc]
    · rcases List.mem_append.1 hc with hc | hc
      · exact h.spent c hc
      · rw [List.mem_singleton.1 hc]
        exact ⟨hreg, .inl hinel⟩
  · -- a connection that is offered a grant
    have hskip : ¬E.Skips map cid := by
      rintro (h₀ | h₀)
      · exact hreg h₀
      · rw [← hcid, helig] at h₀
        cases h₀
    refine .inr ⟨hskip, enb, g, hgrant, rfl, rfl, fun ht => ?_⟩
    obtain ⟨spent', hring', hrot', hnodup', hspent'⟩ :=
      settle_lap h.ring hrot h.nodup h.spent hreg hgrant ht
    refine ⟨spent', ((requestGrant_outcome hgrant).wf h.wf).1, hring', hrot', hnodup', ?_,
      fun c hc => ?_, hspent'⟩
    · simp only [DrrRound.settle]
      split <;> omega
    · have hne : c ≠ cid := by
        rintro rfl
        exact hnot (List.mem_append_left _ hc)
      rw [settle_map_ne hne]
      exact hmap c hc

end SchedulerEnv

namespace LteDrr

open SchedulerEnv

variable {E : SchedulerEnv} {enb enb' : LteSchedulerEnb} {d d' : LteDrr}
  {calls : List GrantCall}

theorem prepareSchedule_eq_ok (h : d.prepareSchedule E enb = .ok (d', enb', calls)) :
    ∃ r, E.rounds (3 * d.activeList.size) (d.start enb) = .ok r ∧ enb' = r.enb ∧
      calls = r.calls ∧ d' = { d with
        activeTempList := r.list
        drrTempMap := r.map
        activeConnectionTempSet := r.temp } := by
  obtain ⟨r, hr, h⟩ := bind_eq_ok.1 h
  cases h
  exact ⟨r, hr, rfl, rfl, rfl⟩

theorem prepareSchedule_ends {e : SchedulerError} (hwf : enb.allocator.Wf)
    (hring : d.activeList.Ring) (h : d.prepareSchedule E enb = .error e) :
    ∃ s c b, E.requestGrant s c b = .error e := by
  have hwork : work (d.start enb) ≤ 3 * d.activeList.size := by
    have hcount := List.countP_le_length
      (p := fun c => enb.allocatedCws (MacCidToNodeId c) == 0) (l := d.activeList.rotation)
    rw [CircularList.length_rotation] at hcount
    simp only [work, start, hring.size_eq]
    omega
  unfold prepareSchedule at h
  cases hr : E.rounds (3 * d.activeList.size) (d.start enb) with
  | ok r =>
    rw [hr] at h
    cases h
  | error e' =>
    rw [hr] at h
    cases h
    exact rounds_error hwf hring hwork hr

/-- The connections in the order in which `prepareSchedule` offers them grants. -/
def order (E : SchedulerEnv) (d : LteDrr) : List MacCid :=
  d.activeList.rotation.filter fun c => ¬E.Skips d.drrMap c

theorem lap_start (hwf : enb.allocator.Wf) (hring : d.activeList.Ring)
    (hnodup : d.activeList.list.Nodup) :
    Lap E d.drrMap (d.start enb) d.activeList.rotation [] where
  wf := hwf
  ring := hring
  rotation := (List.append_nil _).symm
  nodup := by
    rw [List.append_nil]
    exact CircularList.nodup_rotation.2 hnodup
  eligible := by simp [start, hring.size_eq]
  map _ _ := rfl
  spent _ hc := nomatch hc

end LteDrr

end V2nLte
