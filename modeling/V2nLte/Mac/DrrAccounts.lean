import V2nLte.Mac.WorkConservation
import V2nLte.Machine.Basic

/-!
# The accounts of `LteDrr`

`LteDrr` is meant to give a connection no more bytes than its deficit, so that over a run it gets
at most a quantum for each visit.  The deficit is what `scheduleGrant` is called with, but
`scheduleGrant` does not look at it; when it grants more, the 32-bit deficit wraps around, and the
check for a negative deficit never fires.

`accounts_kept` : the accounts are right as long as the bands that a queue needs, with what those
before it leave of their blocks, hold no more than the deficit of the connection and its quantum
(`Affordable`).

A round is served when it is committed; a round that is not leaves nothing behind.
-/

namespace V2nLte

/-- `LteDrr` with the grants of the round that has not been committed yet. -/
structure DrrRun where
  /-- The discipline. -/
  drr : LteDrr := {}
  /-- The grants that the next commit makes good. -/
  pending : List GrantCall := []

/-- What can be observed. -/
inductive DrrOutput where
  /-- A call of `scheduleGrant` in `prepareSchedule`. -/
  | call (c : GrantCall)
  /-- A call of a round that has been committed. -/
  | served (c : GrantCall)
  deriving DecidableEq

namespace DrrRun

/-- The operations of `LteDrr`; the eNB is in any state with consistent accounts. -/
inductive Event where
  | notifyActiveConnection (cid : MacCid)
  | removeActiveConnection (cid : MacCid)
  | updateSchedulingInfo (E : SchedulerEnv) (enb : LteSchedulerEnb)
  | prepareSchedule (E : SchedulerEnv) (enb : { s : LteSchedulerEnb // s.allocator.Wf })
  | commitSchedule

/-- One operation. -/
def handle (s : DrrRun) : Event → Option (DrrRun × List DrrOutput)
  | .notifyActiveConnection cid => some ({ s with drr := s.drr.notifyActiveConnection cid }, [])
  | .removeActiveConnection cid => do
    let drr ← s.drr.removeActiveConnection cid
    return ({ s with drr := drr }, [])
  | .updateSchedulingInfo E enb => some ({ s with drr := s.drr.updateSchedulingInfo E enb }, [])
  | .prepareSchedule E enb =>
    match s.drr.prepareSchedule E enb.1 with
    | .error _ => none
    | .ok (drr, _, calls) => some (⟨drr, calls⟩, calls.map .call)
  | .commitSchedule => some (⟨s.drr.commitSchedule, []⟩, s.pending.map .served)

/-- `LteDrr` as a machine. -/
def machine : Machine DrrRun Event DrrOutput where
  step := handle

/-! ### The accounts -/

/-- The calls for a connection. -/
def callsOf (cid : MacCid) (calls : List GrantCall) : List GrantCall :=
  calls.filter fun c => c.cid == cid

/-- The bytes granted to a connection. -/
def bytesOf (cid : MacCid) (calls : List GrantCall) : ℕ :=
  ((callsOf cid calls).map fun c => c.grant.granted).sum

/-- The number of its visits. -/
def visitsOf (cid : MacCid) (calls : List GrantCall) : ℕ := (callsOf cid calls).length

/-- The calls that count. -/
def servedCalls (os : List DrrOutput) : List GrantCall :=
  os.filterMap fun o =>
    match o with
    | .call _ => none
    | .served c => some c

/-- A grant is at most the deficit, and the deficit after it is the difference of the numbers. -/
def Honoured (c : GrantCall) : Prop :=
  c.grant.granted ≤ c.bytes ∧ (sub32 c.bytes c.grant.granted : ℤ) = c.bytes - c.grant.granted

/-- Every call is within its deficit, and no connection gets more than a quantum for a visit. -/
structure Accounts (os : List DrrOutput) : Prop where
  /-- Every call is within the deficit of its connection. -/
  honoured : ∀ c, DrrOutput.call c ∈ os → Honoured c
  /-- A connection gets at most a quantum for a visit. -/
  served : ∀ cid, bytesOf cid (servedCalls os) ≤ visitsOf cid (servedCalls os) * DRR_QUANTUM

/-! ### The condition -/

/-- What a band holds for a queue that is booked in the state `t`. -/
def bandHolds (E : SchedulerEnv) (t : LteSchedulerEnb) (cid : MacCid) (b : LteMacBuffer)
    (band : Band) : ℕ :=
  min (E.capacity (E.prepared t cid).allocator (MacCidToNodeId cid) (E.dirOf cid) MACRO band)
    (SchedulerEnv.needed b)

/-- The first bands that hold the queue of a connection, or all of them if they do not, hold no
more than its deficit with its quantum. -/
def Affordable (E : SchedulerEnv) (desc : DrrDesc) (t : LteSchedulerEnb) (cid : MacCid) : Prop :=
  E.HarqFree cid → ∀ b, E.conn t cid = some b → b.queueOccupancy ≠ 0 →
    ∃ k ≤ E.numBands,
      (k = E.numBands ∨
        SchedulerEnv.needed b ≤ ((List.range k).map (bandHolds E t cid b)).sum) ∧
      ((List.range k).map (bandHolds E t cid b)).sum ≤ u32 (desc.deficit + desc.quantum)

/-- Every connection that is visited before the end of the round can afford what its queue gets of
the blocks that those before it leave.  The count begins in the state `t` before the round. -/
def AllAffordable (E : SchedulerEnv) (map : MacCid → DrrDesc) (t : LteSchedulerEnb)
    (cids : List MacCid) : Prop :=
  ∀ pre cid rest, cids = pre ++ cid :: rest →
    (∀ pre' x post, pre ++ [cid] = pre' ++ x :: post → ¬E.EndsDrr (E.leftBy t pre') x) →
    Affordable E (map cid) (E.leftBy t pre) cid

/-- A round may be prepared if all can afford what they get. -/
def Event.Ok (s : DrrRun) : Event → Prop
  | .prepareSchedule E enb => AllAffordable E s.drr.drrMap enb.1 (s.drr.order E)
  | _ => True

/-! ### A round -/

@[simp] theorem bytesOf_append (cid : MacCid) (cs ds : List GrantCall) :
    bytesOf cid (cs ++ ds) = bytesOf cid cs + bytesOf cid ds := by
  simp [bytesOf, callsOf, List.filter_append]

@[simp] theorem visitsOf_append (cid : MacCid) (cs ds : List GrantCall) :
    visitsOf cid (cs ++ ds) = visitsOf cid cs + visitsOf cid ds := by
  simp [visitsOf, callsOf, List.filter_append]

@[simp] theorem bytesOf_nil (cid : MacCid) : bytesOf cid [] = 0 := rfl

@[simp] theorem visitsOf_nil (cid : MacCid) : visitsOf cid [] = 0 := rfl

theorem bytesOf_singleton (cid : MacCid) (c : GrantCall) :
    bytesOf cid [c] = if c.cid = cid then c.grant.granted else 0 := by
  by_cases h : c.cid = cid <;> simp [bytesOf, callsOf, h]

theorem visitsOf_singleton (cid : MacCid) (c : GrantCall) :
    visitsOf cid [c] = if c.cid = cid then 1 else 0 := by
  by_cases h : c.cid = cid <;> simp [visitsOf, callsOf, h]

/-- In a round, what a connection has got and its deficit are paid for by the deficit `base` it
started with and its visits. -/
structure RoundAccounts (base : MacCid → ℕ) (r : DrrRound) : Prop where
  wf : r.enb.allocator.Wf
  ring : r.list.Ring
  quantum : ∀ cid, (r.map cid).quantum ≤ DRR_QUANTUM
  honoured : ∀ c ∈ r.calls, Honoured c
  paid : ∀ cid, bytesOf cid r.calls + (r.map cid).deficit ≤
    base cid + visitsOf cid r.calls * DRR_QUANTUM

variable {E : SchedulerEnv} {r r' : DrrRound} {base : MacCid → ℕ} {stop : Bool}

/-- No band is booked for an empty queue. -/
theorem book_zero (caps : List ℕ) : (SchedulerEnv.book 0 0 caps).1 = 0 := by
  induction caps with
  | nil => rfl
  | cons c cs ih =>
    rw [SchedulerEnv.book]
    split
    · exact ih
    · rw [if_pos (Nat.zero_le _)]
      exact Nat.min_zero c

/-- The bands that hold what is to be served hold what is booked. -/
theorem book_le {q : ℕ} (caps : List ℕ) {t k : ℕ} (hq : t = 0 → q = 0)
    (hk : k = caps.length ∨ t ≤ ((caps.take k).map fun c => min c q).sum) :
    (SchedulerEnv.book q t caps).1 ≤ ((caps.take k).map fun c => min c q).sum := by
  induction caps generalizing t k with
  | nil => exact Nat.zero_le _
  | cons c cs ih =>
    cases k with
    | zero =>
      have ht : t = 0 := Nat.eq_zero_of_le_zero (hk.resolve_left (Nat.succ_ne_zero _).symm)
      rw [ht, hq ht, book_zero]
      exact Nat.zero_le _
    | succ k =>
      rw [List.take_succ_cons, List.map_cons, List.sum_cons] at hk ⊢
      rw [List.length_cons, Nat.add_right_cancel_iff] at hk
      rw [SchedulerEnv.book]
      split <;> rename_i hc
      · rw [hc, Nat.zero_min, Nat.zero_add] at hk ⊢
        exact ih hq hk
      · split <;> rename_i ht
        · exact Nat.le_add_right _ _
        · have hih := ih (t := t - min c q) (k := k) (fun h => by omega)
            (hk.imp_right fun h => by omega)
          exact Nat.add_le_add_left hih _

variable {s s' t : LteSchedulerEnb} {cid : MacCid} {g : Grant}

/-- An affordable connection is granted what it can pay for. -/
theorem Affordable.granted_le {desc : DrrDesc} {cids : List MacCid} (h : Affordable E desc t cid)
    (ho : E.Outcome s cid s' g) (hplan : SchedulerEnv.Planned E t s (cid :: cids)) :
    g.granted ≤ u32 (desc.deficit + desc.quantum) := by
  cases ho with
  | stale | ended | busy | notEligible | empty => exact Nat.zero_le _
  | @booked s' b b' _ _ _ hharq hconn hocc =>
    rw [hplan.conn cid List.mem_cons_self] at hconn
    obtain ⟨k, hk, hbands, hsum⟩ := h hharq b hconn hocc
    have hcaps : ((List.range E.numBands).map (E.capacity (E.prepared t cid).allocator
        (MacCidToNodeId cid) (E.dirOf cid) MACRO)).take k =
          (List.range k).map (E.capacity (E.prepared t cid).allocator
            (MacCidToNodeId cid) (E.dirOf cid) MACRO) := by
      rw [← List.map_take, List.take_range, Nat.min_eq_left hk]
    have hle := book_le (q := SchedulerEnv.needed b) ((List.range E.numBands).map
      (E.capacity (E.prepared t cid).allocator (MacCidToNodeId cid) (E.dirOf cid) MACRO))
      (t := SchedulerEnv.needed b) (k := k) id
    rw [hcaps, List.map_map, List.length_map, List.length_range] at hle
    calc u32 (E.booking s cid b).1
        ≤ (E.booking s cid b).1 := Nat.mod_le _ _
      _ = (E.booking t cid b).1 := by rw [hplan.booking]
      _ ≤ ((List.range k).map (bandHolds E t cid b)).sum := hle hbands
      _ ≤ u32 (desc.deficit + desc.quantum) := hsum

/-- A deficit that is not overdrawn. -/
theorem settled_deficit_le {cid : MacCid} {g : Grant} (hle : g.granted ≤ r.offered cid) :
    (r.settled cid g).deficit ≤ r.offered cid - g.granted ∧
      (r.settled cid g).quantum = (r.map cid).quantum := by
  have hsub : sub32 (r.offered cid) g.granted = r.offered cid - g.granted :=
    sub32_of_le hle (u32_lt _)
  unfold DrrRound.settled
  simp only [hsub]
  split
  · exact ⟨Nat.zero_le _, rfl⟩
  · split
    · exact ⟨Nat.sub_le _ _, rfl⟩
    · exact ⟨Nat.le_refl _, rfl⟩

/-- **A grant within the deficit keeps the accounts.** -/
theorem RoundAccounts.settle (h : RoundAccounts base r) {enb : LteSchedulerEnb}
    (hwf : enb.allocator.Wf) (hle : g.granted ≤ r.offered cid) :
    RoundAccounts base (r.settle cid enb g) := by
  have hoffered : r.offered cid ≤ (r.map cid).deficit + (r.map cid).quantum := Nat.mod_le _ _
  obtain ⟨hdeficit, hquantum⟩ := settled_deficit_le hle
  have hq := h.quantum cid
  refine ⟨hwf, SchedulerEnv.ring_settle h.ring cid enb g, fun c => ?_, fun c hc => ?_,
    fun c => ?_⟩
  · simp only [DrrRound.settle, Function.update_apply]
    split
    · rw [hquantum]
      exact hq
    · exact h.quantum c
  · rcases List.mem_append.1 hc with hc | hc
    · exact h.honoured c hc
    · rw [List.mem_singleton.1 hc]
      refine ⟨hle, ?_⟩
      simp only
      rw [sub32_of_le hle (u32_lt _)]
      omega
  · have hpaid := h.paid c
    simp only [DrrRound.settle, Function.update_apply, bytesOf_append, visitsOf_append,
      bytesOf_singleton, visitsOf_singleton, eq_comm (a := c)]
    by_cases hc : cid = c
    · subst hc
      simp only [if_true]
      rw [Nat.add_mul, Nat.one_mul]
      omega
    · simpa only [if_neg hc, Nat.add_zero] using hpaid

/-- After the first lap no bytes are granted. -/
theorem RoundAccounts.rest {n : ℕ} (h : RoundAccounts base r)
    (hspent : ∀ c ∈ r.list.list, E.Spent r c) (hr : E.rounds n r = .ok r') :
    RoundAccounts base r' := by
  refine SchedulerEnv.rounds_rest h h.ring hspent (fun r hI => ?_) (fun r cid enb g hI => ?_) hr
  · exact ⟨hI.wf, hI.ring.move, hI.quantum, hI.honoured, hI.paid⟩
  · intro hgrant ht _
    have ho := SchedulerEnv.requestGrant_outcome hgrant
    refine hI.settle (ho.wf hI.wf).1 ?_
    rw [ho.granted_of_terminate ht]
    exact Nat.zero_le _

/-- The tail of the order is as affordable as the whole. -/
theorem AllAffordable.tail {map : MacCid → DrrDesc} {cids : List MacCid}
    (h : AllAffordable E map t (cid :: cids)) (hgoes : ¬E.EndsDrr t cid) :
    AllAffordable E map (E.takeShare t cid) cids := by
  intro pre c rest hcids hends
  refine h (cid :: pre) c rest (by rw [hcids]; rfl) fun pre' x post hsplit => ?_
  cases pre' with
  | nil =>
    obtain ⟨rfl, -⟩ := List.cons.inj hsplit
    exact hgoes
  | cons y pre' =>
    obtain ⟨rfl, htail⟩ := List.cons.inj hsplit
    exact hends pre' x post htail

/-- **A round in which all can afford what they get keeps the accounts.**  The first lap follows
the count `t`. -/
theorem RoundAccounts.lap {n : ℕ} {map : MacCid → DrrDesc} {todo spent : List MacCid}
    (h : RoundAccounts base r) (hlap : SchedulerEnv.Lap E map r todo spent)
    (hplan : SchedulerEnv.Planned E t r.enb todo)
    (hok : AllAffordable E map t (todo.filter fun c => ¬E.Skips map c))
    (hr : E.rounds n r = .ok r') : RoundAccounts base r' := by
  induction todo generalizing n r spent t with
  | nil =>
    refine h.rest (fun c hc => hlap.spent c ?_) hr
    rw [← CircularList.mem_rotation, hlap.rotation] at hc
    exact hc
  | cons cid todo ih =>
    obtain ⟨m, r₁, stop, hvisit, hr⟩ := hlap.rounds hr
    rcases hlap.visit hvisit with ⟨hskip, rfl, henb, hmap, hcalls, spent', hlap'⟩ |
      ⟨hskip, enb, g, hgrant, hstop, rfl, hlap'⟩
    · -- a connection that is skipped is not charged
      obtain ⟨hf, -⟩ | ⟨-, hr⟩ := hr
      · cases hf
      rw [List.filter_cons_of_neg (by simpa using hskip)] at hok
      refine ih ⟨hlap'.wf, hlap'.ring, hmap ▸ h.quantum, hcalls ▸ h.honoured, ?_⟩ hlap'
        (henb ▸ hplan.tail) hok hr
      rw [hmap, hcalls]
      exact h.paid
    · rw [List.filter_cons_of_pos (by simpa using hskip)] at hok
      have ho := SchedulerEnv.requestGrant_outcome hgrant
      have hwf := (ho.wf h.wf).1
      have hreg : E.binder.getOmnetId (MacCidToNodeId cid) ≠ 0 := fun h₀ => hskip (.inl h₀)
      obtain ⟨rfl, rfl⟩ | ⟨rfl, hr⟩ := hr
      · -- the last grant of a round has no bytes
        refine h.settle hwf ?_
        rw [ho.granted_of_terminate hstop.symm]
        exact Nat.zero_le _
      · -- the grant does not end the round
        have hgoes : ¬E.EndsDrr r.enb cid := fun he => by
          rw [(ho.terminate_iff hreg).2 he] at hstop
          cases hstop
        have hgoes' : ¬E.EndsDrr t cid := by
          rw [SchedulerEnv.EndsDrr, ← hplan.spaceEnded_iff, SchedulerEnv.CutsDrr, ← hplan.cws]
          exact hgoes
        have hhead : Affordable E (map cid) t cid := by
          refine hok [] cid _ rfl fun pre' x post hsplit => ?_
          obtain ⟨rfl, hx⟩ := List.append_eq_singleton_iff.1 hsplit.symm |>.resolve_right
            fun hc => absurd hc.2 (List.cons_ne_nil x post)
          obtain ⟨rfl, -⟩ := List.cons.inj hx
          exact hgoes'
        have hle : g.granted ≤ r.offered cid := by
          rw [DrrRound.offered, hlap.map cid List.mem_cons_self]
          exact hhead.granted_le ho hplan
        have hnodup : cid ∉ todo := fun hmem =>
          (List.nodup_cons.1 hlap.nodup).1 (List.mem_append_left _ hmem)
        obtain ⟨spent', hlap'⟩ := hlap' rfl
        exact ih (h.settle hwf hle) hlap'
          (ho.planned hplan hnodup hreg (not_or.1 hgoes).1) (hok.tail hgoes') hr

/-! ### A run -/

/-- What connects the deficits to the grants so far. -/
structure Inv (s : DrrRun) (os : List DrrOutput) : Prop where
  ring : s.drr.activeList.Ring
  ringTemp : s.drr.activeTempList.Ring
  nodup : s.drr.activeList.list.Nodup
  nodupTemp : s.drr.activeTempList.list.Nodup
  quantum : ∀ cid, (s.drr.drrMap cid).quantum ≤ DRR_QUANTUM
  quantumTemp : ∀ cid, (s.drr.drrTempMap cid).quantum ≤ DRR_QUANTUM
  honoured : ∀ c, DrrOutput.call c ∈ os → Honoured c
  /-- The permanent deficits. -/
  paid : ∀ cid, bytesOf cid (servedCalls os) + (s.drr.drrMap cid).deficit ≤
    visitsOf cid (servedCalls os) * DRR_QUANTUM
  /-- The temporary ones, once the round is committed. -/
  paidTemp : ∀ cid, bytesOf cid (servedCalls os ++ s.pending) + (s.drr.drrTempMap cid).deficit ≤
    visitsOf cid (servedCalls os ++ s.pending) * DRR_QUANTUM

theorem inv_initial : Inv {} [] where
  ring := CircularList.ring_empty
  ringTemp := CircularList.ring_empty
  nodup := List.nodup_nil
  nodupTemp := List.nodup_nil
  quantum _ := Nat.zero_le _
  quantumTemp _ := Nat.zero_le _
  honoured _ h := nomatch h
  paid _ := Nat.zero_le _
  paidTemp _ := Nat.zero_le _

theorem servedCalls_append (os os' : List DrrOutput) :
    servedCalls (os ++ os') = servedCalls os ++ servedCalls os' := List.filterMap_append

@[simp] theorem servedCalls_call (calls : List GrantCall) :
    servedCalls (calls.map .call) = [] := by
  induction calls with
  | nil => rfl
  | cons c calls ih => exact ih

@[simp] theorem servedCalls_served (calls : List GrantCall) :
    servedCalls (calls.map .served) = calls := by
  induction calls with
  | nil => rfl
  | cons c calls ih => exact congrArg (c :: ·) ih

section Runs

variable {s s' : DrrRun} {os o : List DrrOutput} {e : Event}

theorem Inv.notifyActiveConnection (h : Inv s os) (cid : MacCid) :
    Inv { s with drr := s.drr.notifyActiveConnection cid } os := by
  have hmap : ∀ c, ((s.drr.notifyActiveConnection cid).drrMap c).quantum =
        (s.drr.drrMap c).quantum ∧
      ((s.drr.notifyActiveConnection cid).drrMap c).deficit = (s.drr.drrMap c).deficit := by
    intro c
    simp only [LteDrr.notifyActiveConnection, Function.update_apply]
    split <;> rename_i hc
    · subst hc
      exact ⟨rfl, rfl⟩
    · exact ⟨rfl, rfl⟩
  have hlist : (s.drr.notifyActiveConnection cid).activeList.Ring ∧
      (s.drr.notifyActiveConnection cid).activeList.list.Nodup := by
    simp only [LteDrr.notifyActiveConnection]
    split <;> rename_i hfind
    · exact ⟨h.ring, h.nodup⟩
    · have hnew : cid ∉ s.drr.activeList.list := mt (h.ring.find_eq cid).2 hfind
      exact ⟨h.ring.insert cid, h.ring.nodup_insert h.nodup hnew⟩
  exact ⟨hlist.1, h.ringTemp, hlist.2, h.nodupTemp, fun c => (hmap c).1 ▸ h.quantum c,
    h.quantumTemp, h.honoured, fun c => (hmap c).2 ▸ h.paid c, h.paidTemp⟩

theorem Inv.removeActiveConnection (h : Inv s os) {cid : MacCid} {drr : LteDrr}
    (hdrr : s.drr.removeActiveConnection cid = some drr) : Inv { s with drr := drr } os := by
  obtain ⟨l, hl, hdrr⟩ := Option.bind_eq_some_iff.1 hdrr
  cases hdrr
  obtain ⟨hring, hlist⟩ := h.ring.of_eraseElem hl
  exact ⟨hring, h.ringTemp, h.nodup.sublist hlist, h.nodupTemp, h.quantum, h.quantumTemp,
    h.honoured, h.paid, h.paidTemp⟩

theorem Inv.updateSchedulingInfo (h : Inv s os) (E : SchedulerEnv) (enb : LteSchedulerEnb) :
    Inv { s with drr := s.drr.updateSchedulingInfo E enb } os := by
  refine ⟨h.ring, h.ringTemp, h.nodup, h.nodupTemp, fun c => ?_, h.quantumTemp, h.honoured,
    fun c => ?_, h.paidTemp⟩
  · simp only [LteDrr.updateSchedulingInfo]
    split
    · exact Nat.le_refl _
    · exact h.quantum c
  · have hsame : ((s.drr.updateSchedulingInfo E enb).drrMap c).deficit =
        (s.drr.drrMap c).deficit := by
      simp only [LteDrr.updateSchedulingInfo]
      split <;> rfl
    simp only [hsame]
    exact h.paid c

/-- The calls of a round count when it is committed. -/
theorem Inv.prepareSchedule (h : Inv s os) {E : SchedulerEnv}
    {enb : { s : LteSchedulerEnb // s.allocator.Wf }} {enb' : LteSchedulerEnb} {drr : LteDrr}
    {calls : List GrantCall} (hok : (Event.prepareSchedule E enb).Ok s)
    (hprep : s.drr.prepareSchedule E enb.1 = .ok (drr, enb', calls)) :
    Inv ⟨drr, calls⟩ (os ++ calls.map .call) := by
  obtain ⟨r, hr, -, rfl, rfl⟩ := LteDrr.prepareSchedule_eq_ok hprep
  have hstart : RoundAccounts (fun c => (s.drr.drrMap c).deficit) (s.drr.start enb.1) :=
    ⟨enb.2, h.ring, h.quantum, fun c hc => (nomatch hc), fun c => by simp [LteDrr.start]⟩
  have hround := hstart.lap (LteDrr.lap_start enb.2 h.ring h.nodup) (.refl enb.1 _) hok hr
  obtain ⟨-, -, l, hperm, hsub⟩ := SchedulerEnv.rounds_kept enb.2 h.ring hr
  have hnodup : r.list.list.Nodup := hperm.nodup_iff.1 (h.nodup.sublist hsub)
  refine ⟨h.ring, hround.ring, h.nodup, hnodup, h.quantum, hround.quantum, fun c hc => ?_,
    fun c => ?_, fun c => ?_⟩
  · rcases List.mem_append.1 hc with hc | hc
    · exact h.honoured c hc
    · obtain ⟨c', hc', heq⟩ := List.mem_map.1 hc
      cases heq
      exact hround.honoured _ hc'
  · rw [servedCalls_append, servedCalls_call, List.append_nil]
    exact h.paid c
  · rw [servedCalls_append, servedCalls_call, List.append_nil, bytesOf_append, visitsOf_append]
    have hpaid := h.paid c
    have hnew := hround.paid c
    simp only [Nat.add_mul]
    omega

theorem Inv.commitSchedule (h : Inv s os) :
    Inv ⟨s.drr.commitSchedule, []⟩ (os ++ s.pending.map .served) := by
  refine ⟨h.ringTemp, h.ringTemp, h.nodupTemp, h.nodupTemp, h.quantumTemp, h.quantumTemp,
    fun c hc => ?_, fun c => ?_, fun c => ?_⟩
  · rcases List.mem_append.1 hc with hc | hc
    · exact h.honoured c hc
    · obtain ⟨c', -, heq⟩ := List.mem_map.1 hc
      cases heq
  · rw [servedCalls_append, servedCalls_served]
    exact h.paidTemp c
  · rw [servedCalls_append, servedCalls_served, List.append_nil]
    exact h.paidTemp c

/-- **The step.** -/
theorem Inv.step (h : Inv s os) (hok : e.Ok s) (hst : machine.step s e = some (s', o)) :
    Inv s' (os ++ o) := by
  cases e with
  | notifyActiveConnection cid =>
    cases hst
    rw [List.append_nil]
    exact h.notifyActiveConnection cid
  | removeActiveConnection cid =>
    obtain ⟨drr, hdrr, hst⟩ := Option.bind_eq_some_iff.1 hst
    cases hst
    rw [List.append_nil]
    exact h.removeActiveConnection hdrr
  | updateSchedulingInfo E enb =>
    cases hst
    rw [List.append_nil]
    exact h.updateSchedulingInfo E enb
  | prepareSchedule E enb =>
    simp only [machine, handle] at hst
    split at hst
    · cases hst
    · rename_i drr enb' calls hprep
      cases hst
      exact h.prepareSchedule hok hprep
  | commitSchedule =>
    cases hst
    exact h.commitSchedule

/-- **DRR keeps its accounts**, in every run whose rounds give no connection more than it can
afford. -/
theorem accounts_kept {es : List Event} (hrun : machine.exec {} es = some (s, os))
    (hok : ∀ s e s' o, machine.Takes {} es s e s' o → e.Ok s) : Accounts os := by
  have hinv : Inv s os := Machine.exec_induction_of (C := fun s e => Event.Ok s e)
    (J := fun _ s os => Inv s os) inv_initial (fun _ _ _ _ _ _ _ ih hC hst => ih.step hC hst)
    hok hrun
  refine ⟨hinv.honoured, fun cid => ?_⟩
  have hpaid := hinv.paid cid
  omega

end Runs

/-! ### One queue -/

/-- Twenty free blocks, and a queue of `n` bytes for the connection `1` of the UE `1025`. -/
def oneQueue (n : ℕ) : { s : LteSchedulerEnb // s.allocator.Wf } :=
  ⟨{ allocator := .initAndReset 20 1
     vbuf := fun cid => if cid = SchedulerEnv.cidOf 1025 1 then some ⟨[n]⟩ else none },
    LteAllocationModule.wf_initAndReset 20 1⟩

/-- The connection becomes active and a round is scheduled. -/
def oneRound (n : ℕ) : List Event :=
  [.notifyActiveConnection (SchedulerEnv.cidOf 1025 1),
    .updateSchedulingInfo SchedulerEnv.twoUes (oneQueue n).1,
    .prepareSchedule SchedulerEnv.twoUes (oneQueue n), .commitSchedule]

/-- A queue of 100 bytes is within the first quantum. -/
theorem oneRound_ok : machine.Meets (fun s e => e.Ok s) {} (oneRound 100) := by
  refine ⟨trivial, trivial, ?_, trivial, trivial⟩
  intro pre cid rest hcids _ _ b hb _
  obtain ⟨rfl, rfl, -⟩ : pre = [] ∧ cid = SchedulerEnv.cidOf 1025 1 ∧ rest = [] := by
    change [SchedulerEnv.cidOf 1025 1] = _ at hcids
    cases pre with
    | nil => exact ⟨rfl, (List.cons.inj hcids).1.symm, (List.cons.inj hcids).2.symm⟩
    | cons x pre => cases pre <;> cases (List.cons.inj hcids).2
  obtain rfl : (⟨[100]⟩ : LteMacBuffer) = b := Option.some.inj hb
  exact ⟨1, by decide, .inl rfl, by decide⟩

theorem accounts_kept_oneRound : ∃ s os, machine.exec {} (oneRound 100) = some (s, os) ∧
    os.length = 2 ∧ Accounts os := by
  have hrun : machine.exec {} (oneRound 100) = some (_, _) := rfl
  exact ⟨_, _, hrun, rfl, accounts_kept hrun fun s e s' o ht => oneRound_ok.takes ht⟩

/-- **A queue of 1000 bytes is served at once**, with a deficit of 160 bytes, which becomes
4294966452. -/
theorem overdrawn : ∃ s os, machine.exec {} (oneRound 1000) = some (s, os) ∧ ¬Accounts os ∧
    ∃ g, os = [.call ⟨SchedulerEnv.cidOf 1025 1, 160, g⟩,
        .served ⟨SchedulerEnv.cidOf 1025 1, 160, g⟩] ∧
      g.granted = 1004 ∧ sub32 160 g.granted = 4294966452 := by
  have hrun : machine.exec {} (oneRound 1000) = some (_, _) := rfl
  refine ⟨_, _, hrun, fun h => ?_, ⟨1004, false, false, true⟩, by decide, rfl, by decide⟩
  have hserved := h.served (SchedulerEnv.cidOf 1025 1)
  revert hserved
  decide

end DrrRun

end V2nLte
