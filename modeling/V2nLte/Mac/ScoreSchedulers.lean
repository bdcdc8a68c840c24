import V2nLte.Mac.RoundPlan
import V2nLte.Machine.Passes
import Mathlib.Data.Finset.Filter

/-!
# `LteMaxCi` and `LtePf`

Both schedulers push the active connections whose UE is known, has a CQI and a free codeword into
a score queue and offer the one on top a grant, until the queue is empty or `terminate` is set.  A
connection leaves the queue when it is no longer active or eligible; one that stays on top is
offered a second grant, and that one terminates.  So a round is a single pass over the queue that
ends after a connection with `Ends` (`serve_pass`).

The order of the queue is any order: equal scores are put in order at random.
-/

namespace V2nLte

/-- The grant size for a connection that may have everything. -/
def MAXGRANT : ℕ := 4294967295

/-- A call of `scheduleGrant` with its answer. -/
structure GrantCall where
  /-- The connection. -/
  cid : MacCid
  /-- How much was offered to it. -/
  bytes : ℕ
  /-- The answer. -/
  grant : Grant
  deriving DecidableEq

/-- What a scheduler computes in `prepareSchedule`. -/
structure ScoreRound where
  /-- The scheduler of the eNB. -/
  enb : LteSchedulerEnb
  /-- `activeConnectionTempSet_`. -/
  temp : Finset MacCid
  /-- The calls of `scheduleGrant` so far. -/
  calls : List GrantCall := []

/-- A score queue: its elements, the top first. -/
structure ScoreQueue (candidates : Finset MacCid) where
  /-- The connections in the order of their scores. -/
  list : List MacCid
  /-- None of them comes twice. -/
  nodup : list.Nodup
  /-- All the candidates are there. -/
  mem_iff : ∀ c, c ∈ list ↔ c ∈ candidates

namespace SchedulerEnv

variable (E : SchedulerEnv)

/-- The transmission parameters of the UE of a connection. -/
def info (cid : MacCid) : UserTxParams E.numBands :=
  E.computeTxParams (MacCidToNodeId cid) (E.dirOf cid)

/-- A connection that gets a score. -/
def scored (enb : LteSchedulerEnb) (cid : MacCid) : Bool :=
  E.known cid && !(E.info cid).cqiNull &&
    enb.allocatedCws (MacCidToNodeId cid) != (E.info cid).getLayers.length

/-- Offer grants in score order. -/
def serve : ℕ → List MacCid → ScoreRound → Except SchedulerError ScoreRound
  | _, [], r => .ok r
  | 0, _ :: _, _ => .error .notFinished
  | n + 1, cid :: rest, r => do
    let (enb, g) ← E.requestGrant r.enb cid MAXGRANT
    let calls := r.calls ++ [⟨cid, MAXGRANT, g⟩]
    if g.terminate then return { r with enb := enb, calls := calls }
    else
      let temp := if g.active then r.temp else r.temp.erase cid
      serve n (if !g.active || !g.eligible then rest else cid :: rest) ⟨enb, temp, calls⟩

end SchedulerEnv

/-- `LteMaxCi`. -/
structure LteMaxCi where
  /-- The connections that the MAC has made active. -/
  activeConnectionSet : Finset MacCid := ∅
  /-- Those of the round. -/
  activeConnectionTempSet : Finset MacCid := ∅

namespace LteMaxCi

variable (E : SchedulerEnv) (enb : LteSchedulerEnb) (m : LteMaxCi)

/-- The connections that get a score. -/
def candidates : Finset MacCid := m.activeConnectionSet.filter fun c => E.scored enb c

/-- `LteMaxCi::prepareSchedule`, with the grants it has asked for. -/
def prepareSchedule (score : ScoreQueue (m.candidates E enb)) :
    Except SchedulerError (LteMaxCi × LteSchedulerEnb × List GrantCall) := do
  let known := m.activeConnectionSet.filter fun c => E.known c
  let r ← E.serve (2 * score.list.length) score.list ⟨enb, known, []⟩
  return (⟨known, r.temp⟩, r.enb, r.calls)

/-- `LteMaxCi::commitSchedule`. -/
def commitSchedule : LteMaxCi := { m with activeConnectionSet := m.activeConnectionTempSet }

/-- `LteMaxCi::notifyActiveConnection`. -/
def notifyActiveConnection (cid : MacCid) : LteMaxCi :=
  { m with activeConnectionSet := insert cid m.activeConnectionSet }

/-- `LteMaxCi::removeActiveConnection`. -/
def removeActiveConnection (cid : MacCid) : LteMaxCi :=
  { m with activeConnectionSet := m.activeConnectionSet.erase cid }

end LteMaxCi

/-- `LtePf`, without the rates that decide the scores. -/
structure LtePf where
  /-- The connections that the MAC has made active. -/
  activeConnectionSet : Finset MacCid := ∅
  /-- Those of the round. -/
  activeConnectionTempSet : Finset MacCid := ∅
  /-- The bytes that the round has granted. -/
  grantedBytes : MacCid → ℕ := fun _ => 0

namespace LtePf

variable (E : SchedulerEnv) (enb : LteSchedulerEnb) (p : LtePf)

/-- The connections that get a score. -/
def candidates : Finset MacCid := p.activeConnectionSet.filter fun c => E.scored enb c

/-- The bytes granted to each connection. -/
def countGranted (calls : List GrantCall) : MacCid → ℕ :=
  calls.foldl (fun f c => Function.update f c.cid (u32 (f c.cid + c.grant.granted))) fun _ => 0

/-- `LtePf::prepareSchedule`, with the grants it has asked for. -/
def prepareSchedule (score : ScoreQueue (p.candidates E enb)) :
    Except SchedulerError (LtePf × LteSchedulerEnb × List GrantCall) := do
  let known := p.activeConnectionSet.filter fun c => E.known c
  let r ← E.serve (2 * score.list.length) score.list ⟨enb, known, []⟩
  return (⟨known, r.temp, countGranted r.calls⟩, r.enb, r.calls)

end LtePf

namespace SchedulerEnv

variable {E : SchedulerEnv} {n : ℕ} {cid : MacCid} {order rest : List MacCid}
  {r r' : ScoreRound}

/-! ### The loop is a pass -/

/-- A connection ends the round although there may be blocks: its UE has a codeword, or its queue
gets only a part of what it needs. -/
def Cuts (E : SchedulerEnv) (s : LteSchedulerEnb) (cid : MacCid) : Prop :=
  0 < s.allocatedCws (MacCidToNodeId cid) ∨ E.PartlyServed s cid

/-- A grant for `cid` ends the round: no space, a second codeword, or a second grant for a
connection that has been served in part. -/
def Ends (E : SchedulerEnv) (s : LteSchedulerEnb) (cid : MacCid) : Prop :=
  E.SpaceEnded s cid ∨ E.Cuts s cid

/-- The state after a grant. -/
def offer (E : SchedulerEnv) (s : LteSchedulerEnb) (cid : MacCid) :
    Except SchedulerError LteSchedulerEnb :=
  (E.requestGrant s cid MAXGRANT).map Prod.fst

theorem offer_eq_ok {s s' : LteSchedulerEnb} :
    E.offer s cid = .ok s' ↔ ∃ g, E.requestGrant s cid MAXGRANT = .ok (s', g) := by
  unfold offer
  cases E.requestGrant s cid MAXGRANT with
  | ok p => exact ⟨fun h => ⟨p.2, by cases h; rfl⟩, fun ⟨g, h⟩ => by cases h; rfl⟩
  | error e => exact ⟨fun h => (by cases h), fun ⟨g, h⟩ => (by cases h)⟩

theorem reg_of_scored {enb : LteSchedulerEnb} (h : E.scored enb cid = true) :
    E.binder.getOmnetId (MacCidToNodeId cid) ≠ 0 := by
  simp only [scored, known, Bool.and_eq_true, decide_eq_true_eq] at h
  exact h.1.1.2

/-- **The loop ends.**  Two iterations for each connection are enough: an exception it throws is
one of a grant. -/
theorem serve_error {e : SchedulerError} (hwf : r.enb.allocator.Wf)
    (hreg : ∀ c ∈ order, E.binder.getOmnetId (MacCidToNodeId c) ≠ 0) (hn : 2 * order.length ≤ n)
    (h : E.serve n order r = .error e) : ∃ s c, E.requestGrant s c MAXGRANT = .error e := by
  induction order generalizing n r with
  | nil => cases n <;> cases h
  | cons cid rest ih =>
    rw [List.length_cons] at hn
    obtain ⟨m, rfl⟩ : ∃ m, n = m + 2 := ⟨n - 2, by omega⟩
    have hcid := hreg cid (List.mem_cons_self ..)
    unfold serve at h
    cases hgrant : E.requestGrant r.enb cid MAXGRANT with
    | error e' =>
      rw [hgrant] at h
      cases h
      exact ⟨_, _, hgrant⟩
    | ok p =>
      obtain ⟨enb, g⟩ := p
      have ho := requestGrant_outcome hgrant
      rw [hgrant] at h
      simp only [bind, Except.bind] at h
      split at h <;> rename_i ht
      · cases h
      · have ht : g.terminate = false := by simpa using ht
        split at h <;> rename_i hpop
        · exact ih (ho.wf hwf).1 (fun c hc => hreg c (List.mem_cons_of_mem _ hc)) (by omega) h
        · -- the second grant terminates
          have hstay : g.active = true ∧ g.eligible = true := by simpa using hpop
          have hcws := (ho.stays ht hstay.1 hstay.2).2
          unfold serve at h
          cases hgrant' : E.requestGrant enb cid MAXGRANT with
          | error e' =>
            simp only [hgrant', bind, Except.bind] at h
            cases h
            exact ⟨_, _, hgrant'⟩
          | ok p' =>
            have ht' := ((requestGrant_outcome hgrant').terminate_iff hcid).2
              (.inr hcws)
            simp only [hgrant', bind, Except.bind, ht', if_true] at h
            cases h

/-- The loop of `LteMaxCi::prepareSchedule` and `LtePf::prepareSchedule` ends. -/
theorem serve_ends {enb : LteSchedulerEnb} {active temp : Finset MacCid} {e : SchedulerError}
    (hwf : enb.allocator.Wf) (score : ScoreQueue (active.filter fun c => E.scored enb c))
    (h : E.serve (2 * score.list.length) score.list ⟨enb, temp, []⟩ = .error e) :
    ∃ s c, E.requestGrant s c MAXGRANT = .error e := by
  refine serve_error hwf (fun c hc => ?_) (Nat.le_refl _) h
  exact reg_of_scored (Finset.mem_filter.1 ((score.mem_iff c).1 hc)).2

/-! ### Work conservation -/

variable {dir : FlowDirection} {s s' : LteSchedulerEnb}

/-- A pass keeps the accounts and the buffers, and no UE loses a codeword. -/
theorem Pass.kept {skip : MacCid → Prop} {ends : LteSchedulerEnb → MacCid → Prop}
    {xs offered left : List MacCid} (h : Pass E.offer skip ends s xs s' offered left)
    (hwf : s.allocator.Wf) :
    s'.allocator.Wf ∧ (∀ n, s.allocatedCws n ≤ s'.allocatedCws n) ∧
      ∀ c, (E.conn s' c).isSome = (E.conn s c).isSome := by
  refine h.invariant (I := fun t => t.allocator.Wf ∧
      (∀ n, s.allocatedCws n ≤ t.allocatedCws n) ∧
      ∀ c, (E.conn t c).isSome = (E.conn s c).isSome)
    ⟨hwf, fun _ => Nat.le_refl _, fun _ => rfl⟩ fun t c t' ⟨hw, hle, hsome⟩ hoffer => ?_
  obtain ⟨g, hgrant⟩ := offer_eq_ok.1 hoffer
  have ho := requestGrant_outcome hgrant
  exact ⟨(ho.wf hw).1, fun n => Nat.le_trans (hle n) (ho.cws_le n),
    fun c => (ho.isSome_conn c).trans (hsome c)⟩

end SchedulerEnv

end V2nLte
