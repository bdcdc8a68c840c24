import V2nLte.Mac.SendGrants
import V2nLte.Mac.UlGrants
import V2nLte.Machine.MapLoop

/-!
# The loops of `rtxschedule` and the UEs that have left

Both schedulers go over the map of the H-ARQ buffers and erase those of the UEs that have left the
simulation, while they iterate.  Here the loops are followed with their iterators.

* Downlink: the iterator is set to what `erase` answers, the next UE, and `continue` increments it
  once more.  So the UE after one that has left is passed over in this TTI.
* Uplink: the buffer is erased by its key, and `continue` increments the iterator of the element
  that has been erased.

`rtxschedule_undisturbed_iff` says when the UEs that have left disturb nobody.
-/

namespace V2nLte

/-- The state of a loop, with the UEs that it has considered. -/
structure Examined (σ : Type) where
  /-- The state. -/
  state : σ
  /-- The UEs, in the order in which they were considered. -/
  considered : List MacNodeId := []

/-- **UEs that have left disturb nobody**: each of the others is considered once, and exactly the
buffers of those that have left are removed. -/
structure Undisturbed (departed : MacNodeId → Prop) [DecidablePred departed]
    (before after considered : List MacNodeId) : Prop where
  /-- Each UE that has not left is considered once. -/
  once : ∀ n, considered.count n = if n ∈ before ∧ ¬departed n then 1 else 0
  /-- The buffers of those that have left are removed, and only these. -/
  removed : ∀ n, n ∈ after ↔ n ∈ before ∧ ¬departed n

/-! ### Downlink -/

/-- The UEs with a buffer. -/
def DlState.ues (st : DlState) : List MacNodeId := st.harqTxBuffers.map Prod.fst

namespace DlEnv

variable (D : DlEnv)

/-- A turn of the loop of `LteSchedulerEnbDl::rtxschedule`. -/
def rtxTurn (nodeId : MacNodeId) (s : Examined DlState) :
    Except DlError (Examined DlState × Jump MacNodeId) :=
  if D.env.binder.getOmnetId nodeId = 0 then
    let st := { s.state with harqTxBuffers := s.state.harqTxBuffers.erase nodeId }
    -- `it = harqQueues->erase(it)`
    let it := following st.ues nodeId
    .ok ({ s with state := st }, if it = none then .leave else .next it)
  else do
    let st ← D.rtxUe nodeId s.state
    return (⟨st, s.considered ++ [nodeId]⟩, .next (some nodeId))

/-- `LteSchedulerEnbDl::rtxschedule`, with the UEs that are considered. -/
def rtxscheduleExamined (st : DlState) : Except (LoopError DlError) (Examined DlState × Bool) := do
  let s ← forEach (fun s => s.state.ues) D.rtxTurn ⟨st, []⟩
  let availableBlocks ← s.state.sched.allocator.computeTotalRbs.mapError (.body ∘ .scheduler)
  return (s, availableBlocks == 0)

end DlEnv

/-! ### Uplink -/

/-- The UEs with a buffer. -/
def UlPending.ues (U : UlPending) : List MacNodeId := U.harqRxBuffers.map Prod.fst

/-- `harqRxBuffers_->erase`. -/
def UlPending.eraseBuffer (U : UlPending) (nodeId : MacNodeId) : UlPending :=
  { U with
    harqRxBuffers := U.harqRxBuffers.erase nodeId
    harq_sorted := U.harq_sorted.erase nodeId }

namespace SchedulerEnv

variable (E : SchedulerEnv)

/-- A turn of the loop of `LteSchedulerEnbUl::rtxschedule`. -/
def rtxTurn (nodeId : MacNodeId) (s : Examined (UlPending × LteSchedulerEnb)) :
    Except SchedulerError (Examined (UlPending × LteSchedulerEnb) × Jump MacNodeId) :=
  if nodeId = 0 ∨ E.binder.getOmnetId nodeId = 0 then
    -- the iterator stays at the element
    .ok ({ s with state := (s.state.1.eraseBuffer nodeId, s.state.2) }, .next (some nodeId))
  else do
    let sched ← E.rtxUser s.state.1 s.state.2 nodeId
    return (⟨(s.state.1, sched), s.considered ++ [nodeId]⟩, .next (some nodeId))

/-- `LteSchedulerEnbUl::rtxschedule`, with the UEs that are considered. -/
def rtxscheduleExamined (U : UlPending) (sched : LteSchedulerEnb) :
    Except (LoopError SchedulerError) (Examined (UlPending × LteSchedulerEnb) × Bool) := do
  let (sched', full) ← (E.racschedule U sched).mapError .body
  -- no retransmissions if no block is left
  if full then return (⟨(U, sched'), []⟩, true)
  else
    let s ← forEach (fun s => s.state.1.ues) E.rtxTurn ⟨(U, sched'), []⟩
    let availableBlocks ← s.state.2.allocator.computeTotalRbs.mapError .body
    return (s, availableBlocks == 0)

end SchedulerEnv

/-! ### What the downlink loop considers and keeps -/

section Lists

variable (departed : MacNodeId → Prop) [DecidablePred departed]

/-- The UEs that the downlink loop considers. -/
def rtxConsidered : List MacNodeId → List MacNodeId
  | [] => []
  | [n] => if departed n then [] else [n]
  | n :: m :: ns => if departed n then rtxConsidered ns else n :: rtxConsidered (m :: ns)

/-- The UEs whose buffers the downlink loop keeps. -/
def rtxKept : List MacNodeId → List MacNodeId
  | [] => []
  | [n] => if departed n then [] else [n]
  | n :: m :: ns => if departed n then m :: rtxKept ns else n :: rtxKept (m :: ns)

variable {departed}

theorem mem_of_mem_rtxConsidered {ns : List MacNodeId} {i : MacNodeId}
    (h : i ∈ rtxConsidered departed ns) : i ∈ ns := by
  induction ns using rtxConsidered.induct departed with
  | case1 => cases h
  | case2 n hn =>
    rw [rtxConsidered, if_pos hn] at h
    cases h
  | case3 n hn =>
    rw [rtxConsidered, if_neg hn] at h
    exact h
  | case4 n m ns hn ih =>
    rw [rtxConsidered, if_pos hn] at h
    exact List.mem_cons_of_mem _ (List.mem_cons_of_mem _ (ih h))
  | case5 n m ns hn ih =>
    rw [rtxConsidered, if_neg hn] at h
    rcases List.mem_cons.1 h with rfl | h
    · exact List.mem_cons_self
    · exact List.mem_cons_of_mem _ (ih h)

theorem rtxConsidered_eq {ns : List MacNodeId} (h : ∀ n ∈ ns.dropLast, ¬departed n) :
    rtxConsidered departed ns = ns.filter (fun n => ¬departed n) ∧
      rtxKept departed ns = ns.filter (fun n => ¬departed n) := by
  induction ns using rtxConsidered.induct departed with
  | case1 => exact ⟨rfl, rfl⟩
  | case2 n hn =>
    rw [rtxConsidered, rtxKept, if_pos hn, List.filter_cons_of_neg (by simpa using hn)]
    exact ⟨rfl, rfl⟩
  | case3 n hn =>
    rw [rtxConsidered, rtxKept, if_neg hn, List.filter_cons_of_pos (by simpa using hn)]
    exact ⟨rfl, rfl⟩
  | case4 n m ns hn ih =>
    exact absurd hn (h n List.mem_cons_self)
  | case5 n m ns hn ih =>
    obtain ⟨hcons, hkept⟩ := ih fun i hi => h i (List.mem_cons_of_mem _ hi)
    rw [rtxConsidered, rtxKept, if_neg hn, if_neg hn, List.filter_cons_of_pos (by simpa using hn),
      hcons, hkept]
    exact ⟨rfl, rfl⟩

theorem last_of_undisturbed {ns : List MacNodeId} (hnodup : ns.Nodup)
    (hcons : ∀ i ∈ ns, ¬departed i → i ∈ rtxConsidered departed ns)
    (hkept : ∀ i ∈ rtxKept departed ns, ¬departed i) : ∀ n ∈ ns.dropLast, ¬departed n := by
  induction ns using rtxConsidered.induct departed with
  | case1 => exact fun n hn => nomatch hn
  | case2 n hn => exact fun n hn => nomatch hn
  | case3 n hn => exact fun n hn => nomatch hn
  | case4 n m ns hn ih =>
    rw [rtxConsidered, if_pos hn] at hcons
    rw [rtxKept, if_pos hn] at hkept
    have hm : ¬departed m := hkept m List.mem_cons_self
    have hmem : m ∈ ns := mem_of_mem_rtxConsidered (hcons m (by simp) hm)
    exact absurd hmem (List.nodup_cons.1 (List.nodup_cons.1 hnodup).2).1
  | case5 n m ns hn ih =>
    rw [rtxConsidered, if_neg hn] at hcons
    rw [rtxKept, if_neg hn] at hkept
    obtain ⟨hnm, hnodup⟩ := List.nodup_cons.1 hnodup
    have ih := ih hnodup (fun i hi hlive => ?_) fun i hi => hkept i (List.mem_cons_of_mem _ hi)
    · intro i hi
      rcases List.mem_cons.1 hi with rfl | hi
      · exact hn
      · exact ih i hi
    · rcases List.mem_cons.1 (hcons i (List.mem_cons_of_mem _ hi) hlive) with rfl | h
      · exact absurd hi hnm
      · exact h

/-- **Only the last UE may have left.** -/
theorem undisturbed_dl_iff {ns : List MacNodeId} (hnodup : ns.Nodup) :
    Undisturbed departed ns (rtxKept departed ns) (rtxConsidered departed ns) ↔
      ∀ n ∈ ns.dropLast, ¬departed n := by
  constructor
  · intro h
    refine last_of_undisturbed hnodup (fun i hi hlive => ?_) fun i hi => ((h.removed i).1 hi).2
    rw [← List.count_pos_iff, h.once, if_pos ⟨hi, hlive⟩]
    exact Nat.one_pos
  · intro h
    obtain ⟨hcons, hkept⟩ := rtxConsidered_eq h
    refine ⟨fun n => ?_, fun n => ?_⟩
    · rw [hcons, (hnodup.filter _).count]
      simp
    · rw [hkept]
      simp

end Lists

/-! ### The downlink loop -/

namespace OrderedMap

variable {K V : Type} [LinearOrder K] {m : OrderedMap K V} {k : K} {v : V}

theorem Sorted.keys_put (h : Sorted m) (hfind : (m.find k).isSome) :
    (m.put k v).map Prod.fst = m.map Prod.fst := by
  induction m with
  | nil => cases hfind
  | cons p m ih =>
    obtain ⟨k', v'⟩ := p
    obtain ⟨hlt, hm⟩ := sorted_cons.1 h
    rw [find_cons] at hfind
    rw [OrderedMap.put]
    by_cases hk : k = k'
    · rw [if_neg (by rw [hk]; exact lt_irrefl k'), if_pos hk, hk]
      rfl
    · rw [if_neg hk] at hfind
      have hmem : k ∈ m.map Prod.fst := by
        by_contra hnot
        rw [find_eq_none hnot] at hfind
        cases hfind
      rw [if_neg (not_lt_of_gt (hlt k hmem)), if_neg hk, List.map_cons, List.map_cons, ih hm hfind]

theorem keys_erase (m : OrderedMap K V) (k : K) :
    (m.erase k).map Prod.fst = (m.map Prod.fst).filter (· ≠ k) := by
  rw [erase, List.filter_map]
  rfl

theorem Sorted.keys_erase_append (h : Sorted m) {done rest : List K}
    (hkeys : m.map Prod.fst = done ++ k :: rest) :
    (m.erase k).map Prod.fst = done ++ rest := by
  have hnodup : (done ++ k :: rest).Nodup := hkeys ▸ h.imp ne_of_lt
  obtain ⟨hne, -⟩ := List.nodup_cons.1 (List.nodup_middle.1 hnodup)
  obtain ⟨hdone, hrest⟩ := not_or.1 (mt List.mem_append.2 hne)
  rw [keys_erase, hkeys, List.filter_append, List.filter_cons_of_neg (by simp),
    List.filter_eq_self.2 fun i hi => by simpa using ne_of_mem_of_not_mem hi hdone,
    List.filter_eq_self.2 fun i hi => by simpa using ne_of_mem_of_not_mem hi hrest]

end OrderedMap

theorem DlState.sorted_of_ues {st st' : DlState} (hst : st.harqTxBuffers.Sorted)
    (h : st'.ues = st.ues) : st'.harqTxBuffers.Sorted :=
  (congrArg (List.Pairwise (· < ·)) h).mpr hst

namespace DlEnv

variable {D : DlEnv} {st st' : DlState} {nodeId : MacNodeId}

theorem rtxUe_ues (hst : st.harqTxBuffers.Sorted) (h : D.rtxUe nodeId st = .ok st') :
    st'.ues = st.ues := by
  refine rtxProcesses_rule (R := fun st st' => st.harqTxBuffers.Sorted → st'.ues = st.ues)
    (fun _ _ => rfl) (fun st st' st'' h h' hst => ?_) (fun st n cw acid st' bytes h hst => ?_) h hst
  · have hsame := h hst
    exact (h' (DlState.sorted_of_ues hst hsame)).trans hsame
  · rcases schedulePerAcidRtx_cases h with ⟨-, hbuf⟩ | ⟨_, _, b, b', _, -, hb, -, -, hbuf⟩
    · rw [DlState.ues, hbuf]
      rfl
    · rw [DlState.ues, hbuf]
      exact hst.keys_put (by rw [hb]; rfl)

/-- The UE has left the simulation. -/
abbrev departed (D : DlEnv) (nodeId : MacNodeId) : Prop := D.env.binder.getOmnetId nodeId = 0

theorem rtxTurn_departed (hst : st.harqTxBuffers.Sorted) {done ns : List MacNodeId}
    {n m : MacNodeId} (hues : st.ues = done ++ n :: m :: ns) (hn : D.departed n)
    (log : List MacNodeId) :
    ({ st with harqTxBuffers := st.harqTxBuffers.erase n } : DlState).ues = done ++ m :: ns ∧
      D.rtxTurn n ⟨st, log⟩ =
        .ok (⟨{ st with harqTxBuffers := st.harqTxBuffers.erase n }, log⟩, .next (some m)) := by
  have hkeys : ({ st with harqTxBuffers := st.harqTxBuffers.erase n } : DlState).ues =
      done ++ m :: ns := hst.keys_erase_append hues
  refine ⟨hkeys, ?_⟩
  have hfollow : following (done ++ m :: ns) n = some m := by
    refine following_erased ?_
    rw [← hues]
    exact hst
  rw [rtxTurn, if_pos hn]
  dsimp only
  rw [hkeys, hfollow]
  rfl

theorem rtxTurn_live {n : MacNodeId} (hn : ¬D.departed n) (log : List MacNodeId) :
    D.rtxTurn n ⟨st, log⟩ =
      (fun st' => (⟨st', log ++ [n]⟩, .next (some n))) <$> D.rtxUe n st := by
  rw [rtxTurn, if_neg hn]
  cases D.rtxUe n st <;> rfl

/-- **The loop with its iterators** takes the UEs as `rtxUes` does, and no iterator is used whose
element has been erased. -/
theorem rtxLoop_eq {ns done log : List MacNodeId} {k : ℕ} (hst : st.harqTxBuffers.Sorted)
    (hues : st.ues = done ++ ns) (hk : ns.length ≤ k) :
    mapLoop (fun s : Examined DlState => s.state.ues) D.rtxTurn k ns.head? ⟨st, log⟩ =
      (fun st' => ⟨st', log ++ rtxConsidered D.departed ns⟩) <$>
        (D.rtxUes ns st).mapError .body := by
  induction ns, st using rtxUes.induct D generalizing done log k with
  | case1 st =>
    rw [rtxConsidered, List.append_nil, rtxUes]
    cases k <;> rfl
  -- the last UE has left: after the erase the map has ended, and so does the loop
  | case2 n st hn =>
    obtain ⟨k, rfl⟩ : ∃ j, k = j + 1 := ⟨k - 1, by simp at hk; omega⟩
    have hkeys : ({ st with harqTxBuffers := st.harqTxBuffers.erase n } : DlState).ues = done := by
      rw [DlState.ues, hst.keys_erase_append hues, List.append_nil]
    have hfollow : following done n = none := by
      have hpair : (done ++ [n]).Pairwise (· < ·) := by
        rw [← hues]
        exact hst
      have h := following_erased hpair
      rwa [List.append_nil] at h
    have hturn : D.rtxTurn n ⟨st, log⟩ =
        .ok (⟨{ st with harqTxBuffers := st.harqTxBuffers.erase n }, log⟩, .leave) := by
      rw [rtxTurn, if_pos hn]
      dsimp only
      rw [hkeys, hfollow]
      rfl
    rw [List.head?_cons, rtxUes, if_pos hn, rtxConsidered, if_pos hn, List.append_nil]
    exact mapLoop_leave hturn
  -- the last UE of the map
  | case3 n st hn =>
    obtain ⟨k, rfl⟩ : ∃ j, k = j + 1 := ⟨k - 1, by simp at hk; omega⟩
    rw [List.head?_cons, rtxUes, if_neg hn, rtxConsidered, if_neg hn]
    cases hue : D.rtxUe n st with
    | error e => exact mapLoop_throw (by rw [rtxTurn_live hn, hue]; rfl)
    | ok st' =>
      have hbody : D.rtxTurn n ⟨st, log⟩ = .ok (⟨st', log ++ [n]⟩, .next (some n)) := by
        rw [rtxTurn_live hn, hue]
        rfl
      refine Eq.trans (mapLoop_stay hst hues hbody (rtxUe_ues hst hue)) ?_
      cases k <;> rfl
  -- a UE that has left is erased, and the next one is passed over
  | case4 n m ns st hn ih =>
    obtain ⟨k, rfl⟩ : ∃ j, k = j + 1 := ⟨k - 1, by simp at hk; omega⟩
    obtain ⟨hkeys, hturn⟩ := rtxTurn_departed hst hues hn log
    rw [List.head?_cons, rtxUes, if_pos hn, rtxConsidered, if_pos hn]
    refine Eq.trans (mapLoop_skip hst hues hturn hkeys) ?_
    exact ih (hst.erase n) (hkeys.trans (List.append_cons ..)) (by simp at hk; omega)
  -- a UE whose retransmissions are scheduled
  | case5 n m ns st hn ih =>
    obtain ⟨k, rfl⟩ : ∃ j, k = j + 1 := ⟨k - 1, by simp at hk; omega⟩
    rw [List.head?_cons, rtxUes, if_neg hn, rtxConsidered, if_neg hn]
    cases hue : D.rtxUe n st with
    | error e => exact mapLoop_throw (by rw [rtxTurn_live hn, hue]; rfl)
    | ok st' =>
      have hbody : D.rtxTurn n ⟨st, log⟩ = .ok (⟨st', log ++ [n]⟩, .next (some n)) := by
        rw [rtxTurn_live hn, hue]
        rfl
      have hsame := rtxUe_ues hst hue
      refine Eq.trans (mapLoop_stay hst hues hbody hsame) ?_
      have hnext : st'.ues = (done ++ [n]) ++ m :: ns :=
        (hsame.trans hues).trans (List.append_cons ..)
      refine (ih st' (DlState.sorted_of_ues hst hsame) hnext (by simp at hk ⊢; omega)).trans ?_
      rw [List.append_assoc]
      rfl

theorem rtxUes_ues {ns done : List MacNodeId} (hst : st.harqTxBuffers.Sorted)
    (hues : st.ues = done ++ ns) (h : D.rtxUes ns st = .ok st') :
    st'.ues = done ++ rtxKept D.departed ns := by
  induction ns, st using rtxUes.induct D generalizing done with
  | case1 st =>
    cases h
    exact hues
  | case2 n st hn =>
    rw [rtxUes, if_pos hn] at h
    cases h
    rw [rtxKept, if_pos hn]
    exact hst.keys_erase_append hues
  | case3 n st hn =>
    rw [rtxUes, if_neg hn] at h
    rw [rtxKept, if_neg hn, rtxUe_ues hst h, hues]
  | case4 n m ns st hn ih =>
    rw [rtxUes, if_pos hn] at h
    rw [rtxKept, if_pos hn]
    have hkeys := (rtxTurn_departed hst hues hn []).1
    rw [ih (hst.erase n) (hkeys.trans (List.append_cons ..)) h, List.append_assoc]
    rfl
  | case5 n m ns st hn ih =>
    rw [rtxUes, if_neg hn] at h
    obtain ⟨st₁, hst₁, h⟩ := bind_eq_ok.1 h
    have hsame := rtxUe_ues hst hst₁
    have hnext : st₁.ues = (done ++ [n]) ++ m :: ns :=
      (hsame.trans hues).trans (List.append_cons ..)
    rw [rtxKept, if_neg hn, ih st₁ (DlState.sorted_of_ues hst hsame) hnext h, List.append_assoc]
    rfl

/-- `rtxscheduleExamined` is `rtxschedule` with the UEs that are considered. -/
theorem rtxscheduleExamined_eq (hst : st.harqTxBuffers.Sorted) :
    D.rtxscheduleExamined st =
      (fun r => (⟨r.1, rtxConsidered D.departed st.ues⟩, r.2)) <$>
        (D.rtxschedule st).mapError .body := by
  have hloop : forEach (fun s : Examined DlState => s.state.ues) D.rtxTurn ⟨st, []⟩ =
      (fun st' => ⟨st', rtxConsidered D.departed st.ues⟩) <$> (D.rtxUes st.ues st).mapError .body :=
    have hues : st.ues = [] ++ st.ues := rfl
    rtxLoop_eq hst hues (Nat.le_refl _)
  rw [rtxscheduleExamined, hloop, rtxschedule]
  change _ = _ <$> ((D.rtxUes st.ues st >>= _).mapError _)
  cases D.rtxUes st.ues st with
  | error e => rfl
  | ok st' =>
    change (st'.sched.allocator.computeTotalRbs.mapError _ >>= _) =
      _ <$> ((st'.sched.allocator.computeTotalRbs.mapError _ >>= _).mapError _)
    cases st'.sched.allocator.computeTotalRbs <;> rfl

theorem rtxschedule_ues {full : Bool} (hst : st.harqTxBuffers.Sorted)
    (h : D.rtxschedule st = .ok (st', full)) : st'.ues = rtxKept D.departed st.ues := by
  obtain ⟨st₁, hst₁, h⟩ := bind_eq_ok.1 h
  obtain ⟨blocks, -, h⟩ := bind_eq_ok.1 h
  cases h
  have hues : st.ues = [] ++ st.ues := rfl
  exact rtxUes_ues hst hues hst₁

/-- **Downlink**: the UEs that have left disturb nobody iff only the last UE of the map may have
left. -/
theorem undisturbed_iff (hst : st.harqTxBuffers.Sorted)
    (hret : ∀ e, D.rtxscheduleExamined st ≠ .error (.body e)) :
    (∃ r, D.rtxscheduleExamined st = .ok r ∧
        Undisturbed D.departed st.ues r.1.state.ues r.1.considered) ↔
      ∀ n ∈ st.ues.dropLast, ¬D.departed n := by
  have hnodup : st.ues.Nodup := hst.imp ne_of_lt
  rw [rtxscheduleExamined_eq hst] at hret ⊢
  cases hr : D.rtxschedule st with
  | error e =>
    rw [hr] at hret
    exact absurd rfl (hret e)
  | ok r =>
    have hues := rtxschedule_ues hst hr
    rw [← undisturbed_dl_iff hnodup]
    constructor
    · rintro ⟨r', hr', h⟩
      cases hr'
      rw [← hues]
      exact h
    · intro h
      refine ⟨_, rfl, ?_⟩
      rw [← hues] at h
      exact h

end DlEnv

/-! ### The uplink loop -/

namespace SchedulerEnv

variable {E : SchedulerEnv} {U : UlPending} {s : LteSchedulerEnb}

/-- The UE is one whose buffer the uplink loop erases. -/
abbrev erasesBuffer (E : SchedulerEnv) (nodeId : MacNodeId) : Prop :=
  nodeId = 0 ∨ E.binder.getOmnetId nodeId = 0

theorem rtxLoop_live {ns done log : List MacNodeId} {k : ℕ} (hues : U.ues = done ++ ns)
    (hk : ns.length ≤ k) (hlive : ∀ n ∈ ns, ¬E.erasesBuffer n) :
    mapLoop (fun s : Examined (UlPending × LteSchedulerEnb) => s.state.1.ues) E.rtxTurn k ns.head?
        ⟨(U, s), log⟩ =
      (fun s' => ⟨(U, s'), log ++ ns⟩) <$> (ns.foldlM (E.rtxUser U) s).mapError .body := by
  induction ns generalizing s done log k with
  | nil =>
    rw [List.append_nil]
    cases k <;> rfl
  | cons n ns ih =>
    obtain ⟨k, rfl⟩ : ∃ j, k = j + 1 := ⟨k - 1, by simp at hk; omega⟩
    have hn := hlive n List.mem_cons_self
    rw [List.head?_cons, List.foldlM_cons]
    cases hue : E.rtxUser U s n with
    | error e =>
      refine mapLoop_throw ?_
      rw [rtxTurn, if_neg hn, hue]
      rfl
    | ok s' =>
      have hbody : E.rtxTurn n ⟨(U, s), log⟩ = .ok (⟨(U, s'), log ++ [n]⟩, .next (some n)) := by
        rw [rtxTurn, if_neg hn, hue]
        rfl
      refine Eq.trans (mapLoop_stay U.harq_sorted hues hbody rfl) ?_
      refine (ih (hues.trans (List.append_cons ..)) (by simp at hk; omega)
        fun i hi => hlive i (List.mem_cons_of_mem _ hi)).trans ?_
      rw [List.append_assoc]
      rfl

/-- **A UE that has left**: the loop does not get through. -/
theorem rtxLoop_departed {ns done log : List MacNodeId} {k : ℕ} (hues : U.ues = done ++ ns)
    (hleft : ∃ n ∈ ns, E.erasesBuffer n) (r : Examined (UlPending × LteSchedulerEnb)) :
    mapLoop (fun s : Examined (UlPending × LteSchedulerEnb) => s.state.1.ues) E.rtxTurn k ns.head?
      ⟨(U, s), log⟩ ≠ .ok r := by
  induction ns generalizing s done log k with
  | nil =>
    obtain ⟨n, hn, -⟩ := hleft
    cases hn
  | cons n ns ih =>
    cases k with
    | zero => exact nofun
    | succ k =>
      rw [List.head?_cons]
      by_cases hn : E.erasesBuffer n
      · have hbody : E.rtxTurn n ⟨(U, s), log⟩ =
            .ok (⟨(U.eraseBuffer n, s), log⟩, .next (some n)) := by rw [rtxTurn, if_pos hn]
        have hgone : n ∉ (U.eraseBuffer n).ues := by
          rw [UlPending.ues, UlPending.eraseBuffer, OrderedMap.keys_erase]
          simp
        refine ne_of_eq_of_ne (mapLoop_erased hbody hgone) nofun
      · cases hue : E.rtxUser U s n with
        | error e =>
          refine ne_of_eq_of_ne (mapLoop_throw (e := e) ?_) nofun
          rw [rtxTurn, if_neg hn, hue]
          rfl
        | ok s' =>
          have hbody : E.rtxTurn n ⟨(U, s), log⟩ =
              .ok (⟨(U, s'), log ++ [n]⟩, .next (some n)) := by
            rw [rtxTurn, if_neg hn, hue]
            rfl
          refine ne_of_eq_of_ne (mapLoop_stay U.harq_sorted hues hbody rfl) ?_
          refine ih (hues.trans (List.append_cons ..)) ?_
          obtain ⟨i, hi, hileft⟩ := hleft
          rcases List.mem_cons.1 hi with rfl | hi
          · exact absurd hileft hn
          · exact ⟨i, hi, hileft⟩

/-- Nothing is considered if no block is left: that disturbs nobody only if there is nobody. -/
theorem undisturbed_nil_iff {ues : List MacNodeId} {departed : MacNodeId → Prop}
    [DecidablePred departed] : Undisturbed departed ues ues [] ↔ ues = [] := by
  constructor
  · intro h
    by_contra hne
    obtain ⟨n, hn⟩ := List.exists_mem_of_ne_nil _ hne
    have hlive := ((h.removed n).1 hn).2
    have honce := h.once n
    rw [if_pos ⟨hn, hlive⟩] at honce
    cases honce
  · rintro rfl
    exact ⟨fun n => by simp, fun n => by simp⟩

theorem undisturbed_self {ues : List MacNodeId} {departed : MacNodeId → Prop}
    [DecidablePred departed] (hnodup : ues.Nodup) (hlive : ∀ n ∈ ues, ¬departed n) :
    Undisturbed departed ues ues ues := by
  refine ⟨fun n => ?_, fun n => ⟨fun hn => ⟨hn, hlive n hn⟩, And.left⟩⟩
  rw [hnodup.count]
  by_cases hn : n ∈ ues
  · rw [if_pos hn, if_pos ⟨hn, hlive n hn⟩]
  · rw [if_neg hn, if_neg fun h => hn h.1]

/-- **Uplink**: the UEs that have left disturb nobody iff there are none in the map, provided that
the loop is run at all. -/
theorem undisturbed_iff (hret : ∀ e, E.rtxscheduleExamined U s ≠ .error (.body e)) :
    (∃ r, E.rtxscheduleExamined U s = .ok r ∧
        Undisturbed (fun n => E.binder.getOmnetId n = 0) U.ues r.1.state.1.ues r.1.considered) ↔
      (∀ s', E.racschedule U s = .ok (s', true) → U.ues = []) ∧
        ∀ n ∈ U.ues, ¬E.erasesBuffer n := by
  rw [rtxscheduleExamined] at hret ⊢
  cases hrac : E.racschedule U s with
  | error e =>
    rw [hrac] at hret
    exact absurd rfl (hret e)
  | ok r =>
    obtain ⟨s', full⟩ := r
    rw [hrac] at hret
    cases full with
    | true =>
      constructor
      · rintro ⟨_, ⟨⟩, h⟩
        have hnil := undisturbed_nil_iff.1 h
        refine ⟨fun _ _ => hnil, fun n hn => ?_⟩
        rw [hnil] at hn
        cases hn
      · intro h
        exact ⟨_, rfl, undisturbed_nil_iff.2 (h.1 s' rfl)⟩
    | false =>
      have hues : U.ues = [] ++ U.ues := rfl
      -- what is left of the function after the RAC requests
      change (∃ r, (forEach (fun s : Examined (UlPending × LteSchedulerEnb) => s.state.1.ues)
        E.rtxTurn ⟨(U, s'), []⟩ >>= _) = .ok r ∧ _) ↔ _
      change ∀ e, (forEach (fun s : Examined (UlPending × LteSchedulerEnb) => s.state.1.ues)
        E.rtxTurn ⟨(U, s'), []⟩ >>= _) ≠ _ at hret
      constructor
      · rintro ⟨r, hr, -⟩
        refine ⟨fun _ => nofun, fun n hn hleft => ?_⟩
        obtain ⟨r', hr', -⟩ := bind_eq_ok.1 hr
        exact rtxLoop_departed hues ⟨n, hn, hleft⟩ r' hr'
      · rintro ⟨-, hlive⟩
        have hloop : forEach (fun s : Examined (UlPending × LteSchedulerEnb) => s.state.1.ues)
            E.rtxTurn ⟨(U, s'), []⟩ = (fun s' => ⟨(U, s'), U.ues⟩) <$>
              (U.ues.foldlM (E.rtxUser U) s').mapError .body :=
          rtxLoop_live hues (Nat.le_refl _) hlive
        rw [hloop] at hret ⊢
        cases hfold : U.ues.foldlM (E.rtxUser U) s' with
        | error e =>
          rw [hfold] at hret
          exact absurd rfl (hret e)
        | ok s'' =>
          rw [hfold] at hret
          change ∀ e, (s''.allocator.computeTotalRbs.mapError LoopError.body >>= _) ≠ _ at hret
          change ∃ r, (s''.allocator.computeTotalRbs.mapError LoopError.body >>= _) = _ ∧ _
          cases hrbs : s''.allocator.computeTotalRbs with
          | error e =>
            rw [hrbs] at hret
            exact absurd rfl (hret e)
          | ok blocks =>
            refine ⟨_, rfl, undisturbed_self (U.harq_sorted.imp ne_of_lt) fun n hn hleft => ?_⟩
            exact hlive n hn (.inr hleft)

end SchedulerEnv

/-! ### Both schedulers -/

/-- **The UEs that have left disturb nobody** iff, in the downlink, only the last UE of the map may
have left, and in the uplink none has.  If no block is left after the RAC requests the uplink loop
is not run, and nobody is considered. -/
theorem rtxschedule_undisturbed_iff (D : DlEnv) (st : DlState) (hst : st.harqTxBuffers.Sorted)
    (hret : ∀ e, D.rtxscheduleExamined st ≠ .error (.body e)) (E : SchedulerEnv) (U : UlPending)
    (s : LteSchedulerEnb) (hret' : ∀ e, E.rtxscheduleExamined U s ≠ .error (.body e)) :
    ((∃ r, D.rtxscheduleExamined st = .ok r ∧
      Undisturbed D.departed st.ues r.1.state.ues r.1.considered) ↔
        ∀ n ∈ st.ues.dropLast, ¬D.departed n) ∧
    ((∃ r, E.rtxscheduleExamined U s = .ok r ∧ Undisturbed
      (fun n => E.binder.getOmnetId n = 0) U.ues r.1.state.1.ues r.1.considered) ↔
        (∀ s', E.racschedule U s = .ok (s', true) → U.ues = []) ∧
          ∀ n ∈ U.ues, ¬E.erasesBuffer n) :=
  ⟨DlEnv.undisturbed_iff hst hret, SchedulerEnv.undisturbed_iff hret'⟩

/-- A cell with one band in which the UE `1026` is. -/
def secondUe : SchedulerEnv :=
  { SchedulerEnv.hundredBytes with
    binder := { nodeIds := fun n => if n = 1026 then some 1 else none } }

/-- Its downlink scheduler, for empty H-ARQ buffers of the UEs. -/
def emptyTxBuffers (ues : List MacNodeId) : DlState where
  sched := { allocator := .initAndReset 10 1 }
  harqTxBuffers := ues.map fun n => (n, { numProc := 0 })

/-- The uplink scheduler with buffers of the UEs, in which nothing has to be sent again. -/
def emptyRxBuffers (ues : List MacNodeId) (h : ues.Pairwise (· < ·)) : UlPending where
  harqRxBuffers := ues.map fun n => (n, [[⟨.EMPTY, 0⟩]])
  harqStatus := ues.map fun n => (n, 0)
  rac_sorted := OrderedMap.sorted_nil
  harq_sorted := by
    rw [OrderedMap.Sorted, List.map_map]
    exact (List.map_id ues).symm ▸ h

/-- In the downlink the last UE has left, in the uplink nobody. -/
theorem undisturbed_secondUe :
    (∃ r, DlEnv.rtxscheduleExamined ⟨secondUe, fun _ => none⟩ (emptyTxBuffers [1026, 1027]) =
        .ok r ∧ Undisturbed (DlEnv.departed ⟨secondUe, fun _ => none⟩) [1026, 1027]
          r.1.state.ues r.1.considered) ∧
    ∃ r, secondUe.rtxscheduleExamined (emptyRxBuffers [1026] (by simp))
        { allocator := .initAndReset 10 1 } = .ok r ∧
      Undisturbed (fun n => secondUe.binder.getOmnetId n = 0) [1026] r.1.state.1.ues
        r.1.considered := by
  have h := rtxschedule_undisturbed_iff ⟨secondUe, fun _ => none⟩ (emptyTxBuffers [1026, 1027])
    (by decide) (fun e => ?_) secondUe (emptyRxBuffers [1026] (by simp))
    { allocator := .initAndReset 10 1 } (fun e => ?_)
  · refine ⟨h.1.2 fun n hn => ?_, h.2.2 ⟨fun s' h => ?_, fun n hn => ?_⟩⟩
    · obtain rfl := List.mem_singleton.1 hn
      decide
    · cases h
    · obtain rfl := List.mem_singleton.1 hn
      decide
  · have hrun : DlEnv.rtxscheduleExamined ⟨secondUe, fun _ => none⟩
        (emptyTxBuffers [1026, 1027]) = .ok (_, _) := rfl
    rw [hrun]
    exact nofun
  · have hrun : secondUe.rtxscheduleExamined (emptyRxBuffers [1026] (by simp))
        { allocator := .initAndReset 10 1 } = .ok (_, _) := rfl
    rw [hrun]
    exact nofun

/-- **The first UE has left**: the downlink loop passes over the second one, and the uplink loop
increments the iterator of a buffer that has been erased. -/
theorem second_passed_over :
    (∃ r, DlEnv.rtxscheduleExamined ⟨secondUe, fun _ => none⟩ (emptyTxBuffers [1025, 1026]) =
        .ok r ∧ r.1.considered = [] ∧
          ¬Undisturbed (DlEnv.departed ⟨secondUe, fun _ => none⟩) [1025, 1026]
            r.1.state.ues r.1.considered) ∧
    secondUe.rtxscheduleExamined (emptyRxBuffers [1025, 1026] (by decide))
      { allocator := .initAndReset 10 1 } = .error .erased := by
  refine ⟨⟨_, rfl, rfl, fun h => ?_⟩, rfl⟩
  have honce := h.once 1026
  exact absurd honce (by decide)

end V2nLte
