import V2nLte.Mac.Grant

/-!
# What the connections of a round leave

What a connection can get in a round is a matter of the order: of the blocks and codewords that
those before it leave.  `leftBy` counts this from the state before the round.  Each connection in
turn takes the blocks that its queue gets on the bands, and its UE a codeword; nobody is passed
over, the queues stay as they are, and nothing ends the count.

* `Starves` : by this count a connection that should get a grant stands behind one that ends the
  round, and blocks are left for it.
* `Outcome.planned` : a grant leaves what the count says.
-/

namespace V2nLte

namespace SchedulerEnv

variable (E : SchedulerEnv)

instance (cid : MacCid) : Decidable (E.HarqFree cid) :=
  inferInstanceAs (Decidable (E.checkEligibility (MacCidToNodeId cid) = .ok (true, 0)))

/-- What is left when a connection has taken its share: the blocks that its queue gets with its
headers on the bands, and a codeword if these hold any bytes.  The queue is not touched. -/
def takeShare (s : LteSchedulerEnb) (cid : MacCid) : LteSchedulerEnb :=
  match E.conn s cid with
  | none => E.prepared s cid
  | some b =>
    if s.allocatedCws (MacCidToNodeId cid) = 0 ∧ E.HarqFree cid ∧ b.queueOccupancy ≠ 0 then
      { s with
        allocator := E.blocksTaken s cid b
        allocatedCws :=
          if 0 < u32 (E.booking s cid b).1 then
            Function.update s.allocatedCws (MacCidToNodeId cid) 1
          else s.allocatedCws }
    else E.prepared s cid

/-- What some connections leave, one after the other. -/
def leftBy (s : LteSchedulerEnb) (cids : List MacCid) : LteSchedulerEnb := cids.foldl E.takeShare s

/-- The node of a connection is in the simulation. -/
def known (cid : MacCid) : Bool :=
  decide (MacCidToNodeId cid ≠ 0 ∧ E.binder.getOmnetId (MacCidToNodeId cid) ≠ 0)

variable {E} {s s' t : LteSchedulerEnb} {cid c : MacCid} {cids : List MacCid} {g : Grant}
  {dir : MacCid → FlowDirection} {cuts : LteSchedulerEnb → MacCid → Prop}

/-- A connection that the band loop is not reached for takes nothing. -/
theorem takeShare_of_not (h : ∀ b, E.conn s cid = some b →
    ¬(s.allocatedCws (MacCidToNodeId cid) = 0 ∧ E.HarqFree cid ∧ b.queueOccupancy ≠ 0)) :
    E.takeShare s cid = E.prepared s cid := by
  unfold takeShare
  split
  · rfl
  · rename_i b hb
    exact if_neg (h b hb)

/-- The count `t` is right about the state `s` of a round as far as the connections `cids` are
concerned. -/
structure Planned (E : SchedulerEnv) (t s : LteSchedulerEnb) (cids : List MacCid) : Prop where
  allocator : s.allocator = t.allocator
  cws : s.allocatedCws = t.allocatedCws
  conn : ∀ c ∈ cids, E.conn s c = E.conn t c

theorem Planned.refl (s : LteSchedulerEnb) (cids : List MacCid) : Planned E s s cids :=
  ⟨rfl, rfl, fun _ _ => rfl⟩

theorem Planned.tail (h : Planned E t s (c :: cids)) : Planned E t s cids :=
  ⟨h.allocator, h.cws, fun d hd => h.conn d (List.mem_cons_of_mem c hd)⟩

theorem Planned.prepared (h : Planned E t s cids) (cid : MacCid) :
    (E.prepared s cid).allocator = (E.prepared t cid).allocator := by
  simp only [SchedulerEnv.prepared, h.allocator]

theorem Planned.booking (h : Planned E t s cids) (cid : MacCid) (b : LteMacBuffer) :
    E.booking s cid b = E.booking t cid b := by
  rw [SchedulerEnv.booking, h.prepared, SchedulerEnv.booking]

theorem Planned.spaceEnded_iff (h : Planned E t s cids) (cid : MacCid) :
    E.SpaceEnded s cid ↔ E.SpaceEnded t cid := by
  rw [SpaceEnded, h.prepared, h.cws, SpaceEnded]

/-- **A grant leaves what the count says**, unless it finds the OFDM space exhausted. -/
theorem Outcome.planned (ho : E.Outcome s cid s' g) (h : Planned E t s (cid :: cids))
    (hnot : cid ∉ cids) (hreg : E.binder.getOmnetId (MacCidToNodeId cid) ≠ 0)
    (hspace : ¬E.SpaceEnded s cid) : Planned E (E.takeShare t cid) s' cids := by
  have hhead := h.conn cid List.mem_cons_self
  -- a grant that does not get to the band loop
  have hprepared : (∀ b, E.conn s cid = some b →
      ¬(s.allocatedCws (MacCidToNodeId cid) = 0 ∧ E.HarqFree cid ∧ b.queueOccupancy ≠ 0)) →
      Planned E (E.takeShare t cid) (E.prepared s cid) cids := by
    intro hno
    rw [hhead, h.cws] at hno
    rw [takeShare_of_not hno]
    exact ⟨h.prepared cid, h.cws, h.tail.conn⟩
  cases ho with
  | stale hgone => exact absurd hgone hreg
  | ended _ hended => exact absurd hended hspace
  | busy _ _ hbusy => exact hprepared fun b _ hb => by omega
  | notEligible _ _ _ hharq => exact hprepared fun b _ hb => hharq hb.2.1
  | empty _ _ _ _ hconn hocc =>
    refine hprepared fun b hb hserved => hserved.2.2 ?_
    obtain rfl := Option.some.inj (hconn.symm.trans hb)
    exact hocc
  | @booked s' b b' _ _ hcws hharq hconn hocc hconn' hcws' halloc =>
    have hserved : t.allocatedCws (MacCidToNodeId cid) = 0 ∧ E.HarqFree cid ∧
        b.queueOccupancy ≠ 0 := ⟨h.cws ▸ hcws, hharq, hocc⟩
    have htake : E.takeShare t cid = { t with
        allocator := E.blocksTaken t cid b
        allocatedCws :=
          if 0 < u32 (E.booking t cid b).1 then
            Function.update t.allocatedCws (MacCidToNodeId cid) 1
          else t.allocatedCws } := by
      unfold takeShare
      rw [hhead.symm.trans hconn]
      exact if_pos hserved
    rw [htake]
    refine ⟨?_, ?_, fun c hc => ?_⟩
    · rw [halloc, blocksTaken, h.prepared, blocksTaken]
    · rw [hcws', h.booking, h.cws]
    · have hne : c ≠ cid := by
        rintro rfl
        exact hnot hc
      rw [hconn' c, if_neg hne]
      exact h.tail.conn c hc

end SchedulerEnv

end V2nLte
