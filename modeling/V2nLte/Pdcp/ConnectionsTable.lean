import V2nLte.Lte.Common
import V2nLte.Lte.Ip2lte
import V2nLte.Machine.Basic
import V2nLte.Machine.LinearProbing

/-!
# How PDCP identifies connections

`LtePdcpRrcBase::fromDataPort` looks the flow of a packet up in a hash table, and gives a new flow
the next LCID.  The table has `TABLE_SIZE` slots; nothing is ever taken out of it, and the loops
of `find_entry` and `create_entry` have no bound.  A flow is four numbers, or five with D2D, where
the directions of a flow have LCIDs of their own.

* `finite_map` : with fewer flows than slots the table is a finite map.
* `identified_iff` : in a run all the calls end, and packets have the same LCID iff they are of the
  same flow, iff there are no more flows than slots.
-/

namespace V2nLte

/-- `TABLE_SIZE`. -/
def TABLE_SIZE : ℕ := 2048

/-- The LCID of an empty slot. -/
def NO_LCID : LogicalCid := 0xFFFF

/-- A flow, with its direction if that counts. -/
structure Flow where
  /-- The address of the sender. -/
  srcAddr : Ipv4Address
  /-- The address of the receiver. -/
  dstAddr : Ipv4Address
  /-- The port of the sender. -/
  srcPort : UInt16
  /-- The port of the receiver. -/
  dstPort : UInt16
  /-- The direction. -/
  dir : Option UInt16
  deriving DecidableEq

/-- A slot of the table; all its bits are set in the beginning. -/
structure Entry where
  /-- The address of the sender. -/
  srcAddr : Ipv4Address := 0xFFFFFFFF
  /-- The address of the receiver. -/
  dstAddr : Ipv4Address := 0xFFFFFFFF
  /-- The port of the sender. -/
  srcPort : UInt16 := 0xFFFF
  /-- The port of the receiver. -/
  dstPort : UInt16 := 0xFFFF
  /-- The direction, `0xFFFF` if it does not count. -/
  dir : UInt16 := 0xFFFF
  /-- The LCID of the flow. -/
  lcid : LogicalCid := NO_LCID

/-- `hash_func`. -/
def Flow.hash (f : Flow) : ℕ :=
  let ports := f.srcPort.toUInt32 ||| f.dstPort.toUInt32
  (match f.dir with
    | none => ports ||| f.srcAddr ||| f.dstAddr
    | some dir => ports ||| f.srcAddr ||| f.dstAddr ||| dir.toUInt32).toNat % TABLE_SIZE

/-- Whether an entry is that of a flow. -/
def Flow.isEntry (f : Flow) (e : Entry) : Bool :=
  e.srcAddr == f.srcAddr && e.dstAddr == f.dstAddr && e.srcPort == f.srcPort &&
    e.dstPort == f.dstPort && match f.dir with
    | none => true
    | some dir => e.dir == dir

/-- `ConnectionsTable`; the slots are those below `TABLE_SIZE`. -/
structure ConnectionsTable where
  /-- The slots. -/
  ht : ℕ → Entry := fun _ => {}

namespace ConnectionsTable

variable (t : ConnectionsTable) (f : Flow)

/-- The loop of `find_entry`, with at most the given number of iterations. -/
def scan : ℕ → ℕ → Option LogicalCid
  | 0, _ => none
  | n + 1, hashIndex =>
    if (t.ht hashIndex).lcid = NO_LCID then some NO_LCID
    else if f.isEntry (t.ht hashIndex) then some (t.ht hashIndex).lcid
    else scan n ((hashIndex + 1) % TABLE_SIZE)

/-- The loop of `create_entry`. -/
def emptySlot : ℕ → ℕ → Option ℕ
  | 0, _ => none
  | n + 1, hashIndex =>
    if (t.ht hashIndex).lcid ≠ NO_LCID then emptySlot n ((hashIndex + 1) % TABLE_SIZE)
    else some hashIndex

/-- `find_entry`; `none` if it takes more than `n` iterations. -/
def find_entry (n : ℕ) : Option LogicalCid := t.scan f n f.hash

/-- `create_entry`. -/
def create_entry (n : ℕ) (lcid : LogicalCid) : Option ConnectionsTable :=
  (t.emptySlot n f.hash).map fun hashIndex =>
    { ht := Function.update t.ht hashIndex
        { srcAddr := f.srcAddr
          dstAddr := f.dstAddr
          srcPort := f.srcPort
          dstPort := f.dstPort
          dir := f.dir.getD (t.ht hashIndex).dir
          lcid := lcid } }

end ConnectionsTable

/-- The control info of a packet, with the direction that has been set. -/
structure PdcpControlInfo extends FlowControlInfo where
  /-- The direction. -/
  direction : UInt16

/-- The flow of a packet, for PDCP with or without D2D. -/
def PdcpControlInfo.flow (d2d : Bool) (p : PdcpControlInfo) : Flow where
  srcAddr := p.srcAddr
  dstAddr := p.dstAddr
  srcPort := p.srcPort
  dstPort := p.dstPort
  dir := if d2d then some p.direction else none

/-- `LtePdcpRrcBase`. -/
structure LtePdcpRrc where
  /-- The LCIDs of the flows. -/
  ht : ConnectionsTable := {}
  /-- The next LCID. -/
  lcid : LogicalCid := 1

namespace LtePdcpRrc

/-- The LCID of a packet of a flow; `none` if a loop takes more than `n` iterations. -/
def identify (n : ℕ) (s : LtePdcpRrc) (f : Flow) : Option (LtePdcpRrc × List LogicalCid) :=
  match s.ht.find_entry f n with
  | none => none
  | some mylcid =>
    if mylcid = NO_LCID then
      (s.ht.create_entry f n s.lcid).map fun ht => ({ ht := ht, lcid := s.lcid + 1 }, [s.lcid])
    else some (s, [mylcid])

/-- `LtePdcpRrcBase::fromDataPort`, as far as the connection is concerned. -/
def fromDataPort (n : ℕ) (s : LtePdcpRrc) (p : PdcpControlInfo) :
    Option (LtePdcpRrc × List LogicalCid) := s.identify n (p.flow false)

/-- `LtePdcpRrcEnbD2D::fromDataPort` and `LtePdcpRrcUeD2D::fromDataPort`. -/
def fromDataPortD2D (n : ℕ) (s : LtePdcpRrc) (p : PdcpControlInfo) :
    Option (LtePdcpRrc × List LogicalCid) := s.identify n (p.flow true)

/-- PDCP as a machine. -/
def machine (d2d : Bool) (n : ℕ) : Machine LtePdcpRrc PdcpControlInfo LogicalCid where
  step := if d2d then fromDataPortD2D n else fromDataPort n

/-- All the packets are given an LCID, the same one iff they are of the same flow. -/
def Identified (d2d : Bool) (ps : List PdcpControlInfo) : Prop :=
  ∃ n s lcids, (machine d2d n).exec {} ps = some (s, lcids) ∧ lcids.length = ps.length ∧
    ∀ i j : ℕ, i < ps.length → j < ps.length → (lcids[i]? = lcids[j]? ↔
      (ps[i]?).map (PdcpControlInfo.flow d2d) = (ps[j]?).map (PdcpControlInfo.flow d2d))

end LtePdcpRrc

/-! ### The table as a map -/

namespace ConnectionsTable

open LinearProbing

variable {t t' : ConnectionsTable} {f : Flow} {d2d : Bool} {n i : ℕ} {lcid : LogicalCid}

/-- The flow of an entry. -/
def flowOf (d2d : Bool) (e : Entry) : Flow where
  srcAddr := e.srcAddr
  dstAddr := e.dstAddr
  srcPort := e.srcPort
  dstPort := e.dstPort
  dir := if d2d then some e.dir else none

/-- The slots of the table, as the library sees them. -/
def slots (t : ConnectionsTable) (d2d : Bool) (i : ℕ) : Option (Flow × LogicalCid) :=
  if (t.ht i).lcid = NO_LCID then none else some (flowOf d2d (t.ht i), (t.ht i).lcid)

theorem hash_lt (f : Flow) : f.hash < TABLE_SIZE := Nat.mod_lt _ (by decide)

theorem isEntry_iff (hd : f.dir.isSome = d2d) (e : Entry) :
    f.isEntry e = true ↔ flowOf d2d e = f := by
  obtain ⟨srcAddr, dstAddr, srcPort, dstPort, dir⟩ := f
  subst hd
  cases dir <;> simp [Flow.isEntry, flowOf, and_assoc]

/-- **`find_entry`** is a lookup. -/
theorem scan_eq (hd : f.dir.isSome = d2d) : t.scan f n i =
    (find TABLE_SIZE (t.slots d2d) f n i).map fun r => r.getD NO_LCID := by
  induction n generalizing i with
  | zero => rfl
  | succ n ih =>
    rw [scan, find, slots]
    by_cases hfree : (t.ht i).lcid = NO_LCID
    · rw [if_pos hfree, if_pos hfree]
      rfl
    · rw [if_neg hfree, if_neg hfree]
      dsimp only
      by_cases hkey : flowOf d2d (t.ht i) = f
      · rw [if_pos ((isEntry_iff hd _).2 hkey), if_pos hkey]
        rfl
      · rw [if_neg fun h => hkey ((isEntry_iff hd _).1 h), if_neg hkey]
        exact ih

theorem emptySlot_eq (d2d : Bool) : t.emptySlot n i = freeSlot TABLE_SIZE (t.slots d2d) n i := by
  induction n generalizing i with
  | zero => rfl
  | succ n ih =>
    rw [emptySlot, freeSlot, slots]
    by_cases hfree : (t.ht i).lcid = NO_LCID
    · rw [if_neg (not_not.2 hfree), if_pos hfree]
      rfl
    · rw [if_pos hfree, if_neg hfree]
      exact ih

/-- **`create_entry`** stores the flow in the first empty slot. -/
theorem create_entry_eq_some (hd : f.dir.isSome = d2d) (hlcid : lcid ≠ NO_LCID)
    (h : t.create_entry f n lcid = some t') :
    ∃ j, freeSlot TABLE_SIZE (t.slots d2d) n f.hash = some j ∧
      t'.slots d2d = Function.update (t.slots d2d) j (some (f, lcid)) := by
  obtain ⟨j, hj, rfl⟩ := Option.map_eq_some_iff.1 h
  refine ⟨j, by rw [← emptySlot_eq d2d, hj], ?_⟩
  funext i
  by_cases hij : i = j
  · subst hij
    simp only [slots, Function.update_self, if_neg hlcid]
    obtain ⟨srcAddr, dstAddr, srcPort, dstPort, dir⟩ := f
    subst hd
    cases dir <;> rfl
  · simp only [slots, Function.update_of_ne hij]

/-! ### The table on its own -/

/-- A flow is entered when it has not been found. -/
def machine (n : ℕ) : Machine ConnectionsTable (Flow × LogicalCid) Empty where
  step t c :=
    if t.find_entry c.1 n = some NO_LCID then (t.create_entry c.1 n c.2).map fun t' => (t', [])
    else none

/-- The LCID that was given to a flow. -/
def given (cs : List (Flow × LogicalCid)) (f : Flow) : Option LogicalCid :=
  (cs.find? fun c => c.1 = f).map Prod.snd

/-- The table after the flows `cs` have been entered. -/
structure Entered (d2d : Bool) (cs : List (Flow × LogicalCid)) (t : ConnectionsTable) : Prop where
  holds : Holds TABLE_SIZE (t.slots d2d) Flow.hash (given cs)
  card_eq : (occupied TABLE_SIZE (t.slots d2d)).card = cs.length

variable {cs : List (Flow × LogicalCid)} {c : Flow × LogicalCid}

theorem given_eq_none (h : f ∉ cs.map Prod.fst) : given cs f = none := by
  rw [given, List.find?_eq_none.2]
  · rfl
  · intro c hc hcf
    exact h (List.mem_map.2 ⟨c, hc, of_decide_eq_true hcf⟩)

theorem given_concat (h : c.1 ∉ cs.map Prod.fst) :
    given (cs ++ [c]) = Function.update (given cs) c.1 (some c.2) := by
  funext f
  by_cases hf : f = c.1
  · subst hf
    have hnone : cs.find? (fun c' => c'.1 = c.1) = none := by
      rw [List.find?_eq_none]
      intro c' hc' hcf
      exact h (List.mem_map.2 ⟨c', hc', of_decide_eq_true hcf⟩)
    rw [Function.update_self, given, List.find?_append, hnone]
    simp
  · have hsingle : [c].find? (fun c' => c'.1 = f) = none := by
      simp [Ne.symm hf]
    rw [Function.update_of_ne hf, given, List.find?_append, hsingle, Option.or_none, given]

theorem entered_nil : Entered d2d [] {} where
  holds := ⟨fun _ _ h => (nomatch h), fun _ _ _ _ h => nomatch h⟩
  card_eq := by simp [occupied, slots]

/-- **Every lookup ends**, with what was given to the flow. -/
theorem Entered.find_eq (h : Entered d2d cs t) (hlen : cs.length < TABLE_SIZE)
    (hd : f.dir.isSome = d2d) :
    t.find_entry f TABLE_SIZE = some ((given cs f).getD NO_LCID) := by
  rw [find_entry, scan_eq hd]
  cases hv : given cs f with
  | some v => rw [find_eq_of_mem h.holds (hash_lt f) hv]; rfl
  | none =>
    rw [find_eq_of_empty h.holds (hash_lt f) hv (exists_empty_of_card_lt (h.card_eq ▸ hlen))]
    rfl

/-- **A new flow** is entered, and the entries of the other ones stay. -/
theorem Entered.create (h : Entered d2d cs t) (hlen : cs.length < TABLE_SIZE)
    (hd : c.1.dir.isSome = d2d) (hlcid : c.2 ≠ NO_LCID) (hnew : c.1 ∉ cs.map Prod.fst) :
    ∃ t', (machine TABLE_SIZE).step t c = some (t', []) ∧ Entered d2d (cs ++ [c]) t' := by
  have hfind := h.find_eq hlen hd
  rw [given_eq_none hnew, Option.getD_none] at hfind
  have hempty := exists_empty_of_card_lt (h.card_eq ▸ hlen)
  obtain ⟨j, hj⟩ := exists_freeSlot (hash_lt c.1) hempty
  have hj' := hj
  rw [← emptySlot_eq d2d] at hj'
  obtain ⟨t', ht'⟩ : ∃ t', t.create_entry c.1 TABLE_SIZE c.2 = some t' :=
    ⟨_, by rw [create_entry, hj']; rfl⟩
  obtain ⟨j', hfree, hslots⟩ := create_entry_eq_some hd hlcid ht'
  obtain rfl : j = j' := Option.some.inj (hj.symm.trans hfree)
  obtain ⟨k, -, -, hnone, hk⟩ := (freeSlot_eq_some_iff (hash_lt c.1)).1 hj
  have hlt : j < TABLE_SIZE := hk ▸ Nat.mod_lt _ (by decide)
  rw [hk] at hnone
  refine ⟨t', ?_, ?_, ?_⟩
  · show (if _ then _ else _) = _
    rw [if_pos hfind, ht']
    rfl
  · rw [hslots, given_concat hnew]
    exact h.holds.insert (hash_lt c.1) (given_eq_none hnew) hj c.2
  · rw [hslots, card_occupied_insert hlt hnone, h.card_eq, List.length_append]
    rfl

/-- The entries that are there stay. -/
theorem ht_of_step {o : List Empty} (h : (machine n).step t c = some (t', o))
    (hfull : (t.ht i).lcid ≠ NO_LCID) : t'.ht i = t.ht i := by
  simp only [machine] at h
  split at h
  · obtain ⟨t₁, ht₁, heq⟩ := Option.map_eq_some_iff.1 h
    cases heq
    obtain ⟨j, hj, rfl⟩ := Option.map_eq_some_iff.1 ht₁
    rw [emptySlot_eq true] at hj
    obtain ⟨k, -, -, hnone, hk⟩ := (freeSlot_eq_some_iff (hash_lt c.1)).1 hj
    rw [hk] at hnone
    refine Function.update_of_ne (fun hij => ?_) _ _
    subst hij
    rw [slots, if_neg hfull] at hnone
    cases hnone
  · cases h

theorem exists_exec (hflow : ∀ c ∈ cs, c.1.dir.isSome = d2d) (hlcid : ∀ c ∈ cs, c.2 ≠ NO_LCID)
    (hnew : (cs.map Prod.fst).Nodup) (hlen : cs.length ≤ TABLE_SIZE) :
    ∃ t, (machine TABLE_SIZE).exec {} cs = some (t, []) ∧ Entered d2d cs t := by
  induction cs using List.reverseRecOn with
  | nil => exact ⟨{}, rfl, entered_nil⟩
  | append_singleton cs c ih =>
    rw [List.map_append, List.nodup_append] at hnew
    rw [List.length_append] at hlen
    obtain ⟨t, hex, ht⟩ := ih (fun c hc => hflow c (List.mem_append_left _ hc))
      (fun c hc => hlcid c (List.mem_append_left _ hc)) hnew.1 (Nat.le_of_succ_le hlen)
    have hmem : c ∈ cs ++ [c] := List.mem_append_right _ List.mem_cons_self
    obtain ⟨t', hst, ht'⟩ := ht.create hlen (hflow c hmem) (hlcid c hmem)
      fun hc => hnew.2.2 c.1 hc c.1 List.mem_cons_self rfl
    exact ⟨t', Machine.exec_concat_eq_some.2 ⟨t, [], [], hex, hst, rfl⟩, ht'⟩

/-- **The table is a finite map**, below its capacity: all the loops end, a lookup finds what was
entered for a flow and nothing else, and an entry never changes. -/
theorem finite_map (d2d : Bool) (cs : List (Flow × LogicalCid))
    (hflow : ∀ c ∈ cs, c.1.dir.isSome = d2d) (hlcid : ∀ c ∈ cs, c.2 ≠ NO_LCID)
    (hnew : (cs.map Prod.fst).Nodup) (hlen : cs.length < TABLE_SIZE) :
    ∃ t, (machine TABLE_SIZE).exec {} cs = some (t, []) ∧
      (∀ f, f.dir.isSome = d2d →
        t.find_entry f TABLE_SIZE = some ((given cs f).getD NO_LCID)) ∧
      ∀ t₁ c t₂ o, (machine TABLE_SIZE).Takes {} cs t₁ c t₂ o →
        ∀ i, (t₁.ht i).lcid ≠ NO_LCID → t₂.ht i = t₁.ht i := by
  obtain ⟨t, hex, ht⟩ := exists_exec hflow hlcid hnew hlen.le
  refine ⟨t, hex, fun f hd => ht.find_eq hlen hd, ?_⟩
  rintro t₁ c t₂ o ⟨es₁, es₂, os, -, -, hst⟩ i hfull
  exact ht_of_step hst hfull

/-- Two flows with the same hash at the end of the array. -/
def wrapping : List (Flow × LogicalCid) :=
  [({ srcAddr := 2047, dstAddr := 0, srcPort := 0, dstPort := 0, dir := none }, 1),
    ({ srcAddr := 0, dstAddr := 2047, srcPort := 0, dstPort := 0, dir := none }, 2)]

theorem finite_map_wrapping :
    ∃ t, (machine TABLE_SIZE).exec {} wrapping = some (t, []) ∧
      t.find_entry { srcAddr := 0, dstAddr := 2047, srcPort := 0, dstPort := 0, dir := none }
        TABLE_SIZE = some 2 := by
  obtain ⟨t, hex, hfind, -⟩ := finite_map false wrapping (by decide) (by decide) (by decide)
    (by decide)
  exact ⟨t, hex, hfind _ rfl⟩

end ConnectionsTable

/-! ### Runs -/

namespace LtePdcpRrc

open LinearProbing

variable {d2d : Bool} {n : ℕ} {s s' : LtePdcpRrc} {f : Flow} {seen : Finset Flow}
  {entries : Flow → Option LogicalCid} {v : LogicalCid}

/-- The flows that have been seen have the LCIDs up to their number. -/
structure Inv (d2d : Bool) (seen : Finset Flow) (entries : Flow → Option LogicalCid)
    (s : LtePdcpRrc) : Prop where
  holds : Holds TABLE_SIZE (s.ht.slots d2d) Flow.hash entries
  seen_iff : ∀ f, f ∈ seen ↔ (entries f).isSome = true
  card_eq : (occupied TABLE_SIZE (s.ht.slots d2d)).card = seen.card
  card_le : seen.card ≤ TABLE_SIZE
  lcid : (s.lcid : ℕ) = seen.card + 1
  le : ∀ f v, entries f = some v → (v : ℕ) ≤ seen.card
  inj : ∀ f g v, entries f = some v → entries g = some v → f = g

theorem inv_initial : Inv d2d ∅ (fun _ => none) {} where
  holds := ⟨fun _ _ h => (nomatch h), fun _ _ _ _ h => nomatch h⟩
  seen_iff _ := by simp
  card_eq := by simp [occupied, ConnectionsTable.slots]
  card_le := Nat.zero_le _
  lcid := rfl
  le _ _ h := nomatch h
  inj _ _ _ h := nomatch h

theorem Inv.ne_noLcid (h : Inv d2d seen entries s) (hv : entries f = some v) : v ≠ NO_LCID := by
  have hle := h.le f v hv
  have hcard := h.card_le
  rintro rfl
  exact absurd (Nat.le_trans hle hcard) (by decide)

/-- What `find_entry` returns is what is stored. -/
theorem Inv.find_eq (h : Inv d2d seen entries s) (hd : f.dir.isSome = d2d)
    (hfind : s.ht.find_entry f n = some v) : v = (entries f).getD NO_LCID := by
  rw [ConnectionsTable.find_entry, ConnectionsTable.scan_eq hd] at hfind
  obtain ⟨r, hr, rfl⟩ := Option.map_eq_some_iff.1 hfind
  rw [find_sound h.holds (ConnectionsTable.hash_lt f) hr]

/-- A new flow gets the number that is next. -/
theorem Inv.create_entry (h : Inv d2d seen entries s) (hd : f.dir.isSome = d2d)
    (he : entries f = none) {t' : ConnectionsTable} (ht' : s.ht.create_entry f n s.lcid = some t') :
    Inv d2d (insert f seen) (Function.update entries f (some s.lcid))
      { ht := t', lcid := s.lcid + 1 } := by
  have hnew : f ∉ seen := fun hmem => by
    have hsome := (h.seen_iff f).1 hmem
    rw [he] at hsome
    cases hsome
  have hcard := h.lcid
  have hle := h.card_le
  have hlcid : s.lcid ≠ NO_LCID := fun heq => by
    rw [heq] at hcard
    have : (NO_LCID : ℕ) = 65535 := rfl
    have : TABLE_SIZE = 2048 := rfl
    omega
  obtain ⟨j, hj, hslots⟩ := ConnectionsTable.create_entry_eq_some hd hlcid ht'
  have hjlt : j < TABLE_SIZE := by
    obtain ⟨d, -, -, -, rfl⟩ := (freeSlot_eq_some_iff (ConnectionsTable.hash_lt f)).1 hj
    exact Nat.mod_lt _ (by decide)
  have hjnone : s.ht.slots d2d j = none := by
    obtain ⟨d, -, -, hnone, rfl⟩ := (freeSlot_eq_some_iff (ConnectionsTable.hash_lt f)).1 hj
    exact hnone
  have hroom : seen.card < TABLE_SIZE := by
    refine Nat.lt_of_le_of_ne hle fun hfull => ?_
    exact ne_none_of_card_eq (h.card_eq.trans hfull) j hjlt hjnone
  have hcard' : (insert f seen).card = seen.card + 1 := Finset.card_insert_of_notMem hnew
  -- the numbers given so far are smaller
  have hfresh : ∀ g, g ≠ f → Function.update entries f (some s.lcid) g ≠ some s.lcid := by
    intro g hgf hg
    rw [Function.update_of_ne hgf] at hg
    have hgle := h.le g _ hg
    omega
  refine ⟨?_, fun g => ?_, ?_, by omega, ?_, fun g w hg => ?_, fun g g' w hg hg' => ?_⟩
  · simp only [hslots]
    exact h.holds.insert (ConnectionsTable.hash_lt f) he hj s.lcid
  · rw [Finset.mem_insert, h.seen_iff, Function.update_apply]
    split <;> simp [*]
  · simp only [hslots]
    rw [card_occupied_insert hjlt hjnone, h.card_eq, hcard']
  · have hsize : TABLE_SIZE = 2048 := rfl
    rw [hcard', Fin.val_add, hcard]
    exact Nat.mod_eq_of_lt (by omega)
  · rw [hcard']
    by_cases hgf : g = f
    · rw [hgf, Function.update_self] at hg
      cases hg
      omega
    · rw [Function.update_of_ne hgf] at hg
      exact Nat.le_succ_of_le (h.le g w hg)
  · by_cases hgf : g = f <;> by_cases hgf' : g' = f
    · rw [hgf, hgf']
    · rw [hgf, Function.update_self] at hg
      exact absurd (hg'.trans hg.symm) (hfresh g' hgf')
    · rw [hgf', Function.update_self] at hg'
      exact absurd (hg.trans hg'.symm) (hfresh g hgf)
    · rw [Function.update_of_ne hgf] at hg
      rw [Function.update_of_ne hgf'] at hg'
      exact h.inj g g' w hg hg'

/-- **A packet** gets the LCID of its flow, and the other flows keep theirs. -/
theorem Inv.identify (h : Inv d2d seen entries s) (hd : f.dir.isSome = d2d) {os : List LogicalCid}
    (hr : s.identify n f = some (s', os)) :
    ∃ entries' v, os = [v] ∧ Inv d2d (insert f seen) entries' s' ∧ entries' f = some v ∧
      ∀ g w, entries g = some w → entries' g = some w := by
  unfold LtePdcpRrc.identify at hr
  split at hr
  · cases hr
  rename_i mylcid hfind
  have hv := h.find_eq hd hfind
  cases he : entries f with
  | some v =>
    rw [he, Option.getD_some] at hv
    subst hv
    rw [if_neg (h.ne_noLcid he)] at hr
    cases hr
    refine ⟨entries, mylcid, rfl, ?_, he, fun _ _ hg => hg⟩
    rwa [Finset.insert_eq_of_mem ((h.seen_iff f).2 (by rw [he]; rfl))]
  | none =>
    rw [he, Option.getD_none] at hv
    rw [if_pos hv] at hr
    obtain ⟨t', ht', heq⟩ := Option.map_eq_some_iff.1 hr
    cases heq
    refine ⟨_, s.lcid, rfl, h.create_entry hd he ht', Function.update_self .., fun g w hg => ?_⟩
    have hgf : g ≠ f := fun heq => by
      rw [heq, he] at hg
      cases hg
    rwa [Function.update_of_ne hgf]

/-- With room for it, or for a flow that has been seen, the loops end. -/
theorem Inv.exists_identify (h : Inv d2d seen entries s) (hd : f.dir.isSome = d2d)
    (hroom : f ∈ seen ∨ seen.card < TABLE_SIZE) : ∃ r, s.identify TABLE_SIZE f = some r := by
  have hempty : f ∉ seen → ∃ j < TABLE_SIZE, s.ht.slots d2d j = none := by
    intro hnew
    apply exists_empty_of_card_lt
    rw [h.card_eq]
    exact hroom.resolve_left hnew
  have hfind : ∃ v, s.ht.find_entry f TABLE_SIZE = some v := by
    rw [ConnectionsTable.find_entry, ConnectionsTable.scan_eq hd]
    by_cases hmem : f ∈ seen
    · obtain ⟨v, hv⟩ := Option.isSome_iff_exists.1 ((h.seen_iff f).1 hmem)
      exact ⟨_, by rw [find_eq_of_mem h.holds (ConnectionsTable.hash_lt f) hv]; rfl⟩
    · have hnone : entries f = none := by
        rw [← Option.not_isSome_iff_eq_none, ← h.seen_iff]
        exact hmem
      exact ⟨_, by
        rw [find_eq_of_empty h.holds (ConnectionsTable.hash_lt f) hnone (hempty hmem)]
        rfl⟩
  obtain ⟨v, hv⟩ := hfind
  have hv' := h.find_eq hd hv
  unfold LtePdcpRrc.identify
  rw [hv]
  dsimp only
  split <;> rename_i hno
  · have hnew : f ∉ seen := fun hmem => by
      obtain ⟨w, hw⟩ := Option.isSome_iff_exists.1 ((h.seen_iff f).1 hmem)
      rw [hw, Option.getD_some] at hv'
      exact h.ne_noLcid hw (hv'.symm.trans hno)
    obtain ⟨j, hj⟩ := exists_freeSlot (ConnectionsTable.hash_lt f) (hempty hnew)
    rw [← ConnectionsTable.emptySlot_eq d2d] at hj
    exact ⟨_, by rw [ConnectionsTable.create_entry, hj]; rfl⟩
  · exact ⟨_, rfl⟩

/-! ### Runs -/

variable {ps : List PdcpControlInfo} {os : List LogicalCid}

/-- The flows of the packets. -/
def flows (d2d : Bool) (ps : List PdcpControlInfo) : Finset Flow :=
  (ps.map (PdcpControlInfo.flow d2d)).toFinset

theorem flows_concat (p : PdcpControlInfo) :
    flows d2d (ps ++ [p]) = insert (p.flow d2d) (flows d2d ps) := by
  ext f
  simp only [flows, List.map_append, List.mem_toFinset, List.mem_append, Finset.mem_insert,
    List.map_cons, List.map_nil, List.mem_singleton]
  exact or_comm

theorem step_eq (p : PdcpControlInfo) :
    (machine d2d n).step s p = s.identify n (p.flow d2d) := by
  cases d2d <;> rfl

theorem isSome_flow_dir (p : PdcpControlInfo) : (p.flow d2d).dir.isSome = d2d := by
  cases d2d <;> rfl

/-- The packets of a run have the LCIDs of their flows. -/
theorem inv_of_exec (hrun : (machine d2d n).exec {} ps = some (s, os)) :
    ∃ entries, Inv d2d (flows d2d ps) entries s ∧
      List.Forall₂ (fun p v => entries (p.flow d2d) = some v) ps os := by
  refine Machine.exec_induction (J := fun ps s os => ∃ entries, Inv d2d (flows d2d ps) entries s ∧
    List.Forall₂ (fun p v => entries (p.flow d2d) = some v) ps os)
    ⟨_, inv_initial, .nil⟩ ?_ hrun
  rintro ps s os p s' o - ⟨entries, hinv, hall⟩ hst
  rw [step_eq] at hst
  obtain ⟨entries', v, rfl, hinv', hv, hkeep⟩ := hinv.identify (isSome_flow_dir p) hst
  refine ⟨entries', flows_concat p ▸ hinv', ?_⟩
  exact List.rel_append (hall.imp fun p v h => hkeep _ v h) (.cons hv .nil)

/-- The loops of a run end if there are no more flows than slots. -/
theorem exists_exec (hcard : (flows d2d ps).card ≤ TABLE_SIZE) :
    ∃ r, (machine d2d TABLE_SIZE).exec {} ps = some r := by
  induction ps using List.reverseRecOn with
  | nil => exact ⟨_, rfl⟩
  | append_singleton ps p ih =>
    rw [flows_concat] at hcard
    obtain ⟨⟨s, os⟩, hex⟩ :=
      ih (Nat.le_trans (Finset.card_le_card (Finset.subset_insert _ _)) hcard)
    obtain ⟨entries, hinv, -⟩ := inv_of_exec hex
    have hroom : p.flow d2d ∈ flows d2d ps ∨ (flows d2d ps).card < TABLE_SIZE := by
      by_cases hmem : p.flow d2d ∈ flows d2d ps
      · exact .inl hmem
      · rw [Finset.card_insert_of_notMem hmem] at hcard
        exact .inr hcard
    obtain ⟨⟨s', o⟩, hst⟩ := hinv.exists_identify (isSome_flow_dir p) hroom
    exact ⟨_, Machine.exec_concat_eq_some.2 ⟨s, os, o, hex, by rw [step_eq, hst], rfl⟩⟩

/-- **All packets are identified** iff there are no more flows than slots. -/
theorem identified_iff (d2d : Bool) (ps : List PdcpControlInfo) :
    Identified d2d ps ↔ (flows d2d ps).card ≤ TABLE_SIZE := by
  constructor
  · rintro ⟨n, s, os, hex, -⟩
    obtain ⟨entries, hinv, -⟩ := inv_of_exec hex
    exact hinv.card_le
  · intro hcard
    obtain ⟨⟨s, os⟩, hex⟩ := exists_exec hcard
    obtain ⟨entries, hinv, hall⟩ := inv_of_exec hex
    refine ⟨TABLE_SIZE, s, os, hex, hall.length_eq.symm, fun i j hi hj => ?_⟩
    have hlen := hall.length_eq
    have hget : ∀ {k : ℕ} (hk : k < ps.length), entries (ps[k].flow d2d) = some os[k] :=
      fun hk => hall.get hk (by omega)
    rw [List.getElem?_eq_getElem (by omega), List.getElem?_eq_getElem (by omega),
      List.getElem?_eq_getElem hi, List.getElem?_eq_getElem hj, Option.map_some, Option.map_some,
      Option.some.injEq, Option.some.injEq]
    constructor
    · intro heq
      exact hinv.inj _ _ _ (hget hi) (heq ▸ hget hj)
    · intro heq
      exact Option.some.inj ((hget hi).symm.trans (heq ▸ hget hj))

/-- Packets of `n` flows to a server, from different ports. -/
def toServer (n : ℕ) : List PdcpControlInfo :=
  (List.range n).map fun i =>
    { srcAddr := 0x0A000001, dstAddr := 0xC0A80001, srcPort := UInt16.ofNat i, dstPort := 80
      sequenceNumber := 0, headerSize := 8, destId := 1, direction := 0 }

theorem card_flows_toServer {n : ℕ} (hn : n ≤ 65536) : (flows false (toServer n)).card = n := by
  have hnodup : ((toServer n).map (PdcpControlInfo.flow false)).Nodup := by
    rw [toServer, List.map_map]
    refine List.Nodup.map_on ?_ List.nodup_range
    intro i hi j hj heq
    have hport : UInt16.ofNat i = UInt16.ofNat j := congrArg Flow.srcPort heq
    have hi' := List.mem_range.1 hi
    have hj' := List.mem_range.1 hj
    have hnat := congrArg UInt16.toNat hport
    have hsize : UInt16.size = 65536 := rfl
    rwa [UInt16.toNat_ofNat_of_lt' (by omega), UInt16.toNat_ofNat_of_lt' (by omega)] at hnat
  rw [flows, List.toFinset_card_of_nodup hnodup]
  simp [toServer]

/-- **The 2049th flow** is looked for without end. -/
theorem not_identified_toServer : ¬Identified false (toServer 2049) := by
  rintro ⟨n, s, os, hex, -⟩
  obtain ⟨entries, hinv, -⟩ := inv_of_exec hex
  have hle := hinv.card_le
  rw [card_flows_toServer (by decide)] at hle
  exact absurd hle (by decide)

end LtePdcpRrc

end V2nLte
