import V2nLte.Epc.FilterTable
import V2nLte.Machine.Pool
import V2nLte.Machine.Walk
import Mathlib.Algebra.Order.Group.Multiset

/-!
# Label switching

In the full core network each `GtpUser` has two tables.  The one for flows gives a datagram from the
traffic filter its first label and the address to send it to; the one for labels says of a datagram
that comes out of a tunnel which label it gets next and where it goes, or that its tunnel ends here.
The tables are read from files, one for each node, and nothing makes them fit together: a label may
be unknown at the next node, and a path may come back to where it was.

* `datagrams_follow_paths` : whatever is on its way at the same time, each datagram ends where the
  path of its flow ends, which can be told from the tables alone; one whose path does not end stays
  in the core network.
* `tunnels_bounded` : if the paths end, a datagram passes no more tunnels than there are labels in
  the tables of all nodes, and one.

The core network delivers what is sent through a tunnel, in any order.
-/

namespace V2nLte

/-- `LOCAL_ADDRESS_TEID`. -/
def LOCAL_ADDRESS_TEID : ℤ := -1

/-- `ConnectionInfo`. -/
structure LabelTable.ConnectionInfo (A : Type) where
  /-- The label of the next tunnel. -/
  teid : ℤ
  /-- The address at its other end. -/
  nextHop : A
  deriving DecidableEq

/-- `LabelTable`. -/
abbrev LabelTable (A : Type) := List (ℤ × LabelTable.ConnectionInfo A)

/-- An element of a file, with its attributes. -/
structure XmlElement where
  /-- The name of the element. -/
  tagName : String
  /-- Its attributes. -/
  getAttribute : String → Option (List Char)

/-- Where a datagram ends. -/
inductive PathEnd (A : Type) where
  /-- It leaves through the gate `pppGate` of the node. -/
  | pppGate (node : A)
  /-- The node has no entry for it. -/
  | discarded (node : A)
  /-- There is no node with that address. -/
  | lost (address : A)
  deriving DecidableEq

/-- What a `GtpUser` does with a datagram. -/
inductive GtpOut (A : Type) where
  | pppGate
  | discarded
  | sendTo (teid : ℤ) (tunnelPeerAddress : A)
  deriving DecidableEq

variable {A D : Type}

namespace LabelTable

/-- `find`. -/
def find (t : LabelTable A) (id : ℤ) : Option (LabelTable.ConnectionInfo A) := t.lookup id

/-- `insert`, which leaves an entry alone that is there. -/
def insert (t : LabelTable A) (id : ℤ) (info : LabelTable.ConnectionInfo A) : LabelTable A :=
  if (t.find id).isSome then t else t ++ [(id, info)]

end LabelTable

/-- `GtpUser`. -/
structure GtpUser (A : Type) where
  /-- The tunnels that go on here, by their labels. -/
  teidTable : LabelTable A := []
  /-- The tunnels that begin here, by the flows. -/
  tftTable : LabelTable A := []

namespace GtpUser

/-- The entry that an element stands for, if it has all its attributes. -/
def readEntry (ipv4Address : List Char → Option A) (idName : String) (e : XmlElement) :
    Option (ℤ × LabelTable.ConnectionInfo A) := do
  let id ← e.getAttribute idName
  let teidOut ← e.getAttribute "teidOut"
  let nextHop ← e.getAttribute "nextHop"
  return (atoi id, ⟨atoi teidOut, ← ipv4Address nextHop⟩)

/-- The loop of the two functions that read a table; `none` if an attribute is missing or is no
address. -/
def loadTable (ipv4Address : List Char → Option A) (tagName idName : String) :
    LabelTable A → List XmlElement → Option (LabelTable A)
  | t, [] => some t
  | t, e :: es =>
    if e.tagName = tagName then
      match readEntry ipv4Address idName e with
      | none => none
      | some (id, info) => loadTable ipv4Address tagName idName (t.insert id info) es
    else loadTable ipv4Address tagName idName t es

/-- `loadTeidTable`. -/
def loadTeidTable (ipv4Address : List Char → Option A) (es : List XmlElement) :
    Option (LabelTable A) := loadTable ipv4Address "teid" "teidIn" [] es

/-- `loadTftTable`. -/
def loadTftTable (ipv4Address : List Char → Option A) (es : List XmlElement) :
    Option (LabelTable A) := loadTable ipv4Address "tft" "tftId" [] es

/-- `handleFromTrafficFlowFilter`. -/
def handleFromTrafficFlowFilter (u : GtpUser A) (flowId : ℤ) : GtpOut A :=
  match u.tftTable.find flowId with
  | none => .discarded
  | some info => .sendTo info.teid info.nextHop

/-- `handleFromUdp`. -/
def handleFromUdp (u : GtpUser A) (oldTeid : ℤ) : GtpOut A :=
  match u.teidTable.find oldTeid with
  | none => .discarded
  | some teidInfo =>
    if teidInfo.teid = LOCAL_ADDRESS_TEID then .pppGate
    else .sendTo teidInfo.teid teidInfo.nextHop

/-! ### Reading a table -/

variable {t t' : LabelTable A} {ipv4Address : List Char → Option A} {tagName idName : String}
  {k : ℤ}

@[simp] theorem find_cons (id : ℤ) (info : LabelTable.ConnectionInfo A) (k : ℤ) :
    LabelTable.find ((id, info) :: t) k = if k = id then some info else t.find k := by
  by_cases hk : k = id
  · simp [LabelTable.find, hk]
  · have hne : (k == id) = false := by simpa using hk
    simp [LabelTable.find, List.lookup_cons, hk, hne]

@[simp] theorem find_nil : LabelTable.find ([] : LabelTable A) k = none := rfl

theorem find_append : LabelTable.find (t ++ t') k = (t.find k).or (t'.find k) :=
  List.lookup_append

theorem mem_of_find {id : ℤ} {info : LabelTable.ConnectionInfo A}
    (h : t.find id = some info) : (id, info) ∈ t := by
  induction t with
  | nil => cases h
  | cons row t ih =>
    obtain ⟨id', info'⟩ := row
    rw [find_cons] at h
    split at h
    · rename_i hk
      rw [hk, Option.some.inj h]
      exact List.mem_cons_self
    · exact List.mem_cons_of_mem _ (ih h)

theorem find_insert (id : ℤ) (info : LabelTable.ConnectionInfo A) (k : ℤ) :
    (t.insert id info).find k = ((t.find k).or (if k = id then some info else none)) := by
  unfold LabelTable.insert
  by_cases hk : k = id
  · subst hk
    split
    · rename_i hsome
      obtain ⟨info', hinfo⟩ := Option.isSome_iff_exists.1 hsome
      simp [hinfo]
    · rename_i hnone
      have hfind : t.find k = none := by simpa using hnone
      simp [find_append, hfind]
  · split
    · simp
    · rw [find_append, find_cons, find_nil, if_neg hk]

/-- The entries of a file that has been read, in its order. -/
def entries (ipv4Address : List Char → Option A) (tagName idName : String)
    (es : List XmlElement) : LabelTable A :=
  es.filterMap fun e => if e.tagName = tagName then readEntry ipv4Address idName e else none

/-- **Of several entries for one label the first counts.** -/
theorem find_loadTable {es : List XmlElement}
    (h : loadTable ipv4Address tagName idName t es = some t') (k : ℤ) :
    t'.find k = (t.find k).or ((entries ipv4Address tagName idName es).find k) := by
  induction es generalizing t with
  | nil =>
    obtain rfl := Option.some.inj h
    simp [entries, LabelTable.find]
  | cons e es ih =>
    simp only [loadTable] at h
    split at h
    · rename_i htag
      split at h
      · cases h
      · rename_i id info hread
        have hcons : entries ipv4Address tagName idName (e :: es) =
            (id, info) :: entries ipv4Address tagName idName es := by
          simp [entries, htag, hread]
        rw [ih h, find_insert, hcons, Option.or_assoc]
        congr 1
        rw [find_cons]
        split <;> simp
    · rename_i htag
      have hcons : entries ipv4Address tagName idName (e :: es) =
          entries ipv4Address tagName idName es := by simp [entries, htag]
      rw [ih h, hcons]

end GtpUser

/-- A datagram in a tunnel. -/
structure GtpUserMsg (A D : Type) where
  /-- The end of the tunnel. -/
  tunnelPeerAddress : A
  /-- Its label. -/
  teid : ℤ
  /-- The datagram. -/
  pkt : D

/-- What can be seen. -/
inductive LabelOutput (A D : Type) where
  /-- A datagram is put into a tunnel. -/
  | tunnel (pkt : D)
  /-- A datagram has come to an end. -/
  | ended (pkt : D) (o : PathEnd A)
  deriving DecidableEq

/-- What can happen. -/
inductive LabelEvent (A D : Type) where
  /-- A datagram comes from the traffic filter of a node. -/
  | fromTrafficFlowFilter (node : A) (flowId : ℤ) (pkt : D)
  /-- The datagram at this position comes out of its tunnel. -/
  | fromUdp (i : ℕ)

namespace LabelSwitching

variable [DecidableEq A] (nodes : List (A × GtpUser A))

/-- What a node does with a datagram. -/
def perform (inFlight : List (GtpUserMsg A D)) (node : A) (pkt : D) :
    GtpOut A → List (GtpUserMsg A D) × List (LabelOutput A D)
  | .pppGate => (inFlight, [.ended pkt (.pppGate node)])
  | .discarded => (inFlight, [.ended pkt (.discarded node)])
  | .sendTo teid peer => (inFlight ++ [⟨peer, teid, pkt⟩], [.tunnel pkt])

/-- The core network, with the datagrams in the tunnels as its state. -/
def machine : Machine (List (GtpUserMsg A D)) (LabelEvent A D) (LabelOutput A D) where
  step s
    | .fromTrafficFlowFilter node flowId pkt =>
      (nodes.lookup node).map fun u => perform s node pkt (u.handleFromTrafficFlowFilter flowId)
    | .fromUdp i =>
      match s[i]? with
      | none => none
      | some m =>
        match nodes.lookup m.tunnelPeerAddress with
        | none => some (s.eraseIdx i, [.ended m.pkt (.lost m.tunnelPeerAddress)])
        | some u =>
          some (perform (s.eraseIdx i) m.tunnelPeerAddress m.pkt (u.handleFromUdp m.teid))

/-! ### Paths -/

/-- What becomes of a label at a node. -/
def next (p : A × ℤ) : PathEnd A ⊕ (A × ℤ) :=
  match nodes.lookup p.1 with
  | none => .inl (.lost p.1)
  | some u =>
    match u.handleFromUdp p.2 with
    | .pppGate => .inl (.pppGate p.1)
    | .discarded => .inl (.discarded p.1)
    | .sendTo teid peer => .inr (peer, teid)

/-- The labels in the tables of the nodes. -/
def labels : List (A × ℤ) :=
  nodes.flatMap fun n => n.2.teidTable.map fun row => (n.1, row.1)

/-- The path of a label from a node on: the tunnels it passes, and where it ends. -/
def path (p : A × ℤ) : Option (ℕ × PathEnd A) :=
  Walk.walk (next nodes) ((labels nodes).toFinset.card + 1) p

/-- The path of a flow from a node on. -/
def pathOf (node : A) (flowId : ℤ) : Option (ℕ × PathEnd A) :=
  match nodes.lookup node with
  | none => some (0, .lost node)
  | some u =>
    match u.handleFromTrafficFlowFilter flowId with
    | .sendTo teid peer => (path nodes (peer, teid)).map fun r => (r.1 + 1, r.2)
    | _ => some (0, .discarded node)

variable {nodes} {p p' : A × ℤ} {o : PathEnd A} {n : ℕ}

theorem mem_of_lookup {node : A} {u : GtpUser A} (h : nodes.lookup node = some u) :
    (node, u) ∈ nodes := by
  induction nodes with
  | nil => cases h
  | cons x nodes ih =>
    rw [List.lookup_cons] at h
    split at h
    · rename_i hx
      obtain rfl := eq_of_beq hx
      obtain rfl := Option.some.inj h
      exact List.mem_cons_self
    · exact List.mem_cons_of_mem _ (ih h)

/-- A label that is switched is in a table. -/
theorem mem_labels (h : next nodes p = .inr p') : p ∈ (labels nodes).toFinset := by
  simp only [next] at h
  split at h
  · cases h
  · rename_i u hu
    split at h
    · cases h
    · cases h
    · rename_i teid peer hout
      simp only [GtpUser.handleFromUdp] at hout
      split at hout
      · cases hout
      · rename_i info hinfo
        rw [List.mem_toFinset, labels, List.mem_flatMap]
        have hrow := GtpUser.mem_of_find hinfo
        exact ⟨(p.1, u), mem_of_lookup hu, List.mem_map.2 ⟨(p.2, info), hrow, rfl⟩⟩

theorem path_eq_some : path nodes p = some (n, o) ↔ Walk.Ends (next nodes) p n o :=
  Walk.walk_complete fun _ _ => mem_labels

/-- A path that is over. -/
theorem path_of_inl (h : next nodes p = .inl o) : path nodes p = some (0, o) :=
  path_eq_some.2 (.done h)

/-- A path that goes on. -/
theorem path_of_inr (h : next nodes p = .inr p') :
    path nodes p = (path nodes p').map fun r => (r.1 + 1, r.2) := by
  cases hp' : path nodes p' with
  | none =>
    rw [Option.map_none, Option.eq_none_iff_forall_ne_some]
    rintro ⟨n, o⟩ hp
    have hends := path_eq_some.1 hp
    cases hends with
    | done hb => simp [h] at hb
    | move ha h' =>
      obtain rfl := Sum.inr.inj (h.symm.trans ha)
      rw [path_eq_some.2 h'] at hp'
      cases hp'
  | some r => exact path_eq_some.2 (.move h (path_eq_some.1 hp'))

/-- A path that ends has at most as many tunnels as there are labels. -/
theorem path_le (h : path nodes p = some (n, o)) : n ≤ (labels nodes).length :=
  ((path_eq_some.1 h).le_card fun _ _ => mem_labels).trans (List.toFinset_card_le _)

/-! ### Runs -/

/-- The datagrams that have come in, with the node and the flow. -/
def entered (es : List (LabelEvent A D)) : List (A × ℤ × D) :=
  es.filterMap fun
    | .fromTrafficFlowFilter node flowId pkt => some (node, flowId, pkt)
    | .fromUdp _ => none

/-- The datagrams that have come to an end. -/
def ended (os : List (LabelOutput A D)) : List (D × PathEnd A) :=
  os.filterMap fun
    | .ended pkt o => some (pkt, o)
    | .tunnel _ => none

/-- The tunnels that a datagram has passed. -/
def hops [DecidableEq D] (pkt : D) (os : List (LabelOutput A D)) : ℕ :=
  os.countP fun
    | .tunnel pkt' => pkt' = pkt
    | .ended .. => false

variable (nodes)

/-- Where a datagram in a tunnel will end. -/
def fate (m : GtpUserMsg A D) : D × Option (PathEnd A) :=
  (m.pkt, (path nodes (m.tunnelPeerAddress, m.teid)).map Prod.snd)

/-- Where a datagram that comes in will end. -/
def fateOf (x : A × ℤ × D) : D × Option (PathEnd A) :=
  (x.2.2, (pathOf nodes x.1 x.2.1).map Prod.snd)

variable {nodes} {s s' : List (GtpUserMsg A D)} {e : LabelEvent A D} {es : List (LabelEvent A D)}
  {os o' : List (LabelOutput A D)} {m : GtpUserMsg A D}

/-- What a step does: a datagram comes in and goes into a tunnel or ends, or one comes out of a
tunnel and goes into the next or ends. -/
theorem step_cases (h : (machine nodes).step s e = some (s', o')) :
    (∃ node flowId pkt, e = .fromTrafficFlowFilter node flowId pkt ∧
      ((pathOf nodes node flowId = some (0, .discarded node) ∧ s' = s ∧
          o' = [.ended pkt (.discarded node)]) ∨
        ∃ teid peer, pathOf nodes node flowId =
            (path nodes (peer, teid)).map (fun r => (r.1 + 1, r.2)) ∧
          s' = s ++ [⟨peer, teid, pkt⟩] ∧ o' = [.tunnel pkt])) ∨
    ∃ i m, e = .fromUdp i ∧ s[i]? = some m ∧
      ((∃ o, path nodes (m.tunnelPeerAddress, m.teid) = some (0, o) ∧ s' = s.eraseIdx i ∧
          o' = [.ended m.pkt o]) ∨
        ∃ teid peer, path nodes (m.tunnelPeerAddress, m.teid) =
            (path nodes (peer, teid)).map (fun r => (r.1 + 1, r.2)) ∧
          s' = s.eraseIdx i ++ [⟨peer, teid, m.pkt⟩] ∧ o' = [.tunnel m.pkt]) := by
  cases e with
  | fromTrafficFlowFilter node flowId pkt =>
    refine .inl ⟨node, flowId, pkt, rfl, ?_⟩
    obtain ⟨u, hu, hperform⟩ := Option.map_eq_some_iff.1 h
    cases hfind : u.tftTable.find flowId with
    | none =>
      -- no tunnel for the flow: the datagram is discarded
      simp only [GtpUser.handleFromTrafficFlowFilter, hfind, perform] at hperform
      obtain ⟨rfl, rfl⟩ := Prod.mk.inj hperform
      exact .inl ⟨by simp [pathOf, hu, GtpUser.handleFromTrafficFlowFilter, hfind], rfl, rfl⟩
    | some info =>
      simp only [GtpUser.handleFromTrafficFlowFilter, hfind, perform] at hperform
      obtain ⟨rfl, rfl⟩ := Prod.mk.inj hperform
      refine .inr ⟨info.teid, info.nextHop, ?_, rfl, rfl⟩
      simp [pathOf, hu, GtpUser.handleFromTrafficFlowFilter, hfind]
  | fromUdp i =>
    simp only [machine] at h
    split at h
    · cases h
    · rename_i m hi
      refine .inr ⟨i, m, rfl, hi, ?_⟩
      -- the label decides where the message goes on
      split at h
      · rename_i hlookup
        obtain ⟨rfl, rfl⟩ := Prod.mk.inj (Option.some.inj h)
        exact .inl ⟨_, path_of_inl (by simp [next, hlookup]), rfl, rfl⟩
      · rename_i u hlookup
        cases hout : u.handleFromUdp m.teid with
        | pppGate =>
          rw [hout] at h
          obtain ⟨rfl, rfl⟩ := Prod.mk.inj (Option.some.inj h)
          exact .inl ⟨_, path_of_inl (by simp [next, hlookup, hout]), rfl, rfl⟩
        | discarded =>
          rw [hout] at h
          obtain ⟨rfl, rfl⟩ := Prod.mk.inj (Option.some.inj h)
          exact .inl ⟨_, path_of_inl (by simp [next, hlookup, hout]), rfl, rfl⟩
        | sendTo teid peer =>
          rw [hout] at h
          obtain ⟨rfl, rfl⟩ := Prod.mk.inj (Option.some.inj h)
          exact .inr ⟨teid, peer, path_of_inr (by simp [next, hlookup, hout]), rfl, rfl⟩

/-- A step changes nothing about where the datagrams will end or have ended. -/
theorem fates_step (h : (machine nodes).step s e = some (s', o')) :
    (s.map (fate nodes) : Multiset (D × Option (PathEnd A))) + (entered [e]).map (fateOf nodes) =
      s'.map (fate nodes) + (ended o').map fun x => (x.1, some x.2) := by
  rcases step_cases h with ⟨node, flowId, pkt, rfl, ⟨hpath, rfl, rfl⟩ |
      ⟨teid, peer, hpath, rfl, rfl⟩⟩ | ⟨i, m, rfl, hi,
    ⟨o, hpath, rfl, rfl⟩ | ⟨teid, peer, hpath, rfl, rfl⟩⟩
  · simp [entered, ended, fateOf, hpath]
  · have hfate : fateOf nodes (node, flowId, pkt) = fate nodes ⟨peer, teid, pkt⟩ := by
      simp only [fateOf, fate, hpath, Option.map_map]
      rfl
    simp [entered, ended, hfate, ← Multiset.coe_add]
  · have hcoe := coe_map_of_getElem? (fate nodes) hi
    have hfate : fate nodes m = (m.pkt, some o) := by simp [fate, hpath]
    rw [hcoe, hfate]
    simp [entered, ended]
  · have hcoe := coe_map_of_getElem? (fate nodes) hi
    have hfate : fate nodes m = fate nodes ⟨peer, teid, m.pkt⟩ := by
      simp only [fate, hpath, Option.map_map]
      rfl
    rw [hcoe, hfate]
    simp [entered, ended, ← Multiset.coe_add]

/-- **Each datagram ends where the path of its flow ends**: those that have come in are those in the
tunnels and those that have come to an end, each with the end that its path has. -/
theorem datagrams_follow_paths (h : (machine nodes).exec [] es = some (s, os)) :
    ((entered es).map (fateOf nodes) : Multiset (D × Option (PathEnd A))) =
      s.map (fate nodes) + (ended os).map fun x => (x.1, some x.2) := by
  refine Machine.exec_induction
    (J := fun es s (os : List (LabelOutput A D)) =>
      ((entered es).map (fateOf nodes) : Multiset (D × Option (PathEnd A))) =
        s.map (fate nodes) + (ended os).map fun x => (x.1, some x.2)) rfl ?_ h
  intro es s₁ os e s' o _ ih hst
  have hentered : entered (es ++ [e]) = entered es ++ entered [e] := List.filterMap_append
  have hended : ended (os ++ o) = ended os ++ ended o := List.filterMap_append
  rw [hentered, hended, List.map_append, List.map_append, ← Multiset.coe_add, ← Multiset.coe_add,
    ih, add_right_comm, fates_step hst, add_right_comm, add_assoc]

/-- A path from the node 1 over the node 2 to the node 3, and one that goes round at the node 2. -/
def threeNodes : List (ℕ × GtpUser ℕ) :=
  [(1, { tftTable := [(0, ⟨1, 2⟩), (9, ⟨5, 2⟩)] }),
    (2, { teidTable := [(1, ⟨2, 3⟩), (5, ⟨5, 2⟩)] }),
    (3, { teidTable := [(2, ⟨LOCAL_ADDRESS_TEID, 3⟩)] })]

/-- The datagram 42 on the one path and the datagram 7 on the other. -/
def twoDatagrams : List (LabelEvent ℕ ℕ) :=
  [.fromTrafficFlowFilter 1 0 42, .fromTrafficFlowFilter 1 9 7, .fromUdp 0, .fromUdp 0, .fromUdp 0]

theorem datagrams_follow_paths_threeNodes :
    ∃ s os, (machine threeNodes).exec [] twoDatagrams = some (s, os) ∧
      ([(42, some (PathEnd.pppGate 3)), (7, none)] : Multiset (ℕ × Option (PathEnd ℕ))) =
        s.map (fate threeNodes) + (ended os).map fun x => (x.1, some x.2) := by
  have hsome : ((machine threeNodes).exec [] twoDatagrams).isSome := by decide +kernel
  obtain ⟨⟨s, os⟩, hrun⟩ := Option.isSome_iff_exists.1 hsome
  have hfates : (entered twoDatagrams).map (fateOf threeNodes) =
      [(42, some (PathEnd.pppGate 3)), (7, none)] := by decide +kernel
  exact ⟨s, os, hrun, by rw [← datagrams_follow_paths hrun, hfates]⟩

/-- The tunnels that a datagram in a tunnel will still pass. -/
def remaining [DecidableEq D] (nodes : List (A × GtpUser A)) (pkt : D) (m : GtpUserMsg A D) : ℕ :=
  if m.pkt = pkt then ((path nodes (m.tunnelPeerAddress, m.teid)).map Prod.fst).getD 0 else 0

/-- The tunnels that a datagram that comes in will pass. -/
def remainingOf [DecidableEq D] (nodes : List (A × GtpUser A)) (pkt : D) (x : A × ℤ × D) : ℕ :=
  if x.2.2 = pkt then ((pathOf nodes x.1 x.2.1).map Prod.fst).getD 0 else 0

theorem remainingOf_le [DecidableEq D] (nodes : List (A × GtpUser A)) (pkt : D)
    (x : A × ℤ × D) :
    remainingOf nodes pkt x ≤ if x.2.2 = pkt then (labels nodes).length + 1 else 0 := by
  unfold remainingOf
  split
  · cases hpath : pathOf nodes x.1 x.2.1 with
    | none => simp
    | some r =>
      obtain ⟨n, o⟩ := r
      simp only [pathOf] at hpath
      split at hpath
      · obtain ⟨rfl, -⟩ := Prod.mk.inj (Option.some.inj hpath)
        exact Nat.zero_le _
      · split at hpath
        · obtain ⟨⟨k, o'⟩, hk, heq⟩ := Option.map_eq_some_iff.1 hpath
          obtain ⟨rfl, -⟩ := Prod.mk.inj heq
          exact Nat.succ_le_succ (path_le hk)
        · obtain ⟨rfl, -⟩ := Prod.mk.inj (Option.some.inj hpath)
          exact Nat.zero_le _
  · exact le_rfl

/-- A datagram that passes a tunnel has one less to pass. -/
theorem hops_step [DecidableEq D] (pkt : D) (h : (machine nodes).step s e = some (s', o'))
    (hs : ∀ m ∈ s, m.pkt = pkt → (fate nodes m).2 ≠ none)
    (he : ∀ x ∈ entered [e], x.2.2 = pkt → (fateOf nodes x).2 ≠ none) :
    (∀ m ∈ s', m.pkt = pkt → (fate nodes m).2 ≠ none) ∧
      hops pkt o' + (s'.map (remaining nodes pkt)).sum =
        ((entered [e]).map (remainingOf nodes pkt)).sum + (s.map (remaining nodes pkt)).sum := by
  rcases step_cases h with ⟨node, flowId, pkt', rfl, ⟨hpath, rfl, rfl⟩ |
      ⟨teid, peer, hpath, rfl, rfl⟩⟩ | ⟨i, m, rfl, hi,
    ⟨o, hpath, rfl, rfl⟩ | ⟨teid, peer, hpath, rfl, rfl⟩⟩
  · -- the datagram does not enter a tunnel
    refine ⟨hs, ?_⟩
    simp [hops, entered, remainingOf, hpath]
  · -- the path of a datagram that enters is one hop longer than the rest of it
    by_cases hpkt : pkt' = pkt
    · subst hpkt
      obtain ⟨r, hr⟩ : ∃ r, path nodes (peer, teid) = some r := by
        have := he (node, flowId, pkt') (by simp [entered]) rfl
        simpa [fateOf, hpath, Option.ne_none_iff_exists'] using this
      refine ⟨fun m hm hmp => ?_, ?_⟩
      · rcases List.mem_append.1 hm with hm | hm
        · exact hs m hm hmp
        · obtain rfl := List.mem_singleton.1 hm
          simp [fate, hr]
      · simp [hops, entered, remainingOf, remaining, hpath, hr]
        omega
    · refine ⟨fun m hm hmp => ?_, ?_⟩
      · rcases List.mem_append.1 hm with hm | hm
        · exact hs m hm hmp
        · obtain rfl := List.mem_singleton.1 hm
          exact absurd hmp hpkt
      · simp [hops, entered, remainingOf, remaining, hpkt]
  · -- the message leaves the tunnels, at the end of its path
    refine ⟨fun m' hm' => hs m' (List.mem_of_mem_eraseIdx hm'), ?_⟩
    have hsum := sum_map_of_getElem? (remaining nodes pkt) hi
    simp [hops, entered, hsum, remaining, hpath]
  · -- the message changes its label, one hop nearer to the end of its path
    have hsum := sum_map_of_getElem? (remaining nodes pkt) hi
    by_cases hpkt : m.pkt = pkt
    · obtain ⟨r, hr⟩ : ∃ r, path nodes (peer, teid) = some r := by
        have := hs m (List.mem_of_getElem? hi) hpkt
        simpa [fate, hpath, Option.ne_none_iff_exists'] using this
      refine ⟨fun m' hm' hmp => ?_, ?_⟩
      · rcases List.mem_append.1 hm' with hm' | hm'
        · exact hs m' (List.mem_of_mem_eraseIdx hm') hmp
        · obtain rfl := List.mem_singleton.1 hm'
          simp [fate, hr]
      · simp [hops, entered, hsum, remaining, hpkt, hpath, hr]
        omega
    · refine ⟨fun m' hm' hmp => ?_, ?_⟩
      · rcases List.mem_append.1 hm' with hm' | hm'
        · exact hs m' (List.mem_of_mem_eraseIdx hm') hmp
        · obtain rfl := List.mem_singleton.1 hm'
          exact absurd hmp hpkt
      · simp [hops, entered, hsum, remaining, hpkt]

/-- **If its path ends, a datagram passes no more tunnels than there are labels in the tables, and
one**, each time that it comes in; what becomes of other datagrams does not matter. -/
theorem tunnels_bounded [DecidableEq D] (h : (machine nodes).exec [] es = some (s, os)) (pkt : D)
    (hends : ∀ x ∈ entered es, x.2.2 = pkt → pathOf nodes x.1 x.2.1 ≠ none) :
    hops pkt os ≤ ((labels nodes).length + 1) * (entered es).countP fun x => x.2.2 = pkt := by
  have hrun : (∀ x ∈ entered es, x.2.2 = pkt → (fateOf nodes x).2 ≠ none) →
      (∀ m ∈ s, m.pkt = pkt → (fate nodes m).2 ≠ none) ∧
      hops pkt os + (s.map (remaining nodes pkt)).sum =
        ((entered es).map (remainingOf nodes pkt)).sum := by
    refine Machine.exec_induction (J := fun es s os =>
      (∀ x ∈ entered es, x.2.2 = pkt → (fateOf nodes x).2 ≠ none) →
      (∀ m ∈ s, m.pkt = pkt → (fate nodes m).2 ≠ none) ∧
      hops pkt os + (s.map (remaining nodes pkt)).sum =
        ((entered es).map (remainingOf nodes pkt)).sum) (fun _ => ⟨by simp, rfl⟩) ?_ h
    intro es s₁ os e s' o _ ih hst hends
    have hentered : entered (es ++ [e]) = entered es ++ entered [e] := List.filterMap_append
    have hhops : hops pkt (os ++ o) = hops pkt os + hops pkt o := List.countP_append
    rw [hentered] at hends
    obtain ⟨hs, hsum⟩ := ih fun x hx => hends x (List.mem_append_left _ hx)
    obtain ⟨hs', hstep⟩ := hops_step pkt hst hs fun x hx => hends x (List.mem_append_right _ hx)
    refine ⟨hs', ?_⟩
    rw [hentered, hhops, List.map_append, List.sum_append]
    omega
  obtain ⟨-, hsum⟩ := hrun fun x hx hpkt => by simpa [fateOf] using hends x hx hpkt
  have hle : ((entered es).map (remainingOf nodes pkt)).sum ≤
      ((labels nodes).length + 1) * (entered es).countP fun x => x.2.2 = pkt := by
    generalize entered es = l
    induction l with
    | nil => simp
    | cons x l ih =>
      have hx := remainingOf_le nodes pkt x
      rw [List.map_cons, List.sum_cons, List.countP_cons]
      split at hx <;> rename_i hpkt <;> simp only [hpkt, decide_true, decide_false, if_true] <;>
        simp only [Nat.mul_add, Bool.false_eq_true, if_false] <;> omega
  omega

theorem tunnels_bounded_threeNodes :
    ∃ s os, (machine threeNodes).exec [] twoDatagrams = some (s, os) ∧ hops 42 os = 2 ∧
      hops 42 os ≤ (labels threeNodes).length + 1 := by
  have hsome : ((machine threeNodes).exec [] twoDatagrams).isSome := by decide +kernel
  obtain ⟨⟨s, os⟩, hrun⟩ := Option.isSome_iff_exists.1 hsome
  obtain ⟨-, hos⟩ := Prod.mk.inj (Option.some.inj hrun)
  have hhops : hops 42 os = 2 := by
    rw [← hos]
    decide +kernel
  have hle := tunnels_bounded hrun 42 (by decide +kernel)
  rw [show (entered twoDatagrams).countP (fun x => x.2.2 = 42) = 1 by decide +kernel,
    Nat.mul_one] at hle
  exact ⟨s, os, hrun, hhops, hle⟩

end LabelSwitching

end V2nLte
