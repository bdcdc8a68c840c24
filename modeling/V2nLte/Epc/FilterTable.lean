import V2nLte.Epc.TrafficFlowFilter
import V2nLte.Machine.Collections
import V2nLte.Machine.Ensures
import V2nLte.Machine.Word

/-!
# Loading the filter table

`loadFilterTable` reads the traffic filters from XML, one element after the other, and gives each to
`addTrafficFlow`.  The addresses and ports are read into variables outside the loop, which keep
what an earlier element has put there when an attribute is missing.  Besides, the ports are given to
the constructor of `TrafficFlowTemplate` the wrong way round.

* `loadFilterTable_iff` : when every filter means what its own element says.
-/

namespace V2nLte

/-- `EpcNodeType`, as far as `selectOwnerType` knows it. -/
inductive EpcNodeType where
  | ENB
  | PGW
  deriving DecidableEq

/-- The attributes of a `filter` element, those that are there. -/
structure FilterElement where
  /-- The address of the destination. -/
  destAddr : Option (List Char) := none
  /-- The identifier of the flow. -/
  tftId : Option (List Char) := none
  /-- The name of the destination, in place of its address. -/
  destName : Option (List Char) := none
  /-- The address of the source. -/
  srcAddr : Option (List Char) := none
  /-- The name of the source, in place of its address. -/
  srcName : Option (List Char) := none
  /-- The port of the source. -/
  srcPort : Option (List Char) := none
  /-- The port of the destination. -/
  destPort : Option (List Char) := none
  deriving DecidableEq

/-- A child of the node `filterTable`: a `filter`, or something else. -/
inductive TableElement where
  | filter (f : FilterElement)
  | other

/-- How `loadFilterTable` can fail. -/
inductive LoadError where
  /-- "Cannot read configuration from file". -/
  | cannotRead
  /-- "No configuration for teidTable". -/
  | noConfiguration
  /-- "attribute tftId MUST be specified for every traffic filter." -/
  | tftIdMissing
  /-- "unable to resolve any address for tftID[%i] in PGW." -/
  | unresolvedInPGW (tftId : ℕ)
  /-- "unable to resolve any address for tftID[%i] in ENB". -/
  | unresolvedInENB (tftId : ℕ)
  /-- An address or name that is not one. -/
  | badAddress
  deriving DecidableEq

/-- How addresses are made of texts. -/
structure Resolver (A : Type) where
  /-- The address 0.0.0.0. -/
  zero : A
  /-- `Ipv4Address(text)`. -/
  ipv4Address : List Char → Except LoadError A
  /-- `L3AddressResolver().resolve`. -/
  resolve : List Char → Except LoadError A

/-- White space of the C library. -/
def isSpace (c : Char) : Bool := c.toNat = 32 || (9 ≤ c.toNat && c.toNat ≤ 13)

/-- The digits at the beginning of a text as a number. -/
def leadingDigits (s : List Char) : ℤ :=
  (s.takeWhile Char.isDigit).foldl (fun n c => 10 * n + (c.toNat - 48 : ℤ)) 0

/-- `atoi`. -/
def atoi (s : List Char) : ℤ :=
  match s.dropWhile isSpace with
  | '-' :: ds => -leadingDigits ds
  | '+' :: ds => leadingDigits ds
  | ds => leadingDigits ds

namespace TrafficFlowFilter

variable {A : Type} (R : Resolver A) (ownerType : EpcNodeType)

/-- The constructor of `TrafficFlowTemplate`, with the id that is set afterwards. -/
def newTemplate (ad : A) (src dest : ℕ) (tftId : ℤ) : TrafficFlowTemplate A :=
  ⟨⟨ad, src, dest⟩, tftId⟩

/-- The variables that keep their values from one element to the next. -/
structure LoadVars (A : Type) where
  /-- The last address of a destination. -/
  destAddr : A
  /-- The last address of a source. -/
  srcAddr : A
  /-- The last port of a destination. -/
  destPort : ℕ := UNSPECIFIED_PORT
  /-- The last port of a source. -/
  srcPort : ℕ := UNSPECIFIED_PORT
  deriving DecidableEq

/-- The value of the mandatory `tftId`. -/
def readTftId (text : Option (List Char)) : Except LoadError ℕ :=
  match text with
  | some text => .ok (ofInt32 (atoi text))
  | none => .error .tftIdMissing

/-- The value of a port, which stays as it is if the attribute is missing. -/
def readPort (text : Option (List Char)) (port : ℕ) : ℕ :=
  match text with
  | some text => ofInt32 (atoi text)
  | none => port

/-- The value of an address, from the address or the name; `missing` is what happens if neither is
there. -/
def readAddress (addr name : Option (List Char)) (missing : Except LoadError A) :
    Except LoadError A :=
  match addr with
  | some text => R.ipv4Address text
  | none =>
    match name with
    | some text => R.resolve text
    | none => missing

/-- One `filter` element, with the call of `addTrafficFlow` that comes of it. -/
def readFilter (v : LoadVars A) (f : FilterElement) :
    Except LoadError (LoadVars A × A × TrafficFlowTemplate A) := do
  let tftId ← readTftId f.tftId
  let destPort := readPort f.destPort v.destPort
  let srcPort := readPort f.srcPort v.srcPort
  let destAddr ← readAddress R f.destAddr f.destName
    (if ownerType = .PGW then .error (.unresolvedInPGW tftId) else .ok v.destAddr)
  let srcAddr ← readAddress R f.srcAddr f.srcName
    (if ownerType = .ENB then .error (.unresolvedInENB tftId) else .ok v.srcAddr)
  let primaryKey := if ownerType = .ENB then srcAddr else destAddr
  let secondaryKeyAddr := if ownerType = .ENB then destAddr else srcAddr
  return (⟨destAddr, srcAddr, destPort, srcPort⟩, primaryKey,
    newTemplate secondaryKeyAddr destPort srcPort (i32 tftId))

/-! ### What an element says -/

/-- The port that an attribute gives. -/
def givenPort (text : Option (List Char)) : Option ℕ := text.map fun text => ofInt32 (atoi text)

/-- The address that an element gives. -/
def givenAddress (addr name : Option (List Char)) : Option A :=
  match addr with
  | some text => (R.ipv4Address text).toOption
  | none => name.bind fun text => (R.resolve text).toOption

/-- The address at the first level. -/
def primaryAddress (f : FilterElement) : Option A :=
  if ownerType = .ENB then givenAddress R f.srcAddr f.srcName
  else givenAddress R f.destAddr f.destName

/-- The address at the second level. -/
def secondaryAddress (f : FilterElement) : Option A :=
  if ownerType = .ENB then givenAddress R f.destAddr f.destName
  else givenAddress R f.srcAddr f.srcName

/-- The entry that an element alone determines: the first key and the template. -/
def ownEntry (f : FilterElement) : A × TrafficFlowTemplate A :=
  ((primaryAddress R ownerType f).getD R.zero,
    { addr := (secondaryAddress R ownerType f).getD R.zero
      srcPort := (givenPort f.srcPort).getD UNSPECIFIED_PORT
      destPort := (givenPort f.destPort).getD UNSPECIFIED_PORT
      tftId := i32 (ofInt32 (atoi (f.tftId.getD []))) })

/-- The value that the last of the elements gives. -/
def lastGiven {V : Type} (given : FilterElement → Option V) (fs : List FilterElement) (d : V) : V :=
  fs.foldl (fun v f => (given f).getD v) d

/-- What the elements `pre` leave does not change what `f` says: for each port the last value that
is given is what `f` says of the *other* port, and for the second address it is what `f` says. -/
structure Undisturbed (pre : List FilterElement) (f : FilterElement) : Prop where
  /-- The destination port left over is the own source port. -/
  destPort : lastGiven (fun f => givenPort f.destPort) (pre ++ [f]) UNSPECIFIED_PORT =
    (givenPort f.srcPort).getD UNSPECIFIED_PORT
  /-- The source port left over is the own destination port. -/
  srcPort : lastGiven (fun f => givenPort f.srcPort) (pre ++ [f]) UNSPECIFIED_PORT =
    (givenPort f.destPort).getD UNSPECIFIED_PORT
  /-- The second address left over is the own one. -/
  secondaryAddress : lastGiven (secondaryAddress R ownerType) (pre ++ [f]) R.zero =
    (secondaryAddress R ownerType f).getD R.zero

variable {R ownerType} {v w : LoadVars A} {f : FilterElement} {fs : List FilterElement}
  {call : A × TrafficFlowTemplate A} {d p : ℕ} {a : A}

/-! ### The calls of `addTrafficFlow` -/

theorem readPort_eq (text : Option (List Char)) (port : ℕ) :
    readPort text port = (givenPort text).getD port := by
  cases text <;> rfl

theorem readAddress_cases {addr name : Option (List Char)} {missing : Except LoadError A}
    (h : readAddress R addr name missing = .ok a) :
    givenAddress R addr name = some a ∨ givenAddress R addr name = none ∧ missing = .ok a := by
  cases addr with
  | some text =>
    have h : R.ipv4Address text = .ok a := h
    left
    rw [givenAddress, h]
    rfl
  | none =>
    cases name with
    | some text =>
      have h : R.resolve text = .ok a := h
      left
      rw [givenAddress, Option.bind_some, h]
      rfl
    | none => exact .inr ⟨rfl, h⟩

theorem readAddress_optional {addr name : Option (List Char)} {b : A}
    (h : readAddress R addr name (.ok b) = .ok a) : a = (givenAddress R addr name).getD b := by
  rcases readAddress_cases h with hgiven | ⟨hgiven, hb⟩
  · rw [hgiven]
    rfl
  · rw [hgiven]
    exact (Except.ok.inj hb).symm

theorem readAddress_mandatory {addr name : Option (List Char)} {err : LoadError}
    (h : readAddress R addr name (.error err) = .ok a) : givenAddress R addr name = some a := by
  rcases readAddress_cases h with hgiven | ⟨-, hb⟩
  · exact hgiven
  · cases hb

/-- The variable for the address at the second level. -/
def secondaryOf (ownerType : EpcNodeType) (v : LoadVars A) : A :=
  if ownerType = .ENB then v.destAddr else v.srcAddr

/-- The call for an element, when the variables contain the ports `d` and `p` and the address `a`
before it. -/
def callAt (R : Resolver A) (ownerType : EpcNodeType) (d p : ℕ) (a : A) (f : FilterElement) :
    A × TrafficFlowTemplate A :=
  ((primaryAddress R ownerType f).getD R.zero,
    newTemplate ((secondaryAddress R ownerType f).getD a) ((givenPort f.destPort).getD d)
      ((givenPort f.srcPort).getD p) (i32 (ofInt32 (atoi (f.tftId.getD [])))))

/-- What one element does. -/
theorem readFilter_spec (h : readFilter R ownerType v f = .ok (w, call)) :
    call = callAt R ownerType v.destPort v.srcPort (secondaryOf ownerType v) f ∧
      w.destPort = (givenPort f.destPort).getD v.destPort ∧
      w.srcPort = (givenPort f.srcPort).getD v.srcPort ∧
      secondaryOf ownerType w =
        (secondaryAddress R ownerType f).getD (secondaryOf ownerType v) := by
  unfold readFilter at h
  obtain ⟨tftId, htft, h⟩ := bind_eq_ok.1 h
  dsimp only at h
  obtain ⟨destAddr, hdest, h⟩ := bind_eq_ok.1 h
  obtain ⟨srcAddr, hsrc, h⟩ := bind_eq_ok.1 h
  obtain ⟨rfl, rfl⟩ := Prod.mk.inj (Except.ok.inj h)
  have hid : tftId = ofInt32 (atoi (f.tftId.getD [])) := by
    cases htext : f.tftId with
    | none =>
      rw [htext] at htft
      cases htft
    | some text =>
      rw [htext] at htft
      exact (Except.ok.inj htft).symm
  rw [callAt, readPort_eq, readPort_eq, hid]
  cases ownerType with
  | ENB =>
    have hsrc := readAddress_mandatory hsrc
    have hdest := readAddress_optional hdest
    simp only [secondaryOf, primaryAddress, secondaryAddress, if_true, hsrc, ← hdest]
    exact ⟨rfl, trivial, trivial, trivial⟩
  | PGW =>
    have hsrc := readAddress_optional hsrc
    have hdest := readAddress_mandatory hdest
    simp only [secondaryOf, primaryAddress, secondaryAddress, reduceCtorEq, if_false, hdest,
      ← hsrc]
    exact ⟨rfl, trivial, trivial, trivial⟩

/-- The calls for a list of elements. -/
def callsOf (R : Resolver A) (ownerType : EpcNodeType) :
    ℕ → ℕ → A → List FilterElement → List (A × TrafficFlowTemplate A)
  | _, _, _, [] => []
  | d, p, a, f :: fs =>
    callAt R ownerType d p a f :: callsOf R ownerType ((givenPort f.destPort).getD d)
      ((givenPort f.srcPort).getD p) ((secondaryAddress R ownerType f).getD a) fs

/-! ### When the calls are those of the elements -/

/-- A call is the own one of its element if the ports, the wrong way round, and the address are. -/
theorem callAt_eq_iff : callAt R ownerType d p a f = ownEntry R ownerType f ↔
    (givenPort f.destPort).getD d = (givenPort f.srcPort).getD UNSPECIFIED_PORT ∧
      (givenPort f.srcPort).getD p = (givenPort f.destPort).getD UNSPECIFIED_PORT ∧
      (secondaryAddress R ownerType f).getD a =
        (secondaryAddress R ownerType f).getD R.zero := by
  simp only [callAt, ownEntry, newTemplate, Prod.mk.injEq, TrafficFlowTemplate.mk.injEq,
    FlowKey.mk.injEq, and_true, true_and]
  exact ⟨fun ⟨ha, hd, hp⟩ => ⟨hd, hp, ha⟩, fun ⟨hd, hp, ha⟩ => ⟨ha, hd, hp⟩⟩

theorem callsOf_eq_iff : callsOf R ownerType d p a fs = fs.map (ownEntry R ownerType) ↔
    ∀ pre f post, fs = pre ++ f :: post →
      lastGiven (fun f => givenPort f.destPort) (pre ++ [f]) d =
          (givenPort f.srcPort).getD UNSPECIFIED_PORT ∧
        lastGiven (fun f => givenPort f.srcPort) (pre ++ [f]) p =
          (givenPort f.destPort).getD UNSPECIFIED_PORT ∧
        lastGiven (secondaryAddress R ownerType) (pre ++ [f]) a =
          (secondaryAddress R ownerType f).getD R.zero := by
  induction fs generalizing d p a with
  | nil => exact iff_of_true rfl fun pre f post heq => by simp at heq
  | cons f fs ih =>
    rw [callsOf, List.map_cons, List.cons.injEq, callAt_eq_iff, ih, forall_split_cons (P :=
      fun pre f => lastGiven (fun f => givenPort f.destPort) (pre ++ [f]) d =
          (givenPort f.srcPort).getD UNSPECIFIED_PORT ∧
        lastGiven (fun f => givenPort f.srcPort) (pre ++ [f]) p =
          (givenPort f.destPort).getD UNSPECIFIED_PORT ∧
        lastGiven (secondaryAddress R ownerType) (pre ++ [f]) a =
          (secondaryAddress R ownerType f).getD R.zero)]
    rfl

/-! ### The loop over the elements -/

variable [DecidableEq A]

/-- What the loop over the elements works on. -/
structure Loading (A : Type) where
  /-- The variables of the loop. -/
  vars : LoadVars A
  /-- The table so far. -/
  filterTable : TrafficFilterTemplateTable A
  /-- The calls of `addTrafficFlow` so far. -/
  calls : List (A × TrafficFlowTemplate A) := []

/-- One element. -/
def loadElement (R : Resolver A) (ownerType : EpcNodeType) (r : Loading A) :
    TableElement → Except LoadError (Loading A)
  | .other => .ok r
  | .filter f => do
    let (vars, call) ← readFilter R ownerType r.vars f
    return {
      vars := vars
      filterTable := (addTrafficFlow R.zero r.filterTable call.1 call.2).1
      calls := r.calls ++ [call] }

/-- `loadFilterTable`, for the elements of the node `filterTable` of the file, if the file can be
read and has this node; with the calls of `addTrafficFlow`. -/
def loadFilterTable (R : Resolver A) (ownerType : EpcNodeType)
    (config : Option (Option (List TableElement))) :
    Except LoadError (TrafficFilterTemplateTable A × List (A × TrafficFlowTemplate A)) :=
  match config with
  | none => .error .cannotRead
  | some none => .error .noConfiguration
  | some (some tftList) =>
    (tftList.foldlM (loadElement R ownerType) ⟨⟨R.zero, R.zero, UNSPECIFIED_PORT, UNSPECIFIED_PORT⟩,
      fun _ => [], []⟩).map fun r => (r.filterTable, r.calls)

/-- The elements that are filters. -/
def filters (tftList : List TableElement) : List FilterElement :=
  tftList.filterMap fun
    | .filter f => some f
    | .other => none

/-- Every filter means what its own element says: the table is made of the own entries. -/
structure OwnEntries (R : Resolver A) (ownerType : EpcNodeType) (tftList : List TableElement)
    (r : TrafficFilterTemplateTable A × List (A × TrafficFlowTemplate A)) : Prop where
  /-- The calls of `addTrafficFlow` are those for the elements' own filters. -/
  calls : r.2 = (filters tftList).map (ownEntry R ownerType)
  /-- The table is what these calls build, beginning with the empty one. -/
  table : r.1 = ((filters tftList).map (ownEntry R ownerType)).foldl
    (fun tbl e => (addTrafficFlow R.zero tbl e.1 e.2).1) fun _ => []

variable {es : List TableElement} {r r' : Loading A}

/-- What the loop does. -/
theorem load_spec (h : es.foldlM (loadElement R ownerType) r = .ok r') :
    r'.calls = r.calls ++ callsOf R ownerType r.vars.destPort r.vars.srcPort
        (secondaryOf ownerType r.vars) (filters es) ∧
      r'.filterTable = (callsOf R ownerType r.vars.destPort r.vars.srcPort
        (secondaryOf ownerType r.vars) (filters es)).foldl
          (fun tbl e => (addTrafficFlow R.zero tbl e.1 e.2).1) r.filterTable := by
  induction es generalizing r with
  | nil =>
    obtain rfl := Except.ok.inj h
    exact ⟨(List.append_nil _).symm, rfl⟩
  | cons e es ih =>
    rw [List.foldlM_cons] at h
    obtain ⟨r₁, hr₁, h⟩ := bind_eq_ok.1 h
    cases e with
    | other =>
      obtain rfl := Except.ok.inj hr₁
      exact ih h
    | filter f =>
      obtain ⟨⟨w, call⟩, hread, hr₁⟩ := bind_eq_ok.1 hr₁
      obtain rfl := Except.ok.inj hr₁
      obtain ⟨rfl, hdest, hsrc, hsecond⟩ := readFilter_spec hread
      have hrest := ih h
      dsimp only at hrest
      rw [hdest, hsrc, hsecond, List.append_assoc] at hrest
      exact hrest

/-- **When every filter means what its own element says.**  A table that is loaded is made of the
own entries of the elements if and only if no element is disturbed by those before it. -/
theorem loadFilterTable_iff {r : TrafficFilterTemplateTable A × List (A × TrafficFlowTemplate A)}
    (h : loadFilterTable R ownerType (some (some es)) = .ok r) :
    OwnEntries R ownerType es r ↔
      ∀ pre f post, filters es = pre ++ f :: post → Undisturbed R ownerType pre f := by
  unfold loadFilterTable at h
  dsimp only at h
  cases hr' : es.foldlM (loadElement R ownerType)
      ⟨⟨R.zero, R.zero, UNSPECIFIED_PORT, UNSPECIFIED_PORT⟩, fun _ => [], []⟩ with
  | error err =>
    rw [hr'] at h
    cases h
  | ok r' =>
    rw [hr'] at h
    obtain rfl := Except.ok.inj h
    obtain ⟨hcalls, htable⟩ := load_spec hr'
    have hsecond : secondaryOf ownerType
        (⟨R.zero, R.zero, UNSPECIFIED_PORT, UNSPECIFIED_PORT⟩ : LoadVars A) = R.zero := ite_self _
    rw [List.nil_append, hsecond] at hcalls
    rw [hsecond] at htable
    have hiff : OwnEntries R ownerType es (r'.filterTable, r'.calls) ↔
        callsOf R ownerType UNSPECIFIED_PORT UNSPECIFIED_PORT R.zero (filters es) =
          (filters es).map (ownEntry R ownerType) := by
      rw [← hcalls]
      exact ⟨fun hown => hown.calls, fun heq => ⟨heq, by rw [htable, ← hcalls, heq]⟩⟩
    rw [hiff, callsOf_eq_iff]
    constructor
    · intro hall pre f post heq
      obtain ⟨hdest, hsrc, hsecond⟩ := hall pre f post heq
      exact ⟨hdest, hsrc, hsecond⟩
    · intro hall pre f post heq
      have hf := hall pre f post heq
      exact ⟨hf.destPort, hf.srcPort, hf.secondaryAddress⟩

/-- Addresses that are numbers. -/
def numbered : Resolver ℕ where
  zero := 0
  ipv4Address text := .ok (atoi text).toNat
  resolve _ := .error .badAddress

/-- Filters without ports, with two that are the same and with an address of the source, and an
element that is none. -/
def ownFilters : List TableElement :=
  [.filter { destAddr := some ['7'], tftId := some ['1'] }, .other,
    .filter {
      destAddr := some ['8'], tftId := some ['2'], srcPort := some ['5'], destPort := some ['5'] },
    .filter {
      destAddr := some ['7'], tftId := some ['3'], srcAddr := some ['4']
      srcPort := some ['6', '7'], destPort := some ['6', '7'] }]

theorem loadFilterTable_ownFilters : ∃ r,
    loadFilterTable numbered .PGW (some (some ownFilters)) = .ok r ∧
      OwnEntries numbered .PGW ownFilters r := by
  refine ⟨_, rfl, (loadFilterTable_iff rfl).2 ?_⟩
  simp only [ownFilters, filters, List.filterMap_cons, List.filterMap_nil, forall_split_cons]
  refine ⟨⟨rfl, rfl, rfl⟩, ⟨rfl, rfl, rfl⟩, ⟨rfl, rfl, rfl⟩, fun pre y post h => ?_⟩
  exact absurd h.symm (List.append_ne_nil_of_right_ne_nil pre (List.cons_ne_nil y post))

/-- A filter for the source port 5, and one for another destination without a port. -/
def twoFilters : List TableElement :=
  [.filter { destAddr := some ['7'], tftId := some ['1'], srcPort := some ['5'] },
    .filter { destAddr := some ['8'], tftId := some ['2'] }]

/-- The port comes into the field for the other one, and into both entries. -/
theorem port_carried_over : ∃ r, loadFilterTable numbered .PGW (some (some twoFilters)) = .ok r ∧
    r.1 7 = [⟨⟨0, 65536, 5⟩, 1⟩] ∧ r.1 8 = [⟨⟨0, 65536, 5⟩, 2⟩] ∧
    ¬OwnEntries numbered .PGW twoFilters r := by
  refine ⟨_, rfl, by decide, by decide, fun hown => ?_⟩
  exact absurd hown.calls (by decide)

end TrafficFlowFilter

end V2nLte
