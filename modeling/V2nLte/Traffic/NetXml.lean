import Mathlib.Algebra.Order.Ring.Rat
import Mathlib.Data.Char
import Mathlib.Data.List.Sort
import Mathlib.Data.List.Lex
import Mathlib.Data.List.Perm.Subperm
import Mathlib.Order.Lex

/-!
# The two readers of the road network

Server and vehicles exchange *edge indices*.  Each side numbers the edges itself, by reading the
SUMO network file line by line and sorting the edge ids:

* `parseNetXml` is the reader of `TrafficServer`: one pass for edges and lanes, with a map that
  drops repeated ids, then a sort, then a second pass for the connections;
* `parseEdgeIndex` is the reader of `VehicleApp`: filter the edge lines, sort, number.

A `Text` is a `std::string`, that is a list of characters, compared lexicographically.
`std::stod` is a parameter of the server's reader: `none` means that it throws, and nothing
below depends on which numbers it reads.

The main result, `tables_agree_iff`, says for which files the two numberings coincide: exactly
for those in which no non-internal edge id stands on two `<edge id=` lines.
-/

namespace V2nLte

/-- A `std::string`. -/
abbrev Text := List Char

/-- `s.find(pat, pos)`: the first position from `pos` on where `pat` occurs. -/
def find (s pat : Text) (pos : ℕ) : Option ℕ :=
  (List.range' pos (s.length + 1 - pos)).find? fun i => pat.isPrefixOf (s.drop i)

/-- `s.find(pat) != std::string::npos`. -/
def contains (s pat : Text) : Bool := (find s pat 0).isSome

/-- `!s.empty() && s[0] == ':'`, the mark of SUMO's junction-internal edges. -/
def startsWithColon (s : Text) : Bool := s.head? == some ':'

/-- The value of an XML attribute on a line, or the empty text. -/
def getAttr (line attr : Text) : Text :=
  let search := attr ++ "=\"".toList
  match find line search 0 with
  | none => []
  | some p =>
    let pos := p + search.length
    match find line "\"".toList pos with
    | none => []
    | some stop => (line.drop pos).take (stop - pos)

/-- The line opens an edge. -/
def edgeLine (line : Text) : Bool := contains line "<edge id=".toList

/-- The `id` attribute. -/
def idAttr (line : Text) : Text := getAttr line "id".toList

/-- Both readers skip the edges that SUMO generates inside junctions. -/
def internalEdge (line : Text) : Bool :=
  getAttr line "function".toList == "internal".toList || startsWithColon (idAttr line)

/-- The loop that numbers the ids: `table[ids[i]] = i` for increasing `i`. -/
def indexTable (ids : List Text) : Text → Option ℤ :=
  ids.zipIdx.foldl (fun table p => Function.update table p.1 (some (p.2 : ℤ))) fun _ => none

/-! ### The vehicle's reader -/

/-- The ids on the non-internal edge lines, in file order. -/
def edgeIds (lines : List Text) : List Text :=
  lines.filterMap fun line =>
    if !edgeLine line then none
    else if internalEdge line then none
    else some (idAttr line)

/-- The tables of a vehicle. -/
structure EdgeIndex where
  /-- `indexToEdge[i]` is the id of edge `i`. -/
  indexToEdge : List Text
  /-- The inverse table. -/
  edgeToIndex : Text → Option ℤ

/-- `VehicleApp::parseEdgeIndex`; a file that cannot be opened leaves the tables empty. -/
def parseEdgeIndex : Option (List Text) → EdgeIndex
  | none => ⟨[], fun _ => none⟩
  | some lines =>
    let ids := (edgeIds lines).insertionSort (· ≤ ·)
    ⟨ids, indexTable ids⟩

/-! ### The server's reader -/

/-- A road edge. -/
structure EdgeData where
  /-- SUMO's id of the edge. -/
  id : Text
  /-- Its number. -/
  index : ℤ := -1
  /-- Length in metres. -/
  length : ℚ := 0
  /-- Speed limit in metres per second. -/
  speedLimit : ℚ := 13.9
  /-- Travel time at the speed limit, in seconds. -/
  baseTravelTime : ℚ := 10
  deriving DecidableEq

/-- The variables of the first pass. -/
structure ParseState where
  /-- The edges found so far. -/
  edges : List EdgeData := []
  /-- The ids found so far; the numbers come after sorting. -/
  edgeNameToIdx : Text → Option ℤ := fun _ => none
  /-- The edge the current lane lines belong to. -/
  currentEdgeId : Text := []
  /-- A lane line would still count for `currentEdgeId`. -/
  inEdge : Bool := false

/-- Fill in the first edge with this id that has no length yet. -/
def fillLane (id : Text) (length speed : ℚ) : List EdgeData → List EdgeData
  | [] => []
  | ed :: edges =>
    if ed.id = id ∧ ed.length = 0 then
      { ed with
        length := length
        speedLimit := speed
        baseTravelTime := if speed > 0 then length / speed else 9999 } :: edges
    else ed :: fillLane id length speed edges

/-- The line describes a lane. -/
def laneLine (line : Text) : Bool := contains line "<lane id=".toList

/-- The length and the speed limit of a lane, as texts. -/
def laneAttrs (line : Text) : Text × Text :=
  (getAttr line "length".toList, getAttr line "speed".toList)

/-- The line closes an edge. -/
def edgeEndLine (line : Text) : Bool := contains line "</edge>".toList

/-- One line of the first pass; `none` if `std::stod` throws. -/
def readLine (stod : Text → Option ℚ) (st : ParseState) (line : Text) : Option ParseState :=
  if edgeLine line then
    let id := idAttr line
    if internalEdge line then some { st with inEdge := false }
    -- an edge that is known keeps its entry
    else if st.edgeNameToIdx id = none then
      some { edges := st.edges ++ [{ id := id }]
             edgeNameToIdx := Function.update st.edgeNameToIdx id (some (-1))
             currentEdgeId := id
             inEdge := true }
    else some { st with currentEdgeId := id, inEdge := true }
  else if st.inEdge && laneLine line then
    -- `std::stod` throws on what is no number
    let (lengthStr, speedStr) := laneAttrs line
    if lengthStr ≠ [] ∧ speedStr ≠ [] then
      match stod lengthStr, stod speedStr with
      | some length, some speed =>
        some { st with edges := fillLane st.currentEdgeId length speed st.edges, inEdge := false }
      | _, _ => none
    else some { st with inEdge := false }
  else if edgeEndLine line then some { st with inEdge := false }
  else some st

/-- The first pass. -/
def readEdges (stod : Text → Option ℚ) : ParseState → List Text → Option ParseState
  | st, [] => some st
  | st, line :: lines =>
    match readLine stod st line with
    | none => none
    | some st' => readEdges stod st' lines

/-- Sort by id and number the edges. -/
def numberEdges (edges : List EdgeData) : List EdgeData :=
  (edges.insertionSort (fun a b => a.id ≤ b.id)).mapIdx fun i ed => { ed with index := i }

/-- One line of the second pass. -/
def readConnection (edgeNameToIdx : Text → Option ℤ) (adjacency : List (List ℕ)) (line : Text) :
    List (List ℕ) :=
  if !contains line "<connection from=".toList then adjacency
  else if getAttr line "dir".toList = "t".toList then adjacency
  else
    let fromEdge := getAttr line "from".toList
    let toEdge := getAttr line "to".toList
    if fromEdge = [] ∨ toEdge = [] then adjacency
    else if startsWithColon fromEdge || startsWithColon toEdge then adjacency
    else match edgeNameToIdx fromEdge, edgeNameToIdx toEdge with
      | some fromIdx, some toIdx =>
        adjacency.modify fromIdx.toNat fun neighbors =>
          if toIdx.toNat ∈ neighbors then neighbors else neighbors ++ [toIdx.toNat]
      | _, _ => adjacency

/-- The second pass over all lines. -/
def readConnections (edgeNameToIdx : Text → Option ℤ) (n : ℕ) (lines : List Text) :
    List (List ℕ) :=
  lines.foldl (readConnection edgeNameToIdx) (List.replicate n [])

/-- The road network of the server.  Every successor list is about existing edges, so that the
arrays indexed by edge numbers are never accessed out of bounds. -/
structure RoadNet where
  /-- The edges, by number. -/
  edges : List EdgeData
  /-- The numbers, by id. -/
  edgeNameToIdx : Text → Option ℤ
  /-- The successors of every edge. -/
  adjacency : List (List ℕ)
  /-- One successor list for each edge. -/
  adjacency_length : adjacency.length = edges.length
  /-- Successors exist. -/
  adjacency_lt : ∀ ns ∈ adjacency, ∀ v ∈ ns, v < edges.length

/-- The network of a server whose file could not be opened. -/
def RoadNet.empty : RoadNet := ⟨[], fun _ => none, [], rfl, by simp⟩

/-! ### The numbering loop -/

theorem foldl_update_eq_some (ps : List (Text × ℕ)) {table : Text → Option ℤ} {name : Text}
    {i : ℤ}
    (h : ps.foldl (fun (t : Text → Option ℤ) p => Function.update t p.1 (some (p.2 : ℤ))) table
      name = some i) :
    (∃ p ∈ ps, p.1 = name ∧ i = (p.2 : ℤ)) ∨ table name = some i := by
  induction ps generalizing table with
  | nil => exact .inr h
  | cons p ps ih =>
    rcases ih h with ⟨q, hq, hn, hi⟩ | ht
    · exact .inl ⟨q, List.mem_cons_of_mem _ hq, hn, hi⟩
    · by_cases hp : name = p.1
      · subst hp
        simp only [Function.update_self, Option.some.injEq] at ht
        exact .inl ⟨p, by simp, rfl, ht.symm⟩
      · exact .inr ((Function.update_of_ne hp _ table).symm.trans ht)

/-- An index that is found belongs to the id it was looked up for. -/
theorem indexTable_eq_some {ids : List Text} {name : Text} {i : ℤ}
    (h : indexTable ids name = some i) : ∃ k : ℕ, i = k ∧ ids[k]? = some name := by
  rcases foldl_update_eq_some _ h with ⟨p, hp, rfl, hi⟩ | h
  · exact ⟨p.2, hi, List.mem_zipIdx_iff_getElem?.1 hp⟩
  · cases h

theorem indexTable_lt {ids : List Text} {name : Text} {i : ℤ} (h : indexTable ids name = some i) :
    i.toNat < ids.length := by
  obtain ⟨k, rfl, hk⟩ := indexTable_eq_some h
  simpa using (List.getElem?_eq_some_iff.1 hk).1

/-! ### The successor lists -/

/-- Successor lists for `n` edges. -/
def AdjacencyOk (n : ℕ) (adjacency : List (List ℕ)) : Prop :=
  adjacency.length = n ∧ ∀ ns ∈ adjacency, ∀ v ∈ ns, v < n

theorem adjacencyOk_readConnection {n : ℕ} {table : Text → Option ℤ}
    (htable : ∀ name i, table name = some i → i.toNat < n) {adjacency : List (List ℕ)}
    (h : AdjacencyOk n adjacency) (line : Text) :
    AdjacencyOk n (readConnection table adjacency line) := by
  unfold readConnection
  dsimp only
  split_ifs with h₁ h₂ h₃ h₄
  · exact h
  · exact h
  · exact h
  · exact h
  · split
    · rename_i fromIdx toIdx hfrom hto
      have hlt : toIdx.toNat < n := htable _ _ hto
      refine ⟨by simpa using h.1, fun ns hns v hv => ?_⟩
      obtain ⟨k, hk⟩ := List.mem_iff_getElem?.1 hns
      rw [List.getElem?_modify] at hk
      cases hold : adjacency[k]? with
      | none => simp [hold] at hk
      | some old =>
        have hmem : old ∈ adjacency := List.mem_of_getElem? hold
        simp only [hold, Option.map_eq_map, Option.map_some, Option.some.injEq] at hk
        split_ifs at hk with hk₁ hk₂
        · exact h.2 old hmem v (hk ▸ hv)
        · rw [← hk, List.mem_append, List.mem_singleton] at hv
          rcases hv with hv | rfl
          · exact h.2 old hmem v hv
          · exact hlt
        · exact h.2 old hmem v (hk ▸ hv)
    · exact h

theorem adjacencyOk_readConnections {n : ℕ} {table : Text → Option ℤ}
    (htable : ∀ name i, table name = some i → i.toNat < n) (lines : List Text) :
    AdjacencyOk n (readConnections table n lines) := by
  suffices H : ∀ adjacency, AdjacencyOk n adjacency →
      AdjacencyOk n (lines.foldl (readConnection table) adjacency) from
    H _ ⟨by simp, fun ns hns v hv => by simp [List.eq_of_mem_replicate hns] at hv⟩
  induction lines with
  | nil => exact fun _ h => h
  | cons line lines ih => exact fun _ h => ih _ (adjacencyOk_readConnection htable h line)

/-- `TrafficServer::parseNetXml`; `none` if `std::stod` throws. -/
def parseNetXml (stod : Text → Option ℚ) : Option (List Text) → Option RoadNet
  | none => some RoadNet.empty
  | some lines =>
    match readEdges stod {} lines with
    | none => none
    | some st =>
      let edges := numberEdges st.edges
      let table := indexTable (edges.map EdgeData.id)
      let adjacency := readConnections table edges.length lines
      have hok : AdjacencyOk edges.length adjacency :=
        adjacencyOk_readConnections (fun _ _ h => by simpa using indexTable_lt h) lines
      some ⟨edges, table, adjacency, hok.1, hok.2⟩

/-! ### Agreement of the two numberings -/

theorem fillLane_ids (id : Text) (length speed : ℚ) (edges : List EdgeData) :
    (fillLane id length speed edges).map EdgeData.id = edges.map EdgeData.id := by
  induction edges with
  | nil => rfl
  | cons ed edges ih =>
    unfold fillLane
    split
    · rfl
    · rw [List.map_cons, List.map_cons, ih]

/-- The first pass has met exactly the ids `ids`, each once. -/
structure Collected (ids : List Text) (st : ParseState) : Prop where
  nodup : (st.edges.map EdgeData.id).Nodup
  mem_iff : ∀ id, id ∈ st.edges.map EdgeData.id ↔ id ∈ ids
  /-- The map that suppresses repetitions knows the collected ids. -/
  known_iff : ∀ id, st.edgeNameToIdx id ≠ none ↔ id ∈ st.edges.map EdgeData.id

theorem Collected.congr {ids : List Text} {st st' : ParseState} (h : Collected ids st)
    (hids : st'.edges.map EdgeData.id = st.edges.map EdgeData.id)
    (hmap : st'.edgeNameToIdx = st.edgeNameToIdx) : Collected ids st' :=
  ⟨hids ▸ h.nodup, fun id => hids ▸ h.mem_iff id,
    fun id => by rw [hids, hmap]; exact h.known_iff id⟩

/-- One line adds the id that the vehicle's reader takes from it, if that id is new. -/
theorem Collected.readLine {stod : Text → Option ℚ} {ids : List Text} {st st' : ParseState}
    (h : Collected ids st) {line : Text} (hst : readLine stod st line = some st') :
    Collected (ids ++ edgeIds [line]) st' := by
  unfold V2nLte.readLine at hst
  dsimp only at hst
  by_cases hedge : edgeLine line = true
  · simp only [hedge, ↓reduceIte] at hst
    by_cases hint : internalEdge line = true
    · -- an internal edge is skipped by both readers
      simp only [hint, ↓reduceIte, Option.some.injEq] at hst
      subst hst
      have hnil : edgeIds [line] = [] := by simp [edgeIds, hint]
      rw [hnil, List.append_nil]
      exact h.congr rfl rfl
    · have hone : edgeIds [line] = [idAttr line] := by
        simp only [edgeIds, List.filterMap_cons, List.filterMap_nil, hedge, hint]
        simp
      simp only [hint, Bool.false_eq_true, ↓reduceIte] at hst
      rw [hone]
      set id := idAttr line
      -- the edge is new
      split_ifs at hst with hnew
      · simp only [Option.some.injEq] at hst
        subst hst
        have hnot : id ∉ st.edges.map EdgeData.id := fun hmem => (h.known_iff id).2 hmem hnew
        refine ⟨?_, fun x => ?_, fun x => ?_⟩
        · rw [List.map_append, List.nodup_append]
          refine ⟨h.nodup, by simp, fun a ha b hb hab => hnot ?_⟩
          have hb' : b = id := by simpa using hb
          rwa [← hb', ← hab]
        · simp [← h.mem_iff x]
        · by_cases hx : x = id
          · simp [hx]
          · dsimp only
            rw [Function.update_of_ne hx, h.known_iff x]
            simp [hx]
      · -- the edge has been read before
        simp only [Option.some.injEq] at hst
        subst hst
        have hmem : id ∈ ids := (h.mem_iff id).1 ((h.known_iff id).1 hnew)
        refine ⟨h.nodup, fun x => ?_, h.known_iff⟩
        rw [h.mem_iff x, List.mem_append, List.mem_singleton]
        constructor
        · exact .inl
        · rintro (hx | rfl)
          · exact hx
          · exact hmem
  · -- a line that starts no edge
    have hnil : edgeIds [line] = [] := by simp [edgeIds, hedge]
    rw [hnil, List.append_nil]
    simp only [hedge, Bool.false_eq_true, ↓reduceIte] at hst
    split_ifs at hst with hlane hattr hend
    · split at hst
      · simp only [Option.some.injEq] at hst
        subst hst
        exact h.congr (fillLane_ids ..) rfl
      · cases hst
    all_goals
      simp only [Option.some.injEq] at hst
      subst hst
      exact h.congr rfl rfl

theorem Collected.readEdges {stod : Text → Option ℚ} {lines : List Text} {ids : List Text}
    {st st' : ParseState} (h : Collected ids st) (hst : readEdges stod st lines = some st') :
    Collected (ids ++ edgeIds lines) st' := by
  induction lines generalizing ids st with
  | nil =>
    simp only [V2nLte.readEdges, Option.some.injEq] at hst
    subst hst
    simpa [edgeIds] using h
  | cons line lines ih =>
    simp only [V2nLte.readEdges] at hst
    split at hst
    · cases hst
    · rename_i st₁ hline
      have := ih (h.readLine hline) hst
      have happ : edgeIds (line :: lines) = edgeIds [line] ++ edgeIds lines := by
        unfold edgeIds
        rw [← List.filterMap_append, List.singleton_append]
      rwa [happ, ← List.append_assoc]

theorem numberEdges_ids (edges : List EdgeData) :
    (numberEdges edges).map EdgeData.id =
      (edges.map EdgeData.id).insertionSort (· ≤ ·) := by
  rw [← List.map_insertionSort (fun a b : EdgeData => a.id ≤ b.id) (· ≤ ·) EdgeData.id edges
    (fun _ _ _ _ => Iff.rfl)]
  apply List.ext_getElem <;> simp [numberEdges]

/-- The tables of server and vehicle say the same: as many edges, the same id at every index,
and the same index for every id. -/
def TablesAgree (net : RoadNet) (veh : EdgeIndex) : Prop :=
  net.edges.length = veh.indexToEdge.length ∧
    (∀ i : ℕ, (net.edges[i]?).map EdgeData.id = veh.indexToEdge[i]?) ∧
    ∀ name, net.edgeNameToIdx name = veh.edgeToIndex name

/-- The server numbers the sorted collection of the ids without their repetitions. -/
theorem parseNetXml_ids {stod : Text → Option ℚ} {lines : List Text} {net : RoadNet}
    (h : parseNetXml stod (some lines) = some net) :
    ∃ ids : List Text, ids.Nodup ∧ (∀ id, id ∈ ids ↔ id ∈ edgeIds lines) ∧
      net.edges.map EdgeData.id = ids.insertionSort (· ≤ ·) ∧
      net.edgeNameToIdx = indexTable (net.edges.map EdgeData.id) := by
  simp only [parseNetXml] at h
  split at h
  · cases h
  · rename_i st hst
    have hc : Collected ([] ++ edgeIds lines) st :=
      Collected.readEdges ⟨by simp, by simp, by simp⟩ hst
    simp only [Option.some.injEq] at h
    subst h
    rw [List.nil_append] at hc
    exact ⟨st.edges.map EdgeData.id, hc.nodup, hc.mem_iff, numberEdges_ids _, rfl⟩

theorem tablesAgree_of_nodup {stod : Text → Option ℚ} {lines : List Text} {net : RoadNet}
    (h : parseNetXml stod (some lines) = some net) (hnd' : (edgeIds lines).Nodup) :
    TablesAgree net (parseEdgeIndex (some lines)) := by
  obtain ⟨ids, hnd, hmem, hids, htable⟩ := parseNetXml_ids h
  have hperm : ids.Perm (edgeIds lines) := (List.perm_ext_iff_of_nodup hnd hnd').2 hmem
  have hsort : ids.insertionSort (· ≤ ·) = (edgeIds lines).insertionSort (· ≤ ·) :=
    List.Perm.eq_of_pairwise' (List.pairwise_insertionSort _ _)
      (List.pairwise_insertionSort _ _)
      (((List.perm_insertionSort _ ids).trans hperm).trans (List.perm_insertionSort _ _).symm)
  have heq : net.edges.map EdgeData.id = (parseEdgeIndex (some lines)).indexToEdge := by
    rw [hids, hsort]; rfl
  refine ⟨?_, fun i => ?_, fun name => ?_⟩
  · rw [← heq, List.length_map]
  · rw [← heq, List.getElem?_map]
  · rw [htable, heq]; rfl

/-- The server's ids are pairwise different, whatever the file. -/
theorem nodup_ids_parseNetXml {stod : Text → Option ℚ} {lines : List Text} {net : RoadNet}
    (h : parseNetXml stod (some lines) = some net) : (net.edges.map EdgeData.id).Nodup := by
  obtain ⟨ids, hnd, -, hids, -⟩ := parseNetXml_ids h
  rw [hids]
  exact (List.perm_insertionSort _ ids).nodup_iff.2 hnd

/-- **The two readers agree on a file exactly if no edge id is repeated in it.** -/
theorem tables_agree_iff (stod : Text → Option ℚ) (lines : List Text) (net : RoadNet)
    (h : parseNetXml stod (some lines) = some net) :
    TablesAgree net (parseEdgeIndex (some lines)) ↔ (edgeIds lines).Nodup := by
  refine ⟨?_, tablesAgree_of_nodup h⟩
  rintro ⟨hlen, -, -⟩
  obtain ⟨ids, hnd, hmem, hids, -⟩ := parseNetXml_ids h
  -- equally long and with the same members, the repetition-free list is a permutation
  have hlen' : ids.length = (edgeIds lines).length := by
    have := congrArg List.length hids
    simp only [List.length_map, List.length_insertionSort] at this
    rw [← this, hlen]
    simp [parseEdgeIndex]
  have hsub : ids.Subperm (edgeIds lines) := hnd.subperm fun x hx => (hmem x).1 hx
  exact (hsub.perm_of_length_le hlen'.ge).nodup_iff.1 hnd

/-- A file with two edges. -/
def twoEdges : List Text :=
  ["<edge id=\"b\" from=\"m\" to=\"n\">".toList, "<edge id=\"a\" from=\"n\" to=\"m\">".toList]

/-- The readers agree on a file with two different edges. -/
theorem tables_agree_twoEdges : ∃ net, parseNetXml (fun _ => none) (some twoEdges) = some net ∧
    TablesAgree net (parseEdgeIndex (some twoEdges)) :=
  ⟨_, rfl, (tables_agree_iff (fun _ => none) twoEdges _ rfl).2 (by decide +kernel)⟩

/-- A repeated edge line is dropped by the server and numbered twice by the vehicle. -/
theorem tables_differ_of_repeated_edge :
    ∃ net, parseNetXml (fun _ => none) (some (twoEdges ++ twoEdges.take 1)) = some net ∧
      ¬ TablesAgree net (parseEdgeIndex (some (twoEdges ++ twoEdges.take 1))) := by
  refine ⟨_, rfl, fun h => ?_⟩
  have hlen := h.1
  revert hlen
  decide +kernel

end V2nLte
