import Mathlib.Data.List.Basic
import Mathlib.Order.Lattice

/-!
# Loops over a map whose body erases elements

`for (it = m.begin(); it != m.end(); ++it)` over a `std::map` whose body may erase elements and
move the iterator.  An iterator is the key of its element, or `none` for the end.  To increment
one, its element has to be in the map still; `LoopError.erased` is the increment of an iterator
whose element has been erased.

* `mapLoop_stay`, `mapLoop_skip`, `mapLoop_erased` : one turn of the loop.
-/

namespace V2nLte

variable {K σ ε : Type} [LinearOrder K]

/-- What ends a loop too early. -/
inductive LoopError (ε : Type) where
  /-- An iterator is incremented whose element has been erased. -/
  | erased
  /-- The end is incremented. -/
  | atEnd
  /-- There are more turns than the loop has been given. -/
  | notFinished
  /-- The body throws. -/
  | body (e : ε)
  deriving DecidableEq

/-- How the body leaves a turn. -/
inductive Jump (K : Type) where
  /-- To the increment, with the iterator here. -/
  | next (it : Option K)
  /-- `break`. -/
  | leave

/-- The iterator at the element after a key. -/
def following (ks : List K) (k : K) : Option K := ks.find? fun k' => decide (k < k')

/-- `++it`. -/
def increment (ks : List K) : Option K → Except (LoopError ε) (Option K)
  | none => .error .atEnd
  | some k => if k ∈ ks then .ok (following ks k) else .error .erased

variable (keys : σ → List K) (body : K → σ → Except ε (σ × Jump K))

/-- The loop from an iterator on, with at most so many turns. -/
def mapLoop : ℕ → Option K → σ → Except (LoopError ε) σ
  | _, none, s => .ok s
  | 0, some _, _ => .error .notFinished
  | n + 1, some k, s =>
    match body k s with
    | .error e => .error (.body e)
    | .ok (s', .leave) => .ok s'
    | .ok (s', .next it) =>
      match increment (keys s') it with
      | .error e => .error e
      | .ok it' => mapLoop n it' s'

/-- The loop over the whole map; no turn comes twice to a key. -/
def forEach (s : σ) : Except (LoopError ε) σ := mapLoop keys body (keys s).length (keys s).head? s

variable {keys body} {done rest : List K} {k k' : K} {s s' : σ} {n : ℕ}

theorem following_append (h : (done ++ k :: rest).Pairwise (· < ·)) :
    following (done ++ k :: rest) k = rest.head? := by
  have hdone : ∀ i ∈ done, ¬k < i := fun i hi =>
    not_lt_of_gt ((List.pairwise_append.1 h).2.2 i hi k List.mem_cons_self)
  have hrest : ∀ i ∈ rest, k < i := (List.pairwise_cons.1 (List.pairwise_append.1 h).2.1).1
  rw [following, List.find?_append, List.find?_eq_none.2 (by simpa using hdone), Option.none_or,
    List.find?_cons_of_neg (by simp)]
  cases rest with
  | nil => rfl
  | cons k' rest => rw [List.find?_cons_of_pos (by simpa using hrest k' List.mem_cons_self)]; rfl

/-- What `erase` answers: the iterator at the element after the one that has been erased. -/
theorem following_erased (h : (done ++ k :: rest).Pairwise (· < ·)) :
    following (done ++ rest) k = rest.head? := by
  have hfollow := following_append h
  rw [following, List.find?_append, List.find?_cons_of_neg (by simp),
    ← List.find?_append] at hfollow
  exact hfollow

/-- A turn that keeps the map. -/
theorem mapLoop_stay (h : (keys s).Pairwise (· < ·)) (hkeys : keys s = done ++ k :: rest)
    (hbody : body k s = .ok (s', .next (some k))) (hsame : keys s' = keys s) :
    mapLoop keys body (n + 1) (some k) s = mapLoop keys body n rest.head? s' := by
  rw [hkeys] at h
  rw [mapLoop, hbody]
  dsimp only
  rw [hsame, hkeys, increment, if_pos (by simp), following_append h]

/-- A turn that erases its element and goes on from the next one, which the increment skips. -/
theorem mapLoop_skip (h : (keys s).Pairwise (· < ·)) (hkeys : keys s = done ++ k :: k' :: rest)
    (hbody : body k s = .ok (s', .next (some k'))) (herase : keys s' = done ++ k' :: rest) :
    mapLoop keys body (n + 1) (some k) s = mapLoop keys body n rest.head? s' := by
  rw [hkeys] at h
  have hsub : (done ++ k' :: rest).Pairwise (· < ·) :=
    h.sublist ((List.sublist_cons_self _ _).append_left _)
  rw [mapLoop, hbody]
  dsimp only
  rw [herase, increment, if_pos (by simp), following_append hsub]

/-- A turn that erases its element and stays there. -/
theorem mapLoop_erased (hbody : body k s = .ok (s', .next (some k))) (herase : k ∉ keys s') :
    mapLoop keys body (n + 1) (some k) s = .error .erased := by
  rw [mapLoop, hbody]
  dsimp only
  rw [increment, if_neg herase]

/-- A turn that leaves the loop. -/
theorem mapLoop_leave (hbody : body k s = .ok (s', .leave)) :
    mapLoop keys body (n + 1) (some k) s = .ok s' := by
  rw [mapLoop, hbody]

/-- A turn that throws. -/
theorem mapLoop_throw {e : ε} (hbody : body k s = .error e) :
    mapLoop keys body (n + 1) (some k) s = .error (.body e) := by
  rw [mapLoop, hbody]

end V2nLte
