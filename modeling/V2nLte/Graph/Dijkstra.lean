import Mathlib.Algebra.BigOperators.Group.Finset.Basic
import Mathlib.Algebra.Order.BigOperators.Group.Finset
import Mathlib.Data.List.Perm.Subperm
import Mathlib.Data.List.Sort
import Mathlib.Order.Basic

/-!
# Dijkstra's algorithm with lazy deletion

The textbook implementation on a binary heap: a vertex may sit in the queue several times, and
an entry whose vertex has been visited is skipped when it is popped.  Weights are on vertices
(entering `v` costs `w v`), vertices are natural numbers below `N`, `adj u` lists the successors
of `u`, and `none` is the infinite distance and the missing predecessor.

The weights live in any linear order with `0` and `+`; nothing below assumes that they are
non-negative, so the facts about the *shape* of the result hold for every weight function:

* `path_head`, `path_last`, `path_chain`, `path_lt` : a path that is returned leads from the
  source to the target along edges of the graph, inside the vertex range.
* `path_nodup` : it visits no vertex twice.  Predecessors are only written for unvisited
  vertices, and only to visited ones, so the predecessor links form a tree (`Inv.tree`).
* `loop_done` : the loop ends because the queue is empty or the target is visited, never because
  the fuel is used up.
-/

namespace V2nLte

namespace Dijkstra

variable {W : Type*}

/-- The state of the main loop. -/
structure State (W : Type*) where
  /-- Tentative distances; `none` is infinity. -/
  dist : ℕ → Option W
  /-- Predecessors; `none` is the start of the path. -/
  prev : ℕ → Option ℕ
  /-- The vertices that have been popped. -/
  visited : ℕ → Bool
  /-- The priority queue, smallest entry first. -/
  pq : List (W × ℕ)

/-- Take the head `u` of the queue out of it and mark it as visited. -/
def visit (s : State W) (u : ℕ) (rest : List (W × ℕ)) : State W :=
  { s with visited := Function.update s.visited u true, pq := rest }

/-- The vertices met when following the predecessors from `v`. -/
def follow (prev : ℕ → Option ℕ) : ℕ → ℕ → List ℕ
  | 0, _ => []
  | fuel + 1, v =>
    match prev v with
    | none => [v]
    | some u => v :: follow prev fuel u

/-! ### The predecessor tree -/

/-- `p` lists the vertices from `v` back to `src` along the predecessors. -/
inductive Trace (prev : ℕ → Option ℕ) (src : ℕ) : ℕ → List ℕ → Prop
  | root : prev src = none → Trace prev src src [src]
  | link {v u : ℕ} {p : List ℕ} : prev v = some u → Trace prev src u p →
      Trace prev src v (v :: p)

theorem Trace.head {prev : ℕ → Option ℕ} {src v : ℕ} {p : List ℕ} (h : Trace prev src v p) :
    p.head? = some v := by
  cases h <;> rfl

theorem Trace.last {prev : ℕ → Option ℕ} {src v : ℕ} {p : List ℕ} (h : Trace prev src v p) :
    p.getLast? = some src := by
  induction h with
  | root => rfl
  | link _ hp ih =>
    cases hp with
    | root => rfl
    | link => simpa using ih

theorem Trace.src_mem {prev : ℕ → Option ℕ} {src v : ℕ} {p : List ℕ} (h : Trace prev src v p) :
    src ∈ p := List.mem_of_getLast? h.last

theorem Trace.follow_eq {prev : ℕ → Option ℕ} {src v : ℕ} {p : List ℕ}
    (h : Trace prev src v p) : ∀ n, p.length ≤ n → follow prev n v = p := by
  induction h with
  | root hr =>
    intro n hn
    cases n with
    | zero => simp at hn
    | succ n => simp [follow, hr]
  | link hl _ ih =>
    intro n hn
    cases n with
    | zero => simp at hn
    | succ n => simp [follow, hl, ih n (by simpa using hn)]

/-- A trace only depends on the predecessors of its own vertices. -/
theorem Trace.congr {prev prev' : ℕ → Option ℕ} {src v : ℕ} {p : List ℕ}
    (h : Trace prev src v p) (hp : ∀ x ∈ p, prev' x = prev x) : Trace prev' src v p := by
  induction h with
  | root hr => exact .root (by rw [hp src (by simp)]; exact hr)
  | link hl _ ih =>
    refine .link ?_ (ih fun x hx => hp x (List.mem_cons_of_mem _ hx))
    rw [hp _ (by simp)]; exact hl

theorem Trace.chain {prev : ℕ → Option ℕ} {adj : ℕ → List ℕ} {src v : ℕ} {p : List ℕ}
    (h : Trace prev src v p) (hadj : ∀ v u, prev v = some u → v ∈ adj u) :
    p.IsChain (fun a b => a ∈ adj b) := by
  induction h with
  | root => exact .singleton _
  | link hl hp ih =>
    cases hp with
    | root => exact .cons_cons (hadj _ _ hl) (.singleton _)
    | link hl' hp' => exact .cons_cons (hadj _ _ hl) ih

/-- What the main loop keeps. -/
structure Inv (N : ℕ) (adj : ℕ → List ℕ) (src : ℕ) (s : State W) : Prop where
  /-- Until the source is visited nothing else is in the queue. -/
  src_first : ∀ x ∈ s.pq, s.visited src = true ∨ x.2 = src
  pq_dist : ∀ x ∈ s.pq, s.dist x.2 ≠ none
  pq_lt : ∀ x ∈ s.pq, x.2 < N
  /-- A vertex with a finite distance is the source or has a predecessor. -/
  dist_prev : ∀ v, s.dist v ≠ none → v = src ∨ ∃ u, s.prev v = some u
  prev_src : s.prev src = none
  /-- Predecessors are visited and joined by an edge. -/
  prev_spec : ∀ v u, s.prev v = some u → s.visited u = true ∧ v ∈ adj u
  visited_dist : ∀ v, s.visited v = true → s.dist v ≠ none
  /-- From a visited vertex the predecessors lead back to the source through visited vertices,
  without repetition. -/
  tree : ∀ v, s.visited v = true →
    ∃ p, Trace s.prev src v p ∧ p.Nodup ∧ ∀ x ∈ p, s.visited x = true

variable {N : ℕ} {adj : ℕ → List ℕ} {w : ℕ → W} {src dst : ℕ} {s : State W}

theorem Inv.visited_src (h : Inv N adj src s) {v : ℕ} (hv : s.visited v = true) :
    s.visited src = true := by
  obtain ⟨p, hp, -, hvis⟩ := h.tree v hv
  exact hvis src hp.src_mem

theorem Inv.skip (h : Inv N adj src s) {x : W × ℕ} {rest : List (W × ℕ)}
    (hpq : s.pq = x :: rest) : Inv N adj src { s with pq := rest } := by
  have hsub : ∀ y ∈ rest, y ∈ s.pq := fun y hy => by rw [hpq]; exact List.mem_cons_of_mem _ hy
  exact ⟨fun y hy => h.src_first y (hsub y hy), fun y hy => h.pq_dist y (hsub y hy),
    fun y hy => h.pq_lt y (hsub y hy), h.dist_prev, h.prev_src, h.prev_spec, h.visited_dist,
    h.tree⟩

theorem Inv.visit (h : Inv N adj src s) {x : W × ℕ} {rest : List (W × ℕ)}
    (hpq : s.pq = x :: rest) (hnv : s.visited x.2 = false) :
    Inv N adj src (Dijkstra.visit s x.2 rest) := by
  have hx : x ∈ s.pq := by rw [hpq]; exact List.mem_cons_self ..
  have hmono : ∀ y, s.visited y = true → Function.update s.visited x.2 true y = true := by
    intro y hy
    by_cases hyx : y = x.2
    · simp [hyx]
    · simpa [Function.update_of_ne hyx] using hy
  have hsub : ∀ y ∈ rest, y ∈ s.pq := fun y hy => by rw [hpq]; exact List.mem_cons_of_mem _ hy
  have hsrc : Function.update s.visited x.2 true src = true := by
    rcases h.src_first x hx with hs | hs
    · exact hmono src hs
    · simp [hs]
  refine ⟨fun _ _ => .inl hsrc, fun y hy => h.pq_dist y (hsub y hy),
    fun y hy => h.pq_lt y (hsub y hy), h.dist_prev, h.prev_src, fun v u hvu => ?_, fun v hv => ?_,
    fun v hv => ?_⟩
  · exact ⟨hmono u (h.prev_spec v u hvu).1, (h.prev_spec v u hvu).2⟩
  · by_cases hvx : v = x.2
    · rw [hvx]; exact h.pq_dist x hx
    · exact h.visited_dist v (by simpa [Dijkstra.visit, Function.update_of_ne hvx] using hv)
  · by_cases hvx : v = x.2
    · subst hvx
      rcases h.dist_prev x.2 (h.pq_dist x hx) with hs | ⟨u, hu⟩
      · refine ⟨[src], ?_, by simp, by simpa [Dijkstra.visit] using hsrc⟩
        rw [hs]; exact .root h.prev_src
      · -- the new vertex hangs below its predecessor, whose trace is already visited
        obtain ⟨p, hp, hnd, hvis⟩ := h.tree u (h.prev_spec x.2 u hu).1
        refine ⟨x.2 :: p, .link hu hp, List.nodup_cons.2 ⟨fun hmem => ?_, hnd⟩, ?_⟩
        · rw [hvis x.2 hmem] at hnv; cases hnv
        · intro y hy
          rcases List.mem_cons.1 hy with rfl | hy
          · simp [Dijkstra.visit]
          · exact hmono y (hvis y hy)
    · have hv' : s.visited v = true := by
        simpa [Dijkstra.visit, Function.update_of_ne hvx] using hv
      obtain ⟨p, hp, hnd, hvis⟩ := h.tree v hv'
      exact ⟨p, hp, hnd, fun y hy => hmono y (hvis y hy)⟩

/-- A vertex with a finite distance has a trace without repetition, visited or not. -/
theorem Inv.trace (h : Inv N adj src s) {v : ℕ} (hv : s.dist v ≠ none) :
    ∃ p, Trace s.prev src v p ∧ p.Nodup := by
  cases hvis : s.visited v with
  | true =>
    obtain ⟨p, hp, hnd, -⟩ := h.tree v hvis
    exact ⟨p, hp, hnd⟩
  | false =>
    rcases h.dist_prev v hv with rfl | ⟨u, hu⟩
    · exact ⟨[v], .root h.prev_src, by simp⟩
    · obtain ⟨p, hp, hnd, hall⟩ := h.tree u (h.prev_spec v u hu).1
      refine ⟨v :: p, .link hu hp, List.nodup_cons.2 ⟨fun hmem => ?_, hnd⟩⟩
      rw [hall v hmem] at hvis; cases hvis

theorem Inv.trace_lt (h : Inv N adj src s) (hsrc : src < N) (hadj : ∀ u v, v ∈ adj u → v < N)
    {v : ℕ} {p : List ℕ} (hp : Trace s.prev src v p) : ∀ x ∈ p, x < N := by
  induction hp with
  | root => simpa using hsrc
  | link hl _ ih =>
    intro x hx
    rcases List.mem_cons.1 hx with rfl | hx
    · exact hadj _ _ (h.prev_spec _ _ hl).2
    · exact ih x hx

/-- What is left to do: the queued entries, and the edges out of unvisited vertices, each of
which can still push one entry. -/
def work (N : ℕ) (adj : ℕ → List ℕ) (s : State W) : ℕ :=
  s.pq.length + ∑ u ∈ Finset.range N, if s.visited u then 0 else (adj u).length

/-- Visiting a vertex takes its outgoing edges off the work list. -/
theorem sum_visit (adj : ℕ → List ℕ) {u : ℕ} (hu : u < N) (hnv : s.visited u = false)
    (rest : List (W × ℕ)) :
    (∑ v ∈ Finset.range N, if (visit s u rest).visited v then 0 else (adj v).length) +
        (adj u).length =
      ∑ v ∈ Finset.range N, if s.visited v then 0 else (adj v).length := by
  rw [← Finset.add_sum_erase _ _ (Finset.mem_range.2 hu),
    ← Finset.add_sum_erase (Finset.range N) (fun v => if s.visited v then 0 else (adj v).length)
      (Finset.mem_range.2 hu)]
  have hrest : ∑ v ∈ (Finset.range N).erase u,
      (if (visit s u rest).visited v then 0 else (adj v).length) =
      ∑ v ∈ (Finset.range N).erase u, if s.visited v then 0 else (adj v).length := by
    refine Finset.sum_congr rfl fun v hv => ?_
    simp [visit, Function.update_of_ne (Finset.ne_of_mem_erase hv)]
  rw [hrest]
  simp [visit, hnv]
  omega

/-! ### The main loop -/

section Loop

variable [LinearOrder W] [Add W]

/-- The order of the queue: by distance, ties by vertex. -/
def Before (a b : W × ℕ) : Prop := a.1 < b.1 ∨ a.1 = b.1 ∧ a.2 ≤ b.2

instance : DecidableRel (Before (W := W)) := fun a b =>
  inferInstanceAs (Decidable (a.1 < b.1 ∨ a.1 = b.1 ∧ a.2 ≤ b.2))

/-- `d < dist`, where `none` is infinity. -/
def improves (d : W) : Option W → Bool
  | none => true
  | some x => decide (d < x)

/-- Relax the edge from `u` to `v`. -/
def relax (w : ℕ → W) (u : ℕ) (s : State W) (v : ℕ) : State W :=
  if s.visited v then s
  else match s.dist u with
    | none => s
    | some du =>
      if improves (du + w v) (s.dist v) then
        { s with
          dist := Function.update s.dist v (some (du + w v))
          prev := Function.update s.prev v (some u)
          pq := s.pq.orderedInsert Before (du + w v, v) }
      else s

/-- The main loop. -/
def loop (adj : ℕ → List ℕ) (w : ℕ → W) (dst : ℕ) : ℕ → State W → State W
  | 0, s => s
  | fuel + 1, s =>
    match s.pq with
    | [] => s
    | (_, u) :: rest =>
      if s.visited u then loop adj w dst fuel { s with pq := rest }
      else if u = dst then visit s u rest
      else loop adj w dst fuel ((adj u).foldl (relax w u) (visit s u rest))

/-- What one relaxation can do. -/
theorem relax_cases (w : ℕ → W) (u : ℕ) (s : State W) (v : ℕ) :
    relax w u s v = s ∨ (s.visited v = false ∧ ∃ d, relax w u s v =
      { s with
        dist := Function.update s.dist v (some d)
        prev := Function.update s.prev v (some u)
        pq := s.pq.orderedInsert Before (d, v) }) := by
  unfold relax
  split
  · exact .inl rfl
  · rename_i hv
    split
    · exact .inl rfl
    · rename_i du _
      split
      · exact .inr ⟨by simpa using hv, du + w v, rfl⟩
      · exact .inl rfl

theorem relax_visited (w : ℕ → W) (u : ℕ) (s : State W) (v : ℕ) :
    (relax w u s v).visited = s.visited := by
  obtain h | ⟨-, d, h⟩ := relax_cases w u s v <;> rw [h]

theorem relax_length_le (w : ℕ → W) (u : ℕ) (s : State W) (v : ℕ) :
    (relax w u s v).pq.length ≤ s.pq.length + 1 := by
  obtain h | ⟨-, d, h⟩ := relax_cases w u s v <;> rw [h] <;> simp [List.orderedInsert_length]

theorem Inv.relax (h : Inv N adj src s) {u v : ℕ} (hu : s.visited u = true) (hv : v ∈ adj u)
    (hvN : v < N) : Inv N adj src (relax w u s v) := by
  obtain hr | ⟨hnv, d, hr⟩ := relax_cases w u s v
  · rw [hr]; exact h
  rw [hr]
  have hsrc : s.visited src = true := h.visited_src hu
  have hne : v ≠ src := by rintro rfl; rw [hsrc] at hnv; cases hnv
  refine ⟨fun _ _ => .inl hsrc, ?_, ?_, ?_, ?_, ?_, ?_, ?_⟩
  · -- the queue knows the new distance
    intro x hx
    simp only [List.mem_orderedInsert] at hx
    by_cases hxv : x.2 = v
    · simp [hxv]
    · rcases hx with rfl | hx
      · exact absurd rfl hxv
      · simpa [Function.update_of_ne hxv] using h.pq_dist x hx
  · intro x hx
    simp only [List.mem_orderedInsert] at hx
    rcases hx with rfl | hx
    · exact hvN
    · exact h.pq_lt x hx
  · -- the new predecessor of `v` is `u`
    intro x hx
    by_cases hxv : x = v
    · exact .inr ⟨u, by simp [hxv]⟩
    · simp only [Function.update_of_ne hxv] at hx ⊢
      exact h.dist_prev x hx
  · simpa [Function.update_of_ne hne.symm] using h.prev_src
  · intro x y hxy
    by_cases hxv : x = v
    · subst hxv
      simp only [Function.update_self, Option.some.injEq] at hxy
      subst hxy
      exact ⟨hu, hv⟩
    · simp only [Function.update_of_ne hxv] at hxy
      exact h.prev_spec x y hxy
  · intro x hx
    by_cases hxv : x = v
    · simp [hxv]
    · simpa [Function.update_of_ne hxv] using h.visited_dist x hx
  · -- the traces of visited vertices avoid the unvisited vertex `v`
    intro x hx
    obtain ⟨p, hp, hnd, hvis⟩ := h.tree x hx
    refine ⟨p, hp.congr fun y hy => ?_, hnd, hvis⟩
    have hyv : y ≠ v := by rintro rfl; rw [hvis y hy] at hnv; cases hnv
    simp [Function.update_of_ne hyv]

theorem Inv.foldl_relax {u : ℕ} (l : List ℕ) (h : Inv N adj src s) (hu : s.visited u = true)
    (hl : ∀ v ∈ l, v ∈ adj u) (hN : ∀ v ∈ adj u, v < N) :
    Inv N adj src (l.foldl (Dijkstra.relax w u) s) := by
  induction l generalizing s with
  | nil => exact h
  | cons v l ih =>
    have hv : v ∈ adj u := hl v (by simp)
    refine ih (h.relax hu hv (hN v hv)) ?_ fun x hx => hl x (List.mem_cons_of_mem _ hx)
    rw [relax_visited]; exact hu

theorem Inv.loop (hadj : ∀ u v, v ∈ adj u → v < N) (n : ℕ) (h : Inv N adj src s) :
    Inv N adj src (loop adj w dst n s) := by
  induction n generalizing s with
  | zero => exact h
  | succ n ih =>
    unfold Dijkstra.loop
    split
    · exact h
    · rename_i d u rest hpq
      split_ifs with hv hd
      · exact ih (h.skip hpq)
      · exact h.visit hpq (by simpa using hv)
      · refine ih ((h.visit hpq (by simpa using hv)).foldl_relax (adj u) ?_ (fun _ h => h)
          (hadj u))
        simp [Dijkstra.visit]

theorem foldl_relax_visited (u : ℕ) (l : List ℕ) :
    (l.foldl (relax w u) s).visited = s.visited := by
  induction l generalizing s with
  | nil => rfl
  | cons v l ih => rw [List.foldl_cons, ih, relax_visited]

theorem foldl_relax_length_le (u : ℕ) (l : List ℕ) :
    (l.foldl (relax w u) s).pq.length ≤ s.pq.length + l.length := by
  induction l generalizing s with
  | nil => simp
  | cons v l ih =>
    have h₁ := ih (s := relax w u s v)
    have h₂ := relax_length_le w u s v
    rw [List.foldl_cons, List.length_cons]
    omega

omit [LinearOrder W] [Add W] in
theorem work_skip (N : ℕ) (adj : ℕ → List ℕ) {x : W × ℕ} {rest : List (W × ℕ)}
    (hpq : s.pq = x :: rest) :
    work N adj { s with pq := rest } + 1 = work N adj s := by
  unfold work
  rw [hpq, List.length_cons]
  dsimp only
  omega

/-- A vertex that is visited leaves the queue, and its edges push at most one entry each. -/
theorem work_visit (w : ℕ → W) (adj : ℕ → List ℕ) {d : W} {u : ℕ} {rest : List (W × ℕ)}
    (hpq : s.pq = (d, u) :: rest)
    (hu : u < N) (hnv : s.visited u = false) :
    work N adj ((adj u).foldl (relax w u) (visit s u rest)) + 1 ≤ work N adj s := by
  have hsum := sum_visit adj hu hnv rest
  have hpush := foldl_relax_length_le (w := w) (s := visit s u rest) u (adj u)
  have hrest : (visit s u rest).pq.length = rest.length := rfl
  have hlen : s.pq.length = rest.length + 1 := by rw [hpq]; rfl
  unfold work
  rw [foldl_relax_visited]
  omega

/-- **The loop ends by itself**: with the fuel that `path` gives it, it stops because the queue
is empty or because the target is visited. -/
theorem loop_done (hadj : ∀ u v, v ∈ adj u → v < N) (n : ℕ) (h : Inv N adj src s)
    (hn : work N adj s ≤ n) :
    (loop adj w dst n s).pq = [] ∨ (loop adj w dst n s).visited dst = true := by
  induction n generalizing s with
  | zero =>
    have : s.pq.length = 0 := by unfold work at hn; omega
    exact .inl (List.length_eq_zero_iff.1 this)
  | succ n ih =>
    unfold loop
    split
    · rename_i hpq; exact .inl hpq
    · rename_i d u rest hpq
      have hu : u < N := h.pq_lt (d, u) (by rw [hpq]; exact List.mem_cons_self ..)
      split_ifs with hv hd
      · have hskip := work_skip N adj hpq
        exact ih (h.skip hpq) (by omega)
      · subst hd; exact .inr (by simp [visit])
      · have hnv : s.visited u = false := by simpa using hv
        have hvisit := work_visit w adj hpq hu hnv
        exact ih ((h.visit hpq hnv).foldl_relax (adj u) (by simp [visit]) (fun _ h => h) (hadj u))
          (by omega)

/-- More fuel changes nothing. -/
theorem loop_of_le (hadj : ∀ u v, v ∈ adj u → v < N) {n m : ℕ} (h : Inv N adj src s)
    (hn : work N adj s ≤ n) (hm : n ≤ m) : loop adj w dst m s = loop adj w dst n s := by
  induction n generalizing s m with
  | zero =>
    have hlen : s.pq.length = 0 := by unfold work at hn; omega
    have hpq : s.pq = [] := List.length_eq_zero_iff.1 hlen
    cases m with
    | zero => rfl
    | succ m => simp only [loop, hpq]
  | succ n ih =>
    obtain ⟨m, rfl⟩ : ∃ k, m = k + 1 := ⟨m - 1, by omega⟩
    have hm : n ≤ m := by omega
    unfold loop
    split
    · rfl
    · rename_i d u rest hpq
      have hu : u < N := h.pq_lt (d, u) (by rw [hpq]; exact List.mem_cons_self ..)
      split_ifs with hv hd
      · have hskip := work_skip N adj hpq
        exact ih (h.skip hpq) (by omega) hm
      · rfl
      · have hnv : s.visited u = false := by simpa using hv
        have hvisit := work_visit w adj hpq hu hnv
        exact ih ((h.visit hpq hnv).foldl_relax (adj u) (by simp [visit]) (fun _ h => h) (hadj u))
          (by omega) hm

variable [Zero W]

/-- The state before the first iteration. -/
def init (src : ℕ) : State W where
  dist := Function.update (fun _ => none) src (some 0)
  prev := fun _ => none
  visited := fun _ => false
  pq := [(0, src)]

/-- An entry is pushed at most once for every edge, and once for the source. -/
def fuel (N : ℕ) (adj : ℕ → List ℕ) : ℕ := 1 + ∑ u ∈ Finset.range N, (adj u).length

/-- The path found from `src` to `dst`; empty if `dst` is not reached. -/
def path (N : ℕ) (adj : ℕ → List ℕ) (w : ℕ → W) (src dst : ℕ) : List ℕ :=
  let s := loop adj w dst (fuel N adj) (init src)
  match s.dist dst with
  | none => []
  | some _ => (follow s.prev N dst).reverse

omit [LinearOrder W] [Add W] in
theorem inv_init (hsrc : src < N) : Inv N adj src (init src : State W) where
  src_first x hx := by simp_all [init]
  pq_dist x hx := by simp_all [init]
  pq_lt x hx := by simp_all [init]
  dist_prev v hv := by
    by_cases h : v = src
    · exact Or.inl h
    · simp [init, h] at hv
  prev_src := rfl
  prev_spec v u h := by simp [init] at h
  visited_dist v hv := by simp [init] at hv
  tree v hv := by simp [init] at hv

/-! ### The path -/

/-- The state at the end of the main loop. -/
def final (N : ℕ) (adj : ℕ → List ℕ) (w : ℕ → W) (src dst : ℕ) : State W :=
  loop adj w dst (fuel N adj) (init src)

theorem path_def (N : ℕ) (adj : ℕ → List ℕ) (w : ℕ → W) (src dst : ℕ) :
    path N adj w src dst = match (final N adj w src dst).dist dst with
      | none => []
      | some _ => (follow (final N adj w src dst).prev N dst).reverse := rfl

theorem inv_final (hsrc : src < N) (hadj : ∀ u v, v ∈ adj u → v < N) :
    Inv N adj src (final N adj w src dst) := (inv_init hsrc).loop hadj _

/-- The path that is returned, read backwards, is a trace of the final predecessors. -/
theorem path_trace (hsrc : src < N) (hadj : ∀ u v, v ∈ adj u → v < N)
    (hd : (final N adj w src dst).dist dst ≠ none) :
    ∃ p, Trace (final N adj w src dst).prev src dst p ∧ p.Nodup ∧ (∀ x ∈ p, x < N) ∧
      path N adj w src dst = p.reverse := by
  have h : Inv N adj src (final N adj w src dst) := inv_final hsrc hadj
  obtain ⟨p, hp, hnd⟩ := h.trace hd
  have hlt := h.trace_lt hsrc hadj hp
  have hlen : p.length ≤ N := by
    have hsub : p ⊆ List.range N := fun x hx => List.mem_range.2 (hlt x hx)
    simpa using (hnd.subperm hsub).length_le
  refine ⟨p, hp, hnd, hlt, ?_⟩
  obtain ⟨d, hd⟩ := Option.ne_none_iff_exists'.1 hd
  rw [path_def, hd, hp.follow_eq N hlen]

theorem path_eq_nil (hd : (final N adj w src dst).dist dst = none) :
    path N adj w src dst = [] := by
  rw [path_def, hd]

theorem path_spec (hsrc : src < N) (hadj : ∀ u v, v ∈ adj u → v < N)
    (hne : path N adj w src dst ≠ []) :
    ∃ prev p, Trace prev src dst p ∧ p.Nodup ∧ (∀ x ∈ p, x < N) ∧
      (∀ v u, prev v = some u → v ∈ adj u) ∧ path N adj w src dst = p.reverse := by
  obtain ⟨p, hp, hnd, hlt, heq⟩ := path_trace hsrc hadj fun hd => hne (path_eq_nil hd)
  exact ⟨_, p, hp, hnd, hlt, fun v u hvu => ((inv_final hsrc hadj).prev_spec v u hvu).2, heq⟩

theorem path_head (hsrc : src < N) (hadj : ∀ u v, v ∈ adj u → v < N)
    (hne : path N adj w src dst ≠ []) : (path N adj w src dst).head? = some src := by
  obtain ⟨prev, p, hp, -, -, -, heq⟩ := path_spec hsrc hadj hne
  rw [heq, List.head?_reverse, hp.last]

theorem path_last (hsrc : src < N) (hadj : ∀ u v, v ∈ adj u → v < N)
    (hne : path N adj w src dst ≠ []) : (path N adj w src dst).getLast? = some dst := by
  obtain ⟨prev, p, hp, -, -, -, heq⟩ := path_spec hsrc hadj hne
  rw [heq, List.getLast?_reverse, hp.head]

theorem path_nodup (hsrc : src < N) (hadj : ∀ u v, v ∈ adj u → v < N) :
    (path N adj w src dst).Nodup := by
  by_cases hne : path N adj w src dst = []
  · rw [hne]; exact List.nodup_nil
  · obtain ⟨prev, p, -, hnd, -, -, heq⟩ := path_spec hsrc hadj hne
    rw [heq, List.nodup_reverse]; exact hnd

theorem path_lt (hsrc : src < N) (hadj : ∀ u v, v ∈ adj u → v < N) :
    ∀ x ∈ path N adj w src dst, x < N := by
  by_cases hne : path N adj w src dst = []
  · simp [hne]
  · obtain ⟨prev, p, -, -, hlt, -, heq⟩ := path_spec hsrc hadj hne
    intro x hx
    rw [heq, List.mem_reverse] at hx
    exact hlt x hx

theorem path_chain (hsrc : src < N) (hadj : ∀ u v, v ∈ adj u → v < N) :
    (path N adj w src dst).IsChain (fun a b => b ∈ adj a) := by
  by_cases hne : path N adj w src dst = []
  · rw [hne]; exact .nil
  · obtain ⟨prev, p, hp, -, -, hpa, heq⟩ := path_spec hsrc hadj hne
    rw [heq, List.isChain_reverse]
    exact hp.chain hpa

omit [LinearOrder W] [Add W] in
theorem work_init (src : ℕ) : work N adj (init src : State W) ≤ fuel N adj := by
  simp [work, fuel, init]

theorem path_loop_done (hsrc : src < N) (hadj : ∀ u v, v ∈ adj u → v < N) :
    (loop adj w dst (fuel N adj) (init src)).pq = [] ∨
      (loop adj w dst (fuel N adj) (init src)).visited dst = true :=
  loop_done hadj _ (inv_init hsrc) (work_init src)

theorem loop_fuel (hsrc : src < N) (hadj : ∀ u v, v ∈ adj u → v < N) {n : ℕ}
    (hn : fuel N adj ≤ n) : loop adj w dst n (init src) = final N adj w src dst :=
  loop_of_le hadj (inv_init hsrc) (work_init src) hn

/-- The chain of predecessors ends at the source. -/
theorem follow_final (hsrc : src < N) (hadj : ∀ u v, v ∈ adj u → v < N)
    (hd : (final N adj w src dst).dist dst ≠ none) {n : ℕ} (hn : N ≤ n) :
    follow (final N adj w src dst).prev n dst = (path N adj w src dst).reverse := by
  obtain ⟨p, hp, hnd, hlt, heq⟩ := path_trace hsrc hadj hd
  have hlen : p.length ≤ N := by
    have hsub : p ⊆ List.range N := fun x hx => List.mem_range.2 (hlt x hx)
    simpa using (hnd.subperm hsub).length_le
  rw [heq, List.reverse_reverse, hp.follow_eq n (hlen.trans hn)]

end Loop

end Dijkstra

end V2nLte
