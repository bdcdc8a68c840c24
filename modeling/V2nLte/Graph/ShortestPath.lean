import V2nLte.Graph.Dijkstra
import Mathlib.Algebra.BigOperators.Group.List.Basic
import Mathlib.Algebra.Order.Monoid.Defs
import Mathlib.Logic.Relation

/-!
# Dijkstra's algorithm finds a shortest path

The costs are in a linearly ordered commutative monoid, and no weight is negative.  The queue may
hold outdated entries, and the loop stops as soon as the target is taken out of it.

The invariant `Opt` says that every unvisited vertex with a distance is queued with exactly this
distance, that no visited vertex is farther away than anything in the queue, and that the edges
out of the visited vertices are relaxed.  So a walk that has not been fully explored passes
through the queue (`Opt.frontier`), and an entry that is popped is as near as any walk to it.

* `path_eq_nil_iff` : no path is returned exactly if the target cannot be reached.
* `cost_path_le` : a path that is returned is as cheap as any walk.
-/

namespace V2nLte

namespace Dijkstra

variable {W : Type*} [AddCommMonoid W]

/-- The cost of a path: the weights of all its vertices except the first. -/
def cost (w : ℕ → W) (p : List ℕ) : W := (p.tail.map w).sum

/-- `v` can be reached by a walk of cost `c`. -/
inductive Walk (adj : ℕ → List ℕ) (w : ℕ → W) (src : ℕ) : ℕ → W → Prop
  | start : Walk adj w src src 0
  | step {u v : ℕ} {c : W} : Walk adj w src u c → v ∈ adj u → Walk adj w src v (c + w v)

variable {N : ℕ} {adj : ℕ → List ℕ} {w : ℕ → W} {src dst u v : ℕ} {c : W} {s : State W}

theorem walk_of_isChain {p : List ℕ} (hhead : p.head? = some src) (hlast : p.getLast? = some v)
    (hp : p.IsChain fun a b => b ∈ adj a) : Walk adj w src v (cost w p) := by
  induction p using List.reverseRecOn generalizing v with
  | nil => cases hhead
  | append_singleton q y ih =>
    obtain rfl : y = v := by simpa using hlast
    cases q with
    | nil =>
      obtain rfl : y = src := by simpa using hhead
      exact .start
    | cons a q =>
      obtain ⟨hq, -, hedge⟩ := List.isChain_append.1 hp
      obtain ⟨z, hz⟩ : ∃ z, (a :: q).getLast? = some z :=
        ⟨_, List.getLast?_eq_getLast_of_ne_nil (by simp)⟩
      have hcost : cost w (a :: q ++ [y]) = cost w (a :: q) + w y := by
        simp [cost]
      rw [hcost]
      exact .step (ih (by simpa using hhead) hz hq) (hedge z hz y rfl)

theorem exists_walk_iff :
    (∃ c, Walk adj w src v c) ↔ Relation.ReflTransGen (fun a b => b ∈ adj a) src v := by
  constructor
  · rintro ⟨c, h⟩
    induction h with
    | start => exact .refl
    | step _ hv ih => exact ih.tail hv
  · intro h
    induction h with
    | refl => exact ⟨0, .start⟩
    | tail _ hv ih =>
      obtain ⟨c, hc⟩ := ih
      exact ⟨_, hc.step hv⟩

/-! ### What distances mean -/

/-- A distance is the cost along the predecessors. -/
structure Priced (w : ℕ → W) (src : ℕ) (s : State W) : Prop where
  src_dist : s.dist src = some 0
  link : ∀ v u, s.prev v = some u → ∃ d, s.dist u = some d ∧ s.dist v = some (d + w v)

theorem Priced.trace_cost (h : Priced w src s) {p : List ℕ} (hp : Trace s.prev src v p) :
    s.dist v = some (cost w p.reverse) := by
  have hsum : s.dist v = some (p.dropLast.map w).sum := by
    induction hp with
    | root => simpa using h.src_dist
    | @link v u p hv hp ih =>
      obtain ⟨d, hd, hvd⟩ := h.link v u hv
      obtain ⟨x, q, rfl⟩ : ∃ x q, p = x :: q := by cases hp <;> exact ⟨_, _, rfl⟩
      rw [ih] at hd
      cases hd
      rw [hvd, List.dropLast_cons_cons, List.map_cons, List.sum_cons, add_comm]
  rw [hsum, cost, List.tail_reverse, List.map_reverse, List.sum_reverse]

/-! ### The invariant -/

variable [LinearOrder W]

instance : Std.Total (Before (W := W)) where
  total a b := by
    unfold Before
    rcases lt_trichotomy a.1 b.1 with h | h | h
    · exact .inl (.inl h)
    · rcases le_total a.2 b.2 with h' | h'
      · exact .inl (.inr ⟨h, h'⟩)
      · exact .inr (.inr ⟨h.symm, h'⟩)
    · exact .inr (.inl h)

instance : IsTrans (W × ℕ) Before where
  trans a b c hab hbc := by
    rcases hab with hab | ⟨hab, hab'⟩ <;> rcases hbc with hbc | ⟨hbc, hbc'⟩
    · exact .inl (hab.trans hbc)
    · exact .inl (hbc ▸ hab)
    · exact .inl (hab ▸ hbc)
    · exact .inr ⟨hab.trans hbc, hab'.trans hbc'⟩

omit [AddCommMonoid W] in
theorem Before.le {a b : W × ℕ} (h : Before a b) : a.1 ≤ b.1 :=
  h.elim le_of_lt fun h => h.1.le

/-- What the main loop keeps while the target is not visited.  `E` holds the edges that have been
relaxed if they leave a visited vertex. -/
structure Opt (E : ℕ → ℕ → Prop) (w : ℕ → W) (src : ℕ) (s : State W) : Prop
    extends Priced w src s where
  sorted : s.pq.Pairwise Before
  queued : ∀ v d, s.visited v = false → s.dist v = some d → (d, v) ∈ s.pq
  /-- An entry may be outdated, but it is never too near. -/
  above : ∀ x ∈ s.pq, ∃ d, s.dist x.2 = some d ∧ d ≤ x.1
  order : ∀ u d, s.visited u = true → s.dist u = some d → ∀ x ∈ s.pq, d ≤ x.1
  relaxed : ∀ u v d, s.visited u = true → E u v → s.dist u = some d →
    ∃ d', s.dist v = some d' ∧ d' ≤ d + w v

variable {E E' : ℕ → ℕ → Prop}

theorem Opt.mono (h : Opt E w src s) (hE : ∀ u v, E' u v → E u v) : Opt E' w src s :=
  { h with relaxed := fun u v d hu he => h.relaxed u v d hu (hE u v he) }

theorem Opt.skip (h : Opt E w src s) {x : W × ℕ} {rest : List (W × ℕ)} (hpq : s.pq = x :: rest)
    (hx : s.visited x.2 = true) : Opt E w src { s with pq := rest } := by
  have hsub : ∀ y ∈ rest, y ∈ s.pq := fun y hy => by rw [hpq]; exact List.mem_cons_of_mem _ hy
  refine { h with
    sorted := (List.pairwise_cons.1 (hpq ▸ h.sorted)).2
    queued := fun v d hv hd => ?_
    above := fun y hy => h.above y (hsub y hy)
    order := fun u d hu hd y hy => h.order u d hu hd y (hsub y hy) }
  have hmem := h.queued v d hv hd
  rw [hpq] at hmem
  rcases List.mem_cons.1 hmem with heq | hmem
  · -- the entry that is dropped is of a visited vertex
    rw [← heq] at hx
    exact absurd (hx.symm.trans hv) (by simp)
  · exact hmem

/-- The entry at the head of the queue, if its vertex is not visited, has the distance of this
vertex. -/
theorem Opt.head_dist (h : Opt E w src s) {d : W} {rest : List (W × ℕ)}
    (hpq : s.pq = (d, u) :: rest) (hu : s.visited u = false) : s.dist u = some d := by
  obtain ⟨d', hd', hle⟩ := h.above (d, u) (by rw [hpq]; exact List.mem_cons_self)
  have hmem := h.queued u d' hu hd'
  rw [hpq] at hmem
  rcases List.mem_cons.1 hmem with heq | hmem
  · cases heq
    exact hd'
  · have hge := ((List.pairwise_cons.1 (hpq ▸ h.sorted)).1 _ hmem).le
    rw [hd', le_antisymm hle hge]

theorem Opt.visit (h : Opt E w src s) {d : W} {rest : List (W × ℕ)}
    (hpq : s.pq = (d, u) :: rest) (hu : s.visited u = false) :
    Opt (fun a b => E a b ∧ a ≠ u) w src (Dijkstra.visit s u rest) := by
  have hsub : ∀ y ∈ rest, y ∈ s.pq := fun y hy => by rw [hpq]; exact List.mem_cons_of_mem _ hy
  have hvis : ∀ a, (Dijkstra.visit s u rest).visited a = true → a = u ∨ s.visited a = true := by
    intro a ha
    by_cases hau : a = u
    · exact .inl hau
    · exact .inr (by simpa [Dijkstra.visit, Function.update_of_ne hau] using ha)
  have hnvis : ∀ a, (Dijkstra.visit s u rest).visited a = false → a ≠ u ∧ s.visited a = false := by
    intro a ha
    by_cases hau : a = u
    · simp [Dijkstra.visit, hau] at ha
    · exact ⟨hau, by simpa [Dijkstra.visit, Function.update_of_ne hau] using ha⟩
  refine
    { src_dist := h.src_dist
      link := h.link
      sorted := (List.pairwise_cons.1 (hpq ▸ h.sorted)).2
      queued := fun v d' hv hd' => ?_
      above := fun y hy => h.above y (hsub y hy)
      order := fun a da ha hda y hy => ?_
      relaxed := fun a b da ha hE hda => ?_ }
  · obtain ⟨hvu, hv⟩ := hnvis v hv
    have hmem := h.queued v d' hv hd'
    rw [hpq] at hmem
    rcases List.mem_cons.1 hmem with heq | hmem
    · exact absurd (congrArg Prod.snd heq) hvu
    · exact hmem
  · rcases hvis a ha with rfl | ha
    · have hda : s.dist a = some da := hda
      rw [h.head_dist hpq hu] at hda
      cases hda
      exact ((List.pairwise_cons.1 (hpq ▸ h.sorted)).1 y hy).le
    · exact h.order a da ha hda y (hsub y hy)
  · rcases hvis a ha with rfl | ha
    · exact absurd rfl hE.2
    · exact h.relaxed a b da ha hE.1 hda

/-! ### Relaxing edges -/

/-- What a relaxation of an edge out of `u` does, if `u` has the distance `d`. -/
theorem relax_spec {d : W} (hd : s.dist u = some d) (v : ℕ) :
    relax w u s v = s ∧ (s.visited v = true ∨ ∃ d', s.dist v = some d' ∧ d' ≤ d + w v) ∨
    s.visited v = false ∧ (∀ d', s.dist v = some d' → d + w v < d') ∧
      relax w u s v = { s with
        dist := Function.update s.dist v (some (d + w v))
        prev := Function.update s.prev v (some u)
        pq := s.pq.orderedInsert Before (d + w v, v) } := by
  unfold relax
  split <;> rename_i hv
  · exact .inl ⟨rfl, .inl hv⟩
  rw [hd]
  dsimp only
  have hv : s.visited v = false := by simpa using hv
  cases hdv : s.dist v with
  | none => exact .inr ⟨hv, fun _ h => (nomatch h), by simp [improves]⟩
  | some d' =>
    by_cases hlt : d + w v < d'
    · refine .inr ⟨hv, fun _ h => ?_, by simp [improves, hlt]⟩
      cases h
      exact hlt
    · exact .inl ⟨by simp [improves, hlt], .inr ⟨d', rfl, not_lt.1 hlt⟩⟩

/-- `u` has just been visited: it has the distance `d`, and no visited vertex is farther away. -/
structure Newest (s : State W) (u : ℕ) (d : W) : Prop where
  visited : s.visited u = true
  dist : s.dist u = some d
  max : ∀ a da, s.visited a = true → s.dist a = some da → da ≤ d

theorem Newest.relax {d : W} (h : Newest s u d) (v : ℕ) : Newest (Dijkstra.relax w u s v) u d := by
  rcases relax_spec (w := w) h.dist v with ⟨heq, -⟩ | ⟨hv, -, heq⟩
  · rw [heq]
    exact h
  · -- only the distance of an unvisited vertex changes
    have hne : ∀ a, s.visited a = true → a ≠ v := by
      rintro a ha rfl
      rw [hv] at ha
      cases ha
    rw [heq]
    refine ⟨h.visited, ?_, fun a da ha hda => ?_⟩
    · simpa [Function.update_of_ne (hne u h.visited)] using h.dist
    · dsimp only at hda
      rw [Function.update_of_ne (hne a ha)] at hda
      exact h.max a da ha hda

variable [IsOrderedAddMonoid W]

/-- **One relaxation.** -/
theorem Opt.relax {d : W} (h : Opt E w src s) (hinv : Inv N adj src s) (hnew : Newest s u d)
    (hw : 0 ≤ w v) : Opt (fun a b => E a b ∨ a = u ∧ b = v) w src (Dijkstra.relax w u s v) := by
  rcases relax_spec (w := w) hnew.dist v with ⟨heq, hv⟩ | ⟨hv, hlt, heq⟩
  · rw [heq]
    refine { h with relaxed := fun a b da ha hE hda => ?_ }
    rcases hE with hE | ⟨rfl, rfl⟩
    · exact h.relaxed a b da ha hE hda
    rw [hnew.dist] at hda
    cases hda
    rcases hv with hv | hv
    · obtain ⟨d', hd'⟩ := Option.ne_none_iff_exists'.1 (hinv.visited_dist b hv)
      exact ⟨d', hd', (hnew.max b d' hv hd').trans (le_add_of_nonneg_right hw)⟩
    · exact hv
  have hne : ∀ a, s.visited a = true → a ≠ v := by
    rintro a ha rfl
    rw [hv] at ha
    cases ha
  have hsrc : src ≠ v := hne src (hinv.visited_src hnew.visited)
  have hdist : ∀ a, a ≠ v → Function.update s.dist v (some (d + w v)) a = s.dist a :=
    fun a ha => Function.update_of_ne ha _ _
  -- no distance grows
  have hle : ∀ a da, s.dist a = some da →
      ∃ d', Function.update s.dist v (some (d + w v)) a = some d' ∧ d' ≤ da := by
    intro a da hda
    by_cases hav : a = v
    · subst hav
      exact ⟨_, Function.update_self .., (hlt da hda).le⟩
    · exact ⟨da, (hdist a hav).trans hda, le_rfl⟩
  rw [heq]
  refine
    { src_dist := (hdist src hsrc).trans h.src_dist
      link := fun x y hxy => ?_
      sorted := h.sorted.orderedInsert _ _
      queued := fun x dx hx hdx => ?_
      above := fun x hx => ?_
      order := fun a da ha hda x hx => ?_
      relaxed := fun a b da ha hE hda => ?_ }
  · dsimp only at hxy ⊢
    by_cases hxv : x = v
    · subst hxv
      rw [Function.update_self] at hxy
      cases hxy
      exact ⟨d, (hdist u (hne u hnew.visited)).trans hnew.dist, Function.update_self ..⟩
    · rw [Function.update_of_ne hxv] at hxy
      obtain ⟨dy, hdy, hdx⟩ := h.link x y hxy
      have hy := (hinv.prev_spec x y hxy).1
      exact ⟨dy, (hdist y (hne y hy)).trans hdy, (hdist x hxv).trans hdx⟩
  · dsimp only at hdx ⊢
    rw [List.mem_orderedInsert]
    by_cases hxv : x = v
    · subst hxv
      rw [Function.update_self] at hdx
      cases hdx
      exact .inl rfl
    · exact .inr (h.queued x dx hx ((hdist x hxv).symm.trans hdx))
  · rcases (List.mem_orderedInsert _).1 hx with rfl | hx
    · exact ⟨_, Function.update_self .., le_rfl⟩
    · obtain ⟨dx, hdx, hlex⟩ := h.above x hx
      obtain ⟨d', hd', hle'⟩ := hle x.2 dx hdx
      exact ⟨d', hd', hle'.trans hlex⟩
  · have hda : s.dist a = some da := (hdist a (hne a ha)).symm.trans hda
    rcases (List.mem_orderedInsert _).1 hx with rfl | hx
    · exact (hnew.max a da ha hda).trans (le_add_of_nonneg_right hw)
    · exact h.order a da ha hda x hx
  · have hold : s.dist a = some da := (hdist a (hne a ha)).symm.trans hda
    rcases hE with hE | ⟨rfl, rfl⟩
    · obtain ⟨db, hdb, hleb⟩ := h.relaxed a b da ha hE hold
      obtain ⟨d', hd', hle'⟩ := hle b db hdb
      exact ⟨d', hd', hle'.trans hleb⟩
    · obtain rfl : d = da := Option.some.inj (hnew.dist.symm.trans hold)
      exact ⟨_, Function.update_self .., le_rfl⟩

/-- All the edges out of a vertex. -/
theorem Opt.foldl_relax {d : W} (l : List ℕ) (h : Opt E w src s) (hinv : Inv N adj src s)
    (hnew : Newest s u d) (hl : ∀ v ∈ l, v ∈ adj u) (hN : ∀ v ∈ adj u, v < N)
    (hw : ∀ v ∈ adj u, 0 ≤ w v) :
    Opt (fun a b => E a b ∨ a = u ∧ b ∈ l) w src (l.foldl (Dijkstra.relax w u) s) := by
  induction l generalizing s E with
  | nil =>
    refine h.mono fun a b hE => ?_
    rcases hE with hE | ⟨-, hb⟩
    · exact hE
    · cases hb
  | cons v l ih =>
    have hv : v ∈ adj u := hl v List.mem_cons_self
    refine (ih (h.relax hinv hnew (hw v hv)) (hinv.relax hnew.visited hv (hN v hv)) (hnew.relax v)
      fun x hx => hl x (List.mem_cons_of_mem _ hx)).mono fun a b hE => ?_
    rcases hE with hE | ⟨ha, hb⟩
    · exact .inl (.inl hE)
    · rcases List.mem_cons.1 hb with hb | hb
      · exact .inl (.inr ⟨ha, hb⟩)
      · exact .inr ⟨ha, hb⟩

/-! ### The main loop -/

/-- **A walk passes through the queue.**  Its end is visited and no farther than the walk is long,
or something unvisited in the queue is no farther than that. -/
theorem Opt.frontier (h : Opt (fun a b => b ∈ adj a) w src s) (hinv : Inv N adj src s)
    (hw : ∀ a, ∀ b ∈ adj a, 0 ≤ w b) (hwalk : Walk adj w src v c) :
    (s.visited v = true → ∃ d, s.dist v = some d ∧ d ≤ c) ∧
      (s.visited v = false → ∃ x ∈ s.pq, s.visited x.2 = false ∧ x.1 ≤ c) := by
  induction hwalk with
  | start => exact ⟨fun _ => ⟨0, h.src_dist, le_rfl⟩,
      fun hv => ⟨_, h.queued src 0 hv h.src_dist, hv, le_rfl⟩⟩
  | @step u v c hu hv ih =>
    have hcw : c ≤ c + w v := le_add_of_nonneg_right (hw u v hv)
    cases hvis : s.visited u with
    | false =>
      obtain ⟨x, hx, hxv, hxc⟩ := ih.2 hvis
      refine ⟨fun hvv => ?_, fun _ => ⟨x, hx, hxv, hxc.trans hcw⟩⟩
      obtain ⟨d, hd⟩ := Option.ne_none_iff_exists'.1 (hinv.visited_dist v hvv)
      exact ⟨d, hd, (h.order v d hvv hd x hx).trans (hxc.trans hcw)⟩
    | true =>
      obtain ⟨d, hd, hdc⟩ := ih.1 hvis
      obtain ⟨d', hd', hle⟩ := h.relaxed u v d hvis hv hd
      have hle' : d' ≤ c + w v := hle.trans (add_le_add_left hdc (w v))
      exact ⟨fun _ => ⟨d', hd', hle'⟩, fun hvv => ⟨_, h.queued v d' hvv hd', hvv, hle'⟩⟩

/-- The loop has been left with the target visited, or it still goes on. -/
structure Result (adj : ℕ → List ℕ) (w : ℕ → W) (src dst : ℕ) (s : State W) : Prop
    extends Priced w src s where
  found : s.visited dst = true → ∃ d, s.dist dst = some d ∧ ∀ c, Walk adj w src dst c → d ≤ c
  searching : s.visited dst = false → Opt (fun a b => b ∈ adj a) w src s

theorem Opt.loop (h : Opt (fun a b => b ∈ adj a) w src s) (hinv : Inv N adj src s)
    (hdst : s.visited dst = false) (hadj : ∀ a, ∀ b ∈ adj a, b < N)
    (hw : ∀ a, ∀ b ∈ adj a, 0 ≤ w b) (n : ℕ) :
    Result adj w src dst (Dijkstra.loop adj w dst n s) := by
  have hstop : ∀ {s : State W}, Opt (fun a b => b ∈ adj a) w src s → s.visited dst = false →
      Result adj w src dst s := fun h hdst =>
    ⟨h.toPriced, fun hv => (nomatch hv.symm.trans hdst), fun _ => h⟩
  -- a visited vertex is skipped, the target ends the search, any other vertex is relaxed
  induction n generalizing s with
  | zero => exact hstop h hdst
  | succ n ih =>
    unfold Dijkstra.loop
    split
    · exact hstop h hdst
    · rename_i d u rest hpq
      split_ifs with hu hd
      · exact ih (h.skip hpq hu) (hinv.skip hpq) hdst
      · -- the target is popped, and every walk to it passes through the rest of the queue
        subst hd
        have hv := h.visit hpq hdst
        refine ⟨hv.toPriced, fun _ => ⟨d, h.head_dist hpq hdst, fun c hc => ?_⟩, fun hn => ?_⟩
        · obtain ⟨x, hx, -, hxc⟩ := (h.frontier hinv hw hc).2 hdst
          rw [hpq] at hx
          rcases List.mem_cons.1 hx with rfl | hx
          · exact hxc
          · exact (((List.pairwise_cons.1 (hpq ▸ h.sorted)).1 x hx).le).trans hxc
        · simp [Dijkstra.visit] at hn
      · -- a vertex is settled; its neighbours are relaxed next
        have hu : s.visited u = false := by simpa using hu
        have hvis : (Dijkstra.visit s u rest).visited u = true := by simp [Dijkstra.visit]
        have hnew : Newest (Dijkstra.visit s u rest) u d := by
          refine ⟨hvis, h.head_dist hpq hu, fun a da ha hda => ?_⟩
          by_cases hau : a = u
          · subst hau
            exact (Option.some.inj (hda.symm.trans (h.head_dist hpq hu))).le
          · have ha : s.visited a = true := by
              simpa [Dijkstra.visit, Function.update_of_ne hau] using ha
            exact h.order a da ha hda (d, u) (by rw [hpq]; exact List.mem_cons_self)
        have hopt := (h.visit hpq hu).foldl_relax (adj u) (hinv.visit hpq hu) hnew (fun _ h => h)
          (hadj u) (hw u)
        refine ih (hopt.mono fun a b hab => ?_)
          ((hinv.visit hpq hu).foldl_relax (adj u) hvis (fun _ h => h) (hadj u)) ?_
        · by_cases hau : a = u
          · subst hau
            exact .inr ⟨rfl, hab⟩
          · exact .inl ⟨hab, hau⟩
        · rw [foldl_relax_visited]
          simpa [Dijkstra.visit, Function.update_of_ne (Ne.symm hd)] using hdst

/-! ### The path -/

omit [IsOrderedAddMonoid W] in
theorem opt_init : Opt (fun a b => b ∈ adj a) w src (init src : State W) where
  src_dist := by simp [init]
  link v u h := nomatch h
  sorted := List.pairwise_singleton _ _
  queued v d _ hd := by
    by_cases hv : v = src
    · subst hv
      obtain rfl : 0 = d := by simpa [init] using hd
      exact List.mem_singleton_self _
    · simp [init, hv] at hd
  above x hx := by
    obtain rfl := List.mem_singleton.1 hx
    exact ⟨0, by simp [init], le_rfl⟩
  order u d hu := nomatch hu
  relaxed u v d hu := nomatch hu

/-- The graph has no edge out of the vertex range and no negative weight. -/
structure Valid (N : ℕ) (adj : ℕ → List ℕ) (w : ℕ → W) (src : ℕ) : Prop where
  src_lt : src < N
  lt : ∀ u, ∀ v ∈ adj u, v < N
  nonneg : ∀ v < N, 0 ≤ w v

theorem Valid.result (h : Valid N adj w src) (dst : ℕ) :
    Result adj w src dst (final N adj w src dst) :=
  opt_init.loop (inv_init h.src_lt) rfl h.lt (fun u v hv => h.nonneg v (h.lt u v hv)) _

omit [IsOrderedAddMonoid W] in
theorem Valid.done (h : Valid N adj w src) (dst : ℕ) :
    (final N adj w src dst).pq = [] ∨ (final N adj w src dst).visited dst = true :=
  path_loop_done h.src_lt h.lt

theorem Valid.visited_iff (h : Valid N adj w src) (dst : ℕ) :
    (final N adj w src dst).visited dst = true ↔ ∃ c, Walk adj w src dst c := by
  have hinv : Inv N adj src (final N adj w src dst) := inv_final h.src_lt h.lt
  constructor
  · intro hv
    obtain ⟨p, hp, -, -, heq⟩ := path_trace h.src_lt h.lt (hinv.visited_dist dst hv)
    refine ⟨_, walk_of_isChain (p := p.reverse) ?_ ?_ ?_⟩
    · rw [List.head?_reverse, hp.last]
    · rw [List.getLast?_reverse, hp.head]
    · rw [List.isChain_reverse]
      exact hp.chain fun v u hvu => (hinv.prev_spec v u hvu).2
  · rintro ⟨c, hc⟩
    by_contra hv
    have hv : (final N adj w src dst).visited dst = false := by simpa using hv
    have hopt := (h.result dst).searching hv
    obtain ⟨x, hx, -, -⟩ := (hopt.frontier hinv
      (fun u v hv => h.nonneg v (h.lt u v hv)) hc).2 hv
    rcases h.done dst with hnil | hdone
    · exact nomatch hnil ▸ hx
    · exact nomatch hdone.symm.trans hv

/-- A distance of the target is only ever final. -/
theorem Valid.dist_iff (h : Valid N adj w src) (dst : ℕ) :
    (final N adj w src dst).dist dst ≠ none ↔ (final N adj w src dst).visited dst = true := by
  constructor
  · intro hd
    by_contra hv
    have hv : (final N adj w src dst).visited dst = false := by simpa using hv
    obtain ⟨d, hd⟩ := Option.ne_none_iff_exists'.1 hd
    have hmem := ((h.result dst).searching hv).queued dst d hv hd
    rcases h.done dst with hnil | hdone
    · exact nomatch hnil ▸ hmem
    · exact nomatch hdone.symm.trans hv
  · exact (inv_final h.src_lt h.lt).visited_dist dst

/-- **No path is returned exactly if the target cannot be reached.** -/
theorem Valid.path_eq_nil_iff (h : Valid N adj w src) :
    path N adj w src dst = [] ↔ ¬Relation.ReflTransGen (fun a b => b ∈ adj a) src dst := by
  rw [← exists_walk_iff (w := w), ← h.visited_iff dst, ← h.dist_iff dst, not_not]
  constructor
  · intro hnil
    by_contra hd
    obtain ⟨p, hp, -, -, heq⟩ := path_trace h.src_lt h.lt hd
    rw [hnil] at heq
    have hp0 : p = [] := List.reverse_eq_nil_iff.1 heq.symm
    have := hp.src_mem
    rw [hp0] at this
    cases this
  · exact path_eq_nil

/-- **A path that is returned is as cheap as any walk.** -/
theorem Valid.cost_path_le (h : Valid N adj w src) (hc : Walk adj w src dst c) :
    cost w (path N adj w src dst) ≤ c := by
  have hv := (h.visited_iff dst).2 ⟨c, hc⟩
  obtain ⟨d, hd, hmin⟩ := (h.result dst).found hv
  obtain ⟨p, hp, -, -, heq⟩ := path_trace h.src_lt h.lt ((h.dist_iff dst).2 hv)
  rw [(h.result dst).toPriced.trace_cost hp] at hd
  rw [heq]
  exact (Option.some.inj hd) ▸ hmin c hc

end Dijkstra

end V2nLte
