import Mathlib.Data.List.Nodup
import Mathlib.Data.List.Perm.Basic
import Mathlib.Order.Lattice

/-!
# Multimaps with iterators

A `std::multimap` keeps its elements in the order of their keys; an element with a key that is
there already comes after those that have it.  An element keeps its address as long as it is there,
so that the address can be used as an iterator.

* `Wf.insert`, `Wf.erase` : the operations keep the order, and every element its own address.
* `insert_perm`, `Wf.erase_perm` : what is there afterwards.
-/

namespace V2nLte

variable {K V : Type}

/-- An element of a multimap. -/
structure MapNode (K V : Type) where
  /-- Where the element is. -/
  addr : ℕ
  /-- Its key. -/
  key : K
  /-- Its value. -/
  value : V
  deriving DecidableEq

/-- A multimap; `fresh` is the address of the next element. -/
structure Multimap (K V : Type) where
  /-- The elements, in the order of their keys. -/
  nodes : List (MapNode K V) := []
  /-- The address of the next element. -/
  fresh : ℕ := 0
  deriving DecidableEq

namespace Multimap

/-- Erase the element that an iterator points to. -/
def erase (d : Multimap K V) (a : ℕ) : Multimap K V :=
  { d with nodes := d.nodes.filter fun n => n.addr ≠ a }

variable {d : Multimap K V} {n m : MapNode K V} {k : K} {v : V} {a : ℕ}

theorem mem_erase : n ∈ (d.erase a).nodes ↔ n ∈ d.nodes ∧ n.addr ≠ a := by
  simp [erase]

/-- An iterator to another element leaves the first one where it is. -/
theorem head?_erase {l : List (MapNode K V)} (hd : d.nodes = n :: l) (ha : n.addr ≠ a) :
    (d.erase a).nodes.head? = some n := by
  rw [erase, hd, List.filter_cons_of_pos (by simpa using ha)]
  rfl

variable [LinearOrder K]

/-- The place of an element is before the first one with a larger key. -/
def place (n : MapNode K V) : List (MapNode K V) → List (MapNode K V)
  | [] => [n]
  | m :: l => if n.key < m.key then n :: m :: l else m :: place n l

/-- The element that an `insert` adds. -/
def added (d : Multimap K V) (k : K) (v : V) : MapNode K V := ⟨d.fresh, k, v⟩

/-- A new element, after those with the same key. -/
def insert (d : Multimap K V) (k : K) (v : V) : Multimap K V :=
  ⟨place (d.added k v) d.nodes, d.fresh + 1⟩

/-- The keys are in their order, and no two elements have the same address. -/
structure Wf (d : Multimap K V) : Prop where
  sorted : d.nodes.Pairwise fun n m => n.key ≤ m.key
  nodup : (d.nodes.map MapNode.addr).Nodup
  lt_fresh : ∀ n ∈ d.nodes, n.addr < d.fresh

theorem wf_empty : Wf ({} : Multimap K V) := ⟨.nil, .nil, nofun⟩

theorem place_perm (n : MapNode K V) (l : List (MapNode K V)) : (place n l).Perm (n :: l) := by
  induction l with
  | nil => exact .refl _
  | cons m l ih =>
    rw [place]
    split
    · exact .refl _
    · exact (ih.cons m).trans (.swap n m l)

theorem insert_perm (d : Multimap K V) (k : K) (v : V) :
    (d.insert k v).nodes.Perm (d.added k v :: d.nodes) := place_perm _ _

theorem mem_insert : n ∈ (d.insert k v).nodes ↔ n = d.added k v ∨ n ∈ d.nodes := by
  rw [(insert_perm d k v).mem_iff, List.mem_cons]

theorem nodes_insert_nil (hd : d.nodes = []) (k : K) (v : V) :
    (d.insert k v).nodes = [d.added k v] := by
  rw [insert, hd]
  rfl

/-- An element with a smaller key than the first one becomes the first one. -/
theorem head?_insert_of_lt {l : List (MapNode K V)} (hd : d.nodes = m :: l) (hk : k < m.key)
    (v : V) : (d.insert k v).nodes.head? = some (d.added k v) := by
  have hplace : place (d.added k v) (m :: l) = d.added k v :: m :: l := if_pos hk
  rw [insert, hd, hplace]
  rfl

/-- Another one leaves the first one where it is. -/
theorem head?_insert_of_le {l : List (MapNode K V)} (hd : d.nodes = m :: l) (hk : m.key ≤ k)
    (v : V) : (d.insert k v).nodes.head? = some m := by
  have hplace : place (d.added k v) (m :: l) = m :: place (d.added k v) l := if_neg (not_lt.2 hk)
  rw [insert, hd, hplace]
  rfl

theorem place_sorted {l : List (MapNode K V)} (h : l.Pairwise fun n m => n.key ≤ m.key) :
    (place n l).Pairwise fun n m => n.key ≤ m.key := by
  induction l with
  | nil => exact List.pairwise_singleton _ _
  | cons m l ih =>
    obtain ⟨hm, hl⟩ := List.pairwise_cons.1 h
    rw [place]
    split
    · rename_i hlt
      refine List.pairwise_cons.2 ⟨fun x hx => ?_, h⟩
      rcases List.mem_cons.1 hx with rfl | hx
      · exact hlt.le
      · exact hlt.le.trans (hm x hx)
    · rename_i hle
      refine List.pairwise_cons.2 ⟨fun x hx => ?_, ih hl⟩
      rcases List.mem_cons.1 ((place_perm n l).subset hx) with rfl | hx
      · exact not_lt.1 hle
      · exact hm x hx

/-- An element whose key is not smaller than the others comes last. -/
theorem place_of_le {l : List (MapNode K V)} (h : ∀ m ∈ l, m.key ≤ n.key) :
    place n l = l ++ [n] := by
  induction l with
  | nil => rfl
  | cons m l ih =>
    rw [place, if_neg (not_lt.2 (h m List.mem_cons_self)),
      ih fun x hx => h x (List.mem_cons_of_mem m hx)]
    rfl

theorem Wf.insert (h : d.Wf) (k : K) (v : V) : (d.insert k v).Wf where
  sorted := place_sorted h.sorted
  nodup := by
    rw [((insert_perm d k v).map MapNode.addr).nodup_iff, List.map_cons, List.nodup_cons]
    refine ⟨fun hmem => ?_, h.nodup⟩
    obtain ⟨n, hn, heq⟩ := List.mem_map.1 hmem
    exact Nat.ne_of_lt (h.lt_fresh n hn) heq
  lt_fresh n hn := by
    rcases mem_insert.1 hn with rfl | hn
    · exact Nat.lt_succ_self _
    · exact Nat.lt_succ_of_lt (h.lt_fresh n hn)

theorem Wf.erase (h : d.Wf) (a : ℕ) : (d.erase a).Wf where
  sorted := h.sorted.filter _
  nodup := h.nodup.sublist (List.filter_sublist.map _)
  lt_fresh n hn := h.lt_fresh n (mem_erase.1 hn).1

/-- An element is known by its address. -/
theorem Wf.eq_of_addr (h : d.Wf) (hn : n ∈ d.nodes) (hm : m ∈ d.nodes)
    (heq : n.addr = m.addr) : n = m := List.inj_on_of_nodup_map h.nodup hn hm heq

/-- An iterator to `n` erases `n` and nothing else. -/
theorem Wf.erase_perm (h : d.Wf) (hn : n ∈ d.nodes) :
    d.nodes.Perm (n :: (d.erase n.addr).nodes) := by
  have hnodup : (n :: (d.erase n.addr).nodes).Nodup :=
    List.nodup_cons.2 ⟨fun hmem => (mem_erase.1 hmem).2 rfl, (h.nodup.of_map _).filter _⟩
  rw [List.perm_ext_iff_of_nodup (h.nodup.of_map _) hnodup]
  intro m
  rw [List.mem_cons, mem_erase]
  constructor
  · intro hm
    by_cases heq : m.addr = n.addr
    · exact .inl (h.eq_of_addr hm hn heq)
    · exact .inr ⟨hm, heq⟩
  · rintro (rfl | ⟨hm, -⟩)
    · exact hn
    · exact hm

/-- The first element has the smallest key. -/
theorem Wf.le_of_head {l : List (MapNode K V)} (h : d.Wf) (hd : d.nodes = n :: l)
    (hm : m ∈ d.nodes) : n.key ≤ m.key := by
  have hsorted := h.sorted
  rw [hd] at hsorted hm
  rcases List.mem_cons.1 hm with rfl | hm
  · exact le_refl _
  · exact (List.pairwise_cons.1 hsorted).1 m hm

end Multimap

end V2nLte
