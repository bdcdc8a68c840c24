import Mathlib.Data.Nat.Basic
import Mathlib.Logic.Function.Basic

/-!
# Objects behind pointers

`Heap V` holds the objects made with `new`.  A pointer that has been freed is not given out again,
so that an access through it is always noticed.
-/

namespace V2nLte

/-- Objects by their pointers. -/
structure Heap (V : Type) where
  /-- The objects that are alive. -/
  cells : ℕ → Option V
  /-- The pointer of the next object. -/
  next : ℕ
  /-- No pointer from `next` on is in use. -/
  fresh : ∀ p, next ≤ p → cells p = none

namespace Heap

variable {V : Type} (h : Heap V)

/-- No objects. -/
def empty : Heap V := ⟨fun _ => none, 0, fun _ _ => rfl⟩

/-- `new`; the pointer is `h.next`. -/
def alloc (v : V) : Heap V where
  cells := Function.update h.cells h.next (some v)
  next := h.next + 1
  fresh p hp := by
    rw [Function.update_of_ne (by omega), h.fresh p (by omega)]

/-- Replace an object. -/
def write (p : ℕ) (v : V) : Heap V where
  cells := Function.update h.cells p ((h.cells p).map fun _ => v)
  next := h.next
  fresh q hq := by
    by_cases hqp : q = p
    · subst hqp
      rw [Function.update_self, h.fresh q hq, Option.map_none]
    · rw [Function.update_of_ne hqp, h.fresh q hq]

/-- `delete`. -/
def free (p : ℕ) : Heap V where
  cells := Function.update h.cells p none
  next := h.next
  fresh q hq := by
    by_cases hqp : q = p
    · rw [hqp, Function.update_self]
    · rw [Function.update_of_ne hqp, h.fresh q hq]

/-- There is an object behind the pointer. -/
def Alive (p : ℕ) : Prop := (h.cells p).isSome

variable {h} {p q : ℕ} {v : V}

theorem alloc_cells : (h.alloc v).cells = Function.update h.cells h.next (some v) := rfl

theorem write_cells :
    (h.write p v).cells = Function.update h.cells p ((h.cells p).map fun _ => v) := rfl

theorem free_cells : (h.free p).cells = Function.update h.cells p none := rfl

theorem Alive.lt (hp : h.Alive p) : p < h.next := by
  by_contra hn
  rw [Alive, h.fresh p (not_lt.1 hn)] at hp
  cases hp

theorem Alive.ne_next (hp : h.Alive p) : p ≠ h.next := ne_of_lt hp.lt

theorem alive_alloc_next : (h.alloc v).Alive h.next := by
  rw [Alive, alloc_cells, Function.update_self]
  rfl

theorem Alive.alloc (hp : h.Alive p) : (h.alloc v).Alive p := by
  rw [Alive, alloc_cells, Function.update_of_ne hp.ne_next]
  exact hp

@[simp] theorem alive_write : (h.write p v).Alive q ↔ h.Alive q := by
  rw [Alive, Alive, write_cells]
  by_cases hq : q = p
  · rw [hq, Function.update_self, Option.isSome_map]
  · rw [Function.update_of_ne hq]

theorem Alive.free (hq : h.Alive q) (hne : q ≠ p) : (h.free p).Alive q := by
  rw [Alive, free_cells, Function.update_of_ne hne]
  exact hq

end Heap

end V2nLte
