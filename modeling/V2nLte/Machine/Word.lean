import Mathlib.Algebra.Order.Ring.Int

/-!
# Machine words

Unsigned numbers of 8 and 32 bits are natural numbers below `2 ^ 8` and `2 ^ 32`; the operations
that can leave the range are written with these functions.
-/

namespace V2nLte

/-- An `unsigned char`. -/
def u8 (n : ℕ) : ℕ := n % 256

/-- An `unsigned int`. -/
def u32 (n : ℕ) : ℕ := n % 4294967296

/-- The difference of two `unsigned int`s. -/
def sub32 (a b : ℕ) : ℕ := u32 (a + (4294967296 - u32 b))

/-- An `unsigned int` read as an `int`. -/
def i32 (n : ℕ) : ℤ := if u32 n < 2147483648 then u32 n else (u32 n : ℤ) - 4294967296

/-- An `int` converted to an `unsigned int`. -/
def ofInt32 (z : ℤ) : ℕ := (z % 4294967296).toNat

theorem u8_of_lt {n : ℕ} (h : n < 256) : u8 n = n := Nat.mod_eq_of_lt h

theorem u32_lt (n : ℕ) : u32 n < 4294967296 := Nat.mod_lt _ (by decide)

theorem u32_of_lt {n : ℕ} (h : n < 4294967296) : u32 n = n := Nat.mod_eq_of_lt h

theorem sub32_of_le {a b : ℕ} (hab : b ≤ a) (ha : a < 4294967296) : sub32 a b = a - b := by
  unfold sub32 u32
  omega

theorem i32_of_lt {n : ℕ} (h : n < 2147483648) : i32 n = n := by
  unfold i32
  rw [u32_of_lt (by omega), if_pos h]

theorem i32_lt (n : ℕ) : i32 n < 2147483648 := by
  have hlt := u32_lt n
  unfold i32
  split
  · omega
  · omega

theorem i32_neg {n : ℕ} (h : 2147483648 ≤ n) (h' : n < 4294967296) : i32 n < 0 := by
  unfold i32
  rw [u32_of_lt h', if_neg (by omega)]
  omega

theorem ofInt32_i32 (n : ℕ) : ofInt32 (i32 n) = u32 n := by
  have h := u32_lt n
  unfold ofInt32 i32
  split <;> omega

/-- A byte can be `0`. -/
instance (priority := 2000) neZero_byte : NeZero 256 := ⟨by decide⟩

/-- An `unsigned short` can be `0`. -/
instance (priority := 2000) neZero_short : NeZero 65536 := ⟨by decide⟩

/-! The sizes of windows and packets that stand in several modules. -/

theorem one_lt_int : 1 < 2147483648 := by decide

theorem two_lt_int : 2 < 2147483648 := by decide

theorem sixteen_lt_int : 16 < 2147483648 := by decide

end V2nLte
