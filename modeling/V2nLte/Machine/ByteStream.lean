import Mathlib.Data.Nat.ModEq
import V2nLte.Machine.Word

/-!
# Byte streams

Numbers are written into a memory stream with the most significant byte first.  A reader takes
the stream and returns what it has read and the rest of the stream; beyond the end it reads zeros.

* `readBe_writeBe` : a number is read back, modulo the width it was written with.
* `readMany_flatMap` : a sequence is read back if each of its elements is.
* `Codec k read write` : reading and writing of a value of `k` octets undo each other, both ways;
  `Codec.pair`, `Codec.many` and `Codec.equiv` build codecs from codecs.
-/

namespace V2nLte

/-- An octet. -/
abbrev Byte := Fin 256

namespace ByteStream

variable {α : Type*}

/-- The lowest octet of a number. -/
def octet (n : ℕ) : Byte := Fin.ofNat 256 n

/-- Read one octet. -/
def readByte : List Byte → Byte × List Byte
  | [] => (0, [])
  | b :: bs => (b, bs)

/-- Write a number of `k` octets. -/
def writeBe : ℕ → ℕ → List Byte
  | 0, _ => []
  | k + 1, n => octet (n / 256 ^ k) :: writeBe k n

/-- Read a number of `k` octets. -/
def readBe : ℕ → List Byte → ℕ × List Byte
  | 0, bs => (0, bs)
  | k + 1, bs =>
    let b := readByte bs
    let low := readBe k b.2
    (b.1 * 256 ^ k + low.1, low.2)

/-- Read `n` elements one after the other. -/
def readMany (read : List Byte → α × List Byte) : ℕ → List Byte → List α × List Byte
  | 0, bs => ([], bs)
  | n + 1, bs =>
    let a := read bs
    let as := readMany read n a.2
    (a.1 :: as.1, as.2)

@[simp] theorem readByte_cons {b : Byte} {bs : List Byte} : readByte (b :: bs) = (b, bs) := rfl

@[simp] theorem length_writeBe (k n : ℕ) : (writeBe k n).length = k := by
  induction k with
  | zero => rfl
  | succ k ih => rw [writeBe, List.length_cons, ih]

theorem readBe_lt (k : ℕ) (bs : List Byte) : (readBe k bs).1 < 256 ^ k := by
  induction k generalizing bs with
  | zero => exact Nat.one_pos
  | succ k ih =>
    have hb : (readByte bs).1.val * 256 ^ k ≤ 255 * 256 ^ k :=
      Nat.mul_le_mul_right _ (Nat.le_of_lt_succ (readByte bs).1.isLt)
    have hlow := ih (readByte bs).2
    simp only [readBe, pow_succ]
    omega

/-- What does not fit into the width is lost. -/
theorem readBe_writeBe (k n : ℕ) (rest : List Byte) :
    readBe k (writeBe k n ++ rest) = (n % 256 ^ k, rest) := by
  induction k with
  | zero => simp only [writeBe, readBe, List.nil_append, pow_zero, Nat.mod_one]
  | succ k ih =>
    have hmod : n / 256 ^ k % 256 * 256 ^ k + n % 256 ^ k = n % 256 ^ (k + 1) := by
      rw [pow_succ, Nat.mod_mul, Nat.mul_comm, Nat.add_comm]
    simp only [writeBe, readBe, List.cons_append, readByte_cons, ih, octet, Fin.val_ofNat, hmod]

theorem readBe_writeBe_of_lt {k n : ℕ} (h : n < 256 ^ k) (rest : List Byte) :
    readBe k (writeBe k n ++ rest) = (n, rest) := by
  rw [readBe_writeBe, Nat.mod_eq_of_lt h]

theorem length_readMany (read : List Byte → α × List Byte) (n : ℕ) (bs : List Byte) :
    (readMany read n bs).1.length = n := by
  induction n generalizing bs with
  | zero => rfl
  | succ n ih => rw [readMany, List.length_cons, ih]

theorem readMany_flatMap {read : List Byte → α × List Byte} {write : α → List Byte} {as : List α}
    (h : ∀ a ∈ as, ∀ rest, read (write a ++ rest) = (a, rest)) (rest : List Byte) :
    readMany read as.length (as.flatMap write ++ rest) = (as, rest) := by
  induction as with
  | nil => rfl
  | cons a as ih =>
    have ha := h a List.mem_cons_self (as.flatMap write ++ rest)
    have has := ih fun b hb => h b (List.mem_cons_of_mem a hb)
    simp only [List.flatMap_cons, List.append_assoc, List.length_cons, readMany, ha, has]

/-! ### Codecs -/

theorem writeBe_mod (k n : ℕ) : writeBe k (n % 256 ^ k) = writeBe k n := by
  induction k generalizing n with
  | zero => rfl
  | succ k ih =>
    have hdvd : n % 256 ^ (k + 1) % 256 ^ k = n % 256 ^ k :=
      Nat.mod_mod_of_dvd n (pow_dvd_pow 256 k.le_succ)
    have hdiv : n % 256 ^ (k + 1) / 256 ^ k = n / 256 ^ k % 256 := by
      rw [pow_succ, Nat.mod_mul_right_div_self]
    have hoctet : octet (n / 256 ^ k % 256) = octet (n / 256 ^ k) := Fin.ext (Nat.mod_mod _ _)
    rw [writeBe, writeBe, hdiv, hoctet, ← ih (n % 256 ^ (k + 1)), hdvd, ih]

/-- What has been read is what stood in the stream. -/
theorem writeBe_readBe {k : ℕ} {bs : List Byte} (h : k ≤ bs.length) :
    writeBe k (readBe k bs).1 ++ (readBe k bs).2 = bs := by
  induction k generalizing bs with
  | zero => rfl
  | succ k ih =>
    cases bs with
    | nil => cases h
    | cons b bs =>
      have hlow := readBe_lt k bs
      have hdiv : (b.val * 256 ^ k + (readBe k bs).1) / 256 ^ k = b := by
        rw [Nat.add_comm, Nat.add_mul_div_right _ _ (Nat.pow_pos (by decide)),
          Nat.div_eq_of_lt hlow, Nat.zero_add]
      have hmod : (b.val * 256 ^ k + (readBe k bs).1) % 256 ^ k = (readBe k bs).1 := by
        rw [Nat.mul_comm, Nat.mul_add_mod, Nat.mod_eq_of_lt hlow]
      have hwrite : writeBe k (b.val * 256 ^ k + (readBe k bs).1) = writeBe k (readBe k bs).1 := by
        rw [← writeBe_mod, hmod]
      have hb : octet b.val = b := Fin.ext (Nat.mod_eq_of_lt b.isLt)
      simp only [readBe, readByte_cons, writeBe, hdiv, hwrite, hb, List.cons_append]
      rw [ih (Nat.le_of_succ_le_succ h)]

/-- Values of `k` octets are read and written, each undoing the other. -/
structure Codec (k : ℕ) (read : List Byte → α × List Byte) (write : α → List Byte) : Prop where
  length_write : ∀ a, (write a).length = k
  read_write : ∀ a rest, read (write a ++ rest) = (a, rest)
  write_read : ∀ bs, k ≤ bs.length → write (read bs).1 ++ (read bs).2 = bs

/-- Read two values one after the other. -/
def readPair {β : Type*} (read : List Byte → α × List Byte) (read' : List Byte → β × List Byte)
    (bs : List Byte) : (α × β) × List Byte :=
  let a := read bs
  let b := read' a.2
  ((a.1, b.1), b.2)

/-- Read `n` values, by their positions. -/
def readFn (read : List Byte → α × List Byte) (n : ℕ) (bs : List Byte) :
    (Fin n → α) × List Byte :=
  let as := readMany read n bs
  (fun i => as.1.get (i.cast (length_readMany read n bs).symm), as.2)

namespace Codec

variable {β : Type*} {k l n : ℕ} {read : List Byte → α × List Byte} {write : α → List Byte}
  {read' : List Byte → β × List Byte} {write' : β → List Byte}

theorem length_read (h : Codec k read write) (bs : List Byte) (hbs : k ≤ bs.length) :
    (read bs).2.length + k = bs.length := by
  have hlen := congrArg List.length (h.write_read bs hbs)
  rw [List.length_append, h.length_write] at hlen
  omega

theorem pair (h : Codec k read write) (h' : Codec l read' write') :
    Codec (k + l) (readPair read read') fun p => write p.1 ++ write' p.2 where
  length_write p := by rw [List.length_append, h.length_write, h'.length_write]
  read_write p rest := by
    rw [List.append_assoc, readPair, h.read_write]
    dsimp only
    rw [h'.read_write]
  write_read bs hbs := by
    have hlen := h.length_read bs (by omega)
    have hfirst := h.write_read bs (by omega)
    have hsecond := h'.write_read (read bs).2 (by omega)
    simp only [readPair, List.append_assoc, hsecond, hfirst]

/-- A value that fills the whole string. -/
theorem round_trip (h : Codec k read write) :
    (∀ a, (write a).length = k ∧ read (write a) = (a, [])) ∧
    ∀ bs : List Byte, bs.length = k → write (read bs).1 = bs := by
  refine ⟨fun a => ⟨h.length_write a, ?_⟩, fun bs hbs => ?_⟩
  · have hread := h.read_write a []
    rwa [List.append_nil] at hread
  · have hlen := h.length_read bs hbs.ge
    have hrest : (read bs).2 = [] := List.eq_nil_of_length_eq_zero (by omega)
    have hwrite := h.write_read bs hbs.ge
    rwa [hrest, List.append_nil] at hwrite

theorem equiv (h : Codec k read write) (e : α ≃ β) :
    Codec k (fun bs => (e (read bs).1, (read bs).2)) fun b => write (e.symm b) where
  length_write b := h.length_write _
  read_write b rest := by simp only [h.read_write, e.apply_symm_apply]
  write_read bs hbs := by simp only [e.symm_apply_apply, h.write_read bs hbs]

theorem many (h : Codec k read write) (n : ℕ) :
    Codec (n * k) (readFn read n) fun f => (List.ofFn f).flatMap write where
  length_write f := by
    rw [List.length_flatMap, List.map_congr_left fun a _ => h.length_write a, List.map_const',
      List.sum_replicate_nat, List.length_ofFn]
  read_write f rest := by
    have hread : readMany read (List.ofFn f).length ((List.ofFn f).flatMap write ++ rest) =
        (List.ofFn f, rest) := readMany_flatMap (fun a _ rest => h.read_write a rest) rest
    rw [List.length_ofFn] at hread
    have hsnd : (readMany read n ((List.ofFn f).flatMap write ++ rest)).2 = rest :=
      congrArg Prod.snd hread
    refine Prod.ext (funext fun i => ?_) hsnd
    have hget : ∀ (l : List α) (hl : n = l.length), l = List.ofFn f →
        l.get (i.cast hl) = f i := by
      rintro l hl rfl
      simp
    exact hget _ _ (congrArg Prod.fst hread)
  write_read bs hbs := by
    have hmany : ∀ n (bs : List Byte), n * k ≤ bs.length →
        (readMany read n bs).1.flatMap write ++ (readMany read n bs).2 = bs := by
      intro n
      induction n with
      | zero => exact fun _ _ => rfl
      | succ n ih =>
        intro bs hbs
        rw [Nat.succ_mul] at hbs
        have hlen := h.length_read bs (by omega)
        simp only [readMany, List.flatMap_cons, List.append_assoc]
        rw [ih _ (by omega), h.write_read bs (by omega)]
    have hofFn : List.ofFn (readFn read n bs).1 = (readMany read n bs).1 := by
      refine List.ext_get (by rw [List.length_ofFn, length_readMany]) fun i h₁ h₂ => ?_
      simp [readFn]
    rw [hofFn]
    exact hmany n bs hbs

end Codec

end ByteStream

end V2nLte
