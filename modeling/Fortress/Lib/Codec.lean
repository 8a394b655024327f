/-
Byte strings as record formats see them: little- and big-endian numbers and
the field at an offset; sums in 64 bits.
-/
import Mathlib

namespace Fortress

open List

abbrev Bytes := List UInt8

namespace Codec

/-- The `w` low bytes of `n`, lowest first. -/
def le (n : Nat) : Nat → Bytes
  | 0 => []
  | w + 1 => (n % 256).toUInt8 :: le (n / 256) w

def fromLe : Bytes → Nat
  | [] => 0
  | b :: bs => b.toNat + 256 * fromLe bs

/-- The `w` low bytes of `n`, highest first. -/
def be (n w : Nat) : Bytes := (le n w).reverse

def fromBe (b : Bytes) : Nat := fromLe b.reverse

def zeros (n : Nat) : Bytes := replicate n 0

def add64 (a b : Nat) : Nat := (a + b) % 2 ^ 64

/-- The `n` bytes at offset `off`. -/
def slice (b : Bytes) (off n : Nat) : Bytes := (b.drop off).take n

@[simp] theorem length_zeros (n : Nat) : (zeros n).length = n := length_replicate

@[simp] theorem length_le (n w : Nat) : (le n w).length = w := by
  induction w generalizing n with
  | zero => rfl
  | succ w ih => simp [le, ih]

theorem fromLe_le (n w : Nat) : fromLe (le n w) = n % 256 ^ w := by
  induction w generalizing n with
  | zero => simp [le, fromLe, Nat.mod_one]
  | succ w ih =>
    rw [le, fromLe, ih, Nat.pow_succ', Nat.mod_mul]
    simp

theorem fromLe_le_of_lt {n w : Nat} (h : n < 256 ^ w) : fromLe (le n w) = n := by
  rw [fromLe_le, Nat.mod_eq_of_lt h]

@[simp] theorem length_be (n w : Nat) : (be n w).length = w := by
  rw [be, length_reverse, length_le]

theorem fromBe_be_of_lt {n w : Nat} (h : n < 256 ^ w) : fromBe (be n w) = n := by
  rw [fromBe, be, reverse_reverse, fromLe_le_of_lt h]

theorem fromLe_lt (b : Bytes) : fromLe b < 256 ^ b.length := by
  induction b with
  | nil => simp [fromLe]
  | cons x b ih =>
    have hx : x.toNat < 256 := x.toNat_lt
    rw [fromLe, length_cons, Nat.pow_succ]
    omega

theorem fromLe_eq_zero {b : Bytes} (h : b.any (· != 0) = false) : fromLe b = 0 := by
  induction b with
  | nil => rfl
  | cons x b ih =>
    simp only [any_cons, Bool.or_eq_false_iff, bne_eq_false_iff_eq] at h
    simp [fromLe, ih h.2, h.1]

theorem slice_append_left {a b : Bytes} {k n : Nat} (h : k + n ≤ a.length) : slice (a ++ b) k n = slice a k n := by
  unfold slice
  rw [drop_append_of_le_length (by omega), take_append_of_le_length]
  rw [length_drop]
  omega

theorem slice_append_right {a b : Bytes} {k m n : Nat} (h : k = a.length + m) :
    slice (a ++ b) k n = slice b m n := by
  subst h
  unfold slice
  rw [drop_append, drop_eq_nil_of_le (by omega), nil_append]
  congr 2
  omega

theorem slice_add (p : Bytes) (a m n : Nat) : slice p a (m + n) = slice p a m ++ slice p (a + m) n := by
  simp [slice, take_add]

theorem length_slice_of_le {p : Bytes} {a n : Nat} (h : a + n ≤ p.length) : (slice p a n).length = n := by
  simp [slice]
  omega

theorem slice_self {a : Bytes} {n : Nat} (h : a.length = n) : slice a 0 n = a := by
  rw [slice, drop_zero, ← h, take_length]

theorem slice_field {a b c : Bytes} {k n : Nat} (hk : k = a.length) (hn : n = b.length) :
    slice (a ++ (b ++ c)) k n = b := by
  rw [slice_append_right (m := 0) (by omega), slice_append_left (by omega), slice_self hn.symm]

/-- Field `i` of a record of consecutive fields. -/
theorem slice_flatten {fs : List Bytes} {i k n : Nat} (h : i < fs.length) (hk : k = (fs.take i).flatten.length)
    (hn : n = fs[i].length) : slice fs.flatten k n = fs[i] := by
  conv => lhs; rw [← take_append_drop i fs, flatten_append, drop_eq_getElem_cons h, flatten_cons]
  exact slice_field hk hn

end Codec

end Fortress
