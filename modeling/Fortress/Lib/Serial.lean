/-
Serial numbers: 32-bit counters that wrap, read as positions of an unbounded
sequence. `Serial.pos b n` is the number of position `n` when position `0`
has number `b`; the lemmas turn wrapped differences and the half-space
comparison back into arithmetic on positions.
-/
import Mathlib

namespace Fortress

/-- The serial number of position `n`, counted from `b`. -/
def Serial.pos (b : UInt32) (n : Nat) : UInt32 := b + UInt32.ofNat n

/-- `a` comes before `b`, for numbers less than half the space apart. -/
def Serial.before (a b : UInt32) : Bool := a - b > 0x80000000

namespace Serial

@[simp] theorem pos_zero (b : UInt32) : pos b 0 = b := by simp [pos]

theorem pos_pos (b : UInt32) (m n : Nat) : pos (pos b m) n = pos b (m + n) := by
  simp [pos, UInt32.ofNat_add, add_assoc]

theorem pos_add (b : UInt32) (m n : Nat) : pos b m + UInt32.ofNat n = pos b (m + n) :=
  pos_pos b m n

theorem pos_add_one (b : UInt32) (n : Nat) : pos b n + 1 = pos b (n + 1) :=
  pos_pos b n 1

/-- Every number is at a position within one wrap of a given one. -/
theorem eq_pos (a x : UInt32) : x = pos a (x - a).toNat := by simp [pos]

/-- A forward distance of less than one wrap. -/
theorem toNat_pos_sub_of_lt {b : UInt32} {m n : Nat} (h : m ≤ n) (hk : n - m < 2 ^ 32) :
    (pos b n - pos b m).toNat = n - m := by
  obtain ⟨k, rfl⟩ := Nat.exists_eq_add_of_le h
  rw [← pos_add, add_sub_cancel_left, UInt32.toNat_ofNat', Nat.add_sub_cancel_left]
  exact Nat.mod_eq_of_lt (by omega)

theorem toNat_sub_self_pos (a : UInt32) (k : Nat) : (pos a k - a).toNat = k % 2 ^ 32 := by
  simp [pos]

theorem pos_inj {b : UInt32} {m n : Nat} (h : m ≤ n) (hk : n - m < 2 ^ 32) (he : pos b m = pos b n) : m = n := by
  have hs := toNat_pos_sub_of_lt (b := b) h hk
  rw [he, sub_self] at hs
  simp at hs
  omega

theorem before_iff {a b : UInt32} : before a b = true ↔ 2 ^ 31 < (a - b).toNat := by
  simp [before, UInt32.lt_iff_toNat_lt]

theorem before_self (a : UInt32) : before a a = false := by simp [before]

end Serial

end Fortress
