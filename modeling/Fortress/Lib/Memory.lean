/-
Memory as bytes at addresses: reading and writing a range, and that a write
is seen exactly where it was made.
-/
import Fortress.Lib.Codec

namespace Fortress

abbrev Mem := Nat → UInt8

abbrev PAGE_SIZE : Nat := 4096

namespace Mem

def read (m : Mem) (a n : Nat) : Bytes := (List.range n).map fun i => m (a + i)

def write (m : Mem) (a : Nat) (bs : Bytes) : Mem := fun x =>
  if a ≤ x ∧ x < a + bs.length then bs.getD (x - a) 0 else m x

@[simp] theorem length_read (m : Mem) (a n : Nat) : (m.read a n).length = n := by simp [read]

theorem read_congr {m m' : Mem} {a n : Nat} (h : ∀ x, a ≤ x → x < a + n → m' x = m x) : m'.read a n = m.read a n :=
  List.map_congr_left fun i hi => h (a + i) (by omega) (by have := List.mem_range.1 hi; omega)

theorem read_write (m : Mem) (a : Nat) (bs : Bytes) : (m.write a bs).read a bs.length = bs := by
  refine List.ext_getElem (by simp) fun i hi _ => ?_
  have hlt : i < bs.length := by simpa using hi
  simp [read, write, hlt]

/-- A read beside a write sees what was there before. -/
theorem read_write_of_disjoint {m : Mem} {a b n : Nat} {bs : Bytes} (h : b + n ≤ a ∨ a + bs.length ≤ b) :
    (m.write a bs).read b n = m.read b n :=
  read_congr fun x hx hx' => if_neg (by omega)

theorem read_slice (m : Mem) {a k n w : Nat} (h : k + n ≤ w) : m.read (a + k) n = Codec.slice (m.read a w) k n := by
  refine List.ext_getElem (by simp [Codec.slice]; omega) fun i hi _ => ?_
  simp [read, Codec.slice, Nat.add_assoc]

theorem read_part {m m' : Mem} {a w : Nat} (h : m'.read a w = m.read a w) {k n : Nat} (hk : k + n ≤ w) :
    m'.read (a + k) n = m.read (a + k) n := by
  rw [read_slice m' hk, read_slice m hk, h]

end Mem

end Fortress
