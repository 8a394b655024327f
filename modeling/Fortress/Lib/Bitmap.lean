/-
Bitmaps kept eight flags to a byte: `get` reads bit `i` of byte `i / 8`, and
`set` writes it. A bitmap is a function from its byte index, as the C arrays
are read and written. `setRun` writes a run of bits, and `frames` is the set
of the bits below a bound that are set.
-/
import Mathlib

namespace Fortress.Bitmap

/-- The mask of bit `i` in its byte. -/
def mask (i : Nat) : UInt8 := 1 <<< UInt8.ofNat (i % 8)

variable (m : Nat → UInt8) (i : Nat) {start k n : Nat}

def get : Bool := m (i / 8) &&& mask i != 0

def set (value : Bool) : Nat → UInt8 :=
  Function.update m (i / 8) (if value then m (i / 8) ||| mask i else m (i / 8) &&& ~~~mask i)

theorem getLsbD_mask (i j : Nat) (hj : j < 8) : (mask i).toBitVec.getLsbD j = decide (i % 8 = j) := by
  have hi : i % 8 < 8 := Nat.mod_lt _ (by decide)
  unfold mask
  generalize i % 8 = k at hi
  interval_cases k <;> interval_cases j <;> decide

theorem get_eq : get m i = (m (i / 8)).toBitVec.getLsbD (i % 8) := by
  have hi : i % 8 < 8 := Nat.mod_lt _ (by decide)
  rw [Bool.eq_iff_iff, get, bne_iff_ne, ne_eq, ← UInt8.toBitVec_inj, UInt8.toBitVec_and]
  constructor
  · intro h
    by_contra hb
    refine h (BitVec.eq_of_getLsbD_eq fun j hj => ?_)
    rw [BitVec.getLsbD_and, getLsbD_mask i j hj]
    by_cases hij : i % 8 = j
    · subst hij
      rw [Bool.not_eq_true] at hb
      simp only [hb, Bool.false_and, UInt8.toBitVec_zero, BitVec.getLsbD_zero]
    · simp [hij]
  · intro hb h
    have := congrArg (BitVec.getLsbD · (i % 8)) h
    simp [BitVec.getLsbD_and, getLsbD_mask i _ hi, hb] at this

theorem get_of_full {m : Nat → UInt8} {i : Nat} (h : m (i / 8) = 0xff) : get m i = true := by
  have hi : i % 8 < 8 := Nat.mod_lt _ (by decide)
  rw [get_eq, h]
  generalize i % 8 = k at hi
  interval_cases k <;> decide

theorem get_set_self (value : Bool) : get (set m i value) i = value := by
  have hi : i % 8 < 8 := Nat.mod_lt _ (by decide)
  rw [get_eq, set, Function.update_self]
  cases value
  · simp [getLsbD_mask i _ hi]
  · simp [getLsbD_mask i _ hi]

theorem get_set_of_ne {m : Nat → UInt8} {i j : Nat} (h : i ≠ j) (value : Bool) :
    get (set m i value) j = get m j := by
  have hj : j % 8 < 8 := Nat.mod_lt _ (by decide)
  rw [get_eq, get_eq, set]
  by_cases hb : j / 8 = i / 8
  · have hne : i % 8 ≠ j % 8 := by
      intro e
      exact h (by omega)
    rw [hb, Function.update_self]
    cases value
    · simp only [Bool.false_eq_true, if_false, UInt8.toBitVec_and, UInt8.toBitVec_not, BitVec.getLsbD_and,
        BitVec.getLsbD_not, getLsbD_mask i _ hj, hj, hne, decide_true, decide_false, Bool.not_false, Bool.and_true]
    · simp [getLsbD_mask i _ hj, hne]
  · rw [Function.update_of_ne hb]

/-! ## Runs -/

/-- Writing the bits `start, …, start + n - 1` in order. -/
def setRun (start n : Nat) (value : Bool) : Nat → UInt8 :=
  (List.range n).foldl (fun m j => set m (start + j) value) m

theorem get_setRun (start n i : Nat) (value : Bool) :
    get (setRun m start n value) i = if start ≤ i ∧ i < start + n then value else get m i := by
  induction n with
  | zero =>
    rw [if_neg (by omega)]
    rfl
  | succ n ih =>
    rw [show setRun m start (n + 1) value = set (setRun m start n value) (start + n) value by
      simp [setRun, List.range_succ]]
    grind [get_set_self, get_set_of_ne]

/-- The bits below `n` that are set. -/
def frames (n : Nat) : Finset Nat := (Finset.range n).filter fun i => get m i = true

theorem mem_frames {m : Nat → UInt8} {n i : Nat} : i ∈ frames m n ↔ i < n ∧ get m i = true := by
  simp [frames]

theorem card_frames_setRun {m : Nat → UInt8} (hk : start + k ≤ n)
    (h : ∀ i, start ≤ i → i < start + k → get m i = false) :
    (frames (setRun m start k true) n).card = (frames m n).card + k := by
  have heq : frames (setRun m start k true) n = frames m n ∪ Finset.Ico start (start + k) := by
    ext i
    simp only [mem_frames, get_setRun, Finset.mem_union, Finset.mem_Ico]
    grind
  have hdisj : Disjoint (frames m n) (Finset.Ico start (start + k)) := by
    rw [Finset.disjoint_left]
    intro i hi hrun
    grind [mem_frames]
  rw [heq, Finset.card_union_of_disjoint hdisj, Nat.card_Ico]
  omega

theorem card_frames_clearRun {m : Nat → UInt8} (hk : start + k ≤ n)
    (h : ∀ i, start ≤ i → i < start + k → get m i = true) :
    (frames (setRun m start k false) n).card + k = (frames m n).card := by
  have hback := card_frames_setRun (m := setRun m start k false) hk (by
    intro i hlo hhi
    rw [get_setRun, if_pos ⟨hlo, hhi⟩])
  have heq : frames (setRun (setRun m start k false) start k true) n = frames m n := by
    ext i
    simp only [mem_frames, get_setRun]
    grind
  rw [← hback, heq]

theorem set_eq_setRun (value : Bool) : set m i value = setRun m i 1 value := by
  simp [setRun]

theorem card_frames_le (n : Nat) : (frames m n).card ≤ n := by
  have := Finset.card_filter_le (Finset.range n) fun i => get m i = true
  simpa [frames] using this

end Fortress.Bitmap
