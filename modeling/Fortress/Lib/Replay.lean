/-
Anti-replay windows. A window of width `w` holds the greatest number it has
marked and one bit for each of the `w` numbers that end there; it refuses a
number whose bit is set and every number that has left it on the low side.
`Tracks` relates a window to the list of all numbers ever marked, whatever
their order of arrival.
-/
import Mathlib

namespace Fortress.Replay

variable {w : Nat}

structure Window (w : Nat) where
  top : Nat
  /-- Bit `d` stands for the number `top - d`. -/
  bits : BitVec w

namespace Window

def refuses (s : Window w) (n : Nat) : Bool :=
  decide (n ≤ s.top) && (decide (w ≤ s.top - n) || s.bits.getLsbD (s.top - n))

def first (n : Nat) : Window w := ⟨n, 1#w⟩

def mark (s : Window w) (n : Nat) : Window w :=
  if s.top < n then ⟨n, (if n - s.top < w then s.bits <<< (n - s.top) else 0#w) ||| 1#w⟩
  else { s with bits := if s.top - n < w then s.bits ||| (1#w <<< (s.top - n)) else s.bits }

end Window

/-- The window knows of `l` all that it can: the greatest number, and which of the last `w` are in. -/
structure Tracks (s : Window w) (l : List Nat) : Prop where
  top_mem : s.top ∈ l
  le_top : ∀ n ∈ l, n ≤ s.top
  bit : ∀ d, s.bits.getLsbD d = true ↔ d < w ∧ ∃ n ∈ l, n + d = s.top

theorem getLsbD_one_shiftLeft {d e : Nat} : ((1#w) <<< e).getLsbD d = true ↔ d < w ∧ d = e := by
  rw [BitVec.getLsbD_shiftLeft, BitVec.getLsbD_one]
  simp only [Bool.and_eq_true, decide_eq_true_eq, Bool.not_eq_true', decide_eq_false_iff_not]
  omega

theorem Tracks.first (n : Nat) : Tracks (Window.first n : Window w) [n] where
  top_mem := List.mem_singleton.2 rfl
  le_top m hm := Nat.le_of_eq (List.mem_singleton.1 hm)
  bit d := by
    have h := getLsbD_one_shiftLeft (w := w) (d := d) (e := 0)
    rw [BitVec.shiftLeft_zero] at h
    simp only [Window.first, h, List.mem_singleton, exists_eq_left]
    omega

variable {s : Window w} {l : List Nat}

/-- A number above the window moves it up; what it shifts out was too low to be asked for again. -/
theorem Tracks.mark_above (h : Tracks s l) {n : Nat} (hn : s.top < n) : Tracks (s.mark n) (n :: l) := by
  have hle := h.le_top
  rw [Window.mark, if_pos hn]
  refine ⟨.head _, ?_, ?_⟩
  · grind
  intro d
  have h1 := getLsbD_one_shiftLeft (w := w) (d := d) (e := 0)
  rw [BitVec.shiftLeft_zero] at h1
  have hshift : (if n - s.top < w then s.bits <<< (n - s.top) else 0#w).getLsbD d = true ↔
      d < w ∧ n - s.top ≤ d ∧ s.bits.getLsbD (d - (n - s.top)) = true := by
    split
    · rw [BitVec.getLsbD_shiftLeft]
      simp only [Bool.and_eq_true, decide_eq_true_eq, Bool.not_eq_true', decide_eq_false_iff_not,
        Nat.not_lt, and_assoc]
    · simp only [BitVec.getLsbD_zero, Bool.false_eq_true, false_iff]
      omega
  simp only [BitVec.getLsbD_or, Bool.or_eq_true, hshift, h1, h.bit, List.mem_cons, exists_eq_or_imp]
  grind

theorem Tracks.mark_within (h : Tracks s l) {n : Nat} (hn : n ≤ s.top) : Tracks (s.mark n) (n :: l) := by
  have hle := h.le_top
  rw [Window.mark, if_neg (Nat.not_lt.2 hn)]
  refine ⟨.tail _ h.top_mem, ?_, ?_⟩
  · grind
  intro d
  have hset : (if s.top - n < w then s.bits ||| (1#w <<< (s.top - n)) else s.bits).getLsbD d = true ↔
      s.bits.getLsbD d = true ∨ d < w ∧ d = s.top - n := by
    split
    · rw [BitVec.getLsbD_or, Bool.or_eq_true, getLsbD_one_shiftLeft]
    constructor
    · exact .inl
    rintro (hb | hd)
    · exact hb
    · omega
  simp only [hset, h.bit, List.mem_cons, exists_eq_or_imp]
  grind

theorem Tracks.mark (h : Tracks s l) (n : Nat) : Tracks (s.mark n) (n :: l) := by
  rcases Nat.lt_or_ge s.top n with hn | hn
  · exact h.mark_above hn
  · exact h.mark_within hn

/-- A window refuses what it has marked, and whatever is `w` or more below the greatest mark. -/
theorem Tracks.refuses_iff (h : Tracks s l) (n : Nat) : s.refuses n = true ↔ n ∈ l ∨ ∃ m ∈ l, n + w ≤ m := by
  simp only [Window.refuses, Bool.and_eq_true, Bool.or_eq_true, decide_eq_true_eq, h.bit]
  have := h.top_mem
  have := h.le_top
  grind

end Fortress.Replay
