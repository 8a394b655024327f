/-
Ring buffers: a buffer of `size` slots indexed modulo its size, read from a
head index. Reading is a list, so the queue operations are list facts:
advancing the head drops a prefix, writing past the tail appends.
-/
import Mathlib

namespace Fortress.Ring

open Function

variable {α : Type*} {size : Nat}

/-- The `n` slots from `head` on. -/
def read (size : Nat) (buf : Nat → α) (head n : Nat) : List α :=
  (List.range n).map fun i => buf ((head + i) % size)

/-- `data` stored from index `start` on. -/
def write (size : Nat) (buf : Nat → α) (start : Nat) : List α → Nat → α
  | [] => buf
  | b :: bs => write size (Function.update buf (start % size) b) (start + 1) bs

@[simp] theorem length_read (buf : Nat → α) (head n : Nat) : (read size buf head n).length = n := by
  simp [read]

theorem getElem?_read {buf : Nat → α} {head n i : Nat} (h : i < n) :
    (read size buf head n)[i]? = some (buf ((head + i) % size)) := by
  simp [read, h]

theorem read_mod (buf : Nat → α) (head n : Nat) : read size buf (head % size) n = read size buf head n := by
  simp [read, Nat.add_mod]

theorem drop_read (buf : Nat → α) (head n k : Nat) :
    (read size buf head n).drop k = read size buf (head + k) (n - k) := by
  apply List.ext_getElem? fun i => ?_
  rw [List.getElem?_drop]
  by_cases h : i < n - k
  · rw [getElem?_read (by omega), getElem?_read h, Nat.add_assoc]
  · rw [List.getElem?_eq_none (by simp; omega), List.getElem?_eq_none (by simp; omega)]

theorem write_of_ne {buf : Nat → α} {j : Nat} : ∀ {start : Nat} {data : List α},
    (∀ i < data.length, (start + i) % size ≠ j) → write size buf start data j = buf j
  | _, [], _ => rfl
  | start, b :: bs, h => by
    have h0 : start % size ≠ j := h 0 (by simp)
    rw [write, write_of_ne fun i hi => ?_, update_of_ne h0.symm]
    rw [Nat.add_right_comm, Nat.add_assoc]
    exact h (i + 1) (by simpa using hi)

/-- Two indices of one window of at most `size` slots are the same slot only
if they are the same index. -/
theorem add_mod_inj {head i j : Nat} (hi : i < size) (hj : j < size)
    (h : (head + i) % size = (head + j) % size) : i = j := by
  have := Nat.ModEq.add_left_cancel' head h
  rwa [Nat.ModEq, Nat.mod_eq_of_lt hi, Nat.mod_eq_of_lt hj] at this

/-- Writing past the tail of a ring that has room appends. -/
theorem read_write {buf : Nat → α} {head n : Nat} {data : List α} (h : n + data.length ≤ size) :
    read size (write size buf (head + n) data) head (n + data.length) = read size buf head n ++ data := by
  induction data generalizing buf n with
  | nil => simp [write]
  | cons b bs ih =>
    have hlen : n + (b :: bs).length = n + 1 + bs.length := by simp; omega
    rw [hlen] at h ⊢
    have hb : read size (update buf ((head + n) % size) b) head (n + 1) =
        read size buf head n ++ [b] := by
      simp only [read, List.range_succ, List.map_append, List.map_cons, List.map_nil, update_self]
      congr 1
      refine List.map_congr_left fun i hi => update_of_ne (fun e => ?_) _ _
      rw [List.mem_range] at hi
      have := add_mod_inj (by omega) (by omega) e
      omega
    rw [write, Nat.add_assoc head, ih h, hb, List.append_assoc, List.singleton_append]

end Fortress.Ring
