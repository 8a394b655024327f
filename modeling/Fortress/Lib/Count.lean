/-
Counting in a list, or over the first indices of a function, of which one
entry changes.
-/
import Mathlib

namespace Fortress

open Function

universe u

variable {α : Type u} {p : α → Bool} {l : List α} {j : Nat} {a b : α}

/-- Replacing one entry moves the count by what the two entries say. -/
theorem countP_set_add (h : l[j]? = some a) (b : α) :
    (l.set j b).countP p + (p a).toNat = l.countP p + (p b).toNat := by
  obtain ⟨hlt, rfl⟩ := List.getElem?_eq_some_iff.1 h
  have hpos : (p l[j]).toNat ≤ l.countP p := by
    cases hp : p l[j] with
    | false => exact Nat.zero_le _
    | true => exact List.countP_pos_iff.2 ⟨_, List.getElem_mem hlt, hp⟩
  have hite (c : Bool) : (if c = true then 1 else 0) = c.toNat := by cases c <;> rfl
  rw [List.countP_set hlt, hite, hite]
  omega

theorem countP_set_of_eq (h : l[j]? = some a) (hp : p b = p a) : (l.set j b).countP p = l.countP p := by
  have := countP_set_add (p := p) h b
  rw [hp] at this
  omega

theorem countP_append_one (a : α) : (l ++ [a]).countP p = l.countP p + (p a).toNat := by
  rw [List.countP_append]
  cases hp : p a <;> simp [hp]

theorem countP_pos_of_getElem? (h : l[j]? = some a) (hp : p a = true) : 0 < l.countP p :=
  List.countP_pos_iff.2 ⟨a, List.mem_of_getElem? h, hp⟩

/-- Changing a function at one index moves the count by what the two values say. -/
theorem countP_range_update (f : Nat → α) {i n : Nat} (hi : i < n) (b : α) :
    (List.range n).countP (fun j => p (update f i b j)) + (p (f i)).toNat =
      (List.range n).countP (fun j => p (f j)) + (p b).toNat := by
  induction n with
  | zero => omega
  | succ n ih =>
    rw [List.range_succ, countP_append_one, countP_append_one]
    by_cases hn : i = n
    · subst hn
      have hsame : (List.range i).countP (fun j => p (update f i b j)) = (List.range i).countP (fun j => p (f j)) :=
        List.countP_congr fun j hj => by rw [update_of_ne (Nat.ne_of_lt (List.mem_range.1 hj))]
      rw [hsame, update_self]
      omega
    · rw [update_of_ne (Ne.symm hn)]
      omega

end Fortress
