/-
Logs of events in which every entry is justified by the ones before it. The
newest entry comes first, so a log grows by `cons` and what an entry rests on
is its tail.
-/
import Mathlib

namespace Fortress

universe u

/-- Every entry of the log meets `J` over the earlier ones. -/
inductive History {ε : Type u} (J : List ε → ε → Prop) : List ε → Prop
  | nil : History J []
  | cons {l : List ε} {e : ε} : History J l → J l e → History J (e :: l)

namespace History

variable {ε : Type u} {J : List ε → ε → Prop} {log : List ε}

/-- An entry of a log splits it into what came later and what justified it. -/
theorem split {e : ε} (h : History J log) (he : e ∈ log) : ∃ later earlier, log = later ++ e :: earlier ∧ J earlier e := by
  induction h with
  | nil => simp at he
  | @cons l a _ hj ih =>
    rcases List.mem_cons.1 he with rfl | he
    · exact ⟨[], l, rfl, hj⟩
    obtain ⟨later, earlier, hl, hj'⟩ := ih he
    exact ⟨a :: later, earlier, by rw [hl]; rfl, hj'⟩

theorem justified {e : ε} (h : History J log) (he : e ∈ log) : ∃ earlier, earlier ⊆ log ∧ J earlier e := by
  obtain ⟨later, earlier, rfl, hj⟩ := h.split he
  exact ⟨earlier, fun x hx => by simp [hx], hj⟩

variable {p : ε → Prop}

/-- If an entry with `p` rests on there being none before, there is at most one. -/
theorem unique (h : History J log) (hp : ∀ l e, J l e → p e → ∀ x ∈ l, ¬ p x) {e e' : ε}
    (he : e ∈ log) (he' : e' ∈ log) (hpe : p e) (hpe' : p e') : e = e' := by
  induction h with
  | nil => simp at he
  | @cons l a _ hj ih =>
    rcases List.mem_cons.1 he with h1 | h1 <;> rcases List.mem_cons.1 he' with h2 | h2
    · rw [h1, h2]
    · exact absurd hpe' (hp _ _ hj (h1 ▸ hpe) _ h2)
    · exact absurd hpe (hp _ _ hj (h2 ▸ hpe') _ h1)
    · exact ih h1 h2

theorem countP_le_one [DecidablePred p] (h : History J log) (hp : ∀ l e, J l e → p e → ∀ x ∈ l, ¬ p x) :
    log.countP (fun e => decide (p e)) ≤ 1 := by
  induction h with
  | nil => simp
  | @cons l a _ hj ih =>
    rw [List.countP_cons]
    by_cases ha : p a
    · have hz : l.countP (fun e => decide (p e)) = 0 := by
        rw [List.countP_eq_zero]
        intro x hx
        simpa using hp _ _ hj ha x hx
      simp [hz, ha]
    · simpa [ha] using ih

end History

end Fortress
