/-
A scan that remembers the best element it has met: the loop
`for x in xs: if ok(x) and (none yet or better(x, best)) best = x`.
-/
import Mathlib

namespace Fortress

universe u

variable {α : Type u} (ok : α → Bool) (better : α → α → Bool)

def scanStep (best : Option α) (x : α) : Option α :=
  if ok x then
    match best with
    | none => some x
    | some b => if better x b then some x else some b
  else best

/-- The best element of `xs` with `ok`; the first of equally good ones. -/
def scanBest (xs : List α) : Option α := xs.foldl (scanStep ok better) none

variable {ok better} {xs : List α} {best : Option α}

/-- What one round does: the best stays, or gives way to the element met. -/
theorem scanStep_cases {x y : α} (h : scanStep ok better best x = some y) :
    (best = some y ∧ (ok x = true → better x y = false)) ∨
      (y = x ∧ ok x = true ∧ ∀ b, best = some b → better x b = true) := by
  cases best <;> grind [scanStep]

theorem scanStep_isSome {x : α} (h : scanStep ok better best x = none) : best = none ∧ ok x = false := by
  cases best <;> grind [scanStep]

theorem scanBest_append_singleton (xs : List α) (x : α) :
    scanBest ok better (xs ++ [x]) = scanStep ok better (scanBest ok better xs) x := by
  simp [scanBest]

/-- The scan finds an element it was given, and one that is `ok`. -/
theorem scanBest_mem {y : α} (h : scanBest ok better xs = some y) : y ∈ xs ∧ ok y = true := by
  induction xs using List.reverseRecOn generalizing y with
  | nil => simp [scanBest] at h
  | append_singleton xs x ih =>
    rw [scanBest_append_singleton] at h
    rcases scanStep_cases h with ⟨hb, -⟩ | ⟨rfl, hok, -⟩
    · obtain ⟨hy, hok⟩ := ih hb
      exact ⟨by simp [hy], hok⟩
    · exact ⟨by simp, hok⟩

theorem scanBest_eq_none (h : scanBest ok better xs = none) : ∀ x ∈ xs, ok x = false := by
  induction xs using List.reverseRecOn with
  | nil => simp
  | append_singleton xs x ih =>
    rw [scanBest_append_singleton] at h
    obtain ⟨hb, hx⟩ := scanStep_isSome h
    intro z hz
    rcases List.mem_append.1 hz with hz | hz
    · exact ih hb z hz
    rw [List.mem_singleton.1 hz]
    exact hx

/-- Nothing that was `ok` is better than what was found, if `better` is a strict order. -/
theorem scanBest_le {y : α} (hirr : ∀ a, better a a = false)
    (htrans : ∀ a b c, better a b = true → better b c = true → better a c = true)
    (h : scanBest ok better xs = some y) : ∀ x ∈ xs, ok x = true → better x y = false := by
  induction xs using List.reverseRecOn generalizing y with
  | nil => simp
  | append_singleton xs x ih =>
    rw [scanBest_append_singleton] at h
    intro z hmem hokz
    rcases List.mem_append.1 hmem with hz | hz
    · rcases scanStep_cases h with ⟨hb, -⟩ | ⟨hyx, -, hb⟩
      · exact ih hb z hz hokz
      -- an earlier element better than the new one would be better than the old best
      cases hbest : scanBest ok better xs with
      | none => exact absurd hokz (by rw [scanBest_eq_none hbest z hz]; decide)
      | some b =>
        have hzb := ih hbest z hz hokz
        by_contra hne
        have := htrans z y b (by simpa using hne) (hyx ▸ hb b hbest)
        rw [hzb] at this
        cases this
    obtain rfl := List.mem_singleton.1 hz
    rcases scanStep_cases h with ⟨-, hb⟩ | ⟨rfl, -, -⟩
    · exact hb hokz
    · exact hirr _

end Fortress
