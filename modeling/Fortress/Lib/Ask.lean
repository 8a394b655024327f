/-
Programs that ask an environment they do not control: a request, then a
continuation for every answer. `Only P` says that each request on each path
meets `P`, `Yields a` that some answers make the program return `a`.
-/
import Mathlib

namespace Fortress

inductive Ask (ι : Type) (ρ : ι → Type) (α : Type) where
  | ret (a : α)
  | ask (i : ι) (k : ρ i → Ask ι ρ α)

namespace Ask

variable {ι : Type} {ρ : ι → Type} {α β : Type}

def bind : Ask ι ρ α → (α → Ask ι ρ β) → Ask ι ρ β
  | .ret a, f => f a
  | .ask i k, f => .ask i fun r => (k r).bind f

instance : Monad (Ask ι ρ) where
  pure := .ret
  bind := bind

def request (i : ι) : Ask ι ρ (ρ i) := .ask i .ret

/-- Every request of the program, whatever the answers, meets `P`. -/
def Only (P : ι → Prop) : Ask ι ρ α → Prop
  | .ret _ => True
  | .ask i k => P i ∧ ∀ r, Only P (k r)

/-- Some answers make the program return `a`. -/
def Yields (a : α) : Ask ι ρ α → Prop
  | .ret b => b = a
  | .ask _ k => ∃ r, Yields a (k r)

variable {P : ι → Prop} {p : Ask ι ρ α}

theorem only_ret (a : α) : Only P (.ret a : Ask ι ρ α) := trivial

theorem only_ite {c : Prop} [Decidable c] {a : α} (h : Only P p) : Only P (if c then .ret a else p) := by
  split
  · exact only_ret a
  · exact h

theorem only_request {i : ι} (h : P i) : Only P (request i : Ask ι ρ (ρ i)) := ⟨h, fun _ => trivial⟩

theorem only_bind {f : α → Ask ι ρ β} (hp : Only P p) (hf : ∀ a, Only P (f a)) : Only P (p >>= f) := by
  induction p with
  | ret a => exact hf a
  | ask i k ih => exact ⟨hp.1, fun r => ih r (hp.2 r)⟩

end Ask

end Fortress
