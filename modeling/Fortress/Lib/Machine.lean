/-
Transition systems: a machine has initial states and labelled steps, and a
state is reachable when some finite run ends in it. The invariant rules are
the only inductions over runs that the developments on top need.
-/
import Mathlib

namespace Fortress

universe u v

structure Machine (σ : Type u) (ι : Type v) where
  init : σ → Prop
  step : σ → ι → σ → Prop

namespace Machine

variable {σ : Type u} {ι : Type v} {M : Machine σ ι}

/-- The states some run ends in. -/
inductive Reach (M : Machine σ ι) : σ → Prop
  | init {s : σ} : M.init s → Reach M s
  | step {s s' : σ} {i : ι} : Reach M s → M.step s i s' → Reach M s'

/-- An inductive invariant holds wherever a run ends. -/
theorem Reach.invariant {I : σ → Prop} (h0 : ∀ s, M.init s → I s)
    (hs : ∀ s i s', I s → M.step s i s' → I s') {s : σ} (h : M.Reach s) : I s := by
  induction h with
  | init hi => exact h0 _ hi
  | step _ hst ih => exact hs _ _ _ ih hst

/-- The machine whose steps must also meet `P`. -/
def restrict (M : Machine σ ι) (P : σ → ι → Prop) : Machine σ ι where
  init := M.init
  step s i s' := P s i ∧ M.step s i s'

theorem Reach.of_restrict {P : σ → ι → Prop} {s : σ} (h : (M.restrict P).Reach s) : M.Reach s := by
  induction h with
  | init hi => exact .init hi
  | step _ hst ih => exact .step ih hst.2

end Machine

end Fortress
