/-
Custody of objects by references: every object in use has exactly one
reference, unless it is an orphan and has none. Objects are taken, handed
from one reference to another, orphaned with their reference, and reclaimed
once orphaned; a reference that goes without orphaning its object loses it.
-/
import Mathlib

namespace Fortress

variable {ρ β : Type} {ref ref' : ρ → Option β} {used used' orphan orphan' : β → Prop} {r t : ρ} {b : β}

structure Custody (ref : ρ → Option β) (used orphan : β → Prop) : Prop where
  live : ∀ r b, ref r = some b → used b ∧ ¬orphan b
  unique : ∀ r t b, ref r = some b → ref t = some b → r = t
  covered : ∀ b, used b → ¬orphan b → ∃ r, ref r = some b

namespace Custody

variable (h : Custody ref used orphan)

include h

/-- Only which objects are in use and no orphans matters. -/
theorem of_live (hr : ∀ r, ref' r = ref r)
    (hl : ∀ b, used' b ∧ ¬orphan' b ↔ used b ∧ ¬orphan b) : Custody ref' used' orphan' := by
  obtain rfl : ref' = ref := funext hr
  exact ⟨fun r b hb => (hl b).2 (h.live r b hb), h.unique, fun b hu ho =>
    have hb := (hl b).1 ⟨hu, ho⟩
    h.covered b hb.1 hb.2⟩

theorem congr (hr : ∀ r, ref' r = ref r) (hu : ∀ b, used' b ↔ used b)
    (ho : ∀ b, used b → (orphan' b ↔ orphan b)) : Custody ref' used' orphan' :=
  h.of_live hr fun b => by rw [hu b]; exact and_congr_right fun hub => not_congr (ho b hub)

theorem acquire (hb : ¬used b) (hself : ref' r = some b)
    (hother : ∀ t, t ≠ r → ref' t = ref t) (hempty : ref r = none) (hu : ∀ x, used' x ↔ x = b ∨ used x)
    (hob : ¬orphan' b) (ho : ∀ x, used x → (orphan' x ↔ orphan x)) : Custody ref' used' orphan' := by
  refine ⟨fun s x hs => ?_, fun s t x hs ht => ?_, fun x hux hox => ?_⟩
  · have := hother s
    have := h.live s x
    grind +splitImp
  · have := hother s
    have := hother t
    have := h.unique s t x
    have := (h.live · x)
    grind +splitImp
  · by_cases hx : x = b
    · exact ⟨r, hx ▸ hself⟩
    · obtain ⟨s, hs⟩ := h.covered x (by grind) (by grind)
      exact ⟨s, by grind⟩

/-- The reference lets its object go as an orphan. -/
theorem drop (hb : ref r = some b) (hself : ref' r = none)
    (hother : ∀ t, t ≠ r → ref' t = ref t) (hu : ∀ x, used' x ↔ used x) (hob : orphan' b)
    (ho : ∀ x, x ≠ b → used x → (orphan' x ↔ orphan x)) : Custody ref' used' orphan' := by
  refine ⟨fun s x hs => ?_, fun s t x hs ht => ?_, fun x hux hox => ?_⟩
  · have := hother s
    have := h.live s x
    have := h.unique s r x
    grind +splitImp
  · have := hother s
    have := hother t
    have := h.unique s t x
    grind +splitImp
  · obtain ⟨s, hs⟩ := h.covered x (by grind) (by grind)
    exact ⟨s, by grind⟩

theorem move (hb : ref r = some b) (hempty : ref t = none) (hr : ref' r = none)
    (ht : ref' t = some b) (hother : ∀ s, s ≠ r → s ≠ t → ref' s = ref s) (hu : ∀ x, used' x ↔ used x)
    (ho : ∀ x, used x → (orphan' x ↔ orphan x)) : Custody ref' used' orphan' := by
  refine ⟨fun s x hs => ?_, fun s s' x hs hs' => ?_, fun x hux hox => ?_⟩
  · have := hother s
    have := (h.live · x)
    grind +splitImp
  · have := hother s
    have := hother s'
    have := (h.unique · · x)
    grind +splitImp
  · obtain ⟨s, hs⟩ := h.covered x (by grind) (by grind)
    by_cases hsr : s = r
    · exact ⟨t, by grind⟩
    · exact ⟨s, by grind⟩

/-- Only orphans are reclaimed. -/
theorem reclaim (hr : ∀ r, ref' r = ref r) (hu : ∀ b, used' b → used b)
    (hfree : ∀ b, used b → ¬used' b → orphan b) (ho : ∀ b, used' b → (orphan' b ↔ orphan b)) :
    Custody ref' used' orphan' :=
  h.of_live hr fun b => by grind

end Custody

end Fortress
