import Mathlib.Tactic.Common

/-!
# Collisions

What a hash identifies, it identifies up to a collision: two different inputs,
both of them known, with one hash.
-/

namespace Neo3App.Lib

variable {α β : Type} {hash : α → β} {first second : α}

/-- The two inputs are a collision of `hash`. -/
structure Collides (hash : α → β) (first second : α) : Prop where
  differ : first ≠ second
  same : hash first = hash second

/-- Inputs with one hash are equal or a collision. -/
theorem eq_or_collides (same : hash first = hash second) :
    first = second ∨ Collides hash first second := by
  by_cases equal : first = second
  · exact .inl equal
  · exact .inr ⟨equal, same⟩

end Neo3App.Lib
