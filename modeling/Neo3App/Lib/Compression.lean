import Mathlib.Algebra.Field.ZMod

/-!
# Compressed points

Over a field of odd characteristic a point `(x, y)` of a curve
`y ^ 2 = f x` is determined by `x` and the parity of `y`.
-/

namespace Neo3App.Lib

variable {p : ℕ}

/-- The opposite of a number other than zero has the other parity. -/
theorem parity_neg
    [NeZero p] (odd : p % 2 = 1) {y : ZMod p} (nonzero : y ≠ 0) :
    (-y).val % 2 ≠ y.val % 2 := by
  have below := y.val_lt
  rw [ZMod.neg_val, if_neg nonzero]
  omega

theorem eq_of_sq_of_parity
    [Fact p.Prime] (odd : p % 2 = 1) {y z : ZMod p} (square : y ^ 2 = z ^ 2)
    (parity : y.val % 2 = z.val % 2) : y = z := by
  rcases sq_eq_sq_iff_eq_or_eq_neg.mp square with same | opposite
  · exact same
  · by_cases zero : z = 0
    · rw [opposite, zero, neg_zero]
    · rw [opposite] at parity
      exact absurd parity (parity_neg odd zero)

/-- The numbers `x` and `y` are the coordinates of a point of the curve
`y ^ 2 = f x` modulo `p`. -/
structure CurvePoint (p : ℕ) (f : ZMod p → ZMod p) (x y : ℕ) : Prop where
  xSmall : x < p
  ySmall : y < p
  equation : (y : ZMod p) ^ 2 = f x

/-- Points with one first coordinate and parity are the same. -/
theorem CurvePoint.eq_of_parity
    [Fact p.Prime] (odd : p % 2 = 1) {f : ZMod p → ZMod p} {x y z : ℕ}
    (first : CurvePoint p f x y) (second : CurvePoint p f x z)
    (parity : y % 2 = z % 2) : y = z := by
  have ySmall := ZMod.val_natCast_of_lt first.ySmall
  have zSmall := ZMod.val_natCast_of_lt second.ySmall
  have same : (y : ZMod p) = z :=
    eq_of_sq_of_parity odd (first.equation.trans second.equation.symm)
      (by rw [ySmall, zSmall, parity])
  rw [← ySmall, ← zSmall, same]

end Neo3App.Lib
