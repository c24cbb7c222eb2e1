import Mathlib.Algebra.Order.Field.Rat
import Mathlib.Data.Rat.Sqrt
import NotepadCalculator.Number.Amount

/-!
Rational numbers as amounts. A rule over amounts that is read with them is read exactly: decimals
are what they say and no result is rounded, but for a root, which is exact for squares only.
-/
namespace NotepadCalculator.Number

instance : Amount ℚ where
  ofDecimal n places := mkRat n (tenTo places)
  tens n := tenTo n
  ofInt n := n
  lt x y := x < y
  isZero x := x = 0
  isFinite _ := true
  remainder x y := x - y * (x / y).num.tdiv (x / y).den
  root := Rat.sqrt
  magnitude x := if x < 0 then -x else x
  integral direction x := match direction with
    | .down => x.floor
    | .up => x.ceil
    -- A half goes away from zero.
    | .nearest => if x < 0 then -(mkRat 1 2 - x).floor else (x + mkRat 1 2).floor
  whole? x := if x.den = 1 then some x.num else none
  fixed places x := withSign (x < 0)
    (withPoint places (roundHalfEven (x.num.natAbs * tenTo places) x.den))
  -- Not every rational number has a decimal text, so all are written as fractions.
  plain x := toString x

namespace Amount

theorem zero_eq : (zero : ℚ) = 0 := by simp [zero, ofNat, ofDecimal]

theorem isPositive_iff {x : ℚ} : isPositive x = true ↔ 0 < x := by
  simp [isPositive, zero_eq, lt]

theorem isNegative_iff {x : ℚ} : isNegative x = true ↔ x < 0 := by
  simp [isNegative, zero_eq, lt]

end Amount

end NotepadCalculator.Number
