import NotepadCalculator.Number.Decimal

/-!
What the calculator asks of the numbers it calculates with. Rules about units, money, percentages
and functions are written once over this interface; the calculator itself runs on doubles, and
the same rules can be read with exact numbers.
-/
namespace NotepadCalculator.Number

class Amount (α : Type) extends Add α, Sub α, Mul α, Div α, Neg α where
  /-- The whole number divided by ten to the number of places. -/
  ofDecimal : Nat → Nat → α
  tens : Nat → α
  ofInt : Int → α
  lt : α → α → Bool
  isZero : α → Bool
  isFinite : α → Bool
  remainder : α → α → α
  root : α → α
  magnitude : α → α
  integral : Direction → α → α
  /-- The whole number that the amount equals, if there is one. -/
  whole? : α → Option Int
  fixed : Nat → α → String
  plain : α → String

namespace Amount
variable {α : Type} [Amount α]

def ofNat (n : Nat) : α := ofDecimal n 0
def zero : α := ofNat 0
def isNegative (x : α) : Bool := lt x zero
def isPositive (x : α) : Bool := lt zero x

def powerOfTen (power : Int) : α :=
  if 0 ≤ power then tens power.toNat else ofNat 1 / tens (-power).toNat

/-- Rounds to that many decimal places; negative ones stand for tens, hundreds and so on. -/
def roundTo (x : α) (places : Int) : α :=
  let scale : α := powerOfTen places
  integral .nearest (x * scale) / scale

end Amount

instance : Amount Float where
  ofDecimal n places := Float.ofScientific n true places
  tens := Float.ofScientific 1 false
  ofInt := Float.ofInt
  lt x y := x < y
  isZero x := x == 0.0
  isFinite := Float.isFinite
  remainder x y := ((Exact.ofFloat x).remainder (Exact.ofFloat y)).toFloat
  root := Float.sqrt
  magnitude := Float.abs
  integral direction x := ((Exact.ofFloat x).integral direction).toFloat
  whole? x := (Exact.ofFloat x).whole?
  fixed places x := (Exact.ofFloat x).fixed places
  plain x := (Exact.ofFloat x).plain

end NotepadCalculator.Number
