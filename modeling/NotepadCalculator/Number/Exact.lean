/-!
Doubles read exactly: a finite one is a sign, a whole mantissa and a power of two. Rounding to a
whole number and the remainder are computed on this form without loss; only going back to a
double rounds, to nearest with ties to even.
-/
namespace NotepadCalculator.Number

inductive Exact where
  | notANumber
  | infinite (negative : Bool)
  | finite (negative : Bool) (mantissa : Nat) (exponent : Int)
  deriving DecidableEq, Repr

def twoTo (n : Nat) : Nat := Nat.pow 2 n
def tenTo (n : Nat) : Nat := Nat.pow 10 n

def signed (negative : Bool) (n : Nat) : Int := if negative then -(n : Int) else n

section
open Float.Model UnpackedFloat

def isMinus : Sign → Bool
  | .positive => false
  | .negative => true

def signOf (negative : Bool) : Sign := if negative then .negative else .positive

def Exact.ofFloat (x : Float) : Exact :=
  match x.toModel.unpack with
  | .notANumber => .notANumber
  | .infinity s => .infinite (isMinus s)
  | .zero s => .finite (isMinus s) 0 0
  | .finite s mantissa exponent _ => .finite (isMinus s) mantissa exponent

def Exact.toFloat (x : Exact) : Float :=
  .ofModel (.pack (match x with
    | .notANumber => .notANumber
    | .infinite negative => .infinity (signOf negative)
    | .finite negative 0 _ => .zero (signOf negative)
    | .finite negative mantissa exponent =>
      UnpackedFloat.round Format.binary64 (signOf negative) mantissa exponent))

end

inductive Direction where
  | down
  | up
  | nearest
  deriving DecidableEq, Repr

/-- Whether the magnitude grows, for a part `rest` of `unit` beyond a whole number. A half goes
    away from zero. -/
def Direction.grows (direction : Direction) (negative : Bool) (rest unit : Nat) : Bool :=
  match direction with
  | .down => negative && rest ≠ 0
  | .up => !negative && rest ≠ 0
  | .nearest => unit ≤ 2 * rest

def Exact.integral (direction : Direction) : Exact → Exact
  | .finite negative mantissa exponent =>
    if 0 ≤ exponent then .finite negative mantissa exponent
    else
      let unit := twoTo (-exponent).toNat
      let whole := mantissa / unit
      .finite negative
        (if direction.grows negative (mantissa % unit) unit then whole + 1 else whole) 0
  | x => x

def Exact.whole? : Exact → Option Int
  | .finite negative mantissa exponent =>
    if 0 ≤ exponent then some (signed negative (mantissa * twoTo exponent.toNat))
    else
      let unit := twoTo (-exponent).toNat
      if mantissa % unit = 0 then some (signed negative (mantissa / unit)) else none
  | _ => none

/-- What is left of the first after taking out the second as often as it fits, with the sign of
    the first. -/
def Exact.remainder : Exact → Exact → Exact
  | .finite negative m e, .finite _ n f =>
    if n = 0 then .notANumber
    else
      let low := min e f
      .finite negative ((m * twoTo (e - low).toNat) % (n * twoTo (f - low).toNat)) low
  | .finite negative m e, .infinite _ => .finite negative m e
  | _, _ => .notANumber

end NotepadCalculator.Number
