import NotepadCalculator.Number.Exact
import NotepadCalculator.Text.CharacterClass
import NotepadCalculator.Text.Casing

/-!
Decimal text. Reading takes a sign, digits, a point and an exponent, or a word for infinity or for
no number. Writing comes in two kinds: a fixed number of places, rounded on the exact value with
ties to even, and the fewest digits that read back as the same double.
-/
namespace NotepadCalculator.Number
open NotepadCalculator.Text

def digitValue (c : Char) : Nat := c.toNat - '0'.toNat

def digitsValue (cs : List Char) : Nat := cs.foldl (fun n c => 10 * n + digitValue c) 0

def hexValue? (c : Char) : Option Nat :=
  if isDigit c then some (digitValue c)
  else if 'a' ≤ c && c ≤ 'f' then some (c.toNat - 'a'.toNat + 10)
  else if 'A' ≤ c && c ≤ 'F' then some (c.toNat - 'A'.toNat + 10)
  else none

def numberIn? (base : Nat) (cs : List Char) : Option Nat :=
  (cs.mapM fun c => (hexValue? c).filter (· < base)).map (·.foldl (fun n d => base * n + d) 0)

def hexNumber? (cs : List Char) : Option Nat := numberIn? 16 cs

def digits (n : Nat) : List Char := Nat.toDigits 10 n

def padded (width : Nat) (cs : List Char) : List Char :=
  List.replicate (width - cs.length) '0' ++ cs

def natural? (limit : Nat) (cs : List Char) : Option Nat :=
  let body := if cs.head? = some '+' then cs.tail else cs
  if body ≠ [] ∧ body.all isDigit ∧ digitsValue body ≤ limit then some (digitsValue body) else none

def wordLimit : Nat := 0xffffffffffffffff

def signedLimit : Nat := 0x7fffffffffffffff

/-- What a written number denotes: `digits` times ten to the `exponent`. -/
inductive Numeral where
  | notANumber
  | infinite (negative : Bool)
  | decimal (negative : Bool) (digits : Nat) (exponent : Int)
  deriving DecidableEq, Repr

def splitSign : List Char → Bool × List Char
  | '-' :: rest => (true, rest)
  | '+' :: rest => (false, rest)
  | cs => (false, cs)

def tenPower? : List Char → Option Int
  | [] => some 0
  | mark :: rest =>
    let (negative, body) := splitSign rest
    if (mark = 'e' ∨ mark = 'E') ∧ body ≠ [] ∧ body.all isDigit then
      some (signed negative (digitsValue body))
    else none

def Numeral.ofDigits? (negative : Bool) (cs : List Char) : Option Numeral :=
  let whole := cs.takeWhile isDigit
  let (places, rest) := match cs.dropWhile isDigit with
    | '.' :: tail => (tail.takeWhile isDigit, tail.dropWhile isDigit)
    | tail => ([], tail)
  if whole = [] ∧ places = [] then none
  else (tenPower? rest).map fun power =>
    .decimal negative (digitsValue (whole ++ places)) (power - places.length)

def Numeral.read? (cs : List Char) : Option Numeral :=
  let (negative, body) := splitSign cs
  let word := String.ofList (body.map asciiLower)
  if word = "inf" ∨ word = "infinity" then some (.infinite negative)
  else if word = "nan" then some .notANumber
  else Numeral.ofDigits? negative body

def Numeral.toFloat : Numeral → Float
  | .notANumber => Exact.toFloat .notANumber
  | .infinite negative => Exact.toFloat (.infinite negative)
  | .decimal negative m e =>
    let magnitude := Float.ofScientific m (e < 0) e.natAbs
    if negative then -magnitude else magnitude

def float? (s : String) : Option Float := (Numeral.read? s.toList).map Numeral.toFloat

/-! Fixed places. -/

def roundHalfEven (num den : Nat) : Nat :=
  let whole := num / den
  let rest := num % den
  if 2 * rest < den ∨ (2 * rest = den ∧ whole % 2 = 0) then whole else whole + 1

def scaledDigits (places mantissa : Nat) (exponent : Int) : Nat :=
  if 0 ≤ exponent then mantissa * twoTo exponent.toNat * tenTo places
  else roundHalfEven (mantissa * tenTo places) (twoTo (-exponent).toNat)

def withPoint (places n : Nat) : List Char :=
  let all := padded (places + 1) (digits n)
  let whole := all.take (all.length - places)
  if places = 0 then whole else whole ++ '.' :: all.drop (all.length - places)

def withSign (negative : Bool) (cs : List Char) : String :=
  String.ofList (if negative then '-' :: cs else cs)

def Exact.fixed (places : Nat) : Exact → String
  | .notANumber => "NaN"
  | .infinite negative => withSign negative "inf".toList
  | .finite negative mantissa exponent =>
    withSign negative (withPoint places (scaledDigits places mantissa exponent))

/-! The fewest digits. -/

inductive Tie where
  | toEven
  | upward
  deriving DecidableEq, Repr

structure Scientific where
  coefficient : Nat
  exponent : Int
  deriving DecidableEq, Repr

def Scientific.reduced (s : Scientific) : Scientific :=
  let zeros := ((digits s.coefficient).reverse.takeWhile (· = '0')).length
  ⟨s.coefficient / tenTo zeros, s.exponent + zeros⟩

/-- A positive magnitude `value / unit` with the ends of the interval of reals that round to it;
    the ends belong to the interval when `closed`. -/
structure Interval where
  low : Nat
  value : Nat
  high : Nat
  unit : Nat
  closed : Bool
  deriving DecidableEq, Repr

def Interval.holds (i : Interval) (n : Nat) : Bool :=
  if i.closed then i.low ≤ n && n ≤ i.high else i.low < n && n < i.high

/-- Half the distance to either neighbour, in quarters of the last place. The lower neighbour of a
    power of two is only half as far away. -/
def Interval.around (mantissa : Nat) (exponent : Int) : Interval :=
  let below := if mantissa = twoTo 52 ∧ -1074 < exponent then 1 else 2
  let grow := (exponent - 2).toNat
  let unit := (2 - exponent).toNat
  ⟨(4 * mantissa - below) * twoTo grow, 4 * mantissa * twoTo grow, (4 * mantissa + 2) * twoTo grow,
    twoTo unit, mantissa % 2 = 0⟩

def Interval.decade (i : Interval) : Int :=
  if i.unit ≤ i.value then (digits (i.value / i.unit)).length
  else 1 - ((digits ((i.unit - 1) / i.value)).length : Int)

/-- The nearest point to the value on the grid of ten to the `step`, if the interval holds it. -/
def Interval.onGrid? (i : Interval) (tie : Tie) (step : Int) : Option Scientific :=
  let fine := tenTo (-step).toNat
  let cell := tenTo step.toNat * i.unit
  let scaled : Interval := ⟨i.low * fine, i.value * fine, i.high * fine, cell, i.closed⟩
  let down := scaled.value / cell
  let rest := scaled.value % cell
  let lower := scaled.holds (down * cell)
  let upper := scaled.holds ((down + 1) * cell)
  let upward := 2 * rest > cell || (2 * rest = cell && (tie = .upward || down % 2 = 1))
  if upper && (upward || !lower) then some ⟨down + 1, step⟩
  else if lower then some ⟨down, step⟩
  else none

/-- Seventeen digits always suffice. -/
def Interval.shortest (i : Interval) (tie : Tie) : Scientific :=
  ((List.range 17).findSome? fun n => i.onGrid? tie (i.decade - (n + 1 : Nat))).getD ⟨0, 0⟩

def shortestDigits (tie : Tie) (mantissa : Nat) (exponent : Int) : Scientific :=
  if mantissa = 0 then ⟨0, 0⟩ else ((Interval.around mantissa exponent).shortest tie).reduced

def Scientific.positional (s : Scientific) : List Char :=
  if 0 ≤ s.exponent then digits (s.coefficient * tenTo s.exponent.toNat)
  else withPoint (-s.exponent).toNat s.coefficient

/-- The shortest text without an exponent, as numbers stand in messages. -/
def Exact.plain : Exact → String
  | .notANumber => "NaN"
  | .infinite negative => withSign negative "inf".toList
  | .finite negative mantissa exponent =>
    withSign negative (shortestDigits .upward mantissa exponent).positional

end NotepadCalculator.Number
