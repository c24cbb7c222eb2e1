import NotepadCalculator.Value.Basic

/-!
Values as records: one JSON object on one line, with a type and a value. Numbers are written with
the fewest digits that read back, and what is no finite number becomes null.
-/
namespace NotepadCalculator.Record
open NotepadCalculator.Number

/-- How an amount is written: up to which powers of ten without an exponent, and what becomes of
    a tie between two shortest texts. -/
structure AmountFormat where
  lowest : Int
  highest : Int
  tie : Tie
  deriving DecidableEq, Repr

def amountFormat : AmountFormat := ⟨-5, 15, .toEven⟩

def pointAfterFirst : List Char → List Char
  | [] => []
  | [c] => [c]
  | c :: rest => c :: '.' :: rest

def AmountFormat.write (format : AmountFormat) (s : Scientific) : List Char :=
  let written := digits s.coefficient
  let power := s.exponent + written.length - 1
  if s.coefficient = 0 then "0.0".toList
  else if format.lowest ≤ power ∧ power ≤ format.highest then
    if 0 ≤ s.exponent then s.positional ++ ".0".toList else s.positional
  else
    let sign := if power < 0 then '-' else '+'
    pointAfterFirst written ++ 'e' :: sign :: digits power.natAbs

def amountText (x : Float) : String :=
  match Exact.ofFloat x with
  | .finite negative mantissa exponent =>
    withSign negative (amountFormat.write (shortestDigits amountFormat.tie mantissa exponent))
  | _ => "null"

def escaped (c : Char) : List Char :=
  if c = '"' then "\\\"".toList
  else if c = '\\' then "\\\\".toList
  else if c = '\x08' then "\\b".toList
  else if c = '\x0c' then "\\f".toList
  else if c = '\n' then "\\n".toList
  else if c = '\r' then "\\r".toList
  else if c = '\t' then "\\t".toList
  else if c.toNat < 32 then "\\u".toList ++ padded 4 (Nat.toDigits 16 c.toNat)
  else [c]

def quoted (s : String) : String := String.ofList ('"' :: s.toList.flatMap escaped ++ ['"'])

def object (fields : List (String × String)) : String :=
  "\x7b" ++ ",".intercalate (fields.map fun (name, value) => quoted name ++ ":" ++ value) ++ "\x7d"

def typed (type value : String) : String := object [("type", quoted type), ("value", value)]

def value : Value Float → String
  | .number a => typed "number" (amountText a)
  | .percent a => typed "percent" (amountText a)
  | .currency a code => typed "currency" (object [("amount", amountText a), ("code", quoted code)])
  | .unit a name => typed "unit" (object [("amount", amountText a), ("unit", quoted name)])
  | .date moment => typed "date" (quoted moment.recordText)
  | .text content => typed "text" (quoted content)

end NotepadCalculator.Record
