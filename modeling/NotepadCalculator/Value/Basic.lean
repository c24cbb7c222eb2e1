import NotepadCalculator.Calendar.Notation
import NotepadCalculator.Money.Rates

/-!
Values of the calculator. An amount carries a tag that says what it counts; dates and texts have no
amount. A value is shown with a fixed number of places. A sign in front of nothing but zeros is left
out, though not in front of a currency symbol.
-/
namespace NotepadCalculator
open Calendar Money Number

/-- A percentage counts hundredths, so 20% holds 20. -/
inductive Tag where
  | number
  | percent
  | currency (code : String)
  | unit (name : String)
  deriving DecidableEq, Repr

inductive Value (α : Type) where
  | scalar (tag : Tag) (amount : α)
  | date (moment : Moment)
  | text (content : String)
  deriving DecidableEq, Repr

inductive Kind where
  | number
  | percentage
  | currency
  | unit
  | date
  | text
  deriving DecidableEq, Repr

def Kind.label : Kind → String
  | .number => "number"
  | .percentage => "percentage"
  | .currency => "currency"
  | .unit => "unit"
  | .date => "date"
  | .text => "text"

def Tag.kind : Tag → Kind
  | .number => .number
  | .percent => .percentage
  | .currency _ => .currency
  | .unit _ => .unit

namespace Value
variable {α : Type}

@[match_pattern] abbrev number (a : α) : Value α := .scalar .number a
@[match_pattern] abbrev percent (a : α) : Value α := .scalar .percent a
@[match_pattern] abbrev currency (a : α) (code : String) : Value α := .scalar (.currency code) a
@[match_pattern] abbrev unit (a : α) (name : String) : Value α := .scalar (.unit name) a

def kind : Value α → Kind
  | .scalar tag _ => tag.kind
  | .date _ => .date
  | .text _ => .text

def amount? : Value α → Option α
  | .scalar _ a => some a
  | _ => none

def withAmount? (v : Value α) (a : α) : Option (Value α) :=
  match v with
  | .scalar tag _ => some (.scalar tag a)
  | _ => none

end Value

def dropZeroSign (cs : List Char) : List Char :=
  match cs with
  | '-' :: rest => if rest.all fun c => c = '0' || c = '.' then rest else cs
  | _ => cs

section
variable {α : Type} [Amount α]

def shownAmount (places : Nat) (a : α) : String :=
  String.ofList (dropZeroSign (Amount.fixed places a).toList)

/-- Degrees stand next to the amount, other units after a space. -/
def unitSpace (name : String) : String := if name.toList.head? = some '°' then "" else " "

def Tag.show (places : Nat) (tag : Tag) (a : α) : String :=
  match tag with
  | .number => shownAmount places a
  | .percent => shownAmount places a ++ "%"
  | .unit name => shownAmount places a ++ unitSpace name ++ name
  | .currency code => match symbolOf? code with
    | some symbol =>
      if Amount.isNegative a then "-" ++ symbol ++ shownAmount places (-a)
      else symbol ++ shownAmount places a
    | none => shownAmount places a ++ " " ++ code

def Value.show (places : Nat) : Value α → String
  | .scalar tag a => tag.show places a
  | .date moment => moment.text
  | .text content => content

end

end NotepadCalculator
