import NotepadCalculator.Error
import NotepadCalculator.Expr.Basic

/-! Lines of a sheet and what came of them. -/
namespace NotepadCalculator
open Number

/-- A silent outcome has nothing to show and is no failure. -/
inductive Outcome where
  | success (value : Value Float)
  | silent
  | failure (error : LineError)
  deriving DecidableEq, Repr

namespace Outcome

def isSuccess : Outcome → Bool
  | .success _ => true
  | _ => false

def value? : Outcome → Option (Value Float)
  | .success value => some value
  | _ => none

def message? : Outcome → Option String
  | .failure error => some error.message
  | _ => none

def show? (places : Nat) : Outcome → Option String
  | .success value => some (value.show places)
  | .silent => none
  | .failure error => some ("Error: " ++ error.message)

end Outcome

/-- The value is kept even where the outcome is silent. -/
structure Line where
  id : Nat
  input : String
  expr : Expr Float
  outcome : Outcome
  value : Option (Value Float)
  deriving Repr

end NotepadCalculator
