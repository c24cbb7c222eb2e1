import NotepadCalculator.Calendar.Notation

/-!
Expressions. Phrases are written out as ordinary arithmetic when a line is read, so none is left
here; a day word stays until the line is evaluated.
-/
namespace NotepadCalculator
open Calendar Number

inductive BinaryOp where
  | add
  | subtract
  | multiply
  | divide
  /-- The remainder of two numbers; with a percentage on the left, so much of the right side. -/
  | remainder
  deriving DecidableEq, Repr

inductive UnaryOp where
  | negate
  | plus
  | percent
  deriving DecidableEq, Repr

def BinaryOp.symbol : BinaryOp → String
  | .add => "+"
  | .subtract => "-"
  | .multiply => "*"
  | .divide => "/"
  | .remainder => "%"

def BinaryOp.verb : BinaryOp → String
  | .add => "add"
  | .subtract => "subtract"
  | .multiply => "multiply"
  | .divide => "divide"
  | .remainder => "take the remainder of"

/-- An earlier line: the latest, so many lines back, or the one with that number. -/
inductive Reference where
  | latest
  | back (count : Nat)
  | line (number : Nat)
  deriving DecidableEq, Repr

inductive Expr (α : Type) where
  | number (amount : α)
  | unit (amount : α) (name : String)
  | currency (amount : α) (word : String)
  | date (spec : DateSpec)
  | time (clock : ClockTime)
  | text (content : String)
  | variable (name : String)
  | assign (name : String) (value : Expr α)
  | binary (op : BinaryOp) (left right : Expr α)
  | unary (op : UnaryOp) (operand : Expr α)
  | call (name : String) (arguments : List (Expr α))
  | convert (value : Expr α) (target : String)
  | previous (reference : Reference)
  | command (name : String) (arguments : List String)
  | blank
  deriving Repr

namespace Expr
variable {α : Type}

def isAssignment : Expr α → Bool
  | .assign _ _ => true
  | _ => false

def spineOnto : Expr α → List (BinaryOp × Expr α) → Expr α × List (BinaryOp × Expr α)
  | .binary op left right, steps => left.spineOnto ((op, right) :: steps)
  | e, steps => (e, steps)

/-- The leftmost operand and the steps that build the expression from it. -/
def spine (e : Expr α) : Expr α × List (BinaryOp × Expr α) := e.spineOnto []

/-! Phrases. -/

variable [Amount α]

def half (e : Expr α) : Expr α := .binary .divide e (.number (Amount.ofNat 2))
def twice (e : Expr α) : Expr α := .binary .multiply e (.number (Amount.ofNat 2))
def threeQuarters (e : Expr α) : Expr α :=
  .binary .multiply e (.number (Amount.ofDecimal 75 2))

def changeBy (op : BinaryOp) (base amount : Expr α) : Expr α :=
  match amount with
  | .unary .percent part =>
    .binary .multiply base
      (.binary op (.number (Amount.ofNat 1)) (.binary .divide part (.number (Amount.ofNat 100))))
  | amount => .binary op base amount

def partOf (percentage whole : Expr α) : Expr α := .binary .remainder percentage whole
def ago (span : Expr α) : Expr α := .binary .subtract (.date .now) span
def after (span anchor : Expr α) : Expr α := .binary .add anchor span
def before (span anchor : Expr α) : Expr α := .binary .subtract anchor span

def fromToday (op : BinaryOp) (name : String) : Expr α :=
  .binary op (.date .today) (.unit (Amount.ofNat 1) name)

end Expr

end NotepadCalculator
