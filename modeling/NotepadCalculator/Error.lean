import NotepadCalculator.Expr.Basic
import NotepadCalculator.Measurement.UnitSystem
import NotepadCalculator.Value.Basic

/-!
Everything that can go wrong with a line, by cause. A parse error points at a position of the line;
the others arise when a well-formed line is evaluated or when a command is refused.
-/
namespace NotepadCalculator
open Measurement

def nestingLimit : Nat := 200

inductive Wanted where
  | conversionTarget
  | amountAfterSymbol
  | opening
  | closing
  | lineNumber
  | argumentsAfter (name : String)
  | ofAfter (phrase : String)
  | quartersAfterThree
  | by
  | unitAfter (word : String)
  deriving DecidableEq, Repr

def Wanted.text : Wanted → String
  | .conversionTarget => "a unit or currency after 'in'"
  | .amountAfterSymbol => "an amount after the currency symbol"
  | .opening => "'('"
  | .closing => "')'"
  | .lineNumber => "a line number after 'prev#'"
  | .argumentsAfter name => s!"'(' or 'of' after '{name}'"
  | .ofAfter phrase => s!"'of' after '{phrase}'"
  | .quartersAfterThree => "'quarters' after 'three'"
  | .by => "'by'"
  | .unitAfter word => s!"a unit after '{word}'"

inductive SyntaxFault where
  | unreadable (message : String)
  | expected (what : Wanted) (found : Option String)
  | unexpected (text : String)
  | unexpectedEnd
  | malformedCommand
  | phraseOff (word : String)
  | reservedName
  | tooDeep
  | badNumber (text : String)
  | badDate
  | badTime (text : String)
  | badCount
  deriving DecidableEq, Repr

def SyntaxFault.message : SyntaxFault → String
  | .unreadable message => message
  | .expected what none => s!"Expected {what.text}, found end of input"
  | .expected what (some text) => s!"Expected {what.text}, found '{text}'"
  | .unexpected text => s!"Unexpected token '{text}'"
  | .unexpectedEnd => "Unexpected end of input"
  | .malformedCommand => "Malformed command"
  | .phraseOff word => s!"'{word}' needs fuzzy mode"
  | .reservedName => "Cannot assign to 'prev'"
  | .tooDeep => s!"Expression too deeply nested (max depth: {nestingLimit})"
  | .badNumber text => s!"Invalid number '{text}'"
  | .badDate => "Invalid date"
  | .badTime text => s!"Invalid time '{text}'"
  | .badCount => "Expected a positive whole number"

/-- The position counts characters from the start of the line. -/
structure ParseError where
  fault : SyntaxFault
  position : Nat
  deriving DecidableEq, Repr

def ParseError.message (e : ParseError) : String := s!"{e.fault.message} at position {e.position}"

inductive UnitClash where
  | pair (source target : String)
  | notDuration (name : String)
  deriving DecidableEq, Repr

def UnitClash.message : UnitClash → String
  | .pair source target => s!"'{source}' vs '{target}'"
  | .notDuration name => s!"'{name}' is not a duration"

inductive Unreachable where
  | nothingYet
  | beforeFirst (back : Nat)
  | notYet (line : Nat)
  | missing (line : Nat)
  deriving DecidableEq, Repr

def Unreachable.message : Unreachable → String
  | .nothingYet => "no previous result"
  | .beforeFirst back => s!"prev~{back} reaches before the first line"
  | .notYet line => s!"line {line} does not exist yet"
  | .missing line => s!"line {line} does not exist"

inductive Usage where
  | quiet
  | set
  | unit
  deriving DecidableEq, Repr

def Usage.text : Usage → String
  | .quiet => ":quiet [on|off]"
  | .set => ":set precision <0-12> | fuzzy on|off | quiet on|off"
  | .unit => ":unit <name> <scale> <base unit>"

inductive ArgumentFault where
  | tooFew (function : String) (least given : Nat)
  | tooMany (function : String) (most given : Nat)
  | nothingToSum
  | needsValue (function : String)
  | unlike (function : String) (one other : Kind)
  | incomparable (function : String)
  | negativeRoot
  | unevenPlaces
  | noAmount (function : String) (kind : Kind)
  | usage (command : Usage)
  deriving DecidableEq, Repr

def arguments (count : Nat) : String := if count = 1 then "argument" else "arguments"

def ArgumentFault.message : ArgumentFault → String
  | .tooFew f least given => s!"{f}() requires at least {least} {arguments least}, got {given}"
  | .tooMany f most given => s!"{f}() takes at most {most} {arguments most}, got {given}"
  | .nothingToSum => "nothing to sum"
  | .needsValue f => s!"{f}() needs a value"
  | .unlike f one other => s!"{f}() cannot compare a {one.label} with a {other.label}"
  | .incomparable f => s!"{f}() cannot compare these values"
  | .negativeRoot => "sqrt() of a negative value"
  | .unevenPlaces => "round() digits must be a whole number"
  | .noAmount f kind => s!"{f}() expects a number, got a {kind.label}"
  | .usage command => s!"usage: {command.text}"

inductive OperationFault where
  | tooDeep
  | isCommand (name : String)
  | isBlank
  | noResult (line : Nat)
  | noPercentage (kind : Kind)
  | noSign (kind : Kind)
  | mismatch (op : BinaryOp) (left right : Kind)
  | plainWithUnit (op : BinaryOp) (name : String)
  | unitWithPlain (op : BinaryOp) (name : String)
  | unitProduct (left right : String)
  | unitRemainder (left right : String)
  | noUnit (kind : Kind) (target : String)
  | unit (fault : UnitFault)
  | dateRange
  | unknownCommand (name : String)
  deriving DecidableEq, Repr

def OperationFault.message : OperationFault → String
  | .tooDeep => "expression too deeply nested"
  | .isCommand name => s!"':{name}' is a command, not an expression"
  | .isBlank => "nothing to evaluate"
  | .noResult line => s!"line {line} has no result"
  | .noPercentage kind => s!"cannot take a {kind.label} as a percentage"
  | .noSign kind => s!"cannot apply a sign to a {kind.label}"
  | .mismatch op left right => s!"cannot {op.verb} {left.label} and {right.label}"
  | .plainWithUnit op name => s!"cannot {op.verb} a plain number and '{name}'"
  | .unitWithPlain op name => s!"cannot {op.verb} '{name}' and a plain number"
  | .unitProduct left right => s!"cannot multiply '{left}' by '{right}'"
  | .unitRemainder left right => s!"cannot take the remainder of '{left}' and '{right}'"
  | .noUnit kind target => s!"a {kind.label} has no unit to convert to '{target}'"
  | .unit fault => fault.message
  | .dateRange => "date out of range"
  | .unknownCommand name => s!"unknown command ':{name}'"

inductive EvalError where
  | divisionByZero
  | undefinedVariable (name : String)
  | incompatibleUnits (clash : UnitClash)
  | unknownUnit (name : String)
  | unknownCurrency (name : String)
  | outOfReach (why : Unreachable)
  | circularReference (line : Nat)
  | unknownFunction (name : String)
  | invalidArguments (fault : ArgumentFault)
  | invalidOperation (fault : OperationFault)
  | beyondCalendar
  deriving DecidableEq, Repr

def EvalError.message : EvalError → String
  | .divisionByZero => "division by zero"
  | .undefinedVariable name => s!"undefined variable '{name}'"
  | .incompatibleUnits clash => s!"incompatible units: {clash.message}"
  | .unknownUnit name => s!"unknown unit '{name}'"
  | .unknownCurrency name => s!"unknown currency '{name}'"
  | .outOfReach why => why.message
  | .circularReference line => s!"circular reference at line {line}"
  | .unknownFunction name => s!"unknown function '{name}'"
  | .invalidArguments fault => fault.message
  | .invalidOperation fault => fault.message
  | .beyondCalendar => "the calendar ends here"

def EvalError.ofUnitFault : UnitFault → EvalError
  | .unknown name => .unknownUnit name
  | .incompatible source target => .incompatibleUnits (.pair source target)
  | fault => .invalidOperation (.unit fault)

inductive LineError where
  | parse (error : ParseError)
  | eval (error : EvalError)
  deriving DecidableEq, Repr

def LineError.message : LineError → String
  | .parse error => s!"Parse error: {error.message}"
  | .eval error => error.message

end NotepadCalculator
