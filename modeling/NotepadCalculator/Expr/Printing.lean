import NotepadCalculator.Expr.Basic
import NotepadCalculator.Token.Basic

/-!
Expressions written with the fewest parentheses. A percent sign binds tighter than a sign in front,
that one tighter than products and these tighter than sums; chains group to the left. A sign may
not follow the percent sign of a remainder, which would be taken for a percentage there.
-/
namespace NotepadCalculator
open Number

inductive Symbol where
  | plus
  | minus
  | multiply
  | divide
  | percent
  | openParen
  | closeParen
  | comma
  | tilde
  | hash
  deriving DecidableEq, Repr

def Symbol.kind : Symbol → TokenKind
  | .plus => .plus
  | .minus => .minus
  | .multiply => .multiply
  | .divide => .divide
  | .percent => .percent
  | .openParen => .openParen
  | .closeParen => .closeParen
  | .comma => .comma
  | .tilde => .tilde
  | .hash => .hash

/-- What a token of a written expression says. Numbers may be spelled in many ways. -/
inductive Mark where
  | symbol (written : Symbol)
  | number (amount : Float)
  | count (n : Nat)
  | name (word : String)
  | previous
  deriving Repr

namespace Mark

def kind : Mark → TokenKind
  | .symbol written => written.kind
  | .number _ => .number
  | .count _ => .number
  | .name _ => .identifier
  | .previous => .identifier

def Reads : Mark → String → Prop
  | .symbol _, _ => True
  | .number amount, text => float? text = some amount
  | .count n, text => natural? wordLimit text.toList = some n
  | .name word, text => text = word
  | .previous, text => isPrev text = true

structure ShownBy (mark : Mark) (token : Token) : Prop where
  kind : token.kind = mark.kind
  reads : mark.Reads token.text

end Mark

def BinaryOp.sign : BinaryOp → Symbol
  | .add => .plus
  | .subtract => .minus
  | .multiply => .multiply
  | .divide => .divide
  | .remainder => .percent

def UnaryOp.sign : UnaryOp → Symbol
  | .negate => .minus
  | .plus => .plus
  | .percent => .percent

/-! How tight an expression is: 0 for sums, 1 for products, 2 for signs, 3 for percentages and 4 for
what needs no parentheses anywhere. -/

def BinaryOp.level : BinaryOp → Nat
  | .add | .subtract => 0
  | .multiply | .divide | .remainder => 1

def BinaryOp.rightLevel : BinaryOp → Nat
  | .add | .subtract => 1
  | .multiply | .divide => 2
  | .remainder => 3

def UnaryOp.level : UnaryOp → Nat
  | .negate | .plus => 2
  | .percent => 3

namespace Expr

def level : Expr Float → Nat
  | .binary op _ _ => op.level
  | .unary op _ => op.level
  | _ => 4

def enclose (required level : Nat) (marks : List Mark) : List Mark :=
  if level < required then
    .symbol .openParen :: (marks ++ [.symbol .closeParen])
  else marks

def deepen (required level depth : Nat) : Nat := if level < required then depth + 1 else depth

mutual

def marks : Expr Float → List Mark
  | .number amount => [.number amount]
  | .variable name => [.name name]
  | .previous .latest => [.previous]
  | .previous (.back count) => [.previous, .symbol .tilde, .count count]
  | .previous (.line id) => [.previous, .symbol .hash, .count id]
  | .unary .percent operand => enclose 3 operand.level operand.marks ++ [.symbol .percent]
  | .unary op operand => .symbol op.sign :: enclose op.level operand.level operand.marks
  | .binary op left right =>
    enclose op.level left.level left.marks ++
      .symbol op.sign :: enclose op.rightLevel right.level right.marks
  | .call name arguments =>
    .name name :: .symbol .openParen :: (argumentMarks arguments ++ [.symbol .closeParen])
  | _ => []

def argumentMarks : List (Expr Float) → List Mark
  | [] => []
  | first :: rest =>
    first.marks ++ if rest.isEmpty then [] else .symbol .comma :: argumentMarks rest

end

mutual

/-- How deep parentheses, calls and signs are nested. -/
def nesting : Expr Float → Nat
  | .unary .percent operand => deepen 3 operand.level operand.nesting
  | .unary op operand => deepen op.level operand.level operand.nesting + 1
  | .binary op left right =>
    max (deepen op.level left.level left.nesting) (deepen op.rightLevel right.level right.nesting)
  | .call _ arguments => argumentNesting arguments + 1
  | _ => 0

def argumentNesting : List (Expr Float) → Nat
  | [] => 0
  | first :: rest => max first.nesting (argumentNesting rest)

end

/-- What can be written so: no units, dates, texts, conversions or assignments. -/
def isWritable : Expr Float → Bool
  | .number _ => true
  | .variable name => !isPrev name
  | .previous .latest => true
  | .previous (.back count) => 1 ≤ count
  | .previous (.line id) => 1 ≤ id
  | .unary _ _ => true
  | .binary _ _ _ => true
  | .call name _ => Text.lowerAscii name = name && !isPrev name
  | _ => false

end Expr

end NotepadCalculator
