import NotepadCalculator.Expr.Basic
import NotepadCalculator.Expr.Cursor
import NotepadCalculator.Token.Scan

/-!
From tokens to expressions. From loosest to tightest: conversion with `in`, sums, products, signs,
what follows an operand (a percent sign, `ago`, `from`, `after`, `before`), and terms. Sums and
products group to the left. Every expression and every sign goes one level deeper; below the last
level nothing is read, which is the only limit on nesting.
-/
namespace NotepadCalculator.Grammar
open Calendar Number Parse

/-- The two rules that go a level deeper. -/
inductive Rule where
  | expression
  | polarity
  deriving DecidableEq, Repr

abbrev Deeper := Rule → Parse (Expr Float)

/-! Units. -/

def isUnitName (token : Token) : Bool :=
  match token.kind with
  | .identifier | .unit | .keyword .quarters => true
  | _ => false

/-- A slash without any space around it, or the word `per`. -/
def joins (first separator denominator : Token) : Bool :=
  match separator.kind with
  | .divide => separator.position = first.stop && denominator.position = separator.stop
  | .keyword .per => true
  | _ => false

def unitName (first : Token) : Parse String := do
  let separator ← current
  let denominator ← following
  if (denominator.kind = .identifier || denominator.kind = .unit)
      && joins first separator denominator then
    advance
    advance
    return first.text ++ "/" ++ denominator.text
  else return first.text

def conversionTarget : Parse String := do
  let token ← current
  if token.kind = .currencySymbol then
    advance
    return token.text
  else if isUnitName token then
    advance
    unitName token
  else failExpected .conversionTarget

/-! Chains of operators that group to the left. -/

def additiveOp? : TokenKind → Option BinaryOp
  | .plus => some .add
  | .minus => some .subtract
  | _ => none

def multiplicativeOp? : TokenKind → Option BinaryOp
  | .multiply => some .multiply
  | .divide => some .divide
  | .percent => some .remainder
  | _ => none

def chainFuel (op? : TokenKind → Option BinaryOp) (operand : Parse (Expr Float)) :
    Nat → Expr Float → Parse (Expr Float)
  | 0, left => return left
  | fuel + 1, left => do
    match op? (← current).kind with
    | none => return left
    | some op =>
      advance
      let right ← operand
      chainFuel op? operand fuel (.binary op left right)

/-- Each operator is a token, so there are no more of them than tokens. -/
def chain (op? : TokenKind → Option BinaryOp) (operand : Parse (Expr Float)) :
    Parse (Expr Float) := do
  let first ← operand
  chainFuel op? operand (← remaining) first

def multiplicative (deeper : Deeper) : Parse (Expr Float) :=
  chain multiplicativeOp? (deeper .polarity)

def additive (deeper : Deeper) : Parse (Expr Float) := chain additiveOp? (multiplicative deeper)

/-! Terms. -/

def numberValue (token : Token) : Parse Float :=
  match float? token.text with
  | some value => return value
  | none => failAt token (.badNumber token.text)

def timeValue (token : Token) : Parse ClockTime :=
  match readClockTime? token.text with
  | some value => return value
  | none => failAt token (.badTime token.text)

/-- A word after a number is its unit, unless it is `prev` or begins a call. -/
def namesUnit (next afterNext : Token) : Bool :=
  match next.kind with
  | .unit | .keyword .quarters => true
  | .identifier => !isPrev next.text && afterNext.kind ≠ .openParen
  | _ => false

def numberTerm (token : Token) : Parse (Expr Float) := do
  let value ← numberValue token
  advance
  let next ← current
  if next.kind = .currencySymbol then
    advance
    return .currency value next.text
  else if namesUnit next (← following) then
    advance
    return .unit value (← unitName next)
  else return .number value

def symbolTerm (token : Token) : Parse (Expr Float) := do
  advance
  let amount ← expect .number .amountAfterSymbol
  return .currency (← numberValue amount) token.text

def dateTerm (token : Token) : Parse (Expr Float) := do
  match readDay? token.text with
  | none => failAt token .badDate
  | some day =>
    advance
    let next ← current
    if next.kind = .time then
      let clock ← timeValue next
      advance
      return .date (.at (day.at clock))
    else return .date (.on day)

def timeTerm (token : Token) : Parse (Expr Float) := do
  let clock ← timeValue token
  advance
  return .time clock

def count : Parse Nat := do
  let token ← current
  match (natural? wordLimit token.text.toList).filter (0 < ·) with
  | some n =>
    advance
    return n
  | none => failAt token .badCount

/-- `prev` has been passed; without a number, `prev~` goes one line back. -/
def reference : Parse Reference := do
  match (← current).kind with
  | .tilde =>
    advance
    if ← isAt .number then return .back (← count) else return .back 1
  | .hash =>
    advance
    if ← isAt .number then return .line (← count) else failExpected .lineNumber
  | _ => return .latest

def callArguments (deeper : Deeper) : Parse (List (Expr Float)) := do
  let _ ← expect .openParen .opening
  let arguments ← if ← isAt .closeParen then pure [] else commaSeparated (deeper .expression)
  let _ ← expect .closeParen .closing
  return arguments

def nameTerm (deeper : Deeper) (token : Token) : Parse (Expr Float) := do
  advance
  if isPrev token.text then return .previous (← reference)
  else if ← isAt .openParen then
    return .call (Text.lowerAscii token.text) (← callArguments deeper)
  else return .variable token.text

def parenthesized (deeper : Deeper) : Parse (Expr Float) := do
  advance
  let inner ← deeper .expression
  let _ ← expect .closeParen .closing
  return inner

def aggregate (deeper : Deeper) (token : Token) : Parse (Expr Float) := do
  advance
  let name := Text.lowerAscii token.text
  if ← isAt .openParen then return .call name (← callArguments deeper)
  else if ← isAt (.keyword .of) then
    advance
    return .call name (← commaSeparated (additive deeper))
  else failExpected (.argumentsAfter name)

def halfTerm (deeper : Deeper) : Parse (Expr Float) := do
  advance
  let _ ← expect (.keyword .of) (.ofAfter "half")
  return (← deeper .polarity).half

def twiceTerm (deeper : Deeper) : Parse (Expr Float) := do
  advance
  return (← deeper .polarity).twice

def threeQuartersTerm (deeper : Deeper) : Parse (Expr Float) := do
  advance
  let _ ← expect (.keyword .quarters) .quartersAfterThree
  let _ ← expect (.keyword .of) (.ofAfter "three quarters")
  return (← deeper .polarity).threeQuarters

def changeTerm (deeper : Deeper) (op : BinaryOp) : Parse (Expr Float) := do
  advance
  let base ← additive deeper
  let _ ← expect (.keyword .by) .by
  return base.changeBy op (← deeper .polarity)

def neighbourTerm (op : BinaryOp) (token : Token) : Parse (Expr Float) := do
  advance
  let unit ← current
  if isUnitName unit then
    advance
    return .fromToday op unit.text
  else failExpected (.unitAfter token.text)

def dayWord (spec : DateSpec) : Parse (Expr Float) := do
  advance
  return .date spec

def keywordTerm (deeper : Deeper) (token : Token) : Keyword → Parse (Expr Float)
  | .now => dayWord .now
  | .today => dayWord .today
  | .tomorrow => dayWord .tomorrow
  | .yesterday => dayWord .yesterday
  | .sum | .total | .average | .mean => aggregate deeper token
  | .half => halfTerm deeper
  | .double | .twice => twiceTerm deeper
  | .three => threeQuartersTerm deeper
  | .increase => changeTerm deeper .add
  | .decrease => changeTerm deeper .subtract
  | .next => neighbourTerm .add token
  | .last => neighbourTerm .subtract token
  | _ => failUnexpected

def term (deeper : Deeper) : Parse (Expr Float) := do
  let token ← current
  match token.kind with
  | .number => numberTerm token
  | .currencySymbol => symbolTerm token
  | .date => dateTerm token
  | .time => timeTerm token
  | .text =>
    advance
    return .text token.text
  | .identifier => nameTerm deeper token
  | .openParen => parenthesized deeper
  | .keyword keyword => keywordTerm deeper token keyword
  | _ => failUnexpected

/-! What follows an operand. -/

inductive Suffix where
  | percent
  | ago
  | after
  | before
  deriving DecidableEq, Repr

/-- A percent sign is a suffix where no operand follows it, else it takes a remainder. -/
def suffix? (token next : Token) : Option Suffix :=
  match token.kind with
  | .percent => if next.startsOperand then none else some .percent
  | .keyword .ago => some .ago
  | .keyword .from => some .after
  | .keyword .after => some .after
  | .keyword .before => some .before
  | _ => none

def applySuffix (deeper : Deeper) (e : Expr Float) : Suffix → Parse (Expr Float)
  | .percent => do
    if ← isAt (.keyword .of) then
      advance
      return .partOf (.unary .percent e) (← deeper .polarity)
    else return .unary .percent e
  | .ago => return e.ago
  | .after => return e.after (← deeper .polarity)
  | .before => return e.before (← deeper .polarity)

def suffixesFuel (deeper : Deeper) : Nat → Expr Float → Parse (Expr Float)
  | 0, e => return e
  | fuel + 1, e => do
    match suffix? (← current) (← following) with
    | none => return e
    | some suffix =>
      advance
      suffixesFuel deeper fuel (← applySuffix deeper e suffix)

def operand (deeper : Deeper) : Parse (Expr Float) := do
  let e ← term deeper
  suffixesFuel deeper (← remaining) e

/-! Signs and whole expressions. -/

def sign? : TokenKind → Option UnaryOp
  | .minus => some .negate
  | .plus => some .plus
  | _ => none

def polarity (deeper : Deeper) : Parse (Expr Float) := do
  match sign? (← current).kind with
  | some op =>
    advance
    return .unary op (← deeper .polarity)
  | none => operand deeper

def conversionsFuel : Nat → Expr Float → Parse (Expr Float)
  | 0, e => return e
  | fuel + 1, e => do
    if ← isAt (.keyword .in) then
      advance
      conversionsFuel fuel (.convert e (← conversionTarget))
    else return e

def expression (deeper : Deeper) : Parse (Expr Float) := do
  let e ← additive deeper
  conversionsFuel (← remaining) e

def withLevels : Nat → Deeper
  | 0, _ => tooDeep
  | levels + 1, .expression => expression (withLevels levels)
  | levels + 1, .polarity => polarity (withLevels levels)

/-! Lines. -/

def wholeExpression : Parse (Expr Float) := withLevels nestingLimit .expression

def statement : Parse (Expr Float) := do
  let first ← current
  let second ← following
  if first.kind = .identifier && second.kind = .assign then
    if isPrev first.text then failAt first .reservedName
    advance
    advance
    return .assign first.text (← wholeExpression)
  else
    if first.kind = .keyword .what && second.kind = .keyword .is then
      advance
      advance
    wholeExpression

def command (token : Token) (rest : List Token) : Except ParseError (Expr Float) :=
  if token.text = "" then .error ⟨.malformedCommand, token.position⟩
  else .ok (.command (Text.lowerAscii token.text)
    ((rest.takeWhile (·.kind = .commandArg)).map (·.text)))

def complete : Parse (Expr Float) := do
  let e ← statement
  if ← isAt .eof then return e else failUnexpected

def isPhraseWord (token : Token) : Bool :=
  match token.kind with
  | .keyword keyword => keyword.isPhrase
  | _ => false

end Grammar

open Grammar

/-- Text that makes no token is reported before anything else, and without `fuzzy` so are phrase
    words, except in commands. -/
def parse (fuzzy : Bool) (tokens : List Token) : Except ParseError (Expr Float) :=
  match tokens.find? (·.kind = .error) with
  | some token => .error ⟨.unreadable token.text, token.position⟩
  | none =>
    let first := (Cursor.ofTokens tokens).current
    if first.kind = .eof then .ok .blank
    else if first.kind = .command then command first tokens.tail
    else match (if fuzzy then none else tokens.find? isPhraseWord) with
      | some token => .error ⟨.phraseOff token.text, token.position⟩
      | none => (complete.run (.ofTokens tokens)).map (·.1)

def parseLine (fuzzy : Bool) (line : String) : Except ParseError (Expr Float) :=
  parse fuzzy (tokenize line)

end NotepadCalculator
