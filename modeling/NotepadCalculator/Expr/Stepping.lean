import NotepadCalculator.Expr.Grammar

/-!
The parser step by step, over a vector of tokens with an end token behind them. It keeps an index
into the vector and counts how many rules have begun that have not come to their end. Its loops and
recursions go on for as long as the tokens make them, apart from fuel: a run that is out of it has
no other outcome than that.
-/
namespace NotepadCalculator.Stepwise
open Calendar Number Grammar

inductive Stop where
  | refused (error : ParseError)
  /-- An index without a token, or a count that cannot go below zero. -/
  | outOfRange
  | unfinished
  deriving DecidableEq, Repr

structure Place where
  index : Nat
  depth : Nat
  deriving DecidableEq, Repr

abbrev Run (β : Type) := ReaderT (Array Token) (StateT Place (Except Stop)) β

def vector (tokens : List Token) : Array Token :=
  (tokens ++ [Token.eof (Cursor.ofTokens tokens).stop]).toArray

/-! Looking at tokens and going on. -/

/-- Beyond the last token it is seen again. -/
def seen? (tokens : Array Token) (index : Nat) : Option Token :=
  if tokens.size = 0 then none else tokens[min index (tokens.size - 1)]?

def peek (offset : Nat) : Run Token := do
  match seen? (← read) ((← get).index + offset) with
  | some token => return token
  | none => throw .outOfRange

def current : Run Token := peek 0
def following : Run Token := peek 1

/-- The index stays at the last token. -/
def advance : Run Unit := do
  let size := (← read).size
  modify fun place =>
    if place.index + 1 < size then { place with index := place.index + 1 } else place

def failAt {β : Type} (token : Token) (fault : SyntaxFault) : Run β :=
  throw (.refused ⟨fault, token.position⟩)

def unfinished {β : Type} : Run β := throw .unfinished

def isAt (kind : TokenKind) : Run Bool := return (← current).kind = kind

def failExpected {β : Type} (what : Wanted) : Run β := do
  let token ← current
  failAt token (.expected what (if token.kind = .eof then none else some token.text))

def failUnexpected {β : Type} : Run β := do
  let token ← current
  failAt token (match token.kind with
    | .eof => .unexpectedEnd
    | .error => .unreadable token.text
    | _ => .unexpected token.text)

def expect (kind : TokenKind) (what : Wanted) : Run Token := do
  let token ← current
  if token.kind = kind then
    advance
    return token
  else failExpected what

def deepen : Run Unit := do
  modify fun place => { place with depth := place.depth + 1 }
  if nestingLimit < (← get).depth then failAt (← current) .tooDeep

def rise : Run Unit := do
  if (← get).depth = 0 then throw .outOfRange
  else modify fun place => { place with depth := place.depth - 1 }

def nested {β : Type} (rule : Run β) : Run β := do
  deepen
  let found ← rule
  rise
  return found

/-! Units and literals. -/

def unitName (first : Token) : Run String := do
  let separator ← current
  let denominator ← following
  if (denominator.kind = .identifier || denominator.kind = .unit)
      && joins first separator denominator then
    advance
    advance
    return first.text ++ "/" ++ denominator.text
  else return first.text

def conversionTarget : Run String := do
  let token ← current
  if token.kind = .currencySymbol then
    advance
    return token.text
  else if isUnitName token then
    advance
    unitName token
  else failExpected .conversionTarget

def numberValue (token : Token) : Run Float :=
  match float? token.text with
  | some value => return value
  | none => failAt token (.badNumber token.text)

def timeValue (token : Token) : Run ClockTime :=
  match readClockTime? token.text with
  | some value => return value
  | none => failAt token (.badTime token.text)

def numberTerm (token : Token) : Run (Expr Float) := do
  let value ← numberValue token
  advance
  let next ← current
  if next.kind = .currencySymbol then
    advance
    return .currency value next.text
  else if namesUnit next (← following) then
    advance
    return .unit value (← unitName next)
  else return .number value

def symbolTerm (token : Token) : Run (Expr Float) := do
  advance
  let amount ← expect .number .amountAfterSymbol
  return .currency (← numberValue amount) token.text

def dateTerm (token : Token) : Run (Expr Float) := do
  match readDay? token.text with
  | none => failAt token .badDate
  | some day =>
    advance
    let next ← current
    if next.kind = .time then
      let clock ← timeValue next
      advance
      return .date (.at (day.at clock))
    else return .date (.on day)

def timeTerm (token : Token) : Run (Expr Float) := do
  let clock ← timeValue token
  advance
  return .time clock

def count : Run Nat := do
  let token ← current
  match (natural? wordLimit token.text.toList).filter (0 < ·) with
  | some n =>
    advance
    return n
  | none => failAt token .badCount

def reference : Run Reference := do
  match (← current).kind with
  | .tilde =>
    advance
    if ← isAt .number then return .back (← count) else return .back 1
  | .hash =>
    advance
    if ← isAt .number then return .line (← count) else failExpected .lineNumber
  | _ => return .latest

def neighbourTerm (op : BinaryOp) (token : Token) : Run (Expr Float) := do
  advance
  let unit ← current
  if isUnitName unit then
    advance
    return .fromToday op unit.text
  else failExpected (.unitAfter token.text)

def dayWord (spec : DateSpec) : Run (Expr Float) := do
  advance
  return .date spec

/-! The rules. A loop has the name of what it collects, and each of its rounds is a call. Calls have
less fuel than their callers. -/

def conversions : Nat → Expr Float → Run (Expr Float)
  | 0, _ => unfinished
  | fuel + 1, e => do
    if ← isAt (.keyword .in) then
      advance
      conversions fuel (.convert e (← conversionTarget))
    else return e

mutual

def expression : Nat → Run (Expr Float)
  | 0 => unfinished
  | fuel + 1 => nested do conversions fuel (← additive fuel)

def additive : Nat → Run (Expr Float)
  | 0 => unfinished
  | fuel + 1 => do sums fuel (← multiplicative fuel)

def sums : Nat → Expr Float → Run (Expr Float)
  | 0, _ => unfinished
  | fuel + 1, left => do
    match additiveOp? (← current).kind with
    | none => return left
    | some op =>
      advance
      let right ← multiplicative fuel
      sums fuel (.binary op left right)

def multiplicative : Nat → Run (Expr Float)
  | 0 => unfinished
  | fuel + 1 => do products fuel (← polarity fuel)

def products : Nat → Expr Float → Run (Expr Float)
  | 0, _ => unfinished
  | fuel + 1, left => do
    match multiplicativeOp? (← current).kind with
    | none => return left
    | some op =>
      advance
      let right ← polarity fuel
      products fuel (.binary op left right)

def polarity : Nat → Run (Expr Float)
  | 0 => unfinished
  | fuel + 1 => nested do
    match sign? (← current).kind with
    | some op =>
      advance
      return .unary op (← polarity fuel)
    | none => operand fuel

def operand : Nat → Run (Expr Float)
  | 0 => unfinished
  | fuel + 1 => do suffixes fuel (← term fuel)

def suffixes : Nat → Expr Float → Run (Expr Float)
  | 0, _ => unfinished
  | fuel + 1, e => do
    match suffix? (← current) (← following) with
    | none => return e
    | some suffix =>
      advance
      suffixes fuel (← applySuffix fuel e suffix)

def applySuffix : Nat → Expr Float → Suffix → Run (Expr Float)
  | 0, _, _ => unfinished
  | fuel + 1, e, suffix => do
    match suffix with
    | .percent =>
      if ← isAt (.keyword .of) then
        advance
        return .partOf (.unary .percent e) (← polarity fuel)
      else return .unary .percent e
    | .ago => return e.ago
    | .after => return e.after (← polarity fuel)
    | .before => return e.before (← polarity fuel)

def term : Nat → Run (Expr Float)
  | 0 => unfinished
  | fuel + 1 => do
    let token ← current
    match token.kind with
    | .number => numberTerm token
    | .currencySymbol => symbolTerm token
    | .date => dateTerm token
    | .time => timeTerm token
    | .text =>
      advance
      return .text token.text
    | .identifier => nameTerm fuel token
    | .openParen =>
      advance
      let inner ← expression fuel
      let _ ← expect .closeParen .closing
      return inner
    | .keyword keyword => keywordTerm fuel token keyword
    | _ => failUnexpected

def nameTerm : Nat → Token → Run (Expr Float)
  | 0, _ => unfinished
  | fuel + 1, token => do
    advance
    if isPrev token.text then return .previous (← reference)
    else if ← isAt .openParen then
      return .call (Text.lowerAscii token.text) (← callArguments fuel)
    else return .variable token.text

def callArguments : Nat → Run (List (Expr Float))
  | 0 => unfinished
  | fuel + 1 => do
    let _ ← expect .openParen .opening
    let found ← if ← isAt .closeParen then pure [] else arguments fuel
    let _ ← expect .closeParen .closing
    return found

def arguments : Nat → Run (List (Expr Float))
  | 0 => unfinished
  | fuel + 1 => do
    let first ← expression fuel
    if ← isAt .comma then
      advance
      return first :: (← arguments fuel)
    else return [first]

def addends : Nat → Run (List (Expr Float))
  | 0 => unfinished
  | fuel + 1 => do
    let first ← additive fuel
    if ← isAt .comma then
      advance
      return first :: (← addends fuel)
    else return [first]

def keywordTerm : Nat → Token → Keyword → Run (Expr Float)
  | 0, _, _ => unfinished
  | fuel + 1, token, keyword => do
    match keyword with
    | .now => dayWord .now
    | .today => dayWord .today
    | .tomorrow => dayWord .tomorrow
    | .yesterday => dayWord .yesterday
    | .sum | .total | .average | .mean => aggregate fuel token
    | .half =>
      advance
      let _ ← expect (.keyword .of) (.ofAfter "half")
      return (← polarity fuel).half
    | .double | .twice =>
      advance
      return (← polarity fuel).twice
    | .three =>
      advance
      let _ ← expect (.keyword .quarters) .quartersAfterThree
      let _ ← expect (.keyword .of) (.ofAfter "three quarters")
      return (← polarity fuel).threeQuarters
    | .increase => changeTerm fuel .add
    | .decrease => changeTerm fuel .subtract
    | .next => neighbourTerm .add token
    | .last => neighbourTerm .subtract token
    | _ => failUnexpected

def aggregate : Nat → Token → Run (Expr Float)
  | 0, _ => unfinished
  | fuel + 1, token => do
    advance
    let name := Text.lowerAscii token.text
    if ← isAt .openParen then return .call name (← callArguments fuel)
    else if ← isAt (.keyword .of) then
      advance
      return .call name (← addends fuel)
    else failExpected (.argumentsAfter name)

def changeTerm : Nat → BinaryOp → Run (Expr Float)
  | 0, _ => unfinished
  | fuel + 1, op => do
    advance
    let base ← additive fuel
    let _ ← expect (.keyword .by) .by
    return base.changeBy op (← polarity fuel)

end

/-! Lines. -/

def statement (fuel : Nat) : Run (Expr Float) := do
  let first ← current
  let second ← following
  if first.kind = .identifier && second.kind = .assign then
    if isPrev first.text then failAt first .reservedName
    advance
    advance
    return .assign first.text (← expression fuel)
  else
    if first.kind = .keyword .what && second.kind = .keyword .is then
      advance
      advance
    expression fuel

def commandArguments : Nat → Run (List String)
  | 0 => unfinished
  | fuel + 1 => do
    let token ← current
    if token.kind = .commandArg then
      advance
      return token.text :: (← commandArguments fuel)
    else return []

def command (fuel : Nat) : Run (Expr Float) := do
  let token ← current
  if token.text = "" then failAt token .malformedCommand
  else
    advance
    return .command (Text.lowerAscii token.text) (← commandArguments fuel)

def complete (fuel : Nat) : Run (Expr Float) := do
  let e ← statement fuel
  if ← isAt .eof then return e else failUnexpected

def line (fuel : Nat) (fuzzy : Bool) : Run (Expr Float) := do
  let tokens ← read
  match tokens.find? (·.kind = .error) with
  | some token => failAt token (.unreadable token.text)
  | none =>
    let first ← current
    if first.kind = .eof then return .blank
    else if first.kind = .command then command fuel
    else match (if fuzzy then none else tokens.find? isPhraseWord) with
      | some token => failAt token (.phraseOff token.text)
      | none => complete fuel

def parse (fuel : Nat) (fuzzy : Bool) (tokens : List Token) : Except Stop (Expr Float) :=
  (((line fuel fuzzy).run (vector tokens)).run ⟨0, 0⟩).map (·.1)

end NotepadCalculator.Stepwise
