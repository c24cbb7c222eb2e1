import NotepadCalculator.Token.Basic

/-!
Scanning a line. Each token comes with the width of its source text, so that the spans of all
tokens, blanks and a trailing comment make up the line. Scanning never fails: what cannot be read
becomes an error token. A comment begins with two slashes at the start of a token. A line that
begins with a colon is a command, whose arguments are taken as they stand.
-/
namespace NotepadCalculator.Scan
open NotepadCalculator.Text

structure Lexeme where
  token : Token
  width : Nat
  deriving DecidableEq, Repr

structure Reading where
  kind : TokenKind
  text : List Char
  width : Nat
  deriving DecidableEq, Repr

inductive Mode where
  | opening
  | words
  | afterNumber
  | arguments
  deriving DecidableEq, Repr

def isWordChar (c : Char) : Bool := isLetter c || isNumeral c || c = '_'
def startsWord (cs : List Char) : Bool := cs.head?.any isWordChar
def startsDigit (cs : List Char) : Bool := cs.head?.any isDigit

def operator? : Char → Option TokenKind
  | '+' => some .plus
  | '-' | '−' => some .minus
  | '*' | '×' => some .multiply
  | '/' | '÷' => some .divide
  | '%' => some .percent
  | '=' => some .assign
  | '(' => some .openParen
  | ')' => some .closeParen
  | ',' => some .comma
  | '~' => some .tilde
  | '#' => some .hash
  | '$' | '€' | '£' | '¥' | '₹' => some .currencySymbol
  | _ => none

def startsDate : List Char → Bool
  | a :: b :: c :: d :: '-' :: e :: f :: '-' :: g :: h :: rest =>
    [a, b, c, d, e, f, g, h].all isDigit && !startsWord rest
  | _ => false

def colonAndTwoDigits : List Char → Bool
  | ':' :: a :: b :: _ => isDigit a && isDigit b
  | _ => false

def startsClock (cs : List Char) : Bool :=
  let hour := cs.takeWhile isDigit
  (hour.length = 1 || hour.length = 2) && colonAndTwoDigits (cs.drop hour.length)

def startsMeridiem : List Char → Bool
  | a :: m :: rest =>
    (asciiLower a = 'a' || asciiLower a = 'p') && asciiLower m = 'm' && !startsWord rest
  | _ => false

def clockField : List Char → List Char
  | [] => []
  | colon :: rest => colon :: rest.takeWhile isDigit

/-- Hour, minute and perhaps second, with am or pm after any number of spaces, which are left out
    of the token. -/
def readClock (cs : List Char) : Reading :=
  let hour := cs.takeWhile isDigit
  let minute := clockField (cs.drop hour.length)
  let rest := cs.drop (hour.length + minute.length)
  let second := if colonAndTwoDigits rest then clockField rest else []
  let clock := hour ++ minute ++ second
  let rest := cs.drop clock.length
  let gap := (rest.takeWhile (· = ' ')).length
  let half := rest.drop gap
  if startsMeridiem half then
    ⟨.time, clock ++ (half.take 2).map asciiLower, clock.length + gap + 2⟩
  else ⟨.time, clock, clock.length⟩

def fraction : List Char → List Char
  | '.' :: rest => if startsDigit rest then '.' :: rest.takeWhile isDigit else []
  | _ => []

def exponent : List Char → List Char
  | mark :: rest =>
    let sign := match rest with
      | '+' :: _ => ['+']
      | '-' :: _ => ['-']
      | _ => []
    let body := rest.drop sign.length
    if (mark = 'e' || mark = 'E') && startsDigit body then
      mark :: sign ++ body.takeWhile isDigit
    else []
  | [] => []

def numberText (cs : List Char) : List Char :=
  let whole := cs.takeWhile isDigit
  let places := fraction (cs.drop whole.length)
  let power := exponent (cs.drop (whole.length + places.length))
  whole ++ places ++ power

/-- A number without point and exponent that runs into am or pm is an hour. -/
def readNumber (cs : List Char) : Reading × Mode :=
  let number := numberText cs
  let rest := cs.drop number.length
  if number.all isDigit && startsMeridiem rest then
    (⟨.time, number ++ (rest.take 2).map asciiLower, number.length + 2⟩, .words)
  else (⟨.number, number, number.length⟩, .afterNumber)

def readText (rest : List Char) : Reading :=
  let body := rest.takeWhile (· ≠ '"')
  if body.length < rest.length then ⟨.text, body, body.length + 2⟩
  else ⟨.error, "Unterminated string".toList, body.length + 1⟩

def readWord (glued : Bool) (cs : List Char) : Reading :=
  let word := cs.takeWhile isWordChar
  let kind := match Keyword.ofWord? (String.ofList word) with
    | some keyword => .keyword keyword
    | none => if glued then .unit else .identifier
  ⟨kind, word, word.length⟩

def readPlain (glued : Bool) (c : Char) (rest : List Char) : Reading × Mode :=
  match operator? c with
  | some kind => (⟨kind, [c], 1⟩, .words)
  | none =>
    if c = '"' then (readText rest, .words)
    else if c = '°' then
      let name := rest.takeWhile isWordChar
      (⟨.unit, c :: name, name.length + 1⟩, .words)
    else if isDigit c || (c = '.' && startsDigit rest) then
      if startsDate (c :: rest) then (⟨.date, (c :: rest).take 10, 10⟩, .words)
      else if startsClock (c :: rest) then (readClock (c :: rest), .words)
      else readNumber (c :: rest)
    else if isLetter c || c = '_' then (readWord glued (c :: rest), .words)
    else (⟨.error, "Unexpected character: ".toList ++ [c], 1⟩, .words)

def readCommand (rest : List Char) : Reading × Mode :=
  let name := rest.takeWhile isWordChar
  (⟨.command, name, name.length + 1⟩, .arguments)

def readArgument (cs : List Char) : Reading × Mode :=
  let argument := cs.takeWhile fun c => !isBlank c
  (⟨.commandArg, argument, argument.length⟩, .arguments)

def read (mode : Mode) (glued : Bool) (c : Char) (rest : List Char) : Reading × Mode :=
  match mode with
  | .arguments => readArgument (c :: rest)
  | .opening => if c = ':' then readCommand rest else readPlain glued c rest
  | _ => readPlain glued c rest

def isGlued (mode : Mode) (cs : List Char) : Bool := mode = .afterNumber && cs.head?.any isLetter

/-- Every token takes at least one character, so as many steps as characters are enough. -/
def lexemesFuel : Nat → Mode → Nat → List Char → List Lexeme
  | 0, _, _, _ => []
  | fuel + 1, mode, position, cs =>
    let blank := cs.takeWhile isBlank
    let start := position + blank.length
    match cs.drop blank.length with
    | [] => []
    | '/' :: '/' :: _ => []
    | c :: rest =>
      let (reading, next) := read mode (isGlued mode cs) c rest
      ⟨⟨reading.kind, String.ofList reading.text, start⟩, reading.width⟩ ::
        lexemesFuel fuel next (start + reading.width) ((c :: rest).drop reading.width)

def lexemes (line : String) : List Lexeme :=
  lexemesFuel line.length .opening 0 line.toList

end NotepadCalculator.Scan

namespace NotepadCalculator

def tokenize (line : String) : List Token := (Scan.lexemes line).map (·.token)

end NotepadCalculator
