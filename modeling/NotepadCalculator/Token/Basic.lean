import NotepadCalculator.Text.Casing

/-! Tokens of a line, and the words that are set apart from names. -/
namespace NotepadCalculator

inductive Keyword where
  | in
  | of
  | per
  | by
  | what
  | is
  | increase
  | decrease
  | sum
  | average
  | mean
  | total
  | half
  | double
  | twice
  | three
  | quarters
  | after
  | before
  | from
  | ago
  | now
  | today
  | tomorrow
  | yesterday
  | next
  | last
  deriving DecidableEq, Repr

def Keyword.all : List Keyword :=
  [.in, .of, .per, .by, .what, .is, .increase, .decrease, .sum, .average, .mean, .total, .half,
    .double, .twice, .three, .quarters, .after, .before, .from, .ago, .now, .today, .tomorrow,
    .yesterday, .next, .last]

def Keyword.word : Keyword → String
  | .in => "in"
  | .of => "of"
  | .per => "per"
  | .by => "by"
  | .what => "what"
  | .is => "is"
  | .increase => "increase"
  | .decrease => "decrease"
  | .sum => "sum"
  | .average => "average"
  | .mean => "mean"
  | .total => "total"
  | .half => "half"
  | .double => "double"
  | .twice => "twice"
  | .three => "three"
  | .quarters => "quarters"
  | .after => "after"
  | .before => "before"
  | .from => "from"
  | .ago => "ago"
  | .now => "now"
  | .today => "today"
  | .tomorrow => "tomorrow"
  | .yesterday => "yesterday"
  | .next => "next"
  | .last => "last"

def Keyword.ofWord? (word : String) : Option Keyword :=
  let word := Text.lowerAscii word
  Keyword.all.find? (·.word = word)

/-- Words that are understood in fuzzy mode only. Conversion, day words and aggregates always
    are. -/
def Keyword.isPhrase : Keyword → Bool
  | .in | .now | .today | .tomorrow | .yesterday | .sum | .average | .mean | .total => false
  | _ => true

def Keyword.startsOperand : Keyword → Bool
  | .what | .increase | .decrease | .sum | .average | .mean | .total | .half | .double | .twice
  | .three | .now | .today | .tomorrow | .yesterday | .next | .last => true
  | _ => false

inductive TokenKind where
  | number
  | date
  | time
  | text
  | identifier
  /-- Letters that follow a number without a space, or a degree sign. -/
  | unit
  | currencySymbol
  | keyword (keyword : Keyword)
  | plus
  | minus
  | multiply
  | divide
  | percent
  | assign
  | openParen
  | closeParen
  | comma
  | tilde
  | hash
  | command
  | commandArg
  | eof
  | error
  deriving DecidableEq, Repr

/-- The position counts characters from the start of the line. -/
structure Token where
  kind : TokenKind
  text : String
  position : Nat
  deriving DecidableEq, Repr

def Token.stop (t : Token) : Nat := t.position + t.text.length

def Token.startsOperand (t : Token) : Bool :=
  match t.kind with
  | .number | .date | .time | .text | .identifier | .currencySymbol | .openParen => true
  | .keyword keyword => keyword.startsOperand
  | _ => false

def Token.eof (position : Nat) : Token := ⟨.eof, "", position⟩

def isPrev (word : String) : Bool := Text.lowerAscii word = "prev"

end NotepadCalculator
