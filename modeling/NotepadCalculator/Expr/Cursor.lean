import NotepadCalculator.Error
import NotepadCalculator.Token.Basic

/-!
A place in the tokens of a line. Past the last token stands an end token, just after its text, and
the cursor stays there.
-/
namespace NotepadCalculator

structure Cursor where
  rest : List Token
  stop : Nat
  deriving DecidableEq, Repr

namespace Cursor

def ofTokens (tokens : List Token) : Cursor := ⟨tokens, (tokens.getLast?.map (·.stop)).getD 0⟩

def current (c : Cursor) : Token := c.rest.headD (.eof c.stop)
def following (c : Cursor) : Token := c.rest.tail.headD (.eof c.stop)
def forward (c : Cursor) : Cursor := ⟨c.rest.tail, c.stop⟩

end Cursor

/-- A step of the parser: it moves the cursor or fails at a position. -/
abbrev Parse (β : Type) := StateT Cursor (Except ParseError) β

namespace Parse

def current : Parse Token := return (← get).current
def following : Parse Token := return (← get).following
def advance : Parse Unit := modify (·.forward)
def remaining : Parse Nat := return (← get).rest.length

def failAt {β : Type} (token : Token) (fault : SyntaxFault) : Parse β :=
  throw ⟨fault, token.position⟩

def isAt (kind : TokenKind) : Parse Bool := return (← current).kind = kind

def failExpected {β : Type} (what : Wanted) : Parse β := do
  let token ← current
  failAt token (.expected what (if token.kind = .eof then none else some token.text))

def failUnexpected {β : Type} : Parse β := do
  let token ← current
  failAt token (match token.kind with
    | .eof => .unexpectedEnd
    | .error => .unreadable token.text
    | _ => .unexpected token.text)

def tooDeep {β : Type} : Parse β := do failAt (← current) .tooDeep

def expect (kind : TokenKind) (what : Wanted) : Parse Token := do
  let token ← current
  if token.kind = kind then
    advance
    return token
  else failExpected what

def commaSeparatedFuel {β : Type} (item : Parse β) : Nat → Parse (List β)
  | 0 => return []
  | fuel + 1 => do
    let first ← item
    if ← isAt .comma then
      advance
      return first :: (← commaSeparatedFuel item fuel)
    else return [first]

/-- Every item takes a token, so there are no more items than tokens. -/
def commaSeparated {β : Type} (item : Parse β) : Parse (List β) := do
  commaSeparatedFuel item ((← remaining) + 1)

end Parse

end NotepadCalculator
