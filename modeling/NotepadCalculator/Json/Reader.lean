import NotepadCalculator.Number.Decimal

/-!
JSON text. A text is one value with blanks around it. Numbers keep their written form apart from
whole ones, and a string that is not well formed in UTF-16 has no content.
-/
namespace NotepadCalculator.Json
open NotepadCalculator.Number NotepadCalculator.Text

inductive Value where
  | null
  | bool (value : Bool)
  | whole (value : Nat)
  | otherNumber
  | string (content : Option (List Char))
  | array (items : List Value)
  | object (fields : List (Option (List Char) × Value))
  deriving Repr

def isSpace (c : Char) : Bool := c = ' ' || c = '\t' || c = '\n' || c = '\r'
def skipSpace (cs : List Char) : List Char := cs.dropWhile isSpace

def after? (word : List Char) (cs : List Char) : Option (List Char) :=
  if word.isPrefixOf cs then some (cs.drop word.length) else none

/-! Numbers. -/

def wholeDigits? (cs : List Char) : Option (List Char) :=
  match cs.takeWhile isDigit with
  | [] => none
  | '0' :: [] => some ['0']
  | '0' :: _ => none
  | found => some found

def places? : List Char → Option (List Char)
  | '.' :: rest =>
    let found := rest.takeWhile isDigit
    if found = [] then none else some ('.' :: found)
  | _ => some []

def power? : List Char → Option (List Char)
  | mark :: rest =>
    if mark = 'e' || mark = 'E' then
      let sign := rest.takeWhile (fun c => c = '+' || c = '-') |>.take 1
      let found := (rest.drop sign.length).takeWhile isDigit
      if found = [] then none else some (mark :: sign ++ found)
    else some []
  | [] => some []

def number? (cs : List Char) : Option (Value × List Char) := do
  let minus := if cs.head? = some '-' then ['-'] else []
  let whole ← wholeDigits? (cs.drop minus.length)
  let tail := cs.drop (minus.length + whole.length)
  let places ← places? tail
  let power ← power? (tail.drop places.length)
  let rest := tail.drop (places.length + power.length)
  if minus = [] ∧ places = [] ∧ power = [] then return (.whole (digitsValue whole), rest)
  else return (.otherNumber, rest)

/-! Strings, as units of UTF-16 where they are escaped by number. -/

inductive Unit16 where
  | char (c : Char)
  | code (n : Nat)
  deriving DecidableEq, Repr

def hex4? (cs : List Char) : Option Nat :=
  if cs.length = 4 then hexNumber? cs else none

def escape? : Char → Option Char
  | '"' => some '"'
  | '\\' => some '\\'
  | '/' => some '/'
  | 'b' => some '\x08'
  | 'f' => some '\x0c'
  | 'n' => some '\n'
  | 'r' => some '\r'
  | 't' => some '\t'
  | _ => none

def unitsFuel : Nat → List Char → Option (List Unit16 × List Char)
  | 0, _ => none
  | _, [] => none
  | _, '"' :: rest => some ([], rest)
  | fuel + 1, '\\' :: 'u' :: rest => do
    let n ← hex4? (rest.take 4)
    let (units, tail) ← unitsFuel fuel (rest.drop 4)
    return (.code n :: units, tail)
  | fuel + 1, '\\' :: mark :: rest => do
    let c ← escape? mark
    let (units, tail) ← unitsFuel fuel rest
    return (.char c :: units, tail)
  | fuel + 1, c :: rest => do
    if c.toNat < 32 || c = '\\' then none
    let (units, tail) ← unitsFuel fuel rest
    return (.char c :: units, tail)

/-- High surrogates stand before low ones, and neither stands alone. -/
def content? : List Unit16 → Option (List Char)
  | [] => some []
  | .char c :: rest => (content? rest).map (c :: ·)
  | .code n :: .code m :: rest =>
    if 0xD800 ≤ n && n < 0xDC00 && 0xDC00 ≤ m && m < 0xE000 then
      (content? rest).map (Char.ofNat (0x10000 + (n - 0xD800) * 1024 + (m - 0xDC00)) :: ·)
    else if 0xD800 ≤ n && n < 0xE000 then none
    else (content? (.code m :: rest)).map (Char.ofNat n :: ·)
  | .code n :: rest =>
    if 0xD800 ≤ n && n < 0xE000 then none else (content? rest).map (Char.ofNat n :: ·)

def string? (cs : List Char) : Option (Option (List Char) × List Char) :=
  (unitsFuel (cs.length + 1) cs).map fun (units, rest) => (content? units, rest)

/-! Values. -/

abbrev Reader := List Char → Option (Value × List Char)

def itemsFuel (item : Reader) : Nat → List Char → Option (List Value × List Char)
  | 0, _ => none
  | fuel + 1, cs => do
    let (value, rest) ← item cs
    match skipSpace rest with
    | ',' :: rest =>
      let (values, rest) ← itemsFuel item fuel rest
      return (value :: values, rest)
    | ']' :: rest => return ([value], rest)
    | _ => none

def fieldsFuel (item : Reader) :
    Nat → List Char → Option (List (Option (List Char) × Value) × List Char)
  | 0, _ => none
  | fuel + 1, cs => do
    let (name, rest) ← string? (← after? ['"'] (skipSpace cs))
    let (value, rest) ← item (← after? [':'] (skipSpace rest))
    match skipSpace rest with
    | ',' :: rest =>
      let (fields, rest) ← fieldsFuel item fuel rest
      return ((name, value) :: fields, rest)
    | '}' :: rest => return ([(name, value)], rest)
    | _ => none

def array? (item : Reader) (cs : List Char) : Option (Value × List Char) :=
  match skipSpace cs with
  | ']' :: rest => some (.array [], rest)
  | _ => (itemsFuel item (cs.length + 1) cs).map fun (items, rest) => (.array items, rest)

def object? (item : Reader) (cs : List Char) : Option (Value × List Char) :=
  match skipSpace cs with
  | '}' :: rest => some (.object [], rest)
  | _ => (fieldsFuel item (cs.length + 1) cs).map fun (fields, rest) => (.object fields, rest)

def valueWithin : Nat → Reader
  | 0, _ => none
  | depth + 1, cs =>
    match skipSpace cs with
    | '"' :: rest => (string? rest).map fun (content, rest) => (.string content, rest)
    | '[' :: rest => array? (valueWithin depth) rest
    | '{' :: rest => object? (valueWithin depth) rest
    | 'n' :: rest => (after? "ull".toList rest).map fun rest => (.null, rest)
    | 't' :: rest => (after? "rue".toList rest).map fun rest => (.bool true, rest)
    | 'f' :: rest => (after? "alse".toList rest).map fun rest => (.bool false, rest)
    | other => number? other

/-- A value is not nested deeper than the text is long. -/
def read? (text : String) : Option Value := do
  let cs := text.toList
  let (value, rest) ← valueWithin (cs.length + 1) cs
  if skipSpace rest = [] then return value else none

end NotepadCalculator.Json
