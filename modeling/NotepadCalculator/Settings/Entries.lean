import NotepadCalculator.Number.Decimal
import NotepadCalculator.Text.Words

/-!
The lines of a configuration file. A line is empty, a section header or an entry `key = value`, and
may end in a comment. Values are whole numbers, truth values and quoted strings.
-/
namespace NotepadCalculator.Entries
open NotepadCalculator.Number NotepadCalculator.Text

inductive Setting where
  | whole (value : Int)
  | bool (value : Bool)
  | string (content : String)
  deriving DecidableEq, Repr

inductive Item where
  | entry (path : List String) (setting : Setting)
  | header (path : List String)
  deriving DecidableEq, Repr

def isSpace (c : Char) : Bool := c = ' ' || c = '\t'
def skipSpace (cs : List Char) : List Char := cs.dropWhile isSpace
def isKeyChar (c : Char) : Bool := isAsciiLetter c || isDigit c || c = '_' || c = '-'

def isEnd (cs : List Char) : Bool :=
  match skipSpace cs with
  | [] => true
  | '#' :: rest => rest.all fun c => c = '\t' || (32 ≤ c.toNat && c.toNat ≠ 127)
  | _ => false

def scalar? (width : Nat) (cs : List Char) : Option Char := do
  if cs.length < width then none
  let n ← hexNumber? (cs.take width)
  if h : n.isValidChar then some (Char.ofNatAux n h) else none

def escape? : Char → Option Char
  | 'b' => some '\x08'
  | 't' => some '\t'
  | 'n' => some '\n'
  | 'f' => some '\x0c'
  | 'r' => some '\r'
  | '"' => some '"'
  | '\\' => some '\\'
  | _ => none

def quotedFuel : Nat → List Char → Option (List Char × List Char)
  | 0, _ => none
  | _, [] => none
  | _, '"' :: rest => some ([], rest)
  | fuel + 1, '\\' :: mark :: rest => do
    let (c, rest) ← match mark with
      | 'u' => (scalar? 4 rest).map (·, rest.drop 4)
      | 'U' => (scalar? 8 rest).map (·, rest.drop 8)
      | _ => (escape? mark).map (·, rest)
    let (content, tail) ← quotedFuel fuel rest
    return (c :: content, tail)
  | fuel + 1, c :: rest => do
    if (c.toNat < 32 && c ≠ '\t') || c.toNat = 127 || c = '\\' then none
    let (content, tail) ← quotedFuel fuel rest
    return (c :: content, tail)

def quoted? (cs : List Char) : Option (String × List Char) :=
  (quotedFuel (cs.length + 1) cs).map fun (content, rest) => (String.ofList content, rest)

def literal? (cs : List Char) : Option (String × List Char) :=
  let content := cs.takeWhile (· ≠ '\x27')
  match cs.drop content.length with
  | _ :: rest =>
    if content.all fun c => c = '\t' || (32 ≤ c.toNat && c.toNat ≠ 127) then
      some (String.ofList content, rest)
    else none
  | [] => none

def key? (cs : List Char) : Option (String × List Char) :=
  match cs with
  | '"' :: rest => quoted? rest
  | '\x27' :: rest => literal? rest
  | _ =>
    let key := cs.takeWhile isKeyChar
    if key = [] then none else some (String.ofList key, cs.drop key.length)

def depthLimit : Nat := 80

def pathFuel : Nat → List Char → Option (List String × List Char)
  | 0, _ => none
  | fuel + 1, cs => do
    let (key, rest) ← key? (skipSpace cs)
    match skipSpace rest with
    | '.' :: rest =>
      let (path, rest) ← pathFuel fuel rest
      return (key :: path, rest)
    | rest => return ([key], rest)

def path? (cs : List Char) : Option (List String × List Char) :=
  (pathFuel (cs.length + 1) cs).filter (·.1.length < depthLimit)

def fitsWord (n : Int) : Bool := -(signedLimit : Int) - 1 ≤ n && n ≤ signedLimit

def grouped? (base : Nat) (cs : List Char) : Option Nat :=
  if [] ∈ splitAt '_' cs then none else numberIn? base (cs.filter (· ≠ '_'))

/-- Decimal digits with an optional sign and without zeros in front, or digits after a mark for
    their base. -/
def signedNumber? : List Char → Option Int
  | '0' :: 'x' :: rest => (grouped? 16 rest).map Int.ofNat
  | '0' :: 'o' :: rest => (grouped? 8 rest).map Int.ofNat
  | '0' :: 'b' :: rest => (grouped? 2 rest).map Int.ofNat
  | cs =>
    let (negative, body) := splitSign cs
    if body.head? = some '0' ∧ body.length ≠ 1 then none
    else (grouped? 10 body).map (signed negative)

def whole? (cs : List Char) : Option Int := (signedNumber? cs).filter fitsWord

def setting? (cs : List Char) : Option Setting :=
  match skipSpace cs with
  | '"' :: rest => (quoted? rest).bind fun (s, tail) =>
    if isEnd tail then some (.string s) else none
  | '\x27' :: rest => (literal? rest).bind fun (s, tail) =>
    if isEnd tail then some (.string s) else none
  | cs =>
    let word := cs.takeWhile fun c => !isSpace c && c ≠ '#'
    if !isEnd (cs.drop word.length) then none
    else if word = "true".toList then some (.bool true)
    else if word = "false".toList then some (.bool false)
    else (whole? word).map .whole

/-- The item of a line, if the line has one. Without an answer the line cannot be read. -/
def item? (line : String) : Option (Option Item) :=
  let cs := skipSpace line.toList
  if isEnd cs then some none
  else match cs with
    | '[' :: rest => do
      let (path, rest) ← path? rest
      match rest with
      | ']' :: tail => if isEnd tail then return some (.header path) else none
      | _ => none
    | cs => do
      let (path, rest) ← path? cs
      match rest with
      | '=' :: tail => return some (.entry path (← setting? tail))
      | _ => none

end NotepadCalculator.Entries
