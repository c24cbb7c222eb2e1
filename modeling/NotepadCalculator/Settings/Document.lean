import NotepadCalculator.Settings.Entries

/-!
The items of a configuration file put together. What it says stands at a path of keys: a value, or
a table of all that continues the path. Nothing is said twice.
-/
namespace NotepadCalculator.Entries
open NotepadCalculator.Number NotepadCalculator.Text

/-- What a table comes from: its own header, the header of a table in it, or a key with points. -/
inductive Origin where
  | headed
  | implied
  | dotted
  deriving DecidableEq, Repr

inductive Node where
  | value (setting : Setting)
  | table (origin : Origin)
  deriving DecidableEq, Repr

structure Document where
  current : List String
  nodes : List (List String × Node)
  deriving DecidableEq, Repr

namespace Document

def empty : Document := ⟨[], []⟩

def node? (d : Document) (path : List String) : Option Node :=
  (d.nodes.find? fun (other, _) => other = path).map (·.2)

def place (d : Document) (path : List String) (node : Node) : Document :=
  { d with nodes := (path, node) :: d.nodes }

/-- Makes the tables that are missing on the way from one path through further keys. Points in a
    key do not lead into a table that has a header. -/
def descend? (origin : Origin) : Document → List String → List String → Option Document
  | d, _, [] => some d
  | d, start, key :: rest =>
    let here := start ++ [key]
    match d.node? here with
    | none => descend? origin (d.place here (.table origin)) here rest
    | some (.value _) => none
    | some (.table found) =>
      if origin = .dotted ∧ found = .headed then none else descend? origin d here rest

def add? (d : Document) : Item → Option Document
  | .header path => do
    let d ← d.descend? .implied [] path.dropLast
    match d.node? path with
    | none | some (.table .implied) => return { d.place path (.table .headed) with current := path }
    | _ => none
  | .entry path setting => do
    let full := d.current ++ path
    let d ← d.descend? .dotted d.current path.dropLast
    if path.length ≠ 1 ∧ d.node? full.dropLast ≠ some (.table .dotted) then none
    if d.node? full = none then return d.place full (.value setting) else none

def read? (text : String) : Option Document := do
  let content := if text.toList.head? = some '\ufeff' then text.toList.tail else text.toList
  let items ← (documentLines (String.ofList content)).mapM item?
  (items.filterMap id).foldlM add? empty

end Document

/-! What the keys of a document concern. -/

def isNameChar (c : Char) : Bool := isKeyChar c || c = ' '

def isPosition (cs : List Char) : Bool :=
  let body := skipSpace cs
  let (negative, rest) := if body.head? = some '-' then (true, body.tail) else (false, body)
  let found := rest.takeWhile isDigit
  found ≠ [] && skipSpace (rest.drop found.length) = []
    && fitsWord (signed negative (digitsValue found))

def isStepsFuel : Nat → List Char → Bool
  | _, [] => true
  | fuel + 1, '.' :: rest =>
    rest.head?.any isNameChar && isStepsFuel fuel (rest.dropWhile isNameChar)
  | fuel + 1, '[' :: rest =>
    match cut? ']' rest with
    | some (position, tail) => isPosition position && isStepsFuel fuel tail
    | none => false
  | _, _ => false

def isSteps (cs : List Char) : Bool := isStepsFuel cs.length cs

/-- The name that a key stands for in any case of its letters, and whether the key leads to
    something inside. -/
structure Target where
  name : String
  isInside : Bool
  deriving DecidableEq, Repr

def Target.ofKey (key : String) : Target :=
  let name := key.toList.takeWhile isNameChar
  let steps := key.toList.drop name.length
  if name ≠ [] ∧ isSteps steps then ⟨lowercase (String.ofList name), steps ≠ []⟩
  else ⟨lowercase key, false⟩

def isWithin (name : String) : List String → Bool
  | [] => false
  | key :: rest =>
    let target := Target.ofKey key
    target.name = name && (target.isInside || rest ≠ [])

def valueOf? (name : String) : List String × Node → Option Setting
  | ([key], .value setting) => if (Target.ofKey key).name = name then some setting else none
  | _ => none

end NotepadCalculator.Entries
