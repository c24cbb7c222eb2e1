import NotepadCalculator.Json.Reader
import NotepadCalculator.Text.Casing

/-!
What a user can set: places shown, phrases understood or not, assignments shown or not. Settings are
read from JSON: an object in which each of them stands at most once and other fields are passed
over, or an array of them in order. What is missing takes its default.
-/
namespace NotepadCalculator

structure Settings where
  precision : Nat
  fuzzy : Bool
  quiet : Bool
  deriving DecidableEq, Repr

def Settings.default : Settings := ⟨2, true, false⟩

def precisionLimit : Nat := 12

def flag? (word : String) : Option Bool :=
  let word := Text.lowerAscii word
  if word ∈ ["on", "true", "yes", "1"] then some true
  else if word ∈ ["off", "false", "no", "0"] then some false
  else none

end NotepadCalculator

namespace NotepadCalculator.Settings
open NotepadCalculator.Number

def precisionOf? : Json.Value → Option Nat
  | .whole n => if n ≤ wordLimit then some n else none
  | _ => none

def flagOf? : Json.Value → Option Bool
  | .bool on => some on
  | _ => none

/-- A setting's value, or the default where no field has its name. -/
def field? {β : Type} (fields : List (String × Json.Value)) (name : String)
    (read? : Json.Value → Option β) (missing : β) : Option β :=
  match fields.filter (·.1 = name) with
  | [] => some missing
  | [(_, value)] => read? value
  | _ => none

def ofFields? (fields : List (String × Json.Value)) : Option Settings := do
  return ⟨← field? fields "precision" precisionOf? default.precision,
    ← field? fields "fuzzy" flagOf? default.fuzzy,
    ← field? fields "quiet" flagOf? default.quiet⟩

def ofItems? : List Json.Value → Option Settings
  | [] => some default
  | [p] => do return { default with precision := ← precisionOf? p }
  | [p, f] => do return { default with precision := ← precisionOf? p, fuzzy := ← flagOf? f }
  | [p, f, q] => do return ⟨← precisionOf? p, ← flagOf? f, ← flagOf? q⟩
  | _ => none

def ofJson? : Json.Value → Option Settings
  | .object fields => do
    ofFields? (← fields.mapM fun (name, value) => name.map fun n => (String.ofList n, value))
  | .array items => ofItems? items
  | _ => none

def read? (text : String) : Option Settings := (Json.read? text).bind ofJson?

def flagText (on : Bool) : String := if on then "true" else "false"

def record (s : Settings) : String :=
  "\x7b\"precision\":" ++ String.ofList (digits s.precision) ++ ",\"fuzzy\":" ++ flagText s.fuzzy
    ++ ",\"quiet\":" ++ flagText s.quiet ++ "\x7d"

end NotepadCalculator.Settings
