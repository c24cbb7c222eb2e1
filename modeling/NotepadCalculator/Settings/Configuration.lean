import NotepadCalculator.Settings.Basic
import NotepadCalculator.Settings.Document

/-!
The configuration of the program: settings with what concerns its log. It comes from a file over
the defaults, and options given by hand come on top. A value of another type stands for a setting
where it can be read as one.
-/
namespace NotepadCalculator
open Number

structure Configuration where
  settings : Settings
  logLevel : String
  logRecords : Bool
  deriving DecidableEq, Repr

/-- What is given by hand. Without a value a setting stays as it is. -/
structure Overrides where
  precision : Option Nat
  noFuzzy : Bool
  quiet : Bool
  logLevel : Option String
  logRecords : Bool
  deriving DecidableEq, Repr

namespace Configuration
open Entries

def default : Configuration := ⟨.default, "warn", false⟩

def fault? (c : Configuration) : Option String :=
  if c.settings.precision ≤ precisionLimit then none
  else some s!"precision must be between 0 and {precisionLimit}, got {c.settings.precision}"

def isOnWord (word : String) : Bool := word ∈ ["true", "on", "yes"]
def isOffWord (word : String) : Bool := word ∈ ["false", "off", "no"]

def precisionOf? : Setting → Option Nat
  | .whole n => if 0 ≤ n then some n.toNat else none
  | .bool on => some (if on then 1 else 0)
  | .string word =>
    let word := Text.lowercase word
    if isOnWord word then some 1
    else if isOffWord word then some 0
    else natural? wordLimit word.toList

def flagOf? : Setting → Option Bool
  | .whole n => some (n ≠ 0)
  | .bool on => some on
  | .string word =>
    let word := Text.lowercase word
    if word = "1" ∨ isOnWord word then some true
    else if word = "0" ∨ isOffWord word then some false
    else none

def wordOf? : Setting → Option String
  | .whole n => some (toString n)
  | .bool on => some (if on then "true" else "false")
  | .string word => some word

/-- A table with something in it is no value. An empty one leaves what stands without it. -/
def field? {β : Type} (d : Document) (name : String) (read? : Setting → Option β) (missing : β) :
    Option β :=
  if d.nodes.any fun (path, _) => isWithin name path then none
  else match d.nodes.findSome? (valueOf? name) with
    | none => some missing
    | some setting => read? setting

def ofDocument? (d : Document) : Option Configuration := do
  let c := default
  return ⟨⟨← field? d "precision" precisionOf? c.settings.precision,
      ← field? d "fuzzy" flagOf? c.settings.fuzzy, ← field? d "quiet" flagOf? c.settings.quiet⟩,
    ← field? d "log_level" wordOf? c.logLevel, ← field? d "log_json" flagOf? c.logRecords⟩

def read? (text : String) : Option Configuration := do
  let c ← ofDocument? (← Document.read? text)
  if c.fault?.isNone then some c else none

/-- The changes stay even where they make a configuration that is refused. -/
def apply (c : Configuration) (o : Overrides) : Configuration :=
  ⟨⟨o.precision.getD c.settings.precision, c.settings.fuzzy && !o.noFuzzy,
      c.settings.quiet || o.quiet⟩,
    o.logLevel.getD c.logLevel, c.logRecords || o.logRecords⟩

end Configuration

end NotepadCalculator
