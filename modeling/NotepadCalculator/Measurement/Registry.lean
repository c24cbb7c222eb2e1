import NotepadCalculator.Measurement.Dimension
import NotepadCalculator.Number.Amount
import NotepadCalculator.Text.Casing

/-!
Unit definitions under their names. Every alias is indexed twice, as it is spelled and in lower
case; the spelling is looked up first, and in both indexes the earliest entry wins.
-/
namespace NotepadCalculator.Measurement
open NotepadCalculator.Number

inductive Conversion (α : Type) where
  | linear (factor : α)
  | affine (scale offset : α)
  deriving DecidableEq, Repr

structure Definition (α : Type) where
  name : String
  dimension : Dimension
  conversion : Conversion α
  deriving DecidableEq, Repr

structure Registry (α : Type) where
  definitions : List (Definition α)
  exact : List (String × Nat)
  folded : List (String × Nat)
  deriving DecidableEq, Repr

def Conversion.isAffine {α : Type} : Conversion α → Bool
  | .linear _ => false
  | .affine _ _ => true

/-- The size of one unit in base units, apart from any offset. -/
def Conversion.factor {α : Type} : Conversion α → α
  | .linear factor => factor
  | .affine scale _ => scale

def Conversion.toBase {α : Type} [Amount α] (c : Conversion α) (value : α) : α :=
  match c with
  | .linear factor => value * factor
  | .affine scale offset => (value + offset) * scale

def Conversion.fromBase {α : Type} [Amount α] (c : Conversion α) (base : α) : α :=
  match c with
  | .linear factor => base / factor
  | .affine scale offset => base / scale - offset

namespace Registry
variable {α : Type}

def empty : Registry α := ⟨[], [], []⟩

/-- The first alias is the name. Without aliases nothing is added. -/
def insert (r : Registry α) (aliases : List String) (dimension : Dimension)
    (conversion : Conversion α) : Registry α :=
  match aliases with
  | [] => r
  | name :: _ =>
    let position := r.definitions.length
    ⟨r.definitions ++ [⟨name, dimension, conversion⟩],
      r.exact ++ aliases.map (·, position),
      r.folded ++ aliases.map (Text.lowercase ·, position)⟩

def clear (_ : Registry α) : Registry α := empty

def position? (r : Registry α) (name : String) : Option Nat :=
  (r.exact.lookup name).or (r.folded.lookup (Text.lowercase name))

def lookup? (r : Registry α) (name : String) : Option (Definition α) :=
  (r.position? name).bind (r.definitions[·]?)

end Registry

end NotepadCalculator.Measurement
