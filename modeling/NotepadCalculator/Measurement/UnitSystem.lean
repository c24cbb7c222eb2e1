import NotepadCalculator.Measurement.Catalogue
import NotepadCalculator.Text.Words

/-!
Unit names and what they stand for. A name is looked up among the catalogue's units and then among
those a session has added; `a/b` is the ratio of two plain units. Conversion asks for equal
dimensions, where a speed or a data rate counts as the ratio it stands for.
-/
namespace NotepadCalculator.Measurement
open NotepadCalculator.Number NotepadCalculator.Text

inductive Malformed where
  | noSlash
  | noNumerator
  | noDenominator
  | manySlashes
  | temperatureSide
  | rateSide
  | notRate
  | notOneWord
  deriving DecidableEq, Repr

def Malformed.message : Malformed → String
  | .noSlash => "expected 'num/den'"
  | .noNumerator => "missing numerator"
  | .noDenominator => "missing denominator"
  | .manySlashes => "only one '/' is allowed"
  | .temperatureSide => "temperature units cannot form a ratio"
  | .rateSide => "each side must be a plain unit"
  | .notRate => "not a ratio unit"
  | .notOneWord => "custom unit names must be a single word"

inductive UnitFault where
  | unknown (name : String)
  | incompatible (source target : String)
  | malformed (spec : String) (why : Malformed)
  | scale (written : String)
  | duplicate (name : String)
  | affineBase (name : String)
  deriving DecidableEq, Repr

def UnitFault.message : UnitFault → String
  | .unknown name => s!"unknown unit '{name}'"
  | .incompatible source target => s!"incompatible units: '{source}' vs '{target}'"
  | .malformed spec why => s!"invalid compound unit '{spec}': {why.message}"
  | .scale written => s!"custom unit scale must be a positive finite number, got {written}"
  | .duplicate name => s!"unit name '{name}' is already defined"
  | .affineBase name => s!"cannot derive a unit from affine unit '{name}'"

def isRatioName (name : String) : Bool := mentions '/' name

def splitRatio (spec : String) : Except UnitFault (String × String) := do
  let some (left, right) := cut? '/' spec.toList | throw (.malformed spec .noSlash)
  let numerator := trimChars left
  let denominator := trimChars right
  if numerator = [] then throw (.malformed spec .noNumerator)
  if denominator = [] then throw (.malformed spec .noDenominator)
  if denominator.contains '/' then throw (.malformed spec .manySlashes)
  return (String.ofList numerator, String.ofList denominator)

structure Ratio (α : Type) where
  numerator : Definition α
  denominator : Definition α
  deriving DecidableEq, Repr

namespace Ratio
variable {α : Type}

def factor [Amount α] (r : Ratio α) : α :=
  r.numerator.conversion.factor / r.denominator.conversion.factor

def signature (r : Ratio α) : Signature := .ratio r.numerator.dimension r.denominator.dimension
def name (r : Ratio α) : String := r.numerator.name ++ "/" ++ r.denominator.name

end Ratio

/-- A rate read as a pair of dimensions and the size of one unit in their base units. -/
structure Rate (α : Type) where
  pair : Dimension × Dimension
  factor : α
  deriving DecidableEq, Repr

structure UnitSystem (α : Type) where
  custom : Registry α
  deriving DecidableEq, Repr

namespace UnitSystem
variable {α : Type} [Amount α]

def standard : UnitSystem α := ⟨.empty⟩

def find? (u : UnitSystem α) (name : String) : Option (Definition α) :=
  ((catalogue : Registry α).lookup? name).or (u.custom.lookup? name)

def resolve (u : UnitSystem α) (name : String) : Except UnitFault (Definition α) :=
  match u.find? (trim name) with
  | some definition => .ok definition
  | none => .error (.unknown name)

/-- One side of a ratio: neither a temperature nor a rate. -/
def resolveSide (u : UnitSystem α) (spec name : String) : Except UnitFault (Definition α) := do
  let unit ← u.resolve name
  if unit.conversion.isAffine then throw (.malformed spec .temperatureSide)
  if unit.dimension.rate?.isSome then throw (.malformed spec .rateSide)
  return unit

def ratio (u : UnitSystem α) (spec : String) : Except UnitFault (Ratio α) := do
  let (numerator, denominator) ← splitRatio spec
  return ⟨← u.resolveSide spec numerator, ← u.resolveSide spec denominator⟩

def isUnit (u : UnitSystem α) (name : String) : Bool :=
  if isRatioName name then (u.ratio name).toOption.isSome else (u.find? (trim name)).isSome

def signature (u : UnitSystem α) (name : String) : Except UnitFault Signature :=
  if isRatioName name then return (← u.ratio name).signature
  else return .plain (← u.resolve name).dimension

/-- The one name that stands for all spellings of a unit. -/
def canonicalName (u : UnitSystem α) (name : String) : Except UnitFault String :=
  if isRatioName name then return (← u.ratio name).name
  else return (← u.resolve name).name

def rate (u : UnitSystem α) (spec : String) : Except UnitFault (Rate α) := do
  if isRatioName spec then
    let ratio ← u.ratio spec
    return ⟨(ratio.numerator.dimension, ratio.denominator.dimension), ratio.factor⟩
  else
    let unit ← u.resolve spec
    match unit.dimension.rate? with
    | some pair => return ⟨pair, unit.conversion.factor⟩
    | none => throw (.malformed spec .notRate)

/-- Names of the numerator and the denominator of a rate; for a named one, the base units. -/
def rateUnits (u : UnitSystem α) (spec : String) : Except UnitFault (String × String) := do
  if isRatioName spec then
    let ratio ← u.ratio spec
    return (ratio.numerator.name, ratio.denominator.name)
  else
    match (← u.signature spec).normalized with
    | .ratio numerator denominator => return (numerator.baseUnit, denominator.baseUnit)
    | .plain _ => throw (.malformed spec .notRate)

def convertRate (u : UnitSystem α) (value : α) (source target : String) : Except UnitFault α := do
  let src ← u.rate source
  let dst ← u.rate target
  if src.pair ≠ dst.pair then throw (.incompatible source target)
  return value * src.factor / dst.factor

def convert (u : UnitSystem α) (value : α) (source target : String) : Except UnitFault α := do
  if isRatioName source || isRatioName target then u.convertRate value source target
  else
    let src ← u.resolve source
    let dst ← u.resolve target
    if src.dimension ≠ dst.dimension then throw (.incompatible source target)
    if src.name = dst.name then return value
    return dst.conversion.fromBase (src.conversion.toBase value)

/-- A new unit has a name of one word that does not begin with a digit. -/
def isUnitWord (name : String) : Bool :=
  match name.toList with
  | [] => false
  | c :: rest => !isDigit c && (c :: rest).all fun c => c ≠ '/' && !isBlank c

def define (u : UnitSystem α) (name : String) (scale : α) (base : String) :
    Except UnitFault (UnitSystem α) := do
  let name := trim name
  if !isUnitWord name then throw (.malformed name .notOneWord)
  if !(Amount.isFinite scale && Amount.isPositive scale) then throw (.scale (Amount.plain scale))
  if (u.find? name).isSome then throw (.duplicate name)
  let base ← u.resolve base
  if base.conversion.isAffine then throw (.affineBase base.name)
  return ⟨u.custom.insert [name] base.dimension (.linear (scale * base.conversion.factor))⟩

def clear (_ : UnitSystem α) : UnitSystem α := standard

end UnitSystem

end NotepadCalculator.Measurement
