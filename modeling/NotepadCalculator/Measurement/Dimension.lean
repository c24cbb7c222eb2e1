/-!
What a unit measures. Speeds and data rates are dimensions of their own that stand for a ratio of
two plain ones; `Signature.normalized` makes both spellings of such a dimension equal.
-/
namespace NotepadCalculator.Measurement

inductive Dimension where
  | length
  | mass
  | time
  | area
  | temperature
  | speed
  | digitalStorage
  | dataRate
  | dimensionless
  deriving DecidableEq, Repr

def Dimension.label : Dimension → String
  | .length => "length"
  | .mass => "mass"
  | .time => "time"
  | .area => "area"
  | .temperature => "temperature"
  | .speed => "speed"
  | .digitalStorage => "digital-storage"
  | .dataRate => "data-rate"
  | .dimensionless => "dimensionless"

def Dimension.baseUnit : Dimension → String
  | .length => "m"
  | .mass => "kg"
  | .time => "s"
  | .area => "m2"
  | .temperature => "°C"
  | .speed => "mps"
  | .digitalStorage => "B"
  | .dataRate => "Bps"
  | .dimensionless => "each"

def Dimension.rate? : Dimension → Option (Dimension × Dimension)
  | .speed => some (.length, .time)
  | .dataRate => some (.digitalStorage, .time)
  | _ => none

inductive Signature where
  | plain (dimension : Dimension)
  | ratio (numerator denominator : Dimension)
  deriving DecidableEq, Repr

def Signature.normalized : Signature → Signature
  | .plain d => match d.rate? with
    | some (n, m) => .ratio n m
    | none => .plain d
  | .ratio n m => .ratio n m

def Signature.label : Signature → String
  | .plain d => d.label
  | .ratio n m => n.label ++ "/" ++ m.label

end NotepadCalculator.Measurement
