import NotepadCalculator.Measurement.Registry

/-!
The units known from the start. "pound" is left to the currency and "in" to conversions, so neither
is a unit.
-/
namespace NotepadCalculator.Measurement
open NotepadCalculator.Number.Amount

abbrev Entries (α : Type) := List (List String × Conversion α)

section
variable {α : Type} [Number.Amount α]

def lengthEntries : Entries α := [
  (["m", "meter", "meters", "metre", "metres"], .linear (ofNat 1)),
  (["km", "kilometer", "kilometers", "kilometre", "kilometres"], .linear (ofNat 1000)),
  (["cm", "centimeter", "centimeters", "centimetre", "centimetres"], .linear (ofDecimal 1 2)),
  (["mm", "millimeter", "millimeters", "millimetre", "millimetres"], .linear (ofDecimal 1 3)),
  (["um", "µm", "micrometer", "micrometers", "micron", "microns"], .linear (ofDecimal 1 6)),
  (["nm", "nanometer", "nanometers"], .linear (ofDecimal 1 9)),
  (["inch", "inches"], .linear (ofDecimal 254 4)),
  (["ft", "foot", "feet"], .linear (ofDecimal 3048 4)),
  (["yd", "yard", "yards"], .linear (ofDecimal 9144 4)),
  (["mi", "mile", "miles"], .linear (ofDecimal 1609344 3)),
  (["nmi", "nauticalmile", "nauticalmiles"], .linear (ofNat 1852))]

def massEntries : Entries α := [
  (["kg", "kilogram", "kilograms", "kilo", "kilos"], .linear (ofNat 1)),
  (["g", "gram", "grams", "gramme", "grammes"], .linear (ofDecimal 1 3)),
  (["mg", "milligram", "milligrams"], .linear (ofDecimal 1 6)),
  (["ug", "µg", "mcg", "microgram", "micrograms"], .linear (ofDecimal 1 9)),
  (["t", "tonne", "tonnes"], .linear (ofNat 1000)),
  (["lb", "lbs"], .linear (ofDecimal 45359237 8)),
  (["oz", "ounce", "ounces"], .linear (ofDecimal 28349523125 12)),
  (["st", "stone", "stones"], .linear (ofDecimal 635029318 8)),
  (["ct", "carat", "carats"], .linear (ofDecimal 2 4)),
  (["ozt", "troyounce", "troyounces"], .linear (ofDecimal 311034768 10)),
  (["gr", "grain", "grains"], .linear (ofDecimal 6479891 11)),
  (["dwt", "pennyweight", "pennyweights"], .linear (ofDecimal 155517384 11))]

/- Time, in seconds. A month has 30 days, a quarter 90 and a year 365. -/
def timeEntries : Entries α := [
  (["ns", "nanosecond", "nanoseconds"], .linear (ofDecimal 1 9)),
  (["us", "µs", "microsecond", "microseconds"], .linear (ofDecimal 1 6)),
  (["ms", "millisecond", "milliseconds"], .linear (ofDecimal 1 3)),
  (["s", "sec", "secs", "second", "seconds"], .linear (ofNat 1)),
  (["min", "mins", "minute", "minutes"], .linear (ofNat 60)),
  (["h", "hr", "hrs", "hour", "hours"], .linear (ofNat 3600)),
  (["day", "days", "d"], .linear (ofNat 86400)),
  (["week", "weeks", "wk", "wks"], .linear (ofNat 604800)),
  (["fortnight", "fortnights"], .linear (ofNat 1209600)),
  (["month", "months", "mo"], .linear (ofNat 2592000)),
  (["quarter", "quarters", "qtr"], .linear (ofNat 7776000)),
  (["semester", "semesters"], .linear (ofNat 15552000)),
  (["year", "years", "yr", "yrs", "y"], .linear (ofNat 31536000)),
  (["decade", "decades"], .linear (ofNat 315360000)),
  (["century", "centuries"], .linear (ofNat 3153600000))]

def areaEntries : Entries α := [
  (["m2", "m²", "sqm"], .linear (ofNat 1)),
  (["km2", "km²", "sqkm"], .linear (ofNat 1000000)),
  (["cm2", "cm²"], .linear (ofDecimal 1 4)),
  (["mm2", "mm²"], .linear (ofDecimal 1 6)),
  (["ha", "hectare", "hectares"], .linear (ofNat 10000)),
  (["acre", "acres", "ac"], .linear (ofDecimal 40468564224 7)),
  (["ft2", "ft²", "sqft"], .linear (ofDecimal 9290304 8)),
  (["in2", "in²", "sqin"], .linear (ofDecimal 64516 8)),
  (["yd2", "yd²", "sqyd"], .linear (ofDecimal 83612736 8)),
  (["mi2", "mi²", "sqmi"], .linear (ofDecimal 2589988110336 6))]

def temperatureEntries : Entries α := [
  (["°C", "c", "celsius", "degc"], .affine (ofNat 1) (ofNat 0)),
  (["°F", "f", "fahrenheit", "degf"], .affine (ofNat 5 / ofNat 9) (-(ofNat 32))),
  (["K", "kelvin"], .affine (ofNat 1) (-(ofDecimal 27315 2))),
  (["°R", "rankine"], .affine (ofNat 5 / ofNat 9) (-(ofDecimal 49167 2)))]

def speedEntries : Entries α := [
  (["mps"], .linear (ofNat 1)),
  (["kph", "kmh", "kmph"], .linear (ofNat 1000 / ofNat 3600)),
  (["mph"], .linear (ofDecimal 44704 5)),
  (["knots", "knot", "kn", "kt", "kts"], .linear (ofNat 1852 / ofNat 3600)),
  (["fps"], .linear (ofDecimal 3048 4))]

/- Storage, in bytes, each prefix being 1024 times the one before. Bytes come before bits, so
   that a name in the wrong case means bytes. -/
def digitalStorageEntries : Entries α := [
  (["B", "byte", "bytes"], .linear (ofNat 1)),
  (["KB", "KiB", "kilobyte", "kilobytes"], .linear (ofNat 1024)),
  (["MB", "MiB", "megabyte", "megabytes"], .linear (ofNat 1048576)),
  (["GB", "GiB", "gigabyte", "gigabytes"], .linear (ofNat 1073741824)),
  (["TB", "TiB", "terabyte", "terabytes"], .linear (ofNat 1099511627776)),
  (["PB", "PiB", "petabyte", "petabytes"], .linear (ofNat 1125899906842624)),
  (["b", "bit", "bits"], .linear (ofDecimal 125 3)),
  (["Kb", "Kib", "kilobit", "kilobits"], .linear (ofNat 128)),
  (["Mb", "Mib", "megabit", "megabits"], .linear (ofNat 131072)),
  (["Gb", "Gib", "gigabit", "gigabits"], .linear (ofNat 134217728)),
  (["Tb", "Tib", "terabit", "terabits"], .linear (ofNat 137438953472))]

/- Data rate, in bytes per second. Here bits come first. -/
def dataRateEntries : Entries α := [
  (["bps"], .linear (ofDecimal 125 3)),
  (["kbps", "Kbps"], .linear (ofNat 128)),
  (["Mbps"], .linear (ofNat 131072)),
  (["Gbps"], .linear (ofNat 134217728)),
  (["Bps"], .linear (ofNat 1)),
  (["KBps"], .linear (ofNat 1024)),
  (["MBps"], .linear (ofNat 1048576)),
  (["GBps"], .linear (ofNat 1073741824))]

def dimensionlessEntries : Entries α := [
  (["each", "ea", "pcs", "pc", "piece", "pieces"], .linear (ofNat 1)),
  (["pair", "pairs"], .linear (ofNat 2)),
  (["dozen", "dozens", "doz"], .linear (ofNat 12)),
  (["score"], .linear (ofNat 20)),
  (["gross"], .linear (ofNat 144))]

def catalogueEntries : List (Dimension × Entries α) := [
  (.length, lengthEntries),
  (.mass, massEntries),
  (.time, timeEntries),
  (.area, areaEntries),
  (.temperature, temperatureEntries),
  (.speed, speedEntries),
  (.digitalStorage, digitalStorageEntries),
  (.dataRate, dataRateEntries),
  (.dimensionless, dimensionlessEntries)]

def catalogue : Registry α :=
  catalogueEntries.foldl (fun registry (dimension, entries) =>
    entries.foldl (fun registry (aliases, conversion) =>
      registry.insert aliases dimension conversion) registry) .empty

end

end NotepadCalculator.Measurement
