/-!
The proleptic Gregorian calendar. A day is its distance from 1970-01-01; year, month and day of
the month are read off it and lead back to it. Year 0 exists, and the calendar ends on both sides.
-/
namespace NotepadCalculator.Calendar

structure Civil where
  year : Int
  month : Nat
  day : Nat
  deriving DecidableEq, Repr

def isLeap (year : Int) : Bool := year % 4 = 0 && (year % 100 ≠ 0 || year % 400 = 0)

def monthLength (year : Int) : Nat → Nat
  | 2 => if isLeap year then 29 else 28
  | 4 | 6 | 9 | 11 => 30
  | _ => 31

def Civil.Valid (c : Civil) : Prop :=
  1 ≤ c.month ∧ c.month ≤ 12 ∧ 1 ≤ c.day ∧ c.day ≤ monthLength c.year c.month

instance (c : Civil) : Decidable c.Valid := by unfold Civil.Valid; infer_instance

/-- Years are counted from March, so that the leap day is the last of its year, in eras of 400
    years or 146097 days. -/
def Civil.dayNumber (c : Civil) : Int :=
  let year := if c.month ≤ 2 then c.year - 1 else c.year
  let yearOfEra := year % 400
  let month : Int := if c.month ≤ 2 then c.month + 9 else c.month - 3
  let dayOfYear := (153 * month + 2) / 5 + c.day - 1
  let dayOfEra := yearOfEra * 365 + yearOfEra / 4 - yearOfEra / 100 + dayOfYear
  year / 400 * 146097 + dayOfEra - 719468

def Civil.ofDayNumber (n : Int) : Civil :=
  let shifted := n + 719468
  let dayOfEra := shifted % 146097
  let yearOfEra :=
    (dayOfEra - dayOfEra / 1460 + dayOfEra / 36524 - dayOfEra / 146096) / 365
  let dayOfYear := dayOfEra - (365 * yearOfEra + yearOfEra / 4 - yearOfEra / 100)
  let month := (5 * dayOfYear + 2) / 153
  let year := yearOfEra + shifted / 146097 * 400
  ⟨if month < 10 then year else year + 1, (if month < 10 then month + 3 else month - 9).toNat,
    (dayOfYear - (153 * month + 2) / 5 + 1).toNat⟩

/-- A day from -262143-01-01 to 262142-12-31. -/
structure Day where
  number : Int
  first : -96465292 ≤ number
  last : number ≤ 95026236
  deriving DecidableEq, Repr

def Day.ofNumber? (n : Int) : Option Day :=
  if h : -96465292 ≤ n ∧ n ≤ 95026236 then some ⟨n, h.1, h.2⟩ else none

def Day.ofCivil? (c : Civil) : Option Day := if c.Valid then Day.ofNumber? c.dayNumber else none

def Day.civil (d : Day) : Civil := .ofDayNumber d.number

end NotepadCalculator.Calendar
