import NotepadCalculator.Calendar.Moment
import NotepadCalculator.Text.Words

/-!
Dates and times as text. A date is read as a year, a month and a day between hyphens, blanks
before each number being skipped; a year with a sign may have any number of digits. A year outside
0 to 9999 is written with its sign.
-/
namespace NotepadCalculator.Calendar
open NotepadCalculator.Text NotepadCalculator.Number

def leadingNumber? (most : Nat) (cs : List Char) : Option (Nat × List Char) :=
  let found := (cs.takeWhile isDigit).take most
  if found = [] then none else some (digitsValue found, cs.drop found.length)

def leadingYear? (cs : List Char) : Option (Int × List Char) :=
  match cs with
  | '-' :: rest => (leadingNumber? rest.length rest).map fun (n, tail) => (-(n : Int), tail)
  | '+' :: rest => (leadingNumber? rest.length rest).map fun (n, tail) => ((n : Int), tail)
  | _ => (leadingNumber? 4 cs).map fun (n, tail) => ((n : Int), tail)

def afterHyphen? : List Char → Option (List Char)
  | '-' :: rest => some (rest.dropWhile isBlank)
  | _ => none

def readDay? (s : String) : Option Day := do
  let (year, tail) ← leadingYear? (s.toList.dropWhile isBlank)
  let (month, tail) ← leadingNumber? 2 (← afterHyphen? tail)
  let (day, tail) ← leadingNumber? 2 (← afterHyphen? tail)
  if tail = [] then Day.ofCivil? ⟨year, month, day⟩ else none

inductive Meridiem where
  | am
  | pm
  deriving DecidableEq, Repr

def splitMeridiem (cs : List Char) : List Char × Option Meridiem :=
  match dropEnding? "am" cs with
  | some rest => (rest, some .am)
  | none => match dropEnding? "pm" cs with
    | some rest => (rest, some .pm)
    | none => (cs, none)

/-- The hour on a 24-hour clock. With am or pm, hours run from 1 to 12. -/
def dayHour? (hour : Nat) : Option Meridiem → Option Nat
  | none => some hour
  | some half =>
    if hour = 0 ∨ 12 < hour then none
    else match half with
      | .am => some (hour % 12)
      | .pm => some (hour % 12 + 12)

def readClockTime? (s : String) : Option ClockTime := do
  let (clock, half) := splitMeridiem (s.toList.map asciiLower)
  let parts ← (splitAt ':' clock).mapM (natural? 0xffffffff)
  match parts with
  | [hour] => ClockTime.of? (← dayHour? hour half) 0 0
  | [hour, minute] => ClockTime.of? (← dayHour? hour half) minute 0
  | [hour, minute, second] => ClockTime.of? (← dayHour? hour half) minute second
  | _ => none

def decimal (width n : Nat) : String := String.ofList (padded width (digits n))

def yearText (year : Int) : String :=
  if 0 ≤ year ∧ year ≤ 9999 then decimal 4 year.toNat
  else (if year < 0 then "-" else "+") ++ decimal 4 year.natAbs

def Day.text (d : Day) : String :=
  let c := d.civil
  yearText c.year ++ "-" ++ decimal 2 c.month ++ "-" ++ decimal 2 c.day

/-- The day alone at midnight, else the day with hour and minute. -/
def Moment.text (m : Moment) : String :=
  if m.nanos = 0 then m.day.text
  else m.day.text ++ " " ++ decimal 2 m.clockTime.hour ++ ":" ++ decimal 2 m.clockTime.minute

/-- Places in groups of three, as few groups as the nanoseconds need. -/
def subsecondText (nanos : Nat) : String :=
  if nanos = 0 then ""
  else if nanos % 1000000 = 0 then "." ++ decimal 3 (nanos / 1000000)
  else if nanos % 1000 = 0 then "." ++ decimal 6 (nanos / 1000)
  else "." ++ decimal 9 nanos

def Moment.recordText (m : Moment) : String :=
  let t := m.clockTime
  m.day.text ++ "T" ++ decimal 2 t.hour ++ ":" ++ decimal 2 t.minute ++ ":" ++ decimal 2 t.second
    ++ subsecondText m.subsecond

end NotepadCalculator.Calendar
