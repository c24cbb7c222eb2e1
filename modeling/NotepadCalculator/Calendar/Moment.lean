import NotepadCalculator.Calendar.Day
import NotepadCalculator.Number.Amount

/-!
A moment is a day and the nanoseconds since its midnight. Shifting by a number of seconds goes
through whole milliseconds and is exact, or it is refused where the calendar ends; the difference
of two moments is cut to whole milliseconds.
-/
namespace NotepadCalculator.Calendar
open NotepadCalculator.Number

structure ClockTime where
  seconds : Nat
  bound : seconds < 86400
  deriving DecidableEq, Repr

def ClockTime.of? (hour minute second : Nat) : Option ClockTime :=
  if h : hour < 24 ∧ minute < 60 ∧ second < 60 then
    some ⟨hour * 3600 + minute * 60 + second, by omega⟩
  else none

def ClockTime.hour (t : ClockTime) : Nat := t.seconds / 3600
def ClockTime.minute (t : ClockTime) : Nat := t.seconds / 60 % 60
def ClockTime.second (t : ClockTime) : Nat := t.seconds % 60

def nanosPerSecond : Nat := 1000000000
def nanosPerMilli : Nat := 1000000
def nanosPerDay : Nat := 86400000000000

structure Moment where
  day : Day
  nanos : Nat
  bound : nanos < nanosPerDay
  deriving DecidableEq, Repr

def Day.midnight (d : Day) : Moment := ⟨d, 0, by decide⟩

def Day.at (d : Day) (t : ClockTime) : Moment :=
  ⟨d, t.seconds * nanosPerSecond, by
    have := t.bound; unfold nanosPerSecond nanosPerDay; omega⟩

def Moment.clockTime (m : Moment) : ClockTime :=
  ⟨m.nanos / nanosPerSecond, by have := m.bound; unfold nanosPerSecond nanosPerDay at *; omega⟩

def Moment.subsecond (m : Moment) : Nat := m.nanos % nanosPerSecond

def Moment.instant (m : Moment) : Int := m.day.number * nanosPerDay + m.nanos

def Moment.ofInstant? (n : Int) : Option Moment :=
  (Day.ofNumber? (n / nanosPerDay)).map fun day =>
    ⟨day, (n % nanosPerDay).toNat, by unfold nanosPerDay; omega⟩

def Moment.plusMillis? (m : Moment) (millis : Int) : Option Moment :=
  Moment.ofInstant? (m.instant + millis * nanosPerMilli)

def Moment.plusDays? (m : Moment) (days : Int) : Option Moment :=
  Moment.ofInstant? (m.instant + days * nanosPerDay)

section
variable {α : Type} [Amount α]

def thousand : α := Amount.ofNat 1000

def millis? (seconds : α) : Option Int :=
  (Amount.whole? (Amount.integral .nearest (seconds * thousand))).filter fun m =>
    m.natAbs ≤ signedLimit

def Moment.shift? (m : Moment) (seconds : α) : Option Moment :=
  (millis? seconds).bind m.plusMillis?

/-- Seconds from `earlier` to `later`, without what lies beyond whole milliseconds. -/
def secondsBetween (later earlier : Moment) : α :=
  Amount.ofInt ((later.instant - earlier.instant).tdiv nanosPerMilli) / thousand

end

inductive DateSpec where
  | now
  | today
  | tomorrow
  | yesterday
  | on (day : Day)
  | at (moment : Moment)
  deriving DecidableEq, Repr

/-- Nothing is named where the calendar has no next or no previous day. -/
def DateSpec.resolve? (spec : DateSpec) (now : Moment) : Option Moment :=
  match spec with
  | .now => some now
  | .today => some now.day.midnight
  | .tomorrow => now.day.midnight.plusDays? 1
  | .yesterday => now.day.midnight.plusDays? (-1)
  | .on day => some day.midnight
  | .at moment => some moment

end NotepadCalculator.Calendar
