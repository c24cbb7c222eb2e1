import NotepadCalculator.Proofs.AddedUnitLines
import NotepadCalculator.Proofs.DayDifferences
import NotepadCalculator.Proofs.PlainEvaluation
import NotepadCalculator.Proofs.WrittenMoments

/-!
Tomorrow and yesterday beside the sums that say the same. As long as the calendar has the day, the
word and the sum come to its midnight. Where the calendar ends, the sum is refused, but the word
leads out of the calendar.
-/
namespace NotepadCalculator
open Calendar Evaluation Measurement Number

inductive DayWord where
  | tomorrow
  | yesterday
  deriving DecidableEq, Repr

namespace DayWord

def spec : DayWord → DateSpec
  | .tomorrow => .tomorrow
  | .yesterday => .yesterday

def days : DayWord → ℤ
  | .tomorrow => 1
  | .yesterday => -1

def op : DayWord → BinaryOp
  | .tomorrow => .add
  | .yesterday => .subtract

def outermost : DayWord → ℤ
  | .tomorrow => 95026236
  | .yesterday => -96465292

def written : DayWord → String
  | .tomorrow => "tomorrow"
  | .yesterday => "yesterday"

def writtenSum : DayWord → String
  | .tomorrow => "today + 1 day"
  | .yesterday => "today - 1 day"

def word (w : DayWord) : Expr Float := .date w.spec

def sum (w : DayWord) : Expr Float := .binary w.op (.date .today) (.unit 1 "day")

theorem parseLine_written (w : DayWord) (fuzzy : Bool) :
    parseLine fuzzy w.written = .ok w.word ∧ parseLine fuzzy w.writtenSum = .ok w.sum := by
  cases w <;> cases fuzzy <;> exact ⟨rfl, rfl⟩

end DayWord

namespace Calendar

def Day.plus? (d : Day) (days : ℤ) : Option Day := Day.ofNumber? (d.number + days)

theorem plus?_eq_some_iff {d later : Day} {days : ℤ} :
    d.plus? days = some later ↔ d.until later = days := by
  obtain ⟨number, first, last⟩ := later
  unfold Day.plus? Day.ofNumber? Day.until
  split
  · simp only [Option.some.injEq, Day.mk.injEq]
    omega
  · simp only [reduceCtorEq, false_iff]
    omega

theorem plusDays?_midnight (d : Day) (days : ℤ) :
    d.midnight.plusDays? days = (d.plus? days).map Day.midnight := by
  have instant : d.midnight.instant + days * nanosPerDay = (d.number + days) * nanosPerDay := by
    show d.number * nanosPerDay + (0 : ℕ) + days * nanosPerDay = _
    unfold nanosPerDay
    omega
  have rest : (d.number + days) * nanosPerDay % nanosPerDay = 0 := Int.mul_emod_left _ _
  rw [Moment.plusDays?, instant, Moment.ofInstant?, Int.mul_ediv_cancel _ (by decide), Day.plus?]
  congr 1
  funext day
  simp only [rest]
  rfl

theorem resolve?_spec (w : DayWord) (now : Moment) :
    w.spec.resolve? now = (now.day.plus? w.days).map Day.midnight := by
  cases w with
  | tomorrow => exact plusDays?_midnight now.day 1
  | yesterday => exact plusDays?_midnight now.day (-1)

/-- Only a word for a day next to today can name none. -/
theorem resolve?_eq_none_iff {spec : DateSpec} {now : Moment} :
    spec.resolve? now = none ↔ ∃ w : DayWord, spec = w.spec ∧ now.day.plus? w.days = none := by
  constructor
  · intro absent
    obtain ⟨w, rfl⟩ : ∃ w : DayWord, spec = w.spec := by
      cases spec with
      | tomorrow => exact ⟨.tomorrow, rfl⟩
      | yesterday => exact ⟨.yesterday, rfl⟩
      | _ => cases absent
    rw [resolve?_spec, Option.map_eq_none_iff] at absent
    exact ⟨w, rfl, absent⟩
  · rintro ⟨w, rfl, absent⟩
    rw [resolve?_spec, absent, Option.map_none]

/-- The calendar has no tomorrow on its last day, and no yesterday on its first. -/
theorem plus?_eq_none_iff {d : Day} {w : DayWord} :
    d.plus? w.days = none ↔ d.number = w.outermost := by
  have := d.first
  have := d.last
  unfold Day.plus? Day.ofNumber?
  rw [dite_eq_right_iff]
  cases w with
  | tomorrow =>
    simp only [DayWord.days, DayWord.outermost, reduceCtorEq, imp_false]
    omega
  | yesterday =>
    simp only [DayWord.days, DayWord.outermost, reduceCtorEq, imp_false]
    omega

end Calendar

namespace Tables

theorem exists_seconds_day (t : Tables Float) : ∃ seconds : Float,
    t.seconds 1 "day" = .ok seconds ∧ Stands .positive ((1 : ℕ) * (86400 : ℕ)) seconds := by
  have stands := stands_day_seconds (show (1 : ℤ).natAbs ≤ 191491528 by decide)
  refine ⟨Float.ofInt 1 * Amount.ofNat 86400 / Amount.ofNat 1, ?_, stands⟩
  rw [seconds, UnitSystem.convert_day]
  rfl

theorem moved_of_stands (m : Moment) (days : ℤ) (most : days.natAbs ≤ 191491528) {seconds : Float}
    (stands : Stands (signOf (days < 0)) (days.natAbs * (86400 : ℕ)) seconds) :
    moved m seconds = match m.plusDays? days with
      | some later => .ok (.date later)
      | none => .error (.invalidOperation .dateRange) := by
  have same := shift?_eq_plusDays? m most stands
  cases found : m.plusDays? days with
  | some later => exact moved_eq_ok_iff.2 (same.trans found)
  | none =>
    apply moved_eq_error_iff.2
    simp [same, found]

theorem binary_day (t : Tables Float) (m : Moment) (w : DayWord) :
    t.binary w.op (.date m) (.unit 1 "day") = match m.plusDays? w.days with
      | some later => .ok (.date later)
      | none => .error (.invalidOperation .dateRange) := by
  obtain ⟨seconds, counted, stands⟩ := t.exists_seconds_day
  -- Subtracting is moving by the seconds with the other sign, which are those of a day less.
  cases w with
  | tomorrow =>
    show (t.seconds 1 "day").bind (moved m) = _
    rw [counted]
    exact moved_of_stands m 1 (by decide) stands
  | yesterday =>
    show (t.seconds 1 "day").bind (fun seconds => moved m (-seconds)) = _
    rw [counted]
    exact moved_of_stands m (-1) (by decide) stands.neg

end Tables

namespace Surroundings

theorem run_sum (s : Surroundings Float) (bindings : Bindings (Value Float)) (w : DayWord) :
    s.run bindings w.sum =
      (s.tables.binary w.op (.date s.now.day.midnight) (.unit 1 "day"), .start bindings) := by
  have named : s.tables.units.canonicalName "day" = .ok "day" :=
    (UnitSystem.canonicalName_whole (by decide)).2 ⟨_, (UnitSystem.resolve_day _).1, rfl⟩
  have today : runFrom (s.leading (s.withLevels 199) (.date .today)) (.start bindings) =
      (.ok (.date s.now.day.midnight), .start bindings) := rfl
  show runFrom (s.withLevels (199 + 1) w.sum) (.start bindings) = _
  rw [DayWord.sum, withLevels_binary, runFrom_bind, today]
  show runFrom (s.withLevels 199 (.unit 1 "day") >>= _) _ = _
  rw [runFrom_bind, Sheet.runFrom_unit named]
  exact runFrom_ofAnswer _ _

theorem run_word_and_sum (s : Surroundings Float) (bindings : Bindings (Value Float))
    (w : DayWord) :
    match s.now.day.plus? w.days with
    | some day =>
      s.run bindings w.word = (.ok (.date day.midnight), .start bindings) ∧
      s.run bindings w.sum = (.ok (.date day.midnight), .start bindings)
    | none =>
      s.run bindings w.word = (.error .beyondCalendar, .start bindings) ∧
      s.run bindings w.sum = (.error (.invalidOperation .dateRange), .start bindings) := by
  rw [run_sum, Tables.binary_day, plusDays?_midnight, DayWord.word, run_date_spec, date,
    resolve?_spec]
  cases s.now.day.plus? w.days with
  | none => exact ⟨rfl, rfl⟩
  | some day => exact ⟨rfl, rfl⟩

/-- Tomorrow and yesterday are what a day more or a day less than today is, as far as the calendar
    goes: both come to midnight of the day after or before today. Where there is no such day, which
    is on the last or the first one of the calendar, the sum is refused and the word leads out of
    the calendar, as no other date that a line can name does. -/
theorem run_dayWord (s : Surroundings Float) (bindings : Bindings (Value Float)) (w : DayWord)
    (fuzzy : Bool) :
    parseLine fuzzy w.written = .ok w.word ∧ parseLine fuzzy w.writtenSum = .ok w.sum ∧
    (match s.now.day.plus? w.days with
      | some day =>
        s.run bindings w.word = (.ok (.date day.midnight), .start bindings) ∧
        s.run bindings w.sum = (.ok (.date day.midnight), .start bindings)
      | none =>
        s.run bindings w.word = (.error .beyondCalendar, .start bindings) ∧
        s.run bindings w.sum = (.error (.invalidOperation .dateRange), .start bindings)) ∧
    (∀ day, s.now.day.plus? w.days = some day ↔
      Civil.next^[w.days.toNat] s.now.day.civil = Civil.next^[(-w.days).toNat] day.civil) ∧
    (s.now.day.plus? w.days = none ↔ s.now.day.number = w.outermost) ∧
    ∀ spec, (∃ m, s.run bindings (.date spec) = (.ok (.date m), .start bindings)) ∨
      s.run bindings (.date spec) = (.error .beyondCalendar, .start bindings) ∧
        ∃ w : DayWord, spec = w.spec ∧ s.now.day.plus? w.days = none := by
  obtain ⟨parsed, parsedSum⟩ := w.parseLine_written fuzzy
  refine ⟨parsed, parsedSum, s.run_word_and_sum bindings w, ?_, plus?_eq_none_iff, ?_⟩
  · intro day
    rw [plus?_eq_some_iff, until_eq_iff]
  · intro spec
    rw [run_date_spec, date]
    cases found : spec.resolve? s.now with
    | some m => exact .inl ⟨m, rfl⟩
    | none => exact .inr ⟨rfl, resolve?_eq_none_iff.1 found⟩

/-- On the last day of the calendar the word and the sum part. -/
theorem run_tomorrow_on_last_day :
    let s : Surroundings Float := ⟨⟨.standard, ⟨[]⟩⟩,
      (Day.mk 95026236 (by decide) (by decide)).midnight, [], 1, 2⟩
    (s.run [] DayWord.tomorrow.word).1 = .error .beyondCalendar ∧
      (s.run [] DayWord.tomorrow.sum).1 = .error (.invalidOperation .dateRange) := by
  intro s
  have both := s.run_word_and_sum [] .tomorrow
  have absent : s.now.day.plus? DayWord.tomorrow.days = none := by decide
  rw [absent] at both
  exact ⟨congrArg Prod.fst both.1, congrArg Prod.fst both.2⟩

end Surroundings

end NotepadCalculator
