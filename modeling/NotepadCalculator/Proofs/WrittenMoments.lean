import NotepadCalculator.Proofs.CivilDays
import NotepadCalculator.Proofs.SavedSessions
import NotepadCalculator.Proofs.WrittenAmounts

/-!
Dates as they are shown. A day is four digits, two and two with hyphens between, and a clock time is
two digits and two with a colon. Each of them is scanned as one token, both tokens make one date,
and their digits spell the numbers that they were written for.
-/
namespace NotepadCalculator

/-! Digits. -/

namespace Number
open Text

structure Spells (width n : ℕ) (cs : List Char) : Prop where
  length : cs.length = width
  digits : ∀ c ∈ cs, isDigit c = true
  value : digitsValue cs = n

theorem spells_padded {width n : ℕ} (some : 0 < width) (small : n < 10 ^ width) :
    Spells width n (padded width (digits n)) := by
  have short : (digits n).length ≤ width := (Nat.length_toDigits_le_iff (by decide) some).2 small
  constructor
  · rw [padded, List.length_append, List.length_replicate]
    omega
  · intro c member
    exact isDigit_of_mem_padded member
  · show Nat.ofDigitChars 10 (List.replicate _ '0' ++ Nat.toDigits 10 n) 0 = n
    rw [Nat.ofDigitChars_append, Nat.ofDigitChars_replicate_zero, Nat.mul_zero,
      Nat.ofDigitChars_ten_toDigits]

section
variable {width n : ℕ} {cs : List Char} (spells : Spells width n cs)
include spells

theorem Spells.notMem {c : Char} (other : isDigit c = false) : c ∉ cs := by
  intro member
  rw [spells.digits c member] at other
  contradiction

theorem Spells.ne_nil (some : 0 < width) : cs ≠ [] := by
  rintro rfl
  exact some.ne spells.length

theorem Spells.head (some : 0 < width) : ∃ c rest, cs = c :: rest ∧ isDigit c = true := by
  cases cs with
  | nil => exact absurd rfl (spells.ne_nil some)
  | cons c rest => exact ⟨c, rest, rfl, spells.digits c List.mem_cons_self⟩

theorem Spells.natural? (some : 0 < width) {limit : ℕ} (small : n ≤ limit) :
    natural? limit cs = .some n := by
  have noSign : cs.head? ≠ .some '+' := fun first =>
    spells.notMem (by decide) (List.mem_of_head? first)
  have all : cs.all isDigit = true := List.all_eq_true.2 spells.digits
  simp only [Number.natural?, noSign, if_false, spells.value, small, all, spells.ne_nil some,
    ne_eq, not_false_eq_true, and_self, if_true]

end

end Number

/-! Reading. -/

namespace Calendar
open Number Text

inductive DateText (c : Civil) : List Char → Prop where
  | intro {year month day : List Char} (first : Spells 4 c.year.toNat year)
      (second : Spells 2 c.month month) (third : Spells 2 c.day day) :
      DateText c (year ++ '-' :: (month ++ '-' :: day))

inductive ClockText (t : ClockTime) : List Char → Prop where
  | intro {hour minute : List Char} (first : Spells 2 t.hour hour)
      (second : Spells 2 t.minute minute) : ClockText t (hour ++ ':' :: minute)

theorem leadingNumber?_spells {width n : ℕ} (some : 0 < width) {cs rest : List Char}
    (spells : Spells width n cs) (ends : Scan.startsDigit rest = false) :
    leadingNumber? width (cs ++ rest) = .some (n, rest) := by
  have found : ((cs ++ rest).takeWhile isDigit).take width = cs := by
    rw [Scan.takeWhile_left spells.digits ends, ← spells.length, List.take_length]
  simp only [leadingNumber?, found, spells.ne_nil some, if_false, spells.value, List.drop_left]

theorem leadingYear?_spells {n : ℕ} {cs rest : List Char} (spells : Spells 4 n cs)
    (ends : Scan.startsDigit rest = false) :
    leadingYear? (cs ++ rest) = .some ((n : ℤ), rest) := by
  obtain ⟨c, others, rfl, digit⟩ := spells.head (by decide)
  have number := leadingNumber?_spells (by decide) spells ends
  unfold leadingYear?
  split
  · rename_i same
    obtain ⟨rfl, -⟩ := List.cons.inj same
    contradiction
  · rename_i same
    obtain ⟨rfl, -⟩ := List.cons.inj same
    contradiction
  · rw [number]
    rfl

theorem dropWhile_blank_spells {width n : ℕ} (some : 0 < width) {cs : List Char}
    (spells : Spells width n cs) (rest : List Char) :
    (cs ++ rest).dropWhile isBlank = cs ++ rest := by
  obtain ⟨c, others, rfl, digit⟩ := spells.head some
  have visible := isBlank_of_isWordChar (isWordChar_of_isDigit digit)
  simp only [List.cons_append, List.dropWhile_cons, visible, Bool.false_eq_true, if_false]

theorem afterHyphen?_spells {width n : ℕ} (some : 0 < width) {cs : List Char}
    (spells : Spells width n cs) (rest : List Char) :
    afterHyphen? ('-' :: (cs ++ rest)) = .some (cs ++ rest) :=
  congrArg Option.some (dropWhile_blank_spells some spells rest)

theorem readDay?_text {c : Civil} (least : 0 ≤ c.year) {cs : List Char} (text : DateText c cs) :
    readDay? (String.ofList cs) = Day.ofCivil? c := by
  cases text with
  | @intro year month day first second third =>
    have hyphen {cs : List Char} : Scan.startsDigit ('-' :: cs) = false := rfl
    have last := leadingNumber?_spells (by decide) third (show Scan.startsDigit [] = false from rfl)
    have after := afterHyphen?_spells (by decide) third []
    rw [List.append_nil] at last after
    have same : (⟨(c.year.toNat : ℤ), c.month, c.day⟩ : Civil) = c := by
      rw [Int.toNat_of_nonneg least]
    simp only [readDay?, String.toList_ofList, dropWhile_blank_spells (by decide) first,
      leadingYear?_spells first hyphen, Option.bind_eq_bind, Option.bind_some,
      afterHyphen?_spells (by decide) second, leadingNumber?_spells (by decide) second hyphen,
      after, last, if_true, same]

theorem splitAt_of_notMem {mark : Char} {cs : List Char} (absent : mark ∉ cs) :
    splitAt mark cs = [cs] := by
  induction cs with
  | nil => rfl
  | cons c cs ih =>
    simp only [List.mem_cons, not_or] at absent
    rw [splitAt, if_neg (Ne.symm absent.1), ih absent.2]

theorem clock_chars {t : ClockTime} {cs : List Char} (text : ClockText t cs) :
    ∀ c ∈ cs, isDigit c = true ∨ c = ':' := by
  cases text with
  | intro first second =>
    intro c member
    rcases List.mem_append.1 member with hour | minute
    · exact .inl (first.digits c hour)
    · rcases List.mem_cons.1 minute with colon | minute
      · exact .inr colon
      · exact .inl (second.digits c minute)

theorem splitMeridiem_clock {t : ClockTime} {cs : List Char} (text : ClockText t cs) :
    splitMeridiem (cs.map asciiLower) = (cs, none) := by
  have chars := clock_chars text
  have lowered : cs.map asciiLower = cs := by
    refine (List.map_congr_left fun c member => ?_).trans (List.map_id cs)
    rcases asciiLower_cases c with same | ⟨least, most, -⟩
    · exact same
    · rcases chars c member with digit | rfl
      · have := isDigit_iff.1 digit
        omega
      · exact absurd least (by decide)
  have noLetter : 'm' ∉ cs := by
    intro member
    exact absurd (chars _ member) (by decide)
  have ends (ending : String) (letter : 'm' ∈ ending.toList) : dropEnding? ending cs = none := by
    have apart : ending.toList.isSuffixOf cs = false := by
      rw [Bool.eq_false_iff]
      intro ended
      exact noLetter ((List.isSuffixOf_iff_suffix.1 ended).subset letter)
    rw [dropEnding?, apart, if_neg Bool.false_ne_true]
  rw [lowered, splitMeridiem, ends "am" (by decide), ends "pm" (by decide)]

theorem of?_hour_minute {t : ClockTime} (whole : t.second = 0) :
    ClockTime.of? t.hour t.minute 0 = some t := by
  obtain ⟨seconds, bound⟩ := t
  change seconds % 60 = 0 at whole
  have inside : seconds / 3600 < 24 ∧ seconds / 60 % 60 < 60 ∧ 0 < 60 := by omega
  have same : seconds / 3600 * 3600 + seconds / 60 % 60 * 60 + 0 = seconds := by omega
  unfold ClockTime.of? ClockTime.hour ClockTime.minute
  simp only [inside, and_self, dite_true, same]

theorem readClockTime?_text {t : ClockTime} (whole : t.second = 0) {cs : List Char}
    (text : ClockText t cs) : readClockTime? (String.ofList cs) = some t := by
  have split := splitMeridiem_clock text
  have hours : t.hour ≤ 0xffffffff := by
    have := t.bound
    unfold ClockTime.hour
    omega
  have minutes : t.minute ≤ 0xffffffff := by
    unfold ClockTime.minute
    omega
  cases text with
  | @intro hour minute first second =>
    have parts : splitAt ':' (hour ++ ':' :: minute) = [hour, minute] := by
      rw [splitAt_ended (first.notMem rfl), splitAt_of_notMem (second.notMem rfl)]
    simp only [readClockTime?, String.toList_ofList, split, parts, List.mapM_cons, List.mapM_nil,
      first.natural? (by decide) hours, second.natural? (by decide) minutes, Option.bind_eq_bind,
      Option.bind_some, dayHour?, Option.pure_def, of?_hour_minute whole]

/-! Showing. -/

theorem monthLength_le (year : ℤ) (month : ℕ) : monthLength year month ≤ 31 := by
  unfold monthLength
  split
  · split <;> omega
  all_goals omega

theorem text_of_day {d : Day} (least : 0 ≤ d.civil.year) (most : d.civil.year ≤ 9999) :
    ∃ date, DateText d.civil date ∧ d.text = String.ofList date := by
  obtain ⟨-, month, -, day⟩ := valid_ofDayNumber d.number
  have days := monthLength_le d.civil.year d.civil.month
  change d.civil.month ≤ 12 at month
  change d.civil.day ≤ monthLength d.civil.year d.civil.month at day
  refine ⟨_, .intro (spells_padded (by decide) (show d.civil.year.toNat < 10 ^ 4 by omega))
    (spells_padded (by decide) (show d.civil.month < 10 ^ 2 by omega))
    (spells_padded (by decide) (show d.civil.day < 10 ^ 2 by omega)), ?_⟩
  rw [← String.toList_inj]
  simp [Day.text, yearText, least, most, decimal]

/-- A date is shown with its clock time, or alone at midnight. -/
theorem text_of_moment {m : Moment} (least : 0 ≤ m.day.civil.year)
    (most : m.day.civil.year ≤ 9999) : ∃ date, DateText m.day.civil date ∧
      if m.nanos = 0 then m.text = String.ofList date
      else ∃ clock, ClockText m.clockTime clock ∧ m.text = String.ofList (date ++ ' ' :: clock) := by
  obtain ⟨date, written, shown⟩ := text_of_day least most
  refine ⟨date, written, ?_⟩
  split
  · rename_i midnight
    rw [Moment.text, if_pos midnight, shown]
  · rename_i later
    have hour : m.clockTime.hour < 10 ^ 2 := by
      have := m.clockTime.bound
      unfold ClockTime.hour
      omega
    have minute : m.clockTime.minute < 10 ^ 2 := by
      unfold ClockTime.minute
      omega
    refine ⟨_, .intro (spells_padded (by decide) hour) (spells_padded (by decide) minute), ?_⟩
    rw [Moment.text, if_neg later, shown, ← String.toList_inj]
    simp [decimal]

theorem at_clockTime {m : Moment} (whole : m.subsecond = 0) : m.day.at m.clockTime = m := by
  obtain ⟨day, nanos, bound⟩ := m
  change nanos % nanosPerSecond = 0 at whole
  have same : nanos / nanosPerSecond * nanosPerSecond = nanos :=
    Nat.div_mul_cancel (Nat.dvd_of_mod_eq_zero whole)
  simp only [Day.at, Moment.clockTime, same]

end Calendar

/-! Scanning. -/

namespace Scan
open Calendar Number Text

theorem two_digits {n : ℕ} {cs : List Char} (spells : Spells 2 n cs) :
    ∃ a b, cs = [a, b] ∧ isDigit a = true ∧ isDigit b = true := by
  obtain ⟨a, b, rfl⟩ := List.length_eq_two.1 spells.length
  exact ⟨a, b, rfl, spells.digits a (by simp), spells.digits b (by simp)⟩

theorem four_digits {n : ℕ} {cs : List Char} (spells : Spells 4 n cs) :
    ∃ a b c d, cs = [a, b, c, d] ∧
      isDigit a = true ∧ isDigit b = true ∧ isDigit c = true ∧ isDigit d = true := by
  obtain ⟨length, digits, -⟩ := spells
  match cs, length with
  | [a, b, c, d], _ => exact ⟨a, b, c, d, rfl, by simpa using digits⟩

theorem length_of_dateText {c : Civil} {date : List Char} (text : DateText c date) :
    date.length = 10 := by
  cases text with
  | intro first second third =>
    simp only [List.length_append, List.length_cons, first.length, second.length, third.length]

theorem startsDate_text {c : Civil} {date : List Char} (text : DateText c date) {rest : List Char}
    (ends : startsWord rest = false) : startsDate (date ++ rest) = true := by
  cases text with
  | intro first second third =>
    obtain ⟨a, b, c, d, rfl, years⟩ := four_digits first
    obtain ⟨e, f, rfl, months⟩ := two_digits second
    obtain ⟨g, h, rfl, days⟩ := two_digits third
    simp only [List.cons_append, List.nil_append, startsDate, ends, List.all_cons, years, months,
      days]
    rfl

theorem startsDate_clock {t : ClockTime} {clock : List Char} (text : ClockText t clock) :
    startsDate clock = false := by
  cases text with
  | intro first second =>
    obtain ⟨a, b, rfl, -⟩ := two_digits first
    obtain ⟨c, d, rfl, -⟩ := two_digits second
    unfold startsDate
    split
    · rename_i same
      simp at same
    · rfl

theorem startsClock_text {t : ClockTime} {clock : List Char} (text : ClockText t clock) :
    startsClock clock = true ∧ readClock clock = ⟨.time, clock, 5⟩ := by
  cases text with
  | intro first second =>
    obtain ⟨a, b, rfl, hours⟩ := two_digits first
    obtain ⟨c, d, rfl, minutes⟩ := two_digits second
    have colon : isDigit ':' = false := rfl
    simp [startsClock, readClock, colonAndTwoDigits, clockField, startsMeridiem, hours, minutes,
      colon]

theorem lexemesFuel_date (fuel : ℕ) {c : Civil} {date rest : List Char} (text : DateText c date)
    (ends : startsWord rest = false) :
    lexemesFuel (fuel + 1) .opening 0 (date ++ rest) =
      ⟨⟨.date, String.ofList date, 0⟩, 10⟩ :: lexemesFuel fuel .words 10 rest := by
  have starts := startsDate_text text ends
  have length := length_of_dateText text
  obtain ⟨first, others, rfl, digit⟩ : ∃ first others, date = first :: others ∧
      isDigit first = true := by
    cases text with
    | intro year month day =>
      obtain ⟨first, others, rfl, digit⟩ := year.head (by decide)
      exact ⟨first, _, rfl, digit⟩
  have taken : (first :: (others ++ rest)).take 10 = first :: others := by
    rw [← List.cons_append, ← length, List.take_left]
  have left : (first :: (others ++ rest)).drop 10 = rest := by
    rw [← List.cons_append, ← length, List.drop_left]
  obtain ⟨visible, noComment, noColon⟩ := visible_of_starts (.inl digit) (others ++ rest)
  have reading : readPlain false first (others ++ rest) =
      (⟨.date, first :: others, 10⟩, .words) := by
    rw [readPlain_starts (by rw [digit, Bool.true_or])]
    simp only [← List.cons_append, starts, if_true]
    rw [List.cons_append, taken]
  rw [List.cons_append, lexemesFuel_unspaced fuel 0 .opening _ visible noComment rfl]
  simp only [read, noColon, if_false, reading, left, zero_add]

theorem lexemesFuel_clock (fuel position : ℕ) {t : ClockTime} {clock : List Char}
    (text : ClockText t clock) :
    lexemesFuel (fuel + 1) .words position (' ' :: clock) =
      [⟨⟨.time, String.ofList clock, position + 1⟩, 5⟩] := by
  have noDate := startsDate_clock text
  obtain ⟨starts, reads⟩ := startsClock_text text
  obtain ⟨first, others, rfl, digit, length⟩ : ∃ first others, clock = first :: others ∧
      isDigit first = true ∧ clock.length = 5 := by
    cases text with
    | intro hour minute =>
      obtain ⟨first, others, rfl, digit⟩ := hour.head (by decide)
      refine ⟨first, _, rfl, digit, ?_⟩
      rw [List.length_append, hour.length, List.length_cons, minute.length]
  obtain ⟨visible, noComment, -⟩ := visible_of_starts (.inl digit) others
  have reading : readPlain false first others = (⟨.time, first :: others, 5⟩, .words) := by
    rw [readPlain_starts (by rw [digit, Bool.true_or])]
    simp only [noDate, Bool.false_eq_true, if_false, starts, if_true, reads]
  have left : (first :: others).drop 5 = [] := List.drop_eq_nil_of_le length.le
  rw [lexemesFuel_spaced fuel position .words visible noComment]
  simp only [read, reading, left, lexemesFuel_nil]

theorem tokenize_date {c : Civil} {date : List Char} (text : DateText c date) :
    tokenize (String.ofList date) = [⟨.date, String.ofList date, 0⟩] := by
  have whole := lexemesFuel_date 9 text (show startsWord [] = false from rfl)
  rw [List.append_nil, lexemesFuel_nil] at whole
  rw [tokenize, lexemes, String.length_ofList, String.toList_ofList, length_of_dateText text, whole]
  rfl

theorem tokenize_moment {c : Civil} {t : ClockTime} {date clock : List Char}
    (first : DateText c date) (second : ClockText t clock) :
    tokenize (String.ofList (date ++ ' ' :: clock)) =
      [⟨.date, String.ofList date, 0⟩, ⟨.time, String.ofList clock, 11⟩] := by
  have length : (date ++ ' ' :: clock).length = 9 + clock.length + 1 + 1 := by
    rw [List.length_append, length_of_dateText first, List.length_cons]
    omega
  rw [tokenize, lexemes, String.length_ofList, String.toList_ofList, length,
    lexemesFuel_date _ first rfl, lexemesFuel_clock _ _ second]
  rfl

end Scan

/-! Parsing. -/

namespace Grammar
open Calendar Parse

section
variable {deeper : Deeper} {date : Token} {day : Day} {rest : List Token} {stop : ℕ}
  (kind : date.kind = .date) (read : readDay? date.text = some day)
include kind read

theorem run_day (alone : (rest.headD (.eof stop)).kind ≠ .time) :
    (term deeper).run ⟨date :: rest, stop⟩ = .ok (.date (.on day), ⟨rest, stop⟩) := by
  rw [term, run_current]
  simp only [Cursor.current, List.headD_cons, kind]
  rw [dateTerm, read]
  simp only [run_advance, run_current, Cursor.forward, Cursor.current, List.tail_cons, alone,
    if_false]
  rfl

/-- A date and the time after it. -/
theorem run_moment {time : Token} {clock : ClockTime} (timed : time.kind = .time)
    (told : readClockTime? time.text = some clock) :
    (term deeper).run ⟨date :: time :: rest, stop⟩ =
      .ok (.date (.at (day.at clock)), ⟨rest, stop⟩) := by
  have value : timeValue time = pure clock := by
    rw [timeValue, told]
  rw [term, run_current]
  simp only [Cursor.current, List.headD_cons, kind]
  rw [dateTerm, read]
  simp only [run_advance, run_current, Cursor.forward, Cursor.current, List.tail_cons,
    List.headD_cons, timed, if_true, value, pure_bind]
  rfl

end

end Grammar

open Calendar Grammar Number Scan

theorem parseLine_day (fuzzy : Bool) {d : Day} (least : 0 ≤ d.civil.year) {date : List Char}
    (text : DateText d.civil date) :
    parseLine fuzzy (String.ofList date) = .ok (.date (.on d)) := by
  have read := readDay?_text least text
  rw [ofCivil?_civil] at read
  rw [parseLine, tokenize_date text]
  refine parse_operand fuzzy (run_polarity (run_day rfl read ?_) rfl (.inr rfl)) ?_ ?_
  · exact TokenKind.noConfusion
  · simp
  · simp

theorem parseLine_moment (fuzzy : Bool) {m : Moment} (least : 0 ≤ m.day.civil.year)
    (minutes : m.clockTime.second = 0) (seconds : m.subsecond = 0) {date clock : List Char}
    (first : DateText m.day.civil date) (second : ClockText m.clockTime clock) :
    parseLine fuzzy (String.ofList (date ++ ' ' :: clock)) = .ok (.date (.at m)) := by
  have read := readDay?_text least first
  have told := readClockTime?_text minutes second
  rw [ofCivil?_civil] at read
  have tokens := tokenize_moment first second
  generalize String.ofList date = dateText at read tokens
  generalize String.ofList clock = clockText at told tokens
  rw [parseLine, tokens, ← at_clockTime seconds]
  refine parse_operand fuzzy (run_polarity (run_moment rfl read rfl told) rfl (.inr rfl)) ?_ ?_
  · simp
  · simp

theorem run_date_spec (s : Surroundings Float) (bindings : Bindings (Value Float))
    (spec : DateSpec) : s.run bindings (.date spec) = (s.date spec, .start bindings) :=
  Evaluation.runFrom_ofAnswer _ _

theorem run_date {s : Surroundings Float} {spec : DateSpec} {m : Moment}
    (named : spec.resolve? s.now = some m) (bindings : Bindings (Value Float)) :
    s.run bindings (.date spec) = (.ok (.date m), .start bindings) := by
  rw [run_date_spec, Surroundings.date, named]

/-- A date with a year of four digits and whole minutes is shown as a line that reads as this date,
    at whatever time it is evaluated. At midnight the day is shown alone. -/
theorem parseLine_show_date {m : Moment} (least : 0 ≤ m.day.civil.year)
    (most : m.day.civil.year ≤ 9999) (minutes : m.clockTime.second = 0)
    (seconds : m.subsecond = 0) (places : ℕ) (fuzzy : Bool) :
    let shown := (Value.date m : Value Float).show places
    (∃ spec, parseLine fuzzy shown = .ok (.date spec) ∧
      ∀ (s : Surroundings Float) (bindings : Bindings (Value Float)),
        s.run bindings (.date spec) = (.ok (.date m), .start bindings)) ∧
    ∃ date, DateText m.day.civil date ∧
      if m.nanos = 0 then shown = String.ofList date
      else ∃ clock, ClockText m.clockTime clock ∧ shown = String.ofList (date ++ ' ' :: clock) := by
  intro shown
  obtain ⟨date, first, form⟩ := text_of_moment least most
  refine ⟨?_, date, first, form⟩
  show ∃ spec, parseLine fuzzy m.text = .ok (.date spec) ∧ _
  split at form
  · rename_i midnight
    refine ⟨.on m.day, ?_, fun s bindings => run_date ?_ bindings⟩
    · rw [form]
      exact parseLine_day fuzzy least first
    · obtain ⟨day, nanos, bound⟩ := m
      obtain rfl : nanos = 0 := midnight
      rfl
  · obtain ⟨clock, second, form⟩ := form
    refine ⟨.at m, ?_, fun s bindings => run_date rfl bindings⟩
    rw [form]
    exact parseLine_moment fuzzy least minutes seconds first second

theorem parseLine_show_leap_day :
    let m : Moment := ⟨⟨19782, by decide, by decide⟩, 86340000000000, by decide⟩
    (0 ≤ m.day.civil.year ∧ m.day.civil.year ≤ 9999 ∧ m.clockTime.second = 0 ∧ m.subsecond = 0) ∧
      m.text = "2024-02-29 23:59" ∧
      ∃ spec, parseLine false m.text = .ok (.date spec) ∧
        ∀ (s : Surroundings Float) (bindings : Bindings (Value Float)),
          s.run bindings (.date spec) = (.ok (.date m), .start bindings) := by
  intro m
  obtain ⟨least, most, minutes, seconds⟩ : 0 ≤ m.day.civil.year ∧ m.day.civil.year ≤ 9999 ∧
      m.clockTime.second = 0 ∧ m.subsecond = 0 := by
    decide
  refine ⟨⟨least, most, minutes, seconds⟩, by decide +kernel, ?_⟩
  exact (parseLine_show_date least most minutes seconds 2 false).1

end NotepadCalculator
