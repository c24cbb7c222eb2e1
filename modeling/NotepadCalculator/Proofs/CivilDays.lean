import Mathlib.Logic.Function.Iterate
import Mathlib.Tactic.IntervalCases
import Mathlib.Tactic.Ring
import NotepadCalculator.Calendar.Day

/-!
Days and their numbers. Each number is that of exactly one valid date, and one more is that of the
date after it. Between numbers and dates stand years that begin in March: the leap day is the last
one of such a year, so that neither the months nor the years before it depend on it.
-/
namespace NotepadCalculator.Calendar

theorem isLeap_iff {year : Int} :
    isLeap year = true ↔ year % 4 = 0 ∧ (year % 100 ≠ 0 ∨ year % 400 = 0) := by
  simp [isLeap]

/-! Eras of 400 years. -/

/-- The centuries, the spans of four years, the years and the days that have passed of an era. A
    year has more than 365 days only at the end of four years, and four years have a leap day unless
    they end a century that is not the last one. -/
structure EraParts (e c q k d : Int) : Prop where
  centuries : 0 ≤ c ∧ c ≤ 3
  spans : 0 ≤ q ∧ q ≤ 24
  years : 0 ≤ k ∧ k ≤ 3
  days : 0 ≤ d ∧ d ≤ 365
  leap : d = 365 → k = 3 ∧ (q < 24 ∨ c = 3)
  sum : e = 36524 * c + 1461 * q + 365 * k + d

theorem exists_eraParts {e : Int} (least : 0 ≤ e) (most : e < 146097) :
    ∃ c q k d, EraParts e c q k d := by
  obtain ⟨c, r, centuries, century, sum⟩ : ∃ c r : Int, (0 ≤ c ∧ c ≤ 3) ∧
      (0 ≤ r ∧ r ≤ 36524 ∧ (r = 36524 → c = 3)) ∧ e = 36524 * c + r :=
    ⟨min (e / 36524) 3, e - 36524 * min (e / 36524) 3, by omega, by omega, by omega⟩
  obtain ⟨k, d, years, days, rest⟩ : ∃ k d : Int, (0 ≤ k ∧ k ≤ 3) ∧
      (0 ≤ d ∧ d ≤ 365 ∧ (d = 365 → k = 3)) ∧ r % 1461 = 365 * k + d :=
    ⟨min (r % 1461 / 365) 3, r % 1461 - 365 * min (r % 1461 / 365) 3, by omega, by omega,
      by omega⟩
  exact ⟨c, r / 1461, k, d, centuries, by omega, years, by omega, by omega, by omega⟩

theorem centuries_eq {e c r : Int} (centuries : 0 ≤ c ∧ c ≤ 3) (least : 0 ≤ r) (most : r ≤ 36524)
    (leap : r = 36524 → c = 3) (sum : e = 36524 * c + r) : e / 36524 - e / 146096 = c := by
  omega

theorem yearOfEra_eq {e c q k d : Int} (parts : EraParts e c q k d) :
    (e - e / 1460 + e / 36524 - e / 146096) / 365 = 100 * c + 4 * q + k := by
  obtain ⟨centuries, spans, years, days, leap, sum⟩ := parts
  -- The leap days so far are taken out, up to the last one if this is in the present span.
  have leapDays : e / 1460 = 25 * c + q + if 24 * c + q + 365 * k + d < 1460 then 0 else 1 := by
    split <;> omega
  have century : 1461 * q + 365 * k + d ≤ 36524 := by omega
  have whole : 1461 * q + 365 * k + d = 36524 → c = 3 := by omega
  have regained : e / 36524 - e / 146096 = c :=
    centuries_eq centuries (by omega) century whole (by omega)
  split at leapDays <;> omega

theorem dayOfYear_eq {e c q k d : Int} (parts : EraParts e c q k d) :
    let y := 100 * c + 4 * q + k
    e - (365 * y + y / 4 - y / 100) = d := by
  obtain ⟨centuries, spans, years, days, leap, sum⟩ := parts
  omega

/-! Years that begin in March. -/

def marchStart (year : Int) : Int :=
  year / 400 * 146097 + (year % 400 * 365 + year % 400 / 4 - year % 400 / 100) - 719468

structure MarchDay (year day : Int) : Prop where
  least : 0 ≤ day
  most : day ≤ 365
  leap : day = 365 → isLeap (year + 1) = true

/-- How many days of such a year are before a month, if March is month 0. -/
def monthStart (month : Int) : Int := (153 * month + 2) / 5

def marchMonth (month : Nat) : Int := if month ≤ 2 then month + 9 else month - 3

def Civil.ofMarch (year day : Int) : Civil :=
  let month := (5 * day + 2) / 153
  ⟨if month < 10 then year else year + 1, (if month < 10 then month + 3 else month - 9).toNat,
    (day - monthStart month + 1).toNat⟩

def Civil.marchYear (c : Civil) : Int := if c.month ≤ 2 then c.year - 1 else c.year

def Civil.marchDay (c : Civil) : Int := monthStart (marchMonth c.month) + c.day - 1

theorem dayNumber_eq (c : Civil) : c.dayNumber = marchStart c.marchYear + c.marchDay := by
  unfold Civil.dayNumber marchStart Civil.marchYear Civil.marchDay monthStart marchMonth
  ring

theorem marchStart_succ (year : Int) :
    marchStart (year + 1) = marchStart year + if isLeap (year + 1) then 366 else 365 := by
  unfold marchStart
  split
  · rename_i leap
    rw [isLeap_iff] at leap
    omega
  · rename_i common
    rw [isLeap_iff] at common
    omega

/-- So many years of an era and so many days more. -/
theorem marchStart_eq {era e c q k d : Int} (parts : EraParts e c q k d) :
    marchStart (400 * era + (100 * c + 4 * q + k)) + d = 146097 * era + e - 719468 := by
  obtain ⟨centuries, spans, years, days, leap, sum⟩ := parts
  generalize whole : 100 * c + 4 * q + k = y
  have eras : (400 * era + y) / 400 = era := by omega
  have rest : (400 * era + y) % 400 = y := by omega
  have fourths : y / 4 = 25 * c + q := by omega
  have hundredths : y / 100 = c := by omega
  rw [marchStart, eras, rest, fourths, hundredths]
  omega

theorem exists_march (n : Int) : ∃ year day, MarchDay year day ∧ n = marchStart year + day := by
  obtain ⟨era, e, least, most, sum⟩ : ∃ era e : Int, 0 ≤ e ∧ e < 146097 ∧
      n + 719468 = 146097 * era + e :=
    ⟨(n + 719468) / 146097, (n + 719468) % 146097, by omega, by omega, by omega⟩
  obtain ⟨c, q, k, d, parts⟩ := exists_eraParts least most
  have start : marchStart (400 * era + (100 * c + 4 * q + k)) + d = 146097 * era + e - 719468 :=
    marchStart_eq parts
  obtain ⟨centuries, spans, years, days, leap, -⟩ := parts
  refine ⟨400 * era + (100 * c + 4 * q + k), d, ⟨days.1, days.2, ?_⟩, by omega⟩
  intro last
  rw [isLeap_iff]
  omega

theorem exists_parts_of_march {year day : Int} (march : MarchDay year day) :
    ∃ era e c q k, EraParts e c q k day ∧ year = 400 * era + (100 * c + 4 * q + k) ∧
      0 ≤ e ∧ e < 146097 := by
  obtain ⟨least, most, leap⟩ := march
  rw [isLeap_iff] at leap
  have parts : EraParts (36524 * (year % 400 / 100) + 1461 * (year % 100 / 4) + 365 * (year % 4) +
      day) (year % 400 / 100) (year % 100 / 4) (year % 4) day := by
    constructor <;> omega
  refine ⟨year / 400, _, _, _, _, parts, by omega, ?_⟩
  obtain ⟨centuries, spans, years, days, -, -⟩ := parts
  constructor <;> omega

theorem ofDayNumber_march {year day : Int} (march : MarchDay year day) :
    Civil.ofDayNumber (marchStart year + day) = Civil.ofMarch year day := by
  obtain ⟨era, e, c, q, k, parts, rfl, least, most⟩ := exists_parts_of_march march
  have shifted : 146097 * era + e - 719468 + 719468 = 146097 * era + e := by omega
  have dayOfEra : (146097 * era + e) % 146097 = e := by omega
  have eras : (146097 * era + e) / 146097 = era := by omega
  have dayOfYear := dayOfYear_eq parts
  have year : 100 * c + 4 * q + k + era * 400 = 400 * era + (100 * c + 4 * q + k) := by omega
  rw [marchStart_eq parts]
  unfold Civil.ofDayNumber Civil.ofMarch monthStart
  simp only [shifted, dayOfEra, eras, yearOfEra_eq parts, dayOfYear, year]

/-! Months. -/

theorem month_eq_iff {day m : Int} :
    (5 * day + 2) / 153 = m ↔ monthStart m ≤ day ∧ day < monthStart (m + 1) := by
  unfold monthStart
  omega

theorem monthLength_eq {month : Nat} (least : 1 ≤ month) (most : month ≤ 12) (year : Int) :
    (monthLength year month : Int) =
      if month = 2 then (if isLeap year then 29 else 28)
      else monthStart (marchMonth month + 1) - monthStart (marchMonth month) := by
  interval_cases month
  case «2» => exact Nat.cast_ite _ _ _
  all_goals rfl

theorem ofMarch_eq {month : Nat} (least : 1 ≤ month) (most : month ≤ 12) (year : Int) {day : Nat}
    (first : 1 ≤ day)
    (last : monthStart (marchMonth month) + day ≤ monthStart (marchMonth month + 1)) :
    Civil.ofMarch year (monthStart (marchMonth month) + day - 1) =
      ⟨if month ≤ 2 then year + 1 else year, month, day⟩ := by
  have known : (5 * (monthStart (marchMonth month) + day - 1) + 2) / 153 = marchMonth month :=
    month_eq_iff.2 ⟨by omega, by omega⟩
  unfold Civil.ofMarch
  simp only [known]
  congr 1
  · unfold marchMonth
    split <;> split <;> omega
  · unfold marchMonth
    split <;> split <;> omega
  · omega

theorem exists_month {year day : Int} (march : MarchDay year day) : ∃ month d : Nat,
    1 ≤ month ∧ month ≤ 12 ∧ 1 ≤ d ∧
      monthStart (marchMonth month) + d ≤ monthStart (marchMonth month + 1) ∧
      day = monthStart (marchMonth month) + d - 1 := by
  obtain ⟨least, most, -⟩ := march
  obtain ⟨m, known⟩ : ∃ m, (5 * day + 2) / 153 = m := ⟨_, rfl⟩
  obtain ⟨starts, ends⟩ := month_eq_iff.1 known
  have march : marchMonth (if m < 10 then m + 3 else m - 9).toNat = m := by
    unfold marchMonth
    split <;> split <;> omega
  refine ⟨(if m < 10 then m + 3 else m - 9).toNat, (day - monthStart m + 1).toNat, ?_⟩
  rw [march]
  split <;> omega

theorem valid_ofMarch {year day : Int} (march : MarchDay year day) :
    (Civil.ofMarch year day).Valid := by
  obtain ⟨month, d, least, most, first, last, rfl⟩ := exists_month march
  obtain ⟨-, short, leap⟩ := march
  rw [ofMarch_eq least most year first last]
  have length := monthLength_eq least most (if month ≤ 2 then year + 1 else year)
  refine ⟨least, most, first, ?_⟩
  show d ≤ monthLength (if month ≤ 2 then year + 1 else year) month
  by_cases february : month = 2
  · subst february
    have start : monthStart (marchMonth 2) = 337 := rfl
    by_cases leapYear : isLeap (year + 1) = true
    · simp only [if_true, le_refl, leapYear] at length ⊢
      omega
    · have common : monthStart (marchMonth 2) + d - 1 ≠ 365 := fun whole => leapYear (leap whole)
      simp only [if_true, le_refl, leapYear, if_false, Bool.false_eq_true] at length ⊢
      omega
  · rw [if_neg february] at length
    omega

theorem dayNumber_ofMarch {year day : Int} (march : MarchDay year day) :
    (Civil.ofMarch year day).dayNumber = marchStart year + day := by
  obtain ⟨month, d, least, most, first, last, rfl⟩ := exists_month march
  rw [dayNumber_eq, ofMarch_eq least most year first last]
  unfold Civil.marchYear Civil.marchDay
  have same : (if month ≤ 2 then (if month ≤ 2 then year + 1 else year) - 1
      else if month ≤ 2 then year + 1 else year) = year := by
    split <;> omega
  simp only [same]

theorem within_month {c : Civil} (valid : c.Valid) :
    monthStart (marchMonth c.month) + c.day ≤ monthStart (marchMonth c.month + 1) := by
  obtain ⟨least, most, first, last⟩ := valid
  have length := monthLength_eq least most c.year
  split at length
  · rename_i february
    have start : monthStart (marchMonth 2) = 337 ∧ monthStart (marchMonth 2 + 1) = 367 := ⟨rfl, rfl⟩
    rw [february] at last length ⊢
    split at length <;> omega
  · omega

theorem marchDay_of_valid {c : Civil} (valid : c.Valid) : MarchDay c.marchYear c.marchDay := by
  obtain ⟨least, most, first, last⟩ := valid
  have length := monthLength_eq least most c.year
  unfold Civil.marchYear Civil.marchDay
  by_cases february : c.month = 2
  · have start : monthStart (marchMonth 2) = 337 := rfl
    rw [february, if_pos rfl] at length
    rw [february] at last ⊢
    constructor
    · omega
    · split at length <;> omega
    · intro leapDay
      rw [if_pos (le_refl 2), sub_add_cancel]
      by_contra common
      rw [if_neg common] at length
      omega
  · rw [if_neg february] at length
    have starts : 0 ≤ monthStart (marchMonth c.month) := by
      unfold marchMonth monthStart
      split <;> omega
    have ends : monthStart (marchMonth c.month + 1) ≤ 337 := by
      unfold monthStart marchMonth
      split <;> omega
    constructor <;> omega

theorem ofMarch_of_valid {c : Civil} (valid : c.Valid) :
    Civil.ofMarch c.marchYear c.marchDay = c := by
  have last := within_month valid
  obtain ⟨least, most, first, -⟩ := valid
  have year : (if c.month ≤ 2 then c.marchYear + 1 else c.marchYear) = c.year := by
    unfold Civil.marchYear
    split <;> omega
  rw [Civil.marchDay, ofMarch_eq least most _ first last, year]

/-! Dates. -/

theorem valid_ofDayNumber (n : Int) : (Civil.ofDayNumber n).Valid := by
  obtain ⟨year, day, march, rfl⟩ := exists_march n
  rw [ofDayNumber_march march]
  exact valid_ofMarch march

theorem dayNumber_ofDayNumber (n : Int) : (Civil.ofDayNumber n).dayNumber = n := by
  obtain ⟨year, day, march, rfl⟩ := exists_march n
  rw [ofDayNumber_march march, dayNumber_ofMarch march]

theorem ofDayNumber_dayNumber {c : Civil} (valid : c.Valid) :
    Civil.ofDayNumber c.dayNumber = c := by
  rw [dayNumber_eq, ofDayNumber_march (marchDay_of_valid valid), ofMarch_of_valid valid]

theorem ofCivil?_civil (d : Day) : Day.ofCivil? d.civil = some d := by
  unfold Day.ofCivil? Day.ofNumber? Day.civil
  rw [if_pos (valid_ofDayNumber d.number), dayNumber_ofDayNumber, dif_pos ⟨d.first, d.last⟩]

def Civil.next (c : Civil) : Civil :=
  if c.day < monthLength c.year c.month then ⟨c.year, c.month, c.day + 1⟩
  else if c.month < 12 then ⟨c.year, c.month + 1, 1⟩
  else ⟨c.year + 1, 1, 1⟩

theorem valid_next {c : Civil} (valid : c.Valid) : c.next.Valid := by
  obtain ⟨least, most, first, last⟩ := valid
  have longest (year : Int) (month : Nat) : 1 ≤ monthLength year month := by
    unfold monthLength
    split
    · split <;> decide
    all_goals decide
  unfold Civil.next
  split
  · rename_i inside
    exact ⟨least, most, Nat.le_add_left 1 _, inside⟩
  split
  · rename_i earlier
    exact ⟨Nat.le_add_left 1 _, earlier, le_refl 1, longest _ _⟩
  · exact ⟨le_refl 1, Nat.le_add_left 1 11, le_refl 1, longest _ _⟩

/-- The numbers go on from month to month, and from one March to the next. -/
theorem dayNumber_next {c : Civil} (valid : c.Valid) : c.next.dayNumber = c.dayNumber + 1 := by
  obtain ⟨year, month, day⟩ := c
  obtain ⟨least, most, first, last⟩ := valid
  simp only at least most first last
  have length := monthLength_eq least most year
  unfold Civil.next
  simp only [dayNumber_eq, Civil.marchYear, Civil.marchDay]
  split
  · push_cast
    ring
  split
  · by_cases february : month = 2
    · subst february
      have starts : monthStart (marchMonth 2) = 337 ∧ monthStart (marchMonth 3) = 0 := ⟨rfl, rfl⟩
      have turn := marchStart_succ (year - 1)
      rw [sub_add_cancel] at turn
      rw [if_pos rfl] at length
      show marchStart year + (monthStart (marchMonth 3) + 1 - 1) =
        marchStart (year - 1) + (monthStart (marchMonth 2) + day - 1) + 1
      split at length
      · rename_i leap
        rw [if_pos leap] at turn
        omega
      · rename_i common
        rw [if_neg common] at turn
        omega
    · have following : marchMonth (month + 1) = marchMonth month + 1 := by
        unfold marchMonth
        split <;> split <;> omega
      have same : (month + 1 ≤ 2) = (month ≤ 2) := by
        rw [eq_iff_iff]
        omega
      rw [if_neg february] at length
      simp only [following, same]
      omega
  · obtain rfl : month = 12 := by omega
    have starts : monthStart (marchMonth 12) = 275 ∧ monthStart (marchMonth 1) = 306 := ⟨rfl, rfl⟩
    have whole : monthLength year 12 = 31 := rfl
    show marchStart (year + 1 - 1) + (monthStart (marchMonth 1) + 1 - 1) =
      marchStart year + (monthStart (marchMonth 12) + day - 1) + 1
    rw [add_sub_cancel_right]
    omega

theorem civil_succ (n : Int) : Civil.ofDayNumber (n + 1) = (Civil.ofDayNumber n).next := by
  have valid := valid_ofDayNumber n
  rw [← ofDayNumber_dayNumber (valid_next valid), dayNumber_next valid, dayNumber_ofDayNumber]

theorem civil_add (n : Int) (days : Nat) :
    Civil.ofDayNumber (n + days) = Civil.next^[days] (Civil.ofDayNumber n) := by
  induction days with
  | zero => rw [Nat.cast_zero, add_zero, Function.iterate_zero_apply]
  | succ days ih => rw [Nat.cast_succ, ← add_assoc, civil_succ, ih, Function.iterate_succ_apply']

end NotepadCalculator.Calendar
