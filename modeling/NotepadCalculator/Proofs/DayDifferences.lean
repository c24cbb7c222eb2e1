import NotepadCalculator.Proofs.CivilDays
import NotepadCalculator.Proofs.ShiftedMoments
import NotepadCalculator.Proofs.UnitConversion

/-!
Days between dates. The number of days passes through milliseconds, seconds and back, and each of
these steps is exact as far as the calendar reaches.
-/
namespace NotepadCalculator
open Calendar Measurement Number

namespace Number

theorem stands_amount_ofNat {n : ℕ} (narrow : n < 2 ^ 53) :
    Stands .positive n (Amount.ofNat n : Float) := by
  show Stands .positive n (Float.ofScientific n true 0)
  unfold Float.ofScientific
  rw [dif_pos ⟨narrow, by omega⟩, if_pos rfl]
  have quotient := (stands_toFloat narrow).div stands_one one_pos
  rw [div_one] at quotient
  exact quotient (fits_natCast narrow)

end Number

namespace Measurement.UnitSystem

def day : Definition Float := ⟨"day", .time, .linear (Amount.ofNat 86400)⟩
def second : Definition Float := ⟨"s", .time, .linear (Amount.ofNat 1)⟩

theorem resolve_day (u : UnitSystem Float) :
    u.resolve "day" = .ok day ∧ u.resolve "s" = .ok second := by
  have known : (catalogue : Registry Float).lookup? (Text.trim "day") = some day ∧
      (catalogue : Registry Float).lookup? (Text.trim "s") = some second := by
    decide +kernel
  rw [resolve_iff, resolve_iff, find?, find?, known.1, known.2]
  exact ⟨rfl, rfl⟩

theorem convert_day (u : UnitSystem Float) (amount : Float) :
    u.convert amount "day" "s" = .ok (amount * Amount.ofNat 86400 / Amount.ofNat 1) :=
  (convert_whole_eq_ok (by decide)).2
    ⟨day, second, u.resolve_day.1, u.resolve_day.2, rfl, if_neg (by decide)⟩

end Measurement.UnitSystem

namespace Calendar

def Day.until (earlier later : Day) : ℤ := later.number - earlier.number

theorem until_le (earlier later : Day) : (earlier.until later).natAbs ≤ 191491528 := by
  have := earlier.first
  have := earlier.last
  have := later.first
  have := later.last
  unfold Day.until
  omega

theorem millis_of_midnights (earlier later : Day) :
    (later.midnight.instant - earlier.midnight.instant).tdiv nanosPerMilli =
      earlier.until later * (86400000 : ℕ) := by
  have nanos : later.midnight.instant - earlier.midnight.instant =
      earlier.until later * (86400000 : ℕ) * nanosPerMilli := by
    show later.number * nanosPerDay + (0 : ℕ) - (earlier.number * nanosPerDay + (0 : ℕ)) =
      (later.number - earlier.number) * (86400000 : ℕ) * nanosPerMilli
    unfold nanosPerDay nanosPerMilli
    omega
  rw [nanos]
  exact Int.mul_tdiv_cancel _ (by decide)

theorem fits_millis {n : ℕ} (most : n ≤ 191491528) : Fits (n * (86400000 : ℕ)) := by
  refine ⟨n * 84375, 10, ?_, by omega, by omega, by omega⟩
  push_cast
  ring

theorem stands_secondsBetween (earlier later : Day) :
    Stands (signOf (earlier.until later < 0)) ((earlier.until later).natAbs * (86400 : ℕ))
      (secondsBetween later.midnight earlier.midnight) := by
  show Stands _ _ (Float.ofInt ((later.midnight.instant - earlier.midnight.instant).tdiv
    nanosPerMilli) / thousand)
  have most := until_le earlier later
  rw [millis_of_midnights]
  generalize earlier.until later = days at most ⊢
  have millis := stands_ofInt_mul days (show 0 < 86400000 by decide) (fits_millis most)
  have quotient : (days.natAbs * (86400000 : ℕ) / (1000 : ℕ) : ℚ) = days.natAbs * (86400 : ℕ) := by
    push_cast
    ring
  rw [← quotient]
  apply millis.div (stands_amount_ofNat (by decide)) (by norm_num)
  rw [quotient]
  exact_mod_cast fits_natCast (n := days.natAbs * 86400) (by omega)

theorem day_of_seconds {days : ℤ} (most : days.natAbs ≤ 191491528) {seconds : Float}
    (stands : Stands (signOf (days < 0)) (days.natAbs * (86400 : ℕ)) seconds) :
    Amount.isZero (Amount.remainder seconds (Amount.ofNat 86400)) = true ∧
      seconds / Amount.ofNat 86400 = Float.ofInt days := by
  have day := stands_amount_ofNat (show 86400 < 2 ^ 53 by decide)
  have some : (0 : ℚ) < (86400 : ℕ) := by norm_num
  have whole := fits_natCast (show days.natAbs < 2 ^ 53 by omega)
  constructor
  · exact stands.isZero_remainder day some
  · have quotient := stands.div day some
    rw [mul_div_cancel_right₀ _ some.ne'] at quotient
    exact (quotient whole).unique (stands_ofInt whole)

theorem stands_day_seconds {days : ℤ} (most : days.natAbs ≤ 191491528) :
    Stands (signOf (days < 0)) (days.natAbs * (86400 : ℕ))
      (Float.ofInt days * Amount.ofNat 86400 / Amount.ofNat 1) := by
  have days' := stands_ofInt (fits_natCast (show days.natAbs < 2 ^ 53 by omega))
  have fits : Fits (days.natAbs * (86400 : ℕ)) := by
    exact_mod_cast fits_natCast (n := days.natAbs * 86400) (by omega)
  have product := days'.mul (stands_amount_ofNat (by decide)) (by norm_num) fits
  have quotient := product.div (stands_amount_ofNat (show 1 < 2 ^ 53 by decide)) (by norm_num)
  rw [Nat.cast_one, div_one] at quotient
  exact quotient fits

theorem stands_roundedMillis {days : ℤ} (most : days.natAbs ≤ 191491528) {seconds : Float}
    (stands : Stands (signOf (days < 0)) (days.natAbs * (86400 : ℕ)) seconds) :
    Stands (signOf (days < 0)) (days.natAbs * (86400000 : ℕ)) (roundedMillis seconds) := by
  have millis : (days.natAbs * (86400 : ℕ) * (1000 : ℕ) : ℚ) = (days.natAbs * 86400000 : ℕ) := by
    push_cast
    ring
  have fits := fits_millis most
  rw [← Nat.cast_mul] at fits ⊢
  have product := stands.mul (stands_amount_ofNat (show 1000 < 2 ^ 53 by decide)) (by norm_num)
  rw [millis] at product
  have nearest := (product fits).nearest
  rwa [floor_natCast_add_half] at nearest

/-- Moving by the seconds of a number of days is moving by these days. -/
theorem shift?_eq_plusDays? (m : Moment) {days : ℤ} (most : days.natAbs ≤ 191491528)
    {seconds : Float} (stands : Stands (signOf (days < 0)) (days.natAbs * (86400 : ℕ)) seconds) :
    m.shift? seconds = m.plusDays? days := by
  have millis := stands_roundedMillis most stands
  have whole : value (roundedMillis seconds) = (days * (86400000 : ℕ) : ℤ) := by
    rw [value_of_stands millis, directed_signOf_mul]
    push_cast
    rfl
  have countable : Countable (roundedMillis seconds) := by
    have small : |days * (86400000 : ℕ)| < 2 ^ 63 := by
      rw [Int.abs_eq_natAbs]
      omega
    refine ⟨millis.finite, ?_⟩
    rw [whole]
    exact_mod_cast small
  have target : m.instant + days * (86400000 : ℕ) * nanosPerMilli =
      m.instant + days * nanosPerDay := by
    unfold nanosPerMilli nanosPerDay
    omega
  apply Option.ext
  intro later
  rw [shift?_eq_some_iff, Moment.plusDays?, ofInstant?_eq_some_iff, ← target]
  constructor
  · rintro ⟨-, n, same, instant⟩
    obtain rfl : days * (86400000 : ℕ) = n := by exact_mod_cast whole.symm.trans same
    exact instant
  · intro instant
    exact ⟨countable, _, whole, instant⟩

theorem shift?_midnight (earlier later : Day) {seconds : Float}
    (stands : Stands (signOf (earlier.until later < 0))
      ((earlier.until later).natAbs * (86400 : ℕ)) seconds) :
    earlier.midnight.shift? seconds = some later.midnight := by
  rw [shift?_eq_plusDays? _ (until_le earlier later) stands, Moment.plusDays?,
    ofInstant?_eq_some_iff]
  show later.number * nanosPerDay + (0 : ℕ) = earlier.number * nanosPerDay + (0 : ℕ) +
    (later.number - earlier.number) * nanosPerDay
  unfold nanosPerDay
  omega

/-- Two days are so many days apart if the calendar leads from one to the other by as many steps. -/
theorem until_eq_iff {earlier later : Day} {days : ℤ} : earlier.until later = days ↔
    Civil.next^[days.toNat] earlier.civil = Civil.next^[(-days).toNat] later.civil := by
  have injective := Function.LeftInverse.injective dayNumber_ofDayNumber
  unfold Day.civil Day.until
  rw [← civil_add, ← civil_add, injective.eq_iff]
  omega

theorem next_until (earlier later : Day) :
    Civil.next^[(earlier.until later).toNat] earlier.civil =
      Civil.next^[(-earlier.until later).toNat] later.civil :=
  until_eq_iff.1 rfl

end Calendar

namespace Tables

/-- The difference of two days is their number of days as the calendar counts them, and added to the
    earlier day it leads to the later one. -/
theorem binary_days_exact (t : Tables Float) (earlier later : Day) :
    t.binary .subtract (.date later.midnight) (.date earlier.midnight) =
      .ok (.unit (Float.ofInt (earlier.until later)) "day") ∧
    t.binary .add (.date earlier.midnight) (.unit (Float.ofInt (earlier.until later)) "day") =
      .ok (.date later.midnight) ∧
    value (Float.ofInt (earlier.until later)) = earlier.until later ∧
    Civil.next^[(earlier.until later).toNat] earlier.civil =
      Civil.next^[(-earlier.until later).toNat] later.civil := by
  have most := until_le earlier later
  refine ⟨?_, ?_, value_ofInt (fits_natCast (by omega)), next_until earlier later⟩
  · obtain ⟨none, days⟩ := day_of_seconds most (stands_secondsBetween earlier later)
    show Except.ok (dateDifference later.midnight earlier.midnight) = _
    unfold dateDifference
    rw [if_pos none, days]
  · have found := shift?_midnight earlier later (stands_day_seconds most)
    show (t.seconds (Float.ofInt (earlier.until later)) "day").bind
      (moved earlier.midnight) = _
    unfold Tables.seconds
    rw [UnitSystem.convert_day]
    exact moved_eq_ok_iff.2 found

end Tables

end NotepadCalculator
