import NotepadCalculator.Evaluation.Arithmetic
import NotepadCalculator.Proofs.WholeDoubles

/-!
Moments that are moved by a number of seconds. The seconds become whole milliseconds, and the moment
moves by exactly these, or not at all where they are no 64-bit count or lead out of the calendar.
-/
namespace NotepadCalculator
open Calendar Number

namespace Calendar

def Covered (instant : ℚ) : Prop :=
  (-96465292 * nanosPerDay : ℤ) ≤ instant ∧ instant < (95026237 * nanosPerDay : ℤ)

theorem covered_intCast {n : ℤ} :
    Covered n ↔ -96465292 ≤ n / nanosPerDay ∧ n / nanosPerDay ≤ 95026236 := by
  rw [Covered, Int.cast_le, Int.cast_lt]
  unfold nanosPerDay
  omega

theorem ofInstant?_eq_some_iff {n : ℤ} {m : Moment} :
    Moment.ofInstant? n = some m ↔ m.instant = n := by
  unfold Moment.ofInstant? Day.ofNumber?
  constructor
  · split
    · intro found
      obtain rfl := Option.some.inj found
      show n / nanosPerDay * nanosPerDay + ((n % nanosPerDay).toNat : ℤ) = n
      unfold nanosPerDay
      omega
    · intro found
      contradiction
  · rintro rfl
    obtain ⟨⟨day, first, last⟩, nanos, bound⟩ := m
    have whole : (day * nanosPerDay + nanos) / nanosPerDay = day := by
      unfold nanosPerDay at bound ⊢
      omega
    have rest : ((day * nanosPerDay + nanos) % nanosPerDay).toNat = nanos := by
      unfold nanosPerDay at bound ⊢
      omega
    simp only [Moment.instant, whole, rest, first, last, and_self, dite_true, Option.map_some]

theorem exists_instant {n : ℤ} : (∃ m : Moment, m.instant = n) ↔ Covered n := by
  simp only [← ofInstant?_eq_some_iff, covered_intCast]
  unfold Moment.ofInstant? Day.ofNumber?
  split
  · rename_i inside
    exact iff_of_true ⟨_, rfl⟩ inside
  · rename_i outside
    refine iff_of_false ?_ outside
    rintro ⟨m, found⟩
    contradiction

def roundedMillis (seconds : Float) : Float := Amount.integral .nearest (seconds * thousand)

def Countable (millis : Float) : Prop := millis.isFinite = true ∧ |value millis| < 2 ^ 63

theorem millis?_eq_some_iff {seconds : Float} {m : ℤ} :
    millis? seconds = some m ↔
      Countable (roundedMillis seconds) ∧ value (roundedMillis seconds) = m := by
  have bound : m.natAbs ≤ signedLimit ↔ |(m : ℚ)| < 2 ^ 63 := by
    have same : |(m : ℚ)| < 2 ^ 63 ↔ |m| < 2 ^ 63 := by exact_mod_cast Iff.rfl
    rw [same, Int.abs_eq_natAbs]
    unfold signedLimit
    omega
  unfold millis?
  rw [Option.filter_eq_some_iff, whole?_eq_some_iff, decide_eq_true_iff, bound]
  constructor
  · rintro ⟨⟨finite, whole⟩, small⟩
    exact ⟨⟨finite, whole ▸ small⟩, whole⟩
  · rintro ⟨⟨finite, small⟩, whole⟩
    exact ⟨⟨finite, whole⟩, whole ▸ small⟩

theorem exists_roundedMillis (seconds : Float) : ∃ m : ℤ, value (roundedMillis seconds) = m := by
  unfold roundedMillis
  rw [value_nearest]
  refine ⟨SignType.sign (value (seconds * thousand)) * ⌊|value (seconds * thousand)| + 1 / 2⌋, ?_⟩
  push_cast
  rfl

/-- Moving by seconds does not fail. -/
structure Shiftable (moment : Moment) (seconds : Float) : Prop where
  countable : Countable (roundedMillis seconds)
  covered : Covered (moment.instant + value (roundedMillis seconds) * nanosPerMilli)

theorem shift?_eq_some_iff {moment later : Moment} {seconds : Float} :
    moment.shift? seconds = some later ↔ Countable (roundedMillis seconds) ∧
      ∃ m : ℤ, value (roundedMillis seconds) = m ∧
        later.instant = moment.instant + m * nanosPerMilli := by
  unfold Moment.shift? Moment.plusMillis?
  simp only [Option.bind_eq_some_iff, millis?_eq_some_iff, ofInstant?_eq_some_iff, and_assoc,
    exists_and_left]

theorem exists_shift {moment : Moment} {seconds : Float} :
    (∃ later, moment.shift? seconds = some later) ↔ Shiftable moment seconds := by
  obtain ⟨m, whole⟩ := exists_roundedMillis seconds
  have target : (moment.instant + value (roundedMillis seconds) * nanosPerMilli : ℚ) =
      ((moment.instant + m * nanosPerMilli : ℤ) : ℚ) := by
    rw [whole]
    push_cast
    rfl
  constructor
  · rintro ⟨later, found⟩
    obtain ⟨countable, n, same, instant⟩ := shift?_eq_some_iff.1 found
    obtain rfl : m = n := by exact_mod_cast whole.symm.trans same
    constructor
    · exact countable
    · rw [target]
      exact exists_instant.1 ⟨later, instant⟩
  · rintro ⟨countable, covered⟩
    rw [target] at covered
    obtain ⟨later, instant⟩ := exists_instant.2 covered
    exact ⟨later, shift?_eq_some_iff.2 ⟨countable, m, whole, instant⟩⟩

theorem exists_int64 {m : ℤ} (small : |(m : ℚ)| < 2 ^ 63) : ∃ count : Int64, count.toInt = m := by
  have small : |m| < 2 ^ 63 := by exact_mod_cast small
  rw [abs_lt] at small
  exact ⟨Int64.ofInt m, Int64.toInt_ofInt_of_le (by omega) (by omega)⟩

end Calendar

namespace Tables

theorem moved_eq_ok_iff {moment later : Moment} {seconds : Float} :
    moved moment seconds = .ok (.date later) ↔ moment.shift? seconds = some later := by
  unfold moved
  cases moment.shift? seconds with
  | none => simp only [reduceCtorEq]
  | some found => simp only [Except.ok.injEq, Value.date.injEq, Option.some_inj]

theorem moved_eq_error_iff {moment : Moment} {seconds : Float} :
    moved moment seconds = .error (.invalidOperation .dateRange) ↔
      ¬ ∃ later, moment.shift? seconds = some later := by
  unfold moved
  cases moment.shift? seconds with
  | none => simp
  | some found => simp

/-- A date moves by exactly the whole milliseconds that are nearest to the seconds, or it is refused.
    It moves just when these are a 64-bit count and lead to an instant of the calendar, and what lies
    beyond whole milliseconds is kept then. -/
theorem moved_exact_or_refused (moment : Moment) (seconds : Float) :
    (∀ later, moved moment seconds = .ok (.date later) ↔ Countable (roundedMillis seconds) ∧
      ∃ count : Int64, value (roundedMillis seconds) = count.toInt ∧
        later.instant = moment.instant + count.toInt * nanosPerMilli ∧
        later.instant % nanosPerMilli = moment.instant % nanosPerMilli) ∧
    ((∃ later, moved moment seconds = .ok (.date later)) ↔ Shiftable moment seconds) ∧
    (moved moment seconds = .error (.invalidOperation .dateRange) ↔ ¬ Shiftable moment seconds) ∧
    (roundedMillis seconds).isFinite = (seconds * thousand).isFinite ∧
    value (roundedMillis seconds) = SignType.sign (value (seconds * thousand)) *
      ⌊|value (seconds * thousand)| + 1 / 2⌋ := by
  refine ⟨?_, ?_, ?_, isFinite_nearest _, value_nearest _⟩
  · intro later
    rw [moved_eq_ok_iff, shift?_eq_some_iff]
    constructor
    · rintro ⟨countable, m, whole, instant⟩
      obtain ⟨count, rfl⟩ := exists_int64 (whole ▸ countable.2)
      refine ⟨countable, count, whole, instant, ?_⟩
      rw [instant, Int.add_mul_emod_self_right]
    · rintro ⟨countable, count, whole, instant, -⟩
      exact ⟨countable, count.toInt, whole, instant⟩
  · simp only [moved_eq_ok_iff, exists_shift]
  · rw [moved_eq_error_iff, exists_shift]

end Tables

end NotepadCalculator
