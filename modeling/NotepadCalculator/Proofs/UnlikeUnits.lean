import NotepadCalculator.Proofs.UnitArithmetic

/-!
Amounts in units of different measure. They are never added, subtracted or converted. What is said
about it depends on how the two are written: they are called incompatible where both are plain
names or both are rates, by name or as a ratio; but where only one of them is written as a ratio and
the other is no rate, it is the other that is called malformed.
-/
namespace NotepadCalculator
open Measurement Number

namespace Measurement.UnitSystem
variable {α : Type} [Amount α] {u : UnitSystem α} {source target : String}

/-- One is written as a ratio, and the other is a unit that is no rate. -/
def Mixed (u : UnitSystem α) (ratio plain : String) : Prop :=
  isRatioName ratio = true ∧ ∃ d, u.Measures plain (.plain d)

theorem ratio_of_written {spec : String} (written : isRatioName spec = true) {m : Signature}
    (known : u.Measures spec m) : ∃ n d, m = .ratio n d := by
  obtain ⟨r, _, rfl⟩ := (measures_written written).1 known
  exact ⟨_, _, rfl⟩

theorem ratio_of_unmixed {ratio other : String} (written : isRatioName ratio = true)
    (unmixed : ¬u.Mixed ratio other) {m : Signature} (known : u.Measures other m) :
    ∃ n d, m = .ratio n d := by
  cases m with
  | plain d => exact absurd ⟨written, d, known⟩ unmixed
  | ratio n d => exact ⟨n, d, rfl⟩

theorem rate_of_plain {spec : String} {d : Dimension} (plain : u.Measures spec (.plain d)) :
    u.rate spec = .error (.malformed spec .notRate) := by
  have whole : isRatioName spec = false := by
    rw [Bool.eq_false_iff]
    intro written
    obtain ⟨_, _, same⟩ := ratio_of_written written plain
    cases same
  obtain ⟨unit, found, same⟩ := (measures_whole whole).1 plain
  have noRate : unit.dimension.rate? = none := by
    cases pair : unit.dimension.rate? with
    | none => rfl
    | some p => simp [Signature.normalized, pair] at same
  simp only [UnitSystem.rate, whole, Bool.false_eq_true, if_false, found, bind, Except.bind, noRate]
  rfl

theorem convert_mixed_source (mixed : u.Mixed target source) (value : α) :
    u.convert value source target = .error (.malformed source .notRate) := by
  obtain ⟨written, d, plain⟩ := mixed
  rw [convert_written (by rw [written, Bool.or_true]), convertRate, rate_of_plain plain]
  rfl

theorem convert_mixed_target {m : Signature} (known : u.Measures source m)
    (mixed : u.Mixed source target) (value : α) :
    u.convert value source target = .error (.malformed target .notRate) := by
  obtain ⟨written, d, plain⟩ := mixed
  obtain ⟨n, d, rfl⟩ := ratio_of_written written known
  obtain ⟨src, read, _⟩ := rate_iff_measures.2 known
  rw [convert_written (by rw [written, Bool.true_or]), convertRate, read, rate_of_plain plain]
  rfl

theorem convert_unmixed {m n : Signature} (first : u.Measures source m)
    (second : u.Measures target n) (differ : m ≠ n) (left : ¬u.Mixed source target)
    (right : ¬u.Mixed target source) (value : α) :
    u.convert value source target = .error (.incompatible source target) := by
  cases written : isRatioName source || isRatioName target with
  | true =>
    -- Whichever is written as a ratio, the other is a rate as well.
    have rates : (∃ n d, m = .ratio n d) ∧ ∃ n' d', n = .ratio n' d' := by
      rcases Bool.or_eq_true_iff.1 written with here | there
      · exact ⟨ratio_of_written here first, ratio_of_unmixed here left second⟩
      · exact ⟨ratio_of_unmixed there right first, ratio_of_written there second⟩
    obtain ⟨⟨_, _, rfl⟩, _, _, rfl⟩ := rates
    obtain ⟨src, read, pair⟩ := rate_iff_measures.2 first
    obtain ⟨dst, again, other⟩ := rate_iff_measures.2 second
    have apart : src.pair ≠ dst.pair := by
      rw [pair, other]
      simpa using differ
    rw [convert_written written, convertRate, read, again]
    simp only [bind, Except.bind, if_pos apart]
    rfl
  | false =>
    obtain ⟨here, there⟩ := Bool.or_eq_false_iff.1 written
    obtain ⟨src, found, rfl⟩ := (measures_whole here).1 first
    obtain ⟨dst, again, rfl⟩ := (measures_whole there).1 second
    have apart : src.dimension ≠ dst.dimension := by
      intro same
      exact differ (by rw [same])
    simp only [convert, written, Bool.false_eq_true, if_false, found, again, bind, Except.bind,
      if_pos apart]
    rfl

end Measurement.UnitSystem

namespace Tables
variable {α : Type} [Amount α] {t : Tables α}

/-- A sum and a difference with that right side, and its conversion to the unit of the left side,
    all fail with this error. -/
structure Refuses (t : Tables α) (a : α) (u : String) (b : α) (v : String) (e : EvalError) :
    Prop where
  sum : t.binary .add (.unit a u) (.unit b v) = .error e
  difference : t.binary .subtract (.unit a u) (.unit b v) = .error e
  conversion : t.convert (.unit b v) u = .error e

theorem refuses_of_convert {u v : String} {b : α} {fault : UnitFault}
    (failed : t.units.convert b v u = .error fault) (a : α) :
    t.Refuses a u b v (.ofUnitFault fault) where
  sum := by
    rw [binary_units, unitUnit, failed]
    rfl
  difference := by
    rw [binary_units, unitUnit, failed]
    rfl
  conversion := by
    rw [convert, failed]
    rfl

/-- Units that are known and measure different things are never added, subtracted or converted.
    The error calls them incompatible, unless one is written as a ratio and the other is no rate:
    then it says of the other that it is no ratio unit. -/
theorem refuses_unlike {u v : String} {m n : Signature} (left : t.units.Measures u m)
    (right : t.units.Measures v n) (differ : m ≠ n) (a b : α) :
    (t.units.Mixed u v → t.Refuses a u b v (.invalidOperation (.unit (.malformed v .notRate)))) ∧
      (t.units.Mixed v u → t.Refuses a u b v (.invalidOperation (.unit (.malformed u .notRate)))) ∧
      (¬t.units.Mixed u v → ¬t.units.Mixed v u →
        t.Refuses a u b v (.incompatibleUnits (.pair v u))) := by
  refine ⟨?_, ?_, ?_⟩
  · intro mixed
    exact refuses_of_convert (UnitSystem.convert_mixed_source mixed b) a
  · intro mixed
    exact refuses_of_convert (UnitSystem.convert_mixed_target right mixed b) a
  · intro here there
    exact refuses_of_convert (UnitSystem.convert_unmixed right left differ.symm there here b) a

theorem refuses_unlike_length :
    let t : Tables Float := ⟨.standard, .standard⟩
    (t.units.Measures "km" (.plain .length) ∧ t.units.Measures "kg" (.plain .mass) ∧
      t.units.Measures "kph" (.ratio .length .time) ∧
      t.units.Measures "mi/h" (.ratio .length .time)) ∧
    t.Refuses 5 "km" 3 "kg" (.incompatibleUnits (.pair "kg" "km")) ∧
    t.Refuses 5 "km" 3 "kph" (.incompatibleUnits (.pair "kph" "km")) ∧
    t.Refuses 5 "km" 3 "mi/h" (.invalidOperation (.unit (.malformed "km" .notRate))) ∧
    t.Refuses 3 "mi/h" 5 "km" (.invalidOperation (.unit (.malformed "km" .notRate))) := by
  intro t
  obtain ⟨km, kg, kph, mi⟩ :
      t.units.signature "km" = .ok (.plain .length) ∧
        t.units.signature "kg" = .ok (.plain .mass) ∧
          t.units.signature "kph" = .ok (.plain .speed) ∧
            t.units.signature "mi/h" = .ok (.ratio .length .time) := by
    decide +kernel
  have length : t.units.Measures "km" (.plain .length) := ⟨_, km, rfl⟩
  have mass : t.units.Measures "kg" (.plain .mass) := ⟨_, kg, rfl⟩
  have speed : t.units.Measures "kph" (.ratio .length .time) := ⟨_, kph, rfl⟩
  have written : t.units.Measures "mi/h" (.ratio .length .time) := ⟨_, mi, rfl⟩
  have whole {ratio plain : String} (single : isRatioName ratio = false) :
      ¬t.units.Mixed ratio plain := by
    rintro ⟨written, -⟩
    rw [single] at written
    contradiction
  refine ⟨⟨length, mass, speed, written⟩, ?_, ?_, ?_, ?_⟩
  · exact (refuses_unlike length mass (by decide) 5 3).2.2 (whole (by decide)) (whole (by decide))
  · exact (refuses_unlike length speed (by decide) 5 3).2.2 (whole (by decide)) (whole (by decide))
  · exact (refuses_unlike length written (by decide) 5 3).2.1 ⟨by decide, _, length⟩
  · exact (refuses_unlike written length (by decide) 3 5).1 ⟨by decide, _, length⟩

/-- A speed that is written as a ratio is not called incompatible with a length. -/
theorem sum_of_length_and_speed :
    let t : Tables Float := ⟨.standard, .standard⟩
    t.units.Reached ∧ t.units.signature "km" = .ok (.plain .length) ∧
      t.units.signature "km/h" = .ok (.ratio .length .time) ∧
      t.binary .add (.unit 5 "km") (.unit 3 "km/h") =
        .error (.invalidOperation (.unit (.malformed "km" .notRate))) := by
  refine ⟨.standard, ?_⟩
  decide +kernel

end Tables

end NotepadCalculator
