import Mathlib.Tactic.FieldSimp
import Mathlib.Tactic.Positivity
import Mathlib.Tactic.Ring
import NotepadCalculator.Proofs.ExactAmounts
import NotepadCalculator.Proofs.UnitConversion

/-!
Conversion of exact amounts. Every written unit has a gauge, by which an amount in it goes over to
base units and back without loss: units of a catalogue or added to it have a positive size, and
rates have no offset. Whatever way a conversion takes, it is the same as one through base units, so
it does not matter which units lie in between.
-/
namespace NotepadCalculator.Measurement
open Number

namespace Conversion

theorem fromBase_toBase {c : Conversion ℚ} (positive : 0 < c.factor) (value : ℚ) :
    c.fromBase (c.toBase value) = value := by
  cases c with
  | linear factor =>
    have nonzero : factor ≠ 0 := positive.ne'
    change value * factor / factor = value
    field_simp
  | affine scale offset =>
    have nonzero : scale ≠ 0 := positive.ne'
    change (value + offset) * scale / scale - offset = value
    field_simp
    ring

theorem toBase_fromBase {c : Conversion ℚ} (positive : 0 < c.factor) (base : ℚ) :
    c.toBase (c.fromBase base) = base := by
  cases c with
  | linear factor =>
    have nonzero : factor ≠ 0 := positive.ne'
    change base / factor * factor = base
    field_simp
  | affine scale offset =>
    have nonzero : scale ≠ 0 := positive.ne'
    change (base / scale - offset + offset) * scale = base
    field_simp
    ring

theorem linear_of_isAffine {α : Type} {c : Conversion α} (linear : c.isAffine = false) :
    c = .linear c.factor := by
  cases c with
  | linear factor => rfl
  | affine scale offset => contradiction

end Conversion

structure Definition.Sized (unit : Definition ℚ) : Prop where
  positive : 0 < unit.conversion.factor
  linear : unit.dimension.rate?.isSome = true → unit.conversion.isAffine = false

theorem catalogue_sized : ∀ unit ∈ (catalogue : Registry ℚ).definitions, unit.Sized := by
  have each : ∀ unit ∈ (catalogue : Registry ℚ).definitions, 0 < unit.conversion.factor ∧
      (unit.dimension.rate?.isSome = true → unit.conversion.isAffine = false) := by
    decide +kernel
  exact fun unit member => ⟨(each unit member).1, (each unit member).2⟩

namespace UnitSystem

/-- How amounts in a written unit and in base units go over into one another. -/
def gauge {α : Type} [Amount α] (u : UnitSystem α) (spec : String) :
    Except UnitFault (Conversion α) :=
  if isRatioName spec then return .linear (← u.ratio spec).factor
  else return (← u.resolve spec).conversion

theorem gauge_of_ratio {α : Type} [Amount α] {u : UnitSystem α} {spec : String}
    (written : isRatioName spec = true) {r : Ratio α} (read : u.ratio spec = .ok r) :
    u.gauge spec = .ok (.linear r.factor) := by
  simp only [gauge, written, if_true, read]
  rfl

theorem gauge_of_resolve {α : Type} [Amount α] {u : UnitSystem α} {name : String}
    (whole : isRatioName name = false) {unit : Definition α} (found : u.resolve name = .ok unit) :
    u.gauge name = .ok unit.conversion := by
  simp only [gauge, whole, Bool.false_eq_true, if_false, found]
  rfl

section
variable {u : UnitSystem ℚ} (reached : u.Reached)
include reached

theorem sized_of_resolve {name : String} {unit : Definition ℚ} (found : u.resolve name = .ok unit) :
    unit.Sized := by
  refine resolve_induction catalogue_sized ?_ reached found
  intro source sized _ name scale proper
  exact ⟨mul_pos (Amount.isPositive_iff.1 proper.2) sized.positive, fun _ => rfl⟩

theorem gauge_of_measures {spec : String} {m : Signature} (measures : u.Measures spec m) :
    ∃ c, u.gauge spec = .ok c ∧ 0 < c.factor := by
  cases written : isRatioName spec with
  | true =>
    obtain ⟨r, read, _⟩ := (measures_written written).1 measures
    obtain ⟨_, _, first, second⟩ := ratio_eq_ok.1 read
    have upper := sized_of_resolve reached (resolveSide_eq_ok.1 first).1
    have lower := sized_of_resolve reached (resolveSide_eq_ok.1 second).1
    exact ⟨_, gauge_of_ratio written read, div_pos upper.positive lower.positive⟩
  | false =>
    obtain ⟨unit, found, _⟩ := (measures_whole written).1 measures
    exact ⟨_, gauge_of_resolve written found, (sized_of_resolve reached found).positive⟩

/-- Rates are counted in multiples of the base rate. -/
theorem gauge_of_rate {spec : String} {rate : Rate ℚ} (read : u.rate spec = .ok rate) :
    u.gauge spec = .ok (.linear rate.factor) := by
  cases written : isRatioName spec with
  | true =>
    obtain ⟨r, found, rfl⟩ := (rate_written written).1 read
    exact gauge_of_ratio written found
  | false =>
    obtain ⟨unit, found, pair, factor⟩ := (rate_whole written).1 read
    have linear := (sized_of_resolve reached found).linear (by simp [pair])
    rw [gauge_of_resolve written found, Conversion.linear_of_isAffine linear, factor]

/-- Every conversion is one through base units. -/
theorem convert_eq_gauge {source target : String} {m : Signature} (first : u.Measures source m)
    (second : u.Measures target m) {c d : Conversion ℚ} (from_ : u.gauge source = .ok c)
    (to_ : u.gauge target = .ok d) (value : ℚ) :
    u.convert value source target = .ok (d.fromBase (c.toBase value)) := by
  obtain ⟨result, converted⟩ : ∃ result, u.convert value source target = .ok result :=
    convert_iff_alike.2 ⟨m, first, second⟩
  rw [converted]
  cases written : isRatioName source || isRatioName target with
  | true =>
    rw [convert_written written] at converted
    obtain ⟨src, dst, read, again, _, rfl⟩ := convertRate_eq_ok.1 converted
    obtain rfl := Except.ok.inj (from_.symm.trans (gauge_of_rate reached read))
    obtain rfl := Except.ok.inj (to_.symm.trans (gauge_of_rate reached again))
    rfl
  | false =>
    obtain ⟨left, right⟩ := Bool.or_eq_false_iff.1 written
    obtain ⟨src, dst, found, again, _, rfl⟩ := (convert_whole_eq_ok written).1 converted
    obtain rfl := Except.ok.inj (from_.symm.trans (gauge_of_resolve left found))
    obtain rfl := Except.ok.inj (to_.symm.trans (gauge_of_resolve right again))
    split
    · rename_i same
      have named := named_of_reached reached
      have own := (holds_of_find? named (resolve_iff.1 found)).own
      rw [same, (holds_of_find? named (resolve_iff.1 again)).own] at own
      obtain rfl := Option.some.inj own
      rw [Conversion.fromBase_toBase (sized_of_resolve reached found).positive]
    · rfl

end

/-- Among units that measure the same, converting exact amounts in two steps is converting them in
    one, and converting there and back changes nothing. -/
theorem convert_path_independent {u : UnitSystem ℚ} (reached : u.Reached) {a b c : String}
    {m : Signature} (first : u.Measures a m) (second : u.Measures b m) (third : u.Measures c m)
    (v : ℚ) :
    ∃ w x, u.convert v a b = .ok w ∧ u.convert w b c = .ok x ∧ u.convert v a c = .ok x ∧
      u.convert w b a = .ok v := by
  obtain ⟨f, gaugeA, positiveA⟩ := gauge_of_measures reached first
  obtain ⟨g, gaugeB, positiveB⟩ := gauge_of_measures reached second
  obtain ⟨h, gaugeC, _⟩ := gauge_of_measures reached third
  refine ⟨g.fromBase (f.toBase v), h.fromBase (f.toBase v), ?_, ?_, ?_, ?_⟩
  · exact convert_eq_gauge reached first second gaugeA gaugeB v
  · rw [convert_eq_gauge reached second third gaugeB gaugeC, Conversion.toBase_fromBase positiveB]
  · exact convert_eq_gauge reached first third gaugeA gaugeC v
  · rw [convert_eq_gauge reached second first gaugeB gaugeA, Conversion.toBase_fromBase positiveB,
      Conversion.fromBase_toBase positiveA]

def warped : UnitSystem ℚ := ⟨Registry.empty.insert ["warp"] .speed (.linear (3 * 1))⟩

theorem convert_by_way_of_warp :
    warped.Reached ∧ warped.Measures "kph" (.ratio .length .time) ∧
      warped.Measures "warp" (.ratio .length .time) ∧
      warped.Measures "km/day" (.ratio .length .time) ∧
      ∃ w x, warped.convert 9 "kph" "warp" = .ok w ∧ warped.convert w "warp" "km/day" = .ok x ∧
        warped.convert 9 "kph" "km/day" = .ok x ∧ warped.convert w "warp" "kph" = .ok 9 := by
  -- In one evaluation, since each has to go through the catalogue before it comes to the warp.
  obtain ⟨defined, speed, warp, ratio⟩ :
      UnitSystem.standard.define "warp" 3 "mps" = .ok warped ∧
        warped.signature "kph" = .ok (.plain .speed) ∧
          warped.signature "warp" = .ok (.plain .speed) ∧
            warped.signature "km/day" = .ok (.ratio .length .time) := by
    decide +kernel
  have reached : warped.Reached := .define .standard defined
  have named : warped.Measures "kph" (.ratio .length .time) := ⟨_, speed, rfl⟩
  have added : warped.Measures "warp" (.ratio .length .time) := ⟨_, warp, rfl⟩
  have written : warped.Measures "km/day" (.ratio .length .time) := ⟨_, ratio, rfl⟩
  exact ⟨reached, named, added, written,
    convert_path_independent reached named added written 9⟩

end UnitSystem

end NotepadCalculator.Measurement
