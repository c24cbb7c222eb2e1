import NotepadCalculator.Proofs.KnownUnits

/-!
When amounts can be converted. What two written units measure decides it, whether they are plain
names, names of rates or ratios: amounts go from one to the other exactly if both are known and
measure the same, where a speed or a data rate is the ratio it stands for.
-/
namespace NotepadCalculator.Measurement
open Number

namespace Signature

theorem normalized_plain_inj {d e : Dimension} :
    (plain d).normalized = (plain e).normalized ↔ d = e := by
  constructor
  · intro same
    cases d <;> cases e <;> first | rfl | cases same
  · intro same
    rw [same]

theorem normalized_plain_eq_ratio {d n m : Dimension} :
    (plain d).normalized = .ratio n m ↔ d.rate? = some (n, m) := by
  cases rate : d.rate? with
  | none => simp [normalized, rate]
  | some pair => simp [normalized, rate, Prod.ext_iff]

end Signature

namespace UnitSystem
variable {α : Type} [Amount α] {u : UnitSystem α}

/-- The written unit is known and measures that. A rate measures the ratio it stands for. -/
def Measures (u : UnitSystem α) (spec : String) (m : Signature) : Prop :=
  ∃ signature, u.signature spec = .ok signature ∧ signature.normalized = m

theorem measures_unique {spec : String} {m n : Signature} (first : u.Measures spec m)
    (second : u.Measures spec n) : m = n := by
  obtain ⟨s, found, rfl⟩ := first
  obtain ⟨t, again, rfl⟩ := second
  rw [Except.ok.inj (found.symm.trans again)]

theorem measures_written {spec : String} (written : isRatioName spec = true) {m : Signature} :
    u.Measures spec m ↔ ∃ r, u.ratio spec = .ok r ∧ r.signature = m := by
  simp only [Measures, signature, written, if_true, bind_eq_ok, pure_eq_ok]
  constructor
  · rintro ⟨_, ⟨r, read, rfl⟩, same⟩
    exact ⟨r, read, same⟩
  · rintro ⟨r, read, same⟩
    exact ⟨r.signature, ⟨r, read, rfl⟩, same⟩

theorem measures_whole {spec : String} (whole : isRatioName spec = false) {m : Signature} :
    u.Measures spec m ↔
      ∃ unit, u.resolve spec = .ok unit ∧ (Signature.plain unit.dimension).normalized = m := by
  simp only [Measures, signature, whole, Bool.false_eq_true, if_false, bind_eq_ok, pure_eq_ok]
  constructor
  · rintro ⟨_, ⟨unit, found, rfl⟩, same⟩
    exact ⟨unit, found, same⟩
  · rintro ⟨unit, found, same⟩
    exact ⟨.plain unit.dimension, ⟨unit, found, rfl⟩, same⟩

def Alike (u : UnitSystem α) (first second : String) : Prop :=
  ∃ m, u.Measures first m ∧ u.Measures second m

theorem alike_symm {first second : String} (alike : u.Alike first second) :
    u.Alike second first := by
  obtain ⟨m, here, there⟩ := alike
  exact ⟨m, there, here⟩

theorem alike_trans {first second third : String} (alike : u.Alike first second)
    (onward : u.Alike second third) : u.Alike first third := by
  obtain ⟨m, here, there⟩ := alike
  obtain ⟨n, between, last⟩ := onward
  rw [measures_unique there between] at here
  exact ⟨n, here, last⟩

theorem isUnit_iff_measures {spec : String} : u.isUnit spec = true ↔ ∃ m, u.Measures spec m := by
  cases written : isRatioName spec with
  | true =>
    simp only [isUnit, written, if_true, measures_written written]
    cases read : u.ratio spec with
    | error fault => simp [Except.toOption]
    | ok r => simp [Except.toOption]
  | false =>
    simp only [isUnit, written, Bool.false_eq_true, if_false, measures_whole written, resolve_iff]
    cases found : u.find? (Text.trim spec) with
    | none => simp
    | some unit => simp

theorem isUnit_iff_alike {spec : String} : u.isUnit spec = true ↔ u.Alike spec spec := by
  simp only [isUnit_iff_measures, Alike, and_self]

/-! Rates. -/

theorem rate_written {spec : String} (written : isRatioName spec = true) {rate : Rate α} :
    u.rate spec = .ok rate ↔ ∃ r, u.ratio spec = .ok r ∧
      ⟨(r.numerator.dimension, r.denominator.dimension), r.factor⟩ = rate := by
  simp only [UnitSystem.rate, written, if_true, bind_eq_ok, pure_eq_ok]

theorem rate_whole {spec : String} (whole : isRatioName spec = false) {rate : Rate α} :
    u.rate spec = .ok rate ↔ ∃ unit, u.resolve spec = .ok unit ∧
      unit.dimension.rate? = some rate.pair ∧ unit.conversion.factor = rate.factor := by
  simp only [UnitSystem.rate, whole, Bool.false_eq_true, if_false, bind_eq_ok]
  constructor
  · rintro ⟨unit, found, read⟩
    cases pair : unit.dimension.rate? with
    | none => simp [pair] at read
    | some p =>
      simp only [pair] at read
      obtain rfl := pure_eq_ok.1 read
      exact ⟨unit, found, pair, rfl⟩
  · rintro ⟨unit, found, pair, factor⟩
    refine ⟨unit, found, ?_⟩
    simp only [pair, factor]
    rfl

/-- What is read as a rate is what measures a ratio. -/
theorem rate_iff_measures {spec : String} {n d : Dimension} :
    (∃ rate, u.rate spec = .ok rate ∧ rate.pair = (n, d)) ↔ u.Measures spec (.ratio n d) := by
  cases written : isRatioName spec with
  | true =>
    simp only [rate_written written, measures_written written]
    constructor
    · rintro ⟨_, ⟨r, read, rfl⟩, same⟩
      obtain ⟨rfl, rfl⟩ := Prod.mk.inj same
      exact ⟨r, read, rfl⟩
    · rintro ⟨r, read, same⟩
      obtain ⟨rfl, rfl⟩ := Signature.ratio.inj same
      exact ⟨_, ⟨r, read, rfl⟩, rfl⟩
  | false =>
    simp only [rate_whole written, measures_whole written, Signature.normalized_plain_eq_ratio]
    constructor
    · rintro ⟨rate, ⟨unit, found, pair, _⟩, same⟩
      exact ⟨unit, found, same ▸ pair⟩
    · rintro ⟨unit, found, pair⟩
      exact ⟨⟨(n, d), unit.conversion.factor⟩, ⟨unit, found, pair, rfl⟩, rfl⟩

/-! Conversion. -/

theorem convertRate_eq_ok {value result : α} {source target : String} :
    u.convertRate value source target = .ok result ↔
      ∃ src dst, u.rate source = .ok src ∧ u.rate target = .ok dst ∧ src.pair = dst.pair ∧
        value * src.factor / dst.factor = result := by
  simp only [convertRate, bind_eq_ok, guarded_eq_ok]
  constructor
  · rintro ⟨src, read, dst, again, same, gives⟩
    exact ⟨src, dst, read, again, not_not.1 same, Except.ok.inj gives⟩
  · rintro ⟨src, dst, read, again, same, gives⟩
    exact ⟨src, read, dst, again, not_not.2 same, congrArg Except.ok gives⟩

theorem convert_written {value : α} {source target : String}
    (written : (isRatioName source || isRatioName target) = true) :
    u.convert value source target = u.convertRate value source target := by
  simp [convert, written]

theorem convert_whole_eq_ok {value result : α} {source target : String}
    (whole : (isRatioName source || isRatioName target) = false) :
    u.convert value source target = .ok result ↔
      ∃ src dst, u.resolve source = .ok src ∧ u.resolve target = .ok dst ∧
        src.dimension = dst.dimension ∧
        (if src.name = dst.name then value
          else dst.conversion.fromBase (src.conversion.toBase value)) = result := by
  simp only [convert, whole, Bool.false_eq_true, if_false, bind_eq_ok, guarded_eq_ok]
  constructor
  · rintro ⟨src, found, dst, again, same, gives⟩
    refine ⟨src, dst, found, again, not_not.1 same, ?_⟩
    split at gives
    · rename_i named
      rw [if_pos named]
      exact pure_eq_ok.1 gives
    · rename_i named
      rw [if_neg named]
      exact pure_eq_ok.1 gives
  · rintro ⟨src, dst, found, again, same, rfl⟩
    refine ⟨src, found, dst, again, not_not.2 same, ?_⟩
    split
    · rfl
    · rfl

/-- Amounts go from one written unit to another if both measure the same, and only then. -/
theorem convert_iff_alike {value : α} {source target : String} :
    (∃ result, u.convert value source target = .ok result) ↔ u.Alike source target := by
  cases written : isRatioName source || isRatioName target with
  | true =>
    simp only [convert_written written, convertRate_eq_ok]
    constructor
    · rintro ⟨_, src, dst, read, again, same, _⟩
      exact ⟨.ratio src.pair.1 src.pair.2, rate_iff_measures.1 ⟨src, read, rfl⟩,
        rate_iff_measures.1 ⟨dst, again, same.symm⟩⟩
    · rintro ⟨m, first, second⟩
      -- One of the two is written as a ratio, so it is a ratio that both measure.
      obtain ⟨n, d, rfl⟩ : ∃ n d, m = .ratio n d := by
        rcases Bool.or_eq_true_iff.1 written with left | right
        · obtain ⟨r, _, rfl⟩ := (measures_written left).1 first
          exact ⟨_, _, rfl⟩
        · obtain ⟨r, _, rfl⟩ := (measures_written right).1 second
          exact ⟨_, _, rfl⟩
      obtain ⟨src, read, pair⟩ := rate_iff_measures.2 first
      obtain ⟨dst, again, other⟩ := rate_iff_measures.2 second
      exact ⟨_, src, dst, read, again, pair.trans other.symm, rfl⟩
  | false =>
    obtain ⟨left, right⟩ := Bool.or_eq_false_iff.1 written
    simp only [convert_whole_eq_ok written, Alike, measures_whole left, measures_whole right]
    constructor
    · rintro ⟨_, src, dst, found, again, same, _⟩
      exact ⟨_, ⟨src, found, rfl⟩, ⟨dst, again, by rw [same]⟩⟩
    · rintro ⟨m, ⟨src, found, measured⟩, ⟨dst, again, same⟩⟩
      have equal := Signature.normalized_plain_inj.1 (measured.trans same.symm)
      exact ⟨_, src, dst, found, again, equal, rfl⟩

def Convertible (u : UnitSystem α) (source target : String) : Prop :=
  ∀ value, ∃ result, u.convert value source target = .ok result

theorem convertible_iff_alike {source target : String} :
    u.Convertible source target ↔ u.Alike source target := by
  constructor
  · intro convertible
    exact convert_iff_alike.1 (convertible Amount.zero)
  · intro alike value
    exact convert_iff_alike.2 alike

theorem convertible_equivalence (u : UnitSystem α) :
    Equivalence fun source target : {spec // u.isUnit spec = true} =>
      u.Convertible source target where
  refl := by
    rintro ⟨spec, unit⟩
    exact convertible_iff_alike.2 (isUnit_iff_alike.1 unit)
  symm := by
    intro first second
    simp only [convertible_iff_alike]
    exact alike_symm
  trans := by
    intro first second third
    simp only [convertible_iff_alike]
    exact alike_trans

/-- In any unit system, conversion succeeds exactly if both units are known and measure the same,
    whatever the amount is. So convertibility is an equivalence on the known units, however they
    are written, and a text converts into itself exactly if it is one of them. -/
theorem convert_succeeds_iff (u : UnitSystem α) :
    (∀ value source target, (∃ result, u.convert value source target = .ok result) ↔
      ∃ s t, u.signature source = .ok s ∧ u.signature target = .ok t ∧
        s.normalized = t.normalized) ∧
      (∀ value source target, (∃ result, u.convert value source target = .ok result) ↔
        u.Convertible source target) ∧
      (Equivalence fun source target : {spec // u.isUnit spec = true} =>
        u.Convertible source target) ∧
      ∀ value spec, (∃ result, u.convert value spec spec = .ok result) ↔
        u.isUnit spec = true := by
  refine ⟨?_, ?_, convertible_equivalence u, ?_⟩
  · intro value source target
    rw [convert_iff_alike]
    constructor
    · rintro ⟨m, ⟨s, found, rfl⟩, ⟨t, again, same⟩⟩
      exact ⟨s, t, found, again, same.symm⟩
    · rintro ⟨s, t, found, again, same⟩
      exact ⟨s.normalized, ⟨s, found, rfl⟩, ⟨t, again, same.symm⟩⟩
  · intro value source target
    rw [convert_iff_alike, convertible_iff_alike]
  · intro value spec
    rw [convert_iff_alike, isUnit_iff_alike]

end UnitSystem

end NotepadCalculator.Measurement
