import NotepadCalculator.Proofs.AddedUnits
import NotepadCalculator.Proofs.DoubleOrders

/-!
The factors of units that have been added, each so many times a unit before it. Scales are checked
and their products are not: a chain of units may leave the range of doubles. Once it has left it,
it does not come back, and a chain whose scales are not too large and not too small stays inside.
-/
namespace NotepadCalculator.Measurement
open Number

theorem isFinite_and_isPositive_iff {x : Float} :
    Amount.isFinite x = true ∧ Amount.isPositive x = true ↔ Usable x := by
  have zero : (Amount.zero : Float) = 0 := by decide +kernel
  show x.isFinite = true ∧ decide (Amount.zero < x) = true ↔ x.isFinite = true ∧ 0 < x
  rw [zero, decide_eq_true_iff]

def scaled (origin : Float) (scales : List Float) : Float := scales.foldr (· * ·) origin

/-- How many orders of magnitude the scales can lead away from where they begin. Each product is
    rounded, hence the two orders more. -/
def reach (scales : List Float) : Nat := (scales.map fun scale => (order scale).natAbs + 2).sum

theorem nonNegative_scaled {origin : Float} (usable : Usable origin) {scales : List Float}
    (proper : ∀ scale ∈ scales, Usable scale) : NonNegative (scaled origin scales) := by
  induction scales with
  | nil => exact nonNegative_of_usable usable
  | cons scale rest ih =>
    rw [List.forall_mem_cons] at proper
    exact nonNegative_mul proper.1 (ih proper.2)

theorem usable_scaled_iff {origin : Float} (usable : Usable origin) {scales : List Float}
    (proper : ∀ scale ∈ scales, Usable scale) :
    Usable (scaled origin scales) ↔ ∀ rest, rest <:+ scales → Usable (scaled origin rest) := by
  constructor
  · intro whole
    induction scales with
    | nil =>
      intro rest later
      rw [List.suffix_nil.1 later]
      exact whole
    | cons scale scales ih =>
      rw [List.forall_mem_cons] at proper
      have before := usable_of_usable_mul proper.1 (nonNegative_scaled usable proper.2) whole
      intro rest later
      rcases List.suffix_cons_iff.1 later with rfl | earlier
      · exact whole
      · exact ih proper.2 before rest earlier
  · intro each
    exact each scales (List.suffix_refl scales)

theorem catalogue_factors : ∀ definition ∈ (catalogue : Registry Float).definitions,
    Usable definition.conversion.factor ∧ -30 ≤ order definition.conversion.factor ∧
      order definition.conversion.factor ≤ 50 := by
  decide +kernel

theorem usable_scaled {origin : Float} (usable : Usable origin) (least : -30 ≤ order origin)
    (most : order origin ≤ 50) {scales : List Float} (proper : ∀ scale ∈ scales, Usable scale)
    (near : reach scales ≤ 973) :
    Usable (scaled origin scales) ∧ -30 - (reach scales : Int) ≤ order (scaled origin scales) ∧
      order (scaled origin scales) ≤ 50 + reach scales := by
  induction scales with
  | nil => exact ⟨usable, by simpa [reach, scaled] using least, by simpa [reach, scaled] using most⟩
  | cons scale rest ih =>
    rw [List.forall_mem_cons] at proper
    have farther : reach (scale :: rest) = (order scale).natAbs + 2 + reach rest := by
      simp [reach]
    obtain ⟨before, least, most⟩ := ih proper.2 (by omega)
    have product := usable_mul proper.1 before (by omega) (by omega)
    have whole : scaled origin (scale :: rest) = scale * scaled origin rest := rfl
    rw [whole]
    refine ⟨product.1, ?_, ?_⟩ <;> omega

namespace UnitSystem

/-- A unit that is built on one of the catalogue by these scales. -/
structure BuiltBy (unit : Definition Float) (origin : Definition Float) (scales : List Float) :
    Prop where
  known : origin ∈ (catalogue : Registry Float).definitions
  proper : ∀ scale ∈ scales, Usable scale
  dimension : unit.dimension = origin.dimension
  factor : unit.conversion.factor = scaled origin.conversion.factor scales

theorem builtBy_added {source origin : Definition Float} {scales : List Float}
    (built : BuiltBy source origin scales) (name : String) {scale : Float} (proper : Usable scale) :
    BuiltBy ⟨name, source.dimension, .linear (scale * source.conversion.factor)⟩ origin
      (scale :: scales) where
  known := built.known
  proper := List.forall_mem_cons.2 ⟨proper, built.proper⟩
  dimension := built.dimension
  factor := congrArg (scale * ·) built.factor

theorem builtBy_of_resolve {u : UnitSystem Float} (reached : u.Reached) {name : String}
    {unit : Definition Float} (resolved : u.resolve name = .ok unit) :
    ∃ origin scales, BuiltBy unit origin scales := by
  apply resolve_induction (P := fun unit => ∃ origin scales, BuiltBy unit origin scales) ?_ ?_
    reached resolved
  · intro unit listed
    exact ⟨unit, [], listed, by simp, rfl, rfl⟩
  · intro source built _ name scale proper
    obtain ⟨origin, scales, built⟩ := built
    exact ⟨origin, _, builtBy_added built name (isFinite_and_isPositive_iff.1 proper)⟩

theorem nonNegative_factor {u : UnitSystem Float} (reached : u.Reached) {name : String}
    {unit : Definition Float} (resolved : u.resolve name = .ok unit) :
    NonNegative unit.conversion.factor := by
  obtain ⟨origin, scales, built⟩ := builtBy_of_resolve reached resolved
  rw [built.factor]
  exact nonNegative_scaled (catalogue_factors origin built.known).1 built.proper

/-- Every unit is built on one of the catalogue by scales that are finite and positive, and its
    factor is never below zero, nor is it no number. Whatever scales it is built by, its factor is
    finite and positive exactly if all products on the way to it are, and it is so for certain if
    the scales together stay within 973 powers of two. -/
theorem factor_of_resolve {u : UnitSystem Float} (reached : u.Reached) {name : String}
    {unit : Definition Float} (resolved : u.resolve name = .ok unit) :
    NonNegative unit.conversion.factor ∧ (∃ origin scales, BuiltBy unit origin scales) ∧
      ∀ origin scales, BuiltBy unit origin scales →
        (Usable unit.conversion.factor ↔
          ∀ rest, rest <:+ scales → Usable (scaled origin.conversion.factor rest)) ∧
        (reach scales ≤ 973 → Usable unit.conversion.factor) := by
  refine ⟨nonNegative_factor reached resolved, builtBy_of_resolve reached resolved, ?_⟩
  intro origin scales built
  obtain ⟨usable, least, most⟩ := catalogue_factors origin built.known
  rw [built.factor]
  constructor
  · exact usable_scaled_iff usable built.proper
  · intro near
    exact (usable_scaled usable least most built.proper near).1

def century : Definition Float := ⟨"century", .time, .linear 3153600000⟩
def nanometre : Definition Float := ⟨"nm", .length, .linear (Float.ofScientific 1 true 9)⟩

def lengthened : UnitSystem Float :=
  ⟨Registry.empty.insert ["aeon"] .time (.linear (100 * century.conversion.factor))⟩

theorem factor_of_aeon : lengthened.Reached ∧ ∃ unit, lengthened.resolve "aeon" = .ok unit ∧
    Usable unit.conversion.factor := by
  obtain ⟨defined, found, listed, proper, near⟩ :
      (standard : UnitSystem Float).define "aeon" 100 "century" = .ok lengthened ∧
        (standard : UnitSystem Float).resolve "century" = .ok century ∧
        century ∈ (catalogue : Registry Float).definitions ∧
        Usable 100 ∧ reach [100] ≤ 973 := by
    decide +kernel
  have reached : lengthened.Reached := .define .standard defined
  have resolved := resolve_added named_standard defined found
  have base : BuiltBy century century [] := ⟨listed, by simp, rfl, rfl⟩
  have built := builtBy_added base (Text.trim "aeon") proper
  exact ⟨reached, _, resolved, ((factor_of_resolve reached resolved).2.2 _ _ built).2 near⟩

def overgrown : UnitSystem Float := ⟨Registry.empty.insert ["huge"] .time
  (.linear (Float.ofScientific 1 false 308 * century.conversion.factor))⟩

def exhausted : UnitSystem Float := ⟨overgrown.custom.insert ["tiny"] .length
  (.linear (Float.ofScientific 1 true 320 * nanometre.conversion.factor))⟩

/-- The factor of a unit may be infinite, and it may be zero. -/
theorem factor_out_of_range : exhausted.Reached ∧
    (∃ unit, exhausted.resolve "huge" = .ok unit ∧ unit.conversion.factor.isFinite = false) ∧
      ∃ unit, exhausted.resolve "tiny" = .ok unit ∧ unit.conversion.factor = 0 := by
  obtain ⟨first, second, long, short, infinite, zero⟩ :
      (standard : UnitSystem Float).define "huge" (Float.ofScientific 1 false 308) "century" =
          .ok overgrown ∧
        overgrown.define "tiny" (Float.ofScientific 1 true 320) "nm" = .ok exhausted ∧
        (standard : UnitSystem Float).resolve "century" = .ok century ∧
        overgrown.resolve "nm" = .ok nanometre ∧
        (Float.ofScientific 1 false 308 * century.conversion.factor).isFinite = false ∧
        Float.ofScientific 1 true 320 * nanometre.conversion.factor = 0 := by
    decide +kernel
  have reached : overgrown.Reached := .define .standard first
  have named := named_of_reached reached
  have huge := resolve_define named second (resolve_added named_standard first long)
  have tiny := resolve_added named second short
  exact ⟨.define reached second, ⟨_, huge, infinite⟩, _, tiny, zero⟩

end UnitSystem

end NotepadCalculator.Measurement
