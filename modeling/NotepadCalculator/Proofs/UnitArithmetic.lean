import NotepadCalculator.Evaluation.Arithmetic
import NotepadCalculator.Proofs.UnitConversion

/-!
Arithmetic with units keeps to what they measure. Only like units are added and subtracted; a
quotient of like units is a number and one of unlike units a ratio, if both are fit to stand in one;
and a product is a rate times a quantity of what the rate is taken over, on whichever side it is.
-/
namespace NotepadCalculator
open Measurement Number Text

namespace Text

theorem mem_dropWhile {p : Char → Bool} {c : Char} (stays : p c = false) {cs : List Char}
    (member : c ∈ cs) : c ∈ cs.dropWhile p := by
  rw [← List.takeWhile_append_dropWhile (p := p) (l := cs)] at member
  rcases List.mem_append.1 member with taken | left
  · have dropped := List.mem_takeWhile_imp taken
    rw [stays] at dropped
    contradiction
  · exact left

theorem mem_trimChars {c : Char} (solid : isBlank c = false) {cs : List Char} (member : c ∈ cs) :
    c ∈ trimChars cs := by
  have started := List.mem_reverse.2 (mem_dropWhile solid member)
  exact List.mem_reverse.2 (mem_dropWhile solid started)

theorem cut?_eq_some {mark : Char} {cs left right : List Char}
    (cut : cut? mark cs = some (left, right)) : cs = left ++ mark :: right ∧ mark ∉ left := by
  induction cs generalizing left with
  | nil => simp [cut?] at cut
  | cons c rest ih =>
    rw [cut?] at cut
    split at cut
    · rename_i here
      obtain ⟨rfl, rfl⟩ := Prod.mk.inj (Option.some.inj cut)
      simp [here]
    · rename_i elsewhere
      obtain ⟨⟨head, tail⟩, below, same⟩ := Option.map_eq_some_iff.1 cut
      obtain ⟨rfl, rfl⟩ := Prod.mk.inj same
      obtain ⟨rfl, absent⟩ := ih below
      simp [absent, Ne.symm elsewhere]

end Text

namespace Measurement

/-- A ratio is written with one stroke. -/
theorem count_of_splitRatio {spec : String} {sides : String × String}
    (split : splitRatio spec = .ok sides) : spec.toList.count '/' = 1 := by
  unfold splitRatio at split
  cases cut : cut? '/' spec.toList with
  | none => simp [cut] at split
  | some parts =>
    obtain ⟨left, right⟩ := parts
    simp only [cut] at split
    obtain ⟨_, split⟩ := guarded_eq_ok.1 split
    obtain ⟨_, split⟩ := guarded_eq_ok.1 split
    obtain ⟨single, _⟩ := guarded_eq_ok.1 split
    obtain ⟨whole, absent⟩ := cut?_eq_some cut
    have last : '/' ∉ right := by
      intro member
      exact single (by simpa using mem_trimChars (by decide) member)
    rw [whole, List.count_append, List.count_cons_self, List.count_eq_zero.2 absent,
      List.count_eq_zero.2 last]

theorem isRatioName_iff {name : String} : isRatioName name = true ↔ 0 < name.toList.count '/' := by
  simp [isRatioName, mentions]

theorem whole_of_splitRatio {above below : String} {sides : String × String}
    (split : splitRatio (above ++ "/" ++ below) = .ok sides) :
    isRatioName above = false ∧ isRatioName below = false := by
  have single := count_of_splitRatio split
  have stroke : "/".toList.count '/' = 1 := by decide
  simp only [String.toList_append, List.count_append] at single
  simp only [← Bool.not_eq_true, isRatioName_iff]
  omega

namespace UnitSystem
variable {α : Type} [Amount α] {u : UnitSystem α}

/-- The first is a rate of `n` for each `d`, and the second a quantity of `d`. -/
structure Fits (u : UnitSystem α) (rate quantity : String) (n d : Dimension) : Prop where
  rate : u.Measures rate (.ratio n d)
  quantity : u.Measures quantity (.plain d)

theorem not_fits_swap {r q : String} {n d n' d' : Dimension} (fits : u.Fits r q n d) :
    ¬u.Fits q r n' d' := by
  intro swapped
  have := measures_unique fits.rate swapped.quantity
  contradiction

/-- The name of a unit that may stand on either side of a ratio: it is no ratio itself, no
    temperature and no rate. -/
def IsSide (u : UnitSystem α) (name : String) : Prop :=
  isRatioName name = false ∧ ∃ unit, u.resolve name = .ok unit ∧
    unit.conversion.isAffine = false ∧ unit.dimension.rate? = none

theorem signature_of_sided {unit : Definition α} (sided : u.Sided unit) :
    u.signature unit.name = .ok (.plain unit.dimension) := by
  simp only [signature, sided.holds.plain.whole, Bool.false_eq_true, if_false, bind_eq_ok,
    pure_eq_ok]
  exact ⟨unit, resolve_own sided.holds, rfl⟩

theorem measures_of_sided {unit : Definition α} (sided : u.Sided unit) :
    u.Measures unit.name (.plain unit.dimension) := by
  refine ⟨_, signature_of_sided sided, ?_⟩
  simp [Signature.normalized, sided.noRate]

theorem measures_of_sides {above below : Definition α} (first : u.Sided above)
    (second : u.Sided below) :
    u.Measures (above.name ++ "/" ++ below.name) (.ratio above.dimension below.dimension) :=
  (measures_written (isRatioName_ratio _ _)).2 ⟨_, ratio_of_sided first second, rfl⟩

/-! What rates are made of. -/

theorem sided_base (u : UnitSystem α) {d : Dimension}
    (part : d ∈ [.length, .digitalStorage, .time]) :
    ∃ unit, u.Sided unit ∧ unit.name = d.baseUnit ∧ unit.dimension = d := by
  have listed : ∀ d ∈ [Dimension.length, .digitalStorage, .time],
      (d.baseUnit, d, false) ∈ catalogueOutlines := by
    decide +kernel
  have noRate : ∀ d ∈ [Dimension.length, .digitalStorage, .time], d.rate? = none := by decide
  obtain ⟨unit, holds, name, dimension, linear⟩ := holds_catalogue u (listed d part)
  exact ⟨unit, ⟨holds, linear, dimension ▸ noRate d part⟩, name, dimension⟩

theorem parts_of_rate {d n m : Dimension} (rate : d.rate? = some (n, m)) :
    n ∈ [.length, .digitalStorage, .time] ∧ m ∈ [.length, .digitalStorage, .time] := by
  cases d <;> simp_all [Dimension.rate?]

theorem rateUnits_written {spec : String} (written : isRatioName spec = true)
    {names : String × String} :
    u.rateUnits spec = .ok names ↔
      ∃ r, u.ratio spec = .ok r ∧ (r.numerator.name, r.denominator.name) = names := by
  simp only [rateUnits, written, if_true, bind_eq_ok, pure_eq_ok]

theorem rateUnits_whole {spec : String} (whole : isRatioName spec = false)
    {names : String × String} :
    u.rateUnits spec = .ok names ↔
      ∃ n d, u.Measures spec (.ratio n d) ∧ (n.baseUnit, d.baseUnit) = names := by
  simp only [rateUnits, whole, Bool.false_eq_true, if_false, bind_eq_ok]
  constructor
  · rintro ⟨signature, found, read⟩
    cases normal : signature.normalized with
    | plain d => simp [normal] at read
    | ratio n d =>
      simp only [normal] at read
      exact ⟨n, d, ⟨signature, found, normal⟩, pure_eq_ok.1 read⟩
  · rintro ⟨n, d, ⟨signature, found, normal⟩, rfl⟩
    refine ⟨signature, found, ?_⟩
    simp only [normal]
    rfl

/-- Whatever measures a ratio is a rate of one unit for each of another. -/
theorem rateUnits_of_measures (named : u.Named) {spec : String} {n d : Dimension}
    (measures : u.Measures spec (.ratio n d)) :
    ∃ above below, u.rateUnits spec = .ok (above.name, below.name) ∧ u.Sided above ∧
      u.Sided below ∧ above.dimension = n ∧ below.dimension = d := by
  cases written : isRatioName spec with
  | true =>
    obtain ⟨r, read, same⟩ := (measures_written written).1 measures
    obtain ⟨rfl, rfl⟩ := Signature.ratio.inj same
    obtain ⟨above, below⟩ := sided_of_ratio named read
    have units := (rateUnits_written written).2 ⟨r, read, rfl⟩
    exact ⟨r.numerator, r.denominator, units, above, below, rfl, rfl⟩
  | false =>
    obtain ⟨unit, _, normal⟩ := (measures_whole written).1 measures
    obtain ⟨first, second⟩ := parts_of_rate (Signature.normalized_plain_eq_ratio.1 normal)
    obtain ⟨above, sidedAbove, aboveName, rfl⟩ := sided_base u first
    obtain ⟨below, sidedBelow, belowName, rfl⟩ := sided_base u second
    have units := (rateUnits_whole written).2 ⟨_, _, measures, rfl⟩
    rw [← aboveName, ← belowName] at units
    exact ⟨above, below, units, sidedAbove, sidedBelow, rfl, rfl⟩

theorem measures_of_rateUnits {spec : String} {names : String × String}
    (read : u.rateUnits spec = .ok names) : ∃ n d, u.Measures spec (.ratio n d) := by
  cases written : isRatioName spec with
  | true =>
    obtain ⟨r, found, _⟩ := (rateUnits_written written).1 read
    exact ⟨_, _, (measures_written written).2 ⟨r, found, rfl⟩⟩
  | false =>
    obtain ⟨n, d, measures, _⟩ := (rateUnits_whole written).1 read
    exact ⟨n, d, measures⟩

/-! Names of quotients. -/

theorem holds_of_whole (named : u.Named) {name : String}
    (canonical : u.canonicalName name = .ok name) (whole : isRatioName name = false) :
    ∃ unit, u.Holds unit ∧ unit.name = name := by
  obtain ⟨unit, resolved, called⟩ := (canonicalName_whole whole).1 canonical
  exact ⟨unit, holds_of_find? named (resolve_iff.1 resolved), called⟩

theorem sided_of_isSide (named : u.Named) {name : String}
    (canonical : u.canonicalName name = .ok name) (side : u.IsSide name) :
    ∃ unit, u.Sided unit ∧ unit.name = name := by
  obtain ⟨whole, unit, resolved, linear, noRate⟩ := side
  obtain ⟨same, holds, rfl⟩ := holds_of_whole named canonical whole
  obtain rfl := Except.ok.inj ((resolve_own holds).symm.trans resolved)
  exact ⟨same, ⟨holds, linear, noRate⟩, rfl⟩

theorem canonicalName_quotient (named : u.Named) {above below : String}
    (first : u.canonicalName above = .ok above) (second : u.canonicalName below = .ok below)
    (sides : u.IsSide above ∧ u.IsSide below) :
    u.canonicalName (above ++ "/" ++ below) = .ok (above ++ "/" ++ below) := by
  obtain ⟨numerator, sidedAbove, rfl⟩ := sided_of_isSide named first sides.1
  obtain ⟨denominator, sidedBelow, rfl⟩ := sided_of_isSide named second sides.2
  exact canonicalName_of_canonical (.ratio sidedAbove sidedBelow)

theorem isSide_of_quotient (named : u.Named) {above below name : String}
    (first : u.canonicalName above = .ok above) (second : u.canonicalName below = .ok below)
    (called : u.canonicalName (above ++ "/" ++ below) = .ok name) :
    u.IsSide above ∧ u.IsSide below := by
  obtain ⟨r, read, _⟩ := (canonicalName_written (isRatioName_ratio _ _)).1 called
  obtain ⟨sides, split, upper, lower⟩ := ratio_eq_ok.1 read
  obtain ⟨wholeAbove, wholeBelow⟩ := whole_of_splitRatio split
  obtain ⟨numerator, holdsAbove, rfl⟩ := holds_of_whole named first wholeAbove
  obtain ⟨denominator, holdsBelow, rfl⟩ := holds_of_whole named second wholeBelow
  rw [splitRatio_plain holdsAbove.plain holdsBelow.plain] at split
  obtain rfl := Except.ok.inj split
  exact ⟨⟨wholeAbove, _, resolveSide_eq_ok.1 upper⟩, ⟨wholeBelow, _, resolveSide_eq_ok.1 lower⟩⟩

end UnitSystem

end Measurement

/-! Arithmetic. -/

namespace Tables
variable {α : Type} [Amount α] {t : Tables α}

theorem rateTimes?_of_fits (named : t.units.Named) {r q : String} {n d : Dimension}
    (fits : t.units.Fits r q n d) (a b : α) :
    ∃ c name, t.rateTimes? a r b q = some (.ok (.unit c name)) ∧
      t.units.signature name = .ok (.plain n) := by
  obtain ⟨above, below, read, sidedAbove, sidedBelow, rfl, rfl⟩ :=
    UnitSystem.rateUnits_of_measures named fits.rate
  have part := UnitSystem.measures_of_sided sidedBelow
  have whole := UnitSystem.measures_of_sides sidedAbove sidedBelow
  obtain ⟨quantity, converted⟩ : ∃ w, t.units.convert b q below.name = .ok w :=
    UnitSystem.convert_iff_alike.2 ⟨_, fits.quantity, part⟩
  -- The rate itself can always be put into the units that it is read in.
  obtain ⟨rate, rewritten⟩ : ∃ w, t.units.convert a r (above.name ++ "/" ++ below.name) = .ok w :=
    UnitSystem.convert_iff_alike.2 ⟨_, fits.rate, whole⟩
  unfold rateTimes?
  simp only [read, converted]
  by_cases same : above.name ++ "/" ++ below.name = r
  · rw [if_pos same]
    exact ⟨_, _, rfl, UnitSystem.signature_of_sided sidedAbove⟩
  · rw [if_neg same, rewritten]
    exact ⟨_, _, rfl, UnitSystem.signature_of_sided sidedAbove⟩

theorem rateTimes?_eq_none (named : t.units.Named) {r q : String}
    (unfit : ∀ n d, ¬t.units.Fits r q n d) (a b : α) : t.rateTimes? a r b q = none := by
  unfold rateTimes?
  split
  · rfl
  · rename_i read
    split
    · rfl
    · rename_i converted
      exfalso
      obtain ⟨n, d, rate⟩ := UnitSystem.measures_of_rateUnits read
      obtain ⟨above, below, again, _, sided, _, rfl⟩ :=
        UnitSystem.rateUnits_of_measures named rate
      obtain ⟨_, rfl⟩ := Prod.mk.inj (Except.ok.inj (read.symm.trans again))
      obtain ⟨m, here, there⟩ := UnitSystem.convert_iff_alike.1 ⟨_, converted⟩
      rw [UnitSystem.measures_unique there (UnitSystem.measures_of_sided sided)] at here
      exact unfit n _ ⟨rate, here⟩

/-- A rate times a quantity comes out the same on both sides, since no rate is a quantity that the
    other could be taken over. -/
theorem unitProduct_of_fits (named : t.units.Named) {r q : String} {n d : Dimension}
    (fits : t.units.Fits r q n d) (a b : α) :
    ∃ c name, t.unitProduct a r b q = .ok (.unit c name) ∧
      t.unitProduct b q a r = .ok (.unit c name) ∧ t.units.signature name = .ok (.plain n) := by
  obtain ⟨c, name, product, measured⟩ := rateTimes?_of_fits named fits a b
  have other : t.rateTimes? b q a r = none :=
    rateTimes?_eq_none named (fun _ _ => UnitSystem.not_fits_swap fits) b a
  refine ⟨c, name, ?_, ?_, measured⟩
  · simp [unitProduct, product]
  · simp [unitProduct, product, other]

theorem unitProduct_of_unfit (named : t.units.Named) {u v : String}
    (unfit : ∀ n d, ¬t.units.Fits u v n d ∧ ¬t.units.Fits v u n d) (a b : α) :
    ∃ e, t.unitProduct a u b v = .error e := by
  have first := rateTimes?_eq_none named (fun n d => (unfit n d).1) a b
  have second := rateTimes?_eq_none named (fun n d => (unfit n d).2) b a
  exact ⟨.invalidOperation (.unitProduct u v), by simp [unitProduct, first, second]⟩

theorem binary_units (op : BinaryOp) (a : α) (u : String) (b : α) (v : String) :
    t.binary op (.unit a u) (.unit b v) = t.unitUnit op a u b v := rfl

/-- How arithmetic on `a` in units of `u` and `b` in units of `v` comes out. Division by zero apart,
    the cases of each operation exclude one another and leave none over. -/
structure KeepsDimensions (t : Tables α) (a : α) (u : String) (b : α) (v : String) : Prop where
  sum : t.units.Alike u v → ∃ w, t.units.convert b v u = .ok w ∧
    t.binary .add (.unit a u) (.unit b v) = .ok (.unit (a + w) u) ∧
      t.binary .subtract (.unit a u) (.unit b v) = .ok (.unit (a - w) u)
  noSum : ¬t.units.Alike u v → ∀ op ∈ [BinaryOp.add, .subtract],
    ∃ e, t.binary op (.unit a u) (.unit b v) = .error e
  quotient : t.units.Alike u v → ∃ w, t.units.convert b v u = .ok w ∧
    (Amount.isZero w = false → t.binary .divide (.unit a u) (.unit b v) = .ok (.number (a / w)))
  ratio : ¬t.units.Alike u v → Amount.isZero b = false → t.units.IsSide u ∧ t.units.IsSide v →
    t.binary .divide (.unit a u) (.unit b v) = .ok (.unit (a / b) (u ++ "/" ++ v)) ∧
      t.units.canonicalName (u ++ "/" ++ v) = .ok (u ++ "/" ++ v)
  noQuotient : ¬t.units.Alike u v → ¬(t.units.IsSide u ∧ t.units.IsSide v) →
    ∃ e, t.binary .divide (.unit a u) (.unit b v) = .error e
  product : ∀ n d, t.units.Fits u v n d ∨ t.units.Fits v u n d →
    ∃ c name, t.binary .multiply (.unit a u) (.unit b v) = .ok (.unit c name) ∧
      t.binary .multiply (.unit b v) (.unit a u) = .ok (.unit c name) ∧
        t.units.signature name = .ok (.plain n)
  noProduct : (∀ n d, ¬t.units.Fits u v n d ∧ ¬t.units.Fits v u n d) →
    ∃ e, t.binary .multiply (.unit a u) (.unit b v) = .error e
  remainder : ∃ e, t.binary .remainder (.unit a u) (.unit b v) = .error e

theorem convert_of_alike {u v : String} (alike : t.units.Alike u v) (b : α) :
    ∃ w, t.units.convert b v u = .ok w :=
  UnitSystem.convert_iff_alike.2 (UnitSystem.alike_symm alike)

theorem convert_of_unlike {u v : String} (unlike : ¬t.units.Alike u v) (b : α) :
    ∃ fault, t.units.convert b v u = .error fault := by
  cases converted : t.units.convert b v u with
  | error fault => exact ⟨fault, rfl⟩
  | ok w =>
    have alike := UnitSystem.convert_iff_alike.1 ⟨w, converted⟩
    exact absurd (UnitSystem.alike_symm alike) unlike

/-- Amounts in units are only put together in ways that make sense for what they measure, and then
    the result has a unit that measures what it should. -/
theorem keepsDimensions_of_canonical (reached : t.units.Reached) {u v : String}
    (left : t.units.canonicalName u = .ok u) (right : t.units.canonicalName v = .ok v) (a b : α) :
    t.KeepsDimensions a u b v := by
  have named := UnitSystem.named_of_reached reached
  constructor
  case sum =>
    intro alike
    obtain ⟨w, converted⟩ := convert_of_alike alike b
    refine ⟨w, converted, ?_, ?_⟩
    · rw [binary_units, unitUnit, converted]
      rfl
    · rw [binary_units, unitUnit, converted]
      rfl
  case noSum =>
    intro unlike op member
    obtain ⟨fault, failed⟩ := convert_of_unlike unlike b
    rw [binary_units]
    cases op with
    | add => exact ⟨.ofUnitFault fault, by rw [unitUnit, failed]; rfl⟩
    | subtract => exact ⟨.ofUnitFault fault, by rw [unitUnit, failed]; rfl⟩
    | _ => simp at member
  case quotient =>
    intro alike
    obtain ⟨w, converted⟩ := convert_of_alike alike b
    refine ⟨w, converted, ?_⟩
    intro nonzero
    simp [binary_units, unitUnit, unitQuotient, converted, quotient, nonzero]
  case ratio =>
    intro unlike nonzero sides
    obtain ⟨fault, failed⟩ := convert_of_unlike unlike b
    have called := UnitSystem.canonicalName_quotient named left right sides
    refine ⟨?_, called⟩
    simp [binary_units, unitUnit, unitQuotient, failed, nonzero, called]
  case noQuotient =>
    intro unlike misfit
    obtain ⟨fault, failed⟩ := convert_of_unlike unlike b
    rw [binary_units, unitUnit, unitQuotient, failed]
    cases called : t.units.canonicalName (u ++ "/" ++ v) with
    | ok name => exact absurd (UnitSystem.isSide_of_quotient named left right called) misfit
    | error _ =>
      by_cases zero : Amount.isZero b = true
      · exact ⟨.divisionByZero, by simp [zero]⟩
      · exact ⟨.ofUnitFault fault, by simp [zero]⟩
  case product =>
    rintro n d (fits | fits)
    · exact unitProduct_of_fits named fits a b
    · obtain ⟨c, name, product, swapped, measured⟩ := unitProduct_of_fits named fits b a
      exact ⟨c, name, swapped, product, measured⟩
  case noProduct =>
    intro unfit
    exact unitProduct_of_unfit named unfit a b
  case remainder =>
    exact ⟨_, rfl⟩

def lapped : UnitSystem Float := ⟨Registry.empty.insert ["lap"] .length (.linear (400 * 1))⟩

theorem keepsDimensions_laps :
    lapped.Reached ∧ lapped.canonicalName "lap/min" = .ok "lap/min" ∧
      lapped.canonicalName "h" = .ok "h" ∧ lapped.Fits "lap/min" "h" .length .time ∧
      (⟨lapped, ⟨[]⟩⟩ : Tables Float).KeepsDimensions 3 "lap/min" 2 "h" := by
  -- In one evaluation, since each has to go through the catalogue before it comes to the lap.
  obtain ⟨defined, pace, hours, rate, time⟩ :
      UnitSystem.standard.define "lap" 400 "m" = .ok lapped ∧
        lapped.canonicalName "lap/min" = .ok "lap/min" ∧ lapped.canonicalName "h" = .ok "h" ∧
          lapped.signature "lap/min" = .ok (.ratio .length .time) ∧
            lapped.signature "h" = .ok (.plain .time) := by
    decide +kernel
  have reached : lapped.Reached := .define .standard defined
  have fits : lapped.Fits "lap/min" "h" .length .time := ⟨⟨_, rate, rfl⟩, ⟨_, time, rfl⟩⟩
  exact ⟨reached, pace, hours, fits,
    keepsDimensions_of_canonical (t := ⟨lapped, ⟨[]⟩⟩) reached pace hours 3 2⟩

end Tables

end NotepadCalculator
