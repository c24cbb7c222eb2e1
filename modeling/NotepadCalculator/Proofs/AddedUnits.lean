import NotepadCalculator.Proofs.KnownUnits
import NotepadCalculator.Sheet.Basic

/-!
Units that are added leave all others as they are. A name that has stood for a unit goes on standing
for it, and of the names that have stood for nothing only the spellings of the new one come to stand
for anything. A unit that is refused changes nothing at all.
-/
namespace NotepadCalculator

namespace Text

/-- Names that differ in letter case at most. -/
def SpelledAlike (a b : String) : Prop := a = b ∨ lowercase a = lowercase b

instance (a b : String) : Decidable (SpelledAlike a b) := inferInstanceAs (Decidable (_ ∨ _))

end Text

namespace Measurement
open Number Text

namespace Registry
variable {α : Type}

theorem lookup_single {key other : String} {position : Nat} :
    [(key, position)].lookup other = if other = key then some position else none := by
  by_cases same : other = key
  · simp [same]
  · simp [List.lookup_cons, beq_eq_false_iff_ne.2 same, same]

theorem position?_insert_of_none {r : Registry α} {name other : String} (dimension : Dimension)
    (conversion : Conversion α) (missing : r.position? other = none) :
    (r.insert [name] dimension conversion).position? other =
      if SpelledAlike other name then some r.definitions.length else none := by
  obtain ⟨exact_, folded⟩ := Option.or_eq_none_iff.1 missing
  simp only [position?, insert, List.lookup_append, exact_, folded, Option.none_or, List.map_cons,
    List.map_nil, lookup_single]
  by_cases same : other = name
  · simp [same, SpelledAlike]
  · simp [same, SpelledAlike]

theorem lookup?_insert_of_none {r : Registry α} (named : r.Named) {name other : String}
    (dimension : Dimension) (conversion : Conversion α) (missing : r.lookup? other = none) :
    (r.insert [name] dimension conversion).lookup? other =
      if SpelledAlike other name then some ⟨name, dimension, conversion⟩ else none := by
  rw [lookup?, position?_insert_of_none _ _ (position?_eq_none named missing)]
  by_cases alike : SpelledAlike other name
  · rw [if_pos alike, if_pos alike, Option.bind_some]
    simp [insert]
  · rw [if_neg alike, if_neg alike, Option.bind_none]

end Registry

namespace UnitSystem
variable {α : Type} [Amount α]

theorem resolve_define {u later : UnitSystem α} (named : u.Named) {name base : String} {scale : α}
    (defined : u.define name scale base = .ok later) {other : String} {unit : Definition α}
    (resolved : u.resolve other = .ok unit) : later.resolve other = .ok unit :=
  resolve_iff.2 (find?_define named defined (resolve_iff.1 resolved))

theorem resolve_define_iff {u later : UnitSystem α} (named : u.Named) {name base : String}
    {scale : α} (defined : u.define name scale base = .ok later) : ∃ source,
    u.resolve base = .ok source ∧ ∀ other, (∀ unit, u.resolve other ≠ .ok unit) →
      ∀ unit, later.resolve other = .ok unit ↔ SpelledAlike (trim other) (trim name) ∧
        unit = ⟨trim name, source.dimension, .linear (scale * source.conversion.factor)⟩ := by
  obtain ⟨_, _, _, source, found, _, rfl⟩ := define_cases defined
  refine ⟨source, found, fun other unresolved unit => ?_⟩
  have missing : u.find? (trim other) = none := by
    cases held : u.find? (trim other) with
    | none => rfl
    | some unit => exact absurd (resolve_iff.2 held) (unresolved unit)
  obtain ⟨unlisted, unknown⟩ := find?_eq_none missing
  rw [resolve_iff, find?, unlisted, Option.none_or,
    Registry.lookup?_insert_of_none named.custom _ _ unknown]
  by_cases alike : SpelledAlike (trim other) (trim name)
  · simp [alike, eq_comm]
  · simp [alike]

/-- An added unit is found under the name it was added with. -/
theorem resolve_added {u later : UnitSystem α} (named : u.Named) {name base : String} {scale : α}
    (defined : u.define name scale base = .ok later) {source : Definition α}
    (found : u.resolve base = .ok source) : later.resolve name =
      .ok ⟨trim name, source.dimension, .linear (scale * source.conversion.factor)⟩ := by
  obtain ⟨other, resolved, spelled⟩ := resolve_define_iff named defined
  obtain rfl : source = other := Except.ok.inj (found.symm.trans resolved)
  have unresolved : ∀ unit, u.resolve name ≠ .ok unit := by
    intro unit resolved
    rw [resolve_iff, (define_cases defined).2.2.1] at resolved
    cases resolved
  exact (spelled name unresolved _).2 ⟨.inl rfl, rfl⟩

end UnitSystem

end Measurement

namespace Sheet
open Measurement

theorem command_define {s : Sheet} {word : String} {arguments : List String} {name base : String}
    {scale : Float} (read : Command.read word arguments = .ok (.defineUnit name scale base)) :
    s.command word arguments = match s.units.define name scale base with
      | .ok units => (.silent, { s with units := units })
      | .error fault => (.failure (.eval (.ofUnitFault fault)), s) := by
  simp only [command, read, Except.bind, apply]
  cases s.units.define name scale base with
  | ok units => rfl
  | error fault => rfl

end Sheet

namespace Measurement.UnitSystem
open Text

/-- Adding a unit either fails and leaves a sheet as it was, or extends what names stand for by the
    spellings of the new name. -/
theorem define_conservative {u : UnitSystem Float} (reached : u.Reached) (name : String)
    (scale : Float) (base : String) :
    (∀ fault, u.define name scale base = .error fault → ∀ s : Sheet, s.units = u →
      ∀ word arguments, Command.read word arguments = .ok (.defineUnit name scale base) →
        s.command word arguments = (.failure (.eval (.ofUnitFault fault)), s)) ∧
    ∀ later, u.define name scale base = .ok later →
      (∀ other unit, u.resolve other = .ok unit → later.resolve other = .ok unit) ∧
      ∃ source, u.resolve base = .ok source ∧ ∀ other, (∀ unit, u.resolve other ≠ .ok unit) →
        ∀ unit, later.resolve other = .ok unit ↔ SpelledAlike (trim other) (trim name) ∧
          unit = ⟨trim name, source.dimension, .linear (scale * source.conversion.factor)⟩ := by
  have named := named_of_reached reached
  constructor
  · intro fault refused s same word arguments read
    rw [Sheet.command_define read, same, refused]
  · intro later defined
    exact ⟨fun other unit => resolve_define named defined, resolve_define_iff named defined⟩

def bridged : UnitSystem Float := ⟨Registry.empty.insert ["Smoot"] .length (.linear (1.7018 * 1))⟩

theorem define_conservative_bridge : bridged.Reached ∧ ∃ later,
    bridged.define " Bridge" 364.4 "smoot" = .ok later ∧
      (∀ unit, bridged.resolve "BRIDGE" ≠ .ok unit) ∧
        later.resolve "BRIDGE" = .ok ⟨"Bridge", .length, .linear (364.4 * (1.7018 * 1))⟩ := by
  obtain ⟨first, second, unknown, found, alike, trimmed⟩ :
      standard.define "Smoot" 1.7018 "m" = .ok bridged ∧
        bridged.define " Bridge" 364.4 "smoot" = .ok ⟨bridged.custom.insert ["Bridge"] .length
          (.linear (364.4 * (1.7018 * 1)))⟩ ∧
        bridged.find? (trim "BRIDGE") = none ∧
        bridged.resolve "smoot" = .ok ⟨"Smoot", .length, .linear (1.7018 * 1)⟩ ∧
        SpelledAlike (trim "BRIDGE") (trim " Bridge") ∧ trim " Bridge" = "Bridge" := by
    decide +kernel
  have reached : bridged.Reached := .define .standard first
  have unresolved : ∀ unit, bridged.resolve "BRIDGE" ≠ .ok unit := by
    intro unit resolved
    rw [resolve_iff, unknown] at resolved
    cases resolved
  obtain ⟨_, source, resolved, spelled⟩ :=
    (define_conservative reached " Bridge" 364.4 "smoot").2 _ second
  obtain rfl := Except.ok.inj (found.symm.trans resolved)
  refine ⟨reached, _, second, unresolved, (spelled "BRIDGE" unresolved _).2 ⟨alike, ?_⟩⟩
  rw [trimmed]
  rfl

end Measurement.UnitSystem

end NotepadCalculator
