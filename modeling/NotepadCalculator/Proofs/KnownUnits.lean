import Mathlib.Data.List.DropRight
import NotepadCalculator.Measurement.UnitSystem

/-!
Unit names that stand for themselves. Whatever spelling a unit is found under, its own name leads
back to it, and goes on doing so when further units are added: the name of a new unit must be one
that has not stood for anything before.
-/
namespace NotepadCalculator

theorem bind_eq_ok {ε β γ : Type} {first : Except ε β} {next : β → Except ε γ} {c : γ} :
    (first >>= next) = .ok c ↔ ∃ b, first = .ok b ∧ next b = .ok c := by
  cases first with
  | error e => simp [bind, Except.bind]
  | ok b => simp [bind, Except.bind]

@[simp] theorem pure_eq_ok {ε β : Type} {b c : β} : (pure b : Except ε β) = .ok c ↔ b = c := by
  simp [pure, Except.pure]

@[simp] theorem throw_ne_ok {ε β : Type} {e : ε} {b : β} : (throw e : Except ε β) ≠ .ok b := by
  simp [throw, throwThe, MonadExceptOf.throw]

theorem toOption_eq_some {ε β : Type} {found : Except ε β} {b : β} :
    found.toOption = some b ↔ found = .ok b := by
  cases found with
  | error e => simp [Except.toOption]
  | ok c => simp [Except.toOption]

theorem guarded_eq_ok {ε β γ : Type} {c : Prop} [Decidable c] {e : ε} {first : γ → Except ε β}
    {next : Except ε β} {b : β} :
    (if c then throw e >>= first else next) = .ok b ↔ ¬c ∧ next = .ok b := by
  by_cases holds : c
  · simp [holds, bind_eq_ok]
  · simp [holds]

theorem mem_of_lookup {κ β : Type} [BEq κ] [LawfulBEq κ] {entries : List (κ × β)} {key : κ}
    {found : β} (present : entries.lookup key = some found) : (key, found) ∈ entries := by
  obtain ⟨before, after, rfl, _⟩ := List.lookup_eq_some_iff.1 present
  simp

namespace Text

theorem trimChars_idem (cs : List Char) : trimChars (trimChars cs) = trimChars cs := by
  have ended : trimChars cs = (cs.dropWhile isBlank).rdropWhile isBlank := rfl
  have started : (trimChars cs).dropWhile isBlank = trimChars cs := by
    rw [List.dropWhile_eq_self_iff]
    intro nonempty
    obtain ⟨rest, split⟩ : trimChars cs <+: cs.dropWhile isBlank :=
      ended ▸ List.rdropWhile_prefix _ _
    have whole : 0 < (cs.dropWhile isBlank).length := by
      rw [← split, List.length_append]
      omega
    have first : (cs.dropWhile isBlank)[0] = (trimChars cs)[0] := by
      simp only [← split, List.getElem_append_left nonempty]
    rw [← first]
    simpa using List.dropWhile_get_zero_not isBlank cs whole
  have again : trimChars (trimChars cs) =
      ((trimChars cs).dropWhile isBlank).rdropWhile isBlank := rfl
  rw [again, started, ended, List.rdropWhile_idempotent]

theorem trim_idem (s : String) : trim (trim s) = trim s := by
  simp [trim, trimChars_idem]

theorem cut?_of_notMem {mark : Char} {left : List Char} (absent : mark ∉ left)
    (right : List Char) : cut? mark (left ++ mark :: right) = some (left, right) := by
  induction left with
  | nil => simp [cut?]
  | cons c left ih =>
    simp only [List.mem_cons, not_or] at absent
    simp [cut?, ih absent.2, Ne.symm absent.1]

end Text

namespace Measurement
open Number Text

/-- A name of one unit, which is no ratio, written without anything around it. -/
structure IsPlain (name : String) : Prop where
  nonempty : name ≠ ""
  trimmed : trim name = name
  whole : isRatioName name = false

instance (name : String) : Decidable (IsPlain name) :=
  decidable_of_iff (name ≠ "" ∧ trim name = name ∧ isRatioName name = false)
    ⟨fun ⟨nonempty, trimmed, whole⟩ => ⟨nonempty, trimmed, whole⟩,
      fun plain => ⟨plain.nonempty, plain.trimmed, plain.whole⟩⟩

namespace Registry
variable {α : Type}

/-- Every definition is found under its own name, and nothing else is. -/
structure Named (r : Registry α) : Prop where
  own : ∀ {position definition}, r.definitions[position]? = some definition →
    r.exact.lookup definition.name = some position
  within : ∀ entry ∈ r.exact ++ r.folded, entry.2 < r.definitions.length
  plain : ∀ definition ∈ r.definitions, IsPlain definition.name

theorem named_empty : (empty : Registry α).Named where
  own found := by simp [empty] at found
  within := by simp [empty]
  plain := by simp [empty]

/-- A unit may be added under a name that has not been spelled so before. -/
theorem named_insert {r : Registry α} (named : r.Named) {name : String} (others : List String)
    (dimension : Dimension) (conversion : Conversion α) (fresh : r.exact.lookup name = none)
    (plain : IsPlain name) : (r.insert (name :: others) dimension conversion).Named where
  own {position definition} found := by
    simp only [insert] at found ⊢
    rw [List.lookup_append]
    rcases Nat.lt_trichotomy position r.definitions.length with earlier | last | beyond
    · rw [List.getElem?_append_left earlier] at found
      rw [named.own found, Option.some_or]
    · subst last
      obtain rfl : _ = definition := by simpa using found
      rw [fresh]
      simp
    · rw [List.getElem?_eq_none (by simp; omega)] at found
      contradiction
  within := by
    have before := named.within
    simp only [insert, List.forall_mem_append, List.forall_mem_map, List.length_append,
      List.length_singleton] at before ⊢
    refine ⟨⟨fun entry member => ?_, fun _ _ => Nat.lt_succ_self _⟩,
      ⟨fun entry member => ?_, fun _ _ => Nat.lt_succ_self _⟩⟩
    · exact Nat.lt_succ_of_lt (before.1 entry member)
    · exact Nat.lt_succ_of_lt (before.2 entry member)
  plain := by
    intro definition member
    rcases List.mem_append.1 member with earlier | last
    · exact named.plain definition earlier
    · rw [List.mem_singleton.1 last]
      exact plain

theorem position?_lt {r : Registry α} (named : r.Named) {name : String} {position : Nat}
    (found : r.position? name = some position) : position < r.definitions.length := by
  rcases Option.or_eq_some_iff.1 found with exact_ | ⟨_, folded⟩
  · exact named.within _ (List.mem_append_left _ (mem_of_lookup exact_))
  · exact named.within (_, _) (List.mem_append_right _ (mem_of_lookup folded))

theorem position?_eq_none {r : Registry α} (named : r.Named) {name : String}
    (missing : r.lookup? name = none) : r.position? name = none := by
  cases found : r.position? name with
  | none => rfl
  | some position =>
    have bound := position?_lt named found
    simp [lookup?, found, bound] at missing

theorem lookup?_position {r : Registry α} {name : String} {definition : Definition α}
    (found : r.lookup? name = some definition) :
    ∃ position, r.position? name = some position ∧
      r.definitions[position]? = some definition :=
  Option.bind_eq_some_iff.1 found

theorem mem_of_lookup? {r : Registry α} {name : String} {definition : Definition α}
    (found : r.lookup? name = some definition) : definition ∈ r.definitions := by
  obtain ⟨position, _, held⟩ := lookup?_position found
  exact List.mem_of_getElem? held

theorem lookup?_own {r : Registry α} (named : r.Named) {definition : Definition α}
    (member : definition ∈ r.definitions) : r.lookup? definition.name = some definition := by
  obtain ⟨position, held⟩ := List.getElem?_of_mem member
  rw [lookup?, position?, named.own held]
  exact held

theorem lookup?_insert_of_some {r : Registry α} (named : r.Named) {name other : String}
    (dimension : Dimension) (conversion : Conversion α) (fresh : r.lookup? name = none)
    {definition : Definition α} (found : r.lookup? other = some definition) :
    (r.insert [name] dimension conversion).lookup? other = some definition := by
  obtain ⟨position, positioned, held⟩ := lookup?_position found
  have different : other ≠ name := by
    rintro rfl
    rw [fresh] at found
    contradiction
  have same : (r.insert [name] dimension conversion).position? other = some position := by
    rcases Option.or_eq_some_iff.1 positioned with exact_ | ⟨missing, folded⟩
    · simp [insert, position?, List.lookup_append, exact_]
    · simp [insert, position?, List.lookup_append, missing, folded, List.lookup_cons,
        beq_eq_false_iff_ne.2 different]
  have earlier := position?_lt named positioned
  rw [lookup?, same, Option.bind_some, insert, List.getElem?_append_left earlier]
  exact held

def insertAll (r : Registry α) (units : List (List String × Dimension × Conversion α)) :
    Registry α :=
  units.foldl (fun r unit => r.insert unit.1 unit.2.1 unit.2.2) r

/-- Every list of aliases begins with a plain name that has not occurred before. -/
def Distinct : List String → List (List String) → Bool
  | _, [] => true
  | _, [] :: _ => false
  | met, (name :: others) :: rest =>
    IsPlain name && !met.contains name && Distinct (met ++ name :: others) rest

theorem named_insertAll {r : Registry α} (named : r.Named)
    (units : List (List String × Dimension × Conversion α))
    (distinct : Distinct (r.exact.map (·.1)) (units.map (·.1)) = true) :
    (r.insertAll units).Named := by
  induction units generalizing r with
  | nil => exact named
  | cons unit rest ih =>
    obtain ⟨aliases, dimension, conversion⟩ := unit
    cases aliases with
    | nil => contradiction
    | cons name others =>
      simp only [List.map_cons, Distinct, Bool.and_eq_true, decide_eq_true_eq,
        Bool.not_eq_true', List.contains_eq_mem, decide_eq_false_iff_not] at distinct
      obtain ⟨⟨plain, new⟩, others_⟩ := distinct
      have fresh : r.exact.lookup name = none := by
        rw [List.lookup_eq_none_iff]
        intro entry member
        have other : name ≠ entry.1 := fun same => new (same ▸ List.mem_map_of_mem member)
        simpa using other
      refine ih (named_insert named others dimension conversion fresh plain) ?_
      simpa [insert, Function.comp_def] using others_

theorem definitions_insertAll (r : Registry α)
    (units : List (List String × Dimension × Conversion α)) :
    (r.insertAll units).definitions = r.definitions ++
      units.filterMap fun unit => unit.1.head?.map (⟨·, unit.2.1, unit.2.2⟩) := by
  induction units generalizing r with
  | nil => simp [insertAll]
  | cons unit rest ih =>
    obtain ⟨aliases, dimension, conversion⟩ := unit
    have next := ih (r.insert aliases dimension conversion)
    rw [insertAll, List.foldl_cons, ← insertAll, next]
    cases aliases with
    | nil => rfl
    | cons name others => simp [insert]

end Registry

section
variable (α : Type) [Amount α]

def catalogueUnits : List (List String × Dimension × Conversion α) :=
  catalogueEntries.flatMap fun (dimension, entries) =>
    entries.map fun (aliases, conversion) => (aliases, dimension, conversion)

def catalogueAliases : List (List String) := (catalogueUnits Float).map (·.1)

theorem catalogueUnits_aliases : (catalogueUnits α).map (·.1) = catalogueAliases := rfl

theorem catalogue_eq : (catalogue : Registry α) = .insertAll .empty (catalogueUnits α) := by
  simp [catalogue, Registry.insertAll, catalogueUnits, List.foldl_flatMap, List.foldl_map]

theorem catalogueAliases_distinct : Registry.Distinct [] catalogueAliases = true := by
  decide +kernel

theorem catalogue_named : (catalogue : Registry α).Named := by
  rw [catalogue_eq]
  exact Registry.named_insertAll Registry.named_empty _
    (catalogueUnits_aliases α ▸ catalogueAliases_distinct)

def catalogueOutlines : List (String × Dimension × Bool) :=
  (catalogueUnits Float).filterMap fun unit =>
    unit.1.head?.map (·, unit.2.1, unit.2.2.isAffine)

theorem catalogue_outlines :
    (catalogue : Registry α).definitions.map
        (fun unit => (unit.name, unit.dimension, unit.conversion.isAffine)) =
      catalogueOutlines := by
  rw [catalogue_eq, Registry.definitions_insertAll, Registry.empty, List.nil_append,
    List.map_filterMap]
  simp only [Option.map_map, Function.comp_def]
  rfl

theorem lookup?_catalogue {name : String} {dimension : Dimension} {affine : Bool}
    (listed : (name, dimension, affine) ∈ catalogueOutlines) :
    ∃ definition, (catalogue : Registry α).lookup? name = some definition ∧
      definition.name = name ∧ definition.dimension = dimension ∧
      definition.conversion.isAffine = affine := by
  rw [← catalogue_outlines α] at listed
  obtain ⟨definition, member, same⟩ := List.mem_map.1 listed
  obtain ⟨rfl, rfl, rfl⟩ : definition.name = name ∧ definition.dimension = dimension ∧
      definition.conversion.isAffine = affine := by
    simpa using same
  exact ⟨definition, Registry.lookup?_own (catalogue_named α) member, rfl, rfl, rfl⟩

end

theorem splitRatio_plain {left right : String} (first : IsPlain left) (second : IsPlain right) :
    splitRatio (left ++ "/" ++ right) = .ok (left, right) := by
  have nonempty {s : String} (plain : IsPlain s) : s.toList ≠ [] := by
    simpa using plain.nonempty
  have trimmed {s : String} (plain : IsPlain s) : trimChars s.toList = s.toList := by
    simpa [trim] using congrArg String.toList plain.trimmed
  have whole {s : String} (plain : IsPlain s) : '/' ∉ s.toList := by
    simpa [isRatioName, mentions] using plain.whole
  have split : cut? '/' (left ++ "/" ++ right).toList = some (left.toList, right.toList) := by
    simpa using cut?_of_notMem (whole first) right.toList
  unfold splitRatio
  simp only [split, trimmed first, trimmed second, nonempty first, nonempty second,
    List.contains_eq_mem, whole second, String.ofList_toList]
  rfl

namespace UnitSystem
variable {α : Type} [Amount α]

structure Named (u : UnitSystem α) : Prop where
  custom : u.custom.Named
  apart : ∀ definition ∈ u.custom.definitions,
    (catalogue : Registry α).lookup? definition.name = none

theorem named_standard : (standard : UnitSystem α).Named where
  custom := Registry.named_empty
  apart := by simp [standard, Registry.empty]

structure Holds (u : UnitSystem α) (definition : Definition α) : Prop where
  own : u.find? definition.name = some definition
  plain : IsPlain definition.name

theorem holds_of_find? {u : UnitSystem α} (named : u.Named) {name : String}
    {definition : Definition α} (found : u.find? name = some definition) :
    u.Holds definition := by
  rcases Option.or_eq_some_iff.1 found with known | ⟨_, added⟩
  · have member := Registry.mem_of_lookup? known
    have own := Registry.lookup?_own (catalogue_named α) member
    exact ⟨by rw [find?, own, Option.some_or], (catalogue_named α).plain definition member⟩
  · have member := Registry.mem_of_lookup? added
    have own := Registry.lookup?_own named.custom member
    exact ⟨by rw [find?, named.apart definition member, Option.none_or, own],
      named.custom.plain definition member⟩

theorem resolve_iff {u : UnitSystem α} {name : String} {definition : Definition α} :
    u.resolve name = .ok definition ↔ u.find? (trim name) = some definition := by
  unfold resolve
  cases u.find? (trim name) <;> simp

theorem resolve_own {u : UnitSystem α} {definition : Definition α} (holds : u.Holds definition) :
    u.resolve definition.name = .ok definition := by
  rw [resolve_iff, holds.plain.trimmed]
  exact holds.own

theorem resolveSide_eq_ok {u : UnitSystem α} {spec name : String} {definition : Definition α} :
    u.resolveSide spec name = .ok definition ↔ u.resolve name = .ok definition ∧
      definition.conversion.isAffine = false ∧ definition.dimension.rate? = none := by
  simp only [resolveSide, bind_eq_ok, guarded_eq_ok, pure_eq_ok]
  constructor
  · rintro ⟨unit, found, linear, noRate, rfl⟩
    exact ⟨found, by simpa using linear, by simpa using noRate⟩
  · rintro ⟨found, linear, noRate⟩
    exact ⟨definition, found, by simp [linear], by simp [noRate], rfl⟩

structure Sided (u : UnitSystem α) (definition : Definition α) : Prop where
  holds : u.Holds definition
  linear : definition.conversion.isAffine = false
  noRate : definition.dimension.rate? = none

theorem sided_of_resolveSide {u : UnitSystem α} (named : u.Named) {spec name : String}
    {definition : Definition α} (resolved : u.resolveSide spec name = .ok definition) :
    u.Sided definition := by
  obtain ⟨found, linear, noRate⟩ := resolveSide_eq_ok.1 resolved
  exact ⟨holds_of_find? named (resolve_iff.1 found), linear, noRate⟩

theorem resolveSide_of_sided {u : UnitSystem α} {definition : Definition α}
    (sided : u.Sided definition) (spec : String) :
    u.resolveSide spec definition.name = .ok definition :=
  resolveSide_eq_ok.2 ⟨resolve_own sided.holds, sided.linear, sided.noRate⟩

/-- The names that are given to units: those of definitions and of ratios of two of them. -/
inductive Canonical (u : UnitSystem α) : String → Prop where
  | plain {definition : Definition α} (holds : u.Holds definition) : Canonical u definition.name
  | ratio {numerator denominator : Definition α} (above : u.Sided numerator)
      (below : u.Sided denominator) : Canonical u (numerator.name ++ "/" ++ denominator.name)

theorem ratio_eq_ok {u : UnitSystem α} {spec : String} {r : Ratio α} :
    u.ratio spec = .ok r ↔ ∃ sides, splitRatio spec = .ok sides ∧
      u.resolveSide spec sides.1 = .ok r.numerator ∧
      u.resolveSide spec sides.2 = .ok r.denominator := by
  simp only [ratio, bind_eq_ok, pure_eq_ok]
  constructor
  · rintro ⟨sides, split, _, above, _, below, rfl⟩
    exact ⟨sides, split, above, below⟩
  · rintro ⟨sides, split, above, below⟩
    exact ⟨sides, split, _, above, _, below, rfl⟩

theorem ratio_of_sided {u : UnitSystem α} {numerator denominator : Definition α}
    (above : u.Sided numerator) (below : u.Sided denominator) :
    u.ratio (numerator.name ++ "/" ++ denominator.name) = .ok ⟨numerator, denominator⟩ :=
  ratio_eq_ok.2 ⟨_, splitRatio_plain above.holds.plain below.holds.plain,
    resolveSide_of_sided above _, resolveSide_of_sided below _⟩

theorem sided_of_ratio {u : UnitSystem α} (named : u.Named) {spec : String} {r : Ratio α}
    (read : u.ratio spec = .ok r) : u.Sided r.numerator ∧ u.Sided r.denominator := by
  obtain ⟨_, _, above, below⟩ := ratio_eq_ok.1 read
  exact ⟨sided_of_resolveSide named above, sided_of_resolveSide named below⟩

theorem isRatioName_ratio (left right : String) :
    isRatioName (left ++ "/" ++ right) = true := by
  simp [isRatioName, mentions]

theorem canonicalName_written {u : UnitSystem α} {spec name : String}
    (written : isRatioName spec = true) :
    u.canonicalName spec = .ok name ↔ ∃ r, u.ratio spec = .ok r ∧ r.name = name := by
  simp only [canonicalName, written, if_true, bind_eq_ok, pure_eq_ok]

theorem canonicalName_whole {u : UnitSystem α} {spec name : String}
    (whole : isRatioName spec = false) :
    u.canonicalName spec = .ok name ↔ ∃ unit, u.resolve spec = .ok unit ∧ unit.name = name := by
  simp only [canonicalName, whole, Bool.false_eq_true, if_false, bind_eq_ok, pure_eq_ok]

theorem canonicalName_of_canonical {u : UnitSystem α} {name : String}
    (canonical : u.Canonical name) : u.canonicalName name = .ok name := by
  cases canonical with
  | plain holds => exact (canonicalName_whole holds.plain.whole).2 ⟨_, resolve_own holds, rfl⟩
  | ratio above below =>
    exact (canonicalName_written (isRatioName_ratio _ _)).2 ⟨_, ratio_of_sided above below, rfl⟩

theorem canonical_of_canonicalName {u : UnitSystem α} (named : u.Named) {spec name : String}
    (called : u.canonicalName spec = .ok name) : u.Canonical name := by
  cases written : isRatioName spec with
  | true =>
    obtain ⟨r, read, rfl⟩ := (canonicalName_written written).1 called
    obtain ⟨above, below⟩ := sided_of_ratio named read
    exact .ratio above below
  | false =>
    obtain ⟨unit, resolved, rfl⟩ := (canonicalName_whole written).1 called
    exact .plain (holds_of_find? named (resolve_iff.1 resolved))

theorem holds_catalogue (u : UnitSystem α) {name : String} {dimension : Dimension} {affine : Bool}
    (listed : (name, dimension, affine) ∈ catalogueOutlines) :
    ∃ definition, u.Holds definition ∧ definition.name = name ∧
      definition.dimension = dimension ∧ definition.conversion.isAffine = affine := by
  obtain ⟨definition, found, rfl, same⟩ := lookup?_catalogue α listed
  have own : u.find? definition.name = some definition := by rw [find?, found, Option.some_or]
  have plain := (catalogue_named α).plain definition (Registry.mem_of_lookup? found)
  exact ⟨definition, ⟨own, plain⟩, rfl, same⟩

/-- The units that results may be given in without having been written. -/
theorem canonical_base (u : UnitSystem α) {name : String}
    (unit : name ∈ ["m", "B", "day", "h"]) : u.Canonical name := by
  have each : ∀ name ∈ ["m", "B", "day", "h"],
      ∃ outline ∈ catalogueOutlines, outline.1 = name := by
    decide +kernel
  obtain ⟨⟨_, dimension, affine⟩, listed, rfl⟩ := each name unit
  obtain ⟨definition, holds, rfl, _⟩ := holds_catalogue u listed
  exact .plain holds

/-- What a rate is a rate of has a name of its own. -/
theorem canonical_of_rateUnits {u : UnitSystem α} (named : u.Named) {spec : String}
    {numerator denominator : String} (read : u.rateUnits spec = .ok (numerator, denominator)) :
    u.Canonical numerator := by
  unfold rateUnits at read
  split at read
  · obtain ⟨r, found, read⟩ := bind_eq_ok.1 read
    obtain ⟨rfl, rfl⟩ := Prod.mk.inj (Except.ok.inj read)
    exact .plain (sided_of_ratio named found).1.holds
  · rename_i whole
    obtain ⟨signature, found, read⟩ := bind_eq_ok.1 read
    rw [UnitSystem.signature, if_neg whole] at found
    obtain ⟨definition, _, found⟩ := bind_eq_ok.1 found
    obtain rfl := Except.ok.inj found
    refine canonical_base u ?_
    generalize definition.dimension = dimension at read
    cases dimension with
    | speed =>
      obtain ⟨rfl, rfl⟩ := Prod.mk.inj (Except.ok.inj read)
      decide
    | dataRate =>
      obtain ⟨rfl, rfl⟩ := Prod.mk.inj (Except.ok.inj read)
      decide
    | _ => cases read

/-! Adding a unit. -/

theorem plain_of_isUnitWord {name : String} (word : isUnitWord (trim name) = true) :
    IsPlain (trim name) where
  nonempty := by
    intro empty
    rw [empty] at word
    contradiction
  trimmed := trim_idem name
  whole := by
    unfold isUnitWord at word
    split at word
    · contradiction
    · rename_i c rest letters
      simp only [Bool.and_eq_true, List.all_eq_true] at word
      simp only [isRatioName, mentions, letters, List.contains_eq_mem, decide_eq_false_iff_not]
      intro slash
      simpa using word.2 _ slash

/-- Everything that adding a unit asks for and does. -/
theorem define_cases {u later : UnitSystem α} {name base : String} {scale : α}
    (defined : u.define name scale base = .ok later) :
    IsPlain (trim name) ∧ (Amount.isFinite scale = true ∧ Amount.isPositive scale = true) ∧
      u.find? (trim name) = none ∧ ∃ unit, u.resolve base = .ok unit ∧
        unit.conversion.isAffine = false ∧ later =
          ⟨u.custom.insert [trim name] unit.dimension (.linear (scale * unit.conversion.factor))⟩ := by
  unfold define at defined
  dsimp only at defined
  obtain ⟨word, defined⟩ := guarded_eq_ok.1 defined
  obtain ⟨proper, defined⟩ := guarded_eq_ok.1 defined
  obtain ⟨unknown, defined⟩ := guarded_eq_ok.1 defined
  obtain ⟨unit, found, defined⟩ := bind_eq_ok.1 defined
  obtain ⟨linear, defined⟩ := guarded_eq_ok.1 defined
  exact ⟨plain_of_isUnitWord (by simpa using word), by simpa using proper, by simpa using unknown,
    unit, found, by simpa using linear, (Except.ok.inj defined).symm⟩

theorem find?_eq_none {u : UnitSystem α} {name : String} (unknown : u.find? name = none) :
    (catalogue : Registry α).lookup? name = none ∧ u.custom.lookup? name = none :=
  Option.or_eq_none_iff.1 unknown

theorem named_define {u later : UnitSystem α} (named : u.Named) {name base : String} {scale : α}
    (defined : u.define name scale base = .ok later) : later.Named := by
  obtain ⟨plain, _, unknown, unit, _, _, rfl⟩ := define_cases defined
  obtain ⟨apart, new⟩ := find?_eq_none unknown
  constructor
  · have fresh := (Option.or_eq_none_iff.1 (Registry.position?_eq_none named.custom new)).1
    exact Registry.named_insert named.custom [] _ _ fresh plain
  · intro definition member
    rcases List.mem_append.1 member with earlier | last
    · exact named.apart definition earlier
    · rw [List.mem_singleton.1 last]
      exact apart

theorem find?_define {u later : UnitSystem α} (named : u.Named) {name base : String} {scale : α}
    (defined : u.define name scale base = .ok later) {other : String} {definition : Definition α}
    (found : u.find? other = some definition) : later.find? other = some definition := by
  obtain ⟨_, _, unknown, unit, _, _, rfl⟩ := define_cases defined
  have new := (find?_eq_none unknown).2
  rcases Option.or_eq_some_iff.1 found with known | ⟨missing, added⟩
  · rw [find?, known, Option.some_or]
  · rw [find?, missing, Option.none_or]
    exact Registry.lookup?_insert_of_some named.custom _ _ new added

theorem canonical_define {u later : UnitSystem α} (named : u.Named) {name base : String} {scale : α}
    (defined : u.define name scale base = .ok later) {other : String}
    (canonical : u.Canonical other) : later.Canonical other := by
  have holds {definition : Definition α} (holds : u.Holds definition) : later.Holds definition :=
    ⟨find?_define named defined holds.own, holds.plain⟩
  have sided {definition : Definition α} (sided : u.Sided definition) : later.Sided definition :=
    ⟨holds sided.holds, sided.linear, sided.noRate⟩
  cases canonical with
  | plain known => exact .plain (holds known)
  | ratio above below => exact .ratio (sided above) (sided below)

/-- Unit systems that come about from the standard one by adding units. In between all added units
    may be forgotten. -/
inductive Reached : UnitSystem α → Prop where
  | standard : Reached .standard
  | define {u later : UnitSystem α} {name base : String} {scale : α} (reached : Reached u)
      (defined : u.define name scale base = .ok later) : Reached later
  | clear {u : UnitSystem α} (reached : Reached u) : Reached u.clear

theorem named_of_reached {u : UnitSystem α} (reached : u.Reached) : u.Named := by
  induction reached with
  | standard => exact named_standard
  | define _ defined ih => exact named_define ih defined
  | clear _ _ => exact named_standard

section
variable {P : Definition α → Prop} (known : ∀ unit ∈ (catalogue : Registry α).definitions, P unit)
include known

theorem find?_induction {u : UnitSystem α} (custom : ∀ unit ∈ u.custom.definitions, P unit)
    {name : String} {unit : Definition α} (found : u.find? name = some unit) : P unit := by
  rcases Option.or_eq_some_iff.1 found with listed | ⟨_, held⟩
  · exact known unit (Registry.mem_of_lookup? listed)
  · exact custom unit (Registry.mem_of_lookup? held)

variable (added : ∀ source, P source → source.conversion.isAffine = false → ∀ name scale,
  Amount.isFinite scale = true ∧ Amount.isPositive scale = true →
    P ⟨name, source.dimension, .linear (scale * source.conversion.factor)⟩)
include added

theorem custom_induction {u : UnitSystem α} (reached : u.Reached) :
    ∀ unit ∈ u.custom.definitions, P unit := by
  induction reached with
  | standard => simp [standard, Registry.empty]
  | clear _ _ => simp [clear, standard, Registry.empty]
  | define _ defined ih =>
    obtain ⟨_, proper, _, source, found, linear, rfl⟩ := define_cases defined
    intro unit member
    rcases List.mem_append.1 member with earlier | last
    · exact ih unit earlier
    · rw [List.mem_singleton.1 last]
      exact added source (find?_induction known ih (resolve_iff.1 found)) linear _ _ proper

/-- Every unit has what the catalogue has and what a unit takes over from the one that it is added
    on top of. -/
theorem resolve_induction {u : UnitSystem α} (reached : u.Reached) {name : String}
    {unit : Definition α} (resolved : u.resolve name = .ok unit) : P unit :=
  find?_induction known (custom_induction known added reached) (resolve_iff.1 resolved)

end

end UnitSystem

end Measurement

end NotepadCalculator
