import Mathlib.Data.List.DropRight
import NotepadCalculator.Measurement.Registry

/-!
Look-up in a registry beside a search through its units. Whatever has been added and forgotten, the
two indexes find what a search in the order of adding finds: the first unit with that very alias, or
else the first with one that is the same in lower case.
-/
namespace NotepadCalculator.Measurement
open Text

variable {α : Type}

inductive Edit (α : Type) where
  | insert (aliases : List String) (dimension : Dimension) (conversion : Conversion α)
  | clear
  deriving DecidableEq, Repr

/-- A unit with all its aliases, of which the first is its name. -/
structure Entry (α : Type) where
  name : String
  others : List String
  dimension : Dimension
  conversion : Conversion α
  deriving DecidableEq, Repr

namespace Entry

def aliases (e : Entry α) : List String := e.name :: e.others

def definition (e : Entry α) : Definition α := ⟨e.name, e.dimension, e.conversion⟩

def isSpelled (name : String) (e : Entry α) : Bool := e.aliases.any (· = name)

def isFolded (name : String) (e : Entry α) : Bool :=
  e.aliases.any fun other => lowercase other = lowercase name

end Entry

namespace Edit

def isClear : Edit α → Bool
  | .insert _ _ _ => false
  | .clear => true

/-- What is added, which is nothing without an alias. -/
def added? : Edit α → Option (Entry α)
  | .insert (name :: others) dimension conversion => some ⟨name, others, dimension, conversion⟩
  | _ => none

end Edit

/-- What has been added since everything was forgotten last, in this order. -/
def entries (edits : List (Edit α)) : List (Entry α) :=
  (edits.rtakeWhile fun edit => !edit.isClear).filterMap Edit.added?

/-- A search from the first entry to the last, for the spelling and then in lower case. -/
def search (units : List (Entry α)) (name : String) : Option (Entry α) :=
  (units.find? (·.isSpelled name)).or (units.find? (·.isFolded name))

namespace Registry

def edit (r : Registry α) : Edit α → Registry α
  | .insert aliases dimension conversion => r.insert aliases dimension conversion
  | .clear => r.clear

def edited (edits : List (Edit α)) : Registry α := edits.foldl edit empty

structure Indexes (r : Registry α) (units : List (Entry α)) : Prop where
  definitions : r.definitions = units.map Entry.definition
  exact : ∀ name, r.exact.lookup name = units.findIdx? (·.isSpelled name)
  folded : ∀ name, r.folded.lookup (lowercase name) = units.findIdx? (·.isFolded name)

theorem indexes_empty : (empty : Registry α).Indexes [] where
  definitions := rfl
  exact _ := rfl
  folded _ := rfl

theorem lookup_aliases (key : String) (spelled : String → String) (aliases : List String)
    (position : Nat) :
    (aliases.map fun other => (spelled other, position)).lookup key =
      if aliases.any (spelled · = key) then some position else none := by
  induction aliases with
  | nil => rfl
  | cons other rest ih =>
    rw [List.map_cons, List.lookup_cons, ih, List.any_cons]
    by_cases same : spelled other = key
    · simp [same]
    · simp [same, beq_eq_false_iff_ne.2 (Ne.symm same)]

theorem findIdx?_concat (units : List (Entry α)) (unit : Entry α) (p : Entry α → Bool) :
    (units ++ [unit]).findIdx? p =
      (units.findIdx? p).or (if p unit then some units.length else none) := by
  rw [List.findIdx?_append]
  by_cases holds : p unit = true
  · simp [holds]
  · simp [holds]

theorem indexes_insert {r : Registry α} {units : List (Entry α)} (indexes : r.Indexes units)
    (unit : Entry α) :
    (r.insert unit.aliases unit.dimension unit.conversion).Indexes (units ++ [unit]) := by
  have position : r.definitions.length = units.length := by
    rw [indexes.definitions, List.length_map]
  constructor
  · rw [List.map_append, ← indexes.definitions]
    rfl
  · intro name
    show (r.exact ++ _).lookup name = _
    rw [List.lookup_append, indexes.exact, findIdx?_concat, position]
    exact congrArg _ (lookup_aliases name id unit.aliases units.length)
  · intro name
    show (r.folded ++ _).lookup (lowercase name) = _
    rw [List.lookup_append, indexes.folded, findIdx?_concat, position]
    exact congrArg _ (lookup_aliases (lowercase name) lowercase unit.aliases units.length)

theorem entries_clear (edits : List (Edit α)) : entries (edits ++ [.clear]) = [] := by
  rw [entries, List.rtakeWhile_concat]
  rfl

theorem entries_insert (edits : List (Edit α)) (aliases : List String) (dimension : Dimension)
    (conversion : Conversion α) : entries (edits ++ [.insert aliases dimension conversion]) =
      entries edits ++ (Edit.insert aliases dimension conversion).added?.toList := by
  rw [entries, List.rtakeWhile_concat, if_pos (by rfl), List.filterMap_append]
  cases aliases with
  | nil => rfl
  | cons name others => rfl

/-- One edit, and what has been added after it. -/
theorem indexes_edit {r : Registry α} {edits : List (Edit α)} (indexes : r.Indexes (entries edits))
    (next : Edit α) : (r.edit next).Indexes (entries (edits ++ [next])) := by
  cases next with
  | clear =>
    rw [entries_clear]
    exact indexes_empty
  | insert aliases dimension conversion =>
    rw [entries_insert]
    cases aliases with
    | nil =>
      rw [Edit.added?, Option.toList_none, List.append_nil]
      · exact indexes
      · simp
    | cons name others => exact indexes_insert indexes ⟨name, others, dimension, conversion⟩

theorem indexes_edited (edits : List (Edit α)) : (edited edits).Indexes (entries edits) := by
  -- What is there now depends on the last edit first, so the induction takes this one off.
  induction edits using List.reverseRecOn with
  | nil => exact indexes_empty
  | append_singleton edits next ih =>
    rw [edited, List.foldl_append]
    exact indexes_edit ih next

theorem position?_of_indexes {r : Registry α} {units : List (Entry α)} (indexes : r.Indexes units)
    (name : String) : r.position? name =
      (units.findIdx? (·.isSpelled name)).or (units.findIdx? (·.isFolded name)) := by
  rw [position?, indexes.exact, indexes.folded]

theorem lookup?_of_indexes {r : Registry α} {units : List (Entry α)} (indexes : r.Indexes units)
    (name : String) : r.lookup? name = (search units name).map Entry.definition := by
  have found {p : Entry α → Bool} {position : Nat} (first : units.findIdx? p = some position) :
      (units.map Entry.definition)[position]? = (units.find? p).map Entry.definition := by
    rw [List.find?_eq_bind_findIdx?_getElem?, first, Option.bind_some, List.getElem?_map]
  have missing {p : Entry α → Bool} (absent : units.findIdx? p = none) : units.find? p = none := by
    rw [List.find?_eq_bind_findIdx?_getElem?, absent, Option.bind_none]
  rw [lookup?, position?_of_indexes indexes, indexes.definitions, search, Option.map_or]
  cases spelled : units.findIdx? (·.isSpelled name) with
  | some position =>
    obtain ⟨bound, _⟩ := List.findIdx?_eq_some_iff_getElem.1 spelled
    rw [Option.some_or, Option.bind_some, ← found spelled, List.getElem?_map,
      List.getElem?_eq_getElem bound, Option.map_some, Option.some_or]
  | none =>
    rw [Option.none_or, missing spelled, Option.map_none, Option.none_or]
    cases folded : units.findIdx? (·.isFolded name) with
    | some position => rw [Option.bind_some, found folded]
    | none => rw [Option.bind_none, missing folded, Option.map_none]

theorem position?_lt_of_indexes {r : Registry α} {units : List (Entry α)}
    (indexes : r.Indexes units) {name : String} {position : Nat}
    (found : r.position? name = some position) : position < r.definitions.length := by
  rw [indexes.definitions, List.length_map]
  rw [position?_of_indexes indexes] at found
  rcases Option.or_eq_some_iff.1 found with spelled | ⟨_, folded⟩
  · exact (List.findIdx?_eq_some_iff_getElem.1 spelled).1
  · exact (List.findIdx?_eq_some_iff_getElem.1 folded).1

/-- After any edits a registry holds what has been added since everything was forgotten last. A name
    stands for the first unit that has it among its aliases, or else for the first that has it there
    in lower case, and no position that is looked up lies outside the registry. -/
theorem lookup?_edited (edits : List (Edit α)) (name : String) :
    (edited edits).lookup? name = (search (entries edits) name).map Entry.definition ∧
    (edited edits).definitions = (entries edits).map Entry.definition ∧
    ∀ position, (edited edits).position? name = some position →
      position < (edited edits).definitions.length := by
  have indexes := indexes_edited edits
  refine ⟨lookup?_of_indexes indexes name, indexes.definitions, ?_⟩
  intro position found
  exact position?_lt_of_indexes indexes found

/-- A spelling that is there goes before an earlier one in another case. -/
example :
    let r : Registry Nat := edited
      [.insert ["MB"] .digitalStorage (.linear 8), .insert ["Mb"] .digitalStorage (.linear 1)]
    ["Mb", "mb"].map (fun name => (r.lookup? name).map (·.name)) = [some "Mb", some "MB"] := by
  decide +kernel

end Registry

end NotepadCalculator.Measurement
