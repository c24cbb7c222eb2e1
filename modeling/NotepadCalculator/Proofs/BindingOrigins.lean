import NotepadCalculator.Proofs.FailedLines

/-!
Where bindings come from. Evaluation binds a name, the sheet notes which line has assigned it, and
the line is kept: three stores, written at different times. They never come apart. A name is bound
exactly if a line has assigned it and has a value, and it is bound to what the last such line gave,
which is the line that is noted for it.
-/
namespace NotepadCalculator
open Calendar Money

namespace Line

def assignment? (line : Line) (name : String) : Option (Value Float) :=
  match line.expr with
  | .assign other _ => if other = name then line.value else none
  | _ => none

structure Assigns (line : Line) (name : String) : Prop where
  target : ∃ e, line.expr = .assign name e
  valued : line.value.isSome = true

theorem assignment?_eq_some {line : Line} {name : String} {value : Value Float} :
    line.assignment? name = some value ↔ line.Assigns name ∧ line.value = some value := by
  constructor
  · intro assigned
    unfold assignment? at assigned
    split at assigned
    · rename_i other e expr
      split at assigned
      · rename_i same
        subst same
        exact ⟨⟨⟨e, expr⟩, by simp [assigned]⟩, assigned⟩
      · contradiction
    · contradiction
  · rintro ⟨⟨⟨e, expr⟩, _⟩, valued⟩
    simp [assignment?, expr, valued]

theorem assignment?_of_valueless {line : Line} (valueless : line.value = none) (name : String) :
    line.assignment? name = none := by
  unfold assignment?
  split
  · simp [valueless]
  · rfl

theorem assigns_iff {line : Line} {name : String} :
    line.Assigns name ↔ (line.assignment? name).isSome = true := by
  rw [Option.isSome_iff_exists]
  simp only [assignment?_eq_some]
  constructor
  · intro assigns
    obtain ⟨value, valued⟩ := Option.isSome_iff_exists.1 assigns.valued
    exact ⟨value, assigns, valued⟩
  · rintro ⟨_, assigns, _⟩
    exact assigns

end Line

/-- The last line that has given a value to the name, with that value. -/
def lastAssignment? (lines : List Line) (name : String) : Option (Nat × Value Float) :=
  lines.reverse.findSome? fun line => (line.assignment? name).map (line.id, ·)

theorem lastAssignment?_append (lines : List Line) (line : Line) (name : String) :
    lastAssignment? (lines ++ [line]) name =
      ((line.assignment? name).map (line.id, ·)).or (lastAssignment? lines name) := by
  simp only [lastAssignment?, List.reverse_append, List.reverse_singleton, List.singleton_append,
    List.findSome?_cons]
  cases line.assignment? name <;> rfl

theorem lastAssignment?_eq_some {lines : List Line} {name : String} {id : Nat}
    {value : Value Float} (found : lastAssignment? lines name = some (id, value)) :
    ∃ before line after, lines = before ++ line :: after ∧ line.Assigns name ∧
      (∀ later ∈ after, ¬later.Assigns name) ∧ line.value = some value ∧ line.id = id := by
  obtain ⟨after, line, before, split, given, none⟩ := List.findSome?_eq_some_iff.1 found
  obtain ⟨_, assigned, same⟩ := Option.map_eq_some_iff.1 given
  obtain ⟨rfl, rfl⟩ := Prod.mk.inj same
  obtain ⟨assigns, valued⟩ := Line.assignment?_eq_some.1 assigned
  refine ⟨before.reverse, line, after.reverse, ?_, assigns, ?_, valued, rfl⟩
  · rw [← List.reverse_reverse lines, split]
    simp
  · intro later member
    have silent := Option.map_eq_none_iff.1 (none later (List.mem_reverse.1 member))
    simp [Line.assigns_iff, silent]

theorem lastAssignment?_isSome {lines : List Line} {name : String} :
    (lastAssignment? lines name).isSome = true ↔ ∃ line ∈ lines, line.Assigns name := by
  simp only [lastAssignment?, List.findSome?_isSome_iff, List.mem_reverse, Option.isSome_map,
    Line.assigns_iff]

namespace Sheet

/-- What is bound, and which line is noted for it, are what the lines say. -/
structure Traced (s : Sheet) : Prop where
  bound : ∀ name, s.bindings.get? name = (lastAssignment? s.lines name).map (·.2)
  noted : ∀ name, s.assignedIn.get? name = (lastAssignment? s.lines name).map (·.1)

theorem traced_new (settings : Settings) (rates : Rates Float) (now : Moment) :
    Traced (.new settings rates now) where
  bound _ := rfl
  noted _ := rfl

theorem traced_congr {s later : Sheet} (traced : Traced s) (lines : later.lines = s.lines)
    (bindings : later.bindings = s.bindings) (assigned : later.assignedIn = s.assignedIn) :
    Traced later where
  bound := by rw [lines, bindings]; exact traced.bound
  noted := by rw [lines, assigned]; exact traced.noted

/-- A line that has assigned nothing may be kept as it is. -/
theorem traced_keep {s later : Sheet} (traced : Traced s) {line : Line}
    (lines : later.lines = s.lines ++ [line]) (silent : ∀ name, line.assignment? name = none)
    (bindings : later.bindings = s.bindings) (assigned : later.assignedIn = s.assignedIn) :
    Traced later := by
  constructor
  · intro name
    rw [lines, bindings, lastAssignment?_append, silent, Option.map_none, Option.none_or]
    exact traced.bound name
  · intro name
    rw [lines, assigned, lastAssignment?_append, silent, Option.map_none, Option.none_or]
    exact traced.noted name

theorem traced_assign {s later : Sheet} (traced : Traced s) {line : Line} {name : String}
    {value : Value Float} (lines : later.lines = s.lines ++ [line])
    (given : ∀ other, line.assignment? other = if name = other then some value else none)
    (bindings : later.bindings = s.bindings.set name value)
    (assigned : later.assignedIn = s.assignedIn.set name line.id) : Traced later := by
  constructor
  · intro other
    rw [lines, bindings, lastAssignment?_append, given, Bindings.get?_set]
    by_cases same : name = other
    · simp [same]
    · simp [same, Ne.symm same, traced.bound]
  · intro other
    rw [lines, assigned, lastAssignment?_append, given, Bindings.get?_set]
    by_cases same : name = other
    · simp [same]
    · simp [same, Ne.symm same, traced.noted]

theorem traced_record {s : Sheet} (traced : Traced s) {input : String} {e : Expr Float}
    (parsed : parseLine s.settings.fuzzy input = .ok e) : Traced (s.record input e).2 := by
  have bindings : (s.record input e).2.bindings =
      Surroundings.boundAfter s.bindings e (s.surroundings.run s.bindings e).1 :=
    s.surroundings.run_bindings (Grammar.parse_assigns_at_root parsed) s.bindings
  have assigned : (s.record input e).2.assignedIn =
      s.noteAssignment e (s.surroundings.run s.bindings e).1 := rfl
  obtain ⟨line, lines, id, expr, valued⟩ : ∃ line : Line,
      (s.record input e).2.lines = s.lines ++ [line] ∧ line.id = s.nextLine ∧ line.expr = e ∧
        line.value = (s.surroundings.run s.bindings e).1.toOption := ⟨_, rfl, rfl, rfl, rfl⟩
  generalize (s.surroundings.run s.bindings e).1 = answer at bindings assigned valued
  -- The answer and the expression decide alike what is bound and what is noted.
  cases answer with
  | error error =>
    refine traced_keep traced lines ?_ bindings assigned
    exact Line.assignment?_of_valueless valued
  | ok value =>
    cases e with
    | assign name body =>
      refine traced_assign traced lines ?_ bindings (id ▸ assigned)
      intro other
      rw [Line.assignment?, expr, valued]
      rfl
    | _ =>
      refine traced_keep traced lines ?_ bindings assigned
      intro name
      rw [Line.assignment?, expr]

theorem traced_enter {s : Sheet} (traced : Traced s) (input : String) :
    Traced (s.enter input).2 := by
  have entry := enter_entry s input
  generalize s.enter input = reply at entry ⊢
  cases entry with
  | unread parsed => exact traced
  | blank parsed => exact traced
  | refused error parsed => exact traced
  | obeyed parsed taken applied =>
    rcases apply_cases applied with ⟨_, cleared⟩ | ⟨settings, units, changed⟩
    · rw [cleared, clear_eq_new]
      exact traced_new s.settings s.rates s.now
    · exact traced_congr traced (by rw [changed]) (by rw [changed]) (by rw [changed])
  | kept parsed kept => exact traced_record traced parsed

theorem traced_of_reached {s : Sheet} (reached : Reached s) : Traced s := by
  induction reached with
  | new settings rates now => exact traced_new settings rates now
  | enter input _ ih => exact traced_enter ih input
  | @clear s _ _ => exact clear_eq_new s ▸ traced_new s.settings s.rates s.now
  | settings settings _ ih => exact traced_congr ih rfl rfl rfl
  | now now _ ih => exact traced_congr ih rfl rfl rfl

/-- However a sheet has come about, a name is bound exactly if a line has assigned it and has a
    value, and these are the names that a line is noted for. The value is that of the last such
    line, and this is the line that is noted. -/
theorem bindings_of_reached {s : Sheet} (reached : Reached s) (name : String) :
    ((s.bindings.get? name).isSome = true ↔ ∃ line ∈ s.lines, line.Assigns name) ∧
      ((s.assignedIn.get? name).isSome = true ↔ (s.bindings.get? name).isSome = true) ∧
      ∀ value, s.bindings.get? name = some value →
        ∃ before line after, s.lines = before ++ line :: after ∧ line.Assigns name ∧
          (∀ later ∈ after, ¬later.Assigns name) ∧ line.value = some value ∧
          s.assignedIn.get? name = some line.id := by
  have traced := traced_of_reached reached
  constructor
  · rw [traced.bound, Option.isSome_map, lastAssignment?_isSome]
  constructor
  · rw [traced.bound, traced.noted, Option.isSome_map, Option.isSome_map]
  · intro value bound
    rw [traced.bound] at bound
    obtain ⟨⟨id, _⟩, found, rfl⟩ := Option.map_eq_some_iff.1 bound
    obtain ⟨before, line, after, split, assigns, silent, valued, rfl⟩ :=
      lastAssignment?_eq_some found
    refine ⟨before, line, after, split, assigns, silent, valued, ?_⟩
    rw [traced.noted, found, Option.map_some]

def reassigned : Sheet :=
  ((((fresh.enter "x = 1").2.enter ":quiet").2.enter "x = 2").2.enter "x = x / 0").2

theorem bindings_of_reassigned :
    Reached reassigned ∧ reassigned.lines.length = 3 ∧
      reassigned.bindings.get? "x" = some (.number 2) ∧
      ∃ before line after, reassigned.lines = before ++ line :: after ∧ line.Assigns "x" ∧
        (∀ later ∈ after, ¬later.Assigns "x") ∧ line.value = some (.number 2) ∧
        reassigned.assignedIn.get? "x" = some line.id := by
  have reached : Reached reassigned := .enter _ (.enter _ (.enter _ (.enter _ (.new _ _ _))))
  have length : reassigned.lines.length = 3 := by decide +kernel
  have bound : reassigned.bindings.get? "x" = some (.number 2) := by decide +kernel
  exact ⟨reached, length, bound, (bindings_of_reached reached "x").2.2 _ bound⟩

end Sheet

end NotepadCalculator
