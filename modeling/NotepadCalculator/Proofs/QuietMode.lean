import NotepadCalculator.Proofs.SheetRuns

/-!
What quiet mode hides. No evaluation looks at the quiet flag or at what has been shown before, so a
sheet and the same sheet without these two go on alike, line by line; only the outcome of an
assignment that prints nothing is replaced by silence.
-/
namespace NotepadCalculator
open Calendar Measurement Money Number

def Expr.isPrintCall : Expr Float → Bool
  | .call name _ => Text.lowerAscii name = "print"
  | _ => false

theorem Function.builtin_eq_print_iff :
    ∀ f ∈ Function.all, f.builtin = .print ↔ f.name = "print" := by decide

theorem Function.find?_all_ne_print (name : String) :
    (find? name).all (·.builtin ≠ .print) = !decide (Text.lowerAscii name = "print") := by
  unfold find?
  dsimp only
  cases found : Function.all.find? (·.name = Text.lowerAscii name) with
  | none =>
    have absent := List.find?_eq_none.1 found ⟨.print, "print", 1, some 1⟩ (by decide)
    have other : Text.lowerAscii name ≠ "print" := fun same => absent (by simp [same])
    simp [other]
  | some f =>
    have named : f.name = Text.lowerAscii name := by simpa using List.find?_some found
    have prints := Function.builtin_eq_print_iff f (List.mem_of_find?_eq_some found)
    rw [named] at prints
    simp [prints]

theorem Expr.isQuietAssignment_assign (name : String) (value : Expr Float) :
    (Expr.assign name value).isQuietAssignment = !value.isPrintCall := by
  cases value with
  | call function arguments => exact Function.find?_all_ne_print function
  | _ => rfl

def Outcome.hush : Outcome → Outcome
  | .success _ => .silent
  | outcome => outcome

def Line.bare (line : Line) : Line := { line with outcome := .silent }

def Command.turnsQuiet : Command → Bool
  | .toggleQuiet => true
  | .setQuiet _ => true
  | _ => false

namespace Sheet

def withQuiet (s : Sheet) (on : Bool) : Sheet := { s with settings.quiet := on }

def bare (s : Sheet) : Sheet := { s.withQuiet false with lines := s.lines.map Line.bare }

def assignsUnprinted (fuzzy : Bool) (input : String) : Bool :=
  match parseLine fuzzy input with
  | .ok (.assign _ value) => !value.isPrintCall
  | _ => false

@[simp] theorem bare_nextLine (s : Sheet) : s.bare.nextLine = s.nextLine := by
  simp [nextLine, bare]

@[simp] theorem bare_surroundings (s : Sheet) : s.bare.surroundings = s.surroundings := by
  simp [surroundings, nextLine, bare, withQuiet, Line.bare, Function.comp_def]

theorem bare_bare (s : Sheet) : s.bare.bare = s.bare := by
  simp [bare, withQuiet, Line.bare, Function.comp_def]

theorem bare_apply (s : Sheet) (command : Command) :
    (s.bare.apply command).map bare = (s.apply command).map bare := by
  have lines : (s.lines.map Line.bare).map Line.bare = s.lines.map Line.bare :=
    congrArg Sheet.lines (bare_bare s)
  cases command with
  | clear => rfl
  | defineUnit name scale base =>
    have units : s.bare.units = s.units := rfl
    simp only [apply, units]
    cases measured (s.units.define name scale base) with
    | error error => rfl
    | ok units => simp [bind, Except.bind, pure, Except.pure, Except.map, bare, withQuiet, lines]
  | _ => simp [apply, Except.map, bare, withQuiet, lines]

theorem bare_command (s : Sheet) (name : String) (arguments : List String) :
    (s.bare.command name arguments).1 = (s.command name arguments).1 ∧
      (s.bare.command name arguments).2.bare = (s.command name arguments).2.bare := by
  unfold command
  cases Command.read name arguments with
  | error error => exact ⟨rfl, bare_bare s⟩
  | ok command =>
    have applied := bare_apply s command
    simp only [Except.bind]
    cases later : s.apply command <;> cases laterBare : s.bare.apply command <;>
      simp_all [Except.map, bare_bare]

theorem bare_record (s : Sheet) (input : String) (e : Expr Float) :
    (s.bare.record input e).2.bare = (s.record input e).2.bare := by
  have lines : (s.lines.map Line.bare).map Line.bare = s.lines.map Line.bare :=
    congrArg Sheet.lines (bare_bare s)
  simp only [record, bare_surroundings, noteAssignment, dependencies, bare_nextLine]
  simp only [bare, withQuiet, List.map_append, lines]
  rfl

/-- A sheet goes on like the bare one. -/
theorem bare_enter (s : Sheet) (input : String) :
    (s.bare.enter input).2.bare = (s.enter input).2.bare := by
  unfold enter
  have fuzzy : s.bare.settings.fuzzy = s.settings.fuzzy := rfl
  rw [fuzzy]
  split
  · exact bare_bare s
  · exact bare_bare s
  · exact (bare_command s _ _).2
  · exact bare_record s input _

theorem outcome_bare (s : Sheet) (e : Expr Float) (answer : Answer (Value Float)) :
    s.outcome e answer = if s.settings.quiet && e.isQuietAssignment then
      (s.bare.outcome e answer).hush else s.bare.outcome e answer := by
  cases answer with
  | error error => simp [outcome, Outcome.hush]
  | ok value => simp [outcome, Outcome.hush, bare, withQuiet]

theorem record_outcome (s : Sheet) (input : String) (e : Expr Float) :
    (s.record input e).1 = if s.settings.quiet && e.isQuietAssignment then
      (s.bare.record input e).1.hush else (s.bare.record input e).1 := by
  simp only [record, bare_surroundings]
  exact outcome_bare s e _

theorem assignsUnprinted_of_parsed {fuzzy : Bool} {input : String} {e : Expr Float}
    (parsed : parseLine fuzzy input = .ok e) :
    assignsUnprinted fuzzy input = e.isQuietAssignment := by
  unfold assignsUnprinted
  rw [parsed]
  cases e with
  | assign name value => exact (Expr.isQuietAssignment_assign name value).symm
  | _ => rfl

/-- What there is to be shown differs from that of the bare sheet in silence about assignments. -/
theorem enter_outcome (s : Sheet) (input : String) :
    (s.enter input).1 = if s.settings.quiet && assignsUnprinted s.settings.fuzzy input then
      (s.bare.enter input).1.hush else (s.bare.enter input).1 := by
  unfold enter
  have fuzzy : s.bare.settings.fuzzy = s.settings.fuzzy := rfl
  rw [fuzzy]
  cases parsed : parseLine s.settings.fuzzy input with
  | error error => simp [assignsUnprinted, parsed]
  | ok e =>
    rw [assignsUnprinted_of_parsed parsed]
    cases e with
    | blank => simp [Expr.isQuietAssignment]
    | command name arguments => simp [Expr.isQuietAssignment, (bare_command s name arguments).1]
    | _ => exact record_outcome s input _

theorem enter_quiet {s : Sheet} {input : String}
    (steady : ∀ command, commandOf? input = some command → command.turnsQuiet = false) :
    (s.enter input).2.settings.quiet = s.settings.quiet := by
  rcases enter_settings s input with same | ⟨command, given, settled⟩
  · rw [same]
  · have still := steady command given
    rw [settled]
    cases command <;> first | rfl | contradiction

/-- Quiet and loud, with the same to say. -/
structure Muted (quiet loud : Sheet) : Prop where
  on : quiet.settings.quiet = true
  off : loud.settings.quiet = false
  same : quiet.bare = loud.bare

theorem muted_enterAt {quiet loud : Sheet} (muted : Muted quiet loud) {entry : Moment × String}
    (steady : ∀ command, commandOf? entry.2 = some command → command.turnsQuiet = false) :
    Muted (quiet.enterAt entry).2 (loud.enterAt entry).2 where
  on := (enter_quiet steady).trans muted.on
  off := (enter_quiet steady).trans muted.off
  same := by
    have same :
        Sheet.bare { quiet with now := entry.1 } = Sheet.bare { loud with now := entry.1 } :=
      congrArg (fun s : Sheet => { s with now := entry.1 }) muted.same
    have step := bare_enter { quiet with now := entry.1 } entry.2
    rw [same] at step
    exact step.symm.trans (bare_enter { loud with now := entry.1 } entry.2)

theorem muted_outcome {quiet loud : Sheet} (muted : Muted quiet loud) (entry : Moment × String) :
    (quiet.enterAt entry).1 = if assignsUnprinted loud.settings.fuzzy entry.2 then
      (loud.enterAt entry).1.hush else (loud.enterAt entry).1 := by
  have same : Sheet.bare { quiet with now := entry.1 } = Sheet.bare { loud with now := entry.1 } :=
    congrArg (fun s : Sheet => { s with now := entry.1 }) muted.same
  have fuzzy : quiet.settings.fuzzy = loud.settings.fuzzy :=
    congrArg (·.settings.fuzzy) muted.same
  have hidden := enter_outcome { quiet with now := entry.1 } entry.2
  have shown := enter_outcome { loud with now := entry.1 } entry.2
  simp only [muted.on, muted.off, fuzzy, same, Bool.true_and, Bool.false_and] at hidden shown
  rw [enterAt, hidden, enterAt, shown]
  rfl

/-- Quiet mode only hides. A sheet goes through the same run in quiet mode as out of it: variables,
    units, graph and what is kept of each line are the same whatever lines have been entered, if
    none of them has turned quiet mode on or off. The next line then has the same outcome, except
    that the success of an assignment that prints nothing is not shown in quiet mode. -/
theorem quiet_only_hides (s : Sheet) (entries : List (Moment × String))
    (steady : ∀ entry ∈ entries, ∀ command,
      commandOf? entry.2 = some command → command.turnsQuiet = false) :
    let quiet := (s.withQuiet true).after entries
    let loud := (s.withQuiet false).after entries
    quiet.bindings = loud.bindings ∧ quiet.units = loud.units ∧ quiet.graph = loud.graph ∧
      quiet.lines.map (fun line => (line.id, line.input, line.expr, line.value)) =
        loud.lines.map (fun line => (line.id, line.input, line.expr, line.value)) ∧
      ∀ entry, (quiet.enterAt entry).1 =
        if assignsUnprinted loud.settings.fuzzy entry.2 then (loud.enterAt entry).1.hush
        else (loud.enterAt entry).1 := by
  have start : Muted (s.withQuiet true) (s.withQuiet false) := ⟨rfl, rfl, rfl⟩
  have muted : Muted ((s.withQuiet true).after entries) ((s.withQuiet false).after entries) :=
    after_keeps (R := Muted)
      (fun entry member _ _ muted => muted_enterAt muted (steady entry member)) start
  have lines := congrArg Sheet.lines muted.same
  have kept := congrArg (List.map fun line : Line => (line.id, line.input, line.expr, line.value))
    lines
  refine ⟨congrArg (·.bindings) muted.same, congrArg (·.units) muted.same,
    congrArg (·.graph) muted.same, ?_, muted_outcome muted⟩
  simpa [bare, Line.bare, Function.comp_def] using kept

theorem quiet_only_hides_assignment :
    let now : Moment := Day.midnight ⟨0, by decide, by decide⟩
    let entries := [(now, "x = 2"), (now, "x / 0"), (now, ":set precision 1")]
    let quiet := (fresh.withQuiet true).after entries
    let loud := (fresh.withQuiet false).after entries
    quiet.bindings = loud.bindings ∧
      (loud.enterAt (now, "y = x + prev~1")).1 = .success (.number 4) ∧
      (quiet.enterAt (now, "y = x + prev~1")).1 = .silent ∧
      (quiet.enterAt (now, "y = PRINT(x)")).1 = .success (.text "2.0") := by
  intro now entries quiet loud
  obtain ⟨bindings, _, _, _, outcomes⟩ := quiet_only_hides fresh entries (by decide +kernel)
  have shown : (loud.enterAt (now, "y = x + prev~1")).1 = .success (.number 4) := by decide +kernel
  have printed : (loud.enterAt (now, "y = PRINT(x)")).1 = .success (.text "2.0") := by
    decide +kernel
  refine ⟨bindings, shown, ?_, ?_⟩
  · rw [outcomes, shown]
    decide +kernel
  · rw [outcomes, printed]
    decide +kernel

end Sheet

end NotepadCalculator
