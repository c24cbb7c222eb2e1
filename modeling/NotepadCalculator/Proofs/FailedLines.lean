import NotepadCalculator.Proofs.GrammarTrees
import NotepadCalculator.Proofs.SheetHistory

/-!
What a failed line leaves behind. Only an assignment binds a name, it does so at the root of a tree
and last of all, so an evaluation that fails has bound nothing; a command is refused before it
changes anything. A line whose evaluation has failed is kept without a value.
-/
namespace NotepadCalculator
open Calendar Measurement Money Number Evaluation

variable {α : Type} [Amount α]

namespace Surroundings

theorem withLevels_bindings (s : Surroundings α) (levels : Nat) {e : Expr α}
    (free : e.AssignmentFree) (p : Progress α) :
    (runFrom (s.withLevels levels e) p).2.bindings = p.bindings := by
  have undisturbed : s.Undisturbed fun q => q.bindings = p.bindings :=
    ⟨fun _ _ _ _ same => same, fun _ _ _ _ same => same⟩
  exact keeps_withLevels undisturbed levels (.inl free) p rfl

def boundAfter (bindings : Bindings (Value α)) (e : Expr α) (answer : Answer (Value α)) :
    Bindings (Value α) :=
  match answer, e with
  | .ok value, .assign name _ => bindings.set name value
  | _, _ => bindings

theorem run_bindings (s : Surroundings α) {e : Expr α}
    (root : e.AssignmentFree ∨ ∃ name value, e = .assign name value ∧ value.AssignmentFree)
    (bindings : Bindings (Value α)) :
    (s.run bindings e).2.bindings = boundAfter bindings e (s.run bindings e).1 := by
  rcases root with free | ⟨name, value, rfl, free⟩
  · have kept : (s.run bindings e).2.bindings = bindings :=
      withLevels_bindings s nestingLimit free (.start bindings)
    rw [kept]
    unfold boundAfter
    split
    · have assignment := Expr.throughout_here free
      contradiction
    · rfl
  · have unfolded : s.run bindings (.assign name value) = runFrom
        (do let v ← s.withLevels (nestingLimit - 1) value; Evaluation.bind name v; return v)
        (.start bindings) := rfl
    have kept := withLevels_bindings s (nestingLimit - 1) free (.start bindings)
    rw [unfolded, runFrom_bind]
    cases run : runFrom (s.withLevels (nestingLimit - 1) value) (.start bindings) with
    | mk answer q =>
      rw [run] at kept
      cases answer with
      | error e => exact kept
      | ok v => exact congrArg (Bindings.set · name v) kept

theorem run_error_bindings (s : Surroundings α) {e : Expr α}
    (root : e.AssignmentFree ∨ ∃ name value, e = .assign name value ∧ value.AssignmentFree)
    {bindings : Bindings (Value α)} {error : EvalError}
    (failed : (s.run bindings e).1 = .error error) : (s.run bindings e).2.bindings = bindings := by
  rw [run_bindings s root, failed]
  rfl

end Surroundings

namespace Sheet

theorem outcome_eq_failure {s : Sheet} {e : Expr Float} {answer : Answer (Value Float)}
    {error : LineError} (failed : s.outcome e answer = .failure error) :
    ∃ cause, answer = .error cause ∧ error = .eval cause := by
  cases answer with
  | ok value =>
    simp only [outcome] at failed
    split at failed <;> simp at failed
  | error cause => exact ⟨cause, rfl, (Outcome.failure.inj failed).symm⟩

/-- A line that fails to be evaluated leaves everything but the history as it was. -/
theorem record_failure {s : Sheet} {input : String} {e : Expr Float}
    (parsed : parseLine s.settings.fuzzy input = .ok e) {error : LineError}
    (failed : (s.record input e).1 = .failure error) :
    ∃ read, (s.record input e).2 = { s with
      lines := s.lines ++ [⟨s.nextLine, input, e, .failure error, none⟩]
      graph := s.graph.add s.nextLine (Text.trim input) read } := by
  have outcome : s.outcome e (s.surroundings.run s.bindings e).1 = .failure error := failed
  obtain ⟨cause, answered, _⟩ := outcome_eq_failure outcome
  have kept := s.surroundings.run_error_bindings (Grammar.parse_assigns_at_root parsed) answered
  have assigned : s.noteAssignment e (s.surroundings.run s.bindings e).1 = s.assignedIn := by
    rw [answered]
    rfl
  have valueless : (s.surroundings.run s.bindings e).1.toOption = none := by
    rw [answered]
    rfl
  refine ⟨s.dependencies (s.surroundings.run s.bindings e).2, ?_⟩
  simp only [record, kept, assigned, outcome, valueless]

/-- A failure is all or nothing. Variables, units, settings and the record of assignments are what
    they were; lines and graph are too if the line could not be read or was a command, and
    otherwise they have gained the failed line, without a value. -/
theorem enter_failure {s : Sheet} (reached : Reached s) {input : String} {error : LineError}
    {later : Sheet} (failed : s.enter input = (.failure error, later)) :
    later.bindings = s.bindings ∧ later.units = s.units ∧ later.settings = s.settings ∧
      later.assignedIn = s.assignedIn ∧
      match parseLine s.settings.fuzzy input with
      | .error _ => later.lines = s.lines ∧ later.graph = s.graph
      | .ok (.command _ _) => later.lines = s.lines ∧ later.graph = s.graph
      | .ok e => later.lines = s.lines ++ [⟨s.nextLine, input, e, .failure error, none⟩] ∧
        ∃ read, later.graph.nodes = s.graph.nodes ++ [⟨s.nextLine, Text.trim input, read⟩] := by
  have entry := enter_entry s input
  obtain ⟨outcome, rest⟩ : (s.enter input).1 = .failure error ∧ (s.enter input).2 = later := by
    simp [failed]
  generalize s.enter input = reply at entry outcome rest
  subst rest
  cases entry with
  | unread parsed => simp [parsed]
  | blank parsed => cases outcome
  | refused error parsed => simp [parsed]
  | obeyed parsed taken applied => cases outcome
  | @kept e parsed kept =>
    obtain ⟨read, unchanged⟩ := record_failure parsed outcome
    have nodes := graph_add_nodes (orderly_of_reached reached) (Text.trim input) read
    rw [unchanged, parsed]
    refine ⟨rfl, rfl, rfl, rfl, ?_⟩
    split
    · contradiction
    · -- A command is never evaluated.
      rename_i same
      cases same
      cases kept
    · rename_i same
      obtain rfl := Except.ok.inj same
      exact ⟨rfl, _, nodes⟩

theorem enter_division_by_zero :
    (twoLines.enter "x = 1 / 0").1 = .failure (.eval .divisionByZero) ∧
      (twoLines.enter "x = 1 / 0").2.bindings = twoLines.bindings ∧
      (twoLines.enter "x = 1 / 0").2.assignedIn = twoLines.assignedIn ∧
      (twoLines.enter "x = 1 / 0").2.lines.length = 3 := by
  have reached : Reached twoLines := .enter _ (.enter _ (.new _ _ _))
  have outcome : (twoLines.enter "x = 1 / 0").1 = .failure (.eval .divisionByZero) := by
    decide +kernel
  obtain ⟨bindings, _, _, assigned, _⟩ := enter_failure reached (Prod.ext outcome rfl)
  exact ⟨outcome, bindings, assigned, by decide +kernel⟩

end Sheet

end NotepadCalculator
