import NotepadCalculator.Evaluation.Evaluate
import NotepadCalculator.Expr.Grammar
import NotepadCalculator.Sheet.Command
import NotepadCalculator.Sheet.Dependencies
import NotepadCalculator.Sheet.Line

/-!
A sheet takes lines one at a time. A line that is an expression is kept whether its evaluation
succeeds or not, with the lines it has read; a line that cannot be parsed, a comment and a command
are not kept.
-/
namespace NotepadCalculator
open Calendar Measurement Money Number

structure Sheet where
  settings : Settings
  bindings : Bindings (Value Float)
  units : UnitSystem Float
  lines : List Line
  graph : Graph
  assignedIn : Bindings Nat
  rates : Rates Float
  now : Moment
  deriving Repr

def insertAscending (n : Nat) : List Nat → List Nat
  | [] => [n]
  | m :: rest =>
    if n < m then n :: m :: rest
    else if n = m then m :: rest
    else m :: insertAscending n rest

def ascending (ns : List Nat) : List Nat := ns.foldr insertAscending []

theorem mem_insertAscending {n m : Nat} {ns : List Nat} :
    m ∈ insertAscending n ns ↔ m = n ∨ m ∈ ns := by
  induction ns with
  | nil => simp [insertAscending]
  | cons k rest ih =>
    simp only [insertAscending]
    split
    · simp
    · split
      · rename_i same
        simp [same]
      · simp only [List.mem_cons, ih]
        exact or_left_comm

theorem insertAscending_pairwise {n : Nat} {ns : List Nat} (sorted : ns.Pairwise (· < ·)) :
    (insertAscending n ns).Pairwise (· < ·) := by
  induction ns with
  | nil => simp [insertAscending]
  | cons k rest ih =>
    have ⟨above, tail⟩ := List.pairwise_cons.1 sorted
    simp only [insertAscending]
    split
    · rename_i less
      exact List.pairwise_cons.2 ⟨List.forall_mem_cons.2
        ⟨less, fun m member => Nat.lt_trans less (above m member)⟩, sorted⟩
    · split
      · exact sorted
      · refine List.pairwise_cons.2 ⟨fun m member => ?_, ih tail⟩
        rcases mem_insertAscending.1 member with rfl | member
        · omega
        · exact above m member

theorem mem_ascending {m : Nat} {ns : List Nat} : m ∈ ascending ns ↔ m ∈ ns := by
  induction ns with
  | nil => rfl
  | cons n rest ih =>
    rw [ascending, List.foldr_cons, mem_insertAscending, List.mem_cons]
    exact or_congr_right ih

theorem ascending_pairwise (ns : List Nat) : (ascending ns).Pairwise (· < ·) := by
  induction ns with
  | nil => exact .nil
  | cons n rest ih => exact insertAscending_pairwise ih

/-- Assignments that quiet mode does not show; a printed text is always shown. -/
def Expr.isQuietAssignment : Expr Float → Bool
  | .assign _ (.call name _) => (Function.find? name).all (·.builtin ≠ .print)
  | .assign _ _ => true
  | _ => false

namespace Sheet

def new (settings : Settings) (rates : Rates Float) (now : Moment) : Sheet :=
  ⟨settings, [], .standard, [], .empty, [], rates, now⟩

def nextLine (s : Sheet) : Nat := s.lines.length + 1

def line? (s : Sheet) (id : Nat) : Option Line := if id = 0 then none else s.lines[id - 1]?

def surroundings (s : Sheet) : Surroundings Float :=
  ⟨⟨s.units, s.rates⟩, s.now, s.lines.map (·.value), s.nextLine, s.settings.precision⟩

/-- Lines that a line has read, through references or as the last to assign a variable. -/
def dependencies (s : Sheet) (p : Progress Float) : List Nat :=
  ascending (p.linesRead ++ p.variablesRead.filterMap s.assignedIn.get?)

def outcome (s : Sheet) (e : Expr Float) : Answer (Value Float) → Outcome
  | .ok value => if s.settings.quiet && e.isQuietAssignment then .silent else .success value
  | .error error => .failure (.eval error)

def noteAssignment (s : Sheet) (e : Expr Float) (answer : Answer (Value Float)) : Bindings Nat :=
  match answer, e with
  | .ok _, .assign name _ => s.assignedIn.set name s.nextLine
  | _, _ => s.assignedIn

def record (s : Sheet) (input : String) (e : Expr Float) : Outcome × Sheet :=
  let (answer, progress) := s.surroundings.run s.bindings e
  let outcome := s.outcome e answer
  (outcome, { s with
    bindings := progress.bindings
    assignedIn := s.noteAssignment e answer
    graph := s.graph.add s.nextLine (Text.trim input) (s.dependencies progress)
    lines := s.lines ++ [⟨s.nextLine, input, e, outcome, answer.toOption⟩] })

/-- Forgets variables, added units and lines. Settings stay. -/
def clear (s : Sheet) : Sheet :=
  { s with bindings := [], units := s.units.clear, lines := [], graph := .empty, assignedIn := [] }

def apply (s : Sheet) : Command → Except EvalError Sheet
  | .clear => .ok s.clear
  | .toggleQuiet => .ok { s with settings.quiet := !s.settings.quiet }
  | .setQuiet on => .ok { s with settings.quiet := on }
  | .setFuzzy on => .ok { s with settings.fuzzy := on }
  | .setPrecision places => .ok { s with settings.precision := places }
  | .defineUnit name scale base => do
    return { s with units := ← measured (s.units.define name scale base) }

def command (s : Sheet) (name : String) (arguments : List String) : Outcome × Sheet :=
  match (Command.read name arguments).bind s.apply with
  | .ok s => (.silent, s)
  | .error error => (.failure (.eval error), s)

def enter (s : Sheet) (input : String) : Outcome × Sheet :=
  match parseLine s.settings.fuzzy input with
  | .error error => (.failure (.parse error), s)
  | .ok .blank => (.silent, s)
  | .ok (.command name arguments) => s.command name arguments
  | .ok e => s.record input e

def order (s : Sheet) : Except EvalError (List Nat) :=
  match s.graph.order with
  | .ok ids => .ok ids
  | .error id => .error (.circularReference id)

end Sheet

end NotepadCalculator
