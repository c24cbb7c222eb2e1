import NotepadCalculator.Proofs.GrammarTrees
import NotepadCalculator.Proofs.SheetHistory

/-!
Runs of a sheet. Lines are entered one after another, each at a time of its own. Whether a line is
a command is settled before the settings are looked at, so a line gives the same command wherever
it is entered.
-/
namespace NotepadCalculator
open Calendar Number Parse

namespace Grammar
open Sheet

theorem isKept_of_tree {N : Float → Prop} {e : Expr Float} (tree : Tree N e) :
    isKept e = true := by
  have proper := Expr.throughout_here tree
  cases e <;> first | rfl | exact proper.elim

theorem gives_statement_kept {S : Token → Prop} {E : ParseError → Prop} {N : Float → Prop}
    (V : Vocabulary S E N) : Gives S E (fun e => isKept e = true) statement := by
  have whole : Gives S E (Tree N) wholeExpression := gives_withLevels V _ _
  have kept := gives_imp whole fun _ tree => isKept_of_tree tree
  apply gives_bind gives_current
  intro first known
  apply gives_bind gives_following
  intro second _
  dsimp only
  split
  · split
    · exact gives_bind (gives_failAt V.faults known (Token.canCause_of_inside _ rfl))
        fun (_ : Unit) (absurd : False) => absurd.elim
    · exact gives_advance_then (gives_advance_then (gives_bind whole fun _ _ => gives_pure rfl))
  · split
    · exact gives_advance_then (gives_advance_then kept)
    · exact kept

theorem complete_kept {c later : Cursor} {e : Expr Float}
    (read : complete.run c = .ok (e, later)) : isKept e = true := by
  have anything : Vocabulary (fun _ => True) (fun _ => True) (fun _ => True) := by
    constructor <;> simp
  have gives : Gives (fun _ => True) (fun _ => True) (fun e => isKept e = true) complete := by
    apply gives_bind (gives_statement_kept anything)
    intro e kept
    apply gives_bind (gives_isAt _)
    intro ended _
    split
    · exact gives_pure kept
    · exact gives_failUnexpected anything.faults
  have given := gives c ⟨by simp, trivial⟩
  rw [read] at given
  exact given.1

theorem parse_command {fuzzy : Bool} {tokens : List Token} {name : String}
    {arguments : List String} (parsed : parse fuzzy tokens = .ok (.command name arguments))
    (other : Bool) : parse other tokens = .ok (.command name arguments) := by
  obtain ⟨readable, ⟨_, same⟩ | commanded | ⟨_, _, _, later, read⟩⟩ := parse_eq_ok.1 parsed
  · contradiction
  · exact parse_eq_ok.2 ⟨readable, .inr (.inl commanded)⟩
  · have kept := complete_kept read
    contradiction

end Grammar

def Command.settle (settings : Settings) : Command → Settings
  | .toggleQuiet => { settings with quiet := !settings.quiet }
  | .setQuiet on => { settings with quiet := on }
  | .setFuzzy on => { settings with fuzzy := on }
  | .setPrecision places => { settings with precision := places }
  | .clear | .defineUnit _ _ _ => settings

namespace Sheet

theorem apply_settings {s later : Sheet} {command : Command}
    (applied : s.apply command = .ok later) : later.settings = command.settle s.settings := by
  cases command with
  | defineUnit name scale base =>
    simp only [apply] at applied
    cases defined : measured (s.units.define name scale base) with
    | error error => simp [defined, bind, Except.bind] at applied
    | ok units =>
      simp only [defined, bind, Except.bind] at applied
      exact (congrArg Sheet.settings (Except.ok.inj applied)).symm
  | _ => exact (congrArg Sheet.settings (Except.ok.inj applied)).symm

def commandOf? (input : String) : Option Command :=
  match parseLine true input with
  | .ok (.command name arguments) => (Command.read name arguments).toOption
  | _ => none

theorem commandOf?_of_read {fuzzy : Bool} {input name : String} {arguments : List String}
    {command : Command} (parsed : parseLine fuzzy input = .ok (.command name arguments))
    (taken : Command.read name arguments = .ok command) : commandOf? input = some command := by
  have same : parseLine true input = .ok (.command name arguments) :=
    Grammar.parse_command parsed true
  simp [commandOf?, same, taken, Except.toOption]

/-- Only a command bears on the settings, and it does what it says. -/
theorem enter_settings (s : Sheet) (input : String) :
    (s.enter input).2.settings = s.settings ∨ ∃ command, commandOf? input = some command ∧
      (s.enter input).2.settings = command.settle s.settings := by
  have entry := enter_entry s input
  generalize s.enter input = reply at entry ⊢
  cases entry with
  | unread parsed => exact .inl rfl
  | blank parsed => exact .inl rfl
  | refused error parsed => exact .inl rfl
  | obeyed parsed taken applied =>
    exact .inr ⟨_, commandOf?_of_read parsed taken, apply_settings applied⟩
  | kept parsed kept => exact .inl rfl

def enterAt (s : Sheet) (entry : Moment × String) : Outcome × Sheet :=
  Sheet.enter { s with now := entry.1 } entry.2

def after (s : Sheet) (entries : List (Moment × String)) : Sheet :=
  entries.foldl (fun s entry => (s.enterAt entry).2) s

/-- What two sheets keep to in each line, they keep to all along. -/
theorem after_keeps {R : Sheet → Sheet → Prop} {entries : List (Moment × String)}
    (step : ∀ entry ∈ entries, ∀ s t, R s t → R (s.enterAt entry).2 (t.enterAt entry).2)
    {s t : Sheet} (start : R s t) : R (s.after entries) (t.after entries) :=
  List.foldl_rel start step

end Sheet

end NotepadCalculator
