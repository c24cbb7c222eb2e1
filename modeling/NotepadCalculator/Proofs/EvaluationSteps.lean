import Mathlib.Logic.Basic
import NotepadCalculator.Evaluation.Evaluate
import NotepadCalculator.Proofs.Subexpressions

/-!
What the steps of an evaluation do to its progress. Only three effects exist: a variable that is
bound is noted as read, an earlier line is noted as read, and an assignment binds a name. An
assertion that survives them survives every evaluation; binding does not count for expressions
without assignments.
-/
namespace NotepadCalculator
open Calendar Measurement Money Number

variable {α β γ : Type}

namespace Progress

def withVariable (p : Progress α) (name : String) : Progress α :=
  { p with variablesRead := p.variablesRead ++ [name] }

def withLine (p : Progress α) (line : Nat) : Progress α :=
  { p with linesRead := p.linesRead ++ [line] }

def withBinding (p : Progress α) (name : String) (value : Value α) : Progress α :=
  { p with bindings := p.bindings.set name value }

end Progress

namespace Evaluation

def runFrom (m : Evaluation α β) (p : Progress α) : Answer β × Progress α := m.run.run p

theorem runFrom_ofAnswer (answer : Answer β) (p : Progress α) :
    runFrom (ofAnswer answer) p = (answer, p) := by
  cases answer <;> rfl

theorem runFrom_bind (m : Evaluation α β) (f : β → Evaluation α γ) (p : Progress α) :
    runFrom (m >>= f) p = match runFrom m p with
      | (.ok b, q) => runFrom (f b) q
      | (.error e, q) => (.error e, q) := by
  simp only [runFrom, ExceptT.run_bind, StateT.run_bind]
  cases m.run.run p with
  | mk answer q => cases answer <;> rfl

theorem runFrom_bindName (name : String) (value : Value α) (p : Progress α) :
    runFrom (Evaluation.bind name value) p = (.ok (), p.withBinding name value) := rfl

theorem runFrom_valueOf? (name : String) (p : Progress α) :
    runFrom (valueOf? name) p = (.ok (p.bindings.get? name), p) := rfl

theorem runFrom_readVariable (name : String) (p : Progress α) :
    runFrom (readVariable name) p = match p.bindings.get? name with
      | some value => (.ok value, p.withVariable name)
      | none => (.error (.undefinedVariable name), p) := by
  simp only [readVariable, runFrom_bind, runFrom_valueOf?]
  cases p.bindings.get? name <;> rfl

/-- The assertion survives the computation, whether it succeeds or fails. -/
def Keeps (I : Progress α → Prop) (m : Evaluation α β) : Prop :=
  ∀ p, I p → I (runFrom m p).2

variable {I : Progress α → Prop}

theorem keeps_pure (b : β) : Keeps I (pure b : Evaluation α β) := fun _ holds => holds

theorem keeps_refuse (fault : OperationFault) : Keeps I (refuse fault : Evaluation α β) :=
  fun _ holds => holds

theorem keeps_ofAnswer (answer : Answer β) : Keeps I (ofAnswer answer) := by
  intro p holds
  rw [runFrom_ofAnswer]
  exact holds

theorem keeps_bind {m : Evaluation α β} {f : β → Evaluation α γ} (first : Keeps I m)
    (then_ : ∀ b, Keeps I (f b)) : Keeps I (m >>= f) := by
  intro p holds
  have middle := first p holds
  rw [runFrom_bind]
  cases run : runFrom m p with
  | mk answer q =>
    rw [run] at middle
    cases answer with
    | error e => exact middle
    | ok b => exact then_ b q middle

theorem keeps_mapM {δ : Type} {f : δ → Evaluation α β} (items : List δ)
    (each : ∀ item ∈ items, Keeps I (f item)) : Keeps I (items.mapM f) := by
  induction items with
  | nil => exact keeps_pure []
  | cons item rest ih =>
    obtain ⟨here, others⟩ := List.forall_mem_cons.1 each
    rw [List.mapM_cons]
    apply keeps_bind here
    intro _
    apply keeps_bind (ih others)
    intro _
    exact keeps_pure _

theorem keeps_foldlM {δ : Type} {f : β → δ → Evaluation α β} (items : List δ) (b : β)
    (each : ∀ b, ∀ item ∈ items, Keeps I (f b item)) : Keeps I (items.foldlM f b) := by
  induction items generalizing b with
  | nil => exact keeps_pure b
  | cons item rest ih =>
    rw [List.foldlM_cons]
    apply keeps_bind (each b item List.mem_cons_self)
    intro b
    apply ih b
    exact fun b item member => each b item (List.mem_cons_of_mem _ member)

end Evaluation

open Evaluation

namespace Surroundings
variable (s : Surroundings α)

structure Undisturbed (I : Progress α → Prop) : Prop where
  named : ∀ p name value, p.bindings.get? name = some value → I p → I (p.withVariable name)
  earlier : ∀ p line, 1 ≤ line → line ≤ s.results.length → I p → I (p.withLine line)

def Rebindable (I : Progress α → Prop) : Prop :=
  ∀ p name value, I p → I (p.withBinding name value)

theorem keeps_bindName {I : Progress α → Prop} (rebindable : Rebindable I) (name : String)
    (value : Value α) : Keeps I (Evaluation.bind name value) :=
  fun p holds => rebindable p name value holds

theorem result?_eq_some {line : Nat} {result : Option (Value α)}
    (found : s.result? line = some result) :
    1 ≤ line ∧ line ≤ s.results.length ∧ s.results[line - 1]? = some result := by
  unfold result? at found
  split at found
  · contradiction
  · have bound := (List.getElem?_eq_some_iff.1 found).1
    exact ⟨by omega, by omega, found⟩

theorem keeps_readVariable {s : Surroundings α} {I : Progress α → Prop}
    (undisturbed : s.Undisturbed I) (name : String) :
    Keeps I (readVariable name) := by
  intro p holds
  rw [runFrom_readVariable]
  cases bound : p.bindings.get? name with
  | none => exact holds
  | some value => exact undisturbed.named p name value bound holds

theorem runFrom_previous (reference : Reference) (p : Progress α) :
    runFrom (s.previous reference) p = match s.lineNamed reference with
      | .error e => (.error e, p)
      | .ok line => match s.result? line with
        | none => (.error (.outOfReach (.missing line)), p)
        | some none => (.error (.invalidOperation (.noResult line)), p.withLine line)
        | some (some value) => (.ok value, p.withLine line) := by
  simp only [previous, runFrom_bind, runFrom_ofAnswer]
  cases s.lineNamed reference with
  | error e => rfl
  | ok line =>
    dsimp only
    cases s.result? line with
    | none => rfl
    | some result => cases result <;> rfl

theorem keeps_previous {s : Surroundings α} {I : Progress α → Prop}
    (undisturbed : s.Undisturbed I) (reference : Reference) :
    Keeps I (s.previous reference) := by
  intro p holds
  rw [runFrom_previous]
  cases s.lineNamed reference with
  | error e => exact holds
  | ok line =>
    cases found : s.result? line with
    | none => simpa only [found] using holds
    | some result =>
      obtain ⟨least, most, _⟩ := s.result?_eq_some found
      cases result <;> simpa only [found] using undisturbed.earlier p line least most holds

variable [Amount α]

theorem runFrom_unitLiteral (amount : α) (name : String) (p : Progress α) :
    runFrom (s.unitLiteral amount name) p =
      if s.tables.units.isUnit name then
        ((measured (s.tables.units.canonicalName name)).map (.unit amount ·), p)
      else match s.tables.rates.codeOf? name, p.bindings.get? name with
        | some code, _ => (.ok (.currency amount code), p)
        | none, none => (.error (.unknownUnit name), p)
        | none, some value =>
          (s.tables.binary .multiply (.number amount) value, p.withVariable name) := by
  unfold unitLiteral
  split
  · rw [runFrom_bind, runFrom_ofAnswer]
    cases measured (s.tables.units.canonicalName name) <;> rfl
  · cases s.tables.rates.codeOf? name with
    | some code => rfl
    | none =>
      simp only [runFrom_bind, runFrom_valueOf?]
      cases bound : p.bindings.get? name with
      | none => rfl
      | some value =>
        simp only [Option.isSome_some, if_true, runFrom_bind, runFrom_readVariable, bound,
          runFrom_ofAnswer]

variable {s} {I : Progress α → Prop}

theorem keeps_unitLiteral (undisturbed : s.Undisturbed I) (amount : α) (name : String) :
    Keeps I (s.unitLiteral amount name) := by
  intro p holds
  rw [runFrom_unitLiteral]
  split
  · exact holds
  · split
    · exact holds
    · exact holds
    · rename_i bound
      exact undisturbed.named p name _ bound holds

theorem keeps_fill (undisturbed : s.Undisturbed I) (pieces : List Template.Piece) :
    Keeps I (s.fill pieces) := by
  induction pieces with
  | nil => exact keeps_pure []
  | cons piece rest ih =>
    cases piece with
    | literal c => exact keeps_bind ih fun _ => keeps_pure _
    | placeholder name =>
      apply keeps_bind (keeps_readVariable undisturbed name)
      intro _
      apply keeps_bind ih
      intro _
      exact keeps_pure _

theorem keeps_print (undisturbed : s.Undisturbed I) (value : Value α) :
    Keeps I (s.print value) := by
  cases value with
  | text template => exact keeps_bind (keeps_fill undisturbed _) fun _ => keeps_pure _
  | scalar tag a => exact keeps_pure _
  | date moment => exact keeps_pure _

theorem keeps_call (undisturbed : s.Undisturbed I) {inner : Inner α} (name : String)
    (arguments : List (Expr α)) (each : ∀ argument ∈ arguments, Keeps I (inner argument)) :
    Keeps I (s.call inner name arguments) := by
  refine keeps_bind (keeps_ofAnswer _) fun f => keeps_bind (keeps_ofAnswer _) fun _ => ?_
  split
  · exact keeps_bind (each _ List.mem_cons_self) fun value => keeps_print undisturbed value
  · exact keeps_bind (keeps_mapM _ each) fun values => keeps_ofAnswer _

theorem keeps_chain {inner : Inner α} (first : Expr α) (steps : List (BinaryOp × Expr α))
    (here : Keeps I (inner first)) (each : ∀ step ∈ steps, Keeps I (inner step.2)) :
    Keeps I (s.chain inner first steps) := by
  apply keeps_bind here
  intro value
  refine keeps_foldlM steps value ?_
  exact fun left step member => keeps_bind (each step member) fun right => keeps_ofAnswer _

theorem keeps_node (undisturbed : s.Undisturbed I) {inner : Inner α} {e : Expr α}
    (deeper : ∀ {e}, e.AssignmentFree ∨ Rebindable I → Keeps I (inner e))
    (binds : e.AssignmentFree ∨ Rebindable I) : Keeps I (s.node inner e) := by
  have below : ∀ part ∈ e.parts, Keeps I (inner part) := fun part member =>
    deeper (binds.imp_left fun free => Expr.throughout_part free member)
  cases e with
  | number a => exact keeps_pure _
  | unit a name => exact keeps_unitLiteral undisturbed a name
  | currency a word => exact keeps_ofAnswer _
  | date spec => exact keeps_ofAnswer _
  | time clock => exact keeps_pure _
  | text content => exact keeps_pure _
  | «variable» name => exact keeps_readVariable undisturbed name
  | assign name value =>
    have rebindable : Rebindable I := by
      rcases binds with free | rebindable
      · simpa [Expr.isAssignment] using Expr.throughout_here free
      · exact rebindable
    apply keeps_bind (below value (by simp [Expr.parts]))
    intro v
    apply keeps_bind (keeps_bindName rebindable name v)
    intro _
    exact keeps_pure v
  | binary op left right =>
    have spine (free : (Expr.binary op left right).AssignmentFree) := Expr.spine_throughout free
    refine keeps_chain _ _ (deeper ?_) fun step member => deeper ?_
    · exact binds.imp_left fun free => (spine free).1
    · exact binds.imp_left fun free => (spine free).2 step member
  | unary op operand =>
    exact keeps_bind (below operand (by simp [Expr.parts])) fun v => keeps_ofAnswer _
  | call name arguments => exact keeps_call undisturbed name arguments below
  | convert value target =>
    exact keeps_bind (below value (by simp [Expr.parts])) fun v => keeps_ofAnswer _
  | previous reference => exact keeps_previous undisturbed reference
  | command name arguments => exact keeps_refuse _
  | blank => exact keeps_refuse _

theorem keeps_withLevels (undisturbed : s.Undisturbed I) (levels : Nat) {e : Expr α}
    (binds : e.AssignmentFree ∨ Rebindable I) : Keeps I (s.withLevels levels e) := by
  induction levels generalizing e with
  | zero => exact keeps_refuse _
  | succ levels ih => exact keeps_node undisturbed ih binds

theorem run_keeps (undisturbed : s.Undisturbed I) {e : Expr α}
    (binds : e.AssignmentFree ∨ Rebindable I) (bindings : Bindings (Value α))
    (start : I (.start bindings)) : I (s.run bindings e).2 :=
  keeps_withLevels undisturbed nestingLimit binds _ start

end Surroundings

end NotepadCalculator
