import NotepadCalculator.Proofs.EvaluationSteps

/-!
Relations between computations that an evaluation carries upwards. An evaluation is put together
from answers and four effects, one after another. So a relation that holds of these and survives
sequencing holds of two evaluations of a node as soon as it holds of those a level down.
-/
namespace NotepadCalculator
open Calendar Measurement Money Number

variable {α : Type}

namespace Evaluation

structure Congruence (R : ∀ {β : Type}, Evaluation α β → Evaluation α β → Prop) : Prop where
  answer : ∀ {β : Type} (answer : Answer β), R (ofAnswer answer) (ofAnswer answer)
  valueOf : ∀ name, R (valueOf? name) (valueOf? name)
  noteVariable : ∀ name, R (noteVariable name) (noteVariable name)
  noteLine : ∀ line, R (noteLine line) (noteLine line)
  bindName : ∀ name value, R (Evaluation.bind name value) (Evaluation.bind name value)
  sequence : ∀ {β γ : Type} {m n : Evaluation α β} {f g : β → Evaluation α γ},
    R m n → (∀ b, R (f b) (g b)) → R (m >>= f) (n >>= g)

variable {R : ∀ {β : Type}, Evaluation α β → Evaluation α β → Prop}

namespace Congruence

theorem ret (c : Congruence R) {β : Type} (b : β) : R (pure b) (pure b) := c.answer (.ok b)

theorem mapM (c : Congruence R) {β δ : Type} {f g : δ → Evaluation α β}
    (each : ∀ item, R (f item) (g item)) (items : List δ) : R (items.mapM f) (items.mapM g) := by
  induction items with
  | nil => exact c.ret []
  | cons item rest ih =>
    rw [List.mapM_cons, List.mapM_cons]
    apply c.sequence (each item)
    intro _
    exact c.sequence ih fun _ => c.ret _

theorem foldlM (c : Congruence R) {β δ : Type} {f g : β → δ → Evaluation α β}
    (each : ∀ b item, R (f b item) (g b item)) (items : List δ) (b : β) :
    R (items.foldlM f b) (items.foldlM g b) := by
  induction items generalizing b with
  | nil => exact c.ret b
  | cons item rest ih =>
    rw [List.foldlM_cons, List.foldlM_cons]
    exact c.sequence (each b item) ih

theorem readVariable (c : Congruence R) (name : String) :
    R (readVariable name) (Evaluation.readVariable name) := by
  apply c.sequence (c.valueOf name)
  intro found
  cases found with
  | none => exact c.answer (.error _)
  | some value => exact c.sequence (c.noteVariable name) fun _ => c.ret value

theorem previous (c : Congruence R) (s : Surroundings α) (reference : Reference) :
    R (s.previous reference) (s.previous reference) := by
  apply c.sequence (c.answer _)
  intro line
  split
  · exact c.answer (.error _)
  · apply c.sequence (c.noteLine line)
    intro _
    split
    · exact c.ret _
    · exact c.answer (.error _)

variable [Amount α]

theorem unitLiteral (c : Congruence R) (s : Surroundings α) (amount : α) (name : String) :
    R (s.unitLiteral amount name) (s.unitLiteral amount name) := by
  unfold Surroundings.unitLiteral
  split
  · exact c.sequence (c.answer _) fun _ => c.ret _
  · split
    · exact c.ret _
    · apply c.sequence (c.valueOf name)
      intro found
      split
      · exact c.sequence (c.readVariable name) fun _ => c.answer _
      · exact c.answer (.error _)

theorem fill (c : Congruence R) (s : Surroundings α) (pieces : List Template.Piece) :
    R (s.fill pieces) (s.fill pieces) := by
  induction pieces with
  | nil => exact c.ret []
  | cons piece rest ih =>
    cases piece with
    | literal character => exact c.sequence ih fun _ => c.ret _
    | placeholder name =>
      apply c.sequence (c.readVariable name)
      intro _
      exact c.sequence ih fun _ => c.ret _

theorem print (c : Congruence R) (s : Surroundings α) (value : Value α) :
    R (s.print value) (s.print value) := by
  cases value with
  | text template => exact c.sequence (c.fill s _) fun _ => c.ret _
  | scalar tag a => exact c.ret _
  | date moment => exact c.ret _

section
variable {inner inner' : Inner α} (deeper : ∀ e, R (inner e) (inner' e))
include deeper

theorem call (c : Congruence R) (s : Surroundings α) (name : String) (arguments : List (Expr α)) :
    R (s.call inner name arguments) (s.call inner' name arguments) := by
  apply c.sequence (c.answer _)
  intro f
  apply c.sequence (c.answer _)
  intro _
  split
  · exact c.sequence (deeper _) (c.print s)
  · exact c.sequence (c.mapM deeper _) fun _ => c.answer _

theorem step (c : Congruence R) (s : Surroundings α) (left : Value α)
    (operation : BinaryOp × Expr α) :
    R (s.step inner left operation) (s.step inner' left operation) :=
  c.sequence (deeper operation.2) fun _ => c.answer _

theorem chain (c : Congruence R) (s : Surroundings α) (first : Expr α)
    (steps : List (BinaryOp × Expr α)) :
    R (s.chain inner first steps) (s.chain inner' first steps) :=
  c.sequence (deeper first) fun value => c.foldlM (c.step deeper s) steps value

theorem node (c : Congruence R) (s : Surroundings α) (e : Expr α) :
    R (s.node inner e) (s.node inner' e) := by
  cases e with
  | number a => exact c.ret _
  | unit a name => exact c.unitLiteral s a name
  | currency a word => exact c.answer _
  | date spec => exact c.answer _
  | time clock => exact c.ret _
  | text content => exact c.ret _
  | «variable» name => exact c.readVariable name
  | assign name value =>
    apply c.sequence (deeper value)
    intro v
    exact c.sequence (c.bindName name v) fun _ => c.ret v
  | binary op left right => exact c.chain deeper s _ _
  | unary op operand => exact c.sequence (deeper operand) fun _ => c.answer _
  | call name arguments => exact c.call deeper s name arguments
  | convert value target => exact c.sequence (deeper value) fun _ => c.answer _
  | previous reference => exact c.previous s reference
  | command name arguments => exact c.answer (.error _)
  | blank => exact c.answer (.error _)

end

theorem withLevels (c : Congruence R) (s : Surroundings α) (levels : Nat) (e : Expr α) :
    R (s.withLevels levels e) (s.withLevels levels e) := by
  induction levels generalizing e with
  | zero => exact c.answer (.error _)
  | succ levels ih => exact c.node ih s e

end Congruence

end Evaluation

end NotepadCalculator
