import NotepadCalculator.Expr.Basic

/-!
Parts of an expression and properties that hold of all of them. A chain of operators has the same
parts whether it is read as a tree or along its left side.
-/
namespace NotepadCalculator.Expr
variable {α : Type}

def parts : Expr α → List (Expr α)
  | .assign _ value => [value]
  | .binary _ left right => [left, right]
  | .unary _ operand => [operand]
  | .call _ arguments => arguments
  | .convert value _ => [value]
  | _ => []

inductive Throughout (P : Expr α → Prop) : Expr α → Prop where
  | intro {e : Expr α} (here : P e) (below : ∀ part ∈ e.parts, Throughout P part) : Throughout P e

abbrev AssignmentFree (e : Expr α) : Prop := e.Throughout fun part => part.isAssignment = false

theorem throughout_here {P : Expr α → Prop} {e : Expr α} (all : e.Throughout P) : P e := by
  cases all with
  | intro here _ => exact here

theorem throughout_part {P : Expr α → Prop} {e part : Expr α} (all : e.Throughout P)
    (member : part ∈ e.parts) : part.Throughout P := by
  cases all with
  | intro _ below => exact below part member

theorem throughout_imp {P Q : Expr α → Prop} {e : Expr α} (all : e.Throughout P)
    (weaker : ∀ part, P part → Q part) : e.Throughout Q := by
  induction all with
  | intro here _ ih => exact .intro (weaker _ here) ih

theorem spineOnto_throughout {P : Expr α → Prop} (e : Expr α)
    (steps : List (BinaryOp × Expr α)) (all : e.Throughout P)
    (others : ∀ step ∈ steps, step.2.Throughout P) :
    (e.spineOnto steps).1.Throughout P ∧
      ∀ step ∈ (e.spineOnto steps).2, step.2.Throughout P := by
  fun_induction spineOnto e steps with
  | case1 op left right steps ih =>
    refine ih (throughout_part all (by simp [parts])) ?_
    exact List.forall_mem_cons.2 ⟨throughout_part all (by simp [parts]), others⟩
  | case2 e steps => exact ⟨all, others⟩

theorem spine_throughout {P : Expr α → Prop} {e : Expr α} (all : e.Throughout P) :
    e.spine.1.Throughout P ∧ ∀ step ∈ e.spine.2, step.2.Throughout P :=
  spineOnto_throughout e [] all (by simp)

end NotepadCalculator.Expr
