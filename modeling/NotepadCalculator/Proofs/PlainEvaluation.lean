import NotepadCalculator.Proofs.EvaluationCongruence
import NotepadCalculator.Proofs.NestingDepth

/-!
Operations evaluated as they are nested. A chain of operators is worked off along its left side;
plainly, an operation would take its left side, then its right side, each a level down, and put them
together. The plain way needs more levels. Where there are enough of them for either way, the two
come to the same, failures and all that is recorded included.
-/
namespace NotepadCalculator
open Calendar Measurement Money Number

variable {α β γ : Type}

namespace Evaluation

/-- Wherever the first computation does not give up for depth, the second one does the same. -/
def ExtendedBy (m n : Evaluation α β) : Prop :=
  ∀ p, Shallow (runFrom m p).1 → runFrom n p = runFrom m p

theorem extendedBy_refl (m : Evaluation α β) : ExtendedBy m m := fun _ _ => rfl

theorem extendedBy_trans {m n o : Evaluation α β} (first : ExtendedBy m n)
    (second : ExtendedBy n o) : ExtendedBy m o := by
  intro p shallow
  have same := first p shallow
  rw [second p (same ▸ shallow), same]

theorem extendedBy_tooDeep (m : Evaluation α β) : ExtendedBy (refuse .tooDeep) m :=
  fun _ shallow => absurd rfl shallow

theorem shallow_first {m : Evaluation α β} {f : β → Evaluation α γ} {p : Progress α}
    (shallow : Shallow (runFrom (m >>= f) p).1) : Shallow (runFrom m p).1 := by
  intro deep
  apply shallow
  rw [runFrom_bind]
  cases run : runFrom m p with
  | mk answer q =>
    rw [run] at deep
    obtain rfl : answer = _ := deep
    rfl

theorem extendedBy_bind {m n : Evaluation α β} {f g : β → Evaluation α γ}
    (first : ExtendedBy m n) (rest : ∀ b, ExtendedBy (f b) (g b)) :
    ExtendedBy (m >>= f) (n >>= g) := by
  intro p shallow
  have same := first p (shallow_first shallow)
  rw [runFrom_bind] at shallow ⊢
  rw [runFrom_bind, same]
  cases run : runFrom m p with
  | mk answer q =>
    rw [run] at shallow
    cases answer with
    | ok b => exact rest b q shallow
    | error e => rfl

theorem congruence_extendedBy : Congruence (α := α) ExtendedBy where
  answer _ := extendedBy_refl _
  valueOf _ := extendedBy_refl _
  noteVariable _ := extendedBy_refl _
  noteLine _ := extendedBy_refl _
  bindName _ _ := extendedBy_refl _
  sequence := extendedBy_bind

end Evaluation

open Evaluation

namespace Surroundings
variable [Amount α]

/-- The value at the beginning of a chain, by recursion on what is nested on the left. -/
def leading (s : Surroundings α) (inner : Inner α) : Expr α → Evaluation α (Value α)
  | .binary op left right => do s.step inner (← s.leading inner left) (op, right)
  | e => inner e

def plainNode (s : Surroundings α) (inner : Inner α) : Expr α → Evaluation α (Value α)
  | .binary op left right => do
    let a ← inner left
    let b ← inner right
    ofAnswer (s.tables.binary op a b)
  | e => s.node inner e

/-- Plain evaluation with so many levels left. -/
def plainly (s : Surroundings α) : Nat → Inner α
  | 0, _ => refuse .tooDeep
  | levels + 1, e => s.plainNode (s.plainly levels) e

def Suffices (s : Surroundings α) (levels : Nat) (e : Expr α) (p : Progress α) : Prop :=
  Shallow (runFrom (s.withLevels levels e) p).1

variable {s : Surroundings α}

/-- The steps of a chain that were put aside follow after the rest of its left side. -/
theorem chain_spineOnto (inner : Inner α) (e : Expr α) (steps : List (BinaryOp × Expr α)) :
    s.chain inner (e.spineOnto steps).1 (e.spineOnto steps).2 =
      s.leading inner e >>= fun value => steps.foldlM (s.step inner) value := by
  fun_induction Expr.spineOnto e steps with
  | case1 op left right steps ih => simp only [ih, leading, bind_assoc, List.foldlM_cons]
  | case2 e steps notBinary => rw [chain, leading.eq_2 _ _ _ notBinary]

theorem node_binary (inner : Inner α) (op : BinaryOp) (left right : Expr α) :
    s.node inner (.binary op left right) = s.leading inner (.binary op left right) := by
  have chained := chain_spineOnto (s := s) inner (.binary op left right) []
  exact chained.trans (bind_pure _)

theorem withLevels_binary (levels : Nat) (op : BinaryOp) (left right : Expr α) :
    s.withLevels (levels + 1) (.binary op left right) =
      s.leading (s.withLevels levels) left >>= fun a =>
        s.step (s.withLevels levels) a (op, right) := by
  rw [withLevels, node_binary, leading]

theorem withLevels_more (levels more : Nat) (e : Expr α) :
    ExtendedBy (s.withLevels levels e) (s.withLevels (levels + more) e) := by
  induction levels generalizing e with
  | zero => exact extendedBy_tooDeep _
  | succ levels ih =>
    rw [Nat.succ_add]
    exact congruence_extendedBy.node ih s e

theorem withLevels_le {few many : Nat} (le : few ≤ many) (e : Expr α) :
    ExtendedBy (s.withLevels few e) (s.withLevels many e) := by
  obtain ⟨more, rfl⟩ := Nat.exists_eq_add_of_le le
  exact withLevels_more few more e

/-- At the beginning of a chain an operand has as many levels as elsewhere, and a chain has one
    more. -/
theorem withLevels_leading (levels : Nat) (e : Expr α) :
    ExtendedBy (s.withLevels levels e) (s.leading (s.withLevels levels) e) := by
  cases e with
  | binary op left right =>
    rw [← node_binary]
    exact withLevels_more levels 1 _
  | _ => exact extendedBy_refl _

theorem plainly_extendedBy (levels : Nat) (e : Expr α) :
    ExtendedBy (s.plainly levels e) (s.withLevels levels e) := by
  induction levels generalizing e with
  | zero => exact extendedBy_tooDeep _
  | succ levels ih =>
    cases e with
    | binary op left right =>
      rw [withLevels_binary]
      apply extendedBy_bind (extendedBy_trans (ih left) (withLevels_leading levels left))
      intro a
      exact extendedBy_bind (ih right) fun b => extendedBy_refl _
    | _ => exact congruence_extendedBy.node ih s _

/-- Working off a chain along its left side is evaluating it plainly. In any surroundings, from any
    progress and with any number of levels for either, the two come to the same value or the same
    error, leave the same bindings and have recorded the same lines and variables in the same order,
    provided that neither gives up for depth. -/
theorem withLevels_eq_plainly (s : Surroundings α) {e : Expr α} {p : Progress α}
    {levels limit : Nat} (here : Shallow (runFrom (s.withLevels levels e) p).1)
    (plain : Shallow (runFrom (s.plainly limit e) p).1) :
    runFrom (s.withLevels levels e) p = runFrom (s.plainly limit e) p := by
  have both := withLevels_le (s := s) (Nat.le_max_left levels limit) e p here
  have nested := extendedBy_trans (plainly_extendedBy limit e)
    (withLevels_le (s := s) (Nat.le_max_right levels limit) e)
  rw [← both, nested p plain]

theorem withLevels_eq_plainly_broken :
    let s : Surroundings Float := ⟨⟨.standard, ⟨[]⟩⟩, Day.midnight ⟨0, by decide, by decide⟩,
      [some (.number 5)], 2, 2⟩
    let x : Expr Float := .variable "x"
    let product : Expr Float :=
      .binary .multiply (.number 2) (.binary .subtract x (.variable "y"))
    let e : Expr Float := .binary .subtract (.binary .subtract (.binary .subtract
      (.binary .add x (.previous (.line 1))) x) x) product
    let p : Progress Float := .start [("x", .number 3)]
    let broken : Answer (Value Float) × Progress Float :=
      (.error (.undefinedVariable "y"), ⟨[("x", .number 3)], [1], ["x", "x", "x", "x"]⟩)
    Shallow (runFrom (s.withLevels 4 e) p).1 ∧ Shallow (runFrom (s.plainly 6 e) p).1 ∧
      runFrom (s.withLevels 4 e) p = runFrom (s.plainly 6 e) p ∧
      runFrom (s.plainly 6 e) p = broken := by
  intro s x product e p broken
  have chained : runFrom (s.withLevels 4 e) p = broken := rfl
  have nested : runFrom (s.plainly 6 e) p = broken := rfl
  have other : Shallow broken.1 := shallow_error (by simp)
  have here : Shallow (runFrom (s.withLevels 4 e) p).1 := chained ▸ other
  have plain : Shallow (runFrom (s.plainly 6 e) p).1 := nested ▸ other
  exact ⟨here, plain, withLevels_eq_plainly s here plain, nested⟩

end Surroundings

end NotepadCalculator
