import NotepadCalculator.Proofs.PlainEvaluation

/-!
What expressions come to with levels enough. More levels never change a value, so there is at most
one, and it follows rules that do not mention levels: an operation takes its sides one after the
other, a call takes its arguments from left to right.
-/
namespace NotepadCalculator
open Calendar Measurement Money Number

variable {α β γ : Type}

namespace Evaluation

theorem runFrom_ok_of_extendedBy {m n : Evaluation α β} (extended : ExtendedBy m n)
    {p q : Progress α} {b : β} (ran : runFrom m p = (.ok b, q)) : runFrom n p = (.ok b, q) := by
  have shallow : Shallow (runFrom m p).1 := by
    rw [ran]
    exact shallow_ok b
  rw [extended p shallow, ran]

theorem runFrom_bind_eq_ok {m : Evaluation α β} {f : β → Evaluation α γ} {p q : Progress α}
    {c : γ} : runFrom (m >>= f) p = (.ok c, q) ↔
      ∃ b r, runFrom m p = (.ok b, r) ∧ runFrom (f b) r = (.ok c, q) := by
  rw [runFrom_bind]
  cases runFrom m p with
  | mk answer r => cases answer <;> simp [and_assoc]

theorem runFrom_pure_eq_ok {b c : β} {p q : Progress α} :
    runFrom (pure b : Evaluation α β) p = (.ok c, q) ↔ b = c ∧ p = q := by
  have ran : runFrom (pure b : Evaluation α β) p = (.ok b, p) := rfl
  simp [ran]

theorem runFrom_ofAnswer_eq_ok {answer : Answer β} {b : β} {p q : Progress α} :
    runFrom (ofAnswer answer) p = (.ok b, q) ↔ answer = .ok b ∧ p = q := by
  rw [runFrom_ofAnswer, Prod.mk.injEq]

end Evaluation

open Evaluation

namespace Surroundings
variable [Amount α]

/-- With levels enough the expression comes to the value and leaves that progress. -/
def Evaluates (s : Surroundings α) (e : Expr α) (p : Progress α) (value : Value α)
    (q : Progress α) : Prop :=
  ∃ levels, runFrom (s.withLevels levels e) p = (.ok value, q)

inductive EvaluatesAll (s : Surroundings α) :
    List (Expr α) → Progress α → List (Value α) → Progress α → Prop where
  | nil (p : Progress α) : EvaluatesAll s [] p [] p
  | cons {e : Expr α} {es : List (Expr α)} {value : Value α} {values : List (Value α)}
      {p q r : Progress α} (first : s.Evaluates e p value q)
      (rest : EvaluatesAll s es q values r) : EvaluatesAll s (e :: es) p (value :: values) r

variable {s : Surroundings α} {e : Expr α} {value : Value α} {p q : Progress α}

theorem evaluatesAll_cons {es : List (Expr α)} {values : List (Value α)} :
    s.EvaluatesAll (e :: es) p values q ↔ ∃ first r rest, s.Evaluates e p first r ∧
      s.EvaluatesAll es r rest q ∧ values = first :: rest := by
  constructor
  · intro evaluated
    cases evaluated with
    | cons first rest => exact ⟨_, _, _, first, rest, rfl⟩
  · rintro ⟨_, _, _, first, rest, rfl⟩
    exact .cons first rest

theorem evaluatesAll_length {es : List (Expr α)} {values : List (Value α)}
    (evaluated : s.EvaluatesAll es p values q) : values.length = es.length := by
  induction evaluated with
  | nil p => rfl
  | cons first rest ih => rw [List.length_cons, List.length_cons, ih]

/-! Levels. -/

theorem suffices_of_ok {levels : Nat} (ran : runFrom (s.withLevels levels e) p = (.ok value, q)) :
    s.Suffices levels e p := by
  rw [Suffices, ran]
  exact shallow_ok value

theorem evaluates_iff {levels : Nat} (enough : s.Suffices levels e p) :
    s.Evaluates e p value q ↔ runFrom (s.withLevels levels e) p = (.ok value, q) := by
  refine ⟨?_, fun ran => ⟨levels, ran⟩⟩
  rintro ⟨others, ran⟩
  have more := runFrom_ok_of_extendedBy (withLevels_le (Nat.le_max_right levels others) e) ran
  rwa [withLevels_le (Nat.le_max_left levels others) e p enough] at more

theorem evaluates_node :
    s.Evaluates e p value q ↔
      ∃ levels, runFrom (s.node (s.withLevels levels) e) p = (.ok value, q) := by
  constructor
  · rintro ⟨levels, ran⟩
    cases levels with
    | zero => cases ran
    | succ levels => exact ⟨levels, ran⟩
  · rintro ⟨levels, ran⟩
    exact ⟨levels + 1, ran⟩

theorem evaluates_of_leading {levels : Nat}
    (ran : runFrom (s.leading (s.withLevels levels) e) p = (.ok value, q)) :
    s.Evaluates e p value q := by
  cases e with
  | binary op left right =>
    rw [← node_binary] at ran
    exact ⟨levels + 1, ran⟩
  | _ => exact ⟨levels, ran⟩

theorem evaluatesAll_iff {es : List (Expr α)} {values : List (Value α)} :
    s.EvaluatesAll es p values q ↔
      ∃ levels, runFrom (es.mapM (s.withLevels levels)) p = (.ok values, q) := by
  constructor
  · intro evaluated
    induction evaluated with
    | nil p => exact ⟨0, rfl⟩
    | @cons e es value values p q r first _ ih =>
      obtain ⟨few, first⟩ := first
      obtain ⟨others, rest⟩ := ih
      have first := runFrom_ok_of_extendedBy (withLevels_le (Nat.le_max_left few others) e) first
      have rest := runFrom_ok_of_extendedBy
        (congruence_extendedBy.mapM (withLevels_le (Nat.le_max_right few others)) es) rest
      refine ⟨max few others, ?_⟩
      rw [List.mapM_cons]
      refine runFrom_bind_eq_ok.2 ⟨value, q, first, runFrom_bind_eq_ok.2 ⟨values, r, rest, ?_⟩⟩
      exact runFrom_pure_eq_ok.2 ⟨rfl, rfl⟩
  · rintro ⟨levels, ran⟩
    induction es generalizing p values with
    | nil =>
      obtain ⟨rfl, rfl⟩ := runFrom_pure_eq_ok.1 ran
      exact .nil p
    | cons e es ih =>
      rw [List.mapM_cons] at ran
      obtain ⟨value, r, first, others⟩ := runFrom_bind_eq_ok.1 ran
      obtain ⟨values, _, rest, returned⟩ := runFrom_bind_eq_ok.1 others
      obtain ⟨rfl, rfl⟩ := runFrom_pure_eq_ok.1 returned
      exact .cons ⟨levels, first⟩ (ih rest)

/-! Rules. -/

theorem evaluates_number {a : α} :
    s.Evaluates (.number a) p value q ↔ .number a = value ∧ p = q := by
  simp only [evaluates_node, node, runFrom_pure_eq_ok, exists_const]

theorem evaluates_unary {op : UnaryOp} {operand : Expr α} :
    s.Evaluates (.unary op operand) p value q ↔
      ∃ v, s.Evaluates operand p v q ∧ v.unary op = .ok value := by
  rw [evaluates_node]
  constructor
  · rintro ⟨levels, ran⟩
    obtain ⟨v, r, inner, answered⟩ := runFrom_bind_eq_ok.1 ran
    obtain ⟨result, rfl⟩ := runFrom_ofAnswer_eq_ok.1 answered
    exact ⟨v, ⟨levels, inner⟩, result⟩
  · rintro ⟨v, ⟨levels, inner⟩, result⟩
    exact ⟨levels, runFrom_bind_eq_ok.2 ⟨v, q, inner, runFrom_ofAnswer_eq_ok.2 ⟨result, rfl⟩⟩⟩

theorem evaluates_binary {op : BinaryOp} {left right : Expr α} :
    s.Evaluates (.binary op left right) p value q ↔ ∃ a r b, s.Evaluates left p a r ∧
      s.Evaluates right r b q ∧ s.tables.binary op a b = .ok value := by
  constructor
  · intro evaluated
    obtain ⟨levels, ran⟩ := evaluates_node.1 evaluated
    rw [node_binary] at ran
    obtain ⟨a, r, first, stepped⟩ := runFrom_bind_eq_ok.1 ran
    obtain ⟨b, _, second, answered⟩ := runFrom_bind_eq_ok.1 stepped
    obtain ⟨result, rfl⟩ := runFrom_ofAnswer_eq_ok.1 answered
    exact ⟨a, r, b, evaluates_of_leading first, ⟨levels, second⟩, result⟩
  · rintro ⟨a, r, b, ⟨few, first⟩, ⟨others, second⟩, result⟩
    have enough := extendedBy_trans (withLevels_le (s := s) (Nat.le_max_left few others) left)
      (withLevels_leading (max few others) left)
    have first := runFrom_ok_of_extendedBy enough first
    have second := runFrom_ok_of_extendedBy
      (withLevels_le (Nat.le_max_right few others) right) second
    refine evaluates_node.2 ⟨max few others, ?_⟩
    rw [node_binary]
    refine runFrom_bind_eq_ok.2 ⟨a, r, first, runFrom_bind_eq_ok.2 ⟨b, q, second, ?_⟩⟩
    exact runFrom_ofAnswer_eq_ok.2 ⟨result, rfl⟩

theorem evaluates_call {name : String} {f : Function} {arguments : List (Expr α)}
    (named : Function.named name = .ok f) (counted : f.checkCount arguments.length = .ok ())
    (plain : f.builtin ≠ .print) :
    s.Evaluates (.call name arguments) p value q ↔
      ∃ values, s.EvaluatesAll arguments p values q ∧ s.apply f values = .ok value := by
  have called (inner : Inner α) : s.node inner (.call name arguments) =
      arguments.mapM inner >>= fun values => ofAnswer (s.apply f values) := by
    rw [node, call, named, ofAnswer, pure_bind, counted, ofAnswer, pure_bind]
    split
    · contradiction
    · rfl
  simp only [evaluates_node, called, evaluatesAll_iff, runFrom_bind_eq_ok, runFrom_ofAnswer_eq_ok]
  constructor
  · rintro ⟨levels, values, r, ran, result, rfl⟩
    exact ⟨values, ⟨levels, ran⟩, result⟩
  · rintro ⟨values, ⟨levels, ran⟩, result⟩
    exact ⟨levels, values, q, ran, result, rfl⟩

end Surroundings

end NotepadCalculator
