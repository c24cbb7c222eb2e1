import Mathlib.Control.Monad.Basic
import NotepadCalculator.Proofs.EvaluationRules

/-!
Sums and averages written out. A call takes all its arguments before it adds any of them, while
between plus signs each one is added before the next is taken. So they may fail for different
reasons, but where one succeeds the other does too, with the same value.
-/
namespace NotepadCalculator
open Calendar Measurement Money Number Evaluation

variable {α : Type}

namespace Expr

/-- The expressions with plus signs between them. -/
def addedUp (first : Expr α) (rest : List (Expr α)) : Expr α := rest.foldl (.binary .add) first

def averaged [Amount α] (first : Expr α) (rest : List (Expr α)) : Expr α :=
  .binary .divide (first.addedUp rest) (.number (Amount.ofNat (rest.length + 1)))

end Expr

theorem Function.named_aggregate {builtin : Builtin} {words : List String}
    (listed : ∀ word ∈ words, ∃ f, Function.all.find? (·.name = word) = some f ∧
      f.builtin = builtin ∧ f.least = 1 ∧ f.most = none)
    {name : String} (member : Text.lowerAscii name ∈ words) :
    ∃ f, Function.named name = .ok f ∧ f.builtin = builtin ∧
      ∀ given, f.checkCount (given + 1) = .ok () := by
  obtain ⟨f, found, same, least, most⟩ := listed _ member
  refine ⟨f, ?_, same, fun given => ?_⟩
  · rw [Function.named, Function.find?, found]
  · simp [Function.checkCount, Function.countFault?, least, most]

theorem Function.named_sum {name : String} (member : Text.lowerAscii name ∈ ["sum", "total"]) :
    ∃ f, Function.named name = .ok f ∧ f.builtin = .sum ∧
      ∀ given, f.checkCount (given + 1) = .ok () :=
  named_aggregate (by simp [Function.all]) member

theorem Function.named_average {name : String}
    (member : Text.lowerAscii name ∈ ["average", "mean"]) :
    ∃ f, Function.named name = .ok f ∧ f.builtin = .average ∧
      ∀ given, f.checkCount (given + 1) = .ok () :=
  named_aggregate (by simp [Function.all]) member

namespace Surroundings
variable [Amount α] {s : Surroundings α} {p q : Progress α} {value : Value α}

theorem sum_cons_cons (a b : Value α) (rest : List (Value α)) :
    s.sum (a :: b :: rest) = s.tables.binary .add a b >>= fun c => s.sum (c :: rest) :=
  List.foldlM_cons

/-- What stands between plus signs is added up in the order in which a call adds its arguments. -/
theorem evaluates_addedUp {first : Expr α} {rest : List (Expr α)} :
    s.Evaluates (first.addedUp rest) p value q ↔
      ∃ values, s.EvaluatesAll (first :: rest) p values q ∧ s.sum values = .ok value := by
  induction rest generalizing first with
  | nil =>
    constructor
    · intro evaluated
      exact ⟨[value], .cons evaluated (.nil q), rfl⟩
    · rintro ⟨values, evaluated, total⟩
      obtain ⟨a, r, others, here, none, rfl⟩ := evaluatesAll_cons.1 evaluated
      cases none
      obtain rfl := Except.ok.inj total
      exact here
  | cons second rest ih =>
    rw [Expr.addedUp, List.foldl_cons, ← Expr.addedUp, ih]
    constructor
    · rintro ⟨values, evaluated, total⟩
      obtain ⟨c, r, others, both, remaining, rfl⟩ := evaluatesAll_cons.1 evaluated
      obtain ⟨a, m, b, here, there, added⟩ := evaluates_binary.1 both
      refine ⟨a :: b :: others, .cons here (.cons there remaining), ?_⟩
      rw [sum_cons_cons, added]
      exact total
    · rintro ⟨values, evaluated, total⟩
      obtain ⟨a, m, tail, here, later, rfl⟩ := evaluatesAll_cons.1 evaluated
      obtain ⟨b, r, others, there, remaining, rfl⟩ := evaluatesAll_cons.1 later
      rw [sum_cons_cons] at total
      cases added : s.tables.binary .add a b with
      | error e =>
        rw [added] at total
        cases total
      | ok c =>
        rw [added] at total
        have both := evaluates_binary.2 ⟨a, m, b, here, there, added⟩
        exact ⟨c :: others, .cons both remaining, total⟩

theorem evaluates_sum {name : String} (named : Text.lowerAscii name ∈ ["sum", "total"])
    {first : Expr α} {rest : List (Expr α)} :
    s.Evaluates (.call name (first :: rest)) p value q ↔
      s.Evaluates (first.addedUp rest) p value q := by
  obtain ⟨f, named, builtin, counted⟩ := Function.named_sum named
  have applied (values : List (Value α)) : s.apply f values = s.sum values := by
    simp only [apply, builtin]
  have called : s.Evaluates (.call name (first :: rest)) p value q ↔ _ :=
    evaluates_call named (counted rest.length) (by simp [builtin])
  simp only [called, applied, evaluates_addedUp]

theorem evaluates_average {name : String} (named : Text.lowerAscii name ∈ ["average", "mean"])
    {first : Expr α} {rest : List (Expr α)} :
    s.Evaluates (.call name (first :: rest)) p value q ↔
      s.Evaluates (first.averaged rest) p value q := by
  obtain ⟨f, named, builtin, counted⟩ := Function.named_average named
  have applied (values : List (Value α)) : s.apply f values = s.average values := by
    simp only [apply, builtin]
  have called : s.Evaluates (.call name (first :: rest)) p value q ↔ _ :=
    evaluates_call named (counted rest.length) (by simp [builtin])
  rw [called, Expr.averaged, evaluates_binary]
  simp only [applied, evaluates_addedUp, evaluates_number]
  constructor
  · rintro ⟨values, evaluated, divided⟩
    rw [average, evaluatesAll_length evaluated] at divided
    cases total : s.sum values with
    | error e =>
      rw [total] at divided
      cases divided
    | ok c =>
      rw [total] at divided
      exact ⟨c, q, _, ⟨values, evaluated, total⟩, ⟨rfl, rfl⟩, divided⟩
  · rintro ⟨c, r, _, ⟨values, evaluated, total⟩, ⟨rfl, rfl⟩, divided⟩
    refine ⟨values, evaluated, ?_⟩
    rw [average, total, evaluatesAll_length evaluated]
    exact divided

/-- Aggregates are sums written out. Whatever the arguments are, as long as neither form is given up
    for depth: a call of `sum` or `total` comes to a value exactly if the arguments with plus signs
    between them come to it, and a call of `average` or `mean` does exactly if these, divided by the
    number of the arguments, do. Bindings and recorded reads are then the same too. -/
theorem aggregates_as_written (s : Surroundings α) (levels : Nat) (p : Progress α)
    (first : Expr α) (rest : List (Expr α)) :
    (∀ name, Text.lowerAscii name ∈ ["sum", "total"] →
      s.Suffices levels (.call name (first :: rest)) p →
      s.Suffices levels (first.addedUp rest) p → ∀ value q,
        runFrom (s.withLevels levels (.call name (first :: rest))) p = (.ok value, q) ↔
          runFrom (s.withLevels levels (first.addedUp rest)) p = (.ok value, q)) ∧
    ∀ name, Text.lowerAscii name ∈ ["average", "mean"] →
      s.Suffices levels (.call name (first :: rest)) p →
      s.Suffices levels (first.averaged rest) p → ∀ value q,
        runFrom (s.withLevels levels (.call name (first :: rest))) p = (.ok value, q) ↔
          runFrom (s.withLevels levels (first.averaged rest)) p = (.ok value, q) := by
  constructor
  · intro name named called written value q
    rw [← evaluates_iff called, ← evaluates_iff written, evaluates_sum named]
  · intro name named called written value q
    rw [← evaluates_iff called, ← evaluates_iff written, evaluates_average named]

theorem aggregates_as_written_lengths :
    let s : Surroundings Float := ⟨⟨.standard, ⟨[]⟩⟩, Day.midnight ⟨0, by decide, by decide⟩,
      [some (.unit 500 "m")], 2, 2⟩
    let p : Progress Float := .start [("x", .unit 2 "km")]
    let q : Progress Float := ⟨[("x", .unit 2 "km")], [1], ["x"]⟩
    let first : Expr Float := .unit 1 "km"
    let rest : List (Expr Float) := [.previous .latest, .variable "x"]
    let run (e : Expr Float) := runFrom (s.withLevels 4 e) p
    (Text.lowerAscii "total" ∈ ["sum", "total"] ∧
      s.Suffices 4 (.call "total" (first :: rest)) p ∧ s.Suffices 4 (first.addedUp rest) p ∧
      run (.call "total" (first :: rest)) = (.ok (.unit 3.5 "km"), q) ∧
      run (first.addedUp rest) = (.ok (.unit 3.5 "km"), q)) ∧
    Text.lowerAscii "Mean" ∈ ["average", "mean"] ∧
      s.Suffices 4 (.call "Mean" (first :: rest)) p ∧ s.Suffices 4 (first.averaged rest) p ∧
      run (.call "Mean" (first :: rest)) = (.ok (.unit (3.5 / 3) "km"), q) ∧
      run (first.averaged rest) = (.ok (.unit (3.5 / 3) "km"), q) := by
  intro s p q first rest run
  have total : run (first.addedUp rest) = (.ok (.unit 3.5 "km"), q) := by decide +kernel
  have mean : run (first.averaged rest) = (.ok (.unit (3.5 / 3) "km"), q) := by decide +kernel
  have totalCall : run (.call "total" (first :: rest)) = (.ok (.unit 3.5 "km"), q) := by
    decide +kernel
  have meanCall : run (.call "Mean" (first :: rest)) = (.ok (.unit (3.5 / 3) "km"), q) := by
    decide +kernel
  obtain ⟨sums, averages⟩ := aggregates_as_written s 4 p first rest
  refine ⟨⟨by decide, suffices_of_ok totalCall, suffices_of_ok total, ?_, total⟩,
    by decide, suffices_of_ok meanCall, suffices_of_ok mean, ?_, mean⟩
  · exact (sums "total" (by decide) (suffices_of_ok totalCall) (suffices_of_ok total) _ _).2 total
  · exact (averages "Mean" (by decide) (suffices_of_ok meanCall) (suffices_of_ok mean) _ _).2 mean

end Surroundings

end NotepadCalculator
