import Mathlib.Data.List.Forall2
import NotepadCalculator.Proofs.EvaluationSteps
import NotepadCalculator.Proofs.UnitSpellings

/-!
Expressions that spell their units differently. A unit is given under its own name however it was
written, so the spelling does not reach a value: two expressions that differ in spellings of units
only come to the same value, or both fail with an error of one kind, and read and bind the same.
-/
namespace NotepadCalculator
open Calendar Measurement Money Number

variable {α β γ : Type}

def EvalError.SameKind (e f : EvalError) : Prop := e.ctorIdx = f.ctorIdx

theorem EvalError.sameKind_refl (e : EvalError) : e.SameKind e := rfl

theorem EvalError.sameKind_ofUnitFault {e f : UnitFault} (same : e.SameKind f) :
    (EvalError.ofUnitFault e).SameKind (.ofUnitFault f) := by
  cases e <;> cases f <;> first | rfl | cases same

theorem measured_akin {x y : Except UnitFault β} (akin : Akin UnitFault.SameKind x y) :
    Akin EvalError.SameKind (measured x) (measured y) := by
  cases akin with
  | ok b => exact .ok b
  | error same => exact .error (EvalError.sameKind_ofUnitFault same)

/-- Expressions that are built alike. Units and targets of conversions are related by `S`, and
    everything else is the same. -/
inductive Expr.Respelled (S : String → String → Prop) : Expr α → Expr α → Prop where
  | leaf {e : Expr α} (whole : e.parts = []) : Respelled S e e
  | unit {v w : String} (a : α) (same : S v w) : Respelled S (.unit a v) (.unit a w)
  | assign {e f : Expr α} (name : String) (value : Respelled S e f) :
      Respelled S (.assign name e) (.assign name f)
  | binary {e e' f f' : Expr α} (op : BinaryOp) (left : Respelled S e e')
      (right : Respelled S f f') : Respelled S (.binary op e f) (.binary op e' f')
  | unary {e f : Expr α} (op : UnaryOp) (operand : Respelled S e f) :
      Respelled S (.unary op e) (.unary op f)
  | call {es fs : List (Expr α)} (name : String) (arguments : List.Forall₂ (Respelled S) es fs) :
      Respelled S (.call name es) (.call name fs)
  | convert {e f : Expr α} {v w : String} (value : Respelled S e f) (same : S v w) :
      Respelled S (.convert e v) (.convert f w)

def Expr.RespelledStep (S : String → String → Prop) (first second : BinaryOp × Expr α) : Prop :=
  first.1 = second.1 ∧ first.2.Respelled S second.2

theorem Expr.spineOnto_respelled {S : String → String → Prop} {e f : Expr α}
    {steps steps' : List (BinaryOp × Expr α)} (respelled : e.Respelled S f)
    (others : List.Forall₂ (RespelledStep S) steps steps') :
    (e.spineOnto steps).1.Respelled S (f.spineOnto steps').1 ∧
      List.Forall₂ (RespelledStep S) (e.spineOnto steps).2 (f.spineOnto steps').2 := by
  fun_induction spineOnto e steps generalizing f steps' with
  | case1 op left right steps ih =>
    cases respelled with
    | leaf whole => simp [parts] at whole
    | binary _ here there =>
      rw [spineOnto]
      exact ih here (.cons ⟨rfl, there⟩ others)
  | case2 e steps notBinary =>
    cases respelled with
    | binary op _ _ => exact absurd rfl (notBinary op _ _)
    | leaf whole =>
      rw [spineOnto.eq_2 _ _ notBinary]
      exact ⟨.leaf whole, others⟩
    | unit a same => exact ⟨.unit a same, others⟩
    | assign name value => exact ⟨.assign name value, others⟩
    | unary op operand => exact ⟨.unary op operand, others⟩
    | call name arguments => exact ⟨.call name arguments, others⟩
    | convert value same => exact ⟨.convert value same, others⟩

namespace Evaluation

/-- From any progress both come to the same answer, or to errors of one kind, and leave the same
    progress. -/
def Matches (m n : Evaluation α β) : Prop :=
  ∀ p, Akin EvalError.SameKind (runFrom m p).1 (runFrom n p).1 ∧
    (runFrom m p).2 = (runFrom n p).2

theorem matches_refl (m : Evaluation α β) : Matches m m :=
  fun _ => ⟨akin_refl EvalError.sameKind_refl _, rfl⟩

theorem matches_ofAnswer {x y : Answer β} (akin : Akin EvalError.SameKind x y) :
    Matches (ofAnswer x : Evaluation α β) (ofAnswer y) := by
  intro p
  rw [runFrom_ofAnswer, runFrom_ofAnswer]
  exact ⟨akin, rfl⟩

theorem matches_bind {m n : Evaluation α β} {f g : β → Evaluation α γ} (first : Matches m n)
    (rest : ∀ b, Matches (f b) (g b)) : Matches (m >>= f) (n >>= g) := by
  intro p
  obtain ⟨answers, progress⟩ := first p
  rw [runFrom_bind, runFrom_bind]
  cases here : runFrom m p with
  | mk answer q =>
    cases there : runFrom n p with
    | mk answer' q' =>
      rw [here, there] at answers progress
      obtain rfl : q = q' := progress
      cases answers with
      | ok b => exact rest b q
      | error same => exact ⟨.error same, rfl⟩

variable {δ : Type} {P : δ → δ → Prop}

theorem matches_mapM {f : δ → Evaluation α β} (each : ∀ x y, P x y → Matches (f x) (f y))
    {xs ys : List δ} (items : List.Forall₂ P xs ys) : Matches (xs.mapM f) (ys.mapM f) := by
  induction items with
  | nil => exact matches_refl _
  | cons item _ ih =>
    rw [List.mapM_cons, List.mapM_cons]
    apply matches_bind (each _ _ item)
    intro b
    apply matches_bind ih
    intro bs
    exact matches_refl _

theorem matches_foldlM {f : β → δ → Evaluation α β}
    (each : ∀ b x y, P x y → Matches (f b x) (f b y)) {xs ys : List δ}
    (items : List.Forall₂ P xs ys) (b : β) : Matches (xs.foldlM f b) (ys.foldlM f b) := by
  induction items generalizing b with
  | nil => exact matches_refl _
  | cons item _ ih =>
    rw [List.foldlM_cons, List.foldlM_cons]
    apply matches_bind (each b _ _ item)
    exact ih

end Evaluation

open Evaluation

/-- The same text, or two names of one unit that name no currency. -/
def Tables.Interchangeable [Amount α] (t : Tables α) (v w : String) : Prop :=
  v = w ∨ t.units.Synonymous v w ∧ t.rates.codeOf? v = none ∧ t.rates.codeOf? w = none

theorem Tables.convert_interchangeable [Amount α] {t : Tables α} (named : t.units.Named)
    {v w : String} (same : t.Interchangeable v w) (value : Value α) :
    Akin EvalError.SameKind (t.convert value v) (t.convert value w) := by
  obtain rfl | ⟨synonymous, noCode, noCode'⟩ := same
  · exact akin_refl EvalError.sameKind_refl _
  have unit := UnitSystem.sameUnit_of_synonymous named synonymous
  obtain ⟨canonical, first, second⟩ := synonymous
  cases value with
  | scalar tag a =>
    cases tag with
    | unit name =>
      apply akin_bind (measured_akin (UnitSystem.convert_of_sameUnit unit a name))
      intro converted
      rw [first, second]
      exact akin_refl EvalError.sameKind_refl _
    | currency code =>
      simp only [Tables.convert, noCode, noCode']
      exact .error rfl
    | number => exact .error rfl
    | percent => exact .error rfl
  | date moment => exact .error rfl
  | text content => exact .error rfl

namespace Surroundings
variable [Amount α] {s : Surroundings α}

theorem unitLiteral_interchangeable (a : α) {v w : String}
    (same : s.tables.Interchangeable v w) : s.unitLiteral a v = s.unitLiteral a w := by
  obtain rfl | ⟨⟨canonical, first, second⟩, -⟩ := same
  · rfl
  · simp only [unitLiteral, UnitSystem.isUnit_of_canonicalName first,
      UnitSystem.isUnit_of_canonicalName second, if_true, first, second]

section
variable {S : String → String → Prop} {inner : Inner α}
  (deeper : ∀ e f : Expr α, e.Respelled S f → Matches (inner e) (inner f))
include deeper

theorem call_respelled (name : String) {es fs : List (Expr α)}
    (arguments : List.Forall₂ (Expr.Respelled S) es fs) :
    Matches (s.call inner name es) (s.call inner name fs) := by
  refine matches_bind (matches_refl _) fun f => ?_
  rw [arguments.length_eq]
  refine matches_bind (matches_refl _) fun _ => ?_
  have plain : Matches (es.mapM inner >>= fun values => ofAnswer (s.apply f values))
      (fs.mapM inner >>= fun values => ofAnswer (s.apply f values)) :=
    matches_bind (matches_mapM deeper arguments) fun values => matches_refl _
  cases arguments with
  | nil => exact matches_refl _
  | cons first rest =>
    cases f.builtin with
    | print => exact matches_bind (deeper _ _ first) fun value => matches_refl _
    | _ => exact plain

theorem chain_respelled {e f : Expr α} {steps steps' : List (BinaryOp × Expr α)}
    (first : e.Respelled S f) (rest : List.Forall₂ (Expr.RespelledStep S) steps steps') :
    Matches (s.chain inner e steps) (s.chain inner f steps') := by
  apply matches_bind (deeper _ _ first)
  intro value
  refine matches_foldlM ?_ rest value
  rintro left ⟨op, right⟩ ⟨_, right'⟩ ⟨rfl, operand⟩
  exact matches_bind (deeper _ _ operand) fun _ => matches_refl _

end

variable (named : s.tables.units.Named)
include named

theorem node_respelled {inner : Inner α}
    (deeper : ∀ e f : Expr α, e.Respelled s.tables.Interchangeable f →
      Matches (inner e) (inner f)) {e f : Expr α}
    (respelled : e.Respelled s.tables.Interchangeable f) :
    Matches (s.node inner e) (s.node inner f) := by
  cases respelled with
  | leaf whole =>
    -- Without parts nothing is evaluated a level down, so nothing can differ.
    exact matches_refl _
  | unit a same =>
    simp only [node, unitLiteral_interchangeable a same]
    exact matches_refl _
  | assign name value => exact matches_bind (deeper _ _ value) fun v => matches_refl _
  | binary op left right =>
    obtain ⟨first, steps⟩ := Expr.spineOnto_respelled (.binary op left right) .nil
    exact chain_respelled deeper first steps
  | unary op operand => exact matches_bind (deeper _ _ operand) fun v => matches_refl _
  | call name arguments => exact call_respelled deeper name arguments
  | convert value same =>
    apply matches_bind (deeper _ _ value)
    intro v
    exact matches_ofAnswer (Tables.convert_interchangeable named same v)

theorem withLevels_respelled (levels : Nat) (e f : Expr α)
    (respelled : e.Respelled s.tables.Interchangeable f) :
    Matches (s.withLevels levels e) (s.withLevels levels f) := by
  induction levels generalizing e f with
  | zero => exact matches_refl _
  | succ levels ih => exact node_respelled named ih respelled

end Surroundings

/-- Units may be spelled any way. In any surroundings whose units have come about from the standard
    ones, let two expressions differ only in that units in amounts and in conversions go by
    different names of the same unit, none of which names a currency. Evaluated over the same
    bindings they come to the same value, or both fail with an error of the same kind; and they
    read the same variables and lines and leave the same bindings. -/
theorem Surroundings.run_respelled [Amount α] (s : Surroundings α)
    (reached : s.tables.units.Reached) {e f : Expr α}
    (respelled : e.Respelled s.tables.Interchangeable f) (bindings : Bindings (Value α)) :
    Akin EvalError.SameKind (s.run bindings e).1 (s.run bindings f).1 ∧
      (s.run bindings e).2 = (s.run bindings f).2 :=
  withLevels_respelled (UnitSystem.named_of_reached reached) nestingLimit e f respelled
    (.start bindings)

theorem Surroundings.run_respelled_journey :
    let s : Surroundings Float :=
      ⟨⟨.standard, .standard⟩, Day.midnight ⟨0, by decide, by decide⟩, [], 1, 2⟩
    let journey (speed far : String) : Expr Float :=
      .convert (.binary .multiply (.unit 90 speed) (.unit 2 "h")) far
    s.tables.units.Reached ∧
      (journey "KM/Hour" "Miles").Respelled s.tables.Interchangeable (journey "km/h" "mi") ∧
      Akin EvalError.SameKind (s.run [] (journey "KM/Hour" "Miles")).1
        (s.run [] (journey "km/h" "mi")).1 ∧
      (s.run [] (journey "KM/Hour" "Miles")).2 = (s.run [] (journey "km/h" "mi")).2 := by
  intro s journey
  have reached : s.tables.units.Reached := .standard
  have named : ∀ names ∈ [("KM/Hour", "km/h"), ("Miles", "mi")],
      s.tables.units.canonicalName names.1 = .ok names.2 ∧
        s.tables.units.canonicalName names.2 = .ok names.2 ∧
          s.tables.rates.codeOf? names.1 = none ∧ s.tables.rates.codeOf? names.2 = none := by
    decide +kernel
  have same : ∀ names ∈ [("KM/Hour", "km/h"), ("Miles", "mi")],
      s.tables.Interchangeable names.1 names.2 := by
    intro names listed
    obtain ⟨first, second, noCode, noCode'⟩ := named names listed
    exact .inr ⟨⟨_, first, second⟩, noCode, noCode'⟩
  have respelled : (journey "KM/Hour" "Miles").Respelled s.tables.Interchangeable
      (journey "km/h" "mi") :=
    .convert (.binary _ (.unit _ (same ("KM/Hour", "km/h") (by decide))) (.leaf rfl))
      (same ("Miles", "mi") (by decide))
  exact ⟨reached, respelled, run_respelled s reached respelled []⟩

end NotepadCalculator
