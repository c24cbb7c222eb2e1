import Mathlib.Control.Monad.Basic
import Mathlib.Tactic.Ring
import NotepadCalculator.Proofs.EvaluationRules
import NotepadCalculator.Proofs.ExactAmounts
import NotepadCalculator.Proofs.FailedLines
import NotepadCalculator.Proofs.PrintedExpressions

/-!
Phrases about percentages. `increase E by Y%` is read as a product of `E` and a factor, and
`Y% of E` takes the percentage before the whole. Amounts being exact, both come to what the
percentage comes to behind an operator. The order matters for neither value, since without
assignments an evaluation depends on nothing that another one leaves.
-/
namespace NotepadCalculator
open Calendar Measurement Money Number

variable {α β γ : Type}

/-- `increase E by Y%`, `decrease E by Y%` and `Y% of E`. -/
inductive PercentagePhrase where
  | increase
  | decrease
  | partOf
  deriving DecidableEq, Repr

namespace PercentagePhrase

def tree [Amount α] (phrase : PercentagePhrase) (base part : Expr α) : Expr α :=
  match phrase with
  | .increase => base.changeBy .add (.unary .percent part)
  | .decrease => base.changeBy .subtract (.unary .percent part)
  | .partOf => .partOf (.unary .percent part) base

def operator : PercentagePhrase → BinaryOp
  | .increase => .add
  | .decrease => .subtract
  | .partOf => .multiply

def result (phrase : PercentagePhrase) (a y : ℚ) : ℚ :=
  match phrase with
  | .increase => a + a * y / 100
  | .decrease => a - a * y / 100
  | .partOf => a * y / 100

end PercentagePhrase

/-! The rules of the grammar for the phrases. -/

namespace Grammar
open Parse
variable {deeper : Deeper} {c middle later : Cursor} {base amount part : Expr Float}

theorem run_changeTerm {op : BinaryOp}
    (based : (additive deeper).run c.forward = .ok (base, middle))
    (joined : middle.current.kind = .keyword .by)
    (changed : (deeper .polarity).run middle.forward = .ok (amount, later)) :
    (changeTerm deeper op).run c = .ok (base.changeBy op amount, later) := by
  rw [changeTerm, run_advance, run_bind_of_ok based, run_expect_current joined,
    run_bind_of_ok changed]
  rfl

theorem run_change (based : (additive deeper).run c.forward = .ok (base, middle))
    (joined : middle.current.kind = .keyword .by)
    (parted : (deeper .polarity).run middle.forward = .ok (.unary .percent part, later)) :
    (c.current.kind = .keyword .increase →
      (term deeper).run c = .ok (PercentagePhrase.increase.tree base part, later)) ∧
    (c.current.kind = .keyword .decrease →
      (term deeper).run c = .ok (PercentagePhrase.decrease.tree base part, later)) := by
  constructor
  · intro named
    rw [term, run_current, named]
    exact run_changeTerm based joined parted
  · intro named
    rw [term, run_current, named]
    exact run_changeTerm based joined parted

/-- The part has been passed, and other suffixes may follow the whole. -/
theorem run_of (percent : c.current.kind = .percent) (joined : c.following.kind = .keyword .of)
    (based : (deeper .polarity).run c.forward.forward = .ok (base, later)) (fuel : Nat) :
    (suffixesFuel deeper (fuel + 1) part).run c =
      (suffixesFuel deeper fuel (PercentagePhrase.partOf.tree base part)).run later := by
  have ends : c.following.startsOperand = false := by
    simp [Token.startsOperand, Keyword.startsOperand, joined]
  have suffix : suffix? c.current c.following = some .percent := by simp [suffix?, percent, ends]
  have applied : (applySuffix deeper part .percent).run c.forward =
      .ok (PercentagePhrase.partOf.tree base part, later) := by
    have here : c.forward.current.kind = .keyword .of := joined
    rw [applySuffix, run_isAt]
    simp only [here, decide_true, if_true]
    rw [run_advance, run_bind_of_ok based]
    rfl
  rw [suffixesFuel, run_current, run_following, suffix]
  simp only
  rw [run_advance]
  exact run_bind_of_ok applied

end Grammar

/-! Order. -/

namespace Progress

def andThen (p q : Progress α) : Progress α :=
  ⟨q.bindings, p.linesRead ++ q.linesRead, p.variablesRead ++ q.variablesRead⟩

theorem andThen_assoc (p q r : Progress α) :
    (p.andThen q).andThen r = p.andThen (q.andThen r) := by
  simp only [andThen, List.append_assoc]

structure SameReads (p q : Progress α) : Prop where
  bindings : p.bindings = q.bindings
  linesRead : p.linesRead.Perm q.linesRead
  variablesRead : p.variablesRead.Perm q.variablesRead

theorem SameReads.refl (p : Progress α) : p.SameReads p := ⟨rfl, .refl _, .refl _⟩

theorem andThen_swap (p : Progress α) {q r : Progress α} (bound : q.bindings = r.bindings) :
    SameReads ((p.andThen q).andThen r) ((p.andThen r).andThen q) := by
  have swapped {δ : Type} (front first second : List δ) :
      ((front ++ first) ++ second).Perm ((front ++ second) ++ first) := by
    rw [List.append_assoc, List.append_assoc]
    exact List.perm_append_comm.append_left front
  exact ⟨bound.symm, swapped _ _ _, swapped _ _ _⟩

end Progress

namespace Evaluation

/-- The computation adds to what has been recorded before and never looks at it. -/
def Records (m : Evaluation α β) : Prop :=
  ∀ p, runFrom m p =
    ((runFrom m (.start p.bindings)).1, p.andThen (runFrom m (.start p.bindings)).2)

theorem records_bind {m : Evaluation α β} {f : β → Evaluation α γ} (first : Records m)
    (rest : ∀ b, Records (f b)) : Records (m >>= f) := by
  intro p
  rw [runFrom_bind, runFrom_bind, first p]
  cases runFrom m (.start p.bindings) with
  | mk answer q =>
    cases answer with
    | error e => rfl
    | ok b =>
      simp only
      rw [rest b q, rest b (p.andThen q), Progress.andThen_assoc]
      rfl

theorem congruence_records :
    Congruence (α := α) (fun {β} m (_ : Evaluation α β) => Records m) where
  answer answer p := by simp [runFrom_ofAnswer, Progress.andThen, Progress.start]
  valueOf name p := by simp [runFrom_valueOf?, Progress.andThen, Progress.start]
  noteVariable name p := by
    have noted (p : Progress α) : runFrom (noteVariable name) p = (.ok (), p.withVariable name) :=
      rfl
    simp [noted, Progress.withVariable, Progress.andThen, Progress.start]
  noteLine line p := by
    have noted (p : Progress α) : runFrom (noteLine line) p = (.ok (), p.withLine line) := rfl
    simp [noted, Progress.withLine, Progress.andThen, Progress.start]
  bindName name value p := by
    simp [runFrom_bindName, Progress.withBinding, Progress.andThen, Progress.start]
  sequence := records_bind

end Evaluation

open Evaluation

namespace Surroundings

section
variable [Amount α] {s : Surroundings α}

theorem evaluates_bindings {e : Expr α} {value : Value α} {p q : Progress α}
    (free : e.AssignmentFree) (evaluated : s.Evaluates e p value q) : q.bindings = p.bindings := by
  obtain ⟨levels, ran⟩ := evaluated
  have kept := withLevels_bindings s levels free p
  rwa [ran] at kept

theorem evaluates_records {e : Expr α} {value : Value α} {p q : Progress α}
    (evaluated : s.Evaluates e p value q) :
    ∃ r, q = p.andThen r ∧ ∀ o : Progress α, o.bindings = p.bindings →
      s.Evaluates e o value (o.andThen r) := by
  obtain ⟨levels, ran⟩ := evaluated
  have records := congruence_records.withLevels s levels e
  rw [records p, Prod.mk.injEq] at ran
  obtain ⟨answered, rfl⟩ := ran
  refine ⟨_, rfl, fun o same => ⟨levels, ?_⟩⟩
  rw [records o, same, answered]

/-- Two expressions without assignments may be evaluated in either order. -/
theorem evaluates_either_first {e f : Expr α} {a b : Value α} {p m n : Progress α}
    (free : e.AssignmentFree) (others : f.AssignmentFree) (first : s.Evaluates e p a m)
    (second : s.Evaluates f p b n) :
    ∃ q r, s.Evaluates f m b q ∧ s.Evaluates e n a r ∧ r.SameReads q := by
  have kept := evaluates_bindings free first
  have keptAlso := evaluates_bindings others second
  obtain ⟨_, rfl, here⟩ := evaluates_records first
  obtain ⟨_, rfl, there⟩ := evaluates_records second
  exact ⟨_, _, there _ kept, here _ keptAlso, p.andThen_swap (keptAlso.trans kept.symm)⟩

theorem scalars_of_tag (t : Tables α) {tag : Tag} (scales : tag ≠ .percent) (a b : α) :
    t.scalars .multiply tag a .number b = .ok (.scalar tag (a * b)) ∧
      (∀ op, t.scalars op tag a .percent b = percentageRight op tag a b) ∧
      t.scalars .remainder .percent b tag a = .ok (.scalar tag (a * b / hundred)) := by
  cases tag with
  | percent => contradiction
  | _ => exact ⟨rfl, fun _ => rfl, rfl⟩

end

/-! Exact amounts. -/

theorem ofNat_rat (n : Nat) : (Amount.ofNat n : ℚ) = n := Rat.mkRat_one n

theorem hundred_rat : (hundred : ℚ) = 100 := ofNat_rat 100

variable {s : Surroundings ℚ} {base part : Expr ℚ} {tag : Tag} {a y : ℚ} {p m n : Progress ℚ}

theorem evaluates_hundredth (parted : s.Evaluates part m (.number y) n) :
    s.Evaluates (.binary .divide part (.number (Amount.ofNat 100))) m (.number (y / 100)) n := by
  refine evaluates_binary.2 ⟨_, n, .number 100, parted, ?_, ?_⟩
  · exact evaluates_number.2 ⟨by rw [ofNat_rat]; rfl, rfl⟩
  · have nonzero : Amount.isZero (100 : ℚ) = false := by decide +kernel
    simp [Tables.binary, Tables.scalars, numbers, quotient, nonzero]

theorem evaluates_changeBy {op : BinaryOp} {factor b : ℚ} (scales : tag ≠ .percent)
    (based : s.Evaluates base p (.scalar tag a) m) (parted : s.Evaluates part m (.number y) n)
    (changed : numbers op 1 (y / 100) = .ok (.number factor)) (scaled : a * factor = b) :
    s.Evaluates (base.changeBy op (.unary .percent part)) p (.scalar tag b) n := by
  have one : s.Evaluates (.number (Amount.ofNat 1)) m (.number 1) m :=
    evaluates_number.2 ⟨by rw [ofNat_rat]; rfl, rfl⟩
  have multiplied : s.Evaluates _ m (.number factor) n :=
    evaluates_binary.2 ⟨_, m, _, one, evaluates_hundredth parted, changed⟩
  refine evaluates_binary.2 ⟨_, m, _, based, multiplied, ?_⟩
  rw [← scaled]
  exact (scalars_of_tag s.tables scales a factor).1

theorem evaluates_partOf (scales : tag ≠ .percent) (parted : s.Evaluates part p (.number y) m)
    (based : s.Evaluates base m (.scalar tag a) n) :
    s.Evaluates (.partOf (.unary .percent part) base) p (.scalar tag (a * y / 100)) n := by
  refine evaluates_binary.2 ⟨_, m, _, evaluates_unary.2 ⟨_, parted, rfl⟩, based, ?_⟩
  rw [← hundred_rat]
  exact (scalars_of_tag s.tables scales a y).2.2

theorem evaluates_operator (phrase : PercentagePhrase) (scales : tag ≠ .percent)
    (based : s.Evaluates base p (.scalar tag a) m) (parted : s.Evaluates part m (.number y) n) :
    s.Evaluates (.binary phrase.operator base (.unary .percent part)) p
      (.scalar tag (phrase.result a y)) n := by
  have taken : percentageRight phrase.operator tag a y = .ok (.scalar tag (phrase.result a y)) := by
    cases phrase <;> simp only [PercentagePhrase.operator, PercentagePhrase.result,
      percentageRight, hundred_rat]
  have combined := (scalars_of_tag s.tables scales a y).2.1 phrase.operator
  exact evaluates_binary.2
    ⟨_, m, _, based, evaluates_unary.2 ⟨_, parted, rfl⟩, combined.trans taken⟩

theorem evaluates_phrase (phrase : PercentagePhrase) (baseFree : base.AssignmentFree)
    (partFree : part.AssignmentFree) (scales : tag ≠ .percent)
    (based : s.Evaluates base p (.scalar tag a) m) (parted : s.Evaluates part p (.number y) n) :
    ∃ q r, q.SameReads r ∧
      s.Evaluates (phrase.tree base part) p (.scalar tag (phrase.result a y)) q ∧
      s.Evaluates (.binary phrase.operator base (.unary .percent part)) p
        (.scalar tag (phrase.result a y)) r := by
  obtain ⟨q, r, partedLast, basedLast, same⟩ :=
    evaluates_either_first baseFree partFree based parted
  have operator := evaluates_operator phrase scales based partedLast
  cases phrase with
  | increase =>
    have factor : numbers .add 1 (y / 100) = .ok (.number (1 + y / 100)) := rfl
    have scaled : a * (1 + y / 100) = a + a * y / 100 := by ring
    have changed := evaluates_changeBy scales based partedLast factor scaled
    exact ⟨q, q, .refl q, changed, operator⟩
  | decrease =>
    have factor : numbers .subtract 1 (y / 100) = .ok (.number (1 - y / 100)) := rfl
    have scaled : a * (1 - y / 100) = a - a * y / 100 := by ring
    have changed := evaluates_changeBy scales based partedLast factor scaled
    exact ⟨q, q, .refl q, changed, operator⟩
  | partOf => exact ⟨r, q, same, evaluates_partOf scales parted basedLast, operator⟩

end Surroundings

open Grammar in
/-- Phrases about percentages agree with the operators. Where the grammar has read the base and the
    part, with the words of the phrase around them, it takes the phrase for its tree. And wherever
    the base comes to a number, a quantity or money and the part to a number, and neither form is
    given up for depth, the tree comes to the same value as the base with the operator and the
    percentage behind it, leaves the same bindings and reads the same lines and variables. Neither
    side assigns anything, as nothing does that the grammar puts inside an expression. -/
theorem phrases_as_operators :
    (∀ (deeper : Deeper) (c middle later : Cursor) (base part : Expr Float),
      (additive deeper).run c.forward = .ok (base, middle) →
      middle.current.kind = .keyword .by →
      (deeper .polarity).run middle.forward = .ok (.unary .percent part, later) →
      (c.current.kind = .keyword .increase →
        (term deeper).run c = .ok (PercentagePhrase.increase.tree base part, later)) ∧
      (c.current.kind = .keyword .decrease →
        (term deeper).run c = .ok (PercentagePhrase.decrease.tree base part, later))) ∧
    (∀ (deeper : Deeper) (c later : Cursor) (base part : Expr Float),
      c.current.kind = .percent → c.following.kind = .keyword .of →
      (deeper .polarity).run c.forward.forward = .ok (base, later) → ∀ fuel,
      (suffixesFuel deeper (fuel + 1) part).run c =
        (suffixesFuel deeper fuel (PercentagePhrase.partOf.tree base part)).run later) ∧
    ∀ (s : Surroundings ℚ) (levels : Nat) (phrase : PercentagePhrase) (base part : Expr ℚ)
      (tag : Tag) (a y : ℚ) (p m n : Progress ℚ),
      base.AssignmentFree → part.AssignmentFree → tag ≠ .percent →
      s.Evaluates base p (.scalar tag a) m → s.Evaluates part p (.number y) n →
      s.Suffices levels (phrase.tree base part) p →
      s.Suffices levels (.binary phrase.operator base (.unary .percent part)) p →
      ∃ q r, q.SameReads r ∧ runFrom (s.withLevels levels (phrase.tree base part)) p =
          (.ok (.scalar tag (phrase.result a y)), q) ∧
        runFrom (s.withLevels levels (.binary phrase.operator base (.unary .percent part))) p =
          (.ok (.scalar tag (phrase.result a y)), r) := by
  refine ⟨?_, ?_, ?_⟩
  · intro deeper c middle later base part based joined parted
    exact run_change based joined parted
  · intro deeper c later base part percent joined based fuel
    exact run_of percent joined based fuel
  · intro s levels phrase base part tag a y p m n baseFree partFree scales based parted
      phraseEnough operatorEnough
    obtain ⟨q, r, same, phrased, operated⟩ :=
      Surroundings.evaluates_phrase phrase baseFree partFree scales based parted
    exact ⟨q, r, same, (Surroundings.evaluates_iff phraseEnough).1 phrased,
      (Surroundings.evaluates_iff operatorEnough).1 operated⟩

open Grammar Surroundings in
theorem phrases_as_operators_price :
    let middle : Cursor :=
      ⟨[⟨.keyword .by, "by", 14⟩, ⟨.identifier, "prev", 17⟩, ⟨.percent, "%", 21⟩], 22⟩
    let c : Cursor :=
      ⟨⟨.keyword .increase, "increase", 0⟩ :: ⟨.identifier, "prev", 9⟩ :: middle.rest, 22⟩
    let s : Surroundings ℚ := ⟨⟨.standard, ⟨[]⟩⟩, Day.midnight ⟨0, by decide, by decide⟩, [], 1, 2⟩
    let p : Progress ℚ := .start [("price", .currency 80 "USD"), ("rate", .number 5)]
    let price : Expr ℚ := .variable "price"
    let rate : Expr ℚ := .variable "rate"
    let product : Expr ℚ := .binary .multiply price (.unary .percent rate)
    let run (e : Expr ℚ) := runFrom (s.withLevels 5 e) p
    (term (Grammar.withLevels 3)).run c =
        .ok (PercentagePhrase.increase.tree (.previous .latest) (.previous .latest), ⟨[], 22⟩) ∧
      s.Evaluates price p (.currency 80 "USD") ⟨p.bindings, [], ["price"]⟩ ∧
      s.Evaluates rate p (.number 5) ⟨p.bindings, [], ["rate"]⟩ ∧
      ∃ q r, q.SameReads r ∧
        run (PercentagePhrase.partOf.tree price rate) = (.ok (.currency 4 "USD"), q) ∧
        run product = (.ok (.currency 4 "USD"), r) := by
  intro middle c s p price rate product run
  obtain ⟨change, _, agree⟩ := phrases_as_operators
  have before : (additive (Grammar.withLevels 3)).run c.forward =
      .ok (.previous .latest, middle) := by
    simp only [middle, c]
    rfl
  have behind : (Grammar.withLevels 3 .polarity).run middle.forward =
      .ok (.unary .percent (.previous .latest), ⟨[], 22⟩) := by
    simp only [middle]
    rfl
  have read := (change (Grammar.withLevels 3) c middle ⟨[], 22⟩ _ _ before rfl behind).1 rfl
  have free (name : String) : (Expr.variable name : Expr ℚ).AssignmentFree :=
    .intro rfl (by simp [Expr.parts])
  have based : s.Evaluates price p (.currency 80 "USD") ⟨p.bindings, [], ["price"]⟩ := ⟨1, rfl⟩
  have parted : s.Evaluates rate p (.number 5) ⟨p.bindings, [], ["rate"]⟩ := ⟨1, rfl⟩
  have phraseEnough : s.Suffices 5 (PercentagePhrase.partOf.tree price rate) p := by
    have ran : run (PercentagePhrase.partOf.tree price rate) =
      (.ok (.currency 4 "USD"), ⟨p.bindings, [], ["rate", "price"]⟩) := by decide +kernel
    exact suffices_of_ok ran
  have operatorEnough : s.Suffices 5 product p := by
    have ran : run product = (.ok (.currency 4 "USD"), ⟨p.bindings, [], ["price", "rate"]⟩) := by
      decide +kernel
    exact suffices_of_ok ran
  have share : PercentagePhrase.partOf.result 80 5 = 4 := by decide +kernel
  have both := agree s 5 .partOf price rate (.currency "USD") 80 5 p _ _ (free "price")
    (free "rate") (by decide) based parted phraseEnough operatorEnough
  rw [share] at both
  exact ⟨read, based, parted, both⟩

end NotepadCalculator
