import NotepadCalculator.Proofs.JoinedLines
import NotepadCalculator.Proofs.WrappedParses

/-!
Questions and parentheses around a whole line. `what is` before an expression is passed over, and
parentheses around it only take up two levels, one for the expression inside and one for the sign
that could stand before it. So the line comes to the same tree, as long as there are levels enough.
-/
namespace NotepadCalculator
open Number Text

variable {line : String} {e : Expr Float}

namespace Scan

theorem Scans.enclosed {cs : List Char} {ls : List Lexeme} (scans : Scans .opening 0 cs ls)
    (plain : ¬ StartsCommand cs) (noComment : ¬ ['/', '/'] <:+: cs)
    (closed : ∀ l ∈ ls, l.token.kind ≠ .error) :
    Scans .opening 0 ('(' :: (cs ++ [')']))
      (⟨⟨.openParen, "(", 0⟩, 1⟩ ::
        (ls.map (·.shift 1) ++ [⟨⟨.closeParen, ")", 1 + cs.length⟩, 1⟩])) := by
  have noArguments : ¬ Commands .words cs := by simp [Commands]
  have inner : Scans .words 1 cs (ls.map (·.shift 1)) :=
    (scans.shifted 1).within plain (by simp) rfl
  have breaks : Breaks [')'] := by
    simp only [Breaks, List.head?_cons, Option.mem_some_iff, forall_eq']
    decide
  have closes : Closes .words cs (ls.map (·.shift 1)) [')'] := by
    constructor
    · intro l member error
      obtain ⟨l, among, rfl⟩ := List.mem_map.1 member
      exact absurd error (closed l among)
    · intro _ _ _
      rfl
    · intro commands
      exact absurd commands noArguments
    · intro _
      simp
  have behind (mode : Mode) (arguments : mode = .arguments → Commands .words cs) :
      Scans mode (1 + cs.length) [')'] [⟨⟨.closeParen, ")", 1 + cs.length⟩, 1⟩] := by
    have inside : mode ≠ .arguments := fun same => noArguments (arguments same)
    have reads : read mode (isGlued mode [')']) ')' [] = (⟨.closeParen, [')'], 1⟩, .words) := by
      rw [read_plain inside (by decide)]
      rfl
    exact @Scans.next _ _ _ [] _ _ _ _ (by simp) (by decide) (by simp) reads (.ended (by simp))
  have whole := inner.append breaks closes (.inr noComment) behind
  exact @Scans.next _ _ _ [] _ _ _ _ (by simp) (by decide) (by simp) rfl whole

end Scan
open Scan

/-- Tokens after the question words stand eight characters further on. -/
theorem tokenize_question (plain : firstVisible? line ≠ some ':') :
    tokenize ("what is " ++ line) = ⟨.keyword .what, "what", 0⟩ :: ⟨.keyword .is, "is", 5⟩ ::
      (tokenize line).map (·.shift 8) := by
  have words : lexemes "what is" =
      [⟨⟨.keyword .what, "what", 0⟩, 4⟩, ⟨⟨.keyword .is, "is", 5⟩, 2⟩] := by decide +kernel
  have question : firstVisible? "what is" ≠ some ':' := by decide
  have closes : Closes .opening "what is".toList (lexemes "what is") (' ' :: line.toList) := by
    rw [words]
    constructor
    · simp
    · simp
    · intro commands
      exact absurd commands (not_commands question)
    · simp
  have first : tokenize "what is" = [⟨.keyword .what, "what", 0⟩, ⟨.keyword .is, "is", 5⟩] := by
    rw [tokenize, words]
    rfl
  have text : "what is " = "what is" ++ " " := by decide
  rw [text, tokenize_append_space (by decide) question plain closes, first]
  rfl

theorem tokenize_enclosed (plain : firstVisible? line ≠ some ':')
    (noComment : ¬ ['/', '/'] <:+: line.toList) (closed : ∀ t ∈ tokenize line, t.kind ≠ .error) :
    tokenize ("(" ++ line ++ ")") = ⟨.openParen, "(", 0⟩ ::
      ((tokenize line).map (·.shift 1) ++ [⟨.closeParen, ")", 1 + line.length⟩]) := by
  have scans := (scans_lexemes line).enclosed plain noComment fun l member =>
    closed l.token (List.mem_map_of_mem member)
  have characters : ("(" ++ line ++ ")").toList = '(' :: (line.toList ++ [')']) := by simp
  rw [tokenize_of_scans (characters ▸ scans), tokenize, ← String.length_toList]
  simp only [List.map_cons, List.map_append, List.map_map, List.map_nil]
  rfl

def Expr.isFormula {α : Type} : Expr α → Bool
  | .blank | .command _ _ | .assign _ _ => false
  | _ => true

namespace Grammar
open Parse
variable {c later : Cursor}

theorem complete_eq_ok :
    complete.run c = .ok (e, later) ↔
      statement.run c = .ok (e, later) ∧ later.current.kind = .eof := by
  have ends (e' : Expr Float) (middle : Cursor) :
      (do if ← isAt .eof then return e' else failUnexpected : Parse (Expr Float)).run middle =
        .ok (e, later) ↔ (e', middle) = (e, later) ∧ later.current.kind = .eof := by
    rw [run_isAt]
    by_cases ended : middle.current.kind = .eof
    · simp only [ended, decide_true, if_true]
      constructor
      · intro run
        obtain ⟨rfl, rfl⟩ := Prod.mk.inj (Except.ok.inj run)
        exact ⟨rfl, ended⟩
      · rintro ⟨same, -⟩
        exact congrArg Except.ok same
    · simp only [ended, decide_false, Bool.false_eq_true, if_false]
      constructor
      · intro run
        cases run
      · rintro ⟨same, there⟩
        obtain ⟨rfl, rfl⟩ := Prod.mk.inj same
        exact absurd there ended
  rw [complete, StateT.run_bind]
  cases statement.run c with
  | error error => simp [bind, Except.bind]
  | ok result =>
    have split := ends result.1 result.2
    simpa [bind, Except.bind] using split

theorem run_statement_bare (noName : c.current.kind ≠ .identifier ∨ c.following.kind ≠ .assign)
    (noQuestion : c.current.kind ≠ .keyword .what ∨ c.following.kind ≠ .keyword .is) :
    statement.run c = wholeExpression.run c := by
  have plain : (c.current.kind = .identifier && c.following.kind = .assign : Bool) = false := by
    simpa [imp_iff_not_or] using noName
  have bare :
      (c.current.kind = .keyword .what && c.following.kind = .keyword .is : Bool) = false := by
    simpa [imp_iff_not_or] using noQuestion
  rw [statement, run_current, run_following]
  simp only [plain, bare, Bool.false_eq_true, if_false]

theorem run_statement_question (what : c.current.kind = .keyword .what)
    (is : c.following.kind = .keyword .is) :
    statement.run c = wholeExpression.run c.forward.forward := by
  rw [statement, run_current, run_following]
  simp only [what, is]
  rfl

/-- A formula is read as a whole expression, if no question words stand before it. -/
theorem run_wholeExpression (formula : e.isFormula = true)
    (bare : c.current.kind ≠ .keyword .what ∨ c.following.kind ≠ .keyword .is)
    (stated : statement.run c = .ok (e, later)) : wholeExpression.run c = .ok (e, later) := by
  by_cases assigns : c.current.kind = .identifier ∧ c.following.kind = .assign
  · rw [statement, run_current, run_following] at stated
    simp only [assigns.1, assigns.2, decide_true, Bool.and_self, if_true] at stated
    by_cases reserved : isPrev c.current.text = true
    · simp only [reserved, if_true] at stated
      cases stated
    · simp only [reserved, Bool.false_eq_true, if_false] at stated
      rw [run_advance, run_advance, StateT.run_bind] at stated
      cases read : wholeExpression.run c.forward.forward with
      | error error =>
        rw [read] at stated
        cases stated
      | ok result =>
        rw [read] at stated
        obtain ⟨rfl, -⟩ := Prod.mk.inj (Except.ok.inj stated)
        contradiction
  · rw [← run_statement_bare (by tauto) bare]
    exact stated

theorem parse_statement {t : Token} {ts : List Token} (readable : ∀ s ∈ t :: ts, s.kind ≠ .error)
    (visible : t.kind ≠ .eof) (plain : t.kind ≠ .command) :
    parse true (t :: ts) = (complete.run (.ofTokens (t :: ts))).map (·.1) := by
  have none : (t :: ts).find? (·.kind = .error) = none := by simpa using readable
  have first : (Cursor.ofTokens (t :: ts)).current = t := rfl
  rw [parse, none]
  simp only [first, if_neg visible, if_neg plain, if_true]

/-! Parentheses. -/

section
variable {levels : Nat} (opens : c.current.kind = .openParen)
include opens

theorem tooDeep_enclosed (inner : TooDeep ((withLevels levels .expression).run c.forward)) :
    TooDeep ((withLevels (levels + 2) .expression).run c) := by
  have term : TooDeep ((term (withLevels levels)).run c) := by
    rw [Grammar.term, run_current]
    simp only [opens]
    rw [parenthesized, run_advance]
    exact tooDeep_bind inner _
  have polarity : TooDeep ((withLevels (levels + 1) .polarity).run c) := by
    rw [withLevels, Grammar.polarity, run_current]
    simp only [opens, sign?]
    exact tooDeep_bind term _
  exact tooDeep_bind (tooDeep_bind (tooDeep_bind polarity _) _) _

theorem run_enclosed (read : (withLevels levels .expression).run c.forward = .ok (e, later))
    (closes : later.current.kind = .closeParen) (closed : Closed later.forward) :
    (withLevels (levels + 2) .expression).run c = .ok (e, later.forward) := by
  have term : (term (withLevels levels)).run c = .ok (e, later.forward) := by
    rw [Grammar.term, run_current]
    simp only [opens]
    rw [parenthesized, run_advance, run_bind_of_ok read, run_expect_current closes]
    rfl
  have follows {level : Nat} : Follows level later.forward :=
    follows_mono (Nat.zero_le _) closed.follows
  have polarity : (withLevels (levels + 1) .polarity).run c = .ok (e, later.forward) := by
    rw [withLevels, Grammar.polarity, run_current]
    simp only [opens, sign?]
    rw [operand, run_bind_of_ok term, run_remaining]
    exact suffixesFuel_stops (suffix?_none follows) _ e
  have product : (multiplicative (withLevels (levels + 1))).run c = .ok (e, later.forward) := by
    rw [multiplicative, chain, run_bind_of_ok polarity, run_remaining]
    exact chainFuel_stops (multiplicativeOp?_none follows) _ e
  have sum : (additive (withLevels (levels + 1))).run c = .ok (e, later.forward) := by
    rw [additive, chain, run_bind_of_ok product, run_remaining]
    exact chainFuel_stops (additiveOp?_none follows) _ e
  rw [withLevels, expression, run_bind_of_ok sum, run_remaining]
  exact conversionsFuel_stops follows _ e

end

end Grammar

open Grammar Parse

/-- The expression that a line is, read with so many levels. -/
def expressionWithin (levels : Nat) (line : String) : Except ParseError (Expr Float) :=
  ((withLevels levels .expression).run (.ofTokens (tokenize line))).map (·.1)

structure Formula (line : String) (e : Expr Float) : Prop where
  readable : ∀ t ∈ tokenize line, t.kind ≠ .error
  plain : firstVisible? line ≠ some ':'
  read : ∃ later : Cursor, wholeExpression.run (.ofTokens (tokenize line)) = .ok (e, later) ∧
    later.current.kind = .eof

theorem formula_of_parseLine (parsed : parseLine true line = .ok e) (formula : e.isFormula = true)
    (bare : ¬ [.keyword .what, .keyword .is] <+: (tokenize line).map (·.kind)) :
    Formula line e := by
  obtain ⟨readable, ⟨_, rfl⟩ | ⟨_, commanded⟩ | ⟨visible, plain, _, later, read⟩⟩ :=
    parse_eq_ok.1 parsed
  · contradiction
  · unfold command at commanded
    split at commanded
    · contradiction
    · obtain rfl := Except.ok.inj commanded
      contradiction
  · obtain ⟨stated, ended⟩ := complete_eq_ok.1 read
    refine ⟨by simpa using readable, ?_, later, ?_, ended⟩
    · intro colon
      have first := (first_kind_iff line).2 colon
      cases tokens : tokenize line with
      | nil => simp [tokens] at first
      | cons t ts =>
        rw [tokens] at first plain
        exact plain (Option.some.inj first)
    · apply run_wholeExpression formula ?_ stated
      by_contra question
      rw [not_or, not_not, not_not] at question
      apply bare
      unfold Cursor.ofTokens Cursor.current Cursor.following at question
      match tokens : tokenize line with
      | [] => simp [tokens, Token.eof] at question
      | [_] => simp [tokens, Token.eof] at question
      | first :: second :: rest =>
        rw [tokens] at question
        have what : first.kind = .keyword .what := question.1
        have is : second.kind = .keyword .is := question.2
        exact ⟨rest.map (·.kind), by simp [what, is]⟩

theorem parseLine_question (formula : Formula line e) :
    parseLine true ("what is " ++ line) = .ok e := by
  obtain ⟨readable, plain, later, read, ended⟩ := formula
  have readable' : ∀ t ∈ (⟨.keyword .what, "what", 0⟩ : Token) :: ⟨.keyword .is, "is", 5⟩ ::
      (tokenize line).map (·.shift 8), t.kind ≠ .error := by simpa using readable
  rw [parseLine, tokenize_question plain, parse_statement readable' (by simp) (by simp)]
  generalize shown : Cursor.ofTokens (⟨.keyword .what, "what", 0⟩ :: ⟨.keyword .is, "is", 5⟩ ::
    (tokenize line).map (·.shift 8)) = c
  have relates : (⟨8, [], by simp⟩ : Wrapping).Relates (tokenize line).length
      (.ofTokens (tokenize line)) c.forward.forward := by
    subst shown
    exact ⟨(List.append_nil _).symm, fun t member => (tokenize_lexical line t member).1,
      Nat.le_refl _⟩
  rcases mirrors_withLevels (Nat.le_refl nestingLimit) .expression _ _ trivial relates e later read
    with ⟨_, later', wrapped, after⟩ | ⟨⟨position, failed⟩, _⟩
  · have ended' : later'.current.kind = .eof := by
      simp [Cursor.current, after.tokens, after.ended ended, Token.eof]
    have stated : statement.run c = .ok (e, later') := by
      subst shown
      exact (run_statement_question rfl rfl).trans wrapped
    rw [complete_eq_ok.2 ⟨stated, ended'⟩]
    rfl
  · rw [wholeExpression, failed] at read
    contradiction

/-- Parentheses take up two levels. -/
theorem parseLine_enclosed (formula : Formula line e) (noComment : ¬ ['/', '/'] <:+: line.toList) :
    expressionWithin (nestingLimit - 2) line = .ok e ∧
        parseLine true ("(" ++ line ++ ")") = .ok e ∨
      TooDeep (expressionWithin (nestingLimit - 2) line) ∧
        TooDeep (parseLine true ("(" ++ line ++ ")")) := by
  obtain ⟨readable, plain, later, read, ended⟩ := formula
  have readable' : ∀ t ∈ (⟨.openParen, "(", 0⟩ : Token) :: ((tokenize line).map (·.shift 1) ++
      [⟨.closeParen, ")", 1 + line.length⟩]), t.kind ≠ .error := by
    simpa [or_imp, forall_and] using readable
  rw [parseLine, tokenize_enclosed plain noComment readable,
    parse_statement readable' (by simp) (by simp)]
  generalize shown : Cursor.ofTokens (⟨.openParen, "(", 0⟩ :: ((tokenize line).map (·.shift 1) ++
    [⟨.closeParen, ")", 1 + line.length⟩])) = c
  have relates : (⟨1, [⟨.closeParen, ")", 1 + line.length⟩], by simp⟩ : Wrapping).Relates
      (tokenize line).length (.ofTokens (tokenize line)) c.forward := by
    subst shown
    exact ⟨rfl, fun t member => (tokenize_lexical line t member).1, Nat.le_refl _⟩
  have opens : c.current.kind = .openParen := by
    subst shown
    rfl
  have stated : statement.run c = (withLevels (nestingLimit - 2 + 2) .expression).run c :=
    run_statement_bare (.inl (by simp [opens])) (.inl (by simp [opens]))
  unfold expressionWithin
  rcases mirrors_withLevels (Nat.sub_le nestingLimit 2) .expression _ _ trivial relates e later read
    with ⟨low, later', wrapped, after⟩ | ⟨⟨position, low⟩, wrapped⟩
  · have rest : later'.rest = [⟨.closeParen, ")", 1 + line.length⟩] := by
      simp [after.tokens, after.ended ended]
    have closes : later'.current.kind = .closeParen := by simp [Cursor.current, rest]
    have ended' : later'.forward.current.kind = .eof := by
      simp [Cursor.current, Cursor.forward, rest, Token.eof]
    rw [run_enclosed opens wrapped closes (.inl ended')] at stated
    rw [low, complete_eq_ok.2 ⟨stated, ended'⟩]
    exact .inl ⟨rfl, rfl⟩
  · have deep := tooDeep_enclosed opens wrapped
    rw [← stated] at deep
    obtain ⟨position', failed⟩ : TooDeep (complete.run c) := tooDeep_bind deep _
    rw [low, failed]
    exact .inr ⟨⟨position, rfl⟩, position', rfl⟩

/-- A formula is read the same after `what is`, and in parentheses as well, unless it takes more
    levels by itself than there are but two: then it is too deep with them. -/
theorem parseLine_wrapped (noComment : ¬ ['/', '/'] <:+: line.toList)
    (bare : ¬ [.keyword .what, .keyword .is] <+: (tokenize line).map (·.kind))
    (parsed : parseLine true line = .ok e) (formula : e.isFormula = true) :
    parseLine true ("what is " ++ line) = .ok e ∧
      (expressionWithin (nestingLimit - 2) line = .ok e ∧
          parseLine true ("(" ++ line ++ ")") = .ok e ∨
        TooDeep (expressionWithin (nestingLimit - 2) line) ∧
          TooDeep (parseLine true ("(" ++ line ++ ")"))) := by
  have read := formula_of_parseLine parsed formula bare
  exact ⟨parseLine_question read, parseLine_enclosed read noComment⟩

theorem parseLine_wrapped_rate :
    let e : Expr Float := .binary .add (.unit 60 "km/h") (.unary .percent (.number 20))
    parseLine true "60 km/h + 20%" = .ok e ∧ e.isFormula = true ∧
      parseLine true ("what is " ++ "60 km/h + 20%") = .ok e ∧
      parseLine true ("(" ++ "60 km/h + 20%" ++ ")") = .ok e := by
  intro e
  have parsed : parseLine true "60 km/h + 20%" = .ok e := by rfl
  have fits : expressionWithin (nestingLimit - 2) "60 km/h + 20%" = .ok e := by rfl
  obtain ⟨question, ⟨_, enclosed⟩ | ⟨⟨position, deep⟩, _⟩⟩ :=
    parseLine_wrapped (by decide) (by decide +kernel) parsed rfl
  · exact ⟨parsed, rfl, question, enclosed⟩
  · rw [fits] at deep
    contradiction

end NotepadCalculator
