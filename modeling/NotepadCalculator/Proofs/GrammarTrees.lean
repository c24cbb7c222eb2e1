import Mathlib.Logic.Basic
import NotepadCalculator.Expr.Grammar
import NotepadCalculator.Proofs.Subexpressions

/-!
What trees the grammar builds and where it fails. Whatever holds of the tokens of a line holds of
each token the parser comes to, so a failure points at a token of the line or at its end, and only
the end of the line is blamed for what is missing there. Of the trees, everything below an
assignment is free of assignments, commands and blanks, functions have lower-case names, and
references count from one.
-/
namespace NotepadCalculator
open Number

variable {β γ : Type}

def SyntaxFault.isEnd : SyntaxFault → Bool
  | .expected _ none => true
  | .unexpectedEnd => true
  | _ => false

/-- A token of the line is not to blame for what is missing at its end. -/
def Token.CanCause (t : Token) (fault : SyntaxFault) : Prop := fault.isEnd = true → t.kind = .eof

theorem Token.canCause_of_inside (t : Token) {fault : SyntaxFault} (inside : fault.isEnd = false) :
    t.CanCause fault := by
  intro ends
  rw [inside] at ends
  contradiction

def Cursor.Holds (S : Token → Prop) (c : Cursor) : Prop := (∀ t ∈ c.rest, S t) ∧ S (.eof c.stop)

namespace Parse

/-- Among tokens with the property `S`, the step yields something with the property `Q`, or it
    fails with an error that has the property `E`. -/
def Gives (S : Token → Prop) (E : ParseError → Prop) (Q : β → Prop) (m : Parse β) : Prop :=
  ∀ c : Cursor, c.Holds S → match m.run c with
    | .ok (b, later) => Q b ∧ later.Holds S
    | .error e => E e

variable {S : Token → Prop} {E : ParseError → Prop} {P : β → Prop} {Q : γ → Prop}

theorem gives_pure {b : β} (holds : P b) : Gives S E P (pure b) := fun _ within => ⟨holds, within⟩

theorem gives_bind {m : Parse β} {f : β → Parse γ} (first : Gives S E P m)
    (rest : ∀ b, P b → Gives S E Q (f b)) : Gives S E Q (m >>= f) := by
  intro c within
  have here := first c within
  rw [StateT.run_bind]
  cases run : m.run c with
  | error e =>
    rw [run] at here
    exact here
  | ok result =>
    rw [run] at here
    exact rest result.1 here.1 result.2 here.2

theorem gives_imp {P' : β → Prop} {m : Parse β} (gives : Gives S E P m)
    (weaker : ∀ b, P b → P' b) : Gives S E P' m := by
  intro c within
  have here := gives c within
  split at here
  · exact ⟨weaker _ here.1, here.2⟩
  · exact here

theorem gives_current : Gives S E S current := by
  intro c within
  refine ⟨?_, within⟩
  show S (c.rest.headD (.eof c.stop))
  cases tokens : c.rest with
  | nil => exact within.2
  | cons t rest => exact within.1 t (by simp [tokens])

theorem gives_following : Gives S E S following := by
  intro c within
  refine ⟨?_, within⟩
  show S (c.rest.tail.headD (.eof c.stop))
  cases tokens : c.rest.tail with
  | nil => exact within.2
  | cons t rest => exact within.1 t (List.mem_of_mem_tail (by simp [tokens]))

theorem gives_advance : Gives S E (fun _ => True) advance :=
  fun _ within => ⟨trivial, fun t member => within.1 t (List.mem_of_mem_tail member), within.2⟩

theorem gives_remaining : Gives S E (fun _ => True) remaining := fun _ within => ⟨trivial, within⟩

theorem gives_isAt (kind : TokenKind) : Gives S E (fun _ => True) (isAt kind) :=
  fun _ within => ⟨trivial, within⟩

theorem gives_advance_then {m : Parse γ} (rest : Gives S E Q m) :
    Gives S E Q (advance >>= fun _ => m) := gives_bind gives_advance fun _ _ => rest

section
variable (faults : ∀ t, S t → ∀ fault, t.CanCause fault → E ⟨fault, t.position⟩)
include faults

theorem gives_failAt {t : Token} (known : S t) {fault : SyntaxFault} (causes : t.CanCause fault) :
    Gives S E P (failAt t fault) := fun _ _ => faults t known fault causes

theorem gives_failExpected (what : Wanted) : Gives S E P (failExpected what) := by
  apply gives_bind gives_current
  intro t known
  apply gives_failAt faults known
  intro ends
  by_cases ended : t.kind = .eof
  · exact ended
  · rw [if_neg ended] at ends
    contradiction

theorem gives_failUnexpected : Gives S E P failUnexpected := by
  apply gives_bind gives_current
  intro t known
  apply gives_failAt faults known
  intro ends
  split at ends
  · assumption
  · contradiction
  · contradiction

theorem gives_tooDeep : Gives S E P tooDeep :=
  gives_bind gives_current fun t known => gives_failAt faults known (t.canCause_of_inside rfl)

theorem gives_expect (kind : TokenKind) (what : Wanted) :
    Gives S E (fun t => S t ∧ t.kind = kind) (expect kind what) := by
  apply gives_bind gives_current
  intro t known
  split
  · rename_i same
    exact gives_advance_then (gives_pure ⟨known, same⟩)
  · exact gives_failExpected faults what

end

theorem gives_commaSeparatedFuel {item : Parse β} (each : Gives S E P item) (fuel : Nat) :
    Gives S E (fun items => ∀ b ∈ items, P b) (commaSeparatedFuel item fuel) := by
  induction fuel with
  | zero => exact gives_pure (by simp)
  | succ fuel ih =>
    apply gives_bind each
    intro first good
    apply gives_bind (gives_isAt _)
    intro more _
    split
    · apply gives_advance_then
      apply gives_bind ih
      intro rest others
      apply gives_pure
      exact List.forall_mem_cons.2 ⟨good, others⟩
    · exact gives_pure (by simpa using good)

theorem gives_commaSeparated {item : Parse β} (each : Gives S E P item) :
    Gives S E (fun items => ∀ b ∈ items, P b) (commaSeparated item) :=
  gives_bind gives_remaining fun _ _ => gives_commaSeparatedFuel each _

end Parse

namespace Grammar
open Parse Calendar

def Proper (N : Float → Prop) : Expr Float → Prop
  | .number a => N a
  | .unit a _ => N a
  | .currency a _ => N a
  | .call name _ => ∃ word, name = Text.lowerAscii word
  | .previous (.back count) => 1 ≤ count
  | .previous (.line number) => 1 ≤ number
  | .assign _ _ => False
  | .command _ _ => False
  | .blank => False
  | _ => True

abbrev Tree (N : Float → Prop) (e : Expr Float) : Prop := e.Throughout (Proper N)

/-- What is known of the tokens of a line: which errors they can cause, and which amounts they can
    spell, apart from those that phrases bring along. -/
structure Vocabulary (S : Token → Prop) (E : ParseError → Prop) (N : Float → Prop) : Prop where
  faults : ∀ t, S t → ∀ fault, t.CanCause fault → E ⟨fault, t.position⟩
  amounts : ∀ t, S t → t.kind = .number → ∀ a, float? t.text = some a → N a
  one : N (Amount.ofNat 1)
  two : N (Amount.ofNat 2)
  hundred : N (Amount.ofNat 100)
  threeQuarters : N (Amount.ofDecimal 75 2)

variable {S : Token → Prop} {E : ParseError → Prop} {N : Float → Prop}

theorem tree_leaf {e : Expr Float} (proper : Proper N e) (leaf : e.parts = []) : Tree N e :=
  .intro proper (by simp [leaf])

theorem tree_binary {left right : Expr Float} (op : BinaryOp) (first : Tree N left)
    (second : Tree N right) : Tree N (.binary op left right) :=
  .intro trivial (by simp [Expr.parts, first, second])

theorem tree_unary {e : Expr Float} (op : UnaryOp) (tree : Tree N e) : Tree N (.unary op e) :=
  .intro trivial (by simp [Expr.parts, tree])

theorem tree_convert {e : Expr Float} (tree : Tree N e) (target : String) :
    Tree N (.convert e target) :=
  .intro trivial (by simp [Expr.parts, tree])

theorem tree_call {arguments : List (Expr Float)} (word : String)
    (trees : ∀ e ∈ arguments, Tree N e) : Tree N (.call (Text.lowerAscii word) arguments) :=
  .intro ⟨word, rfl⟩ trees

theorem tree_assignmentFree {e : Expr Float} (tree : Tree N e) : e.AssignmentFree := by
  refine Expr.throughout_imp tree fun part proper => ?_
  cases part with
  | assign name value => exact proper.elim
  | _ => rfl

theorem gives_unitName {first : Token} : Gives S E (fun _ => True) (unitName first) := by
  apply gives_bind gives_current
  intro separator _
  apply gives_bind gives_following
  intro next _
  split
  · exact gives_advance_then (gives_advance_then (gives_pure trivial))
  · exact gives_pure trivial

theorem gives_chainFuel {op? : TokenKind → Option BinaryOp} {operand : Parse (Expr Float)}
    (each : Gives S E (Tree N) operand) (fuel : Nat) {left : Expr Float} (tree : Tree N left) :
    Gives S E (Tree N) (chainFuel op? operand fuel left) := by
  induction fuel generalizing left with
  | zero => exact gives_pure tree
  | succ fuel ih =>
    apply gives_bind gives_current
    intro token _
    split
    · exact gives_pure tree
    · exact gives_advance_then (gives_bind each fun right good => ih (tree_binary _ tree good))

theorem gives_chain {op? : TokenKind → Option BinaryOp} {operand : Parse (Expr Float)}
    (each : Gives S E (Tree N) operand) : Gives S E (Tree N) (chain op? operand) :=
  gives_bind each fun _ tree => gives_bind gives_remaining fun _ _ => gives_chainFuel each _ tree

theorem gives_additive {deeper : Deeper} (below : ∀ rule, Gives S E (Tree N) (deeper rule)) :
    Gives S E (Tree N) (additive deeper) :=
  gives_chain (gives_chain (below .polarity))

theorem gives_applySuffix {deeper : Deeper} (below : ∀ rule, Gives S E (Tree N) (deeper rule))
    {e : Expr Float} (tree : Tree N e) (suffix : Suffix) :
    Gives S E (Tree N) (applySuffix deeper e suffix) := by
  have now : Tree N (.date .now) := tree_leaf trivial rfl
  cases suffix with
  | percent =>
    apply gives_bind (gives_isAt _)
    intro ofWhole _
    split
    · apply gives_advance_then
      apply gives_bind (below .polarity)
      intro whole second
      exact gives_pure (tree_binary _ (tree_unary _ tree) second)
    · exact gives_pure (tree_unary _ tree)
  | ago => exact gives_pure (tree_binary _ now tree)
  | after => exact gives_bind (below .polarity) fun anchor second =>
      gives_pure (tree_binary _ second tree)
  | before => exact gives_bind (below .polarity) fun anchor second =>
      gives_pure (tree_binary _ second tree)

theorem gives_suffixesFuel {deeper : Deeper} (below : ∀ rule, Gives S E (Tree N) (deeper rule))
    (fuel : Nat) {e : Expr Float} (tree : Tree N e) :
    Gives S E (Tree N) (suffixesFuel deeper fuel e) := by
  induction fuel generalizing e with
  | zero => exact gives_pure tree
  | succ fuel ih =>
    apply gives_bind gives_current
    intro token _
    apply gives_bind gives_following
    intro next _
    split
    · exact gives_pure tree
    · exact gives_advance_then (gives_bind (gives_applySuffix below tree _) fun _ tree => ih tree)

section
variable (V : Vocabulary S E N)
include V

theorem tree_changeBy {base amount : Expr Float} (op : BinaryOp) (first : Tree N base)
    (second : Tree N amount) : Tree N (base.changeBy op amount) := by
  unfold Expr.changeBy
  split
  · rename_i part
    have part := Expr.throughout_part second (by simp [Expr.parts] : part ∈ _)
    exact tree_binary _ first (tree_binary _ (tree_leaf V.one rfl)
      (tree_binary _ part (tree_leaf V.hundred rfl)))
  · exact tree_binary _ first second

theorem gives_conversionTarget : Gives S E (fun _ => True) conversionTarget := by
  apply gives_bind gives_current
  intro token _
  split
  · exact gives_advance_then (gives_pure trivial)
  · split
    · exact gives_advance_then (gives_unitName)
    · exact gives_failExpected V.faults _

theorem gives_numberValue {token : Token} (known : S token) (number : token.kind = .number) :
    Gives S E N (numberValue token) := by
  unfold numberValue
  split
  · rename_i value spelled
    exact gives_pure (V.amounts token known number value spelled)
  · exact gives_failAt V.faults known (Token.canCause_of_inside _ rfl)

theorem gives_timeValue {token : Token} (known : S token) :
    Gives S E (fun _ => True) (timeValue token) := by
  unfold timeValue
  split
  · exact gives_pure trivial
  · exact gives_failAt V.faults known (Token.canCause_of_inside _ rfl)

theorem gives_numberTerm {token : Token} (known : S token) (number : token.kind = .number) :
    Gives S E (Tree N) (numberTerm token) := by
  apply gives_bind (gives_numberValue V known number)
  intro value good
  apply gives_advance_then
  apply gives_bind gives_current
  intro next _
  split
  · exact gives_advance_then (gives_pure (tree_leaf good rfl))
  · apply gives_bind gives_following
    intro afterNext _
    split
    · exact gives_advance_then (gives_bind (gives_unitName) fun name _ =>
        gives_pure (tree_leaf good rfl))
    · exact gives_pure (tree_leaf good rfl)

theorem gives_symbolTerm (token : Token) : Gives S E (Tree N) (symbolTerm token) := by
  apply gives_advance_then
  apply gives_bind (gives_expect V.faults _ _)
  intro amount known
  exact gives_bind (gives_numberValue V known.1 known.2) fun value good =>
    gives_pure (tree_leaf good rfl)

theorem gives_dateTerm {token : Token} (known : S token) :
    Gives S E (Tree N) (dateTerm token) := by
  unfold dateTerm
  split
  · exact gives_failAt V.faults known (Token.canCause_of_inside _ rfl)
  · apply gives_advance_then
    apply gives_bind gives_current
    intro next knownNext
    split
    · apply gives_bind (gives_timeValue V knownNext)
      intro clock _
      apply gives_advance_then
      exact gives_pure (tree_leaf trivial rfl)
    · exact gives_pure (tree_leaf trivial rfl)

theorem gives_timeTerm {token : Token} (known : S token) :
    Gives S E (Tree N) (timeTerm token) :=
  gives_bind (gives_timeValue V known) fun _ _ =>
    gives_advance_then (gives_pure (tree_leaf trivial rfl))

theorem gives_count : Gives S E (1 ≤ ·) count := by
  apply gives_bind gives_current
  intro token known
  split
  · rename_i n counted
    have positive : 0 < n := by simpa using (Option.filter_eq_some_iff.1 counted).2
    exact gives_advance_then (gives_pure positive)
  · exact gives_failAt V.faults known (Token.canCause_of_inside _ rfl)

theorem gives_reference :
    Gives S E (fun reference => Proper N (.previous reference)) reference := by
  apply gives_bind gives_current
  intro token _
  split
  · apply gives_advance_then
    apply gives_bind (gives_isAt _)
    intro counted _
    split
    · exact gives_bind (gives_count V) fun n least => gives_pure least
    · exact gives_pure (Nat.le_refl 1)
  · apply gives_advance_then
    apply gives_bind (gives_isAt _)
    intro counted _
    split
    · exact gives_bind (gives_count V) fun n least => gives_pure least
    · exact gives_failExpected V.faults _
  · exact gives_pure trivial

variable {deeper : Deeper} (below : ∀ rule, Gives S E (Tree N) (deeper rule))
include below

theorem gives_callArguments :
    Gives S E (fun arguments => ∀ e ∈ arguments, Tree N e) (callArguments deeper) := by
  have closing {arguments : List (Expr Float)} (trees : ∀ e ∈ arguments, Tree N e) :
      Gives S E (fun arguments => ∀ e ∈ arguments, Tree N e)
        (do let _ ← expect .closeParen .closing; return arguments) :=
    gives_bind (gives_expect V.faults _ _) fun _ _ => gives_pure trees
  apply gives_bind (gives_expect V.faults _ _)
  intro _ _
  apply gives_bind (gives_isAt _)
  intro none _
  dsimp only
  split
  · exact closing (by simp)
  · exact gives_bind (gives_commaSeparated (below .expression)) fun arguments trees => closing trees

theorem gives_nameTerm (token : Token) : Gives S E (Tree N) (nameTerm deeper token) := by
  refine gives_advance_then ?_
  split
  · exact gives_bind (gives_reference V) fun reference proper =>
      gives_pure (tree_leaf proper rfl)
  · apply gives_bind (gives_isAt _)
    intro opens _
    split
    · exact gives_bind (gives_callArguments V below) fun arguments trees =>
        gives_pure (tree_call _ trees)
    · exact gives_pure (tree_leaf trivial rfl)

theorem gives_parenthesized : Gives S E (Tree N) (parenthesized deeper) := by
  apply gives_advance_then
  apply gives_bind (below .expression)
  intro inner tree
  exact gives_bind (gives_expect V.faults _ _) fun _ _ => gives_pure tree

theorem gives_aggregate (token : Token) : Gives S E (Tree N) (aggregate deeper token) := by
  apply gives_advance_then
  apply gives_bind (gives_isAt _)
  intro opens _
  split
  · exact gives_bind (gives_callArguments V below) fun arguments trees =>
      gives_pure (tree_call _ trees)
  · apply gives_bind (gives_isAt _)
    intro listed _
    split
    · refine gives_advance_then (gives_bind ?_ fun arguments trees =>
        gives_pure (tree_call _ trees))
      exact gives_commaSeparated (gives_additive below)
    · exact gives_failExpected V.faults _

theorem gives_halfTerm : Gives S E (Tree N) (halfTerm deeper) := by
  apply gives_advance_then
  apply gives_bind (gives_expect V.faults _ _)
  intro _ _
  exact gives_bind (below .polarity) fun e tree =>
    gives_pure (tree_binary _ tree (tree_leaf V.two rfl))

theorem gives_twiceTerm : Gives S E (Tree N) (twiceTerm deeper) :=
  gives_advance_then (gives_bind (below .polarity) fun _ tree =>
    gives_pure (tree_binary _ tree (tree_leaf V.two rfl)))

theorem gives_threeQuartersTerm : Gives S E (Tree N) (threeQuartersTerm deeper) := by
  apply gives_advance_then
  apply gives_bind (gives_expect V.faults _ _)
  intro _ _
  apply gives_bind (gives_expect V.faults _ _)
  intro _ _
  exact gives_bind (below .polarity) fun e tree =>
    gives_pure (tree_binary _ tree (tree_leaf V.threeQuarters rfl))

theorem gives_changeTerm (op : BinaryOp) : Gives S E (Tree N) (changeTerm deeper op) := by
  apply gives_advance_then
  apply gives_bind (gives_additive below)
  intro base tree
  apply gives_bind (gives_expect V.faults _ _)
  intro _ _
  exact gives_bind (below .polarity) fun amount second =>
    gives_pure (tree_changeBy V op tree second)

omit below in
theorem gives_neighbourTerm (op : BinaryOp) (token : Token) :
    Gives S E (Tree N) (neighbourTerm op token) := by
  apply gives_advance_then
  apply gives_bind gives_current
  intro unit _
  split
  · exact gives_advance_then (gives_pure
      (tree_binary _ (tree_leaf trivial rfl) (tree_leaf V.one rfl)))
  · exact gives_failExpected V.faults _

theorem gives_keywordTerm (token : Token) (keyword : Keyword) :
    Gives S E (Tree N) (keywordTerm deeper token keyword) := by
  have dayWord (spec : DateSpec) : Gives S E (Tree N) (dayWord spec) :=
    gives_advance_then (gives_pure (tree_leaf trivial rfl))
  unfold keywordTerm
  split
  · exact dayWord .now
  · exact dayWord .today
  · exact dayWord .tomorrow
  · exact dayWord .yesterday
  · exact gives_aggregate V below token
  · exact gives_aggregate V below token
  · exact gives_aggregate V below token
  · exact gives_aggregate V below token
  · exact gives_halfTerm V below
  · exact gives_twiceTerm V below
  · exact gives_twiceTerm V below
  · exact gives_threeQuartersTerm V below
  · exact gives_changeTerm V below .add
  · exact gives_changeTerm V below .subtract
  · exact gives_neighbourTerm V .add token
  · exact gives_neighbourTerm V .subtract token
  · exact gives_failUnexpected V.faults

theorem gives_term : Gives S E (Tree N) (term deeper) := by
  apply gives_bind gives_current
  intro token known
  split
  · rename_i number
    exact gives_numberTerm V known number
  · exact gives_symbolTerm V token
  · exact gives_dateTerm V known
  · exact gives_timeTerm V known
  · exact gives_advance_then (gives_pure (tree_leaf trivial rfl))
  · exact gives_nameTerm V below token
  · exact gives_parenthesized V below
  · exact gives_keywordTerm V below token _
  · exact gives_failUnexpected V.faults

theorem gives_operand : Gives S E (Tree N) (operand deeper) :=
  gives_bind (gives_term V below) fun _ tree => gives_bind gives_remaining fun _ _ =>
    gives_suffixesFuel below _ tree

theorem gives_polarity : Gives S E (Tree N) (polarity deeper) := by
  apply gives_bind gives_current
  intro token _
  split
  · exact gives_advance_then (gives_bind (below .polarity) fun e tree =>
      gives_pure (tree_unary _ tree))
  · exact gives_operand V below

omit below in
theorem gives_conversionsFuel (fuel : Nat) {e : Expr Float} (tree : Tree N e) :
    Gives S E (Tree N) (conversionsFuel fuel e) := by
  induction fuel generalizing e with
  | zero => exact gives_pure tree
  | succ fuel ih =>
    apply gives_bind (gives_isAt _)
    intro converts _
    split
    · exact gives_advance_then (gives_bind (gives_conversionTarget V) fun target _ =>
        ih (tree_convert tree target))
    · exact gives_pure tree

theorem gives_expression : Gives S E (Tree N) (expression deeper) :=
  gives_bind (gives_additive below) fun _ tree => gives_bind gives_remaining fun _ _ =>
    gives_conversionsFuel V _ tree

omit below in
theorem gives_withLevels (levels : Nat) (rule : Rule) :
    Gives S E (Tree N) (withLevels levels rule) := by
  induction levels generalizing rule with
  | zero => exact gives_tooDeep V.faults
  | succ levels ih =>
    cases rule with
    | expression => exact gives_expression V ih
    | polarity => exact gives_polarity V ih

end

inductive Whole (N : Float → Prop) : Expr Float → Prop where
  | blank : Whole N .blank
  | command (word : String) (arguments : List String) :
      Whole N (.command (Text.lowerAscii word) arguments)
  | assign {name : String} {value : Expr Float} (free : isPrev name = false)
      (tree : Tree N value) : Whole N (.assign name value)
  | plain {e : Expr Float} (tree : Tree N e) : Whole N e

def Admissible (E : ParseError → Prop) (N : Float → Prop) : Except ParseError (Expr Float) → Prop
  | .ok e => Whole N e
  | .error error => E error

section
variable (V : Vocabulary S E N)
include V

theorem gives_statement : Gives S E (Whole N) statement := by
  have whole : Gives S E (Tree N) wholeExpression := gives_withLevels V _ _
  apply gives_bind gives_current
  intro first known
  apply gives_bind gives_following
  intro second _
  dsimp only
  split
  · split
    · exact gives_bind (gives_failAt V.faults known (Token.canCause_of_inside _ rfl))
        fun (_ : Unit) (absurd : False) => absurd.elim
    · rename_i free
      apply gives_advance_then
      apply gives_advance_then
      apply gives_bind whole
      intro value tree
      exact gives_pure (.assign (by simpa using free) tree)
  · split
    · exact gives_advance_then (gives_advance_then (gives_imp whole fun _ tree => .plain tree))
    · exact gives_imp whole fun _ tree => .plain tree

theorem gives_complete : Gives S E (Whole N) complete := by
  apply gives_bind (gives_statement V)
  intro e tree
  apply gives_bind (gives_isAt _)
  intro ended _
  split
  · exact gives_pure tree
  · exact gives_failUnexpected V.faults

theorem parse_admissible (fuzzy : Bool) {tokens : List Token}
    (known : (Cursor.ofTokens tokens).Holds S) : Admissible E N (parse fuzzy tokens) := by
  have found {p : Token → Bool} {token : Token} (found : tokens.find? p = some token) : S token :=
    known.1 token (List.mem_of_find?_eq_some found)
  unfold parse
  split
  · rename_i token unreadable
    exact V.faults token (found unreadable) _ (token.canCause_of_inside rfl)
  · dsimp only
    split
    · exact .blank
    · split
      · have first : S (Cursor.ofTokens tokens).current := (gives_current (E := E) _ known).1
        unfold command
        split
        · exact V.faults _ first _ (Token.canCause_of_inside _ rfl)
        · exact .command _ _
      · split
        · rename_i token phrase
          refine V.faults token ?_ _ (token.canCause_of_inside rfl)
          cases fuzzy with
          | true => contradiction
          | false => exact found phrase
        · have given := gives_complete V _ known
          cases run : complete.run (.ofTokens tokens) with
          | error error =>
            rw [run] at given
            exact given
          | ok result =>
            rw [run] at given
            exact given.1

end

theorem map_fst_eq_ok {β γ ε : Type} {answer : Except ε (β × γ)} {b : β} :
    answer.map (·.1) = .ok b ↔ ∃ c, answer = .ok (b, c) := by
  cases answer with
  | error e => simp [Except.map]
  | ok result =>
    obtain ⟨b', c⟩ := result
    simp [Except.map]

/-- A line that is parsed is blank, a command, or a statement that takes up all of it. -/
theorem parse_eq_ok {fuzzy : Bool} {tokens : List Token} {e : Expr Float} :
    let first := (Cursor.ofTokens tokens).current
    parse fuzzy tokens = .ok e ↔ tokens.find? (·.kind = .error) = none ∧
      (first.kind = .eof ∧ e = .blank ∨
        first.kind = .command ∧ command first tokens.tail = .ok e ∨
        first.kind ≠ .eof ∧ first.kind ≠ .command ∧
          (fuzzy = true ∨ tokens.find? isPhraseWord = none) ∧
          ∃ later, complete.run (.ofTokens tokens) = .ok (e, later)) := by
  intro first
  unfold parse
  cases tokens.find? (·.kind = .error) with
  | some token => simp
  | none =>
    by_cases ended : first.kind = .eof
    · simpa [first, ended] using eq_comm
    by_cases commanded : first.kind = .command
    · simp [first, commanded]
    cases fuzzy with
    | true => simp [first, ended, commanded, map_fst_eq_ok]
    | false =>
      cases tokens.find? isPhraseWord with
      | some token => simp [first, ended, commanded]
      | none => simp [first, ended, commanded, map_fst_eq_ok]

/-- An assignment stands at the root of a tree or nowhere. -/
theorem parse_assigns_at_root {fuzzy : Bool} {tokens : List Token} {e : Expr Float}
    (parsed : parse fuzzy tokens = .ok e) :
    e.AssignmentFree ∨ ∃ name value, e = .assign name value ∧ value.AssignmentFree := by
  have anything : Vocabulary (fun _ => True) (fun _ => True) (fun _ => True) := by
    constructor <;> simp
  have known : (Cursor.ofTokens tokens).Holds fun _ => True := ⟨by simp, trivial⟩
  have admissible := parse_admissible anything fuzzy known
  rw [parsed] at admissible
  cases admissible with
  | blank => exact .inl (.intro rfl (by simp [Expr.parts]))
  | command word arguments => exact .inl (.intro rfl (by simp [Expr.parts]))
  | assign free tree => exact .inr ⟨_, _, rfl, tree_assignmentFree tree⟩
  | plain tree => exact .inl (tree_assignmentFree tree)

end Grammar

end NotepadCalculator
