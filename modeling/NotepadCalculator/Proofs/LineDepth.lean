import NotepadCalculator.Proofs.GrammarTrees
import NotepadCalculator.Proofs.NestingDepth
import NotepadCalculator.Proofs.SheetHistory

/-!
How deep the trees of a line are. Every token that the parser takes makes room for one level at
most, so a tree is no deeper than its line has tokens. What the parser counts are parentheses, calls
and signs; conversions and what follows an operand it takes in loops, as many as there are, and each
of them is a level of the tree.
-/
namespace NotepadCalculator
open Number

variable {α β γ : Type}

namespace Parse

/-- From a cursor that meets the condition, what the step yields is no larger than the number of the
    tokens it takes, and the credit from those taken before. -/
def Affords (C : Cursor → Prop) (credit : Nat) (size : β → Nat) (m : Parse β) : Prop :=
  ∀ c, C c → ∀ b later, m.run c = .ok (b, later) →
    size b + later.rest.length ≤ c.rest.length + credit

abbrev Anywhere (_ : Cursor) : Prop := True

variable {C : Cursor → Prop} {k : Nat} {size : β → Nat} {size' : γ → Nat}

theorem affords_pure {b : β} (small : size b ≤ k) : Affords C k size (pure b) := by
  intro c _ b' later run
  obtain ⟨rfl, rfl⟩ := Prod.mk.inj (Except.ok.inj run)
  omega

theorem affords_bind {m : Parse β} {f : β → Parse γ} (first : Affords C k size m)
    (rest : ∀ b, Affords Anywhere (size b) size' (f b)) : Affords C k size' (m >>= f) := by
  intro c holds d later run
  rw [StateT.run_bind] at run
  cases taken : m.run c with
  | error e =>
    rw [taken] at run
    contradiction
  | ok result =>
    rw [taken] at run
    have here := first c holds result.1 result.2 taken
    have there := rest result.1 result.2 trivial d later run
    omega

theorem affords_imp {D : Cursor → Prop} {n : Nat} {small : β → Nat} {m : Parse β}
    (affords : Affords D n size m) (here : ∀ c, C c → D c) (credit : n ≤ k)
    (less : ∀ b, small b ≤ size b + (k - n)) : Affords C k small m := by
  intro c holds b later run
  have := affords c (here c holds) b later run
  have := less b
  omega

/-- Credit that is not needed stays. -/
theorem affords_more {m : Parse β} (affords : Affords Anywhere 0 size m) :
    Affords C k (fun b => size b + k) m :=
  affords_imp affords (fun _ _ => trivial) (Nat.zero_le k) (by simp)

theorem affords_failAt (token : Token) (fault : SyntaxFault) :
    Affords C k size (failAt token fault) := by
  intro c _ b later run
  contradiction

theorem affords_current {f : Token → Parse γ}
    (rest : ∀ token, Affords (fun c => C c ∧ c.current = token) k size' (f token)) :
    Affords C k size' (current >>= f) :=
  fun c holds b later run => rest c.current c ⟨holds, rfl⟩ b later run

theorem affords_following {f : Token → Parse γ} (rest : ∀ token, Affords C k size' (f token)) :
    Affords C k size' (following >>= f) :=
  fun c holds b later run => rest c.following c holds b later run

theorem affords_remaining {f : Nat → Parse γ} (rest : ∀ n, Affords C k size' (f n)) :
    Affords C k size' (remaining >>= f) :=
  fun c holds b later run => rest c.rest.length c holds b later run

theorem affords_isAt {kind : TokenKind} {f : Bool → Parse γ}
    (there : Affords (fun c => C c ∧ c.current.kind = kind) k size' (f true))
    (elsewhere : Affords C k size' (f false)) : Affords C k size' (isAt kind >>= f) := by
  intro c holds b later run
  have same : (isAt kind >>= f).run c = (f (decide (c.current.kind = kind))).run c := rfl
  rw [same] at run
  by_cases kinds : c.current.kind = kind
  · rw [decide_eq_true kinds] at run
    exact there c ⟨holds, kinds⟩ b later run
  · rw [decide_eq_false kinds] at run
    exact elsewhere c holds b later run

theorem affords_advance {m : Parse γ} (inside : ∀ c, C c → c.current.kind ≠ .eof)
    (rest : Affords Anywhere (k + 1) size' m) : Affords C k size' (advance >>= fun _ => m) := by
  intro c holds b later run
  have before := inside c holds
  have tokens : c.rest ≠ [] := fun none => before (by simp [Cursor.current, none, Token.eof])
  have after := rest c.forward trivial b later run
  have length : c.forward.rest.length + 1 = c.rest.length := by
    have := List.length_pos_of_ne_nil tokens
    simp only [Cursor.forward, List.length_tail]
    omega
  omega

theorem affords_failExpected (what : Wanted) : Affords C k size (failExpected what) :=
  affords_current fun _ => affords_failAt _ _

theorem affords_failUnexpected : Affords C k size failUnexpected :=
  affords_current fun _ => affords_failAt _ _

theorem affords_tooDeep : Affords C k size tooDeep :=
  affords_current fun _ => affords_failAt _ _

theorem affords_then {m : Parse β} {f : β → Parse γ}
    (first : Affords Anywhere 0 (fun _ => 0) m) (rest : ∀ b, Affords Anywhere k size' (f b)) :
    Affords C k size' (m >>= f) :=
  affords_bind (affords_more first) fun b => by simpa using rest b

theorem affords_expect {kind : TokenKind} (inside : kind ≠ .eof) (what : Wanted) :
    Affords C k (fun _ => k + 1) (expect kind what) := by
  refine affords_current fun token => ?_
  split
  · rename_i same
    refine affords_advance (fun c holds => ?_) (affords_pure (Nat.le_refl _))
    rw [holds.2, same]
    exact inside
  · exact affords_failExpected what

theorem affords_skip {m : Parse γ} (rest : Affords Anywhere k size' m) :
    Affords C k size' (advance >>= fun _ => m) := by
  intro c _ b later run
  have after := rest c.forward trivial b later run
  have length : c.forward.rest.length ≤ c.rest.length := by simp [Cursor.forward]
  omega

theorem affords_commaSeparatedFuel {item : Parse (Expr Float)}
    (each : Affords Anywhere 0 Expr.depth item) (fuel : Nat) :
    Affords Anywhere 0 Expr.argumentDepth (commaSeparatedFuel item fuel) := by
  induction fuel with
  | zero => exact affords_pure (Nat.le_refl _)
  | succ fuel ih =>
    refine affords_bind each fun first => affords_isAt (affords_skip ?_) (affords_pure ?_)
    · refine affords_bind (affords_more ih) fun rest => affords_pure ?_
      rw [Expr.argumentDepth]
      omega
    · simp [Expr.argumentDepth]

theorem affords_commaSeparated {item : Parse (Expr Float)}
    (each : Affords Anywhere 0 Expr.depth item) :
    Affords Anywhere 0 Expr.argumentDepth (commaSeparated item) :=
  affords_remaining fun _ => affords_commaSeparatedFuel each _

end Parse

theorem Expr.leadingDepth_le (e : Expr α) : e.leadingDepth ≤ e.depth + 1 := by
  unfold leadingDepth
  split <;> omega

theorem Expr.depth_binary_le (op : BinaryOp) {left right : Expr α} {n : Nat}
    (first : left.depth < n) (second : right.depth < n) : (binary op left right).depth ≤ n := by
  have := left.leadingDepth_le
  rw [depth_binary]
  omega

theorem Expr.depth_binary_leaf (op : BinaryOp) {left leaf : Expr α} (single : leaf.depth = 1) :
    (binary op left leaf).depth ≤ left.depth + 1 := by
  refine depth_binary_le op (Nat.lt_succ_self _) ?_
  rw [single]
  exact Nat.succ_lt_succ left.depth_positive

namespace Grammar
open Calendar Parse NotepadCalculator.Expr

theorem affords_unitName (first : Token) : Affords Anywhere 0 (fun _ => 0) (unitName first) := by
  refine affords_current fun separator => affords_following fun denominator => ?_
  split
  · exact affords_skip (affords_skip (affords_pure (Nat.le_refl _)))
  · exact affords_pure (Nat.le_refl _)

theorem affords_conversionTarget : Affords Anywhere 0 (fun _ => 0) conversionTarget := by
  refine affords_current fun token => ?_
  split
  · exact affords_skip (affords_pure (Nat.le_refl _))
  · split
    · exact affords_skip (affords_unitName _)
    · exact affords_failExpected _

theorem affords_chainFuel {op? : TokenKind → Option BinaryOp} {operand : Parse (Expr Float)}
    (ends : op? .eof = none) (each : Affords Anywhere 0 depth operand) (fuel : Nat)
    {left : Expr Float} {k : Nat} (small : left.depth ≤ k) :
    Affords Anywhere k depth (chainFuel op? operand fuel left) := by
  induction fuel generalizing left k with
  | zero => exact affords_pure small
  | succ fuel ih =>
    refine affords_current fun token => ?_
    split
    · exact affords_pure small
    · rename_i op found
      refine affords_advance (fun c holds ended => ?_) ?_
      · rw [← holds.2, ended, ends] at found
        contradiction
      · refine affords_bind (affords_more each) fun right => ih (depth_binary_le op ?_ ?_)
        · have := right.depth_positive
          omega
        · omega

theorem affords_chain {op? : TokenKind → Option BinaryOp} {operand : Parse (Expr Float)}
    (ends : op? .eof = none) (each : Affords Anywhere 0 depth operand) :
    Affords Anywhere 0 depth (chain op? operand) :=
  affords_bind each fun _ => affords_remaining fun _ =>
    affords_chainFuel ends each _ (Nat.le_refl _)

section
variable {γ : Type} {C : Cursor → Prop} {k : Nat} {size : γ → Nat}

theorem affords_numberValue {token : Token} {f : Float → Parse γ}
    (rest : ∀ value, Affords C k size (f value)) : Affords C k size (numberValue token >>= f) := by
  unfold numberValue
  split
  · rename_i value _
    exact rest value
  · intro c _ b later run
    cases run

theorem affords_timeValue {token : Token} {f : ClockTime → Parse γ}
    (rest : ∀ clock, Affords C k size (f clock)) : Affords C k size (timeValue token >>= f) := by
  unfold timeValue
  split
  · rename_i clock _
    exact rest clock
  · intro c _ b later run
    cases run

end

theorem affords_leaf {C : Cursor → Prop} {k : Nat} {e : Expr Float} (leaf : e.depth = 1)
    (paid : 1 ≤ k) : Affords C k depth (pure e) := affords_pure (leaf ▸ paid)

theorem affords_count : Affords Anywhere 0 (fun _ => 0) count := by
  refine affords_current fun token => ?_
  split
  · exact affords_skip (affords_pure (Nat.le_refl _))
  · exact affords_failAt _ _

theorem affords_reference : Affords Anywhere 0 (fun _ => 0) reference := by
  have counted {make : Nat → Reference} :
      Affords Anywhere 0 (fun _ => 0) (do return make (← count) : Parse Reference) :=
    affords_then affords_count fun _ => affords_pure (Nat.le_refl _)
  refine affords_current fun token => ?_
  split
  · refine affords_skip (affords_isAt ?_ (affords_pure (Nat.le_refl _)))
    exact affords_imp counted (fun _ _ => trivial) (Nat.le_refl _) (by simp)
  · refine affords_skip (affords_isAt ?_ (affords_failExpected _))
    exact affords_imp counted (fun _ _ => trivial) (Nat.le_refl _) (by simp)
  · exact affords_pure (Nat.le_refl _)

section
variable {C : Cursor → Prop} (inside : ∀ c, C c → c.current.kind ≠ .eof)
include inside

theorem affords_numberTerm (token : Token) : Affords C 0 depth (numberTerm token) := by
  refine affords_numberValue fun value => affords_advance inside (affords_current fun next => ?_)
  split
  · exact affords_skip (affords_leaf rfl (Nat.le_refl _))
  · refine affords_following fun afterNext => ?_
    split
    · refine affords_skip (affords_then (affords_unitName _) fun _ => ?_)
      exact affords_leaf rfl (Nat.le_refl _)
    · exact affords_leaf rfl (Nat.le_refl _)

theorem affords_symbolTerm (token : Token) : Affords C 0 depth (symbolTerm token) := by
  refine affords_advance inside (affords_bind (affords_expect (by simp) _) fun amount => ?_)
  exact affords_numberValue fun _ => affords_leaf rfl (by omega)

theorem affords_dateTerm (token : Token) : Affords C 0 depth (dateTerm token) := by
  unfold dateTerm
  split
  · exact affords_failAt _ _
  · refine affords_advance inside (affords_current fun next => ?_)
    split
    · exact affords_timeValue fun clock => affords_skip (affords_leaf rfl (Nat.le_refl _))
    · exact affords_leaf rfl (Nat.le_refl _)

theorem affords_timeTerm (token : Token) : Affords C 0 depth (timeTerm token) :=
  affords_timeValue fun _ => affords_advance inside (affords_leaf rfl (Nat.le_refl _))

theorem affords_dayWord (spec : DateSpec) : Affords C 0 depth (dayWord spec) :=
  affords_advance inside (affords_leaf rfl (Nat.le_refl _))

theorem affords_neighbourTerm (op : BinaryOp) (token : Token) :
    Affords C 0 depth (neighbourTerm op token) := by
  refine affords_advance inside (affords_current fun unit => ?_)
  split
  · rename_i named
    refine affords_advance (fun c holds ended => ?_) (affords_pure (Nat.le_refl 2))
    rw [← holds.2, isUnitName, ended] at named
    contradiction
  · exact affords_failExpected _

variable {deeper : Deeper} (below : ∀ rule, Affords Anywhere 0 depth (deeper rule))
include below

omit inside in
theorem affords_callArguments : Affords Anywhere 0 argumentDepth (callArguments deeper) := by
  have closing {k : Nat} {arguments : List (Expr Float)} (small : argumentDepth arguments ≤ k) :
      Affords Anywhere k argumentDepth
        (do let _ ← expect .closeParen .closing; return arguments) :=
    affords_bind (affords_expect (by simp) _) fun _ => affords_pure (Nat.le_succ_of_le small)
  have opening : Affords Anywhere 0 (fun _ => 0) (expect .openParen .opening) :=
    affords_imp (affords_expect (by simp) _) (fun _ _ => trivial) (Nat.le_refl _) (by simp)
  refine affords_then opening fun _ => affords_isAt ?_ ?_
  · exact affords_imp (closing (Nat.zero_le 0)) (fun _ _ => trivial) (Nat.le_refl _) (by simp)
  · exact affords_bind (affords_commaSeparated (below _)) fun _ => closing (Nat.le_refl _)

theorem affords_nameTerm (token : Token) : Affords C 0 depth (nameTerm deeper token) := by
  refine affords_advance inside ?_
  split
  · exact affords_then affords_reference fun _ => affords_leaf rfl (Nat.le_refl _)
  · refine affords_isAt ?_ (affords_leaf rfl (Nat.le_refl _))
    refine affords_bind (affords_more (affords_callArguments below)) fun arguments => ?_
    exact affords_pure (by simp [depth])

theorem affords_parenthesized : Affords C 0 depth (parenthesized deeper) := by
  refine affords_advance inside (affords_bind (affords_more (below _)) fun e => ?_)
  refine affords_bind (affords_expect (by simp) _) fun _ => affords_pure ?_
  omega

theorem affords_halfTerm : Affords C 0 depth (halfTerm deeper) := by
  refine affords_advance inside (affords_bind (affords_expect (by simp) _) fun _ => ?_)
  refine affords_bind (affords_more (below _)) fun e => affords_pure ?_
  exact Nat.le_trans (depth_binary_leaf _ rfl) (by omega)

theorem affords_twiceTerm : Affords C 0 depth (twiceTerm deeper) := by
  refine affords_advance inside (affords_bind (affords_more (below _)) fun e => affords_pure ?_)
  exact depth_binary_leaf _ rfl

theorem affords_threeQuartersTerm : Affords C 0 depth (threeQuartersTerm deeper) := by
  refine affords_advance inside (affords_bind (affords_expect (by simp) _) fun _ => ?_)
  refine affords_bind (affords_expect (by simp) _) fun _ => ?_
  refine affords_bind (affords_more (below _)) fun e => affords_pure ?_
  exact Nat.le_trans (depth_binary_leaf _ rfl) (by omega)

omit inside in
theorem affords_additive : Affords Anywhere 0 depth (additive deeper) :=
  affords_chain rfl (affords_chain rfl (below _))

theorem affords_changeTerm (op : BinaryOp) : Affords C 0 depth (changeTerm deeper op) := by
  refine affords_advance inside
    (affords_bind (affords_more (affords_additive below)) fun base => ?_)
  refine affords_bind (affords_expect (by simp) _) fun _ => ?_
  refine affords_bind (affords_more (below _)) fun amount => affords_pure ?_
  have := amount.depth_positive
  unfold changeBy
  split
  · rename_i part
    -- The percent sign pays for the sum, and `by` for the product.
    have := part.depth_positive
    have percentage : (unary .percent part).depth = part.depth + 1 := rfl
    have share : (binary .divide part (.number (Amount.ofNat 100))).depth ≤ part.depth + 1 :=
      depth_binary_leaf _ rfl
    have factor : (binary op (.number (Amount.ofNat 1))
        (binary .divide part (.number (Amount.ofNat 100)))).depth ≤ part.depth + 2 :=
      depth_binary_le _ (by simp only [depth]; omega) (by omega)
    exact depth_binary_le _ (by omega) (by omega)
  · have := base.depth_positive
    exact depth_binary_le _ (by omega) (by omega)

theorem affords_aggregate (token : Token) : Affords C 0 depth (aggregate deeper token) := by
  refine affords_advance inside (affords_isAt ?_ (affords_isAt ?_ (affords_failExpected _)))
  · refine affords_bind (affords_more (affords_callArguments below)) fun arguments => ?_
    exact affords_pure (by simp [depth])
  · refine affords_skip (affords_bind (affords_more
      (affords_commaSeparated (affords_additive below))) fun arguments => ?_)
    exact affords_pure (by simp [depth])

theorem affords_keywordTerm (token : Token) (keyword : Keyword) :
    Affords C 0 depth (keywordTerm deeper token keyword) := by
  unfold keywordTerm
  split
  · exact affords_dayWord inside _
  · exact affords_dayWord inside _
  · exact affords_dayWord inside _
  · exact affords_dayWord inside _
  · exact affords_aggregate inside below token
  · exact affords_aggregate inside below token
  · exact affords_aggregate inside below token
  · exact affords_aggregate inside below token
  · exact affords_halfTerm inside below
  · exact affords_twiceTerm inside below
  · exact affords_twiceTerm inside below
  · exact affords_threeQuartersTerm inside below
  · exact affords_changeTerm inside below _
  · exact affords_changeTerm inside below _
  · exact affords_neighbourTerm inside _ _
  · exact affords_neighbourTerm inside _ _
  · exact affords_failUnexpected

end

section
variable {deeper : Deeper} (below : ∀ rule, Affords Anywhere 0 depth (deeper rule))
include below

theorem affords_term : Affords Anywhere 0 depth (term deeper) := by
  refine affords_current fun token => ?_
  have inside (other : token.kind ≠ .eof) :
      ∀ c : Cursor, Anywhere c ∧ c.current = token → c.current.kind ≠ .eof :=
    fun c holds => holds.2 ▸ other
  split
  · rename_i kind
    exact affords_numberTerm (inside (by simp [kind])) token
  · rename_i kind
    exact affords_symbolTerm (inside (by simp [kind])) token
  · rename_i kind
    exact affords_dateTerm (inside (by simp [kind])) token
  · rename_i kind
    exact affords_timeTerm (inside (by simp [kind])) token
  · rename_i kind
    exact affords_advance (inside (by simp [kind])) (affords_leaf rfl (Nat.le_refl _))
  · rename_i kind
    exact affords_nameTerm (inside (by simp [kind])) below token
  · rename_i kind
    exact affords_parenthesized (inside (by simp [kind])) below
  · rename_i kind
    exact affords_keywordTerm (inside (by simp [kind])) below token _
  · exact affords_failUnexpected

theorem affords_applySuffix {e : Expr Float} {k : Nat} (small : e.depth ≤ k) (suffix : Suffix) :
    Affords Anywhere (k + 1) depth (applySuffix deeper e suffix) := by
  have positive := e.depth_positive
  cases suffix with
  | percent =>
    refine affords_isAt (affords_advance (fun c holds => by simp [holds.2]) ?_) ?_
    · refine affords_bind (affords_more (below _)) fun whole => ?_
      have := whole.depth_positive
      exact affords_pure (depth_binary_le _ (by simp only [depth]; omega) (by omega))
    · exact affords_pure (by simp only [depth]; omega)
  | ago => exact affords_pure (depth_binary_le _ (by simp only [depth]; omega) (by omega))
  | after =>
    refine affords_bind (affords_more (below _)) fun anchor => ?_
    have := anchor.depth_positive
    exact affords_pure (depth_binary_le _ (by omega) (by omega))
  | before =>
    refine affords_bind (affords_more (below _)) fun anchor => ?_
    have := anchor.depth_positive
    exact affords_pure (depth_binary_le _ (by omega) (by omega))

theorem affords_suffixesFuel (fuel : Nat) {e : Expr Float} {k : Nat} (small : e.depth ≤ k) :
    Affords Anywhere k depth (suffixesFuel deeper fuel e) := by
  induction fuel generalizing e k with
  | zero => exact affords_pure small
  | succ fuel ih =>
    refine affords_current fun token => affords_following fun next => ?_
    split
    · exact affords_pure small
    · rename_i suffix found
      refine affords_advance (fun c holds ended => ?_) ?_
      · rw [← holds.2, suffix?, ended] at found
        contradiction
      · exact affords_bind (affords_applySuffix below small suffix) fun _ => ih (Nat.le_refl _)

theorem affords_operand : Affords Anywhere 0 depth (operand deeper) :=
  affords_bind (affords_term below) fun _ => affords_remaining fun _ =>
    affords_suffixesFuel below _ (Nat.le_refl _)

theorem affords_polarity : Affords Anywhere 0 depth (polarity deeper) := by
  refine affords_current fun token => ?_
  split
  · rename_i op found
    refine affords_advance (fun c holds ended => ?_) ?_
    · rw [← holds.2, ended] at found
      contradiction
    · exact affords_bind (affords_more (below _)) fun e => affords_pure (Nat.le_refl _)
  · exact affords_imp (affords_operand below) (fun _ _ => trivial) (Nat.le_refl _) (by simp)

omit below in
theorem affords_conversionsFuel (fuel : Nat) {e : Expr Float} {k : Nat} (small : e.depth ≤ k) :
    Affords Anywhere k depth (conversionsFuel fuel e) := by
  induction fuel generalizing e k with
  | zero => exact affords_pure small
  | succ fuel ih =>
    refine affords_isAt (affords_advance (fun c holds => by simp [holds.2]) ?_)
      (affords_pure small)
    exact affords_then affords_conversionTarget fun _ => ih (Nat.succ_le_succ small)

theorem affords_expression : Affords Anywhere 0 depth (expression deeper) :=
  affords_bind (affords_additive below) fun _ => affords_remaining fun _ =>
    affords_conversionsFuel _ (Nat.le_refl _)

omit below in
theorem affords_withLevels (levels : Nat) (rule : Rule) :
    Affords Anywhere 0 depth (withLevels levels rule) := by
  induction levels generalizing rule with
  | zero => exact affords_tooDeep
  | succ levels ih =>
    cases rule with
    | expression => exact affords_expression ih
    | polarity => exact affords_polarity ih

end

theorem affords_statement : Affords Anywhere 0 depth statement := by
  have whole : Affords Anywhere 0 depth wholeExpression := affords_withLevels _ _
  refine affords_current fun first => affords_following fun second => ?_
  dsimp only
  split
  · rename_i assigns
    have inside : ∀ c : Cursor, Anywhere c ∧ c.current = first → c.current.kind ≠ .eof := by
      intro c holds
      simp only [Bool.and_eq_true, decide_eq_true_eq] at assigns
      simp [holds.2, assigns.1]
    split
    · intro c _ b later run
      cases run
    · refine affords_advance inside (affords_skip (affords_bind (affords_more whole) fun e => ?_))
      exact affords_pure (Nat.le_refl _)
  · have plain {C : Cursor → Prop} : Affords C 0 depth wholeExpression :=
      affords_imp whole (fun _ _ => trivial) (Nat.le_refl _) (by simp)
    split
    · exact affords_skip (affords_skip plain)
    · exact plain

theorem affords_complete : Affords Anywhere 0 depth complete :=
  affords_bind affords_statement fun _ => affords_isAt (affords_pure (Nat.le_refl _))
    affords_failUnexpected

/-- A tree is no deeper than its line has tokens. -/
theorem parse_depth {fuzzy : Bool} {tokens : List Token} {e : Expr Float}
    (parsed : parse fuzzy tokens = .ok e) : e.depth ≤ max 1 tokens.length := by
  obtain ⟨_, ⟨_, rfl⟩ | ⟨_, commanded⟩ | ⟨_, _, _, later, read⟩⟩ := parse_eq_ok.1 parsed
  · exact Nat.le_max_left _ _
  · unfold command at commanded
    split at commanded
    · contradiction
    · obtain rfl := Except.ok.inj commanded
      exact Nat.le_max_left _ _
  · have small := affords_complete (.ofTokens tokens) trivial e later read
    have length : (Cursor.ofTokens tokens).rest.length = tokens.length := rfl
    omega

end Grammar

/-- The tree of a line is no deeper than the line has tokens. Its evaluation gives up for depth only
    if the tree has more levels than there are, and then it does not succeed. -/
theorem parseLine_depth {fuzzy : Bool} {input : String} {e : Expr Float}
    (parsed : parseLine fuzzy input = .ok e) (s : Surroundings Float)
    (bindings : Bindings (Value Float)) :
    e.depth ≤ max 1 (tokenize input).length ∧
      ((s.run bindings e).1 = .error (.invalidOperation .tooDeep) → nestingLimit < e.depth) ∧
      ∀ value, (s.run bindings e).1 = .ok value → e.depth ≤ nestingLimit := by
  refine ⟨Grammar.parse_depth parsed, ?_⟩
  exact s.run_depth bindings e

theorem parseLine_depth_chain :
    let s : Surroundings Float := Sheet.fresh.surroundings
    let e : Expr Float := .binary .subtract (.binary .add (.binary .add (.number 1)
      (.binary .multiply (.number 2) (.number 3))) (.number 4)) (.number 5)
    parseLine true "1 + 2 * 3 + 4 - 5" = .ok e ∧ e.depth = 3 ∧
      e.depth ≤ max 1 (tokenize "1 + 2 * 3 + 4 - 5").length ∧
      (s.run [] e).1 ≠ .error (.invalidOperation .tooDeep) := by
  intro s e
  have parsed : parseLine true "1 + 2 * 3 + 4 - 5" = .ok e := by rfl
  obtain ⟨small, deep, _⟩ := parseLine_depth parsed s []
  have depth : e.depth = 3 := rfl
  exact ⟨parsed, depth, small, fun failed => absurd (deep failed) (by rw [depth]; decide)⟩

end NotepadCalculator
