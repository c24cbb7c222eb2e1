import NotepadCalculator.Proofs.SteppedRules

/-!
The stepwise parser comes to its end on all tokens. Where a rule is read it takes at least one token
and stays within the tokens, and as many rules have come to their end as have begun. So each loop
ends, no index is without a token, and the outcome is that of the grammar.
-/
namespace NotepadCalculator.Stepwise
open Number Grammar

variable {tokens : List Token}

/-! Calls within calls. -/

def below (d : Nat) : Deeper := withLevels (nestingLimit - d)

theorem below_room {d : Nat} (room : d < nestingLimit) :
    below d = withLevels (nestingLimit - (d + 1) + 1) := by
  have levels : nestingLimit - d = nestingLimit - (d + 1) + 1 := by omega
  rw [below, levels]

theorem below_full {d : Nat} (full : ¬ d < nestingLimit) (rule : Rule) :
    below d rule = Parse.tooDeep := by
  rw [below, Nat.sub_eq_zero_of_le (Nat.le_of_not_lt full)]
  rfl

theorem below_expression (d : Nat) : below d .expression =
    if d < nestingLimit then Grammar.expression (below (d + 1)) else Parse.tooDeep := by
  split
  · rename_i room
    rw [below_room room]
    rfl
  · rename_i full
    exact below_full full .expression

theorem below_polarity (d : Nat) : below d .polarity =
    if d < nestingLimit then Grammar.polarity (below (d + 1)) else Parse.tooDeep := by
  split
  · rename_i room
    rw [below_room room]
    rfl
  · rename_i full
    exact below_full full .polarity

/-- The fuel suffices for the calls that do not go on by a token, which `rank` counts, and for
    twelve more with each token. -/
def Enough (tokens : List Token) (rank fuel i : Nat) : Prop :=
  12 * (tokens.length - i) + rank ≤ fuel

/-- With the fuel, where it is enough, each rule agrees with the grammar. -/
structure Known (tokens : List Token) (fuel : Nat) : Prop where
  expression : ∀ {i d}, Enough tokens 9 fuel i →
    Agrees tokens i d (i + 1) (expression fuel) (below d .expression)
  additive : ∀ {i d}, Enough tokens 8 fuel i →
    Agrees tokens i d (i + 1) (additive fuel) (Grammar.additive (below d))
  sums : ∀ {i d most} left, Enough tokens 1 fuel i → tokens.length - i ≤ most →
    Agrees tokens i d i (sums fuel left)
      (chainFuel additiveOp? (Grammar.multiplicative (below d)) most left)
  multiplicative : ∀ {i d}, Enough tokens 7 fuel i →
    Agrees tokens i d (i + 1) (multiplicative fuel) (Grammar.multiplicative (below d))
  products : ∀ {i d most} left, Enough tokens 1 fuel i → tokens.length - i ≤ most →
    Agrees tokens i d i (products fuel left)
      (chainFuel multiplicativeOp? (below d .polarity) most left)
  polarity : ∀ {i d}, Enough tokens 6 fuel i →
    Agrees tokens i d (i + 1) (polarity fuel) (below d .polarity)
  operand : ∀ {i d}, Enough tokens 5 fuel i →
    Agrees tokens i d (i + 1) (operand fuel) (Grammar.operand (below d))
  suffixes : ∀ {i d most} e, Enough tokens 1 fuel i → tokens.length - i ≤ most →
    Agrees tokens i d i (suffixes fuel e) (suffixesFuel (below d) most e)
  applySuffix : ∀ {i d} e suffix, Enough tokens 7 fuel i →
    Agrees tokens i d i (applySuffix fuel e suffix) (Grammar.applySuffix (below d) e suffix)
  term : ∀ {i d}, Enough tokens 4 fuel i →
    Agrees tokens i d (i + 1) (term fuel) (Grammar.term (below d))
  nameTerm : ∀ {i d} token, Enough tokens 1 fuel i → i < tokens.length →
    Agrees tokens i d (i + 1) (nameTerm fuel token) (Grammar.nameTerm (below d) token)
  callArguments : ∀ {i d}, Enough tokens 1 fuel i →
    Agrees tokens i d (i + 1) (callArguments fuel) (Grammar.callArguments (below d))
  arguments : ∀ {i d most}, Enough tokens 10 fuel i → tokens.length - i < most →
    Agrees tokens i d (i + 1) (arguments fuel)
      (Parse.commaSeparatedFuel (below d .expression) most)
  addends : ∀ {i d most}, Enough tokens 10 fuel i → tokens.length - i < most →
    Agrees tokens i d (i + 1) (addends fuel)
      (Parse.commaSeparatedFuel (Grammar.additive (below d)) most)
  keywordTerm : ∀ {i d} token keyword, Enough tokens 2 fuel i → i < tokens.length →
    Agrees tokens i d (i + 1) (keywordTerm fuel token keyword)
      (Grammar.keywordTerm (below d) token keyword)
  aggregate : ∀ {i d} token, Enough tokens 1 fuel i → i < tokens.length →
    Agrees tokens i d (i + 1) (aggregate fuel token) (Grammar.aggregate (below d) token)
  changeTerm : ∀ {i d} op, Enough tokens 1 fuel i → i < tokens.length →
    Agrees tokens i d (i + 1) (changeTerm fuel op) (Grammar.changeTerm (below d) op)

section
variable {i d fuel rank : Nat}

theorem Enough.call {less : Nat} (enough : Enough tokens rank (fuel + 1) i) (lower : less < rank) :
    Enough tokens less fuel i := by
  unfold Enough at enough ⊢
  omega

theorem Enough.onward {j : Nat} (enough : Enough tokens rank (fuel + 1) i) (moved : i < j)
    (within : j ≤ max i tokens.length) {other : Nat} (few : other ≤ 11 + rank) :
    Enough tokens other fuel j := by
  unfold Enough at enough ⊢
  omega

theorem Enough.mono {j less : Nat} (enough : Enough tokens rank fuel i) (moved : i ≤ j)
    (lower : less ≤ rank) : Enough tokens less fuel j := by
  unfold Enough at enough ⊢
  omega

/-! Loops. Each round of one takes a token, so there are no more rounds than tokens. -/

theorem ended_of_few (few : tokens.length - i ≤ 0) : (tokenAt tokens i).kind = .eof :=
  congrArg Token.kind (tokenAt_of_le (by omega))

theorem agrees_conversions {most : Nat} (e : Expr Float) (enough : Enough tokens 1 fuel i)
    (few : tokens.length - i ≤ most) :
    Agrees tokens i d i (conversions fuel e) (conversionsFuel most e) := by
  induction fuel generalizing i most e with
  | zero => simp [Enough] at enough
  | succ fuel ih =>
    cases most with
    | zero =>
      refine agrees_absent ?_ (agrees_pure (Nat.le_refl i) e)
      simp [ended_of_few few]
    | succ most =>
      refine agrees_isAt (fun here => ?_) fun _ => agrees_pure (Nat.le_refl i) e
      refine agrees_advance (inside_of_kind (by simp [here])) ?_
      refine agrees_bind agrees_conversionTarget fun target j moved within => ?_
      refine (ih _ (enough.onward (by omega) (by omega) (by decide)) (by omega)).weaken (by omega)

/-- One round of a chain, and the rounds behind it. -/
theorem agrees_chain {op? : TokenKind → Option BinaryOp} (ends : op? .eof = none)
    {item : Run (Expr Float)} {rule : Parse (Expr Float)} {loop : Expr Float → Run (Expr Float)}
    (each : ∀ {j}, i < j → j ≤ max i tokens.length → Agrees tokens j d (j + 1) item rule)
    (later : ∀ {j most} left, i < j → j ≤ max i tokens.length → tokens.length - j ≤ most →
      Agrees tokens j d j (loop left) (chainFuel op? rule most left))
    {most : Nat} (left : Expr Float) (few : tokens.length - i ≤ most) :
    Agrees tokens i d i (do
      match op? (← current).kind with
      | none => return left
      | some op =>
        advance
        let right ← item
        loop (.binary op left right)) (chainFuel op? rule most left) := by
  cases most with
  | zero =>
    refine agrees_peek 0 ?_
    rw [Nat.add_zero, ended_of_few few, ends]
    exact agrees_pure (Nat.le_refl i) left
  | succ most =>
    refine agrees_current ?_
    cases found : op? (tokenAt tokens i).kind with
    | none => exact agrees_pure (Nat.le_refl i) left
    | some op =>
      have inside : i < tokens.length := by
        refine inside_of_kind fun ended => ?_
        rw [ended, ends] at found
        cases found
      refine agrees_advance inside ?_
      refine agrees_bind (each (Nat.lt_succ_self i) (by omega)) fun right j moved within => ?_
      exact (later _ (by omega) (by omega) (by omega)).weaken (by omega)

theorem agrees_list {β : Type} {item : Run β} {rule : Parse β} {loop : Run (List β)} {most : Nat}
    (few : tokens.length - i < most) (first : Agrees tokens i d (i + 1) item rule)
    (later : ∀ {j most}, i < j → j ≤ max i tokens.length → tokens.length - j < most →
      Agrees tokens j d (j + 1) loop (Parse.commaSeparatedFuel rule most)) :
    Agrees tokens i d (i + 1) (do
      let first ← item
      if ← isAt .comma then
        advance
        return first :: (← loop)
      else return [first]) (Parse.commaSeparatedFuel rule most) := by
  obtain ⟨most, rfl⟩ := Nat.exists_eq_add_of_le' (show 1 ≤ most by omega)
  refine agrees_bind first fun b j moved within => ?_
  refine agrees_isAt (fun comma => ?_) fun _ => agrees_pure moved _
  refine agrees_advance (inside_of_kind (by simp [comma])) ?_
  have inside : j < tokens.length := inside_of_kind (by simp [comma])
  refine agrees_bind (later (by omega) (by omega) (by omega)) fun others k moved within => ?_
  exact agrees_pure (by omega) _

variable (known : Known tokens fuel)
include known

theorem agrees_expression (enough : Enough tokens 9 (fuel + 1) i) :
    Agrees tokens i d (i + 1) (expression (fuel + 1)) (below d .expression) := by
  rw [below_expression]
  refine agrees_nested fun _ => ?_
  refine agrees_bind (known.additive (enough.call (by decide))) fun e j moved within => ?_
  refine agrees_remaining ?_
  exact (agrees_conversions e (enough.onward moved within (by decide)) (Nat.le_refl _)).weaken moved

theorem agrees_sums {most : Nat} (left : Expr Float) (enough : Enough tokens 1 (fuel + 1) i)
    (few : tokens.length - i ≤ most) : Agrees tokens i d i (sums (fuel + 1) left)
      (chainFuel additiveOp? (Grammar.multiplicative (below d)) most left) := by
  refine agrees_chain rfl (fun moved within => ?_) (fun left moved within => ?_) left few
  · exact known.multiplicative (enough.onward moved within (by decide))
  · exact known.sums left (enough.onward moved within (by decide))

theorem agrees_products {most : Nat} (left : Expr Float) (enough : Enough tokens 1 (fuel + 1) i)
    (few : tokens.length - i ≤ most) : Agrees tokens i d i (products (fuel + 1) left)
      (chainFuel multiplicativeOp? (below d .polarity) most left) := by
  refine agrees_chain rfl (fun moved within => ?_) (fun left moved within => ?_) left few
  · exact known.polarity (enough.onward moved within (by decide))
  · exact known.products left (enough.onward moved within (by decide))

theorem agrees_additive (enough : Enough tokens 8 (fuel + 1) i) :
    Agrees tokens i d (i + 1) (additive (fuel + 1)) (Grammar.additive (below d)) := by
  refine agrees_bind (known.multiplicative (enough.call (by decide))) fun left j moved within => ?_
  refine agrees_remaining ?_
  exact (known.sums left (enough.onward moved within (by decide)) (Nat.le_refl _)).weaken moved

theorem agrees_multiplicative (enough : Enough tokens 7 (fuel + 1) i) :
    Agrees tokens i d (i + 1) (multiplicative (fuel + 1)) (Grammar.multiplicative (below d)) := by
  refine agrees_bind (known.polarity (enough.call (by decide))) fun left j moved within => ?_
  refine agrees_remaining ?_
  exact (known.products left (enough.onward moved within (by decide)) (Nat.le_refl _)).weaken moved

theorem agrees_polarity (enough : Enough tokens 6 (fuel + 1) i) :
    Agrees tokens i d (i + 1) (polarity (fuel + 1)) (below d .polarity) := by
  rw [below_polarity]
  refine agrees_nested fun _ => agrees_current ?_
  cases sign : sign? (tokenAt tokens i).kind with
  | some op =>
    have inside : i < tokens.length := by
      refine inside_of_kind fun ended => ?_
      rw [ended] at sign
      cases sign
    refine agrees_advance inside ?_
    refine agrees_bind (known.polarity (enough.onward (by omega) (by omega) (by decide))) ?_
    exact fun e j moved _ => agrees_pure (by omega) _
  | none => exact known.operand (enough.call (by decide))

theorem agrees_operand (enough : Enough tokens 5 (fuel + 1) i) :
    Agrees tokens i d (i + 1) (operand (fuel + 1)) (Grammar.operand (below d)) := by
  refine agrees_bind (known.term (enough.call (by decide))) fun e j moved within => ?_
  refine agrees_remaining ?_
  exact (known.suffixes e (enough.onward moved within (by decide)) (Nat.le_refl _)).weaken moved

theorem agrees_suffixes {most : Nat} (e : Expr Float) (enough : Enough tokens 1 (fuel + 1) i)
    (few : tokens.length - i ≤ most) :
    Agrees tokens i d i (suffixes (fuel + 1) e) (suffixesFuel (below d) most e) := by
  have none_ (next : Token) (ended : (tokenAt tokens i).kind = .eof) :
      suffix? (tokenAt tokens i) next = none := by simp [suffix?, ended]
  cases most with
  | zero =>
    refine agrees_peek 0 (agrees_peek 1 ?_)
    rw [Nat.add_zero, none_ _ (ended_of_few few)]
    exact agrees_pure (Nat.le_refl i) e
  | succ most =>
    refine agrees_current (agrees_following ?_)
    cases found : suffix? (tokenAt tokens i) (tokenAt tokens (i + 1)) with
    | none => exact agrees_pure (Nat.le_refl i) e
    | some suffix =>
      have inside : i < tokens.length := by
        refine inside_of_kind fun ended => ?_
        rw [none_ _ ended] at found
        cases found
      refine agrees_advance inside ?_
      refine agrees_bind (known.applySuffix e suffix
        (enough.onward (by omega) (by omega) (by decide))) fun e j moved within => ?_
      refine (known.suffixes e (enough.onward (by omega) (by omega) (by decide)) ?_).weaken ?_
      · omega
      · omega

theorem agrees_applySuffix (e : Expr Float) (suffix : Suffix)
    (enough : Enough tokens 7 (fuel + 1) i) :
    Agrees tokens i d i (applySuffix (fuel + 1) e suffix)
      (Grammar.applySuffix (below d) e suffix) := by
  cases suffix with
  | percent =>
    refine agrees_isAt (fun here => ?_) fun _ => agrees_pure (Nat.le_refl i) _
    have inside : i < tokens.length := inside_of_kind (by simp [here])
    refine agrees_advance inside ?_
    refine agrees_bind (known.polarity (enough.onward (by omega) (by omega) (by decide))) ?_
    exact fun whole j moved _ => agrees_pure (by omega) _
  | ago => exact agrees_pure (Nat.le_refl i) _
  | after =>
    refine agrees_bind (known.polarity (enough.call (by decide))) fun anchor j moved _ => ?_
    exact agrees_pure (by omega) _
  | before =>
    refine agrees_bind (known.polarity (enough.call (by decide))) fun anchor j moved _ => ?_
    exact agrees_pure (by omega) _

theorem agrees_term (enough : Enough tokens 4 (fuel + 1) i) :
    Agrees tokens i d (i + 1) (term (fuel + 1)) (Grammar.term (below d)) := by
  refine agrees_current ?_
  have inside (other : (tokenAt tokens i).kind ≠ .eof) : i < tokens.length := inside_of_kind other
  cases kind : (tokenAt tokens i).kind with
  | number => exact agrees_numberTerm (inside (by simp [kind])) _
  | currencySymbol => exact agrees_symbolTerm (inside (by simp [kind])) _
  | date => exact agrees_dateTerm (inside (by simp [kind])) _
  | time => exact agrees_timeTerm (inside (by simp [kind])) _
  | text => exact agrees_advance (inside (by simp [kind])) (agrees_pure (Nat.le_refl _) _)
  | identifier => exact known.nameTerm _ (enough.call (by decide)) (inside (by simp [kind]))
  | openParen =>
    refine agrees_advance (inside (by simp [kind])) ?_
    have inside := inside (by simp [kind])
    refine agrees_bind (known.expression (enough.onward (by omega) (by omega) (by decide)))
      fun inner j moved _ => ?_
    refine agrees_bind (agrees_expect (by simp) _) fun closing k reached _ => ?_
    exact agrees_pure (by omega) inner
  | keyword keyword =>
    exact known.keywordTerm _ keyword (enough.call (by decide)) (inside (by simp [kind]))
  | _ => exact agrees_failUnexpected

theorem agrees_callArguments (enough : Enough tokens 1 (fuel + 1) i) :
    Agrees tokens i d (i + 1) (callArguments (fuel + 1)) (Grammar.callArguments (below d)) := by
  refine agrees_bind (agrees_expect (by simp) _) fun opening j moved within => ?_
  have closed {k : Nat} (reached : j ≤ k) (found : List (Expr Float)) :
      Agrees tokens k d (i + 1) (do let _ ← expect .closeParen .closing; return found)
        (do let _ ← Parse.expect .closeParen .closing; return found) := by
    refine agrees_bind (agrees_expect (by simp) _) fun closing l after _ => ?_
    exact agrees_pure (by omega) found
  refine agrees_isAt (fun _ => closed (Nat.le_refl j) []) fun _ => ?_
  refine agrees_bind (agrees_remaining (known.arguments (enough.onward moved within (by decide))
    (Nat.lt_succ_self _))) fun found k after _ => ?_
  exact closed (by omega) found

theorem agrees_nameTerm (token : Token) (enough : Enough tokens 1 (fuel + 1) i)
    (inside : i < tokens.length) : Agrees tokens i d (i + 1) (nameTerm (fuel + 1) token)
      (Grammar.nameTerm (below d) token) := by
  refine agrees_advance inside ?_
  split
  · exact agrees_bind agrees_reference fun reference j moved _ => agrees_pure moved _
  · refine agrees_isAt (fun _ => ?_) fun _ => agrees_pure (Nat.le_refl _) _
    refine agrees_bind (known.callArguments (enough.onward (by omega) (by omega) (by decide))) ?_
    exact fun found j moved _ => agrees_pure (by omega) _

theorem agrees_arguments {most : Nat} (enough : Enough tokens 10 (fuel + 1) i)
    (few : tokens.length - i < most) : Agrees tokens i d (i + 1) (arguments (fuel + 1))
      (Parse.commaSeparatedFuel (below d .expression) most) :=
  agrees_list few (known.expression (enough.call (by decide))) fun moved within few =>
    known.arguments (enough.onward moved within (by decide)) few

theorem agrees_addends {most : Nat} (enough : Enough tokens 10 (fuel + 1) i)
    (few : tokens.length - i < most) : Agrees tokens i d (i + 1) (addends (fuel + 1))
      (Parse.commaSeparatedFuel (Grammar.additive (below d)) most) :=
  agrees_list few (known.additive (enough.call (by decide))) fun moved within few =>
    known.addends (enough.onward moved within (by decide)) few

theorem agrees_aggregate (token : Token) (enough : Enough tokens 1 (fuel + 1) i)
    (inside : i < tokens.length) : Agrees tokens i d (i + 1) (aggregate (fuel + 1) token)
      (Grammar.aggregate (below d) token) := by
  refine agrees_advance inside ?_
  refine agrees_isAt (fun _ => ?_) fun _ => agrees_isAt (fun of => ?_) fun _ =>
    agrees_failExpected _
  · refine agrees_bind (known.callArguments (enough.onward (by omega) (by omega) (by decide))) ?_
    exact fun found j moved _ => agrees_pure (by omega) _
  · refine agrees_advance (inside_of_kind (by simp [of])) ?_
    have here : i + 1 < tokens.length := inside_of_kind (by simp [of])
    refine agrees_bind (agrees_remaining (known.addends
      (enough.onward (by omega) (by omega) (by decide)) (Nat.lt_succ_self _))) ?_
    exact fun found j moved _ => agrees_pure (by omega) _

theorem agrees_changeTerm (op : BinaryOp) (enough : Enough tokens 1 (fuel + 1) i)
    (inside : i < tokens.length) : Agrees tokens i d (i + 1) (changeTerm (fuel + 1) op)
      (Grammar.changeTerm (below d) op) := by
  refine agrees_advance inside ?_
  refine agrees_bind (known.additive (enough.onward (by omega) (by omega) (by decide))) ?_
  intro base j moved within
  refine agrees_bind (agrees_expect (by simp) _) fun by_ k reached later => ?_
  refine agrees_bind (known.polarity (enough.onward (by omega) (by omega) (by decide))) ?_
  exact fun amount l moved _ => agrees_pure (by omega) _

theorem agrees_keywordTerm (token : Token) (keyword : Keyword)
    (enough : Enough tokens 2 (fuel + 1) i) (inside : i < tokens.length) :
    Agrees tokens i d (i + 1) (keywordTerm (fuel + 1) token keyword)
      (Grammar.keywordTerm (below d) token keyword) := by
  have onward {j : Nat} (moved : i < j) (within : j ≤ max i tokens.length) :
      Agrees tokens j d (j + 1) (polarity fuel) (below d .polarity) :=
    known.polarity (enough.onward moved within (by decide))
  cases keyword with
  | now => exact agrees_dayWord inside _
  | today => exact agrees_dayWord inside _
  | tomorrow => exact agrees_dayWord inside _
  | yesterday => exact agrees_dayWord inside _
  | sum => exact known.aggregate token (enough.call (by decide)) inside
  | total => exact known.aggregate token (enough.call (by decide)) inside
  | average => exact known.aggregate token (enough.call (by decide)) inside
  | mean => exact known.aggregate token (enough.call (by decide)) inside
  | half =>
    refine agrees_advance inside ?_
    refine agrees_bind (agrees_expect (by simp) _) fun of j moved within => ?_
    exact agrees_bind (onward (by omega) (by omega)) fun e k later _ => agrees_pure (by omega) _
  | double =>
    refine agrees_advance inside ?_
    exact agrees_bind (onward (by omega) (by omega)) fun e k later _ => agrees_pure (by omega) _
  | twice =>
    refine agrees_advance inside ?_
    exact agrees_bind (onward (by omega) (by omega)) fun e k later _ => agrees_pure (by omega) _
  | three =>
    refine agrees_advance inside ?_
    refine agrees_bind (agrees_expect (by simp) _) fun quarters j moved within => ?_
    refine agrees_bind (agrees_expect (by simp) _) fun of k reached later => ?_
    exact agrees_bind (onward (by omega) (by omega)) fun e l later _ => agrees_pure (by omega) _
  | increase => exact known.changeTerm .add (enough.call (by decide)) inside
  | decrease => exact known.changeTerm .subtract (enough.call (by decide)) inside
  | next => exact agrees_neighbourTerm inside .add token
  | last => exact agrees_neighbourTerm inside .subtract token
  | _ => exact agrees_failUnexpected

end

theorem known (tokens : List Token) (fuel : Nat) : Known tokens fuel := by
  induction fuel with
  | zero =>
    have never {rank i : Nat} : ¬ Enough tokens (rank + 1) 0 i := by simp [Enough]
    constructor <;> intros <;> exact absurd ‹_› never
  | succ fuel ih =>
    exact {
      expression := agrees_expression ih
      additive := agrees_additive ih
      sums := agrees_sums ih
      multiplicative := agrees_multiplicative ih
      products := agrees_products ih
      polarity := agrees_polarity ih
      operand := agrees_operand ih
      suffixes := agrees_suffixes ih
      applySuffix := agrees_applySuffix ih
      term := agrees_term ih
      nameTerm := agrees_nameTerm ih
      callArguments := agrees_callArguments ih
      arguments := agrees_arguments ih
      addends := agrees_addends ih
      keywordTerm := agrees_keywordTerm ih
      aggregate := agrees_aggregate ih
      changeTerm := agrees_changeTerm ih }

/-! Lines. -/

section
variable {fuel : Nat}

theorem agrees_statement (enough : Enough tokens 9 fuel 0) :
    Agrees tokens 0 0 0 (statement fuel) Grammar.statement := by
  have whole {j : Nat} (within : j ≤ max 0 tokens.length) :
      Agrees tokens j 0 0 (expression fuel) wholeExpression := by
    have enough := enough.mono (Nat.zero_le j) (Nat.le_refl 9)
    exact ((known tokens fuel).expression enough).weaken (Nat.zero_le _)
  refine agrees_current (agrees_following ?_)
  split
  · rename_i assigns
    simp only [Bool.and_eq_true, decide_eq_true_eq] at assigns
    have second : 0 + 1 < tokens.length := inside_of_kind (by simp [assigns.2])
    dsimp only
    split
    · exact .refused _ rfl rfl
    · refine agrees_advance (by omega) (agrees_advance second ?_)
      exact agrees_bind (whole (by omega)) fun e j _ _ => agrees_pure (Nat.zero_le j) _
  · dsimp only
    split
    · rename_i asks
      simp only [Bool.and_eq_true, decide_eq_true_eq] at asks
      have second : 0 + 1 < tokens.length := inside_of_kind (by simp [asks.2])
      exact agrees_advance (by omega) (agrees_advance second (whole (by omega)))
    · exact whole (by omega)

theorem agrees_complete (enough : Enough tokens 9 fuel 0) :
    Agrees tokens 0 0 0 (complete fuel) Grammar.complete := by
  refine agrees_bind (agrees_statement enough) fun e j _ _ => ?_
  exact agrees_isAt (fun _ => agrees_pure (Nat.zero_le j) e) fun _ => agrees_failUnexpected

theorem from_commandArguments {i : Nat} (d : Nat) (enough : Enough tokens 1 fuel i) :
    ∃ j, (commandArguments fuel).from tokens i d =
      .ok (((tokens.drop i).takeWhile (·.kind = .commandArg)).map (·.text), ⟨j, d⟩) := by
  induction fuel generalizing i with
  | zero => simp [Enough] at enough
  | succ fuel ih =>
    have seen : (commandArguments (fuel + 1)).from tokens i d =
        (if (tokenAt tokens i).kind = .commandArg then do
          advance
          return (tokenAt tokens i).text :: (← commandArguments fuel)
        else return [] : Run (List String)).from tokens i d := by
      rw [commandArguments, from_current]
    rw [seen]
    by_cases argument : (tokenAt tokens i).kind = .commandArg
    · have inside : i < tokens.length := inside_of_kind (by simp [argument])
      obtain ⟨j, later⟩ := ih (enough.onward (Nat.lt_succ_self i) (by omega) (by decide))
      have token := tokenAt_of_lt inside
      rw [token] at argument
      refine ⟨j, ?_⟩
      rw [List.drop_eq_getElem_cons inside, List.takeWhile_cons_of_pos (by simpa using argument),
        token, if_pos argument, from_bind, from_advance inside]
      change (commandArguments fuel >>= fun found => pure (tokens[i].text :: found)).from
        tokens (i + 1) d = _
      rw [from_bind, later]
      rfl
    · have stops : (tokens.drop i).takeWhile (·.kind = .commandArg) = [] := by
        rcases Nat.lt_or_ge i tokens.length with inside | past
        · rw [tokenAt_of_lt inside] at argument
          rw [List.drop_eq_getElem_cons inside]
          exact List.takeWhile_cons_of_neg (by simpa using argument)
        · rw [List.drop_eq_nil_of_le past, List.takeWhile_nil]
      exact ⟨i, by rw [if_neg argument, stops]; rfl⟩

theorem from_command (enough : Enough tokens 1 fuel 1) (inside : 0 < tokens.length) :
    ((command fuel).from tokens 0 0).map (·.1) =
      (Grammar.command (tokenAt tokens 0) tokens.tail).mapError .refused := by
  obtain ⟨j, ran⟩ := from_commandArguments 0 enough
  have seen : (command fuel).from tokens 0 0 =
      (if (tokenAt tokens 0).text = "" then failAt (tokenAt tokens 0) .malformedCommand else do
        advance
        return .command (Text.lowerAscii (tokenAt tokens 0).text) (← commandArguments fuel) :
          Run (Expr Float)).from tokens 0 0 := by
    rw [command, from_current]
  rw [seen, Grammar.command]
  by_cases empty : (tokenAt tokens 0).text = ""
  · rw [if_pos empty, if_pos empty]
    rfl
  · rw [if_neg empty, if_neg empty, from_bind, from_advance inside]
    change ((commandArguments fuel >>= fun found =>
      pure (Expr.command (Text.lowerAscii (tokenAt tokens 0).text) found)).from tokens 1 0).map
        (·.1) = _
    rw [from_bind, ran, List.drop_one]
    rfl

theorem find?_vector {p : Token → Bool} (ended : ∀ stop, p (.eof stop) = false) :
    (vector tokens).find? p = tokens.find? p := by
  simp [vector, ended]

/-- The outcome of the grammar, as a run has it. -/
theorem parse_agrees (fuzzy : Bool) (enough : Enough tokens 9 fuel 0) :
    parse fuel fuzzy tokens = (NotepadCalculator.parse fuzzy tokens).mapError .refused := by
  change ((line fuel fuzzy).from tokens 0 0).map (·.1) = _
  have first : (Cursor.ofTokens tokens).current = tokenAt tokens 0 := rfl
  have here : Cursor.ofTokens tokens = cursor tokens 0 := rfl
  rw [line, from_read, find?_vector fun _ => rfl, find?_vector fun _ => rfl,
    NotepadCalculator.parse, first, here]
  cases tokens.find? (·.kind = .error) with
  | some token => rfl
  | none =>
    dsimp only
    rw [from_current]
    by_cases blank : (tokenAt tokens 0).kind = .eof
    · rw [if_pos blank, if_pos blank]
      rfl
    rw [if_neg blank, if_neg blank]
    by_cases obeyed : (tokenAt tokens 0).kind = .command
    · rw [if_pos obeyed, if_pos obeyed]
      exact from_command (enough.mono (Nat.zero_le 1) (by decide)) (inside_of_kind blank)
    rw [if_neg obeyed, if_neg obeyed]
    cases (if fuzzy then none else tokens.find? isPhraseWord) with
    | some token => rfl
    | none =>
      cases agrees_complete enough with
      | refused e ran parsed =>
        dsimp only
        rw [ran, parsed]
        rfl
      | done e j ran parsed _ _ =>
        dsimp only
        rw [ran, parsed]
        rfl

end

/-! The parts of the grammar. -/

inductive Part where
  | expression
  | additive
  | multiplicative
  | polarity
  | operand
  | term
  deriving DecidableEq, Repr

def Part.run (fuel : Nat) : Part → Run (Expr Float)
  | .expression => Stepwise.expression fuel
  | .additive => Stepwise.additive fuel
  | .multiplicative => Stepwise.multiplicative fuel
  | .polarity => Stepwise.polarity fuel
  | .operand => Stepwise.operand fuel
  | .term => Stepwise.term fuel

def Part.rule (d : Nat) : Part → Parse (Expr Float)
  | .expression => below d .expression
  | .additive => Grammar.additive (below d)
  | .multiplicative => Grammar.multiplicative (below d)
  | .polarity => below d .polarity
  | .operand => Grammar.operand (below d)
  | .term => Grammar.term (below d)

theorem agrees_part {fuel i : Nat} (part : Part) (d : Nat) (enough : Enough tokens 9 fuel i) :
    Agrees tokens i d (i + 1) (part.run fuel) (part.rule d) := by
  have less {rank : Nat} (lower : rank ≤ 9) : Enough tokens rank fuel i :=
    enough.mono (Nat.le_refl i) lower
  have known := known tokens fuel
  cases part with
  | expression => exact known.expression enough
  | additive => exact known.additive (less (by decide))
  | multiplicative => exact known.multiplicative (less (by decide))
  | polarity => exact known.polarity (less (by decide))
  | operand => exact known.operand (less (by decide))
  | term => exact known.term (less (by decide))

/-- What has taken a token is known by the tokens that are left. -/
theorem Agrees.alike {i d : Nat} {β : Type} {run run' : Run β} {rule : Parse β}
    (agrees : Agrees tokens i d (i + 1) run rule) (agrees' : Agrees tokens i d (i + 1) run' rule) :
    run.from tokens i d = run'.from tokens i d := by
  cases agrees with
  | refused e ran parsed =>
    cases agrees' with
    | refused e' ran' parsed' =>
      have same := Except.error.inj (parsed.symm.trans parsed')
      rw [ran, ran', same]
    | done b j ran' parsed' moved within => cases parsed.symm.trans parsed'
  | done b j ran parsed moved within =>
    cases agrees' with
    | refused e ran' parsed' => cases parsed.symm.trans parsed'
    | done b' j' ran' parsed' moved' within' =>
      obtain ⟨rfl, places⟩ := Prod.mk.inj (Except.ok.inj (parsed.symm.trans parsed'))
      have left : tokens.length - j = tokens.length - j' := by
        simpa [cursor] using congrArg (fun c => c.rest.length) places
      have same : j = j' := by omega
      rw [ran, ran', same]

/-- From every index, and however many rules have begun, each part of the grammar comes to an end,
    whatever more fuel there is than twelve calls for each token: it refuses, or it stands behind
    the token it has begun at and not behind the end token, with as many rules begun as before. -/
theorem parser_progress (tokens : List Token) :
    (∀ (part : Part) (i d : Nat), ∃ outcome,
      (∀ more, (part.run (12 * (tokens.length + 1) + more)).from tokens i d = outcome) ∧
        ((∃ e, outcome = .error (.refused e)) ∨
          ∃ e j, outcome = .ok (e, ⟨j, d⟩) ∧ i < j ∧ j ≤ tokens.length)) ∧
      ∀ fuzzy more, parse (12 * (tokens.length + 1) + more) fuzzy tokens =
        (NotepadCalculator.parse fuzzy tokens).mapError .refused := by
  have enough (i more : Nat) : Enough tokens 9 (12 * (tokens.length + 1) + more) i := by
    unfold Enough
    omega
  refine ⟨fun part i d => ?_, fun fuzzy more => parse_agrees fuzzy (enough 0 more)⟩
  have agrees (more : Nat) := agrees_part part d (enough i more)
  refine ⟨_, fun more => (agrees more).alike (agrees 0), ?_⟩
  cases agrees 0 with
  | refused e ran _ => exact .inl ⟨e, ran⟩
  | done e j ran _ moved within => exact .inr ⟨e, j, ran, by omega, by omega⟩

end NotepadCalculator.Stepwise
