import NotepadCalculator.Expr.Stepping

/-!
The stepwise parser beside the grammar. Where the one has an index into the vector, the other has
the tokens from there on, and they agree if they refuse alike or read the same and stand at the same
token again. Steps agree, and so do the rules that call no others.
-/
namespace NotepadCalculator.Stepwise
open Calendar Number Grammar

variable {tokens : List Token}

/-! The token at an index. -/

def cursor (tokens : List Token) (i : Nat) : Cursor :=
  ⟨tokens.drop i, (Cursor.ofTokens tokens).stop⟩

def tokenAt (tokens : List Token) (i : Nat) : Token := (cursor tokens i).current

theorem tokenAt_of_le {i : Nat} (past : tokens.length ≤ i) :
    tokenAt tokens i = .eof (Cursor.ofTokens tokens).stop := by
  simp [tokenAt, cursor, Cursor.current, List.drop_eq_nil_of_le past]

theorem tokenAt_of_lt {i : Nat} (inside : i < tokens.length) : tokenAt tokens i = tokens[i] := by
  rw [tokenAt, cursor, Cursor.current, List.drop_eq_getElem_cons inside]
  rfl

theorem inside_of_kind {i : Nat} (kind : (tokenAt tokens i).kind ≠ .eof) : i < tokens.length := by
  rcases Nat.lt_or_ge i tokens.length with inside | past
  · exact inside
  · exact absurd (congrArg Token.kind (tokenAt_of_le past)) kind

theorem following_cursor (i : Nat) : (cursor tokens i).following = tokenAt tokens (i + 1) := by
  simp [tokenAt, cursor, Cursor.current, Cursor.following]

theorem forward_cursor (i : Nat) : (cursor tokens i).forward = cursor tokens (i + 1) := by
  simp [cursor, Cursor.forward]

theorem size_vector : (vector tokens).size = tokens.length + 1 := by simp [vector]

theorem seen?_vector (i : Nat) : seen? (vector tokens) i = some (tokenAt tokens i) := by
  have filled : (vector tokens).size ≠ 0 := by simp [size_vector]
  rw [seen?, if_neg filled, size_vector, Nat.add_sub_cancel]
  rcases Nat.lt_or_ge i tokens.length with inside | past
  · rw [Nat.min_eq_left (Nat.le_of_lt inside), tokenAt_of_lt inside]
    simp [vector, List.getElem?_append_left inside, inside]
  · rw [Nat.min_eq_right past, tokenAt_of_le past]
    simp [vector]

/-! Steps. -/

/-- What a run comes to from an index, where so many rules have begun. -/
def Run.from {β : Type} (run : Run β) (tokens : List Token) (i d : Nat) : Except Stop (β × Place) :=
  (run.run (vector tokens)).run ⟨i, d⟩

section
variable {β γ : Type}

theorem from_bind (run : Run β) (f : β → Run γ) (i d : Nat) : (run >>= f).from tokens i d =
    (run.from tokens i d).bind fun (b, place) => (f b).from tokens place.index place.depth := by
  unfold Run.from
  rw [ReaderT.run_bind, StateT.run_bind]
  cases (run.run (vector tokens)).run ⟨i, d⟩ <;> rfl

theorem from_read (f : Array Token → Run γ) (i d : Nat) :
    (read >>= f).from tokens i d = (f (vector tokens)).from tokens i d := rfl

theorem from_get (f : Place → Run γ) (i d : Nat) :
    (get >>= f).from tokens i d = (f ⟨i, d⟩).from tokens i d := rfl

theorem from_peek (offset : Nat) (f : Token → Run γ) (i d : Nat) :
    (peek offset >>= f).from tokens i d = (f (tokenAt tokens (i + offset))).from tokens i d := by
  rw [from_bind, peek, from_read, from_get, seen?_vector]
  rfl

theorem from_current (f : Token → Run γ) (i d : Nat) :
    (current >>= f).from tokens i d = (f (tokenAt tokens i)).from tokens i d := from_peek 0 f i d

theorem from_advance {i : Nat} (inside : i < tokens.length) (d : Nat) :
    advance.from tokens i d = .ok ((), ⟨i + 1, d⟩) := by
  have more : i + 1 < (vector tokens).size := by
    rw [size_vector]
    omega
  change Except.ok ((), if i + 1 < (vector tokens).size then (⟨i + 1, d⟩ : Place) else ⟨i, d⟩) = _
  rw [if_pos more]

end

/-! Runs that agree with the grammar. -/

/-- Both refuse with the same error, or both have the same outcome and stand at the same token, at
    `least` or behind it. As many rules have begun as before. -/
inductive Agrees (tokens : List Token) (i d least : Nat) {β : Type} (run : Run β) (rule : Parse β) :
    Prop where
  | refused (e : ParseError) (ran : run.from tokens i d = .error (.refused e))
      (parsed : rule.run (cursor tokens i) = .error e)
  | done (b : β) (j : Nat) (ran : run.from tokens i d = .ok (b, ⟨j, d⟩))
      (parsed : rule.run (cursor tokens i) = .ok (b, cursor tokens j)) (moved : least ≤ j)
      (within : j ≤ max i tokens.length)

section
variable {β γ : Type} {i d least : Nat}

theorem agrees_pure (reached : least ≤ i) (b : β) :
    Agrees tokens i d least (pure b) (pure b) :=
  .done b i rfl rfl reached (Nat.le_max_left _ _)

/-- The first steps have led to an index from which both go on in the same way. -/
theorem agrees_onward {j : Nat} {run run' : Run γ} {rule rule' : Parse γ}
    (ran : run.from tokens i d = run'.from tokens j d)
    (parsed : rule.run (cursor tokens i) = rule'.run (cursor tokens j))
    (within : j ≤ max i tokens.length) (rest : Agrees tokens j d least run' rule') :
    Agrees tokens i d least run rule := by
  cases rest with
  | refused e ran' parsed' => exact .refused e (ran.trans ran') (parsed.trans parsed')
  | done b k ran' parsed' moved later =>
    exact .done b k (ran.trans ran') (parsed.trans parsed') moved (by omega)

theorem Agrees.weaken {fewer : Nat} {run : Run γ} {rule : Parse γ}
    (agrees : Agrees tokens i d least run rule) (less : fewer ≤ least) :
    Agrees tokens i d fewer run rule := by
  cases agrees with
  | refused e ran parsed => exact .refused e ran parsed
  | done b j ran parsed moved within => exact .done b j ran parsed (Nat.le_trans less moved) within

theorem agrees_bind {between : Nat} {run : Run β} {rule : Parse β} {f : β → Run γ}
    {g : β → Parse γ} (first : Agrees tokens i d between run rule)
    (rest : ∀ b j, between ≤ j → j ≤ max i tokens.length →
      Agrees tokens j d least (f b) (g b)) :
    Agrees tokens i d least (run >>= f) (rule >>= g) := by
  cases first with
  | refused e ran parsed =>
    refine .refused e ?_ ?_
    · rw [from_bind, ran]
      rfl
    · rw [StateT.run_bind, parsed]
      rfl
  | done b j ran parsed moved within =>
    refine agrees_onward ?_ ?_ within (rest b j moved within)
    · rw [from_bind, ran]
      rfl
    · rw [StateT.run_bind, parsed]
      rfl

theorem agrees_peek (offset : Nat) {f : Token → Run γ} {rule : Parse γ}
    (rest : Agrees tokens i d least (f (tokenAt tokens (i + offset))) rule) :
    Agrees tokens i d least (peek offset >>= f) rule := by
  exact agrees_onward (from_peek offset f i d) rfl (Nat.le_max_left _ _) rest

theorem agrees_current {f : Token → Run γ} {g : Token → Parse γ}
    (rest : Agrees tokens i d least (f (tokenAt tokens i)) (g (tokenAt tokens i))) :
    Agrees tokens i d least (current >>= f) (Parse.current >>= g) := by
  refine agrees_peek 0 (agrees_onward ?_ ?_ (Nat.le_max_left _ _) rest)
  · rfl
  · rfl

theorem agrees_following {f : Token → Run γ} {g : Token → Parse γ}
    (rest : Agrees tokens i d least (f (tokenAt tokens (i + 1))) (g (tokenAt tokens (i + 1)))) :
    Agrees tokens i d least (following >>= f) (Parse.following >>= g) := by
  refine agrees_peek 1 (agrees_onward ?_ ?_ (Nat.le_max_left _ _) rest)
  · rfl
  · rw [← following_cursor]
    rfl

theorem agrees_remaining {run : Run γ} {g : Nat → Parse γ}
    (rest : Agrees tokens i d least run (g (tokens.length - i))) :
    Agrees tokens i d least run (Parse.remaining >>= g) := by
  refine agrees_onward rfl ?_ (Nat.le_max_left _ _) rest
  rw [← List.length_drop]
  rfl

theorem from_isAt (kind : TokenKind) (i d : Nat) : (isAt kind).from tokens i d =
    .ok (decide ((tokenAt tokens i).kind = kind), ⟨i, d⟩) := by
  rw [isAt, from_current]
  rfl

theorem agrees_absent {kind : TokenKind} {f : Bool → Run γ} {rule : Parse γ}
    (absent : (tokenAt tokens i).kind ≠ kind) (rest : Agrees tokens i d least (f false) rule) :
    Agrees tokens i d least (isAt kind >>= f) rule := by
  refine agrees_onward ?_ ?_ (Nat.le_max_left _ _) rest
  · rw [from_bind, from_isAt, decide_eq_false absent]
    rfl
  · rfl

theorem agrees_isAt {kind : TokenKind} {f : Bool → Run γ} {g : Bool → Parse γ}
    (here : (tokenAt tokens i).kind = kind → Agrees tokens i d least (f true) (g true))
    (elsewhere : (tokenAt tokens i).kind ≠ kind → Agrees tokens i d least (f false) (g false)) :
    Agrees tokens i d least (isAt kind >>= f) (Parse.isAt kind >>= g) := by
  have decided : Agrees tokens i d least (f (decide ((tokenAt tokens i).kind = kind)))
      (g (decide ((tokenAt tokens i).kind = kind))) := by
    by_cases same : (tokenAt tokens i).kind = kind
    · rw [decide_eq_true same]
      exact here same
    · rw [decide_eq_false same]
      exact elsewhere same
  refine agrees_onward ?_ ?_ (Nat.le_max_left _ _) decided
  · rw [from_bind, from_isAt]
    rfl
  · rfl

theorem agrees_advance {f : Unit → Run γ} {g : Unit → Parse γ} (inside : i < tokens.length)
    (rest : Agrees tokens (i + 1) d least (f ()) (g ())) :
    Agrees tokens i d least (advance >>= f) (Parse.advance >>= g) := by
  refine agrees_onward ?_ ?_ (by omega) rest
  · rw [from_bind, from_advance inside]
    rfl
  · rw [← forward_cursor]
    rfl

theorem agrees_failAt (token : Token) (fault : SyntaxFault) :
    Agrees tokens i d least (failAt token fault : Run γ) (Parse.failAt token fault) :=
  .refused _ rfl rfl

theorem agrees_failExpected (what : Wanted) :
    Agrees tokens i d least (failExpected what : Run γ) (Parse.failExpected what) :=
  agrees_current (agrees_failAt _ _)

theorem agrees_failUnexpected :
    Agrees tokens i d least (failUnexpected : Run γ) Parse.failUnexpected :=
  agrees_current (agrees_failAt _ _)

theorem agrees_expect {kind : TokenKind} (inside : kind ≠ .eof) (what : Wanted) :
    Agrees tokens i d (i + 1) (expect kind what) (Parse.expect kind what) := by
  refine agrees_current ?_
  split
  · rename_i same
    exact agrees_advance (inside_of_kind (same ▸ inside)) (agrees_pure (Nat.le_refl _) _)
  · exact agrees_failExpected what

theorem from_deepen (i d : Nat) : deepen.from tokens i d =
    if d < nestingLimit then .ok ((), ⟨i, d + 1⟩)
    else .error (.refused ⟨.tooDeep, (tokenAt tokens i).position⟩) := by
  rw [deepen, from_bind]
  change (get >>= fun place => if nestingLimit < place.depth then
    (do failAt (← current) .tooDeep : Run Unit) else pure ()).from tokens i (d + 1) = _
  rw [from_get]
  by_cases within : d < nestingLimit
  · rw [if_neg (show ¬ nestingLimit < d + 1 by omega), if_pos within]
    rfl
  · rw [if_pos (show nestingLimit < d + 1 by omega), if_neg within, from_current]
    rfl

theorem from_rise (i d : Nat) : rise.from tokens i (d + 1) = .ok ((), ⟨i, d⟩) := by
  rw [rise, from_get, if_neg (Nat.succ_ne_zero d)]
  rfl

theorem agrees_nested {run : Run γ} {rule : Parse γ}
    (within : d < nestingLimit → Agrees tokens i (d + 1) least run rule) :
    Agrees tokens i d least (nested run) (if d < nestingLimit then rule else Parse.tooDeep) := by
  by_cases room : d < nestingLimit
  · rw [if_pos room]
    have begun : (nested run).from tokens i d =
        (run.from tokens i (d + 1)).bind fun (found, place) =>
          (do rise; return found : Run γ).from tokens place.index place.depth := by
      rw [nested, from_bind, from_deepen, if_pos room]
      exact from_bind _ _ _ _
    cases within room with
    | refused e ran parsed =>
      refine .refused e ?_ parsed
      rw [begun, ran]
      rfl
    | done b j ran parsed moved later =>
      refine .done b j ?_ parsed moved later
      rw [begun, ran]
      change (do rise; return b : Run γ).from tokens j (d + 1) = _
      rw [from_bind, from_rise]
      rfl
  · rw [if_neg room]
    refine .refused ⟨.tooDeep, (tokenAt tokens i).position⟩ ?_ rfl
    rw [nested, from_bind, from_deepen, if_neg room]
    rfl

/-! Units and literals. -/

theorem agrees_unitName (first : Token) :
    Agrees tokens i d i (unitName first) (Grammar.unitName first) := by
  refine agrees_current (agrees_following ?_)
  split
  · rename_i joined
    simp only [Bool.and_eq_true, Bool.or_eq_true, decide_eq_true_eq] at joined
    have denominator : i + 1 < tokens.length := by
      refine inside_of_kind fun ended => ?_
      simp [ended] at joined
    refine agrees_advance (by omega) (agrees_advance denominator ?_)
    exact agrees_pure (by omega) _
  · exact agrees_pure (Nat.le_refl i) _

theorem inside_of_isUnitName (named : isUnitName (tokenAt tokens i) = true) :
    i < tokens.length := by
  refine inside_of_kind fun ended => ?_
  simp [isUnitName, ended] at named

theorem agrees_conversionTarget :
    Agrees tokens i d (i + 1) conversionTarget Grammar.conversionTarget := by
  refine agrees_current ?_
  split
  · rename_i symbol
    refine agrees_advance (inside_of_kind (by simp [symbol])) ?_
    exact agrees_pure (Nat.le_refl _) _
  · split
    · rename_i named
      exact agrees_advance (inside_of_isUnitName named) (agrees_unitName _)
    · exact agrees_failExpected _

theorem agrees_numberValue (token : Token) {f : Float → Run γ} {g : Float → Parse γ}
    (rest : ∀ value, Agrees tokens i d least (f value) (g value)) :
    Agrees tokens i d least (numberValue token >>= f) (Grammar.numberValue token >>= g) := by
  unfold numberValue Grammar.numberValue
  cases float? token.text with
  | some value => exact rest value
  | none => exact .refused _ rfl rfl

theorem agrees_timeValue (token : Token) {f : ClockTime → Run γ} {g : ClockTime → Parse γ}
    (rest : ∀ clock, Agrees tokens i d least (f clock) (g clock)) :
    Agrees tokens i d least (timeValue token >>= f) (Grammar.timeValue token >>= g) := by
  unfold timeValue Grammar.timeValue
  cases readClockTime? token.text with
  | some clock => exact rest clock
  | none => exact .refused _ rfl rfl

theorem agrees_count (inside : i < tokens.length) :
    Agrees tokens i d i count Grammar.count := by
  refine agrees_current ?_
  cases (natural? wordLimit (tokenAt tokens i).text.toList).filter (0 < ·) with
  | some n => exact agrees_advance inside (agrees_pure (Nat.le_succ i) n)
  | none => exact agrees_failAt _ _

theorem agrees_reference : Agrees tokens i d i reference Grammar.reference := by
  have counted {j : Nat} (make : Nat → Reference) (number : (tokenAt tokens j).kind = .number) :
      Agrees tokens j d j (do return make (← count)) (do return make (← Grammar.count)) :=
    agrees_bind (agrees_count (inside_of_kind (by simp [number]))) fun n k reached _ =>
      agrees_pure reached _
  refine agrees_current ?_
  cases kind : (tokenAt tokens i).kind with
  | tilde =>
    refine agrees_advance (inside_of_kind (by simp [kind])) ?_
    refine agrees_isAt (fun number => ?_) fun _ => agrees_pure (Nat.le_succ i) _
    exact (counted .back number).weaken (Nat.le_succ i)
  | hash =>
    refine agrees_advance (inside_of_kind (by simp [kind])) ?_
    refine agrees_isAt (fun number => ?_) fun _ => agrees_failExpected _
    exact (counted .line number).weaken (Nat.le_succ i)
  | _ => exact agrees_pure (Nat.le_refl i) _

section
variable (inside : i < tokens.length)
include inside

theorem agrees_numberTerm (token : Token) :
    Agrees tokens i d (i + 1) (numberTerm token) (Grammar.numberTerm token) := by
  refine agrees_numberValue token fun value => agrees_advance inside (agrees_current ?_)
  split
  · rename_i symbol
    refine agrees_advance (inside_of_kind (by simp [symbol])) ?_
    exact agrees_pure (Nat.le_succ _) _
  · refine agrees_following ?_
    split
    · rename_i named
      have next : i + 1 < tokens.length := by
        refine inside_of_kind fun ended => ?_
        simp [namesUnit, ended] at named
      refine agrees_advance next (agrees_bind (agrees_unitName _) fun name j reached _ => ?_)
      exact agrees_pure (by omega) _
    · exact agrees_pure (Nat.le_refl _) _

theorem agrees_symbolTerm (token : Token) :
    Agrees tokens i d (i + 1) (symbolTerm token) (Grammar.symbolTerm token) := by
  refine agrees_advance inside ?_
  refine agrees_bind (agrees_expect (by simp) _) fun amount j reached _ => ?_
  exact agrees_numberValue amount fun value => agrees_pure (by omega) _

theorem agrees_dateTerm (token : Token) :
    Agrees tokens i d (i + 1) (dateTerm token) (Grammar.dateTerm token) := by
  unfold dateTerm Grammar.dateTerm
  cases readDay? token.text with
  | none => exact agrees_failAt _ _
  | some day =>
    refine agrees_advance inside (agrees_current ?_)
    split
    · rename_i timed
      refine agrees_timeValue _ fun clock => ?_
      refine agrees_advance (inside_of_kind (by simp [timed])) ?_
      exact agrees_pure (Nat.le_succ _) _
    · exact agrees_pure (Nat.le_refl _) _

theorem agrees_timeTerm (token : Token) :
    Agrees tokens i d (i + 1) (timeTerm token) (Grammar.timeTerm token) :=
  agrees_timeValue token fun _ => agrees_advance inside (agrees_pure (Nat.le_refl _) _)

theorem agrees_neighbourTerm (op : BinaryOp) (token : Token) :
    Agrees tokens i d (i + 1) (neighbourTerm op token) (Grammar.neighbourTerm op token) := by
  refine agrees_advance inside (agrees_current ?_)
  split
  · rename_i named
    exact agrees_advance (inside_of_isUnitName named) (agrees_pure (Nat.le_succ _) _)
  · exact agrees_failExpected _

theorem agrees_dayWord (spec : DateSpec) :
    Agrees tokens i d (i + 1) (dayWord spec) (Grammar.dayWord spec) :=
  agrees_advance inside (agrees_pure (Nat.le_refl _) _)

end

end

end NotepadCalculator.Stepwise
