import NotepadCalculator.Proofs.LineDepth
import NotepadCalculator.Proofs.PrintedExpressions
import NotepadCalculator.Proofs.ScannedLines

/-!
A line inside another one. Rules compare the places of tokens only with each other, and wherever
they look ahead, a closing parenthesis stops them as the end of a line does. So what is read from a
line is read as well where its tokens stand further on, with closing parentheses behind them, and if
there are too few levels for that, then there are too few for the line by itself.
-/
namespace NotepadCalculator
open Number

variable {β γ : Type}

@[simp] theorem Token.shift_kind (t : Token) (n : Nat) : (t.shift n).kind = t.kind := rfl
@[simp] theorem Token.shift_text (t : Token) (n : Nat) : (t.shift n).text = t.text := rfl

/-- How much further on the tokens of a line stand, and the parentheses behind them. -/
structure Wrapping where
  offset : Nat
  tail : List Token
  closes : ∀ t ∈ tail, t.kind = .closeParen

namespace Wrapping
variable (w : Wrapping)

inductive Moves : Token → Token → Prop where
  | along {t : Token} (inside : t.kind ≠ .eof) : Moves t (t.shift w.offset)
  | ended {t t' : Token} (ended : t.kind = .eof)
      (closes : t'.kind = .eof ∨ t'.kind = .closeParen) : Moves t t'

structure Relates (size : Nat) (c c' : Cursor) : Prop where
  tokens : c'.rest = c.rest.map (·.shift w.offset) ++ w.tail
  inside : ∀ t ∈ c.rest, t.kind ≠ .eof
  few : c.rest.length ≤ size

variable {w} {size : Nat} {c c' : Cursor}

theorem moves_head {tokens : List Token} (inside : ∀ t ∈ tokens, t.kind ≠ .eof) (stop stop' : Nat) :
    w.Moves (tokens.headD (.eof stop))
      ((tokens.map (·.shift w.offset) ++ w.tail).headD (.eof stop')) := by
  cases tokens with
  | cons t tokens => exact .along (inside t List.mem_cons_self)
  | nil =>
    have closes := w.closes
    simp only [List.map_nil, List.nil_append, List.headD_nil]
    generalize w.tail = tail at closes ⊢
    cases tail with
    | nil => exact .ended rfl (.inl rfl)
    | cons t tail => exact .ended rfl (.inr (closes t List.mem_cons_self))

theorem Relates.current (relates : w.Relates size c c') : w.Moves c.current c'.current := by
  unfold Cursor.current
  rw [relates.tokens]
  exact moves_head relates.inside _ _

theorem Relates.following (relates : w.Relates size c c') : w.Moves c.following c'.following := by
  unfold Cursor.following
  rw [relates.tokens]
  cases rest : c.rest with
  | cons t tokens =>
    apply moves_head
    intro t member
    exact relates.inside t (rest ▸ List.mem_cons_of_mem _ member)
  | nil =>
    have closes := w.closes
    simp only [List.map_nil, List.nil_append, List.tail_nil, List.headD_nil]
    generalize w.tail = tail at closes ⊢
    match tail with
    | [] => exact .ended rfl (.inl rfl)
    | [_] => exact .ended rfl (.inl rfl)
    | _ :: t :: _ => exact .ended rfl (.inr (closes t (by simp)))

theorem Relates.ended (relates : w.Relates size c c') (ended : c.current.kind = .eof) :
    c.rest = [] := by
  unfold Cursor.current at ended
  cases rest : c.rest with
  | nil => rfl
  | cons t tokens =>
    rw [rest] at ended
    exact absurd ended (relates.inside t (rest ▸ List.mem_cons_self))

theorem Relates.mono {fewer : Nat} (relates : w.Relates fewer c c') (le : fewer ≤ size) :
    w.Relates size c c' :=
  ⟨relates.tokens, relates.inside, Nat.le_trans relates.few le⟩

theorem Relates.forward (relates : w.Relates size c c') (inside : c.current.kind ≠ .eof) :
    0 < size ∧ w.Relates (size - 1) c.forward c'.forward := by
  obtain ⟨tokens, within, few⟩ := relates
  unfold Cursor.current at inside
  unfold Cursor.forward
  cases rest : c.rest with
  | nil =>
    rw [rest] at inside
    exact absurd rfl inside
  | cons t others =>
    rw [rest] at tokens within few
    rw [List.length_cons] at few
    refine ⟨by omega, ?_, ?_, ?_⟩
    · rw [tokens]
      rfl
    · intro t member
      exact within t (List.mem_cons_of_mem _ member)
    · simp only [List.tail_cons]
      omega

end Wrapping

namespace Parse

def TooDeep (answer : Except ParseError β) : Prop :=
  ∃ position, answer = .error ⟨.tooDeep, position⟩

theorem tooDeep_bind {m : Parse β} {c : Cursor} (deep : TooDeep (m.run c)) (f : β → Parse γ) :
    TooDeep ((m >>= f).run c) := by
  obtain ⟨position, failed⟩ := deep
  refine ⟨position, ?_⟩
  rw [StateT.run_bind, failed]
  rfl

end Parse

namespace Wrapping
open Parse

def Confirms (w : Wrapping) (size : Nat) (low wrapped : Except ParseError (β × Cursor)) (b : β)
    (later : Cursor) : Prop :=
  (low = .ok (b, later) ∧ ∃ later', wrapped = .ok (b, later') ∧ w.Relates size later later') ∨
    TooDeep low ∧ TooDeep wrapped

/-- What the first step comes to, with levels enough, the other two confirm, the second at the same
    cursor and the third at a wrapped one. -/
def Mirrors (w : Wrapping) (C : Cursor → Prop) (size : Nat) (m low wrapped : Parse β) : Prop :=
  -- Without the first step the other two could differ: where there are no levels left for an
  -- argument, a call without its end is too deep, but not with a parenthesis behind the line.
  ∀ c c', C c → w.Relates size c c' → ∀ b later, m.run c = .ok (b, later) →
    w.Confirms size (low.run c) (wrapped.run c') b later

variable {w : Wrapping} {C : Cursor → Prop} {size : Nat}

theorem Confirms.mono {low wrapped : Except ParseError (β × Cursor)} {b : β} {later : Cursor}
    {fewer : Nat} (confirms : w.Confirms fewer low wrapped b later) (le : fewer ≤ size) :
    w.Confirms size low wrapped b later := by
  apply confirms.imp_left
  rintro ⟨here, later', there, relates⟩
  exact ⟨here, later', there, relates.mono le⟩

theorem mirrors_pure (b : β) : w.Mirrors C size (pure b) (pure b) (pure b) := by
  intro c c' _ relates b' later run
  obtain ⟨rfl, rfl⟩ := Prod.mk.inj (Except.ok.inj run)
  exact .inl ⟨rfl, c', rfl, relates⟩

theorem mirrors_bind {m low wrapped : Parse β} {f g h : β → Parse γ}
    (first : w.Mirrors C size m low wrapped)
    (rest : ∀ b, w.Mirrors Anywhere size (f b) (g b) (h b)) :
    w.Mirrors C size (m >>= f) (low >>= g) (wrapped >>= h) := by
  intro c c' here relates d later run
  rw [StateT.run_bind] at run
  cases taken : m.run c with
  | error e =>
    rw [taken] at run
    contradiction
  | ok result =>
    rw [taken] at run
    rcases first c c' here relates result.1 result.2 taken with
      ⟨low', middle', wrapped', between⟩ | ⟨low', wrapped'⟩
    · rw [run_bind_of_ok low', run_bind_of_ok wrapped']
      exact rest result.1 result.2 middle' trivial between d later run
    · exact .inr ⟨tooDeep_bind low' g, tooDeep_bind wrapped' h⟩

theorem mirrors_fails {m low wrapped : Parse β} (fails : ∀ c, C c → ∃ e, m.run c = .error e) :
    w.Mirrors C size m low wrapped := by
  intro c c' here _ b later run
  obtain ⟨e, failed⟩ := fails c here
  rw [failed] at run
  contradiction

theorem mirrors_failAt {low wrapped : Parse β} (token : Token) (fault : SyntaxFault) :
    w.Mirrors C size (failAt token fault) low wrapped := mirrors_fails fun _ _ => ⟨_, rfl⟩

theorem mirrors_failExpected {low wrapped : Parse β} (what : Wanted) :
    w.Mirrors C size (failExpected what) low wrapped := mirrors_fails fun _ _ => ⟨_, rfl⟩

theorem mirrors_failUnexpected {low wrapped : Parse β} :
    w.Mirrors C size failUnexpected low wrapped := mirrors_fails fun _ _ => ⟨_, rfl⟩

theorem mirrors_imp {D : Cursor → Prop} {m low wrapped : Parse β}
    (mirrors : w.Mirrors D size m low wrapped) (here : ∀ c, C c → D c) :
    w.Mirrors C size m low wrapped :=
  fun c c' holds relates b later run => mirrors c c' (here c holds) relates b later run

theorem mirrors_current {f g h : Token → Parse γ}
    (rest : ∀ t t', w.Moves t t' →
      w.Mirrors (fun c => C c ∧ c.current = t) size (f t) (g t) (h t')) :
    w.Mirrors C size (current >>= f) (current >>= g) (current >>= h) :=
  fun c c' here relates b later run =>
    rest _ _ relates.current c c' ⟨here, rfl⟩ relates b later run

theorem mirrors_following {f g h : Token → Parse γ}
    (rest : ∀ t t', w.Moves t t' →
      w.Mirrors (fun c => C c ∧ c.following = t) size (f t) (g t) (h t')) :
    w.Mirrors C size (following >>= f) (following >>= g) (following >>= h) :=
  fun c c' here relates b later run =>
    rest _ _ relates.following c c' ⟨here, rfl⟩ relates b later run

theorem mirrors_remaining {f g h : Nat → Parse γ}
    (rest : ∀ n n', n ≤ n' → w.Mirrors C n (f n) (g n) (h n')) :
    w.Mirrors C size (remaining >>= f) (remaining >>= g) (remaining >>= h) := by
  intro c c' here relates b later run
  have more : c.rest.length ≤ c'.rest.length := by simp [relates.tokens]
  have exactly : w.Relates c.rest.length c c' := ⟨relates.tokens, relates.inside, Nat.le_refl _⟩
  exact (rest _ _ more c c' here exactly b later run).mono relates.few

/-- A closing parenthesis may be looked for only where the end of the line would be an error. -/
theorem mirrors_isAt {kind : TokenKind} {f g h : Bool → Parse γ} (inside : kind ≠ .eof)
    (ended : kind = .closeParen → ∀ c, C c → c.rest = [] → ∃ e, (f false).run c = .error e)
    (there : w.Mirrors (fun c => C c ∧ c.current.kind = kind) size (f true) (g true) (h true))
    (elsewhere : w.Mirrors C size (f false) (g false) (h false)) :
    w.Mirrors C size (isAt kind >>= f) (isAt kind >>= g) (isAt kind >>= h) := by
  intro c c' here relates b later run
  rw [run_isAt] at run
  rw [run_isAt, run_isAt]
  have moves := relates.current
  by_cases kinds : c.current.kind = kind
  · have kinds' : c'.current.kind = kind := by
      generalize c.current = t, c'.current = t' at moves kinds
      cases moves with
      | along _ => exact kinds
      | ended ended _ => exact absurd (kinds.symm.trans ended) inside
    rw [decide_eq_true kinds] at run
    rw [decide_eq_true kinds, decide_eq_true kinds']
    exact there c c' ⟨here, kinds⟩ relates b later run
  · rw [decide_eq_false kinds] at run
    have kinds' : c'.current.kind ≠ kind := by
      intro kinds'
      have past := relates.ended
      generalize c.current = t, c'.current = t' at moves kinds kinds' past
      cases moves with
      | along _ => exact kinds kinds'
      | ended atEnd closes =>
        rcases closes with other | closing
        · exact inside (kinds'.symm.trans other)
        · obtain ⟨e, failed⟩ := ended (kinds'.symm.trans closing) c here (past atEnd)
          rw [failed] at run
          contradiction
    rw [decide_eq_false kinds, decide_eq_false kinds']
    exact elsewhere c c' here relates b later run

/-- Behind a token of the line there are fewer of them. -/
theorem mirrors_advance {m low wrapped : Parse γ} (inside : ∀ c, C c → c.current.kind ≠ .eof)
    (rest : ∀ fewer < size,
      w.Mirrors (fun later => ∃ c, C c ∧ c.forward = later) fewer m low wrapped) :
    w.Mirrors C size (advance >>= fun _ => m) (advance >>= fun _ => low)
      (advance >>= fun _ => wrapped) := by
  intro c c' here relates b later run
  obtain ⟨positive, forward⟩ := relates.forward (inside c here)
  have after := rest (size - 1) (by omega) c.forward c'.forward ⟨c, here, rfl⟩ forward b later run
  exact after.mono (Nat.sub_le _ _)

theorem mirrors_pass {m low wrapped : Parse γ} (inside : ∀ c, C c → c.current.kind ≠ .eof)
    (rest : ∀ fewer < size, w.Mirrors Anywhere fewer m low wrapped) :
    w.Mirrors C size (advance >>= fun _ => m) (advance >>= fun _ => low)
      (advance >>= fun _ => wrapped) :=
  mirrors_advance inside fun fewer less => mirrors_imp (rest fewer less) fun _ _ => trivial

theorem mirrors_expect {kind : TokenKind} (inside : kind ≠ .eof) (what : Wanted)
    {f g h : Token → Parse γ}
    (rest : ∀ t : Token, t.kind = kind → ∀ fewer < size,
      w.Mirrors Anywhere fewer (f t) (g t) (h (t.shift w.offset))) :
    w.Mirrors C size (expect kind what >>= f) (expect kind what >>= g)
      (expect kind what >>= h) := by
  intro c c' here relates b later run
  by_cases same : c.current.kind = kind
  · have moves := relates.current
    obtain ⟨positive, forward⟩ := relates.forward (same ▸ inside)
    have same' : c'.current = c.current.shift w.offset := by
      generalize c.current = t, c'.current = t' at moves same
      cases moves with
      | along _ => rfl
      | ended ended _ => exact absurd (same.symm.trans ended) inside
    rw [run_expect_current same] at run
    have here' : c'.current.kind = kind := by rw [same', Token.shift_kind, same]
    rw [run_expect_current same, run_expect_current here', same']
    have after := rest _ same (size - 1) (by omega) _ _ trivial forward b later run
    exact after.mono (Nat.sub_le _ _)
  · rw [StateT.run_bind, expect, run_current, if_neg same] at run
    contradiction

theorem mirrors_commaSeparatedFuel {item low : Parse β}
    (each : ∀ size, w.Mirrors Anywhere size item low low) {fuel fuel' : Nat} (enough : size < fuel)
    (enough' : size < fuel') : w.Mirrors Anywhere size (commaSeparatedFuel item fuel)
      (commaSeparatedFuel low fuel) (commaSeparatedFuel low fuel') := by
  induction fuel generalizing size fuel' with
  | zero => contradiction
  | succ fuel ih =>
    obtain ⟨fuel', rfl⟩ := Nat.exists_eq_add_of_le' (show 1 ≤ fuel' by omega)
    apply mirrors_bind (each size)
    intro first
    refine mirrors_isAt (by simp) (by simp) ?_ (mirrors_pure _)
    apply mirrors_pass fun c holds => by simp [holds.2]
    intro fewer less
    exact mirrors_bind (ih (by omega) (by omega)) fun rest => mirrors_pure _

theorem mirrors_commaSeparated {item low : Parse β}
    (each : ∀ size, w.Mirrors Anywhere size item low low) :
    w.Mirrors Anywhere size (commaSeparated item) (commaSeparated low) (commaSeparated low) :=
  mirrors_remaining fun _ _ more =>
    mirrors_commaSeparatedFuel each (Nat.lt_succ_self _) (Nat.lt_succ_of_le more)

end Wrapping

namespace Grammar
open Calendar Parse Wrapping
variable {w : Wrapping} {C : Cursor → Prop} {size : Nat} {t t' : Token}

/-! What the rules ask of tokens. -/

theorem same_of_moves {δ : Type} (moves : w.Moves t t') (f : TokenKind → δ)
    (same : f .closeParen = f .eof) : f t'.kind = f t.kind := by
  cases moves with
  | along _ => rfl
  | ended ended closes =>
    rcases closes with stop | close
    · rw [ended, stop]
    · rw [ended, close, same]

theorem kind_of_moves (moves : w.Moves t t') (kind : TokenKind) (inside : kind ≠ .eof)
    (other : kind ≠ .closeParen) : t'.kind = kind ↔ t.kind = kind := by
  have same := same_of_moves moves (fun k => k = kind) (by simp [inside.symm, other.symm])
  exact same ▸ Iff.rfl

theorem isUnitName_of_moves (moves : w.Moves t t') : isUnitName t' = isUnitName t :=
  same_of_moves moves (fun kind => isUnitName ⟨kind, "", 0⟩) rfl

theorem startsOperand_of_moves (moves : w.Moves t t') : t'.startsOperand = t.startsOperand :=
  same_of_moves moves (fun kind => Token.startsOperand ⟨kind, "", 0⟩) rfl

theorem namesUnit_of_moves {next next' : Token} (moves : w.Moves t t')
    (behind : w.Moves next next') : namesUnit t' next' = namesUnit t next := by
  have opens := kind_of_moves behind .openParen (by simp) (by simp)
  cases moves with
  | along _ => simp [namesUnit, opens]
  | ended ended closes => rcases closes with same | same <;> simp [namesUnit, ended, same]

theorem suffix?_of_moves {next next' : Token} (moves : w.Moves t t')
    (behind : w.Moves next next') : suffix? t' next' = suffix? t next := by
  have operand := startsOperand_of_moves behind
  have same := same_of_moves moves (fun kind => suffix? ⟨kind, "", 0⟩ next) rfl
  simp only [suffix?] at same
  simp only [suffix?, operand, same]

theorem joins_of_moves {first denominator denominator' : Token} (moves : w.Moves t t')
    (behind : w.Moves denominator denominator') :
    ((denominator'.kind = .identifier || denominator'.kind = .unit) &&
      joins (first.shift w.offset) t' denominator') =
    ((denominator.kind = .identifier || denominator.kind = .unit) &&
      joins first t denominator) := by
  cases behind with
  | ended ended closes => rcases closes with same | same <;> simp [ended, same]
  | along _ =>
    cases moves with
    | along _ =>
      have near (s d : Token) :
          ((s.shift w.offset).position = (first.shift w.offset).stop &&
            (d.shift w.offset).position = (s.shift w.offset).stop : Bool) =
          (s.position = first.stop && d.position = s.stop : Bool) := by
        simp only [Token.shift, Token.stop]
        congr 1 <;> exact decide_eq_decide.2 (by omega)
      simp only [Token.shift_kind, joins, near]
      rfl
    | ended ended closes => rcases closes with same | same <;> simp [joins, ended, same]

/-! Rules without levels. -/

theorem mirrors_unitName (first : Token) : w.Mirrors C size (unitName first) (unitName first)
    (unitName (first.shift w.offset)) := by
  refine mirrors_current fun t t' moves => mirrors_following fun next next' behind => ?_
  simp only [joins_of_moves moves behind]
  split
  · rename_i joined
    simp only [Bool.and_eq_true, Bool.or_eq_true, decide_eq_true_eq] at joined
    have unit : next.kind ≠ .eof := by
      intro ended
      simp [ended] at joined
    have separator : t.kind ≠ .eof := by
      intro ended
      simp [joins, ended] at joined
    have same : next' = next.shift w.offset := by
      cases behind with
      | along _ => rfl
      | ended ended _ => exact absurd ended unit
    refine mirrors_advance (fun c holds => holds.1.2 ▸ separator) fun fewer _ => ?_
    refine mirrors_pass ?_ fun fewer _ => ?_
    · rintro _ ⟨c, holds, rfl⟩
      have ahead : c.forward.current = next := holds.2
      rw [ahead]
      exact unit
    · rw [same]
      exact mirrors_pure _
  · exact mirrors_pure _

theorem mirrors_conversionTarget :
    w.Mirrors C size conversionTarget conversionTarget conversionTarget := by
  refine mirrors_current fun t t' moves => ?_
  have symbol := kind_of_moves moves .currencySymbol (by simp) (by simp)
  simp only [symbol, isUnitName_of_moves moves]
  cases moves with
  | ended ended _ =>
    simp only [ended, isUnitName, reduceCtorEq, if_false, Bool.false_eq_true]
    exact mirrors_failExpected _
  | along inside =>
    have inside : ∀ c : Cursor, C c ∧ c.current = t → c.current.kind ≠ .eof :=
      fun c holds => holds.2 ▸ inside
    split
    · exact mirrors_pass inside fun _ _ => mirrors_pure _
    · split
      · exact mirrors_pass inside fun _ _ => mirrors_unitName t
      · exact mirrors_failExpected _

theorem mirrors_numberValue {γ : Type} {f g h : Float → Parse γ} (t : Token)
    (rest : ∀ value, w.Mirrors C size (f value) (g value) (h value)) :
    w.Mirrors C size (numberValue t >>= f) (numberValue t >>= g)
      (numberValue (t.shift w.offset) >>= h) := by
  unfold numberValue
  rw [Token.shift_text]
  cases float? t.text with
  | some value => exact rest value
  | none => exact mirrors_fails fun _ _ => ⟨_, rfl⟩

theorem mirrors_timeValue {γ : Type} {f g h : ClockTime → Parse γ} (t : Token)
    (rest : ∀ clock, w.Mirrors C size (f clock) (g clock) (h clock)) :
    w.Mirrors C size (timeValue t >>= f) (timeValue t >>= g)
      (timeValue (t.shift w.offset) >>= h) := by
  unfold timeValue
  rw [Token.shift_text]
  cases readClockTime? t.text with
  | some clock => exact rest clock
  | none => exact mirrors_fails fun _ _ => ⟨_, rfl⟩

section
variable (inside : ∀ c, C c → c.current.kind ≠ .eof)
include inside

theorem mirrors_count : w.Mirrors C size count count count := by
  refine mirrors_current fun t t' moves => ?_
  cases moves with
  | ended ended _ =>
    apply mirrors_fails
    intro c holds
    exact absurd (holds.2 ▸ ended) (inside c holds.1)
  | along _ =>
    rw [Token.shift_text]
    cases (natural? wordLimit t.text.toList).filter (0 < ·) with
    | some n => exact mirrors_pass (fun c holds => inside c holds.1) fun _ _ => mirrors_pure n
    | none => exact mirrors_failAt _ _

theorem mirrors_numberTerm (t : Token) :
    w.Mirrors C size (numberTerm t) (numberTerm t) (numberTerm (t.shift w.offset)) := by
  refine mirrors_numberValue t fun value => mirrors_pass inside fun _ _ => ?_
  refine mirrors_current fun next next' moves => ?_
  have symbol := kind_of_moves moves .currencySymbol (by simp) (by simp)
  simp only [symbol]
  split
  · rename_i currency
    cases moves with
    | ended ended _ => simp [ended] at currency
    | along inside =>
      exact mirrors_pass (fun c holds => holds.2 ▸ inside) fun _ _ => mirrors_pure _
  · refine mirrors_following fun after after' behind => ?_
    simp only [namesUnit_of_moves moves behind]
    split
    · rename_i named
      cases moves with
      | ended ended _ => simp [namesUnit, ended] at named
      | along inside =>
        refine mirrors_pass (fun c holds => holds.1.2 ▸ inside) fun _ _ => ?_
        exact mirrors_bind (mirrors_unitName next) fun _ => mirrors_pure _
    · exact mirrors_pure _

theorem mirrors_symbolTerm (t : Token) :
    w.Mirrors C size (symbolTerm t) (symbolTerm t) (symbolTerm (t.shift w.offset)) := by
  refine mirrors_pass inside fun _ _ => mirrors_expect (by simp) _ fun amount _ _ _ => ?_
  exact mirrors_numberValue amount fun _ => mirrors_pure _

theorem mirrors_dateTerm (t : Token) :
    w.Mirrors C size (dateTerm t) (dateTerm t) (dateTerm (t.shift w.offset)) := by
  unfold dateTerm
  rw [Token.shift_text]
  cases readDay? t.text with
  | none => exact mirrors_failAt _ _
  | some day =>
    refine mirrors_pass inside fun _ _ => mirrors_current fun next next' moves => ?_
    have time := kind_of_moves moves .time (by simp) (by simp)
    simp only [time]
    split
    · rename_i timed
      cases moves with
      | ended ended _ => simp [ended] at timed
      | along inside =>
        refine mirrors_timeValue next fun clock => ?_
        exact mirrors_pass (fun c holds => holds.2 ▸ inside) fun _ _ => mirrors_pure _
    · exact mirrors_pure _

theorem mirrors_timeTerm (t : Token) :
    w.Mirrors C size (timeTerm t) (timeTerm t) (timeTerm (t.shift w.offset)) :=
  mirrors_timeValue t fun _ => mirrors_pass inside fun _ _ => mirrors_pure _

theorem mirrors_dayWord (spec : DateSpec) :
    w.Mirrors C size (dayWord spec) (dayWord spec) (dayWord spec) :=
  mirrors_pass inside fun _ _ => mirrors_pure _

theorem mirrors_neighbourTerm (op : BinaryOp) (t : Token) : w.Mirrors C size (neighbourTerm op t)
    (neighbourTerm op t) (neighbourTerm op (t.shift w.offset)) := by
  refine mirrors_pass inside fun _ _ => mirrors_current fun unit unit' moves => ?_
  simp only [isUnitName_of_moves moves]
  split
  · rename_i named
    cases moves with
    | ended ended _ => simp [isUnitName, ended] at named
    | along inside =>
      exact mirrors_pass (fun c holds => holds.2 ▸ inside) fun _ _ => mirrors_pure _
  · exact mirrors_failExpected _

end

theorem mirrors_reference : w.Mirrors C size reference reference reference := by
  have counted {make : Nat → Reference} {size : Nat} :
      w.Mirrors (fun c => Anywhere c ∧ c.current.kind = .number) size
        (do return make (← count)) (do return make (← count)) (do return make (← count)) :=
    mirrors_bind (mirrors_count fun c holds => by simp [holds.2]) fun _ => mirrors_pure _
  refine mirrors_current fun t t' moves => ?_
  cases moves with
  | ended ended closes =>
    rcases closes with same | same
    · simp only [ended, same]
      exact mirrors_pure _
    · simp only [ended, same]
      exact mirrors_pure _
  | along inside =>
    have inside : ∀ c : Cursor, C c ∧ c.current = t → c.current.kind ≠ .eof :=
      fun c holds => holds.2 ▸ inside
    rw [Token.shift_kind]
    split
    · refine mirrors_pass inside fun _ _ => ?_
      exact mirrors_isAt (by simp) (by simp) counted (mirrors_pure _)
    · refine mirrors_pass inside fun _ _ => ?_
      exact mirrors_isAt (by simp) (by simp) counted (mirrors_failExpected _)
    · exact mirrors_pure _

/-! Loops. -/

def Closed (c : Cursor) : Prop := c.current.kind = .eof ∨ c.current.kind = .closeParen

theorem Closed.follows {c : Cursor} (closed : Closed c) : Follows 0 c := by
  rcases closed with ended | closes
  · simp [Follows, ended]
  · simp [Follows, closes]

/-- Where no tokens are left, a loop is left too, whatever fuel it has. -/
theorem mirrors_stops {m low wrapped : Parse β} {b : β}
    (stays : ∀ c, Closed c → m.run c = .ok (b, c))
    (stays' : ∀ c, Closed c → low.run c = .ok (b, c))
    (stays'' : ∀ c, Closed c → wrapped.run c = .ok (b, c)) : w.Mirrors C 0 m low wrapped := by
  intro c c' _ relates b' later run
  have ended : c.current.kind = .eof := by
    have nothing := List.eq_nil_of_length_eq_zero (Nat.le_zero.1 relates.few)
    simp [Cursor.current, nothing, Token.eof]
  have closed : Closed c' := by
    unfold Closed
    have moves := relates.current
    generalize c.current = t, c'.current = t' at moves ended
    cases moves with
    | along inside => exact absurd ended inside
    | ended _ closes => exact closes
  rw [stays c (.inl ended)] at run
  obtain ⟨rfl, rfl⟩ := Prod.mk.inj (Except.ok.inj run)
  exact .inl ⟨stays' c (.inl ended), c', stays'' c' closed, relates⟩

/-- Each round takes a token, so there are no more rounds than tokens, whatever fuel is left. -/
theorem mirrors_loop {loop low : Nat → β → Parse β}
    (stays : ∀ fuel b c, Closed c → (loop fuel b).run c = .ok (b, c))
    (stays' : ∀ fuel b c, Closed c → (low fuel b).run c = .ok (b, c))
    (round : ∀ size fuel fuel' b,
      (∀ fewer < size, ∀ b', w.Mirrors Anywhere fewer (loop fuel b') (low fuel b') (low fuel' b')) →
      w.Mirrors Anywhere size (loop (fuel + 1) b) (low (fuel + 1) b) (low (fuel' + 1) b))
    {fuel fuel' : Nat} (enough : size ≤ fuel) (enough' : size ≤ fuel') (b : β) :
    w.Mirrors Anywhere size (loop fuel b) (low fuel b) (low fuel' b) := by
  induction fuel generalizing size fuel' b with
  | zero =>
    obtain rfl := Nat.le_zero.1 enough
    exact mirrors_stops (stays 0 b) (stays' 0 b) (stays' fuel' b)
  | succ fuel ih =>
    cases fuel' with
    | zero =>
      obtain rfl := Nat.le_zero.1 enough'
      exact mirrors_stops (stays (fuel + 1) b) (stays' (fuel + 1) b) (stays' 0 b)
    | succ fuel' =>
      apply round
      intro fewer less b'
      exact ih (by omega) (by omega) b'

theorem mirrors_conversionsFuel {fuel fuel' : Nat} (enough : size ≤ fuel) (enough' : size ≤ fuel')
    (e : Expr Float) : w.Mirrors Anywhere size (conversionsFuel fuel e) (conversionsFuel fuel e)
      (conversionsFuel fuel' e) := by
  have stays (fuel : Nat) (e : Expr Float) (c : Cursor) (closed : Closed c) :
      (conversionsFuel fuel e).run c = .ok (e, c) := conversionsFuel_stops closed.follows fuel e
  apply mirrors_loop stays stays ?_ enough enough'
  intro size fuel fuel' e ih
  refine mirrors_isAt (by simp) (by simp) ?_ (mirrors_pure e)
  refine mirrors_pass (fun c holds => by simp [holds.2]) fun fewer less => ?_
  exact mirrors_bind mirrors_conversionTarget fun target => ih fewer less _

theorem mirrors_chainFuel {op? : TokenKind → Option BinaryOp} (ends : op? .eof = none)
    (closes : op? .closeParen = none) {operand low : Parse (Expr Float)}
    (each : ∀ size, w.Mirrors Anywhere size operand low low) {fuel fuel' : Nat}
    (enough : size ≤ fuel) (enough' : size ≤ fuel') (left : Expr Float) :
    w.Mirrors Anywhere size (chainFuel op? operand fuel left) (chainFuel op? low fuel left)
      (chainFuel op? low fuel' left) := by
  have stays (item : Parse (Expr Float)) (fuel : Nat) (left : Expr Float) (c : Cursor)
      (closed : Closed c) : (chainFuel op? item fuel left).run c = .ok (left, c) := by
    apply chainFuel_stops
    rcases closed with stop | close
    · rw [stop, ends]
    · rw [close, closes]
  apply mirrors_loop (stays operand) (stays low) ?_ enough enough'
  intro size fuel fuel' left ih
  refine mirrors_current fun t t' moves => ?_
  simp only [same_of_moves moves op? (closes.trans ends.symm)]
  cases found : op? t.kind with
  | none => exact mirrors_pure left
  | some op =>
    have inside : ∀ c : Cursor, Anywhere c ∧ c.current = t → c.current.kind ≠ .eof := by
      intro c holds ended
      rw [← holds.2, ended, ends] at found
      contradiction
    refine mirrors_pass inside fun fewer less => ?_
    exact mirrors_bind (each fewer) fun right => ih fewer less _

theorem mirrors_chain {op? : TokenKind → Option BinaryOp} (ends : op? .eof = none)
    (closes : op? .closeParen = none) {operand low : Parse (Expr Float)}
    (each : ∀ size, w.Mirrors Anywhere size operand low low) :
    w.Mirrors Anywhere size (chain op? operand) (chain op? low) (chain op? low) :=
  mirrors_bind (each size) fun first => mirrors_remaining fun _ _ more =>
    mirrors_chainFuel ends closes each (Nat.le_refl _) more first

/-! Rules with levels. -/

section
variable {levels lower : Nat}
variable (below : ∀ size rule, w.Mirrors Anywhere size (withLevels levels rule)
  (withLevels lower rule) (withLevels lower rule))
include below

theorem mirrors_additive : w.Mirrors Anywhere size (additive (withLevels levels))
    (additive (withLevels lower)) (additive (withLevels lower)) :=
  mirrors_chain rfl rfl fun _ => mirrors_chain rfl rfl fun size => below size .polarity

omit below in
theorem arguments_fail {c : Cursor} (ended : c.rest = []) (levels : Nat) :
    ∃ e, (do
      let arguments ← commaSeparated (withLevels levels .expression)
      let _ ← expect .closeParen .closing
      return arguments : Parse (List (Expr Float))).run c = .error e := by
  have takes : Affords Anywhere 0 (fun _ => 1) (do
      let arguments ← commaSeparated (withLevels levels .expression)
      let _ ← expect .closeParen .closing
      return arguments : Parse (List (Expr Float))) := by
    refine affords_bind (affords_commaSeparated (affords_withLevels levels .expression)) ?_
    intro arguments
    exact affords_bind (affords_expect (by simp) _) fun _ => affords_pure (Nat.le_add_left 1 _)
  have token := takes c trivial
  rw [ended] at token
  generalize StateT.run _ c = answer at token
  cases answer with
  | error e => exact ⟨e, rfl⟩
  | ok result => exact absurd (token result.1 result.2 rfl) (by simp)

theorem mirrors_callArguments : w.Mirrors Anywhere size (callArguments (withLevels levels))
    (callArguments (withLevels lower)) (callArguments (withLevels lower)) := by
  refine mirrors_expect (by simp) _ fun _ _ fewer _ => ?_
  have closing {C : Cursor → Prop} {size : Nat} (arguments : List (Expr Float)) :
      w.Mirrors C size (do let _ ← expect .closeParen .closing; return arguments)
        (do let _ ← expect .closeParen .closing; return arguments)
        (do let _ ← expect .closeParen .closing; return arguments) :=
    mirrors_expect (by simp) _ fun _ _ _ _ => mirrors_pure arguments
  refine mirrors_isAt (by simp) ?_ (closing []) ?_
  · intro _ c _ ended
    exact arguments_fail ended levels
  · exact mirrors_bind (mirrors_commaSeparated fun size => below size .expression) closing

theorem mirrors_parenthesized (inside : ∀ c, C c → c.current.kind ≠ .eof) :
    w.Mirrors C size (parenthesized (withLevels levels)) (parenthesized (withLevels lower))
      (parenthesized (withLevels lower)) := by
  refine mirrors_pass inside fun _ _ => mirrors_bind (below _ _) fun e => ?_
  exact mirrors_expect (by simp) _ fun _ _ _ _ => mirrors_pure e

theorem mirrors_nameTerm (inside : ∀ c, C c → c.current.kind ≠ .eof) (t : Token) :
    w.Mirrors C size (nameTerm (withLevels levels) t) (nameTerm (withLevels lower) t)
      (nameTerm (withLevels lower) (t.shift w.offset)) := by
  refine mirrors_pass inside fun _ _ => ?_
  rw [Token.shift_text]
  split
  · exact mirrors_bind mirrors_reference fun _ => mirrors_pure _
  · refine mirrors_isAt (by simp) (by simp) ?_ (mirrors_pure _)
    refine mirrors_imp (mirrors_bind (mirrors_callArguments below) ?_) fun _ _ => trivial
    exact fun _ => mirrors_pure _

theorem mirrors_aggregate (inside : ∀ c, C c → c.current.kind ≠ .eof) (t : Token) :
    w.Mirrors C size (aggregate (withLevels levels) t) (aggregate (withLevels lower) t)
      (aggregate (withLevels lower) (t.shift w.offset)) := by
  refine mirrors_pass inside fun _ _ => ?_
  rw [Token.shift_text]
  refine mirrors_isAt (by simp) (by simp) ?_ ?_
  · refine mirrors_imp (mirrors_bind (mirrors_callArguments below) ?_) fun _ _ => trivial
    exact fun _ => mirrors_pure _
  · refine mirrors_isAt (by simp) (by simp) ?_ (mirrors_failExpected _)
    refine mirrors_pass (fun c holds => by simp [holds.2]) fun _ _ => ?_
    refine mirrors_bind (mirrors_commaSeparated fun _ => mirrors_additive below) ?_
    exact fun _ => mirrors_pure _

theorem mirrors_halfTerm (inside : ∀ c, C c → c.current.kind ≠ .eof) :
    w.Mirrors C size (halfTerm (withLevels levels)) (halfTerm (withLevels lower))
      (halfTerm (withLevels lower)) := by
  refine mirrors_pass inside fun _ _ => mirrors_expect (by simp) _ fun _ _ _ _ => ?_
  exact mirrors_bind (below _ _) fun _ => mirrors_pure _

theorem mirrors_twiceTerm (inside : ∀ c, C c → c.current.kind ≠ .eof) :
    w.Mirrors C size (twiceTerm (withLevels levels)) (twiceTerm (withLevels lower))
      (twiceTerm (withLevels lower)) :=
  mirrors_pass inside fun _ _ => mirrors_bind (below _ _) fun _ => mirrors_pure _

theorem mirrors_threeQuartersTerm (inside : ∀ c, C c → c.current.kind ≠ .eof) :
    w.Mirrors C size (threeQuartersTerm (withLevels levels)) (threeQuartersTerm (withLevels lower))
      (threeQuartersTerm (withLevels lower)) := by
  refine mirrors_pass inside fun _ _ => mirrors_expect (by simp) _ fun _ _ _ _ => ?_
  refine mirrors_expect (by simp) _ fun _ _ _ _ => ?_
  exact mirrors_bind (below _ _) fun _ => mirrors_pure _

theorem mirrors_changeTerm (inside : ∀ c, C c → c.current.kind ≠ .eof) (op : BinaryOp) :
    w.Mirrors C size (changeTerm (withLevels levels) op) (changeTerm (withLevels lower) op)
      (changeTerm (withLevels lower) op) := by
  refine mirrors_pass inside fun _ _ => mirrors_bind (mirrors_additive below) fun base => ?_
  refine mirrors_expect (by simp) _ fun _ _ _ _ => ?_
  exact mirrors_bind (below _ _) fun _ => mirrors_pure _

theorem mirrors_keywordTerm (inside : ∀ c, C c → c.current.kind ≠ .eof) (t : Token)
    (keyword : Keyword) : w.Mirrors C size (keywordTerm (withLevels levels) t keyword)
      (keywordTerm (withLevels lower) t keyword)
      (keywordTerm (withLevels lower) (t.shift w.offset) keyword) := by
  unfold keywordTerm
  split
  · exact mirrors_dayWord inside _
  · exact mirrors_dayWord inside _
  · exact mirrors_dayWord inside _
  · exact mirrors_dayWord inside _
  · exact mirrors_aggregate below inside t
  · exact mirrors_aggregate below inside t
  · exact mirrors_aggregate below inside t
  · exact mirrors_aggregate below inside t
  · exact mirrors_halfTerm below inside
  · exact mirrors_twiceTerm below inside
  · exact mirrors_twiceTerm below inside
  · exact mirrors_threeQuartersTerm below inside
  · exact mirrors_changeTerm below inside _
  · exact mirrors_changeTerm below inside _
  · exact mirrors_neighbourTerm inside _ t
  · exact mirrors_neighbourTerm inside _ t
  · exact mirrors_failUnexpected

theorem mirrors_term : w.Mirrors Anywhere size (term (withLevels levels))
    (term (withLevels lower)) (term (withLevels lower)) := by
  refine mirrors_current fun t t' moves => ?_
  cases moves with
  | ended ended _ =>
    simp only [ended]
    exact mirrors_failUnexpected
  | along inside =>
    have inside : ∀ c : Cursor, Anywhere c ∧ c.current = t → c.current.kind ≠ .eof :=
      fun c holds => holds.2 ▸ inside
    rw [Token.shift_kind, Token.shift_text]
    split
    · exact mirrors_numberTerm inside t
    · exact mirrors_symbolTerm inside t
    · exact mirrors_dateTerm inside t
    · exact mirrors_timeTerm inside t
    · exact mirrors_pass inside fun _ _ => mirrors_pure _
    · exact mirrors_nameTerm below inside t
    · exact mirrors_parenthesized below inside
    · exact mirrors_keywordTerm below inside t _
    · exact mirrors_failUnexpected

theorem mirrors_applySuffix (e : Expr Float) (suffix : Suffix) : w.Mirrors Anywhere size
    (applySuffix (withLevels levels) e suffix) (applySuffix (withLevels lower) e suffix)
      (applySuffix (withLevels lower) e suffix) := by
  cases suffix with
  | percent =>
    refine mirrors_isAt (by simp) (by simp) ?_ (mirrors_pure _)
    refine mirrors_pass (fun c holds => by simp [holds.2]) fun _ _ => ?_
    exact mirrors_bind (below _ _) fun _ => mirrors_pure _
  | ago => exact mirrors_pure _
  | after => exact mirrors_bind (below _ _) fun _ => mirrors_pure _
  | before => exact mirrors_bind (below _ _) fun _ => mirrors_pure _

theorem mirrors_suffixesFuel {fuel fuel' : Nat} (enough : size ≤ fuel) (enough' : size ≤ fuel')
    (e : Expr Float) : w.Mirrors Anywhere size (suffixesFuel (withLevels levels) fuel e)
      (suffixesFuel (withLevels lower) fuel e) (suffixesFuel (withLevels lower) fuel' e) := by
  have stays (levels fuel : Nat) (e : Expr Float) (c : Cursor) (closed : Closed c) :
      (suffixesFuel (withLevels levels) fuel e).run c = .ok (e, c) :=
    suffixesFuel_stops (suffix?_none (follows_mono (Nat.zero_le 2) closed.follows)) fuel e
  apply mirrors_loop (stays levels) (stays lower) ?_ enough enough'
  intro size fuel fuel' e ih
  refine mirrors_current fun t t' moves => mirrors_following fun next next' behind => ?_
  simp only [suffix?_of_moves moves behind]
  cases found : suffix? t next with
  | none => exact mirrors_pure e
  | some suffix =>
    have inside : ∀ c : Cursor, (Anywhere c ∧ c.current = t) ∧ c.following = next →
        c.current.kind ≠ .eof := by
      intro c holds ended
      rw [← holds.1.2, suffix?, ended] at found
      contradiction
    refine mirrors_pass inside fun fewer less => ?_
    exact mirrors_bind (mirrors_applySuffix below e suffix) fun e' => ih fewer less _

theorem mirrors_operand : w.Mirrors Anywhere size (operand (withLevels levels))
    (operand (withLevels lower)) (operand (withLevels lower)) :=
  mirrors_bind (mirrors_term below) fun e => mirrors_remaining fun _ _ more =>
    mirrors_suffixesFuel below (Nat.le_refl _) more e

theorem mirrors_polarity : w.Mirrors Anywhere size (polarity (withLevels levels))
    (polarity (withLevels lower)) (polarity (withLevels lower)) := by
  refine mirrors_current fun t t' moves => ?_
  rw [same_of_moves moves sign? rfl]
  cases found : sign? t.kind with
  | none => exact mirrors_imp (mirrors_operand below) fun _ _ => trivial
  | some op =>
    have inside : ∀ c : Cursor, Anywhere c ∧ c.current = t → c.current.kind ≠ .eof := by
      intro c holds ended
      rw [← holds.2, ended] at found
      contradiction
    exact mirrors_pass inside fun _ _ => mirrors_bind (below _ _) fun _ => mirrors_pure _

theorem mirrors_expression : w.Mirrors Anywhere size (expression (withLevels levels))
    (expression (withLevels lower)) (expression (withLevels lower)) :=
  mirrors_bind (mirrors_additive below) fun e => mirrors_remaining fun _ _ more =>
    mirrors_conversionsFuel (Nat.le_refl _) more e

end

/-- What is read with more levels is read with fewer, by itself and wrapped, or it is too deep for
    them in both places. -/
theorem mirrors_withLevels {levels lower : Nat} (fewer : lower ≤ levels) (rule : Rule) :
    w.Mirrors Anywhere size (withLevels levels rule) (withLevels lower rule)
      (withLevels lower rule) := by
  induction levels generalizing lower size rule with
  | zero => exact mirrors_fails fun _ _ => ⟨_, rfl⟩
  | succ levels ih =>
    cases lower with
    | zero =>
      intro c c' _ _ b later _
      exact .inr ⟨⟨_, rfl⟩, _, rfl⟩
    | succ lower =>
      have below (size : Nat) (rule : Rule) : w.Mirrors Anywhere size (withLevels levels rule)
          (withLevels lower rule) (withLevels lower rule) := ih (Nat.le_of_succ_le_succ fewer) rule
      cases rule with
      | expression => exact mirrors_expression below
      | polarity => exact mirrors_polarity below

end Grammar

end NotepadCalculator
