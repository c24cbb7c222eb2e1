import Mathlib.Data.List.Forall2
import NotepadCalculator.Expr.Grammar
import NotepadCalculator.Expr.Printing
import NotepadCalculator.Proofs.Subexpressions

/-!
The grammar reads what has been written with the fewest parentheses. Each rule reads the writing of
an expression that is tight enough for it, whatever stands behind it that does not belong to the
expression. The loops of chains are left standing in these statements, since the left side of a
chain is read by the rule that goes on with the rest of the chain.
-/
namespace NotepadCalculator
open Number

variable {β γ : Type}

theorem BinaryOp.level_le (op : BinaryOp) : op.level ≤ 1 := by
  cases op <;> decide

theorem Expr.level_le (e : Expr Float) : e.level ≤ 4 := by
  cases e with
  | binary op left right => exact Nat.le_trans op.level_le (by decide)
  | unary op operand => rw [Expr.level]; cases op <;> decide
  | _ => exact Nat.le_refl 4

namespace Parse

theorem run_bind_of_ok {m : Parse β} {f : β → Parse γ} {c later : Cursor} {b : β}
    (run : m.run c = .ok (b, later)) : (m >>= f).run c = (f b).run later := by
  rw [StateT.run_bind, run]
  rfl

theorem run_current (f : Token → Parse β) (c : Cursor) :
    (current >>= f).run c = (f c.current).run c := rfl

theorem run_following (f : Token → Parse β) (c : Cursor) :
    (following >>= f).run c = (f c.following).run c := rfl

theorem run_advance (f : Unit → Parse β) (c : Cursor) :
    (advance >>= f).run c = (f ()).run c.forward := rfl

theorem run_remaining (f : Nat → Parse β) (c : Cursor) :
    (remaining >>= f).run c = (f c.rest.length).run c := rfl

theorem run_isAt (kind : TokenKind) (f : Bool → Parse β) (c : Cursor) :
    (isAt kind >>= f).run c = (f (decide (c.current.kind = kind))).run c := rfl

theorem run_expect_current {kind : TokenKind} {c : Cursor} (same : c.current.kind = kind)
    (what : Wanted) (f : Token → Parse β) :
    (expect kind what >>= f).run c = (f c.current).run c.forward := by
  refine run_bind_of_ok ?_
  rw [expect, run_current, if_pos same]
  rfl

theorem run_expect {kind : TokenKind} {t : Token} (same : t.kind = kind) (what : Wanted)
    (f : Token → Parse β) (rest : List Token) (stop : Nat) :
    (expect kind what >>= f).run ⟨t :: rest, stop⟩ = (f t).run ⟨rest, stop⟩ :=
  run_expect_current (c := ⟨t :: rest, stop⟩) same what f

end Parse

namespace Grammar
open Parse NotepadCalculator.Expr

/-- What stands behind a writing ends it at that level: tighter operators do not, and a percent
    sign ends all but terms, unless it takes a remainder. -/
def Follows (level : Nat) (c : Cursor) : Prop :=
  match c.current.kind with
  | .eof | .closeParen | .comma => True
  | .plus | .minus => 1 ≤ level
  | .multiply | .divide => 2 ≤ level
  | .percent => 4 ≤ level ∨ 2 ≤ level ∧ c.following.startsOperand = true
  | _ => False

theorem follows_mono {low high : Nat} (le : low ≤ high) {c : Cursor} (follows : Follows low c) :
    Follows high c := by
  unfold Follows at follows ⊢
  split at follows
  case h_8 =>
    exact follows.imp (Nat.le_trans · le) (And.imp_left (Nat.le_trans · le))
  all_goals first | trivial | omega

def closers : List TokenKind :=
  [.eof, .closeParen, .comma, .plus, .minus, .multiply, .divide, .percent]

theorem mem_closers {level : Nat} {c : Cursor} (follows : Follows level c) :
    c.current.kind ∈ closers := by
  unfold Follows at follows
  split at follows <;> simp_all [closers]

/-- The rule reads the writing as that value and stops behind it. -/
def Reads (m : Parse β) (marks : List Mark) (level : Nat) (b : β) : Prop :=
  ∀ tokens rest stop, List.Forall₂ Mark.ShownBy marks tokens → Follows level ⟨rest, stop⟩ →
    m.run ⟨tokens ++ rest, stop⟩ = .ok (b, ⟨rest, stop⟩)

/-- Behind the writing the rule is left with its loop, and fuel enough for all that follows. -/
def Reaches (m : Parse β) (loop : Nat → Parse β) (marks : List Mark) (level : Nat) : Prop :=
  ∀ tokens rest stop, List.Forall₂ Mark.ShownBy marks tokens → Follows level ⟨rest, stop⟩ →
    ∃ fuel, rest.length ≤ fuel ∧ m.run ⟨tokens ++ rest, stop⟩ = (loop fuel).run ⟨rest, stop⟩

theorem Reaches.more_fuel {m : Parse β} {loop : Nat → Parse β} {marks : List Mark} {level : Nat}
    (reaches : Reaches m loop marks level) (tokens : List Token) (t : Token) (rest : List Token)
    (stop : Nat) (shown : List.Forall₂ Mark.ShownBy marks tokens)
    (follows : Follows level ⟨t :: rest, stop⟩) :
    ∃ fuel, rest.length ≤ fuel ∧
      m.run ⟨tokens ++ t :: rest, stop⟩ = (loop (fuel + 1)).run ⟨t :: rest, stop⟩ := by
  obtain ⟨fuel, enough, run⟩ := reaches tokens (t :: rest) stop shown follows
  obtain ⟨fuel, rfl⟩ := Nat.exists_eq_add_of_le' (Nat.le_trans (Nat.succ_pos _) enough)
  exact ⟨fuel, Nat.le_of_succ_le_succ enough, run⟩

theorem shown_append {front back : List Mark} {tokens : List Token}
    (shown : List.Forall₂ Mark.ShownBy (front ++ back) tokens) :
    ∃ first last, tokens = first ++ last ∧ List.Forall₂ Mark.ShownBy front first ∧
      List.Forall₂ Mark.ShownBy back last := by
  induction front generalizing tokens with
  | nil => exact ⟨[], tokens, rfl, .nil, shown⟩
  | cons mark front ih =>
    cases shown with
    | cons here shown =>
      obtain ⟨first, last, rfl, before, behind⟩ := ih shown
      exact ⟨_ :: first, last, rfl, .cons here before, behind⟩

theorem shown_single {mark : Mark} {tokens : List Token}
    (shown : List.Forall₂ Mark.ShownBy [mark] tokens) :
    ∃ t, mark.ShownBy t ∧ tokens = [t] := by
  obtain ⟨t, _, first, nothing, rfl⟩ := List.forall₂_cons_left_iff.1 shown
  exact ⟨t, first, congrArg (t :: ·) (List.forall₂_nil_left_iff.1 nothing)⟩

/-- The rules for the levels, where a term may go so many levels deeper. -/
def Stage (depth : Nat) : Nat → List Mark → Expr Float → Prop
  | 0, marks, e =>
    Reaches (additive (withLevels (depth + 1)))
      (fun fuel => chainFuel additiveOp? (multiplicative (withLevels (depth + 1))) fuel e) marks 1
  | 1, marks, e =>
    Reaches (multiplicative (withLevels (depth + 1)))
      (fun fuel => chainFuel multiplicativeOp? (withLevels (depth + 1) .polarity) fuel e) marks 2
  | 2, marks, e => Reads (withLevels (depth + 1) .polarity) marks 2 e
  | 3, marks, e =>
    Reaches (operand (withLevels depth)) (fun fuel => suffixesFuel (withLevels depth) fuel e)
      marks 4
  | _, marks, e => Reads (term (withLevels depth)) marks 4 e

def openers : List TokenKind := [.number, .identifier, .openParen]

def starters : List TokenKind := .plus :: .minus :: openers

def Begins (kinds : List TokenKind) (marks : List Mark) : Prop :=
  ∃ mark rest, marks = mark :: rest ∧ mark.kind ∈ kinds

theorem startsOperand_of_opens {t : Token} (starts : t.kind ∈ openers) :
    t.startsOperand = true := by
  have each : ∀ kind ∈ openers, Token.startsOperand ⟨kind, t.text, t.position⟩ = true := by
    simp [openers, Token.startsOperand]
  exact each _ starts

theorem startsOperand_of_closers {t : Token} (closes : t.kind ∈ closers) :
    t.startsOperand = false := by
  have each : ∀ kind ∈ closers, Token.startsOperand ⟨kind, t.text, t.position⟩ = false := by
    simp [closers, Token.startsOperand]
  exact each _ closes

variable {depth : Nat} {marks : List Mark} {e : Expr Float}

/-! From one level to the next. -/

theorem chainFuel_stops {op? : TokenKind → Option BinaryOp} {operand : Parse (Expr Float)}
    {c : Cursor} (stops : op? c.current.kind = none) (fuel : Nat) (e : Expr Float) :
    (chainFuel op? operand fuel e).run c = .ok (e, c) := by
  cases fuel with
  | zero => rfl
  | succ fuel =>
    rw [chainFuel, run_current]
    simp only [stops]
    rfl

theorem suffixesFuel_stops {deeper : Deeper} {c : Cursor}
    (stops : suffix? c.current c.following = none) (fuel : Nat) (e : Expr Float) :
    (suffixesFuel deeper fuel e).run c = .ok (e, c) := by
  cases fuel with
  | zero => rfl
  | succ fuel =>
    rw [suffixesFuel, run_current, run_following]
    simp only [stops]
    rfl

theorem reads_of_reaches {m : Parse (Expr Float)} {loop : Nat → Parse (Expr Float)}
    {low high : Nat} (le : low ≤ high) (reaches : Reaches m loop marks high)
    (stops : ∀ c, Follows low c → ∀ fuel, (loop fuel).run c = .ok (e, c)) :
    Reads m marks low e := by
  intro tokens rest stop shown follows
  obtain ⟨fuel, _, run⟩ := reaches tokens rest stop shown (follows_mono le follows)
  rw [run, stops _ follows]

theorem additiveOp?_none {c : Cursor} (follows : Follows 0 c) :
    additiveOp? c.current.kind = none := by
  unfold Follows at follows
  split at follows <;> simp_all [additiveOp?]

theorem multiplicativeOp?_none {c : Cursor} (follows : Follows 1 c) :
    multiplicativeOp? c.current.kind = none := by
  unfold Follows at follows
  split at follows <;> simp_all [multiplicativeOp?]

theorem suffix?_none {c : Cursor} (follows : Follows 2 c) :
    suffix? c.current c.following = none := by
  unfold Follows at follows
  split at follows <;> simp_all [suffix?]

theorem reads_additive (stage : Stage depth 0 marks e) :
    Reads (additive (withLevels (depth + 1))) marks 0 e :=
  reads_of_reaches (Nat.zero_le 1) stage fun _ follows fuel =>
    chainFuel_stops (additiveOp?_none follows) fuel e

theorem reads_multiplicative (stage : Stage depth 1 marks e) :
    Reads (multiplicative (withLevels (depth + 1))) marks 1 e :=
  reads_of_reaches (by decide) stage fun _ follows fuel =>
    chainFuel_stops (multiplicativeOp?_none follows) fuel e

theorem reads_operand (stage : Stage depth 3 marks e) :
    Reads (operand (withLevels depth)) marks 2 e :=
  reads_of_reaches (by decide) stage fun _ follows fuel =>
    suffixesFuel_stops (suffix?_none follows) fuel e

theorem stage_suffix (stage : Stage depth 4 marks e) : Stage depth 3 marks e := by
  intro tokens rest stop shown follows
  refine ⟨rest.length, Nat.le_refl _, ?_⟩
  rw [operand, run_bind_of_ok (stage tokens rest stop shown follows), run_remaining]

theorem stage_polarity (stage : Stage depth 3 marks e) (opens : Begins openers marks) :
    Stage depth 2 marks e := by
  intro tokens rest stop shown follows
  have run := reads_operand stage tokens rest stop shown follows
  obtain ⟨mark, others, rfl, starts⟩ := opens
  obtain ⟨t, ts, first, _, rfl⟩ := List.forall₂_cons_left_iff.1 shown
  have unsigned : sign? t.kind = none := by
    have each : ∀ kind ∈ openers, sign? kind = none := by decide
    rw [first.kind]
    exact each _ starts
  rw [withLevels, polarity, run_current]
  simp only [Cursor.current, List.cons_append, List.headD_cons, unsigned]
  exact run

theorem stage_product (stage : Stage depth 2 marks e) : Stage depth 1 marks e := by
  intro tokens rest stop shown follows
  refine ⟨rest.length, Nat.le_refl _, ?_⟩
  rw [multiplicative, chain, run_bind_of_ok (stage tokens rest stop shown follows), run_remaining]

theorem stage_sum (stage : Stage depth 1 marks e) : Stage depth 0 marks e := by
  intro tokens rest stop shown follows
  refine ⟨rest.length, Nat.le_refl _, ?_⟩
  rw [additive, chain, run_bind_of_ok (reads_multiplicative stage tokens rest stop shown follows),
    run_remaining]

/-- A level is read by the rules for all looser ones. -/
theorem stage_of_le {low high : Nat} (le : low ≤ high) (most : high ≤ 4)
    (stage : Stage depth high marks e) (opens : 3 ≤ high → Begins openers marks) :
    Stage depth low marks e := by
  obtain ⟨gap, rfl⟩ := Nat.exists_eq_add_of_le le
  clear le
  induction gap generalizing low with
  | zero => exact stage
  | succ gap ih =>
    rw [Nat.add_succ, ← Nat.succ_add] at stage most opens
    have tighter : Stage depth (low + 1) marks e := ih most stage opens
    match low with
    | 0 => exact stage_sum tighter
    | 1 => exact stage_product tighter
    | 2 => exact stage_polarity tighter (opens (by omega))
    | 3 => exact stage_suffix tighter
    | low + 4 => omega

theorem conversionsFuel_stops {c : Cursor} (follows : Follows 0 c) (fuel : Nat)
    (e : Expr Float) : (conversionsFuel fuel e).run c = .ok (e, c) := by
  cases fuel with
  | zero => rfl
  | succ fuel =>
    have elsewhere : ∀ kind ∈ closers, kind ≠ .keyword .in := by decide
    have stops := elsewhere _ (mem_closers follows)
    rw [conversionsFuel, run_isAt]
    simp only [stops, decide_false]
    rfl

theorem reads_expression (stage : Stage depth 0 marks e) :
    Reads (withLevels (depth + 2) .expression) marks 0 e := by
  intro tokens rest stop shown follows
  rw [withLevels, expression, run_bind_of_ok (reads_additive stage tokens rest stop shown follows),
    run_remaining]
  exact conversionsFuel_stops follows _ e

theorem begins_parenthesized {kinds : List TokenKind} (member : .openParen ∈ kinds)
    (marks : List Mark) :
    Begins kinds (.symbol .openParen :: (marks ++ [.symbol .closeParen])) :=
  ⟨_, _, rfl, member⟩

theorem stage_parenthesized (stage : Stage depth 0 marks e) :
    Stage (depth + 2) 4 (.symbol .openParen :: (marks ++ [.symbol .closeParen])) e := by
  intro tokens rest stop shown follows
  obtain ⟨first, _, opening, behind, rfl⟩ := List.forall₂_cons_left_iff.1 shown
  obtain ⟨inner, _, rfl, within, ending⟩ := shown_append behind
  obtain ⟨last, closing, rfl⟩ := shown_single ending
  have closed : last.kind = .closeParen := closing.kind
  have ends : Follows 0 ⟨last :: rest, stop⟩ := by simp [Follows, Cursor.current, closed]
  have read := reads_expression stage inner (last :: rest) stop within ends
  rw [term, run_current]
  simp only [Cursor.current, List.cons_append, List.headD_cons, opening.kind, Mark.kind,
    Symbol.kind]
  rw [parenthesized, run_advance]
  simp only [Cursor.forward, List.tail_cons, List.append_assoc, List.singleton_append]
  rw [run_bind_of_ok read, run_expect closed]
  rfl

/-! What is written with the parentheses that its place asks for. -/

/-- An expression that its own rule reads is read at every place, with parentheses or without. -/
theorem stage_enclose (own : ∀ depth, 2 * e.nesting ≤ depth → Stage depth e.level e.marks e)
    (opens : 3 ≤ e.level → Begins openers e.marks) (most : e.level ≤ 4) {required : Nat}
    (place : required ≤ 4) (depth : Nat)
    (enough : 2 * deepen required e.level e.nesting ≤ depth) :
    Stage depth required (enclose required e.level e.marks) e := by
  unfold enclose
  unfold deepen at enough
  split
  · rename_i loose
    rw [if_pos loose] at enough
    obtain ⟨depth, rfl⟩ := Nat.exists_eq_add_of_le' (show 2 ≤ depth by omega)
    have bare := stage_of_le (Nat.zero_le _) most (own depth (by omega)) opens
    exact stage_of_le place (Nat.le_refl 4) (stage_parenthesized bare)
      fun _ => begins_parenthesized (by decide) _
  · rename_i tight
    rw [if_neg tight] at enough
    exact stage_of_le (by omega) most (own depth enough) opens

/-! The rules of the single expressions. -/

theorem closers_name_no_unit : ∀ kind ∈ closers, kind ≠ .currencySymbol ∧
    ∀ text position next, namesUnit ⟨kind, text, position⟩ next = false := by
  simp [closers, namesUnit]

theorem stage_number (amount : Float) :
    Stage depth 4 (Expr.number amount).marks (.number amount) := by
  intro tokens rest stop shown follows
  obtain ⟨t, first, rfl⟩ := shown_single shown
  have value : numberValue t = pure amount := by
    have read : float? t.text = some amount := first.reads
    rw [numberValue, read]
  obtain ⟨noCurrency, namesNone⟩ := closers_name_no_unit _ (mem_closers follows)
  have noUnit : namesUnit (Cursor.current ⟨rest, stop⟩) (Cursor.following ⟨rest, stop⟩) = false :=
    namesNone _ _ _
  rw [term, run_current]
  simp only [Cursor.current, List.cons_append, List.headD_cons, first.kind, Mark.kind]
  rw [numberTerm, value, pure_bind, run_advance]
  simp only [Cursor.forward, List.tail_cons, List.nil_append]
  rw [run_current, if_neg noCurrency, run_following, noUnit, if_neg Bool.false_ne_true]
  rfl

theorem stage_variable {name : String} (other : isPrev name = false) :
    Stage depth 4 (Expr.variable name).marks (.variable name) := by
  intro tokens rest stop shown follows
  obtain ⟨t, first, rfl⟩ := shown_single shown
  have named : t.text = name := first.reads
  have elsewhere : ∀ kind ∈ closers, kind ≠ .openParen := by decide
  have noCall := elsewhere _ (mem_closers follows)
  rw [term, run_current]
  simp only [Cursor.current, List.cons_append, List.headD_cons, first.kind, Mark.kind]
  rw [nameTerm, run_advance, named, other, if_neg Bool.false_ne_true, run_isAt]
  simp only [Cursor.forward, List.tail_cons, List.nil_append, noCall, decide_false]
  rfl

theorem run_count {t : Token} {n : Nat} (shown : (Mark.count n).ShownBy t) (positive : 1 ≤ n)
    (rest : List Token) (stop : Nat) : count.run ⟨t :: rest, stop⟩ = .ok (n, ⟨rest, stop⟩) := by
  have read : natural? wordLimit t.text.toList = some n := shown.reads
  have kept : (natural? wordLimit t.text.toList).filter (0 < ·) = some n := by
    simp [read, Option.filter, Nat.lt_of_succ_le positive]
  rw [count, run_current]
  simp only [Cursor.current, List.headD_cons, kept]
  rfl

theorem run_numbered {t : Token} {n : Nat} (shown : (Mark.count n).ShownBy t) (positive : 1 ≤ n)
    (make : Nat → Reference) (otherwise : Parse Reference) (rest : List Token) (stop : Nat) :
    (do if ← isAt .number then return make (← count) else otherwise : Parse Reference).run
      ⟨t :: rest, stop⟩ = .ok (make n, ⟨rest, stop⟩) := by
  have numbered : t.kind = .number := shown.kind
  rw [run_isAt]
  simp only [Cursor.current, List.headD_cons, numbered, decide_true, if_true]
  rw [run_bind_of_ok (run_count shown positive rest stop)]
  rfl

theorem reads_reference {reference : Reference}
    (writable : (Expr.previous reference).isWritable = true) :
    ∃ tail, (Expr.previous reference).marks = .previous :: tail ∧
      Reads Grammar.reference tail 4 reference := by
  cases reference with
  | latest =>
    refine ⟨[], rfl, ?_⟩
    intro tokens rest stop shown follows
    obtain rfl := List.forall₂_nil_left_iff.1 shown
    have elsewhere : ∀ kind ∈ closers, kind ≠ .tilde ∧ kind ≠ .hash := by decide
    obtain ⟨noTilde, noHash⟩ := elsewhere _ (mem_closers follows)
    rw [List.nil_append, Grammar.reference, run_current]
    split
    · contradiction
    · contradiction
    · rfl
  | back lines =>
    refine ⟨[.symbol .tilde, .count lines], rfl, ?_⟩
    intro tokens rest stop shown follows
    obtain ⟨sign, _, tilde, behind, rfl⟩ := List.forall₂_cons_left_iff.1 shown
    obtain ⟨number, amount, rfl⟩ := shown_single behind
    rw [Grammar.reference, run_current]
    simp only [Cursor.current, List.cons_append, List.headD_cons, tilde.kind, Mark.kind,
      Symbol.kind]
    rw [run_advance]
    exact run_numbered amount (of_decide_eq_true writable) .back _ rest stop
  | line id =>
    refine ⟨[.symbol .hash, .count id], rfl, ?_⟩
    intro tokens rest stop shown follows
    obtain ⟨sign, _, hash, behind, rfl⟩ := List.forall₂_cons_left_iff.1 shown
    obtain ⟨number, amount, rfl⟩ := shown_single behind
    rw [Grammar.reference, run_current]
    simp only [Cursor.current, List.cons_append, List.headD_cons, hash.kind, Mark.kind,
      Symbol.kind]
    rw [run_advance]
    exact run_numbered amount (of_decide_eq_true writable) .line _ rest stop

theorem stage_previous {reference : Reference}
    (writable : (Expr.previous reference).isWritable = true) :
    Stage depth 4 (Expr.previous reference).marks (.previous reference) := by
  obtain ⟨tail, written, reads⟩ := reads_reference writable
  rw [written]
  intro tokens rest stop shown follows
  obtain ⟨t, others, first, behind, rfl⟩ := List.forall₂_cons_left_iff.1 shown
  have named : isPrev t.text = true := first.reads
  rw [term, run_current]
  simp only [Cursor.current, List.cons_append, List.headD_cons, first.kind, Mark.kind]
  rw [nameTerm, run_advance, if_pos named]
  simp only [Cursor.forward, List.tail_cons]
  rw [run_bind_of_ok (reads others rest stop behind follows)]
  rfl

/-! Calls. -/

theorem argumentMarks_cons (first second : Expr Float) (others : List (Expr Float)) :
    argumentMarks (first :: second :: others) =
      first.marks ++ .symbol .comma :: argumentMarks (second :: others) := by
  rw [argumentMarks]
  rfl

theorem length_argumentMarks (first : Expr Float) (others : List (Expr Float)) :
    others.length ≤ (argumentMarks (first :: others)).length := by
  induction others generalizing first with
  | nil => exact Nat.zero_le _
  | cons second others ih =>
    have shorter := ih second
    rw [argumentMarks_cons]
    simp only [List.length_cons, List.length_append]
    omega

theorem reads_arguments {item : Parse (Expr Float)} {last : Token} (rest : List Token) (stop : Nat)
    (closes : last.kind = .closeParen) {first : Expr Float} {others : List (Expr Float)}
    (each : ∀ argument ∈ first :: others, Reads item argument.marks 0 argument)
    {tokens : List Token}
    (shown : List.Forall₂ Mark.ShownBy (argumentMarks (first :: others)) tokens) {fuel : Nat}
    (enough : others.length ≤ fuel) :
    (commaSeparatedFuel item (fuel + 1)).run ⟨tokens ++ last :: rest, stop⟩ =
      .ok (first :: others, ⟨last :: rest, stop⟩) := by
  induction others generalizing first tokens fuel with
  | nil =>
    have only : argumentMarks [first] = first.marks := by simp [argumentMarks]
    rw [only] at shown
    have ends : Follows 0 ⟨last :: rest, stop⟩ := by simp [Follows, Cursor.current, closes]
    have read := each first (by simp) tokens (last :: rest) stop shown ends
    rw [commaSeparatedFuel, run_bind_of_ok read, run_isAt]
    simp only [Cursor.current, List.headD_cons, closes]
    rfl
  | cons second others ih =>
    rw [argumentMarks_cons] at shown
    obtain ⟨front, _, rfl, before, behind⟩ := shown_append shown
    obtain ⟨comma, back, separator, later, rfl⟩ := List.forall₂_cons_left_iff.1 behind
    have separates : comma.kind = .comma := separator.kind
    have ends : Follows 0 ⟨comma :: (back ++ last :: rest), stop⟩ := by
      simp [Follows, Cursor.current, separates]
    have read := each first (by simp) front _ stop before ends
    obtain ⟨fuel, rfl⟩ := Nat.exists_eq_add_of_le' (Nat.le_trans (Nat.succ_pos _) enough)
    have remaining : ∀ argument ∈ second :: others, Reads item argument.marks 0 argument := by
      intro argument member
      exact each argument (List.mem_cons_of_mem _ member)
    have more := ih remaining later (Nat.le_of_succ_le_succ enough)
    rw [commaSeparatedFuel, List.append_assoc, List.cons_append, run_bind_of_ok read, run_isAt]
    simp only [Cursor.current, List.headD_cons, separates, decide_true, if_true]
    rw [run_advance]
    simp only [Cursor.forward, List.tail_cons]
    rw [run_bind_of_ok more]
    rfl

theorem begins_argumentMarks {first : Expr Float} (others : List (Expr Float))
    (begins : Begins starters first.marks) :
    Begins starters (argumentMarks (first :: others)) := by
  obtain ⟨mark, rest, written, member⟩ := begins
  rw [argumentMarks, written]
  exact ⟨mark, _, rfl, member⟩

theorem run_callArguments {deeper : Deeper} {arguments : List (Expr Float)}
    (begins : ∀ argument ∈ arguments, Begins starters argument.marks)
    (each : ∀ argument ∈ arguments, Reads (deeper .expression) argument.marks 0 argument)
    {opening last : Token} (opens : opening.kind = .openParen) (closes : last.kind = .closeParen)
    {tokens : List Token} (shown : List.Forall₂ Mark.ShownBy (argumentMarks arguments) tokens)
    (rest : List Token) (stop : Nat) :
    (callArguments deeper).run ⟨opening :: (tokens ++ last :: rest), stop⟩ =
      .ok (arguments, ⟨rest, stop⟩) := by
  rw [callArguments, run_expect opens, run_isAt]
  cases arguments with
  | nil =>
    cases shown
    simp only [List.nil_append, Cursor.current, List.headD_cons, closes, decide_true, if_true,
      pure_bind]
    rw [run_expect closes]
    rfl
  | cons first others =>
    have enough : others.length ≤ (tokens ++ last :: rest).length := by
      have fewer := length_argumentMarks first others
      rw [shown.length_eq] at fewer
      rw [List.length_append]
      omega
    have listed := reads_arguments rest stop closes each shown enough
    obtain ⟨mark, marks, written, member⟩ := begins_argumentMarks others (begins first (by simp))
    rw [written] at shown
    obtain ⟨t, ts, start, _, rfl⟩ := List.forall₂_cons_left_iff.1 shown
    have elsewhere : ∀ kind ∈ starters, kind ≠ .closeParen := by decide
    have nonempty : t.kind ≠ .closeParen := start.kind ▸ elsewhere _ member
    simp only [List.cons_append, Cursor.current, List.headD_cons, nonempty, decide_false]
    rw [if_neg Bool.false_ne_true, commaSeparated, bind_assoc, run_remaining]
    refine (run_bind_of_ok listed).trans ?_
    rw [run_expect closes]
    rfl

theorem stage_call {name : String} {arguments : List (Expr Float)}
    (lower : Text.lowerAscii name = name) (other : isPrev name = false)
    (begins : ∀ argument ∈ arguments, Begins starters argument.marks)
    (each : ∀ argument ∈ arguments, Stage depth 0 argument.marks argument) :
    Stage (depth + 2) 4 (Expr.call name arguments).marks (.call name arguments) := by
  have read : ∀ argument ∈ arguments,
      Reads (withLevels (depth + 2) .expression) argument.marks 0 argument :=
    fun argument member => reads_expression (each argument member)
  intro tokens rest stop shown follows
  rw [Expr.marks] at shown
  obtain ⟨t, _, first, behind, rfl⟩ := List.forall₂_cons_left_iff.1 shown
  obtain ⟨opening, _, opens, listed, rfl⟩ := List.forall₂_cons_left_iff.1 behind
  obtain ⟨inner, _, rfl, within, ending⟩ := shown_append listed
  obtain ⟨last, closes, rfl⟩ := shown_single ending
  have named : t.text = name := first.reads
  have kind : opening.kind = .openParen := opens.kind
  have run := run_callArguments begins read kind closes.kind within rest stop
  rw [term, run_current]
  simp only [Cursor.current, List.cons_append, List.headD_cons, first.kind, Mark.kind]
  rw [nameTerm, run_advance, named, other, if_neg Bool.false_ne_true, run_isAt]
  simp only [Cursor.forward, Cursor.current, List.tail_cons, List.headD_cons, kind,
    decide_true, if_true, List.append_assoc, List.singleton_append]
  rw [run_bind_of_ok run, lower]
  rfl

/-! Operations. -/

theorem stage_percent {operand : Expr Float}
    (inner : Stage depth 3 (enclose 3 operand.level operand.marks) operand) :
    Stage depth 3 (Expr.unary .percent operand).marks (.unary .percent operand) := by
  intro tokens rest stop shown follows
  obtain ⟨front, _, rfl, before, ending⟩ := shown_append shown
  obtain ⟨sign, written, rfl⟩ := shown_single ending
  have percent : sign.kind = .percent := written.kind
  have between : Follows 4 ⟨sign :: rest, stop⟩ := by
    simp [Follows, Cursor.current, percent]
  obtain ⟨fuel, enough, run⟩ := inner.more_fuel front sign rest stop before between
  have closes := mem_closers follows
  have suffix : suffix? sign (Cursor.current ⟨rest, stop⟩) = some .percent := by
    simp [suffix?, percent, startsOperand_of_closers closes]
  have applied : (applySuffix (withLevels depth) operand .percent).run ⟨rest, stop⟩ =
      .ok (.unary .percent operand, ⟨rest, stop⟩) := by
    have elsewhere : ∀ kind ∈ closers, kind ≠ .keyword .of := by decide
    rw [applySuffix, run_isAt]
    simp only [elsewhere _ closes, decide_false]
    rfl
  refine ⟨fuel, enough, ?_⟩
  rw [List.append_assoc, List.singleton_append, run, suffixesFuel, run_current, run_following]
  simp only [Cursor.current, Cursor.following, List.headD_cons, List.tail_cons] at suffix ⊢
  rw [suffix]
  simp only
  rw [run_advance]
  exact run_bind_of_ok applied

theorem stage_sign {op : UnaryOp} {operand : Expr Float} (sign : op ≠ .percent)
    (inner : Stage depth 2 (enclose 2 operand.level operand.marks) operand) :
    Stage (depth + 1) 2 (Expr.unary op operand).marks (.unary op operand) := by
  have written : (Expr.unary op operand).marks =
      .symbol op.sign :: enclose 2 operand.level operand.marks := by
    cases op <;> first | rfl | contradiction
  have taken : sign? op.sign.kind = some op := by
    cases op <;> first | rfl | contradiction
  intro tokens rest stop shown follows
  rw [written] at shown
  obtain ⟨t, others, first, behind, rfl⟩ := List.forall₂_cons_left_iff.1 shown
  rw [withLevels, polarity, run_current]
  simp only [Cursor.current, List.cons_append, List.headD_cons, first.kind, Mark.kind, taken]
  rw [run_advance]
  simp only [Cursor.forward, List.tail_cons]
  rw [run_bind_of_ok (inner others rest stop behind follows)]
  rfl

/-- An operation at the end of a chain, given the chain before it. -/
theorem reaches_chain {op? : TokenKind → Option BinaryOp} {operand : Parse (Expr Float)}
    {level : Nat} {op : BinaryOp} {left right : Expr Float} {front back : List Mark}
    (taken : op? op.sign.kind = some op)
    (before : Reaches (chain op? operand) (fun fuel => chainFuel op? operand fuel left) front level)
    (behind : Reads operand back level right)
    (between : ∀ sign tokens rest stop, sign.kind = op.sign.kind →
      List.Forall₂ Mark.ShownBy back tokens → Follows level ⟨sign :: (tokens ++ rest), stop⟩) :
    Reaches (chain op? operand) (fun fuel => chainFuel op? operand fuel (.binary op left right))
      (front ++ .symbol op.sign :: back) level := by
  intro tokens rest stop shown follows
  obtain ⟨first, _, rfl, shownFront, shownLast⟩ := shown_append shown
  obtain ⟨sign, others, written, shownBack, rfl⟩ := List.forall₂_cons_left_iff.1 shownLast
  have kind : sign.kind = op.sign.kind := written.kind
  obtain ⟨fuel, enough, run⟩ := before.more_fuel first sign (others ++ rest) stop shownFront
    (between sign others rest stop kind shownBack)
  rw [List.length_append] at enough
  refine ⟨fuel, by omega, ?_⟩
  rw [List.append_assoc, List.cons_append, run, chainFuel, run_current]
  simp only [Cursor.current, List.headD_cons, kind, taken]
  rw [run_advance]
  simp only [Cursor.forward, List.tail_cons]
  rw [run_bind_of_ok (behind others rest stop shownBack follows)]

theorem stage_product_op {op : BinaryOp} {left right : Expr Float} (product : op.level = 1)
    (before : Stage depth 1 (enclose 1 left.level left.marks) left)
    (behind : Stage depth 2 (enclose op.rightLevel right.level right.marks) right)
    (opens : op = .remainder → Begins openers (enclose op.rightLevel right.level right.marks)) :
    Stage depth 1 (Expr.binary op left right).marks (.binary op left right) := by
  have taken : multiplicativeOp? op.sign.kind = some op := by
    cases op <;> first | rfl | contradiction
  rw [Expr.marks, product]
  refine reaches_chain taken before behind ?_
  intro sign tokens rest stop kind shown
  cases op with
  | multiply => simp [Follows, Cursor.current, kind, BinaryOp.sign, Symbol.kind]
  | divide => simp [Follows, Cursor.current, kind, BinaryOp.sign, Symbol.kind]
  | remainder =>
    -- Only an operand right behind the percent sign makes it a remainder.
    obtain ⟨mark, others, written, starts⟩ := opens rfl
    rw [written] at shown
    obtain ⟨t, ts, first, _, rfl⟩ := List.forall₂_cons_left_iff.1 shown
    have operand := startsOperand_of_opens (first.kind ▸ starts)
    simp [Follows, Cursor.current, Cursor.following, kind, BinaryOp.sign, Symbol.kind, operand]
  | _ => cases product

theorem stage_sum_op {op : BinaryOp} {left right : Expr Float} (sum : op.level = 0)
    (before : Stage depth 0 (enclose 0 left.level left.marks) left)
    (behind : Stage depth 1 (enclose op.rightLevel right.level right.marks) right) :
    Stage depth 0 (Expr.binary op left right).marks (.binary op left right) := by
  have taken : additiveOp? op.sign.kind = some op := by
    cases op <;> first | rfl | contradiction
  rw [Expr.marks, sum]
  refine reaches_chain taken before (reads_multiplicative behind) ?_
  intro sign tokens rest stop kind shown
  cases op with
  | add => simp [Follows, Cursor.current, kind, BinaryOp.sign, Symbol.kind]
  | subtract => simp [Follows, Cursor.current, kind, BinaryOp.sign, Symbol.kind]
  | _ => cases sum

/-! Whole writings. -/

theorem begins_append {kinds : List TokenKind} {front : List Mark} (begins : Begins kinds front)
    (back : List Mark) : Begins kinds (front ++ back) := by
  obtain ⟨mark, rest, rfl, member⟩ := begins
  exact ⟨mark, rest ++ back, rfl, member⟩

theorem begins_enclose {kinds : List TokenKind} {required level : Nat}
    (opening : .openParen ∈ kinds) (bare : required ≤ level → Begins kinds marks) :
    Begins kinds (enclose required level marks) := by
  unfold enclose
  split
  · exact begins_parenthesized opening marks
  · exact bare (by omega)

theorem begins_starters (begins : Begins openers marks) : Begins starters marks := by
  obtain ⟨mark, rest, written, member⟩ := begins
  exact ⟨mark, rest, written, List.mem_cons_of_mem _ (List.mem_cons_of_mem _ member)⟩

/-- Only what is no tighter than a sign begins with one. -/
theorem begins_marks (writable : e.Throughout (·.isWritable = true)) :
    Begins starters e.marks ∧ (3 ≤ e.level → Begins openers e.marks) := by
  induction writable with
  | @intro e here below ih =>
    have of_openers (begins : Begins openers e.marks) :
        Begins starters e.marks ∧ (3 ≤ e.level → Begins openers e.marks) :=
      ⟨begins_starters begins, fun _ => begins⟩
    have of_loose (begins : Begins starters e.marks) (loose : e.level < 3) :
        Begins starters e.marks ∧ (3 ≤ e.level → Begins openers e.marks) :=
      ⟨begins, fun tight => absurd tight (by omega)⟩
    cases e with
    | number amount => exact of_openers ⟨_, _, rfl, by simp [Mark.kind, openers]⟩
    | «variable» name => exact of_openers ⟨_, _, rfl, by simp [Mark.kind, openers]⟩
    | previous reference =>
      obtain ⟨tail, written, _⟩ := reads_reference here
      exact of_openers ⟨_, tail, written, by decide⟩
    | call name arguments =>
      apply of_openers
      rw [Expr.marks]
      exact ⟨_, _, rfl, by simp [Mark.kind, openers]⟩
    | unary op operand =>
      have inner := ih operand (by simp [parts])
      cases op with
      | percent =>
        apply of_openers
        rw [Expr.marks]
        exact begins_append (begins_enclose (by decide) inner.2) _
      | negate => exact of_loose ⟨.symbol .minus, _, rfl, by decide⟩ (by decide : 2 < 3)
      | plus => exact of_loose ⟨.symbol .plus, _, rfl, by decide⟩ (by decide : 2 < 3)
    | binary op left right =>
      have inner := ih left (by simp [parts])
      refine of_loose ?_ (Nat.lt_of_le_of_lt op.level_le (by decide))
      rw [Expr.marks]
      exact begins_append (begins_enclose (by decide) fun _ => inner.1) _
    | _ => cases here

theorem nesting_le_argumentNesting {argument : Expr Float} {arguments : List (Expr Float)}
    (member : argument ∈ arguments) : argument.nesting ≤ argumentNesting arguments := by
  induction arguments with
  | nil => cases member
  | cons first rest ih =>
    rw [argumentNesting]
    cases member with
    | head => exact Nat.le_max_left _ _
    | tail _ later => exact Nat.le_trans (ih later) (Nat.le_max_right _ _)

/-- Its own rule reads every writing. A pair of parentheses takes two levels, a sign one. -/
theorem stage_marks (writable : e.Throughout (·.isWritable = true)) :
    ∀ depth, 2 * e.nesting ≤ depth → Stage depth e.level e.marks e := by
  induction writable with
  | @intro e here below ih =>
    have inner : ∀ part ∈ e.parts, ∀ required ≤ 4, ∀ depth,
        2 * deepen required part.level part.nesting ≤ depth →
        Stage depth required (enclose required part.level part.marks) part :=
      fun part member required place depth =>
        stage_enclose (ih part member) (begins_marks (below part member)).2 part.level_le
          place depth
    intro depth enough
    cases e with
    | number amount => exact stage_number amount
    | «variable» name => exact stage_variable (by simpa [isWritable] using here)
    | previous reference => exact stage_previous here
    | call name arguments =>
      obtain ⟨lower, other⟩ : Text.lowerAscii name = name ∧ isPrev name = false := by
        simpa [isWritable] using here
      rw [nesting] at enough
      obtain ⟨depth, rfl⟩ := Nat.exists_eq_add_of_le' (show 2 ≤ depth by omega)
      refine stage_call lower other (fun argument member => (begins_marks (below _ member)).1) ?_
      intro argument member
      have deep := nesting_le_argumentNesting member
      exact stage_of_le (Nat.zero_le _) argument.level_le
        (ih argument member depth (by omega)) (begins_marks (below argument member)).2
    | unary op operand =>
      have operandInner := inner operand (by simp [parts])
      by_cases percentage : op = .percent
      · subst percentage
        exact stage_percent (operandInner 3 (by decide) depth enough)
      · have signed : op.level = 2 ∧ (Expr.unary op operand).nesting =
            deepen 2 operand.level operand.nesting + 1 := by
          cases op with
          | percent => contradiction
          | negate => exact ⟨rfl, rfl⟩
          | plus => exact ⟨rfl, rfl⟩
        obtain ⟨level, deeper⟩ := signed
        rw [deeper] at enough
        obtain ⟨depth, rfl⟩ := Nat.exists_eq_add_of_le' (show 1 ≤ depth by omega)
        rw [Expr.level, level]
        exact stage_sign percentage (operandInner 2 (by decide) depth (by omega))
    | binary op left right =>
      rw [nesting] at enough
      have before := inner left (by simp [parts]) op.level (by have := op.level_le; omega) depth
        (by omega)
      have place : op.rightLevel ≤ 4 := by cases op <;> decide
      have behind := inner right (by simp [parts]) op.rightLevel place depth (by omega)
      have opens := (begins_marks (below right (by simp [parts]))).2
      rw [Expr.level]
      cases op with
      | add => exact stage_sum_op rfl before behind
      | subtract => exact stage_sum_op rfl before behind
      | multiply => exact stage_product_op rfl before behind (by simp)
      | divide => exact stage_product_op rfl before behind (by simp)
      | remainder =>
        have begins : Begins openers (enclose 3 right.level right.marks) :=
          begins_enclose (by decide) opens
        exact stage_product_op rfl before
          (stage_of_le (by decide) (by decide) behind fun _ => begins) fun _ => begins
    | _ => cases here

def writtenKinds : List TokenKind :=
  [.number, .identifier, .plus, .minus, .multiply, .divide, .percent, .openParen, .closeParen,
    .comma, .tilde, .hash]

theorem mem_writtenKinds {marks : List Mark} {tokens : List Token}
    (shown : List.Forall₂ Mark.ShownBy marks tokens) : ∀ t ∈ tokens, t.kind ∈ writtenKinds := by
  induction shown with
  | nil => simp
  | @cons mark t _ _ first _ ih =>
    have written : mark.kind ∈ writtenKinds := by
      cases mark with
      | symbol written => cases written <;> decide
      | _ => simp [Mark.kind, writtenKinds]
    exact List.forall_mem_cons.2 ⟨first.kind ▸ written, ih⟩

theorem not_isPhraseWord {t : Token} (written : t.kind ∈ writtenKinds) :
    isPhraseWord t = false := by
  have each : ∀ kind ∈ writtenKinds, isPhraseWord ⟨kind, t.text, t.position⟩ = false := by
    simp [writtenKinds, isPhraseWord]
  exact each _ written

theorem run_complete {t : Token} {ts : List Token} {stop : Nat}
    (written : ∀ token ∈ t :: ts, token.kind ∈ writtenKinds)
    (run : wholeExpression.run ⟨t :: ts, stop⟩ = .ok (e, ⟨[], stop⟩)) :
    complete.run ⟨t :: ts, stop⟩ = .ok (e, ⟨[], stop⟩) := by
  have noQuestion : t.kind ≠ .keyword .what := by
    have elsewhere : ∀ kind ∈ writtenKinds, kind ≠ .keyword .what := by decide
    exact elsewhere _ (written t (by simp))
  have noAssignment : (Cursor.following ⟨t :: ts, stop⟩).kind ≠ .assign := by
    have elsewhere : ∀ kind ∈ writtenKinds, kind ≠ .assign := by decide
    cases ts with
    | nil => simp [Cursor.following, Token.eof]
    | cons second rest => exact elsewhere _ (written second (by simp))
  have stated : statement.run ⟨t :: ts, stop⟩ = .ok (e, ⟨[], stop⟩) := by
    rw [statement, run_current, run_following]
    simp only [Cursor.current, List.headD_cons, noQuestion, noAssignment, decide_false,
      Bool.and_false, Bool.false_and, if_neg Bool.false_ne_true]
    exact run
  rw [complete, run_bind_of_ok stated]
  rfl

end Grammar

open Grammar in
/-- Reading undoes writing, however long the chains are. -/
theorem parse_marks {e : Expr Float} (writable : e.Throughout (·.isWritable = true))
    (shallow : e.nesting ≤ 60) {tokens : List Token}
    (shown : List.Forall₂ Mark.ShownBy e.marks tokens) (fuzzy : Bool) :
    parse fuzzy tokens = .ok e := by
  have written := mem_writtenKinds shown
  have begins := begins_marks writable
  have stage : Stage 198 0 e.marks e := stage_of_le (Nat.zero_le _) e.level_le
    (stage_marks writable 198 (by omega)) begins.2
  obtain ⟨mark, marks, beginning, member⟩ := begins.1
  have readable : tokens.find? (·.kind = .error) = none := by
    have elsewhere : ∀ kind ∈ writtenKinds, kind ≠ .error := by decide
    simpa using fun t here => elsewhere _ (written t here)
  have plain : tokens.find? isPhraseWord = none := by
    simpa using fun t here => not_isPhraseWord (written t here)
  have read := reads_expression stage tokens [] (Cursor.ofTokens tokens).stop shown trivial
  rw [List.append_nil] at read
  rw [beginning] at shown
  obtain ⟨t, ts, first, _, rfl⟩ := List.forall₂_cons_left_iff.1 shown
  have whole : complete.run (Cursor.ofTokens (t :: ts)) = .ok (e, ⟨[], _⟩) :=
    run_complete written read
  have elsewhere : ∀ kind ∈ starters, kind ≠ .eof ∧ kind ≠ .command := by decide
  obtain ⟨notBlank, noCommand⟩ := elsewhere _ member
  rw [← first.kind] at notBlank noCommand
  have current : (Cursor.ofTokens (t :: ts)).current = t := rfl
  rw [parse, readable]
  simp only [current, if_neg notBlank, if_neg noCommand, plain, ite_self, whole]
  rfl

theorem parse_remainder_by_difference :
    parse false [⟨.minus, "-", 0⟩, ⟨.number, "2", 1⟩, ⟨.percent, "%", 3⟩, ⟨.openParen, "(", 5⟩,
      ⟨.identifier, "prev", 6⟩, ⟨.tilde, "~", 10⟩, ⟨.number, "3", 11⟩, ⟨.minus, "-", 13⟩,
      ⟨.identifier, "x", 15⟩, ⟨.percent, "%", 16⟩, ⟨.closeParen, ")", 17⟩] =
    .ok (.binary .remainder (.unary .negate (.number ((float? "2").get (by decide +kernel))))
      (.binary .subtract (.previous (.back 3)) (.unary .percent (.variable "x")))) := by
  refine parse_marks ?_ (by decide) ?_ false
  · have leaf {e : Expr Float} (none : e.parts = []) (here : e.isWritable = true) :
        e.Throughout (·.isWritable = true) := .intro here (by simp [none])
    refine .intro rfl (List.forall_mem_cons.2 ⟨?_, List.forall_mem_singleton.2 ?_⟩)
    · exact .intro rfl (List.forall_mem_singleton.2 (leaf rfl rfl))
    · refine .intro rfl (List.forall_mem_cons.2 ⟨leaf rfl rfl, List.forall_mem_singleton.2 ?_⟩)
      exact .intro rfl (List.forall_mem_singleton.2 (leaf rfl (by decide)))
  · have named : isPrev "prev" = true := by decide
    have counted : natural? wordLimit "3".toList = some 3 := by decide
    exact .cons ⟨rfl, trivial⟩ <| .cons ⟨rfl, (Option.some_get _).symm⟩ <|
      .cons ⟨rfl, trivial⟩ <| .cons ⟨rfl, trivial⟩ <| .cons ⟨rfl, named⟩ <|
      .cons ⟨rfl, trivial⟩ <| .cons ⟨rfl, counted⟩ <| .cons ⟨rfl, trivial⟩ <|
      .cons ⟨rfl, rfl⟩ <| .cons ⟨rfl, trivial⟩ <| .cons ⟨rfl, trivial⟩ .nil

end NotepadCalculator
