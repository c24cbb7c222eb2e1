import NotepadCalculator.Proofs.DecimalNumbers
import NotepadCalculator.Proofs.PrintedExpressions

/-!
An amount and the name of a unit, written one after the other. A decimal number is scanned as one
token whatever stands behind it after a blank, and a word that is set apart by nothing else is read
as its unit. So such a line has one tree, whatever units there are.
-/
namespace NotepadCalculator

/-! Scanning. -/

namespace Scan
open Number Text

theorem head?_of_date {cs : List Char} (date : startsDate cs = true) :
    (cs.dropWhile isDigit).head? = some '-' := by
  unfold startsDate at date
  split at date
  · simp only [List.all_cons, Bool.and_eq_true] at date
    obtain ⟨⟨a, b, c, d, _⟩, _⟩ := date
    have hyphen : isDigit '-' = false := by decide
    simp [a, b, c, d, hyphen]
  · contradiction

theorem head?_of_clock {cs : List Char} (clock : startsClock cs = true) :
    (cs.dropWhile isDigit).head? = some ':' := by
  have after : cs.drop (cs.takeWhile isDigit).length = cs.dropWhile isDigit := by
    calc cs.drop (cs.takeWhile isDigit).length
        = (cs.takeWhile isDigit ++ cs.dropWhile isDigit).drop (cs.takeWhile isDigit).length := by
          rw [List.takeWhile_append_dropWhile]
      _ = cs.dropWhile isDigit := List.drop_left
  simp only [startsClock, Bool.and_eq_true, after] at clock
  have colon := clock.2
  unfold colonAndTwoDigits at colon
  split at colon
  · rename_i shape
    rw [shape]
    rfl
  · contradiction

theorem head?_after_digits {cs : List Char} (decimal : IsDecimal cs) (rest : List Char) :
    ((cs ++ ' ' :: rest).dropWhile isDigit).head? ∈ [some '.', some 'e', some 'E', some ' '] := by
  cases decimal with
  | @intro whole places power numeric fraction scaled _ =>
    have ends : startsDigit (places ++ (power ++ ' ' :: rest)) = false :=
      startsDigit_fraction fraction (startsDigit_power scaled rfl)
    rw [List.append_assoc, List.append_assoc, dropWhile_left numeric ends]
    cases fraction with
    | some _ _ => simp
    | none =>
      cases scaled with
      | none => simp
      | some letter _ _ _ =>
        simp only [List.mem_cons, List.not_mem_nil, or_false] at letter
        rcases letter with rfl | rfl <;> simp

theorem operator?_of_starts {c : Char} (begins : isDigit c = true ∨ c = '.') :
    operator? c = none := by
  unfold operator?
  split <;> first | rfl | exact absurd begins (by decide)

theorem readNumber_decimal {cs rest : List Char} (decimal : IsDecimal cs) :
    readNumber (cs ++ ' ' :: rest) = (⟨.number, cs, cs.length⟩, .afterNumber) := by
  have apart : startsMeridiem (' ' :: rest) = false := by
    cases rest with
    | nil => rfl
    | cons c rest => simp [startsMeridiem, asciiLower]
  simp [readNumber, numberText_written decimal, apart]

/-- What begins with a digit or a point is a date, a time or a number. -/
theorem readPlain_starts {c : Char} {rest : List Char}
    (starts : (isDigit c || (c = '.' && startsDigit rest)) = true) (glued : Bool) :
    readPlain glued c rest =
      if startsDate (c :: rest) then (⟨.date, (c :: rest).take 10, 10⟩, .words)
      else if startsClock (c :: rest) then (readClock (c :: rest), .words)
      else readNumber (c :: rest) := by
  have begins : isDigit c = true ∨ c = '.' := by
    simp only [Bool.or_eq_true, Bool.and_eq_true, decide_eq_true_eq] at starts
    exact starts.imp_right And.left
  have noQuote : c ≠ '"' := by
    rintro rfl
    exact absurd begins (by decide)
  have noDegree : c ≠ '°' := by
    rintro rfl
    exact absurd begins (by decide)
  rw [readPlain, operator?_of_starts begins]
  simp only [noQuote, noDegree, starts, if_false, if_true]

theorem readPlain_decimal {c : Char} {cs rest : List Char} (decimal : IsDecimal (c :: cs))
    (glued : Bool) : readPlain glued c (cs ++ ' ' :: rest) =
      (⟨.number, c :: cs, (c :: cs).length⟩, .afterNumber) := by
  have starts := starts_of_decimal decimal (' ' :: rest)
  have after := head?_after_digits decimal rest
  have noDate : startsDate (c :: (cs ++ ' ' :: rest)) = false := by
    rw [Bool.eq_false_iff]
    intro date
    rw [List.cons_append, head?_of_date date] at after
    contradiction
  have noClock : startsClock (c :: (cs ++ ' ' :: rest)) = false := by
    rw [Bool.eq_false_iff]
    intro clock
    rw [List.cons_append, head?_of_clock clock] at after
    contradiction
  rw [readPlain_starts starts]
  simp only [noDate, noClock, Bool.false_eq_true, if_false]
  exact readNumber_decimal decimal

theorem visible_of_starts {c : Char} (begins : isDigit c = true ∨ c = '.') (rest : List Char) :
    isBlank c = false ∧ (¬ ['/', '/'] <+: c :: rest) ∧ c ≠ ':' := by
  refine ⟨?_, ?_, ?_⟩
  · rcases begins with digit | rfl
    · exact isBlank_of_isWordChar (isWordChar_of_isDigit digit)
    · decide
  · rintro ⟨_, same⟩
    obtain ⟨rfl, _⟩ := List.cons.inj same
    exact absurd begins (by decide)
  · rintro rfl
    exact absurd begins (by decide)

def Mode.readsPlain : Mode → Bool
  | .opening | .words => true
  | _ => false

theorem lexemesFuel_decimal (fuel position : Nat) {mode : Mode} (plain : mode.readsPlain = true)
    {cs rest : List Char} (decimal : IsDecimal cs) :
    lexemesFuel (fuel + 1) mode position (cs ++ ' ' :: rest) =
      ⟨⟨.number, String.ofList cs, position⟩, cs.length⟩ ::
        lexemesFuel fuel .afterNumber (position + cs.length) (' ' :: rest) := by
  cases cs with
  | nil => exact absurd (beginsNumber_of_decimal decimal) id
  | cons c cs =>
    have begins : isDigit c = true ∨ c = '.' := beginsNumber_of_decimal decimal
    obtain ⟨visible, noComment, noColon⟩ := visible_of_starts begins (cs ++ ' ' :: rest)
    have apart : isGlued mode (c :: (cs ++ ' ' :: rest)) = false := by
      cases mode <;> first | rfl | contradiction
    have reads : read mode false c (cs ++ ' ' :: rest) =
        (⟨.number, c :: cs, (c :: cs).length⟩, .afterNumber) := by
      cases mode with
      | opening =>
        simp only [read, noColon, if_false]
        exact readPlain_decimal decimal false
      | words => exact readPlain_decimal decimal false
      | _ => contradiction
    rw [List.cons_append, lexemesFuel_unspaced fuel position mode _ visible noComment apart, reads]
    simp

theorem lexemesFuel_word (fuel position : Nat) (mode : Mode) (c : Char) (cs rest : List Char)
    (reads : ∀ others, read mode false c others = (readWord false (c :: others), .words))
    (letters : (c :: cs).all isWordChar = true)
    (ends : startsWord rest = false) :
    lexemesFuel (fuel + 1) mode position (' ' :: c :: (cs ++ rest)) =
      ⟨⟨(readWord false (c :: cs)).kind, String.ofList (c :: cs), position + 1⟩, cs.length + 1⟩ ::
        lexemesFuel fuel .words (position + 1 + (cs.length + 1)) rest := by
  rw [List.all_eq_true] at letters
  have whole : (c :: (cs ++ rest)).takeWhile isWordChar = c :: cs := takeWhile_left letters ends
  have itself : (c :: cs).takeWhile isWordChar = c :: cs := List.takeWhile_eq_self_iff.2 letters
  have noComment : ¬ ['/', '/'] <+: c :: (cs ++ rest) := by
    rintro ⟨_, same⟩
    obtain ⟨rfl, _⟩ := List.cons.inj same
    exact absurd (letters '/' List.mem_cons_self) (by decide)
  have visible := isBlank_of_isWordChar (letters c List.mem_cons_self)
  rw [lexemesFuel_spaced fuel position mode visible noComment, reads]
  simp [readWord, whole, itself]

theorem operator?_of_isLetter {c : Char} (letter : isLetter c = true ∨ c = '_') :
    operator? c = none := by
  unfold operator?
  split <;> first | rfl | exact absurd letter (by decide +kernel)

theorem readPlain_word {c : Char} (letter : isLetter c = true ∨ c = '_') (glued : Bool)
    (rest : List Char) : readPlain glued c rest = (readWord glued (c :: rest), .words) := by
  have noQuote : c ≠ '"' := by
    rintro rfl
    exact absurd letter (by decide)
  have noDegree : c ≠ '°' := by
    rintro rfl
    exact absurd letter (by decide +kernel)
  have noNumber : (isDigit c || (c = '.' && startsDigit rest)) = false := by
    have noPoint : c ≠ '.' := by
      rintro rfl
      exact absurd letter (by decide)
    have noDigit : isDigit c = false := by
      rcases letter with letter | rfl
      · exact isDigit_of_isLetter letter
      · rfl
    simp [noDigit, noPoint]
  have begins : (isLetter c || c = '_') = true := by simpa using letter
  rw [readPlain, operator?_of_isLetter letter]
  simp only [noQuote, noDegree, noNumber, begins, if_true, if_false, Bool.false_eq_true]

/-- A word that is read as the unit of a number before it: any but keywords and `prev`, or one with
    a degree sign in front. -/
inductive UnitWord : List Char → Prop where
  | word {c : Char} {cs : List Char} (first : isLetter c = true ∨ c = '_')
      (letters : (c :: cs).all isWordChar = true)
      (free : Keyword.ofWord? (String.ofList (c :: cs)) = none)
      (other : isPrev (String.ofList (c :: cs)) = false) : UnitWord (c :: cs)
  | degree {cs : List Char} (letters : cs.all isWordChar = true) : UnitWord ('°' :: cs)

def NamesUnit (t : Token) : Prop := t.kind = .unit ∨ t.kind = .identifier ∧ isPrev t.text = false

theorem lexemesFuel_unitWord (fuel position : Nat) {cs : List Char} (word : UnitWord cs) :
    ∃ t, NamesUnit t ∧ t.text = String.ofList cs ∧
      lexemesFuel (fuel + 1) .afterNumber position (' ' :: cs) = [⟨t, cs.length⟩] := by
  cases word with
  | @word c cs first letters free other =>
    have token := lexemesFuel_word fuel position .afterNumber c cs []
      (readPlain_word first false) letters rfl
    have itself : (c :: cs).takeWhile isWordChar = c :: cs :=
      List.takeWhile_eq_self_iff.2 (List.all_eq_true.1 letters)
    have kind : (readWord false (c :: cs)).kind = .identifier := by
      simp only [readWord, itself, free, Bool.false_eq_true, if_false]
    refine ⟨⟨.identifier, String.ofList (c :: cs), position + 1⟩, .inr ⟨rfl, other⟩, rfl, ?_⟩
    rw [List.append_nil, lexemesFuel_nil, kind] at token
    exact token
  | @degree cs letters =>
    have itself : cs.takeWhile isWordChar = cs :=
      List.takeWhile_eq_self_iff.2 (List.all_eq_true.1 letters)
    have visible : isBlank '°' = false := by decide +kernel
    have noComment : ¬ ['/', '/'] <+: '°' :: cs := by
      rintro ⟨_, same⟩
      exact absurd (List.cons.inj same).1 (by decide)
    have reads : read .afterNumber false '°' cs =
        (⟨.unit, '°' :: cs, cs.length + 1⟩, .words) := by
      have sign : operator? '°' = none := rfl
      simp only [read, readPlain, sign, itself]
      rfl
    have token := lexemesFuel_spaced fuel position .afterNumber visible noComment
    refine ⟨⟨.unit, String.ofList ('°' :: cs), position + 1⟩, .inl rfl, rfl, ?_⟩
    rw [token, reads]
    simp [lexemesFuel_nil]

theorem length_pos_of_decimal {cs : List Char} (decimal : IsDecimal cs) : 0 < cs.length := by
  cases cs with
  | nil => exact absurd (beginsNumber_of_decimal decimal) id
  | cons c cs => exact Nat.succ_pos _

theorem lexemesFuel_amount (position : Nat) (mode : Mode) (plain : mode.readsPlain = true)
    {cs name : List Char} (decimal : IsDecimal cs) (word : UnitWord name) :
    ∃ t, NamesUnit t ∧ t.text = String.ofList name ∧
      (lexemesFuel (cs ++ ' ' :: name).length mode position (cs ++ ' ' :: name)).map (·.token) =
        [⟨.number, String.ofList cs, position⟩, t] := by
  have nonempty := length_pos_of_decimal decimal
  have length : (cs ++ ' ' :: name).length = cs.length + name.length - 1 + 1 + 1 := by
    rw [List.length_append, List.length_cons]
    omega
  obtain ⟨t, named, text, rest⟩ :=
    lexemesFuel_unitWord (cs.length + name.length - 1) (position + cs.length) word
  refine ⟨t, named, text, ?_⟩
  rw [length, lexemesFuel_decimal _ _ plain decimal, rest]
  rfl

theorem tokenize_amount {cs name : List Char} (decimal : IsDecimal cs) (word : UnitWord name) :
    ∃ t, NamesUnit t ∧ t.text = String.ofList name ∧
      tokenize (String.ofList (cs ++ ' ' :: name)) = [⟨.number, String.ofList cs, 0⟩, t] := by
  obtain ⟨t, named, text, tokens⟩ := lexemesFuel_amount 0 .opening rfl decimal word
  refine ⟨t, named, text, ?_⟩
  rw [tokenize, lexemes, String.length_ofList, String.toList_ofList, tokens]

def signs : List (Char × TokenKind × UnaryOp) := [('+', .plus, .plus), ('-', .minus, .negate)]

theorem tokenize_signed {sign : Char} {kind : TokenKind} {op : UnaryOp}
    (signed : (sign, kind, op) ∈ signs) {cs name : List Char} (decimal : IsDecimal cs)
    (word : UnitWord name) : ∃ t, NamesUnit t ∧ t.text = String.ofList name ∧
      tokenize (String.ofList (sign :: (cs ++ ' ' :: name))) =
        [⟨kind, String.ofList [sign], 0⟩, ⟨.number, String.ofList cs, 1⟩, t] := by
  obtain ⟨t, named, text, tokens⟩ := lexemesFuel_amount 1 .words rfl decimal word
  refine ⟨t, named, text, ?_⟩
  have each : ∀ entry ∈ signs, isBlank entry.1 = false ∧ entry.1 ≠ '/' ∧ entry.1 ≠ ':' ∧
      operator? entry.1 = some entry.2.1 := by
    decide
  obtain ⟨visible, noSlash, noColon, operator⟩ := each _ signed
  have noComment : ¬ ['/', '/'] <+: sign :: (cs ++ ' ' :: name) := by
    rintro ⟨_, same⟩
    exact noSlash (List.cons.inj same).1.symm
  have reads : read .opening false sign (cs ++ ' ' :: name) = (⟨kind, [sign], 1⟩, .words) := by
    simp only [read, noColon, if_false, readPlain, operator]
  have token := lexemesFuel_unspaced (cs ++ ' ' :: name).length 0 .opening _ visible noComment rfl
  rw [reads] at token
  rw [tokenize, lexemes, String.length_ofList, String.toList_ofList, List.length_cons, token,
    List.map_cons]
  exact congrArg _ tokens

end Scan

namespace Grammar
open Number Parse

def Pauses (c : Cursor) : Prop := c.current.kind = .keyword .in ∨ c.current.kind = .eof

theorem run_unitName (first : Token) {c : Cursor} (pauses : Pauses c) :
    (unitName first).run c = .ok (first.text, c) := by
  have apart : joins first c.current c.following = false := by
    rcases pauses with kind | kind <;> simp [joins, kind]
  rw [unitName, run_current, run_following]
  simp only [apart, Bool.and_false]
  rfl

theorem run_polarity {depth : Nat} {c later : Cursor} {e : Expr Float}
    (read : (term (withLevels depth)).run c = .ok (e, later))
    (noSign : sign? c.current.kind = none) (pauses : Pauses later) :
    (withLevels (depth + 1) .polarity).run c = .ok (e, later) := by
  have noSuffix : suffix? later.current later.following = none := by
    rcases pauses with kind | kind <;> simp [suffix?, kind]
  rw [withLevels, polarity, run_current]
  simp only [noSign]
  rw [operand, run_bind_of_ok read, run_remaining, suffixesFuel_stops noSuffix]

theorem run_additive {depth : Nat} {c later : Cursor} {e : Expr Float}
    (read : (withLevels depth .polarity).run c = .ok (e, later)) (pauses : Pauses later) :
    (additive (withLevels depth)).run c = .ok (e, later) := by
  have noProduct : multiplicativeOp? later.current.kind = none := by
    rcases pauses with kind | kind <;> rw [kind] <;> rfl
  have noSum : additiveOp? later.current.kind = none := by
    rcases pauses with kind | kind <;> rw [kind] <;> rfl
  have product : (multiplicative (withLevels depth)).run c = .ok (e, later) := by
    rw [multiplicative, chain, run_bind_of_ok read, run_remaining, chainFuel_stops noProduct]
  rw [additive, chain, run_bind_of_ok product, run_remaining, chainFuel_stops noSum]

theorem run_amount {deeper : Deeper} {number word : Token} {rest : List Token} {stop : Nat}
    {a : Float} (kind : number.kind = .number) (spelled : float? number.text = some a)
    (noSymbol : word.kind ≠ .currencySymbol)
    (named : namesUnit word (rest.headD (.eof stop)) = true) (pauses : Pauses ⟨rest, stop⟩) :
    (term deeper).run ⟨number :: word :: rest, stop⟩ = .ok (.unit a word.text, ⟨rest, stop⟩) := by
  have value : numberValue number = pure a := by
    rw [numberValue, spelled]
  rw [term, run_current]
  simp only [Cursor.current, List.headD_cons, kind]
  rw [numberTerm, value, pure_bind, run_advance, run_current]
  simp only [Cursor.forward, Cursor.current, List.tail_cons, List.headD_cons, noSymbol, if_false]
  rw [run_following]
  simp only [Cursor.following, List.tail_cons, named, if_true]
  rw [run_advance]
  exact run_bind_of_ok (run_unitName _ pauses)

theorem namesUnit_identifier {word next : Token} (kind : word.kind = .identifier)
    (free : isPrev word.text = false) (noCall : next.kind ≠ .openParen) :
    namesUnit word next = true := by
  simp [namesUnit, kind, free, noCall]

theorem run_signed {depth : Nat} {c later : Cursor} {e : Expr Float} {op : UnaryOp}
    (read : (withLevels depth .polarity).run c.forward = .ok (e, later))
    (sign : sign? c.current.kind = some op) :
    (withLevels (depth + 1) .polarity).run c = .ok (.unary op e, later) := by
  rw [withLevels, polarity, run_current]
  simp only [sign]
  rw [run_advance, run_bind_of_ok read]
  rfl

/-- An operand that takes up a whole line. -/
theorem parse_operand (fuzzy : Bool) {first : Token} {rest : List Token} {e : Expr Float}
    {stop : Nat}
    (read : (withLevels 199 .polarity).run (.ofTokens (first :: rest)) = .ok (e, ⟨[], stop⟩))
    (begins : first.kind ∈ [.number, .date, .plus, .minus])
    (kinds : ∀ t ∈ first :: rest,
      t.kind ∈ [.number, .date, .time, .plus, .minus, .identifier, .unit]) :
    parse fuzzy (first :: rest) = .ok e := by
  have current : (Cursor.ofTokens (first :: rest)).current = first := rfl
  have readable : (first :: rest).find? (·.kind = .error) = none := by
    have each : ∀ kind ∈ [.number, .date, .time, .plus, .minus, .identifier, .unit],
        kind ≠ TokenKind.error := by
      decide
    simpa only [List.find?_eq_none, decide_eq_true_eq] using fun t member => each _ (kinds t member)
  have plain : (first :: rest).find? isPhraseWord = none := by
    refine List.find?_eq_none.2 fun t member => ?_
    have kind := kinds t member
    simp only [List.mem_cons, List.not_mem_nil, or_false] at kind
    rcases kind with kind | kind | kind | kind | kind | kind | kind <;> simp [isPhraseWord, kind]
  have starts : ∀ kind ∈ [.number, .date, .plus, .minus], kind ≠ TokenKind.eof ∧
      kind ≠ .command ∧ kind ≠ .identifier ∧ kind ≠ .keyword .what := by
    decide
  obtain ⟨noEnd, noCommand, noName, noPhrase⟩ := starts _ begins
  have whole : wholeExpression.run (.ofTokens (first :: rest)) = .ok (e, ⟨[], stop⟩) := by
    rw [wholeExpression, nestingLimit, withLevels, expression,
      run_bind_of_ok (run_additive read (.inr rfl)), run_remaining]
    rfl
  have stated : statement.run (.ofTokens (first :: rest)) = .ok (e, ⟨[], stop⟩) := by
    rw [statement, run_current, run_following]
    simp only [current, noName, noPhrase, decide_false, Bool.false_and, Bool.false_eq_true,
      if_false]
    exact whole
  have completed : complete.run (.ofTokens (first :: rest)) = .ok (e, ⟨[], stop⟩) := by
    rw [complete, run_bind_of_ok stated]
    rfl
  exact parse_eq_ok.2 ⟨readable, .inr (.inr ⟨noEnd, noCommand, .inr plain, _, completed⟩)⟩

theorem run_written {cs : List Char} {a : Float} (spelled : float? (String.ofList cs) = some a)
    {t : Token} (named : Scan.NamesUnit t) (depth position stop : Nat) :
    (withLevels (depth + 1) .polarity).run ⟨[⟨.number, String.ofList cs, position⟩, t], stop⟩ =
      .ok (.unit a t.text, ⟨[], stop⟩) := by
  have noSymbol : t.kind ≠ .currencySymbol := by
    rcases named with kind | ⟨kind, _⟩ <;> simp [kind]
  have names : namesUnit t (.eof stop) = true := by
    rcases named with kind | ⟨kind, free⟩
    · simp [namesUnit, kind]
    · exact namesUnit_identifier kind free TokenKind.noConfusion
  exact run_polarity (run_amount rfl spelled noSymbol names (.inr rfl)) rfl (.inr rfl)

end Grammar

open Grammar Number Scan

theorem parseLine_amount (fuzzy : Bool) {cs name : List Char} {a : Float} (decimal : IsDecimal cs)
    (spelled : float? (String.ofList cs) = some a) (word : UnitWord name) :
    parseLine fuzzy (String.ofList (cs ++ ' ' :: name)) = .ok (.unit a (String.ofList name)) := by
  obtain ⟨t, named, text, tokens⟩ := tokenize_amount decimal word
  rw [parseLine, tokens, ← text]
  refine parse_operand fuzzy (run_written spelled named 198 0 _) (by simp) ?_
  rcases named with kind | ⟨kind, _⟩ <;> simp [kind]

theorem parseLine_signed (fuzzy : Bool) {sign : Char} {kind : TokenKind} {op : UnaryOp}
    (signed : (sign, kind, op) ∈ signs) {cs name : List Char} {a : Float}
    (decimal : IsDecimal cs) (spelled : float? (String.ofList cs) = some a)
    (word : UnitWord name) : parseLine fuzzy (String.ofList (sign :: (cs ++ ' ' :: name))) =
      .ok (.unary op (.unit a (String.ofList name))) := by
  obtain ⟨t, named, text, tokens⟩ := tokenize_signed signed decimal word
  have each : ∀ entry ∈ signs, sign? entry.2.1 = some entry.2.2 ∧
      entry.2.1 ∈ [.number, .date, .plus, .minus] ∧
        entry.2.1 ∈ [.number, .date, .time, .plus, .minus, .identifier, .unit] := by
    decide
  obtain ⟨known, begins, among⟩ := each _ signed
  rw [parseLine, tokens, ← text]
  refine parse_operand fuzzy (run_signed (run_written spelled named 197 1 _) known) begins ?_
  refine List.forall_mem_cons.2 ⟨among, ?_⟩
  rcases named with kind | ⟨kind, _⟩ <;> simp [kind]

end NotepadCalculator
