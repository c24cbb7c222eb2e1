import NotepadCalculator.Proofs.ParsedTrees

/-!
Where parse errors point. The cause of an error is a token, and it points to where that begins, or
the end of the line, which is taken to be where the last token ends. That is counted from what the
token says, and so it falls short of the source text by what the token leaves out of it: the quotes
of a text, the colon of a command, and the spaces between a time and am or pm.
-/
namespace NotepadCalculator
open Text

namespace Scan

/-! Ends of tokens. -/

/-- How much of its source text a token leaves out. -/
def unsaid : TokenKind → List Char → Nat
  | .text, _ => 2
  | .command, _ => 1
  | .time, source => source.count ' '
  | _, _ => 0

theorem unsaid_of_isVerbatim {kind : TokenKind} (plain : isVerbatim kind = true)
    (source : List Char) : unsaid kind source = 0 := by
  cases kind with
  | text | time | command => contradiction
  | _ => rfl

theorem count_space_clock {clock : List Char} (digits : ∀ c ∈ clock, isDigit c = true ∨ c = ':') :
    clock.count ' ' = 0 := by
  rw [List.count_eq_zero]
  intro member
  have other : ¬ (isDigit ' ' = true ∨ ' ' = ':') := by decide
  exact other (digits ' ' member)

theorem count_space_meridiem {half : List Char}
    (meridiem : half.map asciiLower = ['a', 'm'] ∨ half.map asciiLower = ['p', 'm']) :
    half.count ' ' = 0 := by
  rw [List.count_eq_zero]
  intro member
  have lowered : asciiLower ' ' ∈ half.map asciiLower := List.mem_map_of_mem member
  rcases meridiem with am | pm
  · rw [am] at lowered
    exact absurd lowered (by decide)
  · rw [pm] at lowered
    exact absurd lowered (by decide)

theorem length_of_spelling {kind : TokenKind} {source text : List Char}
    (spelling : Spelling kind source text) (readable : kind ≠ .error) :
    text.length + unsaid kind source = source.length := by
  cases spelling with
  | verbatim plain => rw [unsaid_of_isVerbatim plain, Nat.add_zero]
  | quoted inside => simp [unsaid]
  | command => simp [unsaid]
  | clock digits =>
    simp only [unsaid]
    rw [count_space_clock digits, Nat.add_zero]
  | @halfDay clock gap half digits spaces meridiem =>
    have gaps : gap.count ' ' = gap.length := List.count_eq_length.2 fun c member =>
      (spaces c member).symm
    simp only [unsaid, List.count_append, List.length_append, List.length_map, gaps,
      count_space_clock digits, count_space_meridiem meridiem]
    omega
  | unclosed inside => contradiction
  | unexpected other => contradiction

theorem exists_spans (line : String) : ∃ finish, Spans line.toList 0 (lexemes line) finish := by
  have covered : Covered 0 line.toList (lexemes line) :=
    covered_lexemesFuel _ _ (Nat.le_of_eq String.length_toList)
  exact spans_of_covered covered [] rfl

theorem stop_of_mem_lexemes {line : String} {span : Lexeme} (member : span ∈ lexemes line)
    (readable : span.token.kind ≠ .error) :
    span.token.stop + unsaid span.token.kind (span.source line.toList) = span.stop := by
  obtain ⟨finish, spans⟩ := exists_spans line
  have spelled := length_of_spelling (spans.spelled span member) readable
  have within := (spans.within span member).2.2
  have bounds := spans.bounds.2
  have width : (span.source line.toList).length = span.width := by
    simp only [Lexeme.source, Lexeme.stop, List.length_take, List.length_drop] at within ⊢
    omega
  rw [width, String.length_toList] at spelled
  simp only [Token.stop, Lexeme.stop]
  omega

theorem within_of_mem_lexemes {line : String} {span : Lexeme} (member : span ∈ lexemes line) :
    span.token.position < span.stop ∧ span.stop ≤ line.length := by
  obtain ⟨finish, spans⟩ := exists_spans line
  have within := (spans.within span member).2
  have bounds := spans.bounds.2
  rw [String.length_toList] at bounds
  omega

end Scan

/-! Causes of errors. -/

open Grammar Scan

theorem stop_of_getLast {tokens : List Token} {last : Token} (ends : tokens.getLast? = some last) :
    (Cursor.ofTokens tokens).stop = last.stop := by
  simp [Cursor.ofTokens, ends]

theorem causes_vocabulary (tokens : List Token) :
    Vocabulary (fun t => t ∈ tokens ∨ t = .eof (Cursor.ofTokens tokens).stop)
      (fun e => (∃ t ∈ tokens, t.CanCause e.fault ∧ e.position = t.position) ∨
        e.position = (Cursor.ofTokens tokens).stop)
      (fun _ => True) where
  faults := by
    intro t known fault causes
    rcases known with member | rfl
    · exact .inl ⟨t, member, causes, rfl⟩
    · exact .inr rfl
  amounts _ _ _ _ _ := trivial
  one := trivial
  two := trivial
  hundred := trivial
  threeQuarters := trivial

/-- What cannot be read at all is reported first, so that the end of the line is to blame only where
    all tokens can be read. -/
theorem cause_of_error {fuzzy : Bool} {tokens : List Token} {e : ParseError}
    (failed : parse fuzzy tokens = .error e) :
    (∃ t ∈ tokens, t.CanCause e.fault ∧ e.position = t.position) ∨
      (∀ t ∈ tokens, t.kind ≠ .error) ∧ ∃ last ∈ tokens.getLast?, e.position = last.stop := by
  have known : (Cursor.ofTokens tokens).Holds
      fun t => t ∈ tokens ∨ t = .eof (Cursor.ofTokens tokens).stop :=
    ⟨fun t member => .inl member, .inr rfl⟩
  have admissible := parse_admissible (causes_vocabulary tokens) fuzzy known
  rw [failed] at admissible
  rcases admissible with token | ended
  · exact .inl token
  · cases found : tokens.find? (·.kind = .error) with
    | some t =>
      left
      have unreadable : parse fuzzy tokens = .error ⟨.unreadable t.text, t.position⟩ := by
        simp only [parse, found]
      obtain rfl := Except.error.inj (failed.symm.trans unreadable)
      exact ⟨t, List.mem_of_find?_eq_some found, t.canCause_of_inside rfl, rfl⟩
    | none =>
      right
      have readable : ∀ t ∈ tokens, t.kind ≠ .error := by simpa using found
      cases last : tokens.getLast? with
      | none =>
        -- A line without tokens is blank.
        rw [List.getLast?_eq_none_iff.1 last] at failed
        contradiction
      | some t =>
        rw [stop_of_getLast last] at ended
        exact ⟨readable, t, rfl, ended⟩

theorem cause_in_line {fuzzy : Bool} {line : String} {e : ParseError}
    (failed : parseLine fuzzy line = .error e) :
    (e.fault.isEnd = false ∧ ∃ span ∈ lexemes line, e.position = span.token.position) ∨
      ∃ span ∈ (lexemes line).getLast?,
        e.position + unsaid span.token.kind (span.source line.toList) = span.stop := by
  rcases cause_of_error failed with ⟨t, member, causes, here⟩ | ⟨readable, last, ends, here⟩
  · left
    obtain ⟨span, among, rfl⟩ := List.mem_map.1 member
    have kind := (tokenize_lexical line span.token member).1
    refine ⟨?_, span, among, here⟩
    rw [Bool.eq_false_iff]
    exact fun ends => kind (causes ends)
  · right
    rw [tokenize, List.getLast?_map, Option.mem_def, Option.map_eq_some_iff] at ends
    obtain ⟨span, ends, rfl⟩ := ends
    have among : span ∈ lexemes line := List.mem_of_getLast? ends
    refine ⟨span, ends, ?_⟩
    rw [here]
    exact stop_of_mem_lexemes among (readable _ (List.mem_map_of_mem among))

/-- An error points to where a token begins or to where the last one ends, and in a line it points
    to a character or just behind the last one. -/
theorem parse_error_position (fuzzy : Bool) :
    (∀ tokens e, parse fuzzy tokens = .error e → (∃ t ∈ tokens, e.position = t.position) ∨
      e.position = (tokens.getLast?.map (·.stop)).getD 0) ∧
    ∀ line e, parseLine fuzzy line = .error e → e.position ≤ line.length := by
  constructor
  · intro tokens e failed
    rcases cause_of_error failed with ⟨t, member, -, here⟩ | ⟨-, last, ends, here⟩
    · exact .inl ⟨t, member, here⟩
    · right
      rw [Option.mem_def.1 ends, here]
      rfl
  · intro line e failed
    rcases cause_in_line failed with ⟨-, span, member, here⟩ | ⟨span, ends, here⟩
    · have within := within_of_mem_lexemes member
      omega
    · have within := within_of_mem_lexemes (List.mem_of_getLast? ends)
      omega

theorem parse_error_position_apart :
    parse true [⟨.plus, "+", 7⟩] = .error ⟨.unexpectedEnd, 8⟩ ∧
      ((∃ t ∈ [(⟨.plus, "+", 7⟩ : Token)], 8 = t.position) ∨
        8 = ([(⟨.plus, "+", 7⟩ : Token)].getLast?.map (·.stop)).getD 0) ∧
      parseLine true "1 + * 2" = .error ⟨.unexpected "*", 4⟩ ∧ 4 ≤ "1 + * 2".length := by
  have missing : parse true [⟨.plus, "+", 7⟩] = .error ⟨.unexpectedEnd, 8⟩ := by rfl
  have stray : parseLine true "1 + * 2" = .error ⟨.unexpected "*", 4⟩ := by rfl
  have points := parse_error_position true
  exact ⟨missing, points.1 _ _ missing, stray, points.2 _ _ stray⟩

/-- A token ends where its source text does, less what the token leaves out of it. What is missing
    at the end of a line is reported where the last token ends, and so is all else that no token of
    the line causes. -/
theorem lexemes_stop (line : String) :
    (∀ span ∈ lexemes line, span.token.kind ≠ .error →
      span.token.stop + unsaid span.token.kind (span.source line.toList) = span.stop) ∧
    ∀ fuzzy e, parseLine fuzzy line = .error e →
      (e.fault.isEnd = false ∧ ∃ span ∈ lexemes line, e.position = span.token.position) ∨
        ∃ span ∈ (lexemes line).getLast?,
          e.position + unsaid span.token.kind (span.source line.toList) = span.stop := by
  constructor
  · intro span member readable
    exact stop_of_mem_lexemes member readable
  · intro fuzzy e failed
    exact cause_in_line failed

theorem lexemes_stop_clock :
    let span : Lexeme := ⟨⟨.time, "9:05pm", 1⟩, 8⟩
    lexemes "(9:05  pm" = [⟨⟨.openParen, "(", 0⟩, 1⟩, span] ∧
      span.token.stop + unsaid .time (span.source "(9:05  pm".toList) = span.stop ∧
      parseLine true "(9:05  pm" = .error ⟨.expected .closing none, 7⟩ ∧
      7 + unsaid .time (span.source "(9:05  pm".toList) = span.stop := by
  intro span
  have spans : lexemes "(9:05  pm" = [⟨⟨.openParen, "(", 0⟩, 1⟩, span] := by decide +kernel
  have failed : parseLine true "(9:05  pm" = .error ⟨.expected .closing none, 7⟩ := by rfl
  obtain ⟨each, causes⟩ := lexemes_stop "(9:05  pm"
  rw [spans] at each causes
  refine ⟨spans, each span (by simp) (by decide), failed, ?_⟩
  rcases causes true _ failed with ⟨inside, -⟩ | ⟨last, ends, here⟩
  · contradiction
  · obtain rfl := Option.some.inj ends
    exact here

/-- The end of a text is taken to lie inside of its quotes, and so is the end of a line with it. -/
theorem text_stop_inside :
    lexemes "(\"a\"" = [⟨⟨.openParen, "(", 0⟩, 1⟩, ⟨⟨.text, "a", 1⟩, 3⟩] ∧
      (¬ ∀ span ∈ lexemes "(\"a\"", span.token.kind ≠ .error → span.token.stop = span.stop) ∧
      parseLine true "(\"a\"" = .error ⟨.expected .closing none, 2⟩ := by
  have spans : lexemes "(\"a\"" = [⟨⟨.openParen, "(", 0⟩, 1⟩, ⟨⟨.text, "a", 1⟩, 3⟩] := by
    decide +kernel
  refine ⟨spans, ?_, by rfl⟩
  intro ends
  rw [spans] at ends
  have inside := ends ⟨⟨.text, "a", 1⟩, 3⟩ (by simp) (by decide)
  exact absurd inside (by decide)

end NotepadCalculator
