import Mathlib.Logic.ExistsUnique
import NotepadCalculator.Token.Scan

/-!
The source texts of tokens. From its first blank to a comment or to its end a line splits into
blanks and source texts, one for each token in order, and the source text decides what the token
says. Lexemes carry the width of their source text, so they are the spans of the line.
-/
namespace NotepadCalculator.Scan
open NotepadCalculator.Text

def isVerbatim : TokenKind → Bool
  | .text | .time | .command | .error | .eof => false
  | _ => true

def unterminated : List Char := "Unterminated string".toList
def unexpected (c : Char) : List Char := "Unexpected character: ".toList ++ [c]

/-- What a token of some kind says about its source text. -/
inductive Spelling : TokenKind → List Char → List Char → Prop where
  | verbatim {kind : TokenKind} {source : List Char} (plain : isVerbatim kind = true) :
      Spelling kind source source
  | quoted {body : List Char} (inside : '"' ∉ body) : Spelling .text ('"' :: body ++ ['"']) body
  | unclosed {body : List Char} (inside : '"' ∉ body) : Spelling .error ('"' :: body) unterminated
  | command {name : List Char} : Spelling .command (':' :: name) name
  | clock {clock : List Char} (digits : ∀ c ∈ clock, isDigit c = true ∨ c = ':') :
      Spelling .time clock clock
  | halfDay {clock gap half : List Char} (digits : ∀ c ∈ clock, isDigit c = true ∨ c = ':')
      (spaces : ∀ c ∈ gap, c = ' ')
      (meridiem : half.map asciiLower = ['a', 'm'] ∨ half.map asciiLower = ['p', 'm']) :
      Spelling .time (clock ++ gap ++ half) (clock ++ half.map asciiLower)
  | unexpected {c : Char} (other : c ≠ '"') : Spelling .error [c] (unexpected c)

/-- The reading takes up some source text at the start, and all there is if that has no end. -/
structure Takes (r : Reading) (source rest : List Char) : Prop where
  width : r.width = source.length
  nonempty : source ≠ []
  spelled : Spelling r.kind source r.text
  unclosed : r.kind = .error → r.text = unterminated → rest = []

def TakesFrom (r : Reading) (cs : List Char) : Prop :=
  ∃ source rest, cs = source ++ rest ∧ Takes r source rest

/-! Readers. -/

theorem takesFrom_initial {r : Reading} {source cs : List Char} (initial : source <+: cs)
    (width : r.width = source.length) (nonempty : source ≠ [])
    (spelled : Spelling r.kind source r.text) (fine : r.kind ≠ .error) : TakesFrom r cs := by
  obtain ⟨rest, rfl⟩ := initial
  exact ⟨source, rest, rfl, width, nonempty, spelled, fun error => absurd error fine⟩

theorem takesFrom_verbatim {kind : TokenKind} {source cs : List Char} (initial : source <+: cs)
    (nonempty : source ≠ []) (plain : isVerbatim kind = true) :
    TakesFrom ⟨kind, source, source.length⟩ cs := by
  refine takesFrom_initial initial rfl nonempty (.verbatim plain) ?_
  rintro rfl
  simp [isVerbatim] at plain

theorem takeWhile_cons_ne_nil {p : Char → Bool} {c : Char} {rest : List Char}
    (first : p c = true) : (c :: rest).takeWhile p ≠ [] := by simp [first]

theorem mem_takeWhile {p : Char → Bool} {c : Char} {cs : List Char}
    (member : c ∈ cs.takeWhile p) : p c = true :=
  List.all_eq_true.1 (List.all_takeWhile ..) c member

theorem prefix_append_drop {first second cs : List Char} (initial : first <+: cs)
    (next : second <+: cs.drop first.length) : first ++ second <+: cs := by
  obtain ⟨rest, rfl⟩ := initial
  rw [List.drop_left] at next
  exact (List.prefix_append_right_inj first).2 next

theorem cons_takeWhile_initial (c : Char) (p : Char → Bool) (rest : List Char) :
    c :: rest.takeWhile p <+: c :: rest :=
  List.cons_prefix_cons.2 ⟨rfl, _, List.takeWhile_append_dropWhile⟩

theorem clockField_initial (cs : List Char) : clockField cs <+: cs := by
  cases cs with
  | nil => exact ⟨_, rfl⟩
  | cons colon rest => exact cons_takeWhile_initial colon isDigit rest

theorem clockField_digits {cs : List Char} (starts : colonAndTwoDigits cs = true) :
    ∀ c ∈ clockField cs, isDigit c = true ∨ c = ':' := by
  unfold colonAndTwoDigits at starts
  split at starts
  · simp only [clockField]
    intro c member
    rcases List.mem_cons.1 member with rfl | digit
    · exact .inr rfl
    · exact .inl (mem_takeWhile digit)
  · contradiction

theorem startsMeridiem_lowered {cs : List Char} (starts : startsMeridiem cs = true) :
    (cs.take 2).length = 2 ∧
      ((cs.take 2).map asciiLower = ['a', 'm'] ∨ (cs.take 2).map asciiLower = ['p', 'm']) := by
  unfold startsMeridiem at starts
  split at starts
  · simp only [Bool.and_eq_true, Bool.or_eq_true, decide_eq_true_eq] at starts
    obtain ⟨⟨first | first, second⟩, _⟩ := starts
    · exact ⟨by simp, .inl (by simp [first, second])⟩
    · exact ⟨by simp, .inr (by simp [first, second])⟩
  · contradiction

/-- A clock time with the spaces and the half day after it. -/
theorem takesFrom_halfDay {clock cs : List Char} (gap : List Char) (initial : clock ++ gap <+: cs)
    (digits : ∀ c ∈ clock, isDigit c = true ∨ c = ':') (spaces : ∀ c ∈ gap, c = ' ')
    (starts : startsMeridiem (cs.drop (clock ++ gap).length) = true) :
    TakesFrom ⟨.time, clock ++ ((cs.drop (clock ++ gap).length).take 2).map asciiLower,
      clock.length + gap.length + 2⟩ cs := by
  obtain ⟨two, lowered⟩ := startsMeridiem_lowered starts
  have whole := prefix_append_drop initial ⟨_, List.take_append_drop 2 _⟩
  generalize (cs.drop (clock ++ gap).length).take 2 = half at two lowered whole
  refine takesFrom_initial whole ?_ ?_ (.halfDay digits spaces lowered) (by simp)
  · simp only [List.length_append, two]
  · intro none
    simp [(List.append_eq_nil_iff.1 none).2] at two

theorem takesFrom_readClock {cs : List Char} (starts : startsClock cs = true) :
    TakesFrom (readClock cs) cs := by
  simp only [startsClock, Bool.and_eq_true, Bool.or_eq_true, decide_eq_true_eq] at starts
  obtain ⟨hours, minutes⟩ := starts
  unfold readClock
  extract_lets hour minute rest second clock after gap half
  have hourMinute : hour ++ minute <+: cs :=
    prefix_append_drop ⟨_, List.takeWhile_append_dropWhile⟩ (clockField_initial _)
  have seconds : second <+: cs.drop (hour ++ minute).length ∧
      ∀ c ∈ second, isDigit c = true ∨ c = ':' := by
    by_cases more : colonAndTwoDigits rest = true
    · have field : second = clockField rest := if_pos more
      rw [field, List.length_append]
      exact ⟨clockField_initial rest, clockField_digits more⟩
    · have none : second = [] := if_neg more
      simp [none]
  have initial : clock <+: cs := prefix_append_drop hourMinute seconds.1
  have digits : ∀ c ∈ clock, isDigit c = true ∨ c = ':' := by
    intro c member
    rcases List.mem_append.1 member with early | late
    · rcases List.mem_append.1 early with digit | field
      · exact .inl (mem_takeWhile digit)
      · exact clockField_digits minutes c field
    · exact seconds.2 c late
  have nonempty : clock ≠ [] := by
    intro none
    have : hour.length = 0 := by simp_all [clock]
    have : hour.length = 1 ∨ hour.length = 2 := hours
    omega
  split
  · rename_i meridiem
    have spaces : ∀ c ∈ after.takeWhile (· = ' '), c = ' ' :=
      fun c member => by simpa using mem_takeWhile member
    have spaced : clock ++ after.takeWhile (· = ' ') <+: cs :=
      prefix_append_drop initial ⟨_, List.takeWhile_append_dropWhile⟩
    have same : half = cs.drop (clock ++ after.takeWhile (· = ' ')).length := by
      simp only [half, after, gap, List.drop_drop, List.length_append]
    rw [same] at meridiem ⊢
    exact takesFrom_halfDay _ spaced digits spaces meridiem
  · exact takesFrom_initial initial rfl nonempty (.clock digits) (by simp)

theorem fraction_initial (cs : List Char) : fraction cs <+: cs := by
  unfold fraction
  split
  · split
    · exact cons_takeWhile_initial _ _ _
    · exact ⟨_, rfl⟩
  · exact ⟨_, rfl⟩

theorem exponent_initial (cs : List Char) : exponent cs <+: cs := by
  unfold exponent
  split
  · rename_i mark rest
    extract_lets sign body
    have signed : sign <+: rest := by
      simp only [sign]
      split
      · exact List.cons_prefix_cons.2 ⟨rfl, _, rfl⟩
      · exact List.cons_prefix_cons.2 ⟨rfl, _, rfl⟩
      · exact ⟨_, rfl⟩
    split
    · rw [List.cons_append, List.cons_prefix_cons]
      exact ⟨rfl, prefix_append_drop signed ⟨_, List.takeWhile_append_dropWhile⟩⟩
    · exact ⟨_, rfl⟩
  · exact ⟨_, rfl⟩

theorem numberText_initial (cs : List Char) : numberText cs <+: cs := by
  unfold numberText
  extract_lets whole places power
  have decimal : whole ++ places <+: cs :=
    prefix_append_drop ⟨_, List.takeWhile_append_dropWhile⟩ (fraction_initial _)
  refine prefix_append_drop decimal ?_
  rw [List.length_append]
  exact exponent_initial _

theorem numberText_ne_nil {c : Char} {rest : List Char}
    (starts : (isDigit c || (c = '.' && startsDigit rest)) = true) :
    numberText (c :: rest) ≠ [] := by
  by_cases digit : isDigit c = true
  · simp [numberText, digit]
  · simp only [digit, Bool.false_or, Bool.and_eq_true, decide_eq_true_eq] at starts
    obtain ⟨rfl, digits⟩ := starts
    simp [numberText, digit, fraction, digits]

theorem takesFrom_readNumber {c : Char} {rest : List Char}
    (starts : (isDigit c || (c = '.' && startsDigit rest)) = true) :
    TakesFrom (readNumber (c :: rest)).1 (c :: rest) := by
  have initial := numberText_initial (c :: rest)
  unfold readNumber
  extract_lets number after
  split
  · rename_i hour
    simp only [Bool.and_eq_true, List.all_eq_true] at hour
    have taken := takesFrom_halfDay [] (by simpa using initial)
      (fun c member => .inl (hour.1 c member)) (by simp) (by simpa using hour.2)
    simpa only [List.append_nil, List.length_nil, Nat.add_zero] using taken
  · exact takesFrom_verbatim initial (numberText_ne_nil starts) rfl

theorem takesFrom_readText (rest : List Char) : TakesFrom (readText rest) ('"' :: rest) := by
  have inside : '"' ∉ rest.takeWhile (· ≠ '"') := fun member => by
    simpa using mem_takeWhile member
  have parts : rest.takeWhile (· ≠ '"') ++ rest.dropWhile (· ≠ '"') = rest :=
    List.takeWhile_append_dropWhile
  have stopped := List.head?_dropWhile_not (fun c => decide (c ≠ '"')) rest
  unfold readText
  generalize rest.takeWhile (· ≠ '"') = body at inside parts ⊢
  generalize rest.dropWhile (· ≠ '"') = after at parts stopped
  subst parts
  cases after with
  | nil =>
    rw [if_neg (by simp)]
    exact ⟨'"' :: body, [], by simp, rfl, by simp, .unclosed inside, fun _ _ => rfl⟩
  | cons quote later =>
    obtain rfl : quote = '"' := by simpa using stopped
    rw [if_pos (by simp)]
    exact takesFrom_initial ⟨later, by simp⟩ (by simp) (by simp) (.quoted inside) (by simp)

theorem isVerbatim_operator {c : Char} {kind : TokenKind} (known : operator? c = some kind) :
    isVerbatim kind = true := by
  unfold operator? at known
  split at known <;> first | contradiction | (obtain rfl := Option.some.inj known; rfl)

theorem takesFrom_readWord (glued : Bool) {c : Char} {rest : List Char}
    (starts : isWordChar c = true) : TakesFrom (readWord glued (c :: rest)) (c :: rest) := by
  unfold readWord
  extract_lets word kind
  refine takesFrom_verbatim ⟨_, List.takeWhile_append_dropWhile⟩
    (takeWhile_cons_ne_nil starts) ?_
  simp only [kind]
  split
  · rfl
  · split <;> rfl

theorem unexpected_ne_unterminated (c : Char) : unexpected c ≠ unterminated := by
  unfold unexpected unterminated
  simp

theorem takesFrom_readPlain (glued : Bool) (c : Char) (rest : List Char) :
    TakesFrom (readPlain glued c rest).1 (c :: rest) := by
  unfold readPlain
  split
  · rename_i kind known
    exact takesFrom_verbatim ⟨rest, rfl⟩ (List.cons_ne_nil _ _) (isVerbatim_operator known)
  · split
    · rename_i quote
      exact quote ▸ takesFrom_readText rest
    rename_i noQuote
    split
    · exact takesFrom_verbatim (cons_takeWhile_initial c isWordChar rest) (List.cons_ne_nil _ _)
        rfl
    split
    · rename_i number
      split
      · rename_i date
        -- Ten characters are there, as the pattern of a date has as many.
        have ten : ((c :: rest).take 10).length = 10 := by
          unfold startsDate at date
          split at date
          · rename_i shape
            rw [shape]
            simp
          · contradiction
        have taken : TakesFrom ⟨.date, (c :: rest).take 10, ((c :: rest).take 10).length⟩ _ :=
          takesFrom_verbatim ⟨_, List.take_append_drop ..⟩ (by simp) rfl
        rwa [ten] at taken
      split
      · rename_i clock
        exact takesFrom_readClock clock
      · exact takesFrom_readNumber number
    split
    · rename_i letter
      refine takesFrom_readWord glued ?_
      simp only [isWordChar, Bool.or_eq_true] at letter ⊢
      exact letter.imp_left .inl
    · refine ⟨[c], rest, rfl, rfl, by simp, .unexpected noQuote, fun _ same => ?_⟩
      exact absurd same (unexpected_ne_unterminated c)

theorem takesFrom_read (mode : Mode) (glued : Bool) {c : Char} {rest : List Char}
    (visible : isBlank c = false) : TakesFrom (read mode glued c rest).1 (c :: rest) := by
  have command : TakesFrom (readCommand rest).1 (':' :: rest) :=
    takesFrom_initial (cons_takeWhile_initial ':' isWordChar rest) rfl (List.cons_ne_nil _ _)
      .command (by simp [readCommand])
  unfold read
  split
  · unfold readArgument
    extract_lets argument
    have nonempty : argument ≠ [] := takeWhile_cons_ne_nil (by simp [visible])
    exact takesFrom_verbatim ⟨_, List.takeWhile_append_dropWhile⟩ nonempty rfl
  · split
    · rename_i colon
      exact colon ▸ command
    · exact takesFrom_readPlain glued c rest
  · exact takesFrom_readPlain glued c rest

/-! Lines. -/

theorem takeWhile_left {p : Char → Bool} {cs rest : List Char} (inside : ∀ c ∈ cs, p c = true)
    (ends : rest.head?.any p = false) : (cs ++ rest).takeWhile p = cs := by
  rw [List.takeWhile_append_of_pos inside]
  cases rest with
  | nil => simp
  | cons c rest => simp [show p c = false from ends]

theorem lexemesFuel_nil (fuel : Nat) (mode : Mode) (position : Nat) :
    lexemesFuel fuel mode position [] = [] := by
  cases fuel <;> rfl

theorem lexemesFuel_succ (fuel position : Nat) (mode : Mode) (blank : List Char)
    (blanks : ∀ c ∈ blank, isBlank c = true) {c : Char} {rest : List Char}
    (visible : isBlank c = false) (noComment : ¬ ['/', '/'] <+: c :: rest) :
    lexemesFuel (fuel + 1) mode position (blank ++ c :: rest) =
      let (reading, next) := read mode (isGlued mode (blank ++ c :: rest)) c rest
      ⟨⟨reading.kind, String.ofList reading.text, position + blank.length⟩, reading.width⟩ ::
        lexemesFuel fuel next (position + blank.length + reading.width)
          ((c :: rest).drop reading.width) := by
  have skipped : (blank ++ c :: rest).takeWhile isBlank = blank := takeWhile_left blanks visible
  rw [lexemesFuel]
  simp only [skipped, List.drop_left]
  split
  · contradiction
  · rename_i same
    obtain ⟨rfl, rfl⟩ := List.cons.inj same
    exact absurd (by simp) noComment
  · rename_i same
    obtain ⟨rfl, rfl⟩ := List.cons.inj same
    rfl

theorem lexemesFuel_read (fuel position : Nat) (mode : Mode) (blank : List Char)
    (blanks : ∀ c ∈ blank, isBlank c = true) {c : Char} {rest : List Char}
    (visible : isBlank c = false) (noComment : ¬ ['/', '/'] <+: c :: rest)
    (apart : isGlued mode (blank ++ c :: rest) = false) :
    lexemesFuel (fuel + 1) mode position (blank ++ c :: rest) =
      let (reading, next) := read mode false c rest
      ⟨⟨reading.kind, String.ofList reading.text, position + blank.length⟩, reading.width⟩ ::
        lexemesFuel fuel next (position + blank.length + reading.width)
          ((c :: rest).drop reading.width) := by
  rw [lexemesFuel_succ fuel position mode blank blanks visible noComment, apart]

theorem lexemesFuel_spaced (fuel position : Nat) (mode : Mode) {c : Char} {rest : List Char}
    (visible : isBlank c = false) (noComment : ¬ ['/', '/'] <+: c :: rest) :
    lexemesFuel (fuel + 1) mode position (' ' :: c :: rest) =
      let (reading, next) := read mode false c rest
      ⟨⟨reading.kind, String.ofList reading.text, position + 1⟩, reading.width⟩ ::
        lexemesFuel fuel next (position + 1 + reading.width) ((c :: rest).drop reading.width) := by
  have noLetter : isLetter ' ' = false := by decide
  have blanks : ∀ c ∈ [' '], isBlank c = true := List.forall_mem_singleton.2 (by decide)
  exact lexemesFuel_read fuel position mode [' '] blanks visible noComment
    (by simp [isGlued, noLetter])

theorem lexemesFuel_unspaced (fuel position : Nat) (mode : Mode) {c : Char} (rest : List Char)
    (visible : isBlank c = false) (noComment : ¬ ['/', '/'] <+: c :: rest)
    (apart : isGlued mode (c :: rest) = false) :
    lexemesFuel (fuel + 1) mode position (c :: rest) =
      let (reading, next) := read mode false c rest
      ⟨⟨reading.kind, String.ofList reading.text, position⟩, reading.width⟩ ::
        lexemesFuel fuel next (position + reading.width) ((c :: rest).drop reading.width) :=
  lexemesFuel_read fuel position mode [] (by simp) visible noComment apart

/-- Blanks, source texts for all lexemes, and a comment at last if there is one. -/
inductive Covered : Nat → List Char → List Lexeme → Prop where
  | ended {position : Nat} {blank : List Char} (blanks : ∀ c ∈ blank, isBlank c = true) :
      Covered position blank []
  | comment {position : Nat} {blank rest : List Char} (blanks : ∀ c ∈ blank, isBlank c = true) :
      Covered position (blank ++ '/' :: '/' :: rest) []
  | next {position : Nat} {blank source rest : List Char} {r : Reading} {later : List Lexeme}
      (blanks : ∀ c ∈ blank, isBlank c = true) (takes : Takes r source rest)
      (covered : Covered (position + blank.length + r.width) rest later) :
      Covered position (blank ++ (source ++ rest))
        (⟨⟨r.kind, String.ofList r.text, position + blank.length⟩, r.width⟩ :: later)

theorem split_blanks (cs : List Char) :
    cs = cs.takeWhile isBlank ++ cs.drop (cs.takeWhile isBlank).length ∧
      ∀ c rest, cs.drop (cs.takeWhile isBlank).length = c :: rest → isBlank c = false := by
  have parts : cs.takeWhile isBlank ++ cs.dropWhile isBlank = cs := List.takeWhile_append_dropWhile
  have dropped := congrArg (List.drop (cs.takeWhile isBlank).length) parts
  rw [List.drop_left] at dropped
  have stopped := List.head?_dropWhile_not isBlank cs
  rw [← dropped]
  refine ⟨parts.symm, fun c rest visible => ?_⟩
  simpa [visible] using stopped

theorem covered_lexemesFuel {fuel : Nat} (mode : Mode) (position : Nat) {cs : List Char}
    (enough : cs.length ≤ fuel) : Covered position cs (lexemesFuel fuel mode position cs) := by
  induction fuel generalizing mode position cs with
  | zero =>
    obtain rfl := List.eq_nil_of_length_eq_zero (Nat.le_zero.1 enough)
    exact .ended (by simp)
  | succ fuel ih =>
    obtain ⟨parts, visible⟩ := split_blanks cs
    have blanks : ∀ c ∈ cs.takeWhile isBlank, isBlank c = true := fun c => mem_takeWhile
    unfold lexemesFuel
    dsimp only
    generalize isGlued mode cs = glued
    generalize cs.drop (cs.takeWhile isBlank).length = after at parts visible ⊢
    generalize cs.takeWhile isBlank = blank at parts blanks ⊢
    subst parts
    split
    · exact .ended (by simpa using blanks)
    · exact .comment blanks
    · rename_i c rest notComment
      obtain ⟨source, later, same, takes⟩ := takesFrom_read mode glued (visible c rest rfl)
      have positive := List.length_pos_iff.2 takes.nonempty
      generalize read mode glued c rest = result at takes
      rw [same, takes.width, List.drop_left, ← takes.width]
      refine .next blanks takes (ih _ _ ?_)
      simp only [List.length_append, same] at enough
      omega

/-! Spans. -/

def Lexeme.stop (span : Lexeme) : Nat := span.token.position + span.width

def Lexeme.Holds (span : Lexeme) (i : Nat) : Prop := span.token.position ≤ i ∧ i < span.stop

def Lexeme.source (span : Lexeme) (line : List Char) : List Char :=
  (line.drop span.token.position).take span.width

/-- The spans between two positions of a line, of which the second is its end or begins a
    comment. -/
structure Spans (chars : List Char) (start : Nat) (spans : List Lexeme) (finish : Nat) : Prop where
  bounds : start ≤ finish ∧ finish ≤ chars.length
  finished : finish = chars.length ∨ ['/', '/'] <+: chars.drop finish
  ordered : spans.Pairwise fun span next => span.stop ≤ next.token.position
  within : ∀ span ∈ spans,
    start ≤ span.token.position ∧ span.token.position < span.stop ∧ span.stop ≤ finish
  covers : ∀ i c, start ≤ i → i < finish → chars[i]? = some c →
    isBlank c = true ∨ ∃ span ∈ spans, span.Holds i
  spelled : ∀ span ∈ spans,
    Spelling span.token.kind (span.source chars) span.token.text.toList
  unclosed : ∀ span ∈ spans, span.token.kind = .error →
    span.token.text.toList = unterminated → span.stop = chars.length

theorem mem_of_between {before blank rest : List Char} {i : Nat} {c : Char}
    (from_ : before.length ≤ i) (below : i < before.length + blank.length)
    (here : (before ++ (blank ++ rest))[i]? = some c) : c ∈ blank := by
  rw [List.getElem?_append_right from_, List.getElem?_append_left (by omega)] at here
  exact List.mem_of_getElem? here

theorem spans_ended (before : List Char) {blank rest : List Char}
    (blanks : ∀ c ∈ blank, isBlank c = true) (ends : rest = [] ∨ ['/', '/'] <+: rest) :
    Spans (before ++ (blank ++ rest)) before.length [] (before.length + blank.length) where
  bounds := by
    simp only [List.length_append]
    omega
  finished := by
    rw [← List.append_assoc, ← List.length_append, List.drop_left]
    exact ends.imp_left fun none => by simp [none]
  ordered := .nil
  within := by simp
  covers := fun i c from_ below here => .inl (blanks c (mem_of_between from_ below here))
  spelled := by simp
  unclosed := by simp

theorem spans_next {before blank source rest : List Char} {r : Reading} {later : List Lexeme}
    {finish : Nat} (blanks : ∀ c ∈ blank, isBlank c = true) (takes : Takes r source rest)
    (spans : Spans (before ++ (blank ++ (source ++ rest)))
      (before.length + blank.length + r.width) later finish) :
    Spans (before ++ (blank ++ (source ++ rest))) before.length
      (⟨⟨r.kind, String.ofList r.text, before.length + blank.length⟩, r.width⟩ :: later)
      finish where
  bounds := by
    have := spans.bounds
    omega
  finished := spans.finished
  ordered :=
    List.pairwise_cons.2 ⟨fun next member => (spans.within next member).1, spans.ordered⟩
  within := by
    have positive := List.length_pos_iff.2 takes.nonempty
    have bounds := spans.bounds
    have width := takes.width
    refine List.forall_mem_cons.2 ⟨?_, fun span member => ?_⟩
    · simp only [Lexeme.stop]
      omega
    · have := spans.within span member
      omega
  covers := by
    intro i c from_ below here
    by_cases inBlank : i < before.length + blank.length
    · exact .inl (blanks c (mem_of_between from_ inBlank here))
    · by_cases inSource : i < before.length + blank.length + r.width
      · exact .inr ⟨_, List.mem_cons_self, by simp only; omega, inSource⟩
      · have later := spans.covers i c (by omega) below here
        exact later.imp_right fun ⟨span, member, holds⟩ =>
          ⟨span, List.mem_cons_of_mem _ member, holds⟩
  spelled := by
    refine List.forall_mem_cons.2 ⟨?_, spans.spelled⟩
    simp only [Lexeme.source, String.toList_ofList, takes.width]
    rw [← List.append_assoc, ← List.length_append, List.drop_left, List.take_left]
    exact takes.spelled
  unclosed := by
    refine List.forall_mem_cons.2 ⟨fun error text => ?_, spans.unclosed⟩
    have none := takes.unclosed error (by simpa using text)
    simp only [Lexeme.stop, takes.width, none, List.length_append, List.length_nil]
    omega

theorem spans_of_covered {position : Nat} {cs : List Char} {spans : List Lexeme}
    (covered : Covered position cs spans) :
    ∀ before, before.length = position →
      ∃ finish, Spans (before ++ cs) position spans finish := by
  induction covered with
  | @ended position blank blanks =>
    rintro before rfl
    have := spans_ended before blanks (.inl rfl)
    exact ⟨_, by rwa [List.append_nil] at this⟩
  | comment blanks =>
    rintro before rfl
    exact ⟨_, spans_ended before blanks (.inr (by simp))⟩
  | @next position blank source rest r later blanks takes covered ih =>
    rintro before rfl
    obtain ⟨finish, spans⟩ := ih (before ++ blank ++ source) (by simp [takes.width]; omega)
    simp only [List.append_assoc] at spans
    exact ⟨finish, spans_next blanks takes spans⟩

theorem holds_unique {spans : List Lexeme}
    (ordered : spans.Pairwise fun span next => span.stop ≤ next.token.position)
    {i : Nat} {span other : Lexeme} (member : span ∈ spans) (among : other ∈ spans)
    (holds : span.Holds i) (alsoHolds : other.Holds i) : other = span := by
  simp only [Lexeme.Holds] at holds alsoHolds
  induction spans with
  | nil => simp at member
  | cons first rest ih =>
    obtain ⟨above, tail⟩ := List.pairwise_cons.1 ordered
    rcases List.mem_cons.1 member with here | later
    · rcases List.mem_cons.1 among with alsoHere | alsoLater
      · rw [here, alsoHere]
      · have := above other alsoLater
        subst here
        omega
    · rcases List.mem_cons.1 among with alsoHere | alsoLater
      · have := above span later
        subst alsoHere
        omega
      · exact ih tail later alsoLater

end NotepadCalculator.Scan

namespace NotepadCalculator
open Scan Text

/-- The tokens of a line have source texts in order and apart from one another, which decide what
    the tokens say. All else before the comment, or before the end of a line without one, is blank,
    and text whose closing quote is missing takes up the rest of the line. -/
theorem tokenize_spans (line : String) : ∃ (spans : List Lexeme) (finish : Nat),
    spans.map (·.token) = tokenize line ∧
    finish ≤ line.length ∧ (finish = line.length ∨ ['/', '/'] <+: line.toList.drop finish) ∧
    (spans.Pairwise fun span next => span.stop ≤ next.token.position) ∧
    (∀ span ∈ spans, span.token.position < span.stop ∧ span.stop ≤ finish ∧
      Spelling span.token.kind (span.source line.toList) span.token.text.toList ∧
      (span.token.kind = .error → span.token.text.toList = unterminated →
        span.stop = line.length)) ∧
    ∀ i c, i < finish → line.toList[i]? = some c →
      isBlank c = true ∨ ∃! span, span ∈ spans ∧ span.Holds i := by
  have length : line.toList.length = line.length := String.length_toList
  have covered : Covered 0 line.toList (lexemes line) :=
    covered_lexemesFuel _ _ (Nat.le_of_eq length)
  obtain ⟨finish, spans⟩ := spans_of_covered covered [] rfl
  rw [List.nil_append] at spans
  refine ⟨lexemes line, finish, rfl, length ▸ spans.bounds.2, length ▸ spans.finished,
    spans.ordered, ?_, ?_⟩
  · intro span member
    obtain ⟨_, nonempty, inside⟩ := spans.within span member
    exact ⟨nonempty, inside, spans.spelled span member, length ▸ spans.unclosed span member⟩
  · intro i c below here
    apply (spans.covers i c (Nat.zero_le i) below here).imp_right
    rintro ⟨span, member, holds⟩
    refine ⟨span, ⟨member, holds⟩, ?_⟩
    rintro other ⟨among, alsoHolds⟩
    exact holds_unique spans.ordered member among holds alsoHolds

end NotepadCalculator
