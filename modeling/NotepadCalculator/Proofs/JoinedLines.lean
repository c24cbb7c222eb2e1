import NotepadCalculator.Proofs.ScannedLines

/-!
Two texts one behind the other. Every look-ahead of the scanner ends at a character that no word,
number, date or time goes on with, such as a space, a slash or a parenthesis, just as it ends where
the text does. So what stands behind such a character leaves the tokens before it as they are, apart
from what is still open: a text without its closing quote, an argument of a command, and a time that
waits for am or pm.
-/
namespace NotepadCalculator
open Text

namespace Scan

def isBreak (c : Char) : Bool := !(isWordChar c || ['.', ':', '-', '+'].contains c)

/-- Nothing follows, or a character that no token goes on with. -/
def Breaks (tail : List Char) : Prop := ∀ c ∈ tail.head?, isBreak c = true

def behindSpaces (cs : List Char) : List Char := cs.drop (cs.takeWhile (· = ' ')).length

variable {tail : List Char}

theorem Breaks.ends {p : Char → Bool} (breaks : Breaks tail)
    (joins : ∀ c, p c = true → isBreak c = false) : tail.head?.any p = false := by
  cases tail with
  | nil => rfl
  | cons c tail =>
    rw [Bool.eq_false_iff]
    intro goesOn
    have broken := breaks c rfl
    rw [joins c goesOn] at broken
    contradiction

theorem Breaks.head_ne {c d : Char} (breaks : Breaks (c :: tail)) (joined : isBreak d = false) :
    c ≠ d := by
  intro same
  rw [← same, breaks c rfl] at joined
  contradiction

theorem isBreak_of_word {c : Char} (word : isWordChar c = true) : isBreak c = false := by
  simp [isBreak, word]

theorem isBreak_of_digit {c : Char} (digit : isDigit c = true) : isBreak c = false :=
  isBreak_of_word (isWordChar_of_isDigit digit)

/-! Prefixes. -/

theorem takeWhile_cut {p : Char → Bool} (ends : tail.head?.any p = false) (cs : List Char) :
    (cs ++ tail).takeWhile p = cs.takeWhile p := by
  induction cs with
  | nil => exact takeWhile_left (by simp) ends
  | cons c cs ih => simp only [List.cons_append, List.takeWhile_cons, ih]

theorem takeWhile_cut_of_exists {p : Char → Bool} {cs : List Char} {d : Char} (member : d ∈ cs)
    (stops : p d = false) (tail : List Char) : (cs ++ tail).takeWhile p = cs.takeWhile p := by
  induction cs with
  | nil => contradiction
  | cons c cs ih =>
    by_cases here : p c = true
    · have later : d ∈ cs := by
        rcases List.mem_cons.1 member with same | later
        · rw [same, here] at stops
          contradiction
        · exact later
      simp only [List.cons_append, List.takeWhile_cons, ih later]
    · simp [here]

theorem drop_cut {n : Nat} {cs : List Char} (within : n ≤ cs.length) (tail : List Char) :
    (cs ++ tail).drop n = cs.drop n ++ tail := List.drop_append_of_le_length within

/-- What has no break inside lies before the first one. -/
theorem prefix_cut (breaks : Breaks tail) {part cs : List Char}
    (joined : ∀ c ∈ part, isBreak c = false) : part <+: cs ++ tail ↔ part <+: cs := by
  induction cs generalizing part with
  | nil =>
    cases part with
    | nil => simp
    | cons c part =>
      constructor
      · intro initial
        obtain ⟨more, same⟩ := initial
        have broken := breaks c (by rw [← List.nil_append tail, ← same]; rfl)
        rw [joined c List.mem_cons_self] at broken
        contradiction
      · intro initial
        simp at initial
  | cons d cs ih =>
    cases part with
    | nil => simp
    | cons c part =>
      rw [List.cons_append, List.cons_prefix_cons, List.cons_prefix_cons,
        ih fun c member => joined c (List.mem_cons_of_mem _ member)]

/-! Look-ahead. -/

section
variable (breaks : Breaks tail)
include breaks

theorem words_cut (cs : List Char) : (cs ++ tail).takeWhile isWordChar = cs.takeWhile isWordChar :=
  takeWhile_cut (breaks.ends fun _ => isBreak_of_word) cs

theorem digits_cut (cs : List Char) : (cs ++ tail).takeWhile isDigit = cs.takeWhile isDigit :=
  takeWhile_cut (breaks.ends fun _ => isBreak_of_digit) cs

theorem startsWord_cut (cs : List Char) : startsWord (cs ++ tail) = startsWord cs := by
  cases cs with
  | nil => exact breaks.ends fun _ => isBreak_of_word
  | cons c cs => rfl

theorem startsDigit_cut (cs : List Char) : startsDigit (cs ++ tail) = startsDigit cs := by
  cases cs with
  | nil => exact breaks.ends fun _ => isBreak_of_digit
  | cons c cs => rfl

end

inductive IsDate : List Char → Prop where
  | intro {a b c d e f g h : Char} (year : isDigit a ∧ isDigit b ∧ isDigit c ∧ isDigit d)
      (month : isDigit e ∧ isDigit f) (day : isDigit g ∧ isDigit h) :
      IsDate [a, b, c, d, '-', e, f, '-', g, h]

inductive IsMeridiem : List Char → Prop where
  | intro {a m : Char} (half : asciiLower a = 'a' ∨ asciiLower a = 'p')
      (letter : asciiLower m = 'm') : IsMeridiem [a, m]

def BeginsWith (parts : List Char → Prop) (cs : List Char) : Prop :=
  ∃ part, parts part ∧ part <+: cs ∧ startsWord (cs.drop part.length) = false

theorem startsDate_iff {cs : List Char} : startsDate cs = true ↔ BeginsWith IsDate cs := by
  constructor
  · intro date
    unfold startsDate at date
    split at date
    · rename_i a b c d e f g h rest
      simp only [List.all_cons, List.all_nil, Bool.and_eq_true, Bool.not_eq_true'] at date
      obtain ⟨⟨ha, hb, hc, hd, he, hf, hg, hh, _⟩, apart⟩ := date
      exact ⟨_, .intro ⟨ha, hb, hc, hd⟩ ⟨he, hf⟩ ⟨hg, hh⟩, ⟨rest, rfl⟩, apart⟩
    · contradiction
  · intro begins
    obtain ⟨_, ⟨year, month, day⟩, ⟨rest, rfl⟩, apart⟩ := begins
    have behind : startsWord rest = false := apart
    simp [startsDate, year, month, day, behind]

theorem startsMeridiem_iff {cs : List Char} :
    startsMeridiem cs = true ↔ BeginsWith IsMeridiem cs := by
  constructor
  · intro starts
    unfold startsMeridiem at starts
    split at starts
    · rename_i a m rest
      simp only [Bool.and_eq_true, Bool.or_eq_true, decide_eq_true_eq, Bool.not_eq_true'] at starts
      exact ⟨_, .intro starts.1.1 starts.1.2, ⟨rest, rfl⟩, starts.2⟩
    · contradiction
  · intro begins
    obtain ⟨_, ⟨half, letter⟩, ⟨rest, rfl⟩, apart⟩ := begins
    have behind : startsWord rest = false := apart
    simp [startsMeridiem, half, letter, behind]

theorem colonAndTwoDigits_iff {cs : List Char} : colonAndTwoDigits cs = true ↔
    ∃ a b, (isDigit a = true ∧ isDigit b = true) ∧ [':', a, b] <+: cs := by
  constructor
  · intro field
    unfold colonAndTwoDigits at field
    split at field
    · rename_i a b rest
      exact ⟨a, b, by simpa using field, ⟨rest, rfl⟩⟩
    · contradiction
  · intro shape
    obtain ⟨a, b, digits, rest, rfl⟩ := shape
    simpa [colonAndTwoDigits] using digits

theorem isLetter_of_lowered {c : Char}
    (lowered : 97 ≤ (asciiLower c).toNat ∧ (asciiLower c).toNat ≤ 122) : isLetter c = true := by
  have letter : 97 ≤ c.toNat ∧ c.toNat ≤ 122 ∨ 65 ≤ c.toNat ∧ c.toNat ≤ 90 := by
    rcases asciiLower_cases c with same | ⟨least, most, _⟩
    · exact .inl (same ▸ lowered)
    · exact .inr ⟨least, most⟩
  have small : c.toNat < 128 := by omega
  simpa [isLetter, small, isAsciiLetter, Char.le_def, UInt32.le_iff_toNat_le] using letter

theorem isBreak_of_lowered {c d : Char} (same : asciiLower c = d)
    (letter : 97 ≤ d.toNat ∧ d.toNat ≤ 122) : isBreak c = false := by
  have named := isLetter_of_lowered (same ▸ letter)
  exact isBreak_of_word (by simp [isWordChar, named])

section
variable (breaks : Breaks tail)
include breaks

theorem beginsWith_cut {parts : List Char → Prop}
    (joined : ∀ part, parts part → ∀ c ∈ part, isBreak c = false) (cs : List Char) :
    BeginsWith parts (cs ++ tail) ↔ BeginsWith parts cs := by
  apply exists_congr
  intro part
  apply and_congr_right
  intro member
  rw [prefix_cut breaks (joined part member)]
  apply and_congr_right
  intro initial
  rw [drop_cut initial.length_le, startsWord_cut breaks]

theorem startsDate_cut (cs : List Char) : startsDate (cs ++ tail) = startsDate cs := by
  rw [Bool.eq_iff_iff, startsDate_iff, startsDate_iff]
  apply beginsWith_cut breaks
  intro part date
  have hyphen : isBreak '-' = false := by decide
  obtain ⟨⟨a, b, c, d⟩, ⟨e, f⟩, ⟨g, h⟩⟩ := date
  simp [isBreak_of_digit, *]

theorem startsMeridiem_cut (cs : List Char) : startsMeridiem (cs ++ tail) = startsMeridiem cs := by
  rw [Bool.eq_iff_iff, startsMeridiem_iff, startsMeridiem_iff]
  apply beginsWith_cut breaks
  intro part meridiem
  obtain ⟨half, letter⟩ := meridiem
  have first : isBreak _ = false :=
    half.elim (isBreak_of_lowered · (by decide)) (isBreak_of_lowered · (by decide))
  have second : isBreak _ = false := isBreak_of_lowered letter (by decide)
  simp [first, second]

theorem colonAndTwoDigits_cut (cs : List Char) :
    colonAndTwoDigits (cs ++ tail) = colonAndTwoDigits cs := by
  rw [Bool.eq_iff_iff, colonAndTwoDigits_iff, colonAndTwoDigits_iff]
  apply exists_congr
  intro a
  apply exists_congr
  intro b
  apply and_congr_right
  intro digits
  have colon : isBreak ':' = false := by decide
  apply prefix_cut breaks
  simp [colon, isBreak_of_digit digits.1, isBreak_of_digit digits.2]

theorem fraction_cut (cs : List Char) : fraction (cs ++ tail) = fraction cs := by
  cases cs with
  | nil =>
    cases tail with
    | nil => rfl
    | cons c tail =>
      have other : c ≠ '.' := breaks.head_ne (by decide)
      simp [fraction, other]
  | cons c cs =>
    by_cases point : c = '.'
    · simp [fraction, point, startsDigit_cut breaks, digits_cut breaks]
    · simp [fraction, point]

def powerSign : List Char → List Char
  | '+' :: _ => ['+']
  | '-' :: _ => ['-']
  | _ => []

omit breaks in
theorem exponent_cons (mark : Char) (cs : List Char) : exponent (mark :: cs) =
    let body := cs.drop (powerSign cs).length
    if (mark = 'e' || mark = 'E') && startsDigit body then
      mark :: powerSign cs ++ body.takeWhile isDigit
    else [] := rfl

theorem powerSign_cut (cs : List Char) : powerSign (cs ++ tail) = powerSign cs := by
  cases cs with
  | nil =>
    cases tail with
    | nil => rfl
    | cons c tail =>
      have plus : c ≠ '+' := breaks.head_ne (by decide)
      have minus : c ≠ '-' := breaks.head_ne (by decide)
      simp [powerSign, plus, minus]
  | cons c cs =>
    unfold powerSign
    grind

omit breaks in
theorem powerSign_length (cs : List Char) : (powerSign cs).length ≤ cs.length := by
  unfold powerSign
  split <;> simp

theorem exponent_cut (cs : List Char) : exponent (cs ++ tail) = exponent cs := by
  cases cs with
  | nil =>
    cases tail with
    | nil => rfl
    | cons c tail =>
      have small : c ≠ 'e' := breaks.head_ne (by decide)
      have large : c ≠ 'E' := breaks.head_ne (by decide)
      simp [exponent, small, large]
  | cons c cs =>
    rw [List.cons_append, exponent_cons, exponent_cons, powerSign_cut breaks,
      drop_cut (powerSign_length cs)]
    simp only [startsDigit_cut breaks, digits_cut breaks]

theorem numberText_cut (cs : List Char) : numberText (cs ++ tail) = numberText cs := by
  have whole := (List.takeWhile_prefix (l := cs) isDigit).length_le
  have places := (fraction_initial (cs.drop (cs.takeWhile isDigit).length)).length_le
  rw [List.length_drop] at places
  simp only [numberText, digits_cut breaks, drop_cut whole, fraction_cut breaks]
  rw [drop_cut (by omega), exponent_cut breaks]

omit breaks in
theorem length_of_startsMeridiem {cs : List Char} (starts : startsMeridiem cs = true) :
    2 ≤ cs.length := by
  obtain ⟨_, ⟨_, _⟩, initial, _⟩ := startsMeridiem_iff.1 starts
  exact initial.length_le

theorem readNumber_cut (cs : List Char) : readNumber (cs ++ tail) = readNumber cs := by
  have initial := (numberText_initial cs).length_le
  simp only [readNumber, numberText_cut breaks, drop_cut initial, startsMeridiem_cut breaks]
  split
  · rename_i hour
    have two := length_of_startsMeridiem (Bool.and_eq_true_iff.1 hour).2
    rw [List.take_append_of_le_length two]
  · rfl

theorem readWord_cut (glued : Bool) (cs : List Char) :
    readWord glued (cs ++ tail) = readWord glued cs := by
  simp only [readWord, words_cut breaks]

theorem readCommand_cut (cs : List Char) : readCommand (cs ++ tail) = readCommand cs := by
  simp only [readCommand, words_cut breaks]

theorem startsClock_cut (cs : List Char) : startsClock (cs ++ tail) = startsClock cs := by
  have hour := (List.takeWhile_prefix (l := cs) isDigit).length_le
  simp only [startsClock, digits_cut breaks, drop_cut hour, colonAndTwoDigits_cut breaks]

theorem clockField_cut {cs : List Char} (starts : colonAndTwoDigits cs = true) :
    clockField (cs ++ tail) = clockField cs := by
  cases cs with
  | nil => contradiction
  | cons c cs => simp only [List.cons_append, clockField, digits_cut breaks]

end

theorem readText_cut {cs : List Char} (closed : (readText cs).kind ≠ .error) (tail : List Char) :
    readText (cs ++ tail) = readText cs := by
  have quoted : (cs.takeWhile (· ≠ '"')).length < cs.length := by
    by_contra open_
    exact closed (by simp only [readText, if_neg open_])
  have quote : '"' ∈ cs := by
    by_contra none
    rw [List.takeWhile_eq_self_iff.2 (by grind)] at quoted
    omega
  have same := takeWhile_cut_of_exists (p := (· ≠ '"')) quote (by simp) tail
  simp only [readText, same, List.length_append]
  rw [if_pos (by omega), if_pos quoted]

def clockText (cs : List Char) : List Char :=
  let hour := cs.takeWhile isDigit
  let minute := clockField (cs.drop hour.length)
  let rest := cs.drop (hour.length + minute.length)
  hour ++ minute ++ if colonAndTwoDigits rest then clockField rest else []

theorem readClock_eq (cs : List Char) : readClock cs =
    let clock := clockText cs
    let rest := cs.drop clock.length
    let half := behindSpaces rest
    if startsMeridiem half then
      ⟨.time, clock ++ (half.take 2).map asciiLower,
        clock.length + (rest.takeWhile (· = ' ')).length + 2⟩
    else ⟨.time, clock, clock.length⟩ := rfl

theorem hourMinute_initial (cs : List Char) :
    cs.takeWhile isDigit ++ clockField (cs.drop (cs.takeWhile isDigit).length) <+: cs :=
  prefix_append_drop (List.takeWhile_prefix isDigit) (clockField_initial _)

theorem clockText_initial (cs : List Char) : clockText cs <+: cs := by
  unfold clockText
  extract_lets hour minute rest
  apply prefix_append_drop (hourMinute_initial cs)
  split
  · rw [List.length_append]
    exact clockField_initial rest
  · exact List.nil_prefix

theorem clockText_cut (breaks : Breaks tail) {cs : List Char} (starts : startsClock cs = true) :
    clockText (cs ++ tail) = clockText cs := by
  have hour := (List.takeWhile_prefix (l := cs) isDigit).length_le
  have minute := (hourMinute_initial cs).length_le
  have field := (Bool.and_eq_true_iff.1 starts).2
  rw [List.length_append] at minute
  simp only [clockText, digits_cut breaks, drop_cut hour, clockField_cut breaks field,
    drop_cut minute, colonAndTwoDigits_cut breaks]
  split
  · rename_i second
    rw [clockField_cut breaks second]
  · rfl

theorem behindSpaces_of_spaces {cs : List Char} (spaces : ∀ c ∈ cs, c = ' ') (tail : List Char) :
    behindSpaces (cs ++ tail) = behindSpaces tail := by
  have skipped : (cs ++ tail).takeWhile (· = ' ') = cs ++ tail.takeWhile (· = ' ') :=
    List.takeWhile_append_of_pos (by simpa using spaces)
  rw [behindSpaces, skipped, List.length_append, ← List.drop_drop, List.drop_left, behindSpaces]

theorem behindSpaces_cut {cs : List Char} (other : ¬ ∀ c ∈ cs, c = ' ') (tail : List Char) :
    (cs ++ tail).takeWhile (· = ' ') = cs.takeWhile (· = ' ') ∧
      behindSpaces (cs ++ tail) = behindSpaces cs ++ tail := by
  push Not at other
  obtain ⟨c, member, visible⟩ := other
  have same := takeWhile_cut_of_exists (p := (· = ' ')) member (by simpa using visible) tail
  refine ⟨same, ?_⟩
  rw [behindSpaces, same, drop_cut (List.takeWhile_prefix _).length_le, behindSpaces]

/-- A time without am or pm may be waiting for it, if only blanks stand behind. -/
theorem readClock_cut (breaks : Breaks tail) {cs : List Char} (starts : startsClock cs = true)
    (alone : (∀ c ∈ cs.drop (readClock cs).width, isBlank c = true) →
      startsMeridiem (behindSpaces tail) = false) : readClock (cs ++ tail) = readClock cs := by
  have inside := (clockText_initial cs).length_le
  have nowhere : startsMeridiem [] = false := rfl
  by_cases spaces : ∀ c ∈ cs.drop (clockText cs).length, c = ' '
  · have nothing : behindSpaces (cs.drop (clockText cs).length) = [] := by
      have none := behindSpaces_of_spaces spaces []
      rwa [List.append_nil] at none
    have width : (readClock cs).width = (clockText cs).length := by
      simp [readClock_eq, nothing, nowhere]
    have late : startsMeridiem (behindSpaces tail) = false := by
      apply alone
      intro c member
      rw [width] at member
      rw [spaces c member]
      decide
    rw [readClock_eq, readClock_eq, clockText_cut breaks starts]
    simp only [drop_cut inside, behindSpaces_of_spaces spaces, nothing, nowhere, late]
    rfl
  · obtain ⟨gap, half⟩ := behindSpaces_cut spaces tail
    rw [readClock_eq, readClock_eq, clockText_cut breaks starts]
    simp only [drop_cut inside, gap, half, startsMeridiem_cut breaks]
    split
    · rename_i meridiem
      rw [List.take_append_of_le_length (length_of_startsMeridiem meridiem)]
    · rfl

/-! One token. -/

/-- What is read is complete: it is no text that is still open, and no clock time with nothing but
    blanks behind it where am or pm follows. -/
structure Complete (r : Reading) (cs tail : List Char) : Prop where
  closed : r.kind = .error → r.text ≠ unterminated
  timed : r.kind = .time → startsClock cs = true → (∀ c ∈ cs.drop r.width, isBlank c = true) →
    startsMeridiem (behindSpaces tail) = false

theorem text_of_readText {cs : List Char} (error : (readText cs).kind = .error) :
    (readText cs).text = unterminated := by
  unfold readText at error ⊢
  dsimp only at error ⊢
  split at error
  · contradiction
  · rename_i open_
    rw [if_neg open_]
    rfl

theorem length_of_startsDate {cs : List Char} (starts : startsDate cs = true) :
    10 ≤ cs.length := by
  obtain ⟨_, ⟨_, _, _⟩, initial, _⟩ := startsDate_iff.1 starts
  exact initial.length_le

theorem readPlain_cut (breaks : Breaks tail) {glued : Bool} {c : Char} {rest : List Char}
    (complete : Complete (readPlain glued c rest).1 (c :: rest) tail) :
    readPlain glued c (rest ++ tail) = readPlain glued c rest := by
  unfold readPlain at complete ⊢
  rw [startsDigit_cut breaks, words_cut breaks, ← List.cons_append, startsDate_cut breaks,
    startsClock_cut breaks, readNumber_cut breaks, readWord_cut breaks]
  split
  · rfl
  · rename_i known
    rw [known] at complete
    dsimp only at complete
    split
    · rename_i quote
      rw [if_pos quote] at complete
      have closed : (readText rest).kind ≠ .error := fun error =>
        complete.closed error (text_of_readText error)
      rw [readText_cut closed]
    · rename_i noQuote
      rw [if_neg noQuote] at complete
      split
      · rfl
      · rename_i noDegree
        rw [if_neg noDegree] at complete
        split
        · rename_i number
          rw [if_pos number] at complete
          split
          · rename_i date
            rw [List.take_append_of_le_length (length_of_startsDate date)]
          · rename_i noDate
            rw [if_neg noDate] at complete
            split
            · rename_i clock
              rw [if_pos clock] at complete
              rw [readClock_cut breaks clock (complete.timed (readClock_kind _) clock)]
            · rfl
        · rfl

theorem readArgument_cut {cs : List Char} {d : Char} (member : d ∈ cs) (blank : isBlank d = true)
    (tail : List Char) : readArgument (cs ++ tail) = readArgument cs := by
  have same := takeWhile_cut_of_exists (p := fun c => !isBlank c) member (by simp [blank]) tail
  simp only [readArgument, same]

theorem read_cut (breaks : Breaks tail) {mode : Mode} {glued : Bool} {c : Char} {rest : List Char}
    (complete : Complete (read mode glued c rest).1 (c :: rest) tail)
    (spaced : mode = .arguments → ∃ d ∈ c :: rest, isBlank d = true) :
    read mode glued c (rest ++ tail) = read mode glued c rest := by
  cases mode with
  | arguments =>
    obtain ⟨d, member, blank⟩ := spaced rfl
    exact readArgument_cut member blank tail
  | opening =>
    by_cases colon : c = ':'
    · simp only [read, if_pos colon, readCommand_cut breaks]
    · simp only [read, if_neg colon] at complete ⊢
      exact readPlain_cut breaks complete
  | words => exact readPlain_cut breaks complete
  | afterNumber => exact readPlain_cut breaks complete

/-! Whole texts. -/

def Commands (mode : Mode) (cs : List Char) : Prop :=
  mode = .arguments ∨ mode = .opening ∧ StartsCommand cs

/-- Something can stand behind the text without changing its lexemes. -/
structure Closes (mode : Mode) (cs : List Char) (ls : List Lexeme) (tail : List Char) : Prop where
  closed : ∀ l ∈ ls, l.token.kind = .error → l.token.text.toList ≠ unterminated
  timed : ∀ l ∈ ls.getLast?, l.token.kind = .time → startsMeridiem (behindSpaces tail) = false
  spaced : Commands mode cs → ∀ c ∈ cs.getLast?, isBlank c = true
  apart : cs.getLast? = some '/' → tail.head? ≠ some '/'

theorem mem_getLast?_append {α : Type} {front back : List α} {x : α}
    (last : x ∈ back.getLast?) : x ∈ (front ++ back).getLast? := by
  rw [List.getLast?_append, Option.mem_def.1 last]
  rfl

theorem isBreak_of_letter {c : Char} (letter : isLetter c = true) : isBreak c = false :=
  isBreak_of_word (by simp [isWordChar, letter])

theorem readPlain_mode (glued : Bool) (c : Char) (rest : List Char) :
    (readPlain glued c rest).2 = .words ∨ (readPlain glued c rest).2 = .afterNumber := by
  unfold readPlain readNumber
  dsimp only
  repeat' split
  all_goals simp

/-- Only a command leaves the scanner among arguments. -/
theorem commands_of_read {mode then_ : Mode} {glued : Bool} {blank rest after : List Char}
    {c : Char} {r : Reading} (blanks : ∀ d ∈ blank, isBlank d = true) (visible : isBlank c = false)
    (reads : read mode glued c rest = (r, then_)) (commands : Commands then_ after) :
    Commands mode (blank ++ c :: rest) := by
  have plainly (plain : read mode glued c rest = readPlain glued c rest) : False := by
    have mode' := readPlain_mode glued c rest
    rw [← plain, reads] at mode'
    unfold Commands at commands
    grind
  cases mode with
  | arguments => exact .inl rfl
  | opening =>
    by_cases colon : c = ':'
    · exact .inr ⟨rfl, (startsCommand_iff blanks visible).2 colon⟩
    · exact (plainly (read_plain (by decide) colon _ _)).elim
  | words => exact (plainly rfl).elim
  | afterNumber => exact (plainly rfl).elim

theorem noComment_cut {c : Char} {rest : List Char} (noComment : ¬ ['/', '/'] <+: c :: rest)
    (apart : (c :: rest).getLast? = some '/' → tail.head? ≠ some '/') :
    ¬ ['/', '/'] <+: c :: (rest ++ tail) := by
  cases rest with
  | nil =>
    intro comment
    obtain ⟨rfl, more⟩ := List.cons_prefix_cons.1 comment
    obtain ⟨later, rfl⟩ := more
    exact apart rfl rfl
  | cons d rest =>
    simpa [List.cons_prefix_cons] using noComment

/-- What scans to no token at all may stand behind a comment, and everything else where there is
    none. -/
theorem Scans.append {mode : Mode} {position : Nat} {cs : List Char} {ls ls' : List Lexeme}
    (scans : Scans mode position cs ls) (breaks : Breaks tail) (closes : Closes mode cs ls tail)
    (uncommented : ls' = [] ∨ ¬ ['/', '/'] <:+: cs)
    (behind : ∀ mode', (mode' = .arguments → Commands mode cs) →
      Scans mode' (position + cs.length) tail ls') :
    Scans mode position (cs ++ tail) (ls ++ ls') := by
  induction scans with
  | @ended mode position blank blanks =>
    have apart : isGlued mode tail = false := isGlued_apart (breaks.ends fun _ => isBreak_of_letter)
    exact (behind mode fun arguments => .inl arguments).behind blanks apart
  | @comment mode position blank rest blanks =>
    have nothing : ls' = [] := by
      apply uncommented.resolve_right
      intro none
      exact none ⟨blank, rest, by simp⟩
    rw [nothing, List.append_assoc]
    exact .comment blanks
  | @next mode then_ position blank rest c r later blanks visible noComment reads continued ih =>
    have taken : TakesFrom (read mode (isGlued mode (blank ++ c :: rest)) c rest).1 (c :: rest) :=
      takesFrom_read mode _ visible
    obtain ⟨source, after, same, takes⟩ := taken
    have width := takes.width
    simp only [reads] at width
    have left : (c :: rest).drop r.width = after := by rw [same, width, List.drop_left]
    have whole : blank ++ c :: rest = (blank ++ source) ++ after := by
      rw [same, List.append_assoc]
    have cut : (c :: (rest ++ tail)).drop r.width = after ++ tail := by
      rw [← List.cons_append, same, width, List.append_assoc, List.drop_left]
    have complete : Complete r (c :: rest) tail := by
      constructor
      · intro error
        simpa using closes.closed _ List.mem_cons_self error
      · intro time _ spaces
        obtain rfl : later = [] := continued.unique (.ended spaces)
        exact closes.timed _ rfl time
    have glue : isGlued mode (blank ++ c :: (rest ++ tail)) =
        isGlued mode (blank ++ c :: rest) := by
      cases blank <;> rfl
    have reads' : read mode (isGlued mode (blank ++ c :: (rest ++ tail))) c (rest ++ tail) =
        (r, then_) := by
      rw [glue, ← reads]
      apply read_cut breaks (by rwa [reads])
      intro arguments
      have last := List.getLast?_eq_some_getLast (List.cons_ne_nil c rest)
      exact ⟨_, List.getLast_mem _, closes.spaced (.inl arguments) _ (mem_getLast?_append last)⟩
    rw [List.append_assoc, List.cons_append, List.cons_append]
    refine .next blanks visible ?_ reads' ?_
    · apply noComment_cut noComment
      intro slash
      exact closes.apart (mem_getLast?_append slash)
    · rw [cut]
      rw [left] at ih
      have here : position + blank.length + r.width + after.length =
          position + (blank ++ c :: rest).length := by
        rw [whole]
        simp only [List.length_append, width]
        omega
      apply ih
      · constructor
        · intro l member
          exact closes.closed l (List.mem_cons_of_mem _ member)
        · intro l last
          exact closes.timed l (@mem_getLast?_append _ [_] _ _ last)
        · intro commands d last
          apply closes.spaced (commands_of_read blanks visible reads commands)
          rw [whole]
          exact mem_getLast?_append last
        · intro slash
          apply closes.apart
          rw [whole]
          exact mem_getLast?_append slash
      · refine uncommented.imp_right fun none inside => none ?_
        rw [whole]
        exact inside.trans (List.suffix_append _ _).isInfix
      · intro mode' arguments
        rw [here]
        apply behind
        intro among
        exact commands_of_read blanks visible reads (arguments among)

theorem Scans.append_comment {cs : List Char} {ls : List Lexeme} (scans : Scans .opening 0 cs ls)
    (comment : List Char) (closes : Closes .opening cs ls ('/' :: '/' :: comment)) :
    Scans .opening 0 (cs ++ '/' :: '/' :: comment) ls := by
  have breaks : Breaks ('/' :: '/' :: comment) := by
    simp only [Breaks, List.head?_cons, Option.mem_some_iff, forall_eq']
    decide
  have joined := scans.append breaks closes (.inl rfl) fun _ _ => @Scans.comment _ _ [] _ (by simp)
  rwa [List.append_nil] at joined

/-- Two lines with a space between them scan as one. -/
theorem Scans.append_spaced {cs cs' : List Char} {ls ls' : List Lexeme}
    (scans : Scans .opening 0 cs ls) (scans' : Scans .opening 0 cs' ls')
    (plain : ¬ StartsCommand cs) (plain' : ¬ StartsCommand cs') (noComment : ¬ ['/', '/'] <:+: cs)
    (closes : Closes .opening cs ls (' ' :: cs')) :
    Scans .opening 0 (cs ++ ' ' :: cs') (ls ++ ls'.map (·.shift (cs.length + 1))) := by
  have breaks : Breaks (' ' :: cs') := by
    simp only [Breaks, List.head?_cons, Option.mem_some_iff, forall_eq']
    decide
  apply scans.append breaks closes (.inr noComment)
  intro mode arguments
  have inside : mode ≠ .arguments := by
    intro among
    rcases arguments among with other | commands
    · contradiction
    · exact plain commands.2
  rw [Nat.zero_add]
  exact scans'.spaced plain' inside cs.length

theorem not_commands {cs : List Char} (plain : ¬ StartsCommand cs) : ¬ Commands .opening cs := by
  simp [Commands, plain]

end Scan

open Scan

/-- A comment changes neither the tokens of a line nor what it is read as, unless a text is still
    open there, a slash before it would begin it, or an argument of a command would go on with
    it. -/
theorem tokenize_comment {line : String}
    (closed : ∀ t ∈ tokenize line, ¬ (t.kind = .error ∧ t.text = "Unterminated string"))
    (noSlash : line.toList.getLast? ≠ some '/')
    (spaced : (tokenize line).head?.map (·.kind) = some .command →
      ∃ c ∈ line.toList.getLast?, isBlank c = true) (comment : String) :
    tokenize (line ++ "//" ++ comment) = tokenize line ∧
      ∀ fuzzy, parseLine fuzzy (line ++ "//" ++ comment) = parseLine fuzzy line := by
  have closes : Closes .opening line.toList (lexemes line) ('/' :: '/' :: comment.toList) := by
    constructor
    · intro l member error text
      exact closed l.token (List.mem_map_of_mem member) ⟨error, String.ext text⟩
    · intro _ _ _
      rfl
    · intro commands c last
      have colon : Text.firstVisible? line = some ':' :=
        commands.elim (fun arguments => nomatch arguments) (·.2)
      obtain ⟨d, also, blank⟩ := spaced ((first_kind_iff line).2 colon)
      rw [Option.mem_def.1 also] at last
      rwa [← Option.some.inj last]
    · intro slash
      exact absurd slash noSlash
  have scans := (scans_lexemes line).append_comment comment.toList closes
  have characters : (line ++ "//" ++ comment).toList =
      line.toList ++ '/' :: '/' :: comment.toList := by simp
  have tokens : tokenize (line ++ "//" ++ comment) = tokenize line :=
    tokenize_of_scans (characters ▸ scans)
  refine ⟨tokens, ?_⟩
  intro fuzzy
  rw [parseLine, tokens, parseLine]

theorem tokenize_comment_command :
    tokenize ":save a//b " = [⟨.command, "save", 0⟩, ⟨.commandArg, "a//b", 6⟩] ∧
      (":save a//b ".toList.getLast? = some ' ' ∧ isBlank ' ' = true) ∧
      tokenize (":save a//b " ++ "//" ++ " \"c d") = tokenize ":save a//b " ∧
      ∀ fuzzy, parseLine fuzzy (":save a//b " ++ "//" ++ " \"c d") =
        parseLine fuzzy ":save a//b " := by
  have tokens : tokenize ":save a//b " = [⟨.command, "save", 0⟩, ⟨.commandArg, "a//b", 6⟩] := by
    decide +kernel
  have last : ":save a//b ".toList.getLast? = some ' ' := by rfl
  have blank : isBlank ' ' = true := by decide
  refine ⟨tokens, ⟨last, blank⟩, tokenize_comment ?_ ?_ ?_ _⟩
  · simp [tokens]
  · simp
  · intro _
    exact ⟨' ', last, blank⟩

theorem tokenize_append_space {first second : String} (noComment : ¬ ['/', '/'] <:+: first.toList)
    (plain : Text.firstVisible? first ≠ some ':') (plain' : Text.firstVisible? second ≠ some ':')
    (closes : Closes .opening first.toList (lexemes first) (' ' :: second.toList)) :
    tokenize (first ++ " " ++ second) =
      tokenize first ++ (tokenize second).map (·.shift (first.length + 1)) := by
  have scans := (scans_lexemes first).append_spaced (scans_lexemes second) plain plain' noComment
    closes
  have characters : (first ++ " " ++ second).toList = first.toList ++ ' ' :: second.toList := by
    simp
  rw [tokenize_of_scans (characters ▸ scans), List.map_append, List.map_map, String.length_toList,
    tokenize, tokenize, List.map_map]
  rfl

/-- Tokens do not depend on what stands behind a space, and what stands there does not depend on
    them, unless it goes on with a time as am or pm. -/
theorem tokenize_spaced {first second : String} (noComment : ¬ ['/', '/'] <:+: first.toList)
    (plain : Text.firstVisible? first ≠ some ':') (plain' : Text.firstVisible? second ≠ some ':')
    (closed : ∀ t ∈ tokenize first, ¬ (t.kind = .error ∧ t.text = "Unterminated string"))
    (untimed : ¬ ((∃ t ∈ (tokenize first).getLast?, t.kind = .time) ∧
      startsMeridiem (behindSpaces second.toList) = true)) :
    tokenize (first ++ " " ++ second) =
      tokenize first ++ (tokenize second).map (·.shift (first.length + 1)) := by
  have closes : Closes .opening first.toList (lexemes first) (' ' :: second.toList) := by
    constructor
    · intro l member error text
      exact closed l.token (List.mem_map_of_mem member) ⟨error, String.ext text⟩
    · intro l last time
      have token : l.token ∈ (tokenize first).getLast? := by
        rw [tokenize, List.getLast?_map, Option.mem_def.1 last]
        rfl
      have spaces : behindSpaces (' ' :: second.toList) = behindSpaces second.toList :=
        @behindSpaces_of_spaces [' '] (by simp) _
      rw [spaces, Bool.eq_false_iff]
      intro half
      exact untimed ⟨⟨l.token, token, time⟩, half⟩
    · intro commands
      exact absurd commands (not_commands plain)
    · intro _
      simp
  exact tokenize_append_space noComment plain plain' closes

theorem tokenize_spaced_time :
    tokenize "1 - 9:15" = [⟨.number, "1", 0⟩, ⟨.minus, "-", 2⟩, ⟨.time, "9:15", 4⟩] ∧
      startsMeridiem (behindSpaces " amp/2".toList) = false ∧
      tokenize ("1 - 9:15" ++ " " ++ " amp/2") =
        tokenize "1 - 9:15" ++ (tokenize " amp/2").map (·.shift 9) := by
  have tokens : tokenize "1 - 9:15" =
      [⟨.number, "1", 0⟩, ⟨.minus, "-", 2⟩, ⟨.time, "9:15", 4⟩] := by decide +kernel
  have word : startsMeridiem (behindSpaces " amp/2".toList) = false := by decide +kernel
  refine ⟨tokens, word, tokenize_spaced ?_ ?_ ?_ ?_ ?_⟩
  · decide
  · decide
  · decide
  · simp [tokens]
  · intro goesOn
    rw [word] at goesOn
    exact absurd goesOn.2 (by decide)

end NotepadCalculator
