import Mathlib.Data.List.Forall2
import NotepadCalculator.Proofs.JoinedLines
import NotepadCalculator.Proofs.WrittenAmounts

/-!
Blanks of other kinds. Between tokens, before a command and between its arguments one blank is as
good as another, but the gap between a time and am or pm is made of spaces. So a line with other
blanks in their places has the same tokens exactly if behind each of its times am or pm is found
where it was before.
-/
namespace NotepadCalculator
open Text

namespace Scan

/-- Blanks stand in the places of blanks, and everything else is the same. -/
def Respaced : List Char → List Char → Prop :=
  List.Forall₂ fun c d => c = d ∨ isBlank c = true ∧ isBlank d = true

instance (cs ds : List Char) : Decidable (Respaced cs ds) :=
  inferInstanceAs (Decidable (List.Forall₂ _ cs ds))

def halfDayAt (cs : List Char) (place : Nat) : Bool := startsMeridiem (behindSpaces (cs.drop place))

def clockLength (text : List Char) : Nat := (text.takeWhile fun c => isDigit c || c = ':').length

/-! Two texts. -/

section
variable {cs ds : List Char}

theorem Respaced.symm (respaced : Respaced cs ds) : Respaced ds cs := by
  apply List.Forall₂.flip
  apply List.Forall₂.imp _ respaced
  intro c d pair
  exact pair.imp Eq.symm And.symm

theorem isBlank_kept {c d : Char} (pair : c = d ∨ isBlank c = true ∧ isBlank d = true) :
    isBlank d = isBlank c := by
  rcases pair with rfl | ⟨blank, blank'⟩
  · rfl
  · rw [blank, blank']

theorem Respaced.drop (respaced : Respaced cs ds) (n : Nat) :
    Respaced (cs.drop n) (ds.drop n) := List.forall₂_drop n respaced

theorem Respaced.cons {c : Char} (respaced : Respaced (c :: cs) ds) (visible : isBlank c = false) :
    ∃ ds', ds = c :: ds' ∧ Respaced cs ds' := by
  obtain ⟨d, ds', pair, rest, rfl⟩ := List.forall₂_cons_left_iff.1 respaced
  rcases pair with rfl | ⟨blank, _⟩
  · exact ⟨ds', rfl, rest⟩
  · rw [visible] at blank
    contradiction

theorem Respaced.append {front back : List Char} (respaced : Respaced (front ++ back) ds) :
    ∃ front' back', ds = front' ++ back' ∧ Respaced front front' ∧ Respaced back back' := by
  refine ⟨ds.take front.length, ds.drop front.length, (List.take_append_drop ..).symm, ?_, ?_⟩
  · have begins := List.forall₂_take front.length respaced
    rwa [List.take_left] at begins
  · have ends := respaced.drop front.length
    rwa [List.drop_left] at ends

theorem Respaced.blanks (respaced : Respaced cs ds) (blanks : ∀ c ∈ cs, isBlank c = true) :
    ∀ d ∈ ds, isBlank d = true := by
  induction respaced with
  | nil => exact blanks
  | @cons c d cs ds pair rest ih =>
    rw [List.forall_mem_cons] at blanks ⊢
    exact ⟨(isBlank_kept pair).trans blanks.1, ih blanks.2⟩

def Parts (tail : List Char) : Prop := ∀ c ∈ tail.head?, isBlank c = true

theorem Parts.breaks {tail : List Char} (parts : Parts tail) : Breaks tail := by
  intro c first
  have blank := parts c first
  have word : isWordChar c = false := by
    rw [Bool.eq_false_iff]
    intro word
    rw [isBlank_of_isWordChar word] at blank
    contradiction
  have joint : c ∉ ['.', ':', '-', '+'] := by
    simp only [List.mem_cons, List.not_mem_nil, or_false]
    rintro (rfl | rfl | rfl | rfl) <;> exact absurd blank (by decide)
  simpa [isBreak, word] using joint

/-- Two texts begin with the same characters, up to the first blank of either. -/
structure Shares (run : List Char) (cs ds tail tail' : List Char) : Prop where
  first : cs = run ++ tail
  second : ds = run ++ tail'
  visible : ∀ c ∈ run, isBlank c = false
  parts : Parts tail
  parts' : Parts tail'

theorem Respaced.shares (respaced : Respaced cs ds) :
    ∃ run tail tail', Shares run cs ds tail tail' := by
  induction respaced with
  | nil => exact ⟨[], [], [], rfl, rfl, by simp, by simp [Parts], by simp [Parts]⟩
  | @cons c d cs ds pair rest ih =>
    by_cases blank : isBlank c = true
    · have blank' := (isBlank_kept pair).trans blank
      exact ⟨[], c :: cs, d :: ds, rfl, rfl, by simp, by simpa [Parts], by simpa [Parts]⟩
    · obtain rfl : c = d := pair.resolve_right fun both => blank both.1
      obtain ⟨run, tail, tail', rfl, rfl, visible, parts, parts'⟩ := ih
      rw [Bool.not_eq_true] at blank
      exact ⟨c :: run, tail, tail', rfl, rfl, List.forall_mem_cons.2 ⟨blank, visible⟩, parts,
        parts'⟩

end

theorem takeWhile_visible {run tail : List Char} (visible : ∀ c ∈ run, isBlank c = false)
    (parts : Parts tail) : (run ++ tail).takeWhile (fun c => !isBlank c) = run := by
  apply takeWhile_left (by simpa using visible)
  cases tail with
  | nil => rfl
  | cons c tail =>
    have blank : isBlank c = true := parts c rfl
    simp [blank]

/-! Times. -/

section
variable {cs ds : List Char}

theorem visible_of_lowered {c d : Char} (same : asciiLower c = d)
    (letter : 97 ≤ d.toNat ∧ d.toNat ≤ 122) : isBlank c = false := by
  have named := isLetter_of_lowered (same ▸ letter)
  exact isBlank_of_isWordChar (by simp [isWordChar, named])

theorem visible_of_meridiem (half : startsMeridiem cs = true) :
    ∃ a m rest, cs = a :: m :: rest ∧ isBlank a = false ∧ isBlank m = false := by
  obtain ⟨_, ⟨first, second⟩, ⟨rest, rfl⟩, _⟩ := startsMeridiem_iff.1 half
  refine ⟨_, _, rest, rfl, ?_, visible_of_lowered second (by decide)⟩
  exact first.elim (visible_of_lowered · (by decide)) (visible_of_lowered · (by decide))

/-- Up to am or pm there are no other blanks than spaces. -/
theorem takeWhile_spaces (half : startsMeridiem (behindSpaces cs) = true) :
    cs.takeWhile (· = ' ') = cs.takeWhile isBlank := by
  obtain ⟨a, m, rest, begins, visible, _⟩ := visible_of_meridiem half
  have whole : cs.takeWhile (· = ' ') ++ a :: m :: rest = cs := by
    rw [← begins]
    exact List.prefix_iff_eq_append.1 (List.takeWhile_prefix _)
  have spaces : ∀ c ∈ cs.takeWhile (· = ' '), isBlank c = true := by
    intro c member
    obtain rfl : c = ' ' := by simpa using mem_takeWhile member
    decide
  have skipped : (cs.takeWhile (· = ' ') ++ a :: m :: rest).takeWhile isBlank =
      cs.takeWhile (· = ' ') := takeWhile_left spaces visible
  rw [whole] at skipped
  exact skipped.symm

theorem Respaced.length_blanks (respaced : Respaced cs ds) :
    (ds.takeWhile isBlank).length = (cs.takeWhile isBlank).length := by
  induction respaced with
  | nil => rfl
  | @cons c d cs ds pair rest ih =>
    simp only [List.takeWhile_cons, isBlank_kept pair]
    split
    · simp only [List.length_cons, ih]
    · rfl

/-- am or pm is the same where it is found in both, and as far from the time. -/
theorem Respaced.halfDay (respaced : Respaced cs ds)
    (half : startsMeridiem (behindSpaces cs) = true)
    (half' : startsMeridiem (behindSpaces ds) = true) :
    (ds.takeWhile (· = ' ')).length = (cs.takeWhile (· = ' ')).length ∧
      (behindSpaces ds).take 2 = (behindSpaces cs).take 2 := by
  have gap : (ds.takeWhile (· = ' ')).length = (cs.takeWhile (· = ' ')).length := by
    rw [takeWhile_spaces half, takeWhile_spaces half', respaced.length_blanks]
  refine ⟨gap, ?_⟩
  have behind : Respaced (behindSpaces cs) (behindSpaces ds) := by
    rw [behindSpaces, behindSpaces, gap]
    exact respaced.drop _
  obtain ⟨a, m, rest, begins, first, second⟩ := visible_of_meridiem half
  rw [begins] at behind ⊢
  obtain ⟨_, begins', behind⟩ := behind.cons first
  obtain ⟨_, rfl, _⟩ := behind.cons second
  rw [begins']
  rfl

theorem readClock_respaced (respaced : Respaced cs ds)
    (same : clockText ds = clockText cs)
    (agree : halfDayAt ds (clockText cs).length = halfDayAt cs (clockText cs).length) :
    readClock ds = readClock cs := by
  have later := respaced.drop (clockText cs).length
  unfold halfDayAt at agree
  rw [readClock_eq, readClock_eq, same]
  dsimp only
  rw [agree]
  split
  · rename_i half
    obtain ⟨gap, two⟩ := later.halfDay half (agree.trans half)
    rw [gap, two]
  · rfl

theorem clockText_digits (starts : startsClock cs = true) :
    ∀ c ∈ clockText cs, isDigit c = true ∨ c = ':' := by
  have field := (Bool.and_eq_true_iff.1 starts).2
  unfold clockText
  extract_lets hour minute rest
  intro c member
  rcases List.mem_append.1 member with early | second
  · rcases List.mem_append.1 early with digit | minute
    · exact .inl (mem_takeWhile digit)
    · exact clockField_digits field c minute
  · split at second
    · rename_i more
      exact clockField_digits more c second
    · contradiction

theorem clockLength_clock {clock : List Char} (digits : ∀ c ∈ clock, isDigit c = true ∨ c = ':') :
    clockLength clock = clock.length := by
  rw [clockLength, List.takeWhile_eq_self_iff.2 (by simpa using digits)]

theorem clockLength_halfDay {clock : List Char}
    (digits : ∀ c ∈ clock, isDigit c = true ∨ c = ':') (half : startsMeridiem cs = true) :
    clockLength (clock ++ (cs.take 2).map asciiLower) = clock.length := by
  have ends : ((cs.take 2).map asciiLower).head?.any (fun c => isDigit c || c = ':') = false := by
    rcases (startsMeridiem_lowered half).2 with am | pm
    · rw [am]
      decide
    · rw [pm]
      decide
  rw [clockLength, takeWhile_left (by simpa using digits) ends]

def TimedFrom (r : Reading) (cs : List Char) : Prop :=
  halfDayAt cs (clockLength r.text) = decide (clockLength r.text < r.text.length)

theorem length_halfDay {clock : List Char} (half : startsMeridiem cs = true) :
    (clock ++ (cs.take 2).map asciiLower).length = clock.length + 2 := by
  rw [List.length_append, List.length_map, (startsMeridiem_lowered half).1]

theorem clockLength_readClock (starts : startsClock cs = true) :
    clockLength (readClock cs).text = (clockText cs).length := by
  have digits := clockText_digits starts
  rw [readClock_eq]
  dsimp only
  split
  · rename_i half
    exact clockLength_halfDay digits half
  · exact clockLength_clock digits

theorem readClock_timed (starts : startsClock cs = true) : TimedFrom (readClock cs) cs := by
  unfold TimedFrom
  rw [clockLength_readClock starts, readClock_eq, halfDayAt]
  dsimp only
  split
  · rename_i half
    rw [length_halfDay half, half]
    simp
  · rename_i none
    rw [Bool.not_eq_true] at none
    rw [none]
    simp

theorem behindSpaces_of_meridiem (half : startsMeridiem cs = true) : behindSpaces cs = cs := by
  obtain ⟨a, _, _, begins, visible, _⟩ := visible_of_meridiem half
  have other : a ≠ ' ' := by
    rintro rfl
    exact absurd visible (by decide)
  simp [behindSpaces, begins, other]

theorem readNumber_timed (time : (readNumber cs).1.kind = .time) :
    TimedFrom (readNumber cs).1 cs := by
  unfold readNumber at time ⊢
  dsimp only at time ⊢
  split at time
  · rename_i hour
    rw [if_pos hour]
    obtain ⟨number, half⟩ := Bool.and_eq_true_iff.1 hour
    have digits : ∀ c ∈ numberText cs, isDigit c = true ∨ c = ':' :=
      fun c member => .inl (List.all_eq_true.1 number c member)
    unfold TimedFrom
    dsimp only
    rw [clockLength_halfDay digits half, length_halfDay half, halfDayAt,
      behindSpaces_of_meridiem half, half]
    simp
  · contradiction

end

/-! One token. -/

theorem digit_of_startsClock {c : Char} {rest : List Char}
    (starts : startsClock (c :: rest) = true) : isDigit c = true := by
  by_contra other
  simp [startsClock, other] at starts

theorem readText_time (cs : List Char) : (readText cs).kind ≠ .time := by
  unfold readText
  dsimp only
  split <;> simp

theorem readWord_time (glued : Bool) (cs : List Char) : (readWord glued cs).kind ≠ .time := by
  unfold readWord
  dsimp only
  split
  · simp
  · cases glued <;> simp

theorem readPlain_time {glued : Bool} {c : Char} {rest : List Char}
    (other : ¬ (isDigit c || (c = '.' && startsDigit rest)) = true) :
    (readPlain glued c rest).1.kind ≠ .time := by
  intro time
  unfold readPlain at time
  rw [if_neg other] at time
  split at time
  · rename_i kind known
    have verbatim := isVerbatim_operator known
    obtain rfl : kind = .time := time
    contradiction
  · split at time
    · exact readText_time rest time
    split at time
    · contradiction
    split at time
    · exact readWord_time glued _ time
    · contradiction

theorem readPlain_timed {glued : Bool} {c : Char} {rest : List Char}
    (time : (readPlain glued c rest).1.kind = .time) :
    TimedFrom (readPlain glued c rest).1 (c :: rest) := by
  by_cases starts : (isDigit c || (c = '.' && startsDigit rest)) = true
  · rw [readPlain_starts starts] at time ⊢
    split
    · rename_i date
      rw [if_pos date] at time
      contradiction
    · rename_i noDate
      rw [if_neg noDate] at time
      split
      · rename_i clock
        exact readClock_timed clock
      · rename_i noClock
        rw [if_neg noClock] at time
        exact readNumber_timed time
  · exact absurd time (readPlain_time starts)

theorem read_timed {mode then_ : Mode} {glued : Bool} {c : Char} {rest : List Char} {r : Reading}
    (reads : read mode glued c rest = (r, then_)) (time : r.kind = .time) :
    TimedFrom r (c :: rest) := by
  have plainly (plain : read mode glued c rest = readPlain glued c rest) :
      TimedFrom r (c :: rest) := by
    have timed := @readPlain_timed glued c rest
    rw [← plain, reads] at timed
    exact timed time
  cases mode with
  | arguments =>
    obtain rfl := congrArg Prod.fst reads
    contradiction
  | opening =>
    by_cases colon : c = ':'
    · rw [read, if_pos colon] at reads
      obtain rfl := congrArg Prod.fst reads
      contradiction
    · exact plainly (read_plain (by decide) colon _ _)
  | words => exact plainly rfl
  | afterNumber => exact plainly rfl

theorem closed_of_unquoted {mode : Mode} {glued : Bool} {c : Char} {rest : List Char}
    (visible : isBlank c = false) (unquoted : '"' ∉ c :: rest)
    (error : (read mode glued c rest).1.kind = .error) :
    (read mode glued c rest).1.text ≠ unterminated := by
  obtain ⟨source, after, same, takes⟩ := @takesFrom_read mode glued c rest visible
  have spelled := takes.spelled
  rw [error] at spelled
  generalize (read mode glued c rest).1.text = text at spelled
  cases spelled with
  | verbatim plain => contradiction
  | unclosed inside =>
    rw [same] at unquoted
    simp at unquoted
  | unexpected other => exact unexpected_ne_unterminated _

/-- What is read does not depend on the kinds of blanks, but for a time with am or pm behind it. -/
theorem read_respaced {mode : Mode} {glued : Bool} {c : Char} {rest rest' : List Char}
    (visible : isBlank c = false) (unquoted : '"' ∉ c :: rest) (respaced : Respaced rest rest')
    (agree : (read mode glued c rest).1.kind = .time →
      halfDayAt (c :: rest') (clockLength (read mode glued c rest).1.text) =
        halfDayAt (c :: rest) (clockLength (read mode glued c rest).1.text)) :
    read mode glued c rest' = read mode glued c rest := by
  have whole : Respaced (c :: rest) (c :: rest') := List.Forall₂.cons (.inl rfl) respaced
  obtain ⟨run, tail, tail', rfl, rfl, inside, parts, parts'⟩ := respaced.shares
  have breaks := parts.breaks
  have breaks' := parts'.breaks
  have all : ∀ d ∈ c :: run, isBlank d = false := List.forall_mem_cons.2 ⟨visible, inside⟩
  by_cases among : mode = .arguments
  · subst among
    have argument {tail : List Char} (parts : Parts tail) :
        (c :: (run ++ tail)).takeWhile (fun c => !isBlank c) = c :: run :=
      takeWhile_visible all parts
    rw [read, read, readArgument, readArgument, argument parts, argument parts']
  by_cases clock : startsClock (c :: run) = true
  · have digit := digit_of_startsClock clock
    have starts (more : List Char) : (isDigit c || (c = '.' && startsDigit more)) = true := by
      rw [digit, Bool.true_or]
    have noColon : c ≠ ':' := (visible_of_starts (.inl digit) []).2.2
    rw [read_plain among noColon, readPlain_starts (starts _), ← List.cons_append,
      startsDate_cut breaks, startsClock_cut breaks, if_pos clock] at agree
    rw [read_plain among noColon, read_plain among noColon, readPlain_starts (starts _),
      readPlain_starts (starts _), ← List.cons_append, ← List.cons_append, startsDate_cut breaks,
      startsDate_cut breaks', startsClock_cut breaks, startsClock_cut breaks', if_pos clock]
    split
    · rename_i date
      have ten := length_of_startsDate date
      rw [List.take_append_of_le_length ten, List.take_append_of_le_length ten]
    · rename_i noDate
      rw [if_neg noDate] at agree
      have clock' : startsClock (c :: run ++ tail) = true := by rwa [startsClock_cut breaks]
      have same := (clockText_cut breaks' clock).trans (clockText_cut breaks clock).symm
      have half := agree (readClock_kind _)
      rw [clockLength_readClock clock'] at half
      exact congrArg (·, Mode.words) (readClock_respaced whole same half)
  · have complete (tail : List Char) : Complete (read mode glued c run).1 (c :: run) tail := by
      constructor
      · apply closed_of_unquoted visible
        rw [← List.cons_append] at unquoted
        exact fun quote => unquoted (List.mem_append_left _ quote)
      · intro _ starts _
        exact absurd starts clock
    rw [read_cut breaks (complete _) (absurd · among),
      read_cut breaks' (complete _) (absurd · among)]

theorem halfDay_of_read {mode then_ then' : Mode} {glued : Bool} {c : Char} {rest rest' : List Char}
    {r r' : Reading} (reads : read mode glued c rest = (r, then_))
    (reads' : read mode glued c rest' = (r', then')) (kind : r'.kind = r.kind)
    (text : r'.text = r.text) (time : r.kind = .time) :
    halfDayAt (c :: rest') (clockLength r.text) = halfDayAt (c :: rest) (clockLength r.text) := by
  have timed := read_timed reads time
  have timed' := read_timed reads' (kind.trans time)
  rw [TimedFrom, text] at timed'
  exact timed'.trans timed.symm

/-! Whole lines. -/

def clockStop (t : Token) : Nat := t.position + clockLength t.text.toList

theorem Respaced.noComment {c : Char} {rest rest' : List Char} (respaced : Respaced rest rest')
    (noComment : ¬ ['/', '/'] <+: c :: rest) : ¬ ['/', '/'] <+: c :: rest' := by
  intro comment
  obtain ⟨rfl, slash⟩ := List.cons_prefix_cons.1 comment
  obtain ⟨after, rfl⟩ := slash
  obtain ⟨_, rfl, _⟩ := respaced.symm.cons slash_visible
  exact noComment ⟨_, rfl⟩

theorem isGlued_blank {mode : Mode} {d : Char} {cs : List Char} (blank : isBlank d = true) :
    isGlued mode (d :: cs) = false :=
  isGlued_apart (by simpa using isLetter_of_isBlank blank)

theorem isGlued_respaced (mode : Mode) {blank blank' after after' : List Char} {c : Char}
    (blanks : ∀ d ∈ blank, isBlank d = true) (respaced : Respaced blank blank') :
    isGlued mode (blank' ++ c :: after') = isGlued mode (blank ++ c :: after) := by
  cases respaced with
  | nil => rfl
  | @cons d d' front front' pair others =>
    have both : Respaced (d :: front) (d' :: front') := List.Forall₂.cons pair others
    rw [List.cons_append, List.cons_append, isGlued_blank (blanks d List.mem_cons_self),
      isGlued_blank (both.blanks blanks d' List.mem_cons_self)]

theorem drop_behind {whole blank after : List Char} {position : Nat}
    (here : whole.drop position = blank ++ after) (n : Nat) :
    whole.drop (position + blank.length + n) = after.drop n := by
  rw [← List.drop_drop, ← List.drop_drop, here, List.drop_left]

theorem halfDayAt_behind {whole blank after : List Char} {position : Nat}
    (here : whole.drop position = blank ++ after) (r : Reading) :
    halfDayAt whole (clockStop ⟨r.kind, String.ofList r.text, position + blank.length⟩) =
      halfDayAt after (clockLength r.text) := by
  rw [clockStop, String.toList_ofList, halfDayAt, drop_behind here, halfDayAt]

theorem Scans.respaced {mode : Mode} {position : Nat} {cs ds whole whole' : List Char}
    {ls ls' : List Lexeme} (scans : Scans mode position cs ls) (scans' : Scans mode position ds ls')
    (unquoted : '"' ∉ cs) (respaced : Respaced cs ds) (here : whole.drop position = cs)
    (here' : whole'.drop position = ds) :
    ls'.map (·.token) = ls.map (·.token) ↔ ∀ l ∈ ls, l.token.kind = .time →
      halfDayAt whole' (clockStop l.token) = halfDayAt whole (clockStop l.token) := by
  induction scans generalizing ds ls' with
  | ended blanks =>
    obtain rfl := scans'.unique (.ended (respaced.blanks blanks))
    simp
  | comment blanks =>
    obtain ⟨blank', back, rfl, front, comment⟩ := respaced.append
    obtain ⟨_, rfl, second⟩ := comment.cons slash_visible
    obtain ⟨_, rfl, _⟩ := second.cons slash_visible
    obtain rfl := scans'.unique (.comment (front.blanks blanks))
    simp
  | @next mode then_ position blank rest c r later blanks visible noComment reads continued ih =>
    obtain ⟨blank', back, rfl, front, both⟩ := respaced.append
    obtain ⟨rest', rfl, behind⟩ := both.cons visible
    have length : blank'.length = blank.length := front.length_eq.symm
    have unquoted' : '"' ∉ c :: rest := fun quote => unquoted (List.mem_append_right blank quote)
    have glue : isGlued mode (blank' ++ c :: rest') = isGlued mode (blank ++ c :: rest) :=
      isGlued_respaced mode blanks front
    rcases reads' : read mode (isGlued mode (blank' ++ c :: rest')) c rest' with ⟨r', then'⟩
    obtain ⟨later', continued'⟩ : ∃ later', Scans then' (position + blank'.length + r'.width)
      ((c :: rest').drop r'.width) later' := ⟨_, scans_lexemesFuel then' _ (Nat.le_refl _)⟩
    obtain rfl := scans'.unique
      (.next (front.blanks blanks) visible (behind.noComment noComment) reads' continued')
    have place := halfDayAt_behind here r
    have place' := halfDayAt_behind here' r
    have ahead := drop_behind here' r'.width
    rw [glue] at reads'
    rw [length] at continued' place' ahead ⊢
    rw [List.map_cons, List.map_cons, List.cons.injEq, List.forall_mem_cons, place, place']
    by_cases agree : r.kind = .time →
      halfDayAt (c :: rest') (clockLength r.text) = halfDayAt (c :: rest) (clockLength r.text)
    -- As soon as one time differs the tokens do, so what is read behind it is of no account.
    · have same : (r', then') = (r, then_) := by
        rw [← reads', ← reads]
        exact read_respaced visible unquoted' behind (by rwa [reads])
      obtain ⟨rfl, rfl⟩ := Prod.mk.inj same
      have onwards := ih continued' (fun quote => unquoted' (List.mem_of_mem_drop quote))
        (both.drop _) (drop_behind here _) ahead
      exact and_congr (iff_of_true rfl agree) onwards
    · constructor
      · intro tokens
        obtain ⟨kind, text, _⟩ := Token.mk.inj tokens.1
        exact absurd (halfDay_of_read reads reads' kind (String.ofList_injective text)) agree
      · intro times
        exact absurd times.1 agree

end Scan

open Scan

/-- A line with other blanks has the same tokens exactly if none of its times loses or gains am or
    pm. -/
theorem tokenize_respaced {line line' : String} (unquoted : '"' ∉ line.toList)
    (respaced : Respaced line.toList line'.toList) :
    tokenize line' = tokenize line ↔ ∀ t ∈ tokenize line, t.kind = .time →
      halfDayAt line'.toList (clockStop t) = halfDayAt line.toList (clockStop t) := by
  have here : line.toList.drop 0 = line.toList := rfl
  have here' : line'.toList.drop 0 = line'.toList := rfl
  have times := (scans_lexemes line).respaced (scans_lexemes line') unquoted respaced here here'
  rw [tokenize, tokenize, times, List.forall_mem_map]

theorem tokenize_respaced_tab :
    '"' ∉ "1 +\t9:05 pm".toList ∧ Respaced "1 +\t9:05 pm".toList "1\t+ 9:05 pm".toList ∧
      tokenize "1 +\t9:05 pm" =
        [⟨.number, "1", 0⟩, ⟨.plus, "+", 2⟩, ⟨.time, "9:05pm", 4⟩] ∧
      tokenize "1\t+ 9:05 pm" = tokenize "1 +\t9:05 pm" := by
  have unquoted : '"' ∉ "1 +\t9:05 pm".toList := by decide
  have respaced : Respaced "1 +\t9:05 pm".toList "1\t+ 9:05 pm".toList := by decide
  have tokens : tokenize "1 +\t9:05 pm" =
      [⟨.number, "1", 0⟩, ⟨.plus, "+", 2⟩, ⟨.time, "9:05pm", 4⟩] := by decide +kernel
  refine ⟨unquoted, respaced, tokens, (tokenize_respaced unquoted respaced).2 ?_⟩
  rw [tokens]
  decide +kernel

/-- A tab before pm ends the time. -/
theorem tokenize_tab_before_pm :
    '"' ∉ "9:05 pm".toList ∧ Respaced "9:05 pm".toList "9:05\tpm".toList ∧
      tokenize "9:05 pm" = [⟨.time, "9:05pm", 0⟩] ∧
      tokenize "9:05\tpm" = [⟨.time, "9:05", 0⟩, ⟨.identifier, "pm", 5⟩] := by
  refine ⟨by decide, ?_, by decide +kernel, by decide +kernel⟩
  decide

end NotepadCalculator
