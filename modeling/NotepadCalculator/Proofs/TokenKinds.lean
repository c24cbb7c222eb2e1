import Mathlib.Data.List.TakeWhile
import NotepadCalculator.Proofs.TokenSpans

/-!
What the scanner takes for which kind of token. Only a colon makes a command, nothing in a line is
taken for its end, and a number begins with a digit or with a point.
-/
namespace NotepadCalculator

namespace Scan

def BeginsNumber : List Char → Prop
  | [] => False
  | c :: _ => Text.isDigit c = true ∨ c = '.'

/-- No end of a line, and a number only where the text is like one. -/
def Lexical (kind : TokenKind) (text : List Char) : Prop :=
  kind ≠ .eof ∧ (kind = .number → BeginsNumber text)

theorem lexical_of_kind {kind : TokenKind} (text : List Char)
    (other : kind ∉ [.command, .eof, .number]) : kind ≠ .command ∧ Lexical kind text := by
  simp only [List.mem_cons, List.not_mem_nil, or_false, not_or] at other
  exact ⟨other.1, other.2.1, fun number => absurd number other.2.2⟩

theorem beginsNumber_numberText {c : Char} {rest : List Char}
    (starts : (Text.isDigit c || (c = '.' && startsDigit rest)) = true) :
    BeginsNumber (numberText (c :: rest)) := by
  have nonempty := numberText_ne_nil starts
  have initial := numberText_initial (c :: rest)
  cases text : numberText (c :: rest) with
  | nil => contradiction
  | cons d tail =>
    rw [text] at initial
    obtain rfl := (List.cons_prefix_cons.1 initial).1
    simp only [Bool.or_eq_true, Bool.and_eq_true, decide_eq_true_eq] at starts
    exact starts.imp_right (·.1)

theorem readClock_kind (cs : List Char) : (readClock cs).kind = .time := by
  unfold readClock
  dsimp only
  rw [apply_ite Reading.kind]
  exact ite_self _

theorem readNumber_lexical {c : Char} {rest : List Char}
    (starts : (Text.isDigit c || (c = '.' && startsDigit rest)) = true) :
    (readNumber (c :: rest)).1.kind ≠ .command ∧
      Lexical (readNumber (c :: rest)).1.kind (readNumber (c :: rest)).1.text := by
  unfold readNumber
  dsimp only
  split
  · exact lexical_of_kind _ (by simp)
  · exact ⟨TokenKind.noConfusion, TokenKind.noConfusion, fun _ => beginsNumber_numberText starts⟩

theorem readWord_lexical (glued : Bool) (cs : List Char) :
    (readWord glued cs).kind ≠ .command ∧
      Lexical (readWord glued cs).kind (readWord glued cs).text := by
  unfold readWord
  dsimp only
  split
  · exact lexical_of_kind _ (by simp)
  · cases glued <;> exact lexical_of_kind _ (by simp)

theorem readPlain_lexical (glued : Bool) (c : Char) (rest : List Char) :
    (readPlain glued c rest).1.kind ≠ .command ∧
      Lexical (readPlain glued c rest).1.kind (readPlain glued c rest).1.text := by
  unfold readPlain
  split
  · rename_i kind known
    unfold operator? at known
    split at known <;> cases known <;> exact lexical_of_kind _ (by simp)
  split
  · unfold readText
    dsimp only
    split <;> exact lexical_of_kind _ (by simp)
  split
  · exact lexical_of_kind _ (by simp)
  split
  · rename_i starts
    split
    · exact lexical_of_kind _ (by simp)
    split
    · exact lexical_of_kind _ (by simp [readClock_kind])
    · exact readNumber_lexical starts
  split
  · exact readWord_lexical glued _
  · exact lexical_of_kind _ (by simp)

theorem read_lexical (mode : Mode) (glued : Bool) (c : Char) (rest : List Char) :
    Lexical (read mode glued c rest).1.kind (read mode glued c rest).1.text := by
  unfold read
  split
  · exact (lexical_of_kind _ (by simp [readArgument])).2
  · split
    · exact ⟨TokenKind.noConfusion, TokenKind.noConfusion⟩
    · exact (readPlain_lexical glued c rest).2
  · exact (readPlain_lexical glued c rest).2

theorem lexemesFuel_lexical (fuel : Nat) (mode : Mode) (position : Nat) (cs : List Char) :
    ∀ lexeme ∈ lexemesFuel fuel mode position cs,
      Lexical lexeme.token.kind lexeme.token.text.toList := by
  induction fuel generalizing mode position cs with
  | zero => simp [lexemesFuel]
  | succ fuel ih =>
    unfold lexemesFuel
    dsimp only
    split
    · simp
    · simp
    · rename_i c rest _ _
      refine List.forall_mem_cons.2 ⟨?_, ih _ _ _⟩
      simpa using read_lexical mode (isGlued mode cs) c rest

end Scan

theorem tokenize_lexical (line : String) :
    ∀ t ∈ tokenize line, Scan.Lexical t.kind t.text.toList := by
  intro t member
  obtain ⟨lexeme, among, rfl⟩ := List.mem_map.1 member
  exact Scan.lexemesFuel_lexical _ _ _ _ lexeme among

/-! Lines that begin with a colon. -/

def Text.firstVisible? (line : String) : Option Char := line.toList.find? fun c => !isBlank c

namespace Scan
open Text

theorem lexemesFuel_first (fuel position : Nat) (cs : List Char) :
    ((lexemesFuel (fuel + 1) .opening position cs).head?.map (·.token.kind) = some .command) ↔
      cs.find? (fun c => !isBlank c) = some ':' := by
  have visible : cs.find? (fun c => !isBlank c) =
      (cs.drop (cs.takeWhile isBlank).length).head? := by
    have parts : cs.takeWhile isBlank ++ cs.dropWhile isBlank = cs :=
      List.takeWhile_append_dropWhile
    have dropped := congrArg (List.drop (cs.takeWhile isBlank).length) parts
    rw [List.drop_left] at dropped
    simp [← dropped, List.find?_eq_head?_dropWhile_not]
  rw [visible]
  unfold lexemesFuel
  simp only
  split
  · rename_i none
    simp [none]
  · rename_i comment
    simp [comment]
  · rename_i c rest _ here
    rw [here]
    by_cases colon : c = ':'
    · simp [read, colon, readCommand]
    · have plain := (readPlain_lexical (isGlued .opening cs) c rest).1
      simp [read, colon, plain]

end Scan

theorem first_kind_iff (line : String) :
    (tokenize line).head?.map (·.kind) = some .command ↔
      Text.firstVisible? line = some ':' := by
  unfold tokenize Scan.lexemes Text.firstVisible?
  rw [List.head?_map, Option.map_map, ← String.length_toList]
  cases line.toList with
  | nil => simp [Scan.lexemesFuel]
  | cons c rest => exact Scan.lexemesFuel_first rest.length 0 (c :: rest)

end NotepadCalculator
