import Mathlib.Logic.Function.Iterate
import NotepadCalculator.Proofs.LineDepth
import NotepadCalculator.Proofs.WrittenAmounts

/-!
Conversions in a row. The parser takes them in a loop, as many as there are, and builds the tree of
each around the ones before it; the evaluation goes a level deeper for each. So a line without any
parentheses is parsed and yet given up for depth, from as many conversions on as there are levels.
-/
namespace NotepadCalculator
open Number

/-- The line `1 km in km in km` and so on. -/
def conversionLine (n : Nat) : String := "1 km" ++ String.join (List.replicate n " in km")

def conversionTokens : Nat → Nat → List Token
  | 0, _ => []
  | n + 1, position =>
    ⟨.keyword .in, "in", position + 1⟩ :: ⟨.identifier, "km", position + 4⟩ ::
      conversionTokens n (position + 6)

def conversionLineTokens (n : Nat) : List Token :=
  ⟨.number, "1", 0⟩ :: ⟨.identifier, "km", 2⟩ :: conversionTokens n 4

namespace Scan
open Text

def conversionChars (n : Nat) : List Char := (List.replicate n " in km").flatMap String.toList

theorem startsWord_conversionChars (n : Nat) : startsWord (conversionChars n) = false := by
  cases n with
  | zero => rfl
  | succ n => rfl

theorem lexemesFuel_km (fuel position n : Nat) {mode : Mode}
    (reads : ∀ others, read mode false 'k' others = (readWord false ('k' :: others), .words)) :
    lexemesFuel (fuel + 1) mode position (' ' :: 'k' :: 'm' :: conversionChars n) =
      ⟨⟨.identifier, "km", position + 1⟩, 2⟩ ::
        lexemesFuel fuel .words (position + 3) (conversionChars n) :=
  lexemesFuel_word fuel position mode 'k' ['m'] (conversionChars n) reads (by decide)
    (startsWord_conversionChars n)

theorem lexemesFuel_conversions (fuel n position : Nat) :
    (lexemesFuel (fuel + 2 * n) .words position (conversionChars n)).map (·.token) =
      conversionTokens n position := by
  induction n generalizing position with
  | zero => cases fuel <;> rfl
  | succ n ih =>
    have chars : conversionChars (n + 1) =
        ' ' :: 'i' :: (['n'] ++ ' ' :: 'k' :: 'm' :: conversionChars n) := rfl
    have word := lexemesFuel_word (fuel + 2 * n + 1) position .words 'i' ['n']
      (' ' :: 'k' :: 'm' :: conversionChars n) (fun _ => rfl) (by decide) rfl
    rw [chars, show fuel + 2 * (n + 1) = fuel + 2 * n + 1 + 1 by omega, word,
      lexemesFuel_km _ _ n fun _ => rfl, List.map_cons, List.map_cons, ih]
    rfl

theorem tokenize_conversionLine (n : Nat) :
    tokenize (conversionLine n) = conversionLineTokens n := by
  have characters : (conversionLine n).toList = '1' :: ' ' :: 'k' :: 'm' :: conversionChars n := by
    simp [conversionLine, conversionChars, String.toList_join]
  have length : (conversionLine n).length = 4 * n + 2 + 2 * n + 1 + 1 := by
    rw [← String.length_toList, characters]
    simp [conversionChars]
    omega
  have one : lexemesFuel (4 * n + 2 + 2 * n + 1 + 1) .opening 0
      ('1' :: ' ' :: 'k' :: 'm' :: conversionChars n) = ⟨⟨.number, "1", 0⟩, 1⟩ ::
        lexemesFuel (4 * n + 2 + 2 * n + 1) .afterNumber 1
          (' ' :: 'k' :: 'm' :: conversionChars n) := by
    cases n with
    | zero => rfl
    | succ n => rfl
  rw [tokenize, lexemes, length, characters, one, lexemesFuel_km _ _ n fun _ => rfl, List.map_cons,
    List.map_cons, lexemesFuel_conversions]
  rfl

end Scan

namespace Grammar
open Parse

theorem length_conversionTokens (n position : Nat) :
    (conversionTokens n position).length = n + n := by
  induction n generalizing position with
  | zero => rfl
  | succ n ih =>
    rw [conversionTokens, List.length_cons, List.length_cons, ih]
    omega

theorem pauses_conversionTokens (n position stop : Nat) :
    Pauses ⟨conversionTokens n position, stop⟩ := by
  cases n with
  | zero => exact .inr rfl
  | succ n => exact .inl rfl

theorem run_conversionsFuel (fuel n position stop : Nat) (e : Expr Float) :
    (conversionsFuel (fuel + n) e).run ⟨conversionTokens n position, stop⟩ =
      .ok ((Expr.convert · "km")^[n] e, ⟨[], stop⟩) := by
  induction n generalizing position e with
  | zero => cases fuel <;> rfl
  | succ n ih =>
    have here : (Cursor.mk (conversionTokens (n + 1) position) stop).current.kind =
        .keyword .in := rfl
    have target : conversionTarget.run
        (Cursor.mk (conversionTokens (n + 1) position) stop).forward =
          .ok ("km", ⟨conversionTokens n (position + 6), stop⟩) := by
      have named : isUnitName ⟨.identifier, "km", position + 4⟩ = true := rfl
      rw [conversionTarget, run_current]
      simp only [Cursor.forward, Cursor.current, conversionTokens, List.tail_cons, List.headD_cons,
        named, reduceCtorEq, if_false, if_true]
      rw [run_advance]
      exact run_unitName _ (pauses_conversionTokens n _ stop)
    rw [← Nat.add_assoc, conversionsFuel, run_isAt]
    simp only [here, decide_true, if_true]
    rw [run_advance, run_bind_of_ok target, ih, Function.iterate_succ_apply]

theorem run_term {deeper : Deeper} (n stop : Nat) :
    (term deeper).run ⟨conversionLineTokens n, stop⟩ =
      .ok (.unit 1 "km", ⟨conversionTokens n 4, stop⟩) := by
  have pauses := pauses_conversionTokens n 4 stop
  have noCall : ((conversionTokens n 4).headD (.eof stop)).kind ≠ .openParen := by
    intro opens
    rcases pauses with kind | kind <;> exact absurd (opens.symm.trans kind) (by decide)
  exact run_amount rfl rfl (by decide) (namesUnit_identifier rfl (by decide) noCall) pauses

theorem run_conversions (n stop : Nat) : complete.run ⟨conversionLineTokens n, stop⟩ =
    .ok ((Expr.convert · "km")^[n] (.unit 1 "km"), ⟨[], stop⟩) := by
  have read : (additive (withLevels 199)).run ⟨conversionLineTokens n, stop⟩ =
      .ok (.unit 1 "km", ⟨conversionTokens n 4, stop⟩) :=
    run_additive (run_polarity (run_term n stop) rfl (pauses_conversionTokens n 4 stop))
      (pauses_conversionTokens n 4 stop)
  have whole : wholeExpression.run ⟨conversionLineTokens n, stop⟩ =
      .ok ((Expr.convert · "km")^[n] (.unit 1 "km"), ⟨[], stop⟩) := by
    rw [wholeExpression, nestingLimit, withLevels, expression, run_bind_of_ok read, run_remaining]
    rw [length_conversionTokens]
    exact run_conversionsFuel n n 4 stop _
  have stated : statement.run ⟨conversionLineTokens n, stop⟩ =
      .ok ((Expr.convert · "km")^[n] (.unit 1 "km"), ⟨[], stop⟩) := by
    rw [statement, run_current, run_following]
    exact whole
  rw [complete, run_bind_of_ok stated]
  rfl

theorem kind_of_mem_conversionTokens {n position : Nat} :
    ∀ t ∈ conversionTokens n position, t.kind = .identifier ∨ t.kind = .keyword .in := by
  induction n generalizing position with
  | zero => simp [conversionTokens]
  | succ n ih => simpa [conversionTokens] using fun t => ih t

theorem parse_conversions (fuzzy : Bool) (n : Nat) :
    parse fuzzy (conversionLineTokens n) = .ok ((Expr.convert · "km")^[n] (.unit 1 "km")) := by
  have kinds : ∀ t ∈ conversionLineTokens n, t.kind ∈ [.number, .identifier, .keyword .in] := by
    intro t member
    rw [conversionLineTokens, List.mem_cons, List.mem_cons] at member
    rcases member with rfl | rfl | later
    · decide
    · decide
    · simpa using .inr (kind_of_mem_conversionTokens t later)
  have readable : (conversionLineTokens n).find? (·.kind = .error) = none := by
    have each : ∀ kind ∈ [.number, .identifier, .keyword .in], kind ≠ TokenKind.error := by
      decide
    simpa using fun t member => each _ (kinds t member)
  have plain : (conversionLineTokens n).find? isPhraseWord = none := by
    refine List.find?_eq_none.2 fun t member => ?_
    have kind := kinds t member
    simp only [List.mem_cons, List.not_mem_nil, or_false] at kind
    rcases kind with kind | kind | kind <;> simp [isPhraseWord, kind, Keyword.isPhrase]
  have current : (Cursor.ofTokens (conversionLineTokens n)).current.kind = .number := rfl
  refine parse_eq_ok.2 ⟨readable, .inr (.inr ⟨?_, ?_, .inr plain, _, run_conversions n _⟩)⟩
  · rw [current]
    decide
  · rw [current]
    decide

end Grammar

theorem parseLine_conversions (fuzzy : Bool) (n : Nat) :
    parseLine fuzzy (conversionLine n) = .ok ((Expr.convert · "km")^[n] (.unit 1 "km")) := by
  rw [parseLine, Scan.tokenize_conversionLine, Grammar.parse_conversions]

variable {α : Type}

theorem Expr.depth_conversions (e : Expr α) (target : String) (n : Nat) :
    ((Expr.convert · target)^[n] e).depth = e.depth + n := by
  induction n with
  | zero => rfl
  | succ n ih => rw [Function.iterate_succ_apply', Expr.depth, ih, Nat.add_assoc]

namespace Surroundings
open Evaluation
variable [Amount α]

theorem withLevels_conversions (s : Surroundings α) (e : Expr α) (target : String) {levels n : Nat}
    (few : levels ≤ n) (p : Progress α) :
    (runFrom (s.withLevels levels ((Expr.convert · target)^[n] e)) p).1 =
      .error (.invalidOperation .tooDeep) := by
  induction levels generalizing n p with
  | zero => rfl
  | succ levels ih =>
    obtain ⟨n, rfl⟩ := Nat.exists_eq_add_of_le' (Nat.le_trans (Nat.succ_pos _) few)
    have deeper := ih (Nat.le_of_succ_le_succ few) p
    rw [Function.iterate_succ_apply', withLevels, node, runFrom_bind]
    cases run : runFrom (s.withLevels levels ((Expr.convert · target)^[n] e)) p with
    | mk answer q =>
      rw [run] at deeper
      dsimp only at deeper
      rw [deeper]

end Surroundings

/-- A line of conversions is parsed, however many there are, and it is given up for depth exactly
    if there are as many of them as there are levels. -/
theorem conversionLine_tooDeep_iff (fuzzy : Bool) (n : Nat) (s : Surroundings Float)
    (bindings : Bindings (Value Float)) : ∃ e, parseLine fuzzy (conversionLine n) = .ok e ∧
      ((s.run bindings e).1 = .error (.invalidOperation .tooDeep) ↔ nestingLimit ≤ n) := by
  refine ⟨_, parseLine_conversions fuzzy n, fun deep => ?_, fun many => ?_⟩
  · have levels := (s.run_depth bindings _).1 deep
    rw [Expr.depth_conversions] at levels
    have single : (Expr.unit (1 : Float) "km").depth = 1 := rfl
    omega
  · exact s.withLevels_conversions _ _ many (.start bindings)

theorem conversionLine_given_up :
    ∃ e, parseLine true (conversionLine 200) = .ok e ∧
      (Sheet.fresh.surroundings.run [] e).1 = .error (.invalidOperation .tooDeep) := by
  obtain ⟨e, parsed, deep⟩ := conversionLine_tooDeep_iff true 200 Sheet.fresh.surroundings []
  exact ⟨e, parsed, deep.2 (Nat.le_refl _)⟩

end NotepadCalculator
