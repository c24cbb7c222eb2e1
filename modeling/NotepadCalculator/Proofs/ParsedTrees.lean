import NotepadCalculator.Proofs.DoubleSigns
import NotepadCalculator.Proofs.GrammarTrees
import NotepadCalculator.Proofs.TokenKinds

/-!
What the tree of a line is like. A token that is a number begins with a digit or a point, so what it
spells has no sign and is no word, and no amount in a tree is below zero. Commands and blank lines
are trees of their own, and an assignment stands at the root.
-/
namespace NotepadCalculator

namespace Text

theorem asciiLower_cases (c : Char) : asciiLower c = c ∨
    65 ≤ c.toNat ∧ c.toNat ≤ 90 ∧ (asciiLower c).toNat = c.toNat + 32 := by
  unfold asciiLower
  split
  · rename_i letter
    have large : 65 ≤ c.toNat ∧ c.toNat ≤ 90 := by
      simpa [Char.le_def, UInt32.le_iff_toNat_le] using letter
    refine .inr ⟨large.1, large.2, ?_⟩
    rw [Char.ofNat, dif_pos (by simp [Nat.isValidChar]; omega)]
    rfl
  · exact .inl rfl

theorem asciiLower_idem (c : Char) : asciiLower (asciiLower c) = asciiLower c := by
  rcases asciiLower_cases c with same | ⟨_, _, lower⟩
  · rw [same, same]
  · rcases asciiLower_cases (asciiLower c) with same | ⟨_, _, _⟩
    · exact same
    · omega

theorem isDigit_iff {c : Char} : isDigit c = true ↔ 48 ≤ c.toNat ∧ c.toNat ≤ 57 := by
  simp [isDigit, Char.le_def, UInt32.le_iff_toNat_le]

theorem lowerAscii_idem (s : String) : lowerAscii (lowerAscii s) = lowerAscii s := by
  simp [lowerAscii, Function.comp_def, asciiLower_idem]

end Text

namespace Number
open Scan Text

theorem toNat_of_beginsNumber {c : Char} {rest : List Char} (begins : BeginsNumber (c :: rest)) :
    46 ≤ c.toNat ∧ c.toNat ≤ 57 := by
  rcases begins with digit | rfl
  · have between := isDigit_iff.1 digit
    omega
  · decide

theorem splitSign_of_beginsNumber {cs : List Char} (begins : BeginsNumber cs) :
    splitSign cs = (false, cs) := by
  unfold splitSign
  split
  · exact absurd begins (by simp [BeginsNumber, isDigit])
  · exact absurd begins (by simp [BeginsNumber, isDigit])
  · rfl

/-- The words for infinity and for no number begin with a letter. -/
theorem read?_of_splitSign {cs body : List Char} {negative : Bool}
    (signed : splitSign cs = (negative, body)) (begins : BeginsNumber body) :
    Numeral.read? cs = Numeral.ofDigits? negative body := by
  cases body with
  | nil => contradiction
  | cons c rest =>
    have bounds := toNat_of_beginsNumber begins
    have kept : asciiLower c = c := by
      rcases asciiLower_cases c with same | ⟨_, _, _⟩
      · exact same
      · omega
    have other {d : Char} (letter : 58 ≤ d.toNat) (tail : List Char) :
        String.ofList ((c :: rest).map asciiLower) ≠ String.ofList (d :: tail) := by
      intro same
      have first : asciiLower c = d := (List.cons.inj (String.ofList_injective same)).1
      rw [kept] at first
      subst first
      omega
    unfold Numeral.read?
    rw [signed]
    dsimp only
    rw [if_neg (not_or.2 ⟨other (d := 'i') (by decide) _, other (d := 'i') (by decide) _⟩),
      if_neg (other (d := 'n') (by decide) _)]

theorem ofDigits?_eq_some {negative : Bool} {cs : List Char} {numeral : Numeral}
    (read : Numeral.ofDigits? negative cs = some numeral) :
    ∃ m e, numeral = .decimal negative m e := by
  unfold Numeral.ofDigits? at read
  dsimp only at read
  split at read
  all_goals
    split at read
    · contradiction
    · obtain ⟨power, _, rfl⟩ := Option.map_eq_some_iff.1 read
      exact ⟨_, _, rfl⟩

theorem nonNegative_of_float? {s : String} (begins : BeginsNumber s.toList) {a : Float}
    (spelled : float? s = some a) : NonNegative a := by
  unfold float? at spelled
  rw [read?_of_splitSign (splitSign_of_beginsNumber begins) begins,
    Option.map_eq_some_iff] at spelled
  obtain ⟨numeral, read, rfl⟩ := spelled
  obtain ⟨m, e, rfl⟩ := ofDigits?_eq_some read
  exact nonNegative_ofScientific m _ _

end Number

namespace Grammar
open Number Scan

/-- What stands in a tree: amounts are not below zero, functions are named in small letters, lines
    are counted from one, and neither an assignment nor what makes a whole line is inside. -/
def Regular : Expr Float → Prop
  | .number amount => NonNegative amount
  | .unit amount _ => NonNegative amount
  | .currency amount _ => NonNegative amount
  | .call name _ => Text.lowerAscii name = name
  | .previous (.back count) => 1 ≤ count
  | .previous (.line number) => 1 ≤ number
  | .assign _ _ => False
  | .command _ _ => False
  | .blank => False
  | _ => True

theorem regular_of_proper {e : Expr Float} (proper : Proper NonNegative e) : Regular e := by
  cases e with
  | call name arguments =>
    obtain ⟨word, rfl⟩ := proper
    exact Text.lowerAscii_idem word
  | previous reference => cases reference <;> exact proper
  | _ => exact proper

theorem nonNegative_vocabulary :
    Vocabulary (fun t => t.kind = .number → BeginsNumber t.text.toList) (fun _ => True)
      NonNegative where
  faults := by simp
  amounts _ begins number _ spelled := nonNegative_of_float? (begins number) spelled
  one := nonNegative_ofScientific 1 true 0
  two := nonNegative_ofScientific 2 true 0
  hundred := nonNegative_ofScientific 100 true 0
  threeQuarters := nonNegative_ofScientific 75 true 2

theorem whole_of_parseLine {fuzzy : Bool} {line : String} {e : Expr Float}
    (parsed : parseLine fuzzy line = .ok e) : Whole NonNegative e := by
  have known : (Cursor.ofTokens (tokenize line)).Holds
      fun t => t.kind = .number → BeginsNumber t.text.toList :=
    ⟨fun t member => (tokenize_lexical line t member).2, TokenKind.noConfusion⟩
  have admissible := parse_admissible nonNegative_vocabulary fuzzy known
  rw [parseLine] at parsed
  rw [parsed] at admissible
  exact admissible

theorem command_eq_ok {token : Token} {rest : List Token} {e : Expr Float}
    (read : command token rest = .ok e) : ∃ name arguments, e = .command name arguments := by
  unfold command at read
  split at read
  · contradiction
  · exact ⟨_, _, (Except.ok.inj read).symm⟩

/-- Without `fuzzy`, only commands may have phrase words. -/
theorem isPhraseWord_of_parseLine {line : String} {e : Expr Float}
    (parsed : parseLine false line = .ok e) : (∃ name arguments, e = .command name arguments) ∨
      ∀ token ∈ tokenize line, isPhraseWord token = false := by
  obtain ⟨_, ⟨ended, _⟩ | ⟨_, commanded⟩ | ⟨_, _, plain | plain, _⟩⟩ := parse_eq_ok.1 parsed
  · -- Tokens do not end lines, so there is none.
    refine .inr fun token member => ?_
    cases tokens : tokenize line with
    | nil => simp [tokens] at member
    | cons first rest =>
      have kind := (tokenize_lexical line first (by simp [tokens])).1
      rw [tokens] at ended
      exact absurd ended kind
  · exact .inl (command_eq_ok commanded)
  · contradiction
  · refine .inr fun token member => ?_
    simpa using List.find?_eq_none.1 plain token member

end Grammar

open Grammar

/-- Blank lines and commands are trees of their own, an assignment is the root of its tree and is
    not to `prev`, and all else is regular throughout. Without `fuzzy`, a line that is no command
    has no phrase words. -/
theorem parseLine_regular {fuzzy : Bool} {line : String} {e : Expr Float}
    (parsed : parseLine fuzzy line = .ok e) :
    (e = .blank ∨ (∃ name arguments, e = .command name arguments) ∨
      (∃ name value, e = .assign name value ∧ Text.lowerAscii name ≠ "prev" ∧
        value.Throughout Regular) ∨
      e.Throughout Regular) ∧
    (fuzzy = false → (∃ name arguments, e = .command name arguments) ∨
      ∀ token ∈ tokenize line, isPhraseWord token = false) := by
  constructor
  · have regular {e : Expr Float} (tree : Tree Number.NonNegative e) : e.Throughout Regular :=
      Expr.throughout_imp tree fun _ => regular_of_proper
    cases whole_of_parseLine parsed with
    | blank => exact .inl rfl
    | command word arguments => exact .inr (.inl ⟨_, _, rfl⟩)
    | assign free tree =>
      exact .inr (.inr (.inl ⟨_, _, rfl, by simpa [isPrev] using free, regular tree⟩))
    | plain tree => exact .inr (.inr (.inr (regular tree)))
  · rintro rfl
    exact isPhraseWord_of_parseLine parsed

theorem parseLine_regular_cost : ∃ name value,
    parseLine false "Cost = SUM(prev~, $2.50)" = .ok (.assign name value) ∧
      Text.lowerAscii name ≠ "prev" ∧ value.Throughout Regular := by
  have assigns : (parseLine false "Cost = SUM(prev~, $2.50)").toOption.map (·.isAssignment) =
      some true := by
    decide +kernel
  cases parsed : parseLine false "Cost = SUM(prev~, $2.50)" with
  | error error =>
    rw [parsed] at assigns
    cases assigns
  | ok e =>
    rw [parsed] at assigns
    have root : e.isAssignment = true := Option.some.inj assigns
    rcases (parseLine_regular parsed).1 with rfl | ⟨_, _, rfl⟩ | ⟨name, value, rfl, free, regular⟩ |
      regular
    · contradiction
    · contradiction
    · exact ⟨name, value, rfl, free, regular⟩
    · cases e with
      | assign name value => exact (Expr.throughout_here regular).elim
      | _ => contradiction

end NotepadCalculator
