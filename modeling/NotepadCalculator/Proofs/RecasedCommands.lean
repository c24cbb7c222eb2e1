import NotepadCalculator.Proofs.JoinedLines
import NotepadCalculator.Proofs.OpenedFiles

/-!
Command names in other letter case. The sheet takes the name of a command in any ASCII letter case,
the session knows its own commands by their exact names only. So a line whose command is spelled in
other letters does the same if both spellings are the session's or neither is; if only one of them
is, then the other one does nothing at all.
-/
namespace NotepadCalculator
open Text

/-- The line with another name for the command that it begins with. -/
def renamed (line : String) (command : Token) (name : String) : String :=
  String.ofList (line.toList.take (command.position + 1) ++ name.toList ++
    line.toList.drop (command.stop + 1))

/-! Names in a line. -/

namespace Scan

theorem isWordChar_asciiLower (c : Char) : isWordChar (asciiLower c) = isWordChar c := by
  rcases asciiLower_cases c with same | ⟨least, most, lower⟩
  · rw [same]
  · have between : 97 ≤ (asciiLower c).toNat ∧ (asciiLower c).toNat ≤ 122 := by omega
    have letter : isLetter c = true := isLetter_of_lowered between
    have lowered : isLetter (asciiLower c) = true := by
      rw [← asciiLower_idem] at between
      exact isLetter_of_lowered between
    simp [isWordChar, letter, lowered]

theorem letters_recased {name word : List Char}
    (same : name.map asciiLower = word.map asciiLower)
    (letters : ∀ c ∈ word, isWordChar c = true) : ∀ c ∈ name, isWordChar c = true := by
  intro c member
  obtain ⟨d, here, lowered⟩ := List.mem_map.1 (same ▸ List.mem_map_of_mem member)
  rw [← isWordChar_asciiLower, ← lowered, isWordChar_asciiLower]
  exact letters d here

structure Names (blank word tail : List Char) : Prop where
  blanks : ∀ c ∈ blank, isBlank c = true
  letters : ∀ c ∈ word, isWordChar c = true
  ends : tail.head?.any isWordChar = false

theorem readCommand_named {blank word tail : List Char} (names : Names blank word tail) :
    readCommand (word ++ tail) = (⟨.command, word, word.length + 1⟩, .arguments) := by
  simp only [readCommand, takeWhile_left names.letters names.ends]

theorem Scans.named {cs : List Char} {first : Lexeme} {later : List Lexeme}
    (scans : Scans .opening 0 cs (first :: later)) (command : first.token.kind = .command) :
    ∃ blank word tail, Names blank word tail ∧ cs = blank ++ ':' :: (word ++ tail) ∧
      first.token = ⟨.command, String.ofList word, blank.length⟩ ∧
      Scans .arguments (blank.length + (word.length + 1)) tail later := by
  cases scans with
  | @next _ then_ _ blank rest c r later blanks visible noComment reads continued =>
    by_cases colon : c = ':'
    · subst colon
      have parts : rest.takeWhile isWordChar ++ rest.dropWhile isWordChar = rest :=
        List.takeWhile_append_dropWhile
      have ends : (rest.dropWhile isWordChar).head?.any isWordChar = false := by
        have stopped := List.head?_dropWhile_not isWordChar rest
        cases after : (rest.dropWhile isWordChar).head? <;> simp_all
      have names : Names blank (rest.takeWhile isWordChar) (rest.dropWhile isWordChar) :=
        ⟨blanks, fun c => mem_takeWhile, ends⟩
      generalize rest.takeWhile isWordChar = word, rest.dropWhile isWordChar = tail
        at parts names
      subst parts
      have read : readCommand (word ++ tail) = (r, then_) := reads
      rw [readCommand_named names] at read
      obtain ⟨rfl, rfl⟩ := Prod.mk.inj read
      rw [Nat.zero_add, List.drop_succ_cons, List.drop_left] at continued
      exact ⟨blank, word, tail, names, rfl, by simp, continued⟩
    · rw [read_plain (by decide) colon] at reads
      have plain := (readPlain_lexical (isGlued .opening (blank ++ c :: rest)) c rest).1
      rw [reads] at plain
      exact absurd command plain

theorem scans_named {blank word tail : List Char} {later : List Lexeme}
    (names : Names blank word tail)
    (continued : Scans .arguments (blank.length + (word.length + 1)) tail later) :
    Scans .opening 0 (blank ++ ':' :: (word ++ tail))
      (⟨⟨.command, String.ofList word, blank.length⟩, word.length + 1⟩ :: later) := by
  have visible : isBlank ':' = false := by decide
  have reads : read .opening (isGlued .opening (blank ++ ':' :: (word ++ tail))) ':'
      (word ++ tail) = (⟨.command, word, word.length + 1⟩, .arguments) := readCommand_named names
  have onward : Scans .arguments (0 + blank.length + (word.length + 1))
      ((':' :: (word ++ tail)).drop (word.length + 1)) later := by
    rw [Nat.zero_add, List.drop_succ_cons, List.drop_left]
    exact continued
  simpa using Scans.next names.blanks visible (by simp) reads onward

end Scan

theorem Text.lowerAscii_eq_iff {name word : String} :
    lowerAscii name = lowerAscii word ↔ name.toList.map asciiLower = word.toList.map asciiLower :=
  ⟨fun same => String.ofList_injective same, congrArg String.ofList⟩

theorem Text.empty_of_lowerAscii {name word : String} (same : lowerAscii name = lowerAscii word) :
    name = "" ↔ word = "" := by
  have lengths := congrArg List.length (lowerAscii_eq_iff.1 same)
  simp only [List.length_map] at lengths
  rw [← String.toList_eq_nil_iff, ← String.toList_eq_nil_iff, ← List.length_eq_zero_iff, lengths,
    List.length_eq_zero_iff]

/-- Nothing but the name of the command changes. -/
theorem tokenize_renamed {line name : String} {command : Token} {rest : List Token}
    (tokens : tokenize line = command :: rest) (kind : command.kind = .command)
    (same : lowerAscii name = lowerAscii command.text) :
    tokenize (renamed line command name) = { command with text := name } :: rest := by
  have scans := Scan.scans_lexemes line
  rw [tokenize] at tokens
  cases scanned : Scan.lexemes line with
  | nil => simp [scanned] at tokens
  | cons first later =>
    rw [scanned] at scans tokens
    obtain ⟨rfl, rfl⟩ := List.cons.inj tokens
    obtain ⟨blank, word, tail, names, characters, token, continued⟩ := scans.named kind
    dsimp only at same ⊢
    rw [token] at same ⊢
    have lowered : name.toList.map asciiLower = word.map asciiLower := by
      rw [lowerAscii_eq_iff, String.toList_ofList] at same
      exact same
    have length : name.toList.length = word.length := by
      simpa using congrArg List.length lowered
    have here : (renamed line ⟨.command, String.ofList word, blank.length⟩ name).toList =
        blank ++ ':' :: (name.toList ++ tail) := by
      have front : (blank ++ ':' :: (word ++ tail)).take (blank.length + 1) = blank ++ [':'] := by
        rw [List.take_length_add_append]
        rfl
      have back :
          (blank ++ ':' :: (word ++ tail)).drop (blank.length + word.length + 1) = tail := by
        rw [Nat.add_assoc, List.drop_length_add_append, List.drop_succ_cons, List.drop_left]
      simp only [renamed, Token.stop, characters, String.toList_ofList, String.length_ofList, front,
        back]
      simp
    have renamed : Scan.Names blank name.toList tail :=
      ⟨names.blanks, Scan.letters_recased lowered names.letters, names.ends⟩
    rw [← length] at continued
    have scans := Scan.scans_named renamed continued
    rw [← here] at scans
    rw [tokenize_of_scans scans, List.map_cons, String.ofList_toList]

/-! What becomes of a command. -/

namespace Grammar

theorem parse_command_first {fuzzy : Bool} {first : Token} {rest : List Token}
    (kind : first.kind = .command) : parse fuzzy (first :: rest) =
      match rest.find? (·.kind = .error) with
      | some token => .error ⟨.unreadable token.text, token.position⟩
      | none => command first rest := by
  have unread : (first :: rest).find? (·.kind = .error) = rest.find? (·.kind = .error) :=
    List.find?_cons_of_neg (by simp [kind])
  have unended : first.kind ≠ .eof := by simp [kind]
  unfold parse
  rw [unread]
  cases rest.find? (·.kind = .error) with
  | some token => rfl
  | none => exact (if_neg unended).trans (if_pos kind)

end Grammar

namespace HostCommand

def names : List String := ["save", "open", "quit", "q"]

theorem mem_names_of_ofTokens? {first : Token} {rest : List Token} {own : HostCommand}
    (read : ofTokens? (first :: rest) = some own) : first.text ∈ names := by
  simp only [ofTokens?] at read
  split at read
  · contradiction
  · split at read <;> simp_all [names]

def takes (line : String) : Bool := (ofTokens? (tokenize line)).isSome

theorem mem_names_of_takes {line : String} {first : Token} {rest : List Token}
    (tokens : tokenize line = first :: rest) (taken : takes line = true) : first.text ∈ names := by
  rw [takes, tokens] at taken
  obtain ⟨own, read⟩ := Option.isSome_iff_exists.1 taken
  exact mem_names_of_ofTokens? read

theorem lowerAscii_of_mem_names {name : String} (own : name ∈ names) : lowerAscii name = name := by
  have each : ∀ name ∈ names, lowerAscii name = name := by decide
  exact each name own

end HostCommand

namespace Sheet

theorem enter_command {s : Sheet} {line : String} {first : Token} {rest : List Token}
    (tokens : tokenize line = first :: rest) (kind : first.kind = .command) : s.enter line =
      match rest.find? (·.kind = .error) with
      | some token => (.failure (.parse ⟨.unreadable token.text, token.position⟩), s)
      | none => if first.text = "" then (.failure (.parse ⟨.malformedCommand, first.position⟩), s)
        else s.command (lowerAscii first.text)
          ((rest.takeWhile (·.kind = .commandArg)).map (·.text)) := by
  rw [enter, parseLine, tokens, Grammar.parse_command_first kind]
  cases rest.find? (·.kind = .error) with
  | some token => rfl
  | none =>
    by_cases empty : first.text = "" <;> simp [Grammar.command, empty]

theorem command_unknown {name : String} (own : name ∈ HostCommand.names) (s : Sheet)
    (arguments : List String) : (s.command name arguments).2 = s := by
  simp only [HostCommand.names, List.mem_cons, List.not_mem_nil, or_false] at own
  rcases own with rfl | rfl | rfl | rfl <;> rfl

theorem enter_unknown {s : Sheet} {line : String} {first : Token} {rest : List Token}
    (tokens : tokenize line = first :: rest) (kind : first.kind = .command)
    (own : lowerAscii first.text ∈ HostCommand.names) : (s.enter line).2 = s := by
  rw [enter_command tokens kind]
  split
  · rfl
  · split
    · rfl
    · exact command_unknown own s _

theorem enter_recased (s : Sheet) {line other name : String} {first : Token} {rest : List Token}
    (tokens : tokenize line = first :: rest) (kind : first.kind = .command)
    (renamed : tokenize other = { first with text := name } :: rest)
    (same : lowerAscii name = lowerAscii first.text) : s.enter other = s.enter line := by
  rw [enter_command renamed kind, enter_command tokens kind]
  simp only [same, empty_of_lowerAscii same]

end Sheet

/-! What a line leads to. -/

namespace Session

section
variable {σ : Type} [FileStore σ]

/-- What becomes of the session and of the files, apart from what is printed. -/
def effect (s : Session) (line : String) (d : σ) : Option (Flow × Session) × σ :=
  ((s.handle line : StateM σ _).run d).map (Option.map fun reply => (reply.flow, reply.session)) id

theorem effect_of_left {line : String} (left : HostCommand.takes line = false) (s : Session)
    (d : σ) :
    s.effect line d = (some (.proceed, { s with sheet := (s.sheet.enter line).2 }), d) := by
  have untaken : HostCommand.ofTokens? (tokenize line) = none := by
    simpa [HostCommand.takes] using left
  unfold effect handle depthLimit
  rw [run_handleWithin, untaken]
  rfl

/-- A command of the session is handled by its tokens alone. -/
theorem effect_of_taken {line other : String} (taken : HostCommand.takes line = true)
    (same : tokenize other = tokenize line) (s : Session) (d : σ) :
    s.effect other d = s.effect line d := by
  obtain ⟨own, read⟩ := Option.isSome_iff_exists.1 taken
  unfold effect handle depthLimit
  rw [run_handleWithin, run_handleWithin, same, read]
  cases own <;> rfl

/-- Where the session takes only one of two spellings for a command of its own, the other one does
    nothing; else both do the same. -/
theorem handle_recased (s : Session) (d : σ) {line name : String} {command : Token}
    {rest : List Token} (tokens : tokenize line = command :: rest)
    (kind : command.kind = .command) (same : lowerAscii name = lowerAscii command.text) :
    let other := renamed line command name
    (HostCommand.takes other = HostCommand.takes line → s.effect other d = s.effect line d) ∧
      (HostCommand.takes other = false → HostCommand.takes line = true →
        s.effect other d = (some (.proceed, s), d)) ∧
      (HostCommand.takes other = true → HostCommand.takes line = false →
        s.effect line d = (some (.proceed, s), d)) := by
  intro other
  have tokens' : tokenize other = { command with text := name } :: rest :=
    tokenize_renamed tokens kind same
  have mine (taken : HostCommand.takes line = true) :=
    HostCommand.mem_names_of_takes tokens taken
  have mine' (taken : HostCommand.takes other = true) : name ∈ HostCommand.names :=
    HostCommand.mem_names_of_takes tokens' taken
  refine ⟨fun agree => ?_, fun left taken => ?_, fun taken left => ?_⟩
  · cases taken : HostCommand.takes line with
    | false =>
      have entered := s.sheet.enter_recased tokens kind tokens' same
      rw [effect_of_left (agree.trans taken), effect_of_left taken, entered]
    | true =>
      have exactly : name = command.text := by
        rw [← HostCommand.lowerAscii_of_mem_names (mine taken), ← same,
          HostCommand.lowerAscii_of_mem_names (mine' (agree.trans taken))]
      exact effect_of_taken taken (by rw [tokens', tokens, exactly]) s d
  · have own : lowerAscii name ∈ HostCommand.names := by
      rw [same, HostCommand.lowerAscii_of_mem_names (mine taken)]
      exact mine taken
    rw [effect_of_left left, Sheet.enter_unknown tokens' kind own]
  · have own : lowerAscii command.text ∈ HostCommand.names := by
      rw [← same, HostCommand.lowerAscii_of_mem_names (mine' taken)]
      exact mine' taken
    rw [effect_of_left left, Sheet.enter_unknown tokens kind own]

end

theorem handle_recased_set :
    tokenize ":set precision 4" =
        [⟨.command, "set", 0⟩, ⟨.commandArg, "precision", 5⟩, ⟨.commandArg, "4", 15⟩] ∧
      lowerAscii "SeT" = lowerAscii "set" ∧
      untouched.effect ":SeT precision 4" ([] : Directory) =
        untouched.effect ":set precision 4" [] ∧
      (untouched.effect ":SeT precision 4" ([] : Directory)).1.map
        (·.2.sheet.settings.precision) = some 4 := by
  have tokens : tokenize ":set precision 4" =
      [⟨.command, "set", 0⟩, ⟨.commandArg, "precision", 5⟩, ⟨.commandArg, "4", 15⟩] := by
    decide +kernel
  have same : lowerAscii "SeT" = lowerAscii "set" := by decide
  have other : renamed ":set precision 4" ⟨.command, "set", 0⟩ "SeT" = ":SeT precision 4" := by
    decide
  have alike := (handle_recased untouched ([] : Directory) tokens rfl same).1
  rw [other] at alike
  exact ⟨tokens, same, alike (by decide +kernel), by decide +kernel⟩

/-- A session saves under the name in small letters only. -/
theorem save_capital :
    tokenize ":save x" = [⟨.command, "save", 0⟩, ⟨.commandArg, "x", 6⟩] ∧
      lowerAscii "Save" = lowerAscii "save" ∧
      renamed ":save x" ⟨.command, "save", 0⟩ "Save" = ":Save x" ∧
      (untouched.effect ":save x" ([] : Directory)).2 = [("x", "")] ∧
      (untouched.effect ":Save x" ([] : Directory)).2 = [] := by
  exact ⟨by decide +kernel, by decide, by decide, by decide +kernel, by decide +kernel⟩

end Session

end NotepadCalculator
