import Mathlib.Data.List.TakeWhile
import NotepadCalculator.Proofs.FileStores
import NotepadCalculator.Proofs.GrammarTrees
import NotepadCalculator.Proofs.SheetHistory
import NotepadCalculator.Proofs.TokenSpans
import NotepadCalculator.Session.Basic

/-!
Saving a session and opening what was saved. A file holds nothing but the inputs of the kept lines,
yet entering these again brings the whole sheet back: a line that is not kept leaves no trace, and
a kept line is never taken for a command.
-/
namespace NotepadCalculator
open Calendar Measurement Money Number

/-! Documents. -/

namespace Text

structure IsLine (line : String) : Prop where
  unbroken : '\n' ∉ line.toList
  unended : line.toList.getLast? ≠ some '\r'

instance (line : String) : Decidable (IsLine line) :=
  decidable_of_iff ('\n' ∉ line.toList ∧ line.toList.getLast? ≠ some '\r')
    ⟨fun ⟨unbroken, unended⟩ => ⟨unbroken, unended⟩,
      fun isLine => ⟨isLine.unbroken, isLine.unended⟩⟩

theorem splitAt_ended {mark : Char} {part : List Char} (absent : mark ∉ part)
    (rest : List Char) : splitAt mark (part ++ mark :: rest) = part :: splitAt mark rest := by
  induction part with
  | nil => simp [splitAt]
  | cons c part ih =>
    simp only [List.mem_cons, not_or] at absent
    simp [splitAt, ih absent.2, Ne.symm absent.1]

theorem splitAt_joined {mark : Char} {parts : List (List Char)}
    (absent : ∀ part ∈ parts, mark ∉ part) :
    splitAt mark (parts.flatMap (· ++ [mark])) = parts ++ [[]] := by
  induction parts with
  | nil => rfl
  | cons part parts ih =>
    obtain ⟨here, others⟩ := List.forall_mem_cons.1 absent
    rw [List.flatMap_cons, List.append_assoc, List.singleton_append, splitAt_ended here, ih others]
    rfl

theorem stripEnd_of_ne {mark : Char} {cs : List Char} (other : cs.getLast? ≠ some mark) :
    stripEnd mark cs = cs := if_neg other

theorem documentLines_ended {lines : List String}
    (unbroken : ∀ line ∈ lines, '\n' ∉ line.toList) :
    documentLines (String.join (lines.map (· ++ "\n"))) =
      lines.map fun line => String.ofList (stripEnd '\r' line.toList) := by
  have characters : (String.join (lines.map (· ++ "\n"))).toList =
      (lines.map String.toList).flatMap (· ++ ['\n']) := by
    simp [String.toList_join, List.flatMap_map]
  have parts : ∀ part ∈ lines.map String.toList, '\n' ∉ part := by simpa using unbroken
  rw [documentLines, characters, splitAt_joined parts]
  simp only [List.dropLast_concat, List.getLast?_concat]
  simp [Function.comp_def]

theorem documentLines_join {lines : List String} (each : ∀ line ∈ lines, IsLine line) :
    documentLines (String.join (lines.map (· ++ "\n"))) = lines := by
  rw [documentLines_ended fun line member => (each line member).unbroken]
  refine (List.map_congr_left fun line member => ?_).trans (List.map_id lines)
  rw [stripEnd_of_ne (each line member).unended, String.ofList_toList]
  rfl

end Text

/-! Command lines. -/

structure IsArgument (word : String) : Prop where
  nonempty : word ≠ ""
  unbroken : ∀ c ∈ word.toList, Text.isBlank c = false
  noComment : ¬ ['/', '/'] <+: word.toList

namespace Scan
open Text

theorem noComment_of_argument {word : String} (argument : IsArgument word) {rest : List Char}
    (ends : rest.head?.all isBlank = true) : ¬ ['/', '/'] <+: word.toList ++ rest := by
  rintro ⟨after, same⟩
  have noComment := argument.noComment
  cases characters : word.toList with
  | nil => exact argument.nonempty (String.toList_eq_nil_iff.1 characters)
  | cons c cs =>
    rw [characters] at same noComment
    obtain ⟨rfl, tail⟩ := List.cons.inj same
    cases cs with
    | cons d cs =>
      obtain ⟨rfl, _⟩ := List.cons.inj tail
      exact noComment ⟨cs, rfl⟩
    | nil =>
      cases rest with
      | nil => cases tail
      | cons d rest =>
        obtain ⟨rfl, _⟩ := List.cons.inj tail
        have blank : isBlank '/' = true := ends
        exact absurd blank (by decide)

/-- An argument goes up to the end of the line or to a blank. -/
theorem lexemesFuel_argument (fuel position : Nat) {word : String} (argument : IsArgument word)
    {rest : List Char} (ends : rest.head?.all isBlank = true) :
    lexemesFuel (fuel + 1) .arguments position (' ' :: (word.toList ++ rest)) =
      ⟨⟨.commandArg, word, position + 1⟩, word.length⟩ ::
        lexemesFuel fuel .arguments (position + 1 + word.length) rest := by
  have noComment := noComment_of_argument argument ends
  have stops : rest.head?.any (fun c => !isBlank c) = false := by
    cases rest with
    | nil => rfl
    | cons c rest => simpa using ends
  have all : (word.toList ++ rest).takeWhile (fun c => !isBlank c) = word.toList :=
    takeWhile_left (by simpa using argument.unbroken) stops
  have length : word.toList.length = word.length := String.length_toList
  have text : String.ofList word.toList = word := String.ofList_toList
  have unbroken := argument.unbroken
  cases characters : word.toList with
  | nil => exact absurd (String.toList_eq_nil_iff.1 characters) argument.nonempty
  | cons c cs =>
    rw [characters] at all noComment length text unbroken
    have visible : isBlank c = false := unbroken c List.mem_cons_self
    rw [List.cons_append] at all noComment ⊢
    rw [lexemesFuel_spaced fuel position .arguments visible noComment]
    simp only [read, readArgument, all, length, text]
    rw [← length, ← List.cons_append, List.drop_left]

theorem tokenize_arguments {name word : String} (letters : ∀ c ∈ name.toList, isWordChar c = true)
    (argument : IsArgument word) (rest : List Char) (ends : rest.head?.all isBlank = true) :
    tokenize (String.ofList (':' :: (name.toList ++ ' ' :: (word.toList ++ rest)))) =
      ⟨.command, name, 0⟩ :: ⟨.commandArg, word, name.length + 2⟩ ::
        (lexemesFuel (name.length + word.length + rest.length) .arguments
          (name.length + 2 + word.length) rest).map (·.token) := by
  have length : (String.ofList (':' :: (name.toList ++ ' ' :: (word.toList ++ rest)))).length =
      name.length + word.length + rest.length + 1 + 1 := by
    simp only [String.length_ofList, List.length_cons, List.length_append, String.length_toList]
    omega
  have colon : isBlank ':' = false := by decide
  have named : (name.toList ++ ' ' :: (word.toList ++ rest)).takeWhile isWordChar = name.toList :=
    takeWhile_left letters rfl
  have command := lexemesFuel_unspaced (name.length + word.length + rest.length + 1) 0 .opening
    (name.toList ++ ' ' :: (word.toList ++ rest)) colon (by simp) rfl
  have arguments := lexemesFuel_argument (name.length + word.length + rest.length)
    (name.length + 1) argument ends
  have after : (name.toList ++ ' ' :: (word.toList ++ rest)).drop name.length =
      ' ' :: (word.toList ++ rest) := by
    rw [← String.length_toList, List.drop_left]
  rw [tokenize, lexemes, length, String.toList_ofList, command]
  simp only [read, readCommand, named, if_true, Nat.zero_add, List.drop_succ_cons,
    String.length_toList, String.ofList_toList]
  rw [after, arguments]
  rfl

theorem tokenize_command {name word : String} (letters : ∀ c ∈ name.toList, isWordChar c = true)
    (argument : IsArgument word) : tokenize (":" ++ name ++ " " ++ word) =
      [⟨.command, name, 0⟩, ⟨.commandArg, word, name.length + 2⟩] := by
  have characters : ":" ++ name ++ " " ++ word =
      String.ofList (':' :: (name.toList ++ ' ' :: (word.toList ++ []))) := by
    rw [← String.toList_inj]
    simp
  rw [characters, tokenize_arguments letters argument [] rfl, lexemesFuel_nil]
  rfl

end Scan

namespace HostCommand

theorem ofTokens?_save {path : String} (argument : IsArgument path) :
    ofTokens? (tokenize (":save " ++ path)) = some (.save path) := by
  have letters : "save".toList.all Scan.isWordChar = true := by decide
  have read := Scan.tokenize_command (List.all_eq_true.1 letters) argument
  rw [show ":save " = ":" ++ "save" ++ " " by decide, read]
  rfl

theorem ofTokens?_open {path : String} (argument : IsArgument path) :
    ofTokens? (tokenize (":open " ++ path)) = some (.open path) := by
  have letters : "open".toList.all Scan.isWordChar = true := by decide
  have read := Scan.tokenize_command (List.all_eq_true.1 letters) argument
  rw [show ":open " = ":" ++ "open" ++ " " by decide, read]
  rfl

theorem first_kind_of_kept {fuzzy : Bool} {first : Token} {rest : List Token} {e : Expr Float}
    (parsed : parse fuzzy (first :: rest) = .ok e) (kept : Sheet.isKept e = true) :
    first.kind ≠ .command := by
  intro commanded
  have current : (Cursor.ofTokens (first :: rest)).current = first := rfl
  obtain ⟨_, ⟨_, rfl⟩ | ⟨_, read⟩ | ⟨_, other, _⟩⟩ := Grammar.parse_eq_ok.1 parsed
  · contradiction
  · unfold Grammar.command at read
    split at read
    · contradiction
    · obtain rfl := Except.ok.inj read
      contradiction
  · exact other (by rw [current, commanded])

/-- A line that is kept goes past the session to the sheet. -/
theorem ofTokens?_of_kept {fuzzy : Bool} {tokens : List Token} {e : Expr Float}
    (parsed : parse fuzzy tokens = .ok e) (kept : Sheet.isKept e = true) :
    ofTokens? tokens = none := by
  cases tokens with
  | nil => rfl
  | cons first rest => simp [ofTokens?, first_kind_of_kept parsed kept]

end HostCommand

/-! Sheets that hold nothing but what their lines have led to. -/

namespace Sheet

/-- Sheets that come about from a new one by entering lines that are kept. -/
inductive Rebuilt : Sheet → Prop where
  | new (settings : Settings) (rates : Rates Float) (now : Moment) :
      Rebuilt (.new settings rates now)
  | record {s : Sheet} {input : String} {e : Expr Float} (rebuilt : Rebuilt s)
      (isLine : Text.IsLine input) (parsed : parseLine s.settings.fuzzy input = .ok e)
      (kept : isKept e = true) : Rebuilt (s.record input e).2

theorem enter_of_kept {s : Sheet} {input : String} {e : Expr Float}
    (parsed : parseLine s.settings.fuzzy input = .ok e) (kept : isKept e = true) :
    s.enter input = s.record input e := by
  unfold enter
  rw [parsed]
  cases e <;> first | rfl | contradiction

theorem isLine_of_rebuilt {s : Sheet} (rebuilt : Rebuilt s) :
    ∀ line ∈ s.lines, Text.IsLine line.input := by
  induction rebuilt with
  | new settings rates now => simp [Sheet.new]
  | record rebuilt isLine parsed kept ih =>
    intro line member
    rcases List.mem_append.1 member with before | last
    · exact ih line before
    · rw [List.mem_singleton.1 last]
      exact isLine

/-- Whether a line is a command that adds a unit or changes a setting, and is obeyed. -/
def obeys (s : Sheet) (input : String) : Bool :=
  match parseLine s.settings.fuzzy input with
  | .ok (.command name _) => name ∈ ["unit", "set", "quiet"] && (s.enter input).1 = .silent
  | _ => false

structure Harmless (s : Sheet) (input : String) : Prop where
  isLine : Text.IsLine input
  disobeyed : s.obeys input = false

instance (s : Sheet) (input : String) : Decidable (s.Harmless input) :=
  decidable_of_iff (Text.IsLine input ∧ s.obeys input = false)
    ⟨fun ⟨isLine, disobeyed⟩ => ⟨isLine, disobeyed⟩,
      fun harmless => ⟨harmless.isLine, harmless.disobeyed⟩⟩

theorem read_name {name : String} {arguments : List String} {command : Command}
    (taken : Command.read name arguments = .ok command) :
    name = "clear" ∧ command = .clear ∨ name ∈ ["unit", "set", "quiet"] := by
  unfold Command.read at taken
  split at taken
  · exact .inl ⟨rfl, (Except.ok.inj taken).symm⟩
  · simp
  · simp
  · simp
  · contradiction

theorem rebuilt_enter {s : Sheet} {input : String} (rebuilt : Rebuilt s)
    (harmless : Harmless s input) : Rebuilt (s.enter input).2 := by
  have entry := enter_entry s input
  obtain ⟨isLine, disobeyed⟩ := harmless
  unfold obeys at disobeyed
  generalize s.enter input = reply at entry disobeyed ⊢
  cases entry with
  | unread parsed => exact rebuilt
  | blank parsed => exact rebuilt
  | refused error parsed => exact rebuilt
  | obeyed parsed taken applied =>
    rcases read_name taken with ⟨rfl, rfl⟩ | changing
    · obtain rfl := Except.ok.inj applied
      exact clear_eq_new s ▸ .new _ _ _
    · simp [parsed, changing] at disobeyed
  | kept parsed kept => exact .record rebuilt isLine parsed kept

end Sheet

/-! Sessions. -/

def Reply.after (text : String) (reply : Reply) : Reply :=
  { reply with printed := text ++ reply.printed }

theorem Reply.after_comp_after (text later : String) :
    Reply.after text ∘ Reply.after later = Reply.after (text ++ later) := by
  funext reply
  simp [after, String.append_assoc]

namespace Session

abbrev Handler (σ : Type) := Session → String → StateM σ (Option Reply)

/-- Which lines come to be handled because of one line, each with the session it finds. -/
abbrev Course (σ : Type) := Session → String → σ → List (Session × String)

section
variable {σ : Type}

def courseAll (handle : Handler σ) (course : Course σ) :
    Session → List String → σ → List (Session × String)
  | _, [], _ => []
  | s, line :: rest, d => course s line d ++ match (handle s line).run d with
    | (some ⟨.proceed, _, later⟩, d) => courseAll handle course later rest d
    | _ => []

def AllHarmless (course : List (Session × String)) : Prop :=
  ∀ met ∈ course, met.1.sheet.Harmless met.2

instance (course : List (Session × String)) : Decidable (AllHarmless course) :=
  List.decidableBAll _ course

theorem run_handleAll_cons (handle : Handler σ) (s : Session) (line : String) (rest : List String)
    (d : σ) : (handleAll handle s (line :: rest)).run d =
      match (handle s line).run d with
      | (none, d) => (none, d)
      | (some ⟨.quit, printed, next⟩, d) => (some ⟨.quit, printed, next⟩, d)
      | (some ⟨.proceed, printed, next⟩, d) =>
        ((handleAll handle next rest).run d).map (·.map (·.after printed)) id := by
  rw [handleAll, StateT.run_bind]
  rcases (handle s line).run d with ⟨_ | ⟨_ | _, printed, next⟩, between⟩ <;> rfl

/-- From a rebuilt sheet a line leads to a rebuilt sheet, if all it brings about is harmless. -/
def KeepsRebuilt (handle : Handler σ) (course : Course σ) : Prop :=
  ∀ ⦃s line reply d⦄, s.sheet.Rebuilt → AllHarmless (course s line d) →
    ((handle s line).run d).1 = some reply → reply.session.sheet.Rebuilt

theorem rebuilt_handleAll {handle : Handler σ} {course : Course σ}
    (keeps : KeepsRebuilt handle course) (lines : List String) {s : Session} {reply : Reply} {d : σ}
    (rebuilt : s.sheet.Rebuilt) (harmless : AllHarmless (courseAll handle course s lines d))
    (ran : ((handleAll handle s lines).run d).1 = some reply) : reply.session.sheet.Rebuilt := by
  induction lines generalizing s reply d with
  | nil =>
    obtain rfl := Option.some.inj ran
    exact rebuilt
  | cons line rest ih =>
    rw [courseAll] at harmless
    rw [run_handleAll_cons] at ran
    obtain ⟨here, others⟩ := List.forall_mem_append.1 harmless
    have kept reply (ran : ((handle s line).run d).1 = some reply) := keeps rebuilt here ran
    generalize (handle s line).run d = met at ran others kept
    rcases met with ⟨_ | ⟨_ | _, printed, next⟩, between⟩
    · cases ran
    · obtain ⟨last, found, rfl⟩ := Option.map_eq_some_iff.1 ran
      have ended := ih (kept _ rfl) others found
      exact ended
    · obtain rfl := Option.some.inj ran
      exact kept _ rfl

variable [FileStore σ]

def courseWithin : Nat → Course σ
  | 0, s, line, _ => [(s, line)]
  | depth + 1, s, line, d => (s, line) :: match HostCommand.ofTokens? (tokenize line) with
    | some (.open path) => match FileStore.read d path with
      | .error _ => []
      | .ok text => courseAll (handleWithin depth) (courseWithin depth)
          { s with sheet := s.sheet.clear } (Text.documentLines text) d
    | _ => []

/-- Sessions that come about from one on a new sheet by handling lines and replaying texts. In
    between the files may change. -/
inductive Reached (σ : Type) [FileStore σ] : Session → Prop where
  | new (settings : Settings) (rates : Rates Float) (now : Moment) (records : Bool) :
      Reached σ ⟨.new settings rates now, records⟩
  | handle {s : Session} {reply : Reply} (d : σ) (depth : Nat) (line : String)
      (reached : Reached σ s) (harmless : AllHarmless (courseWithin depth s line d))
      (ran : ((handleWithin depth s line : StateM σ _).run d).1 = some reply) :
      Reached σ reply.session
  | replay {s : Session} {reply : Reply} (d : σ) (depth : Nat) (text : String)
      (reached : Reached σ s) (harmless : AllHarmless (courseAll (handleWithin depth)
        (courseWithin depth) s (Text.documentLines text) d))
      (ran : ((handleAll (handleWithin depth) s (Text.documentLines text) :
        StateM σ _).run d).1 = some reply) : Reached σ reply.session

theorem run_openFile (handle : Handler σ) (s : Session) (path : String) (d : σ) :
    (openFile handle s path).run d =
      match FileStore.read d path with
      | .error fault =>
        (some ⟨.proceed, complaint s!"Failed to read {path}: {fault.message}", s⟩, d)
      | .ok text =>
        ((handleAll handle { s with sheet := s.sheet.clear } (Text.documentLines text)).run d).map
          (·.map ({ · with flow := .proceed })) id := by
  unfold openFile
  rw [StateT.run_bind, FileStore.run_read]
  cases found : FileStore.read d path <;> rfl

theorem run_save (s : Session) (path : String) (d : σ) :
    (s.save path : StateM σ Reply).run d = match FileStore.write d path s.savedText with
      | (.error fault, later) =>
        (⟨.proceed, complaint s!"Failed to write {path}: {fault.message}", s⟩, later)
      | (.ok (), later) => (⟨.proceed, "", s⟩, later) := by
  unfold save
  rw [StateT.run_bind, FileStore.run_write]
  rcases FileStore.write d path s.savedText with ⟨_ | _, later⟩ <;> rfl

theorem rebuilt_handleWithin (depth : Nat) :
    KeepsRebuilt (handleWithin depth : Handler σ) (courseWithin depth) := by
  induction depth with
  | zero =>
    intro s line reply d rebuilt harmless ran
    cases ran
  | succ depth ih =>
    intro s line reply d rebuilt harmless ran
    rw [courseWithin] at harmless
    obtain ⟨here, others⟩ := List.forall_mem_cons.1 harmless
    unfold handleWithin at ran
    split at ran
    · obtain rfl := Option.some.inj ran
      exact rebuilt
    · rename_i path _
      have saved : ((some <$> s.save path : StateM σ _).run d).1 = some reply := ran
      rw [StateT.run_map, run_save] at saved
      rcases written : FileStore.write d path s.savedText with ⟨_ | _, later⟩ <;>
        rw [written] at saved <;>
        · obtain rfl := Option.some.inj saved
          exact rebuilt
    · rename_i path read
      rw [run_openFile] at ran
      cases found : FileStore.read d path with
      | error fault =>
        rw [found] at ran
        obtain rfl := Option.some.inj ran
        exact rebuilt
      | ok text =>
        rw [found] at ran
        simp only [read, found] at others
        obtain ⟨last, ended, rfl⟩ := Option.map_eq_some_iff.1 ran
        have cleared : s.sheet.clear.Rebuilt := s.sheet.clear_eq_new ▸ .new _ _ _
        have replayed := rebuilt_handleAll ih _ cleared others ended
        exact replayed
    · obtain rfl := Option.some.inj ran
      exact rebuilt
    · obtain rfl := Option.some.inj ran
      exact Sheet.rebuilt_enter rebuilt here

theorem rebuilt_of_reached {s : Session} (reached : Reached σ s) : s.sheet.Rebuilt := by
  induction reached with
  | new settings rates now records => exact .new settings rates now
  | handle d depth line _ harmless ran ih => exact rebuilt_handleWithin depth ih harmless ran
  | replay d depth text _ harmless ran ih =>
    exact rebuilt_handleAll (rebuilt_handleWithin depth) _ ih harmless ran

/-! What is printed. -/

def recordFields? (places : Nat) (input : String) : Outcome → Option (List (String × String))
  | .silent => none
  | .success value => some [("display", Record.quoted (value.show places)), ("error", "null"),
      ("input", Record.quoted input), ("value", Record.value value)]
  | .failure error => some [("display", Record.quoted ("Error: " ++ error.message)),
      ("error", Record.quoted error.message), ("input", Record.quoted input), ("value", "null")]

def rendering? (records : Bool) (places : Nat) (input : String) (outcome : Outcome) :
    Option String :=
  if records then (recordFields? places input outcome).map Record.object else outcome.show? places

/-- The outcomes of all lines of the sheet, in their order. -/
def renderings (s : Session) : String :=
  let rendered := s.sheet.lines.filterMap fun line =>
    rendering? s.records s.sheet.settings.precision line.input line.outcome
  String.join (rendered.map (· ++ "\n"))

theorem printed_eq (s : Session) (input : String) (outcome : Outcome) :
    s.printed input outcome =
      ((rendering? s.records s.sheet.settings.precision input outcome).map
        (· ++ "\n")).getD "" := by
  unfold printed rendering?
  cases s.records with
  | false => rfl
  | true => cases outcome <;> rfl

theorem renderings_record (s : Sheet) (records : Bool) (input : String) (e : Expr Float) :
    renderings ⟨(s.record input e).2, records⟩ = renderings ⟨s, records⟩ ++
      printed ⟨(s.record input e).2, records⟩ input (s.record input e).1 := by
  have lines : (s.record input e).2.lines = s.lines ++ [⟨s.nextLine, input, e,
      (s.record input e).1, (s.surroundings.run s.bindings e).1.toOption⟩] := rfl
  have settings : (s.record input e).2.settings = s.settings := rfl
  rw [printed_eq]
  simp only [renderings, lines, settings, List.filterMap_append, List.map_append,
    String.join_append, List.filterMap_cons, List.filterMap_nil]
  cases rendering? records s.settings.precision input (s.record input e).1 <;> simp [String.join]

/-! Opening what was saved. -/

theorem handleWithin_kept (depth : Nat) (s : Session) {input : String} {e : Expr Float}
    (parsed : parseLine s.sheet.settings.fuzzy input = .ok e) (kept : Sheet.isKept e = true) :
    (handleWithin (depth + 1) s input : StateM σ _) = pure (some (s.enter input)) := by
  rw [handleWithin, HostCommand.ofTokens?_of_kept parsed kept]

/-- The inputs of a rebuilt sheet, entered on a cleared one, rebuild it before other lines come. -/
theorem replay_rebuilt (depth : Nat) (records : Bool) {sheet : Sheet} (rebuilt : sheet.Rebuilt)
    (rest : List String) (d : σ) :
    (handleAll (handleWithin (depth + 1)) ⟨sheet.clear, records⟩
        (sheet.lines.map Line.input ++ rest) : StateM σ _).run d =
      ((handleAll (handleWithin (depth + 1)) ⟨sheet, records⟩ rest : StateM σ _).run d).map
        (Option.map (Reply.after (renderings ⟨sheet, records⟩))) id := by
  induction rebuilt generalizing rest with
  | new settings rates now =>
    have same : Reply.after (renderings ⟨Sheet.new settings rates now, records⟩) = id := by
      funext reply
      simp [Reply.after, renderings, Sheet.new]
    rw [same, Option.map_id, Prod.map_id]
    rfl
  | @record s input e rebuilt isLine parsed kept ih =>
    have cleared : (s.record input e).2.clear = s.clear := rfl
    have inputs : (s.record input e).2.lines.map Line.input ++ rest =
        s.lines.map Line.input ++ input :: rest := by simp [Sheet.record]
    have entered : (handleWithin (depth + 1) ⟨s, records⟩ input : StateM σ _) =
        pure (some (enter ⟨s, records⟩ input)) := handleWithin_kept depth ⟨s, records⟩ parsed kept
    rw [cleared, inputs, ih, run_handleAll_cons, entered, enter, Sheet.enter_of_kept parsed kept,
      renderings_record, ← Reply.after_comp_after, ← Option.map_comp_map]
    rfl

/-- What has been saved is the session itself: opened again, it leaves lines, variables, graph and
    all else as they are, and prints what the lines have come to. -/
theorem open_save [LawfulFileStore σ] {s : Session} {d later : σ} {path : String}
    (reached : Reached σ s) (argument : IsArgument path)
    (written : FileStore.write d path s.savedText = (.ok (), later)) :
    (s.handle (":save " ++ path) : StateM σ _).run d = (some ⟨.proceed, "", s⟩, later) ∧
      (s.handle (":open " ++ path) : StateM σ _).run later =
        (some ⟨.proceed, renderings s, s⟩, later) := by
  have rebuilt := rebuilt_of_reached reached
  have documented : Text.documentLines s.savedText = s.sheet.lines.map Line.input := by
    have each : ∀ input ∈ s.sheet.lines.map Line.input, Text.IsLine input := by
      simpa using Sheet.isLine_of_rebuilt rebuilt
    simpa [savedText, printedLine, Function.comp_def] using Text.documentLines_join each
  constructor
  · unfold handle depthLimit handleWithin
    rw [HostCommand.ofTokens?_save argument]
    change (some <$> s.save path : StateM σ _).run d = _
    rw [StateT.run_map, run_save, written]
    rfl
  · unfold handle depthLimit handleWithin
    rw [HostCommand.ofTokens?_open argument]
    have found := LawfulFileStore.read_written written
    have replayed := replay_rebuilt 4294967294 s.records rebuilt [] later
    rw [List.append_nil] at replayed
    simp only [run_openFile, found, documented, replayed]
    change (some (⟨.proceed, renderings s ++ "", s⟩ : Reply), later) = _
    rw [String.append_empty]

end

def untouched : Session := ⟨.fresh, false⟩

def notes : String := "x = 2\n// nothing\n2 +\nx / 0\nx * 3"

def noted (records : Bool) : Reply :=
  (((⟨.fresh, records⟩ : Session).replay notes : StateM Directory _).run []).1.get
    (by cases records <;> decide +kernel)

theorem open_save_noted :
    (∀ records, Reached Directory (noted records).session ∧
        (noted records).session.savedText = "x = 2\nx / 0\nx * 3\n") ∧
      ((noted false).session.handle ":open notes" : StateM Directory _).run
          [("notes", "x = 2\nx / 0\nx * 3\n")] =
        (some ⟨.proceed, "2.00\nError: division by zero\n6.00\n", (noted false).session⟩,
          [("notes", "x = 2\nx / 0\nx * 3\n")]) ∧
      ((noted true).session.handle ":open notes" : StateM Directory _).run
          [("notes", "x = 2\nx / 0\nx * 3\n")] =
        (some ⟨.proceed,
          "\x7b\"display\":\"2.00\",\"error\":null,\"input\":\"x = 2\"," ++
          "\"value\":\x7b\"type\":\"number\",\"value\":2.0\x7d\x7d\n" ++
          "\x7b\"display\":\"Error: division by zero\",\"error\":\"division by zero\"," ++
          "\"input\":\"x / 0\",\"value\":null\x7d\n" ++
          "\x7b\"display\":\"6.00\",\"error\":null,\"input\":\"x * 3\"," ++
          "\"value\":\x7b\"type\":\"number\",\"value\":6.0\x7d\x7d\n", (noted true).session⟩,
          [("notes", "x = 2\nx / 0\nx * 3\n")]) := by
  have reached records : Reached Directory (noted records).session :=
    .replay ([] : Directory) depthLimit notes (.new _ _ _ records)
      (by cases records <;> decide +kernel) (Option.some_get _).symm
  have saved records : (noted records).session.savedText = "x = 2\nx / 0\nx * 3\n" := by
    cases records <;> decide +kernel
  have noBlank : "notes".toList.any Text.isBlank = false := by decide
  have argument : IsArgument "notes" :=
    ⟨by decide, by simpa only [List.any_eq_false, Bool.not_eq_true] using noBlank, by decide⟩
  have written records :
      FileStore.write ([] : Directory) "notes" (noted records).session.savedText =
        (.ok (), [("notes", (noted records).session.savedText)]) :=
    Directory.store_write_of_ok (by cases records <;> decide +kernel)
  have opened records text (printed : renderings (noted records).session = text) :
      ((noted records).session.handle ":open notes" : StateM Directory _).run
          [("notes", "x = 2\nx / 0\nx * 3\n")] =
        (some ⟨.proceed, text, (noted records).session⟩,
          [("notes", "x = 2\nx / 0\nx * 3\n")]) := by
    rw [← printed, ← saved records]
    exact (open_save (reached records) argument (written records)).2
  exact ⟨fun records => ⟨reached records, saved records⟩, opened false _ (by decide +kernel),
    opened true _ (by decide +kernel)⟩

end Session

end NotepadCalculator
