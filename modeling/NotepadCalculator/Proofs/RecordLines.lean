import NotepadCalculator.Proofs.OpenedFiles
import NotepadCalculator.Proofs.ReadRecords
import NotepadCalculator.Proofs.RecasedCommands

/-!
What a session prints where outcomes are printed as records. The sheet answers with a JSON object on
a line of its own, or with nothing. The session's own commands do not keep to that: where one is
misused, or the file cannot be read or written, the complaint is printed as plain text.
-/
namespace NotepadCalculator
open Scan Text

/-! Arguments of commands. -/

namespace Scan

theorem Scans.visible_arguments {position : Nat} {cs : List Char} {ls : List Lexeme}
    (scans : Scans .arguments position cs ls) :
    ∀ l ∈ ls, ∀ c ∈ l.token.text.toList, isBlank c = false := by
  generalize same : Mode.arguments = mode at scans
  induction scans with
  | ended => simp
  | comment => simp
  | next _ _ _ reads _ ih =>
    subst same
    obtain ⟨rfl, rfl⟩ := Prod.mk.inj reads
    refine List.forall_mem_cons.2 ⟨fun c member => ?_, ih rfl⟩
    rw [String.toList_ofList] at member
    simpa using mem_takeWhile member

end Scan

namespace HostCommand

def path? : HostCommand → Option String
  | .save path => some path
  | .open path => some path
  | _ => none

theorem mem_of_path? {first : Token} {rest : List Token} {own : HostCommand} {path : String}
    (taken : ofTokens? (first :: rest) = some own) (named : own.path? = some path) :
    first.kind = .command ∧ ∃ t ∈ rest, t.text = path := by
  simp only [ofTokens?] at taken
  split at taken
  · contradiction
  · rename_i command
    refine ⟨not_not.1 command, ?_⟩
    have argument (only : (rest.filter (·.kind = .commandArg)).map (·.text) = [path]) :
        ∃ t ∈ rest, t.text = path := by
      have member : path ∈ (rest.filter (·.kind = .commandArg)).map (·.text) := by simp [only]
      obtain ⟨t, among, text⟩ := List.mem_map.1 member
      exact ⟨t, (List.mem_filter.1 among).1, text⟩
    split at taken
    · rename_i only
      obtain rfl := Option.some.inj taken
      obtain rfl := Option.some.inj named
      exact argument only
    · rename_i only
      obtain rfl := Option.some.inj taken
      obtain rfl := Option.some.inj named
      exact argument only
    all_goals cases taken <;> cases named

theorem unbroken_path {line path : String} {own : HostCommand}
    (taken : ofTokens? (tokenize line) = some own) (named : own.path? = some path) :
    '\n' ∉ path.toList := by
  have scans := scans_lexemes line
  rw [tokenize] at taken
  cases scanned : lexemes line with
  | nil =>
    rw [scanned] at taken
    cases taken
  | cons first later =>
    rw [scanned] at scans taken
    obtain ⟨command, t, member, rfl⟩ := mem_of_path? taken named
    obtain ⟨_, _, _, _, _, _, continued⟩ := scans.named command
    obtain ⟨l, among, rfl⟩ := List.mem_map.1 member
    intro broken
    have visible := continued.visible_arguments l among '\n' broken
    revert visible
    decide

theorem misused_name {tokens : List Token} {name : String}
    (taken : ofTokens? tokens = some (.misused name)) : name ∈ ["save", "open"] := by
  cases tokens with
  | nil => cases taken
  | cons first rest =>
    simp only [ofTokens?] at taken
    split at taken
    · contradiction
    · split at taken <;> simp_all

end HostCommand

/-! Lines that are printed. -/

namespace Session

/-- Lines with the property, each with its line feed. -/
def InLines (p : String → Prop) (text : String) : Prop :=
  ∃ lines : List String, text = String.join (lines.map printedLine) ∧
    ∀ line ∈ lines, '\n' ∉ line.toList ∧ p line

def IsObject (line : String) : Prop := ∃ fields, Json.read? line = some (.object fields)

inductive Complaint : String → Prop where
  | misused {name : String} (own : name ∈ ["save", "open"]) :
      Complaint ("Error: " ++ s!"usage: :{name} <path>")
  | unwritten (path : String) (fault : FileFault) :
      Complaint ("Error: " ++ s!"Failed to write {path}: {fault.message}")
  | unread (path : String) (fault : FileFault) :
      Complaint ("Error: " ++ s!"Failed to read {path}: {fault.message}")

theorem not_isObject_of_complaint {line : String} (complaint : Complaint line) :
    ¬ IsObject line := by
  have unread (text : String) : Json.read? ("Error: " ++ text) = none := by
    simp [Json.read?, Json.valueWithin, Json.skipSpace, Json.isSpace, Json.number?,
      Json.wholeDigits?, isDigit]
  rintro ⟨fields, read⟩
  cases complaint <;> simp [unread] at read

section
variable {p q : String → Prop}

theorem inLines_empty : InLines p "" := ⟨[], rfl, by simp⟩

theorem InLines.append {text later : String} (front : InLines p text) (back : InLines p later) :
    InLines p (text ++ later) := by
  obtain ⟨lines, rfl, each⟩ := front
  obtain ⟨others, rfl, each'⟩ := back
  exact ⟨lines ++ others, by simp [String.join_append], List.forall_mem_append.2 ⟨each, each'⟩⟩

theorem inLines_single {line : String} (unbroken : '\n' ∉ line.toList) (holds : p line) :
    InLines p (printedLine line) :=
  ⟨[line], by simp [String.join], by simpa using ⟨unbroken, holds⟩⟩

/-- A line by itself has the property, if lines in which it is printed have it. -/
theorem InLines.single {line : String} (inLines : InLines p (printedLine line))
    (unbroken : '\n' ∉ line.toList) : p line := by
  obtain ⟨lines, same, each⟩ := inLines
  cases lines with
  | nil => simp [printedLine, String.join] at same
  | cons first rest =>
    obtain ⟨⟨unbroken', holds⟩, _⟩ := List.forall_mem_cons.1 each
    have upTo {cs : List Char} (unbroken : '\n' ∉ cs) (later : List Char) :
        (cs ++ '\n' :: later).takeWhile (· ≠ '\n') = cs := by
      refine takeWhile_left (fun c member => ?_) rfl
      rw [decide_eq_true_eq]
      rintro rfl
      exact unbroken member
    have characters : line.toList ++ ['\n'] =
        first.toList ++ '\n' :: (String.join (rest.map printedLine)).toList := by
      simpa [printedLine, String.toList_join] using congrArg String.toList same
    have alike := congrArg (List.takeWhile (· ≠ '\n')) characters
    rw [upTo unbroken, upTo unbroken'] at alike
    rwa [String.toList_injective alike]

theorem InLines.imp {text : String} (inLines : InLines p text) (weaker : ∀ line, p line → q line) :
    InLines q text := by
  obtain ⟨lines, rfl, each⟩ := inLines
  exact ⟨lines, rfl, fun line member => (each line member).imp_right (weaker line)⟩

end

/-! What is printed on the way. -/

abbrev Output (σ : Type) := Session → String → σ → String

def outputAll {σ : Type} (handle : Handler σ) (output : Output σ) :
    Session → List String → σ → String
  | _, [], _ => ""
  | s, line :: rest, d => output s line d ++ match (handle s line).run d with
    | (some ⟨.proceed, _, later⟩, d) => outputAll handle output later rest d
    | _ => ""

/-- Where a file is opened, what its lines print, also if there is no end to them. -/
def outputWithin {σ : Type} [FileStore σ] : Nat → Output σ
  | 0, _, _, _ => ""
  | depth + 1, s, line, d => match HostCommand.ofTokens? (tokenize line) with
    | some .quit => ""
    | some (.save path) => match (FileStore.write d path s.savedText).1 with
      | .error fault => complaint s!"Failed to write {path}: {fault.message}"
      | .ok _ => ""
    | some (.open path) => match FileStore.read d path with
      | .error fault => complaint s!"Failed to read {path}: {fault.message}"
      | .ok text => outputAll (handleWithin depth) (outputWithin depth)
          { s with sheet := s.sheet.clear } (Text.documentLines text) d
    | some (.misused name) => complaint s!"usage: :{name} <path>"
    | none => (s.enter line).printed

theorem inLines_enter {s : Session} (records : s.records = true) (line : String) :
    InLines IsObject (s.enter line).printed := by
  have written (places : Nat) (outcome : Outcome) :
      InLines IsObject (printedLine (record line outcome places)) := by
    obtain ⟨_, writes⟩ := Json.writes_record line outcome places
    exact inLines_single writes.unbroken (Json.read?_record line outcome places)
  simp only [enter, printed, records, if_true]
  split
  · exact inLines_empty
  · exact written _ _

section
variable {σ : Type}

/-- All that is printed is lines as they are meant, and a reply has printed all of it. -/
structure Prints (handle : Handler σ) (output : Output σ) : Prop where
  inLines : ∀ {s}, s.records = true → ∀ line d,
    InLines (fun line => IsObject line ∨ Complaint line) (output s line d)
  replied : ∀ {s line d reply}, ((handle s line).run d).1 = some reply →
    reply.printed = output s line d ∧ reply.session.records = s.records

theorem inLines_complaint {text : String} (unbroken : '\n' ∉ text.toList)
    (complaint_ : Complaint ("Error: " ++ text)) :
    InLines (fun line => IsObject line ∨ Complaint line) (complaint text) := by
  refine inLines_single ?_ (.inr complaint_)
  simpa using unbroken

theorem inLines_outputAll {p : String → Prop} {handle : Handler σ} {output : Output σ}
    (replied : ∀ {s line d reply}, ((handle s line).run d).1 = some reply →
      reply.session.records = s.records) {lines : List String}
    (each : ∀ line ∈ lines, ∀ s d, s.records = true → InLines p (output s line d))
    {s : Session} (records : s.records = true) (d : σ) :
    InLines p (outputAll handle output s lines d) := by
  induction lines generalizing s d with
  | nil => exact inLines_empty
  | cons line rest ih =>
    obtain ⟨here, others⟩ := List.forall_mem_cons.1 each
    refine (here s d records).append ?_
    split
    · rename_i printed later between met
      have kept : later.records = s.records := replied (congrArg Prod.fst met)
      exact ih others (kept.trans records) between
    · exact inLines_empty

theorem Prints.all {handle : Handler σ} {output : Output σ} (prints : Prints handle output)
    {s : Session} (records : s.records = true) (lines : List String) (d : σ) :
    InLines (fun line => IsObject line ∨ Complaint line) (outputAll handle output s lines d) :=
  inLines_outputAll (fun ran => (prints.replied ran).2)
    (fun line _ _ d records => prints.inLines records line d) records d

theorem Prints.replied_all {handle : Handler σ} {output : Output σ} (prints : Prints handle output)
    {s : Session} {lines : List String} {d : σ} {reply : Reply}
    (ran : ((handleAll handle s lines).run d).1 = some reply) :
    reply.printed = outputAll handle output s lines d ∧ reply.session.records = s.records := by
  induction lines generalizing s d reply with
  | nil =>
    obtain rfl := Option.some.inj ran
    exact ⟨rfl, rfl⟩
  | cons line rest ih =>
    rw [run_handleAll_cons] at ran
    have replied first (answer : ((handle s line).run d).1 = some first) := prints.replied answer
    rw [outputAll]
    generalize (handle s line).run d = met at ran replied ⊢
    obtain ⟨_ | ⟨_ | _, printed, next⟩, between⟩ := met
    · cases ran
    · obtain ⟨last, answer, rfl⟩ := Option.map_eq_some_iff.1 ran
      obtain ⟨here, kept⟩ := replied _ rfl
      obtain ⟨later, keeps⟩ := ih answer
      exact ⟨congrArg₂ (· ++ ·) here later, keeps.trans kept⟩
    · obtain rfl := Option.some.inj ran
      obtain ⟨here, kept⟩ := replied _ rfl
      exact ⟨by simpa using here, kept⟩

variable [FileStore σ]

section
variable {depth : Nat} (prints : Prints (handleWithin depth : Handler σ) (outputWithin depth))
include prints

theorem inLines_outputWithin {s : Session} (records : s.records = true) (line : String)
    (d : σ) :
    InLines (fun line => IsObject line ∨ Complaint line) (outputWithin (depth + 1) s line d) := by
  rw [outputWithin]
  split
  · exact inLines_empty
  · rename_i path taken
    have name := HostCommand.unbroken_path taken rfl
    split
    · rename_i fault failed
      have message := fault.unbroken_message
      refine inLines_complaint ?_ (.unwritten path fault)
      change '\n' ∉ ("Failed to write " ++ path ++ ": " ++ fault.message).toList
      simp [name, message]
    · exact inLines_empty
  · rename_i path taken
    have name := HostCommand.unbroken_path taken rfl
    split
    · rename_i fault failed
      have message := fault.unbroken_message
      refine inLines_complaint ?_ (.unread path fault)
      change '\n' ∉ ("Failed to read " ++ path ++ ": " ++ fault.message).toList
      simp [name, message]
    · exact prints.all (s := { s with sheet := s.sheet.clear }) records _ d
  · rename_i name taken
    have own := HostCommand.misused_name taken
    refine inLines_complaint ?_ (.misused own)
    rcases List.mem_pair.1 own with rfl | rfl <;> decide
  · exact (inLines_enter records line).imp fun _ => .inl

theorem replied_handleWithin {s : Session} {line : String} {d : σ} {reply : Reply}
    (ran : ((handleWithin (depth + 1) s line : StateM σ _).run d).1 = some reply) :
    reply.printed = outputWithin (depth + 1) s line d ∧ reply.session.records = s.records := by
  rw [run_handleWithin] at ran
  rw [outputWithin]
  generalize HostCommand.ofTokens? (tokenize line) = own at ran ⊢
  match own with
  | some .quit =>
    obtain rfl := Option.some.inj ran
    exact ⟨rfl, rfl⟩
  | some (.save path) =>
    dsimp only at ran ⊢
    rw [run_save] at ran
    rcases written : FileStore.write d path s.savedText with ⟨_ | _, later⟩ <;>
      rw [written] at ran <;> obtain rfl := Option.some.inj ran <;> exact ⟨rfl, rfl⟩
  | some (.open path) =>
    dsimp only at ran ⊢
    rw [run_openFile] at ran
    cases found : FileStore.read d path with
    | error fault =>
      rw [found] at ran
      obtain rfl := Option.some.inj ran
      exact ⟨rfl, rfl⟩
    | ok text =>
      rw [found] at ran
      obtain ⟨last, answer, rfl⟩ := Option.map_eq_some_iff.1 ran
      have answered : ((handleAll (handleWithin depth) { s with sheet := s.sheet.clear }
        (Text.documentLines text) : StateM σ _).run d).1 = some last := answer
      obtain ⟨here, kept⟩ := prints.replied_all answered
      exact ⟨here, kept⟩
  | some (.misused name) =>
    obtain rfl := Option.some.inj ran
    exact ⟨rfl, rfl⟩
  | none =>
    obtain rfl := Option.some.inj ran
    exact ⟨rfl, rfl⟩

end

theorem prints_handleWithin (depth : Nat) :
    Prints (handleWithin depth : Handler σ) (outputWithin depth) := by
  induction depth with
  | zero => exact ⟨fun _ _ _ => inLines_empty, nofun⟩
  | succ depth ih => exact ⟨inLines_outputWithin ih, replied_handleWithin ih⟩

/-- Sessions that print records, with all they have printed. Lines are handled one after another, up
    to one that quits, and the files may change in between. -/
inductive Transcript (σ : Type) [FileStore σ] : Session → String → Prop
  | new (sheet : Sheet) : Transcript σ ⟨sheet, true⟩ ""
  | handled {s : Session} {text : String} {reply : Reply} (d : σ) (depth : Nat)
      (lines : List String) (before : Transcript σ s text)
      (ran : ((handleAll (handleWithin depth) s lines : StateM σ _).run d).1 =
        some reply) : Transcript σ reply.session (text ++ reply.printed)

theorem Transcript.inLines {s : Session} {text : String} (transcript : Transcript σ s text) :
    s.records = true ∧ InLines (fun line => IsObject line ∨ Complaint line) text := by
  induction transcript with
  | new => exact ⟨rfl, inLines_empty⟩
  | handled d depth lines before ran ih =>
    obtain ⟨records, inLines⟩ := ih
    obtain ⟨printed, kept⟩ := (prints_handleWithin depth).replied_all ran
    rw [printed]
    exact ⟨kept.trans records,
      inLines.append ((prints_handleWithin depth).all records lines d)⟩

/-- Whatever a session that prints records prints, also while it is not done with a line, is on each
    line a JSON object or a complaint of one of its own commands. The sheet does not complain so. -/
theorem printed_records {s : Session} {text : String} (transcript : Transcript σ s text)
    (depth : Nat) (lines : List String) (d : σ) :
    InLines (fun line => IsObject line ∨ Complaint line)
        (text ++ outputAll (handleWithin depth) (outputWithin depth) s lines d) ∧
      ((∀ line ∈ lines, HostCommand.ofTokens? (tokenize line) = none) →
        InLines IsObject (outputAll (handleWithin depth) (outputWithin depth) s lines d)) := by
  obtain ⟨records, inLines⟩ := transcript.inLines
  have prints : Prints (handleWithin depth : Handler σ) (outputWithin depth) :=
    prints_handleWithin depth
  refine ⟨inLines.append (prints.all records lines d), fun left => ?_⟩
  refine inLines_outputAll (fun ran => (prints.replied ran).2) ?_ records d
  intro line member s d records
  cases depth with
  | zero => exact inLines_empty
  | succ depth =>
    rw [outputWithin, left line member]
    exact inLines_enter records line

end

def recording : Session := ⟨.fresh, true⟩

theorem printed_records_missing :
    Transcript Directory recording "" ∧
      outputAll (handleWithin 1) (outputWithin 1) recording ["x", ":open y"] ([] : Directory) =
        printedLine ("\x7b\"display\":\"Error: undefined variable 'x'\"," ++
          "\"error\":\"undefined variable 'x'\",\"input\":\"x\",\"value\":null\x7d") ++
        printedLine "Error: Failed to read y: No such file or directory (os error 2)" ∧
      InLines (fun line => IsObject line ∨ Complaint line)
        ("" ++ outputAll (handleWithin 1) (outputWithin 1) recording ["x", ":open y"]
          ([] : Directory)) := by
  have transcript : Transcript Directory recording "" := .new .fresh
  exact ⟨transcript, by decide +kernel, (printed_records transcript 1 ["x", ":open y"] []).1⟩

/-- A session that prints records answers with what is no record. -/
theorem save_unnamed :
    ∃ reply, ((recording.handle ":save" : StateM Directory _).run []).1 = some reply ∧
      reply.printed = printedLine "Error: usage: :save <path>" ∧
      ¬ InLines IsObject reply.printed := by
  have ran : ((recording.handle ":save" : StateM Directory _).run []).1.map (·.printed) =
      some (printedLine "Error: usage: :save <path>") := by decide +kernel
  obtain ⟨reply, answer, printed⟩ := Option.map_eq_some_iff.1 ran
  refine ⟨reply, answer, printed, fun inLines => ?_⟩
  rw [printed] at inLines
  have isObject := inLines.single (by decide)
  have own : "save" ∈ ["save", "open"] := by decide
  exact not_isObject_of_complaint (.misused own) isObject

end Session

end NotepadCalculator
