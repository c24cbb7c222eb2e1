import Mathlib.Data.Finset.Card
import Mathlib.Logic.Relation
import NotepadCalculator.Proofs.SavedSessions
import NotepadCalculator.Proofs.TokenKinds

/-!
Files that open files. A line of a file may open another one, so handling a line comes to an end
where no file leads back to itself, and one that opens itself is never done with. Nothing saved on
the way adds an opening: a saved text holds kept lines only, and no kept line is a command.
-/
namespace NotepadCalculator
open Number

/-! Lines of a document. -/

namespace Text

theorem stripEnd_initial (mark : Char) (cs : List Char) : stripEnd mark cs <+: cs := by
  unfold stripEnd
  split
  · exact List.dropLast_prefix cs
  · exact List.prefix_refl cs

theorem mem_splitAt {mark : Char} {cs part : List Char} (member : part ∈ splitAt mark cs) :
    mark ∉ part := by
  induction cs generalizing part with
  | nil =>
    rw [List.mem_singleton.1 member]
    exact List.not_mem_nil
  | cons c rest ih =>
    unfold splitAt at member
    split at member
    · rcases List.mem_cons.1 member with rfl | later
      · exact List.not_mem_nil
      · exact ih later
    · rename_i other
      split at member
      · rw [List.mem_singleton.1 member]
        simpa using Ne.symm other
      · rename_i first parts split_
        rw [split_] at ih
        rcases List.mem_cons.1 member with rfl | later
        · simpa using ⟨Ne.symm other, ih List.mem_cons_self⟩
        · exact ih (List.mem_cons_of_mem _ later)

theorem part_of_documentLines {document line : String} (member : line ∈ documentLines document) :
    ∃ part ∈ splitAt '\n' document.toList, line.toList <+: part := by
  obtain ⟨cs, inside, rfl⟩ := List.mem_map.1 member
  rw [String.toList_ofList]
  rcases List.mem_append.1 inside with ended | unended
  · obtain ⟨part, here, rfl⟩ := List.mem_map.1 ended
    exact ⟨part, List.mem_of_mem_dropLast here, stripEnd_initial '\r' part⟩
  · have last := Option.mem_toList.1 (List.mem_filter.1 unended).1
    exact ⟨cs, List.mem_of_getLast? last, List.prefix_rfl⟩

theorem unbroken_of_documentLines {document line : String}
    (member : line ∈ documentLines document) : '\n' ∉ line.toList := by
  obtain ⟨part, here, initial⟩ := part_of_documentLines member
  exact fun broken => mem_splitAt here (initial.subset broken)

theorem exists_splitAt (mark : Char) (cs : List Char) :
    ∃ first others, splitAt mark cs = first :: others := by
  cases cs with
  | nil => exact ⟨[], [], rfl⟩
  | cons c rest =>
    unfold splitAt
    split
    · exact ⟨_, _, rfl⟩
    · split <;> exact ⟨_, _, rfl⟩

/-- A front part of a text has the same parts, but for the last one, which is a front part too. -/
theorem splitAt_front {mark : Char} {cs whole : List Char} (front : cs <+: whole) :
    ∃ parts last full others, splitAt mark cs = parts ++ [last] ∧
      splitAt mark whole = parts ++ full :: others ∧ last <+: full := by
  induction cs generalizing whole with
  | nil =>
    obtain ⟨first, others, same⟩ := exists_splitAt mark whole
    exact ⟨[], [], first, others, rfl, same, List.nil_prefix⟩
  | cons c rest ih =>
    obtain ⟨behind, rfl⟩ := front
    obtain ⟨parts, last, full, others, here, there, initial⟩ := ih (List.prefix_append rest behind)
    rw [List.cons_append, splitAt, splitAt, here, there]
    by_cases marked : c = mark
    · rw [if_pos marked, if_pos marked]
      exact ⟨[] :: parts, last, full, others, rfl, rfl, initial⟩
    · rw [if_neg marked, if_neg marked]
      cases parts with
      | nil => exact ⟨[], c :: last, c :: full, others, rfl, rfl,
        List.cons_prefix_cons.2 ⟨rfl, initial⟩⟩
      | cons part parts => exact ⟨(c :: part) :: parts, last, full, others, rfl, rfl, initial⟩

end Text

/-! Lines that begin with a colon. -/

theorem HostCommand.firstVisible?_of_open {line path : String}
    (opens : ofTokens? (tokenize line) = some (.open path)) :
    Text.firstVisible? line = some ':' := by
  apply (first_kind_iff line).1
  cases tokens : tokenize line with
  | nil => simp [tokens, ofTokens?] at opens
  | cons first rest =>
    by_cases command : first.kind = .command
    · simp [command]
    · simp [tokens, ofTokens?, command] at opens

namespace Sheet

theorem firstVisible?_of_kept {fuzzy : Bool} {input : String} {e : Expr Float}
    (parsed : parseLine fuzzy input = .ok e) (kept : isKept e = true) :
    Text.firstVisible? input ≠ some ':' := by
  apply mt (first_kind_iff input).2
  unfold parseLine at parsed
  cases tokens : tokenize input with
  | nil => simp
  | cons first rest =>
    rw [tokens] at parsed
    simpa using HostCommand.first_kind_of_kept parsed kept

def Plain (s : Sheet) : Prop :=
  ∀ line ∈ s.lines, '\n' ∉ line.input.toList ∧ Text.firstVisible? line.input ≠ some ':'

theorem plain_enter {s : Sheet} {input : String} (plain : s.Plain)
    (unbroken : '\n' ∉ input.toList) : (s.enter input).2.Plain := by
  have entry := enter_entry s input
  generalize s.enter input = reply at entry ⊢
  cases entry with
  | unread parsed => exact plain
  | blank parsed => exact plain
  | refused error parsed => exact plain
  | obeyed parsed taken applied =>
    rcases apply_cases applied with ⟨_, rfl⟩ | ⟨settings, units, rfl⟩
    · simp [Plain, clear]
    · exact plain
  | kept parsed kept =>
    intro line member
    rcases List.mem_append.1 member with before | last
    · exact plain line before
    · rw [List.mem_singleton.1 last]
      exact ⟨unbroken, firstVisible?_of_kept parsed kept⟩

end Sheet

namespace Session
open Relation

/-! More depth than needed. -/

section
variable {σ : Type}

def Allows (handle deeper : Handler σ) : Prop :=
  ∀ ⦃s line d reply later⦄, (handle s line).run d = (some reply, later) →
    (deeper s line).run d = (some reply, later)

theorem map_eq_some {answer : Option Reply × σ} {f : Reply → Reply} {reply : Reply}
    {later : σ} : answer.map (Option.map f) id = (some reply, later) ↔
      ∃ inner, answer = (some inner, later) ∧ f inner = reply := by
  obtain ⟨_ | inner, between⟩ := answer <;> simp [and_comm]

theorem handleAll_allows {handle deeper : Handler σ} (allows : Allows handle deeper)
    (lines : List String) {s : Session} {d later : σ} {reply : Reply}
    (ran : (handleAll handle s lines).run d = (some reply, later)) :
    (handleAll deeper s lines).run d = (some reply, later) := by
  induction lines generalizing s d reply later with
  | nil => exact ran
  | cons line rest ih =>
    rw [run_handleAll_cons] at ran ⊢
    cases met : (handle s line).run d with
    | mk answer between =>
      rw [met] at ran
      obtain _ | ⟨_ | _, printed, next⟩ := answer
      · cases ran
      · rw [allows met]
        obtain ⟨last, rerun, made⟩ := map_eq_some.1 ran
        exact map_eq_some.2 ⟨last, ih rerun, made⟩
      · rw [allows met]
        exact ran

end

/-! What opening leads to. -/

section
variable {σ : Type} [FileStore σ]

def Opens (d : σ) (line text : String) : Prop :=
  ∃ path, HostCommand.ofTokens? (tokenize line) = some (.open path) ∧
    FileStore.read d path = .ok text

def Leads (d : σ) (text other : String) : Prop :=
  ∃ line ∈ Text.documentLines text, Opens d line other

/-- Neither the text nor any that it leads to leads back to itself. -/
def Settles (d : σ) (text : String) : Prop :=
  ∀ later, ReflTransGen (Leads d) text later → ¬ TransGen (Leads d) later later

def HoldsOnly (d : σ) (texts : List String) : Prop :=
  ∀ path text, FileStore.read d path = .ok text → text ∈ texts

variable {d : σ} {texts : List String}

theorem settles_of_leads {text other : String} (settles : Settles d text)
    (leads : Leads d text other) : Settles d other :=
  fun later path => settles later (path.head leads)

/-- It is enough that the texts can be ranked, with every text above those it leads to. -/
theorem settles_of_ranked {held : String → Prop} {rank : String → Nat}
    (lower : ∀ text other, held text → Leads d text other → held other ∧ rank other < rank text)
    {text : String} (start : held text) : Settles d text := by
  intro later along
  have here : held later := by
    induction along with
    | refl => exact start
    | tail _ leads ih => exact (lower _ _ ih leads).1
  have below : ∀ other, TransGen (Leads d) later other → held other ∧ rank other < rank later := by
    intro other path
    induction path with
    | single leads => exact lower _ _ here leads
    | tail _ leads ih =>
      have next := lower _ _ ih.1 leads
      exact ⟨next.1, next.2.trans ih.2⟩
  exact fun back => Nat.lt_irrefl _ (below later back).2

open Classical in
noncomputable def rank (d : σ) (texts : List String) (text : String) : Nat :=
  (texts.toFinset.filter (TransGen (Leads d) text)).card

theorem mem_of_leads (held : HoldsOnly d texts) {text other : String}
    (leads : Leads d text other) : other ∈ texts := by
  obtain ⟨line, _, path, _, found⟩ := leads
  exact held path other found

theorem rank_lt_of_leads (held : HoldsOnly d texts) {text other : String}
    (settles : Settles d text) (leads : Leads d text other) :
    rank d texts other < rank d texts text := by
  classical
  apply Finset.card_lt_card
  refine (Finset.ssubset_iff_of_subset ?_).2 ⟨other, ?_, ?_⟩
  · exact Finset.monotone_filter_right _ fun later _ path => .head leads path
  · simpa using ⟨mem_of_leads held leads, TransGen.single leads⟩
  · simpa using fun _ => settles other (.single leads)

theorem rank_lt_length {text : String} (settles : Settles d text) (member : text ∈ texts) :
    rank d texts text < texts.length := by
  classical
  have fewer : rank d texts text < texts.toFinset.card := by
    apply Finset.card_lt_card
    exact Finset.filter_ssubset.2 ⟨text, List.mem_toFinset.2 member, settles text .refl⟩
  exact Nat.lt_of_lt_of_le fewer (List.toFinset_card_le texts)

/-! Texts that open nothing. -/

def Unopening (text : String) : Prop :=
  ∀ part ∈ Text.splitAt '\n' text.toList, part.find? (fun c => !Text.isBlank c) ≠ some ':'

theorem firstVisible?_of_unopening {text line : String} (unopening : Unopening text)
    (member : line ∈ Text.documentLines text) : Text.firstVisible? line ≠ some ':' := by
  obtain ⟨part, here, initial⟩ := Text.part_of_documentLines member
  exact fun colon => unopening part here (initial.find?_eq_some colon)

theorem Unopening.front {text found : String} (unopening : Unopening text)
    (front : found.toList <+: text.toList) : Unopening found := by
  obtain ⟨parts, last, full, others, here, there, initial⟩ := Text.splitAt_front front
  intro part member
  rw [here] at member
  rw [Unopening, there] at unopening
  rcases List.mem_append.1 member with before | ended
  · exact unopening part (List.mem_append_left _ before)
  · obtain rfl := List.mem_singleton.1 ended
    have opens := unopening full (List.mem_append_right _ List.mem_cons_self)
    exact fun colon => opens (initial.find?_eq_some colon)

theorem unopening_savedText {s : Session} (plain : s.sheet.Plain) : Unopening s.savedText := by
  have characters : s.savedText.toList =
      (s.sheet.lines.map (·.input.toList)).flatMap (· ++ ['\n']) := by
    simp [savedText, printedLine, String.toList_join, List.flatMap_map]
  have unbroken : ∀ cs ∈ s.sheet.lines.map (·.input.toList), '\n' ∉ cs := by
    simpa using fun line member => (plain line member).1
  intro part member
  rw [characters, Text.splitAt_joined unbroken] at member
  rcases List.mem_append.1 member with kept | ended
  · obtain ⟨line, here, rfl⟩ := List.mem_map.1 kept
    exact (plain line here).2
  · rw [List.mem_singleton.1 ended, List.find?_nil]
    exact Option.some_ne_none ':' ∘ Eq.symm

def GrownFrom (first d : σ) : Prop :=
  ∀ path text, FileStore.read d path = .ok text →
    FileStore.read first path = .ok text ∨ Unopening text

theorem grownFrom_write [LawfulFileStore σ] {first d : σ} {path text : String}
    (grown : GrownFrom first d) (unopening : Unopening text) :
    GrownFrom first (FileStore.write d path text).2 := by
  intro other found read
  rcases LawfulFileStore.read_after_write read with front | before
  · exact .inr (unopening.front front)
  · exact grown other found before

theorem run_handleWithin (depth : Nat) (s : Session) (line : String) (d : σ) :
    (handleWithin (depth + 1) s line : StateM σ _).run d =
      match HostCommand.ofTokens? (tokenize line) with
      | some .quit => (some ⟨.quit, "", s⟩, d)
      | some (.save path) => ((s.save path : StateM σ Reply).run d).map some id
      | some (.open path) => (openFile (handleWithin depth) s path : StateM σ _).run d
      | some (.misused name) =>
        (some ⟨.proceed, complaint s!"usage: :{name} <path>", s⟩, d)
      | none => (some (s.enter line), d) := by
  rw [handleWithin]
  rcases HostCommand.ofTokens? (tokenize line) with _ | _ | _ | _ | _ <;> rfl

def Answered (first : σ) (run : Option Reply × σ) : Prop :=
  ∃ reply, run.1 = some reply ∧ reply.session.sheet.Plain ∧ GrownFrom first run.2

theorem answered_save [LawfulFileStore σ] {first d : σ} {s : Session} (plain : s.sheet.Plain)
    (grown : GrownFrom first d) (path : String) :
    Answered first (((s.save path : StateM σ Reply).run d).map some id) := by
  have kept : GrownFrom first (FileStore.write d path s.savedText).2 :=
    grownFrom_write grown (unopening_savedText plain)
  rw [run_save]
  generalize FileStore.write d path s.savedText = written at kept ⊢
  rcases written with ⟨_ | _, later⟩
  · exact ⟨_, rfl, plain, kept⟩
  · exact ⟨_, rfl, plain, kept⟩

theorem answered_handleAll {first : σ} {handle : Handler σ} {lines : List String}
    (each : ∀ line ∈ lines, ∀ s d, s.sheet.Plain → GrownFrom first d →
      Answered first ((handle s line).run d)) {s : Session} {d : σ}
    (plain : s.sheet.Plain) (grown : GrownFrom first d) :
    Answered first ((handleAll handle s lines).run d) := by
  induction lines generalizing s d with
  | nil => exact ⟨_, rfl, plain, grown⟩
  | cons line rest ih =>
    obtain ⟨here, others⟩ := List.forall_mem_cons.1 each
    rw [run_handleAll_cons]
    obtain ⟨reply, answer, plain, grown⟩ := here s d plain grown
    generalize (handle s line).run d = met at answer grown ⊢
    obtain ⟨_, between⟩ := met
    obtain rfl := answer
    obtain ⟨_ | _, printed, next⟩ := reply
    · obtain ⟨last, answer, plain, grown⟩ := ih others plain grown
      exact ⟨last.after printed, by simp [answer], plain, grown⟩
    · exact ⟨_, rfl, plain, grown⟩

structure Enough (first : σ) (texts : List String) (line : String) (depth : Nat) : Prop where
  positive : 0 < depth
  opening : Text.firstVisible? line = some ':' → 1 < depth
  settles : ∀ text, Opens first line text → Settles first text
  rank : ∀ text, Opens first line text → rank first texts text + 2 < depth

theorem enough_of_leads {first : σ} (held : HoldsOnly first texts) {text line : String}
    {depth : Nat} (settles : Settles first text) (bound : rank first texts text + 2 ≤ depth)
    (member : line ∈ Text.documentLines text) : Enough first texts line depth where
  positive := by omega
  opening _ := by omega
  settles _ opens := settles_of_leads settles ⟨line, member, opens⟩
  rank _ opens := by
    have := rank_lt_of_leads held settles ⟨line, member, opens⟩
    omega

theorem enough_of_unopening {first : σ} {text line : String} {depth : Nat}
    (unopening : Unopening text) (positive : 0 < depth)
    (member : line ∈ Text.documentLines text) : Enough first texts line depth := by
  have plain := firstVisible?_of_unopening unopening member
  have closed other : ¬ Opens first line other := fun ⟨path, opens, _⟩ =>
    plain (HostCommand.firstVisible?_of_open opens)
  exact ⟨positive, fun colon => absurd colon plain, fun other opens => absurd opens (closed other),
    fun other opens => absurd opens (closed other)⟩

/-- The file is opened on a cleared sheet, whatever the session holds. -/
theorem answered_openFile {first : σ} {handle : Handler σ} {path text : String}
    (found : FileStore.read d path = .ok text)
    (each : ∀ line ∈ Text.documentLines text, ∀ s d, s.sheet.Plain → GrownFrom first d →
      Answered first ((handle s line).run d)) (s : Session) (grown : GrownFrom first d) :
    Answered first ((openFile handle s path).run d) := by
  have cleared : s.sheet.clear.Plain := by simp [Sheet.Plain, Sheet.clear]
  obtain ⟨reply, answer, plain, grown⟩ :=
    answered_handleAll (s := { s with sheet := s.sheet.clear }) each cleared grown
  rw [run_openFile, found]
  exact ⟨{ reply with flow := .proceed }, by simp [answer], plain, grown⟩

theorem answered_handleWithin [LawfulFileStore σ] {first : σ} (held : HoldsOnly first texts)
    (depth : Nat) {s : Session} {line : String} {d : σ} (unbroken : '\n' ∉ line.toList)
    (plain : s.sheet.Plain) (grown : GrownFrom first d) (enough : Enough first texts line depth) :
    Answered first ((handleWithin depth s line : StateM σ _).run d) := by
  induction depth generalizing s line d with
  | zero => exact absurd enough.positive (Nat.lt_irrefl 0)
  | succ depth ih =>
    rw [run_handleWithin]
    split
    · exact ⟨_, rfl, plain, grown⟩
    · exact answered_save plain grown _
    · rename_i path opens
      cases found : FileStore.read d path with
      | error fault =>
        rw [run_openFile, found]
        exact ⟨_, rfl, plain, grown⟩
      | ok text =>
        have deeper : ∀ next ∈ Text.documentLines text, Enough first texts next depth := by
          rcases grown path text found with before | unopening
          · have opens : Opens first line text := ⟨path, opens, before⟩
            have bound := enough.rank text opens
            exact fun next => enough_of_leads held (enough.settles text opens) (by omega)
          · have := enough.opening (HostCommand.firstVisible?_of_open opens)
            exact fun next => enough_of_unopening unopening (by omega)
        refine answered_openFile found (fun next member s d plain grown => ?_) s grown
        exact ih (Text.unbroken_of_documentLines member) plain grown (deeper next member)
    · exact ⟨_, rfl, plain, grown⟩
    · exact ⟨_, rfl, Sheet.plain_enter plain unbroken, grown⟩

theorem handleWithin_allows {depth deeper : Nat} (within : depth ≤ deeper) :
    Allows (handleWithin depth : Handler σ) (handleWithin deeper) := by
  induction depth generalizing deeper with
  | zero =>
    intro s line d reply later ran
    cases ran
  | succ depth ih =>
    intro s line d reply later ran
    obtain ⟨deeper, rfl⟩ := Nat.exists_eq_add_of_lt (Nat.lt_of_succ_le within)
    rw [run_handleWithin] at ran ⊢
    split at ran
    · exact ran
    · exact ran
    · rename_i path opens
      rw [run_openFile] at ran ⊢
      cases found : FileStore.read d path with
      | error fault =>
        rw [found] at ran
        exact ran
      | ok text =>
        rw [found] at ran
        obtain ⟨last, rerun, made⟩ := map_eq_some.1 ran
        have deep := ih (Nat.le_add_right depth deeper)
        exact map_eq_some.2 ⟨last, handleAll_allows deep _ rerun, made⟩
    · exact ran
    · exact ran

/-- A line that leads to no file which leads back to itself gets its reply, whatever the session
    and the files hold. As many files as there are may be open at once, and one that has been
    saved meanwhile. -/
theorem handle_settled [LawfulFileStore σ] (s : Session) (held : HoldsOnly d texts) {line : String}
    (settles : ∀ text, Opens d line text → Settles d text) :
    ∃ reply later, ∀ depth, texts.length + 2 ≤ depth →
      (handleWithin depth s line : StateM σ _).run d = (some reply, later) := by
  have answered : ∃ reply,
      ((handleWithin (texts.length + 2) s line : StateM σ _).run d).1 = some reply := by
    rw [run_handleWithin]
    split
    · exact ⟨_, rfl⟩
    · rename_i path _
      rw [run_save]
      rcases FileStore.write d path s.savedText with ⟨_ | _, later⟩ <;> exact ⟨_, rfl⟩
    · rename_i path opens
      cases found : FileStore.read d path with
      | error fault =>
        rw [run_openFile, found]
        exact ⟨_, rfl⟩
      | ok text =>
        have settled := settles text ⟨path, opens, found⟩
        have bound := rank_lt_length settled (held path text found)
        obtain ⟨reply, answer, _⟩ := answered_openFile found (fun next member _ _ plain grown =>
          answered_handleWithin held (texts.length + 1) (Text.unbroken_of_documentLines member)
            plain grown (enough_of_leads held settled (by omega) member)) s fun _ _ => .inl
        exact ⟨reply, answer⟩
    · exact ⟨_, rfl⟩
    · exact ⟨_, rfl⟩
  obtain ⟨reply, answer⟩ := answered
  exact ⟨reply, _, fun depth enough => handleWithin_allows enough (Prod.ext answer rfl)⟩

end

def relay : Directory := [("a", ":open b\n:open b"), ("b", "1 + 1")]

theorem handle_relay :
    HoldsOnly relay [":open b\n:open b", "1 + 1"] ∧
      (∀ text, Opens relay ":open a" text → Settles relay text) ∧
      ∃ reply later, ∀ depth, 4 ≤ depth →
        (untouched.handleWithin depth ":open a" : StateM Directory _).run relay =
          (some reply, later) := by
  have documented : Text.documentLines ":open b\n:open b" = [":open b", ":open b"] ∧
      Text.documentLines "1 + 1" = ["1 + 1"] := by decide +kernel
  have opened : HostCommand.ofTokens? (tokenize ":open a") = some (.open "a") ∧
      HostCommand.ofTokens? (tokenize ":open b") = some (.open "b") ∧
      HostCommand.ofTokens? (tokenize "1 + 1") = none := by decide +kernel
  have found : FileStore.read relay "a" = .ok ":open b\n:open b" ∧
      FileStore.read relay "b" = .ok "1 + 1" := by decide +kernel
  have lower : ∀ text other, text ∈ [":open b\n:open b", "1 + 1"] → Leads relay text other →
      other ∈ [":open b\n:open b", "1 + 1"] ∧ other.length < text.length := by
    rintro text other known ⟨line, member, path, opens, read⟩
    rcases List.mem_pair.1 known with rfl | rfl
    · obtain rfl : line = ":open b" := by simpa [documented] using member
      obtain rfl : "b" = path := by simpa [opened] using opens
      obtain rfl : "1 + 1" = other := by simpa [found] using read
      decide
    · obtain rfl : line = "1 + 1" := by simpa [documented] using member
      simp [opened] at opens
  have settles : ∀ text, Opens relay ":open a" text → Settles relay text := by
    rintro text ⟨path, opens, read⟩
    obtain rfl : "a" = path := by simpa [opened] using opens
    obtain rfl : ":open b\n:open b" = text := by simpa [found] using read
    exact settles_of_ranked lower List.mem_cons_self
  have held : HoldsOnly relay [":open b\n:open b", "1 + 1"] :=
    fun _ _ read => Directory.mem_of_read read
  exact ⟨held, settles, handle_settled untouched held settles⟩

/-- A file that opens itself is never done with. -/
theorem handle_self_opening :
    ¬ ∃ depth reply later, (untouched.handleWithin depth ":open a" : StateM Directory _).run
      [("a", ":open a")] = (some reply, later) := by
  have documented : Text.documentLines ":open a" = [":open a"] := by decide +kernel
  have opened : HostCommand.ofTokens? (tokenize ":open a") = some (.open "a") := by
    decide +kernel
  have found : FileStore.read ([("a", ":open a")] : Directory) "a" = .ok ":open a" := by
    decide +kernel
  have unanswered : ∀ depth s, ((handleWithin depth s ":open a" : StateM Directory _).run
      [("a", ":open a")]) = (none, [("a", ":open a")]) := by
    intro depth
    induction depth with
    | zero => exact fun s => rfl
    | succ depth ih =>
      intro s
      simp [run_handleWithin, opened, run_openFile, found, documented, run_handleAll_cons, ih]
  rintro ⟨depth, reply, later, ran⟩
  rw [unanswered] at ran
  cases ran

end Session

end NotepadCalculator
