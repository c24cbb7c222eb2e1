import NotepadCalculator.Proofs.DecimalNumbers

/-!
Scanning as a relation between a text and its lexemes. Where the text stands and whether a number
was read before it only matter at its start: a text scanned further on has the same lexemes, moved
along, and behind a blank so has one that is scanned in another mode.
-/
namespace NotepadCalculator
open Text

def Token.shift (t : Token) (n : Nat) : Token := { t with position := t.position + n }

namespace Scan

def Lexeme.shift (l : Lexeme) (n : Nat) : Lexeme := ⟨l.token.shift n, l.width⟩

/-- From a mode and a position on, the text scans to the lexemes: behind blanks a character is read,
    and so on up to a comment or to the end. -/
inductive Scans : Mode → Nat → List Char → List Lexeme → Prop where
  | ended {mode : Mode} {position : Nat} {blank : List Char}
      (blanks : ∀ c ∈ blank, isBlank c = true) : Scans mode position blank []
  | comment {mode : Mode} {position : Nat} {blank rest : List Char}
      (blanks : ∀ c ∈ blank, isBlank c = true) :
      Scans mode position (blank ++ '/' :: '/' :: rest) []
  | next {mode then_ : Mode} {position : Nat} {blank rest : List Char} {c : Char} {r : Reading}
      {later : List Lexeme} (blanks : ∀ c ∈ blank, isBlank c = true) (visible : isBlank c = false)
      (noComment : ¬ ['/', '/'] <+: c :: rest)
      (reads : read mode (isGlued mode (blank ++ c :: rest)) c rest = (r, then_))
      (continued : Scans then_ (position + blank.length + r.width) ((c :: rest).drop r.width)
        later) :
      Scans mode position (blank ++ c :: rest)
        (⟨⟨r.kind, String.ofList r.text, position + blank.length⟩, r.width⟩ :: later)

theorem scans_lexemesFuel {fuel : Nat} (mode : Mode) (position : Nat) {cs : List Char}
    (enough : cs.length ≤ fuel) : Scans mode position cs (lexemesFuel fuel mode position cs) := by
  induction fuel generalizing mode position cs with
  | zero =>
    obtain rfl := List.eq_nil_of_length_eq_zero (Nat.le_zero.1 enough)
    exact .ended (by simp)
  | succ fuel ih =>
    obtain ⟨parts, visible⟩ := split_blanks cs
    have blanks : ∀ c ∈ cs.takeWhile isBlank, isBlank c = true := fun c => mem_takeWhile
    unfold lexemesFuel
    dsimp only
    generalize cs.drop (cs.takeWhile isBlank).length = after at parts visible ⊢
    generalize cs.takeWhile isBlank = blank at parts blanks ⊢
    subst parts
    split
    · exact .ended (by simpa using blanks)
    · exact .comment blanks
    · rename_i c rest noComment
      have taken : TakesFrom (read mode (isGlued mode (blank ++ c :: rest)) c rest).1 (c :: rest) :=
        takesFrom_read mode _ (visible c rest rfl)
      obtain ⟨source, later, same, takes⟩ := taken
      have positive := List.length_pos_iff.2 takes.nonempty
      have width := takes.width
      have total := congrArg List.length same
      simp only [List.length_append] at enough total
      refine .next blanks (visible c rest rfl) ?_ rfl (ih _ _ ?_)
      · intro comment
        obtain ⟨more, whole⟩ := comment
        obtain ⟨rfl, rfl⟩ := List.cons.inj whole
        exact noComment more rfl rfl
      · simp only [List.length_drop]
        omega

theorem slash_visible : isBlank '/' = false := by decide

theorem lexemesFuel_of_scans {mode : Mode} {position : Nat} {cs : List Char} {ls : List Lexeme}
    (scans : Scans mode position cs ls) :
    ∀ fuel, cs.length ≤ fuel → lexemesFuel fuel mode position cs = ls := by
  induction scans with
  | ended blanks =>
    intro fuel enough
    cases fuel with
    | zero => rfl
    | succ fuel =>
      have skipped := List.takeWhile_eq_self_iff.2 blanks
      rw [lexemesFuel]
      simp only [skipped, List.drop_length]
  | @comment mode position blank rest blanks =>
    intro fuel enough
    cases fuel with
    | zero => rfl
    | succ fuel =>
      have visible : ('/' :: '/' :: rest).head?.any isBlank = false := slash_visible
      have skipped := takeWhile_left blanks visible
      rw [lexemesFuel]
      simp only [skipped, List.drop_left]
  | @next mode then_ position blank rest c r later blanks visible noComment reads continued ih =>
    intro fuel enough
    have taken : TakesFrom (read mode (isGlued mode (blank ++ c :: rest)) c rest).1 (c :: rest) :=
      takesFrom_read mode _ visible
    obtain ⟨source, after, same, takes⟩ := taken
    have positive := List.length_pos_iff.2 takes.nonempty
    have width := takes.width
    have total := congrArg List.length same
    simp only [reads] at width
    simp only [List.length_append] at enough total
    obtain ⟨fuel, rfl⟩ := Nat.exists_eq_add_of_le' (show 1 ≤ fuel by omega)
    rw [lexemesFuel_succ fuel position mode blank blanks visible noComment, reads]
    dsimp only
    rw [ih fuel (by simp only [List.length_drop]; omega)]

theorem scans_iff {mode : Mode} {position : Nat} {cs : List Char} {ls : List Lexeme} :
    Scans mode position cs ls ↔ lexemesFuel cs.length mode position cs = ls := by
  constructor
  · intro scans
    exact lexemesFuel_of_scans scans _ (Nat.le_refl _)
  · intro same
    exact same ▸ scans_lexemesFuel mode position (Nat.le_refl _)

theorem Scans.unique {mode : Mode} {position : Nat} {cs : List Char} {ls ls' : List Lexeme}
    (scans : Scans mode position cs ls) (also : Scans mode position cs ls') : ls = ls' :=
  (scans_iff.1 scans).symm.trans (scans_iff.1 also)

theorem Scans.shifted {mode : Mode} {position : Nat} {cs : List Char} {ls : List Lexeme}
    (scans : Scans mode position cs ls) (n : Nat) :
    Scans mode (position + n) cs (ls.map (·.shift n)) := by
  induction scans with
  | ended blanks => exact .ended blanks
  | comment blanks => exact .comment blanks
  | @next mode then_ position blank rest c r later blanks visible noComment reads continued ih =>
    have along : position + blank.length + r.width + n = position + n + blank.length + r.width := by
      omega
    have start : position + n + blank.length = position + blank.length + n := by omega
    rw [along] at ih
    have scans := Scans.next blanks visible noComment reads ih
    rw [start] at scans
    exact scans

theorem isGlued_apart {mode : Mode} {cs : List Char} (apart : cs.head?.any isLetter = false) :
    isGlued mode cs = false := by simp [isGlued, apart]

theorem isLetter_of_isBlank {c : Char} (blank : isBlank c = true) : isLetter c = false := by
  rw [Bool.eq_false_iff]
  intro letter
  have word : isWordChar c = true := by simp [isWordChar, letter]
  rw [isBlank_of_isWordChar word] at blank
  contradiction

theorem Scans.behind {mode : Mode} {position : Nat} {front cs : List Char} {ls : List Lexeme}
    (blanks : ∀ c ∈ front, isBlank c = true) (apart : isGlued mode cs = false)
    (scans : Scans mode (position + front.length) cs ls) :
    Scans mode position (front ++ cs) ls := by
  cases front with
  | nil => exact scans
  | cons d front =>
    have both {blank : List Char} (more : ∀ c ∈ blank, isBlank c = true) :
        ∀ c ∈ (d :: front) ++ blank, isBlank c = true := by
      intro c member
      rcases List.mem_append.1 member with here | there
      · exact blanks c here
      · exact more c there
    have noLetter : isLetter d = false := isLetter_of_isBlank (blanks d List.mem_cons_self)
    cases scans with
    | ended more => exact .ended (both more)
    | comment more =>
      rw [← List.append_assoc]
      exact .comment (both more)
    | @next _ then_ _ blank rest c r later more visible noComment reads continued =>
      have glue : isGlued mode (blank ++ c :: rest) =
          isGlued mode ((d :: front) ++ blank ++ c :: rest) := by
        rw [apart, isGlued_apart]
        simpa using noLetter
      rw [glue] at reads
      have place : position + ((d :: front) ++ blank).length =
          position + (d :: front).length + blank.length := by
        simp only [List.length_append]
        omega
      rw [← List.append_assoc, ← place]
      rw [← place] at continued
      exact .next (both more) visible noComment reads continued

def StartsCommand (cs : List Char) : Prop := cs.find? (fun c => !isBlank c) = some ':'

theorem startsCommand_iff {blank rest : List Char} {c : Char}
    (blanks : ∀ d ∈ blank, isBlank d = true) (visible : isBlank c = false) :
    StartsCommand (blank ++ c :: rest) ↔ c = ':' := by
  have skipped : blank.find? (fun d => !isBlank d) = none := by simpa using blanks
  simp [StartsCommand, List.find?_append, skipped, visible]

theorem read_plain {mode : Mode} (inside : mode ≠ .arguments) {c : Char} (other : c ≠ ':')
    (glued : Bool) (rest : List Char) : read mode glued c rest = readPlain glued c rest := by
  cases mode with
  | arguments => contradiction
  | opening => simp [read, other]
  | words => rfl
  | afterNumber => rfl

/-- What is no command scans alike at the start of a line and within it. -/
theorem Scans.within {mode : Mode} {position : Nat} {cs : List Char} {ls : List Lexeme}
    (scans : Scans .opening position cs ls) (plain : ¬ StartsCommand cs)
    (inside : mode ≠ .arguments) (apart : isGlued mode cs = false) : Scans mode position cs ls := by
  cases scans with
  | ended blanks => exact .ended blanks
  | comment blanks => exact .comment blanks
  | @next _ then_ _ blank rest c r later blanks visible noComment reads continued =>
    rw [startsCommand_iff blanks visible] at plain
    refine .next blanks visible noComment ?_ continued
    have first : isGlued .opening (blank ++ c :: rest) = false := rfl
    rw [first, read_plain (by decide) plain] at reads
    rw [apart, read_plain inside plain, reads]

theorem Scans.spaced {cs : List Char} {ls : List Lexeme} (scans : Scans .opening 0 cs ls)
    (plain : ¬ StartsCommand cs) {mode : Mode} (inside : mode ≠ .arguments) (position : Nat) :
    Scans mode position (' ' :: cs) (ls.map (·.shift (position + 1))) := by
  have space : isBlank ' ' = true := by decide
  have apart : isLetter ' ' = false := by decide
  have moved := scans.shifted (position + 1)
  rw [Nat.zero_add] at moved
  have opening : Scans .opening position ([' '] ++ cs) (ls.map (·.shift (position + 1))) :=
    moved.behind (List.forall_mem_singleton.2 space) rfl
  have still : ¬ StartsCommand (' ' :: cs) := by simpa [StartsCommand, space] using plain
  exact opening.within still inside (isGlued_apart apart)

theorem scans_lexemes (line : String) : Scans .opening 0 line.toList (lexemes line) := by
  rw [scans_iff, String.length_toList]
  rfl

end Scan

theorem tokenize_of_scans {line : String} {ls : List Scan.Lexeme}
    (scans : Scan.Scans .opening 0 line.toList ls) : tokenize line = ls.map (·.token) := by
  rw [tokenize, (Scan.scans_lexemes line).unique scans]

end NotepadCalculator
