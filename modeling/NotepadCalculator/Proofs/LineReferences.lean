import Mathlib.Control.Monad.Basic
import NotepadCalculator.Proofs.SheetHistory

/-!
References to earlier lines. The latest line is looked for at the end of the history, so many lines
back are counted from the line that is being evaluated, and a number is compared with the number of
that line. All three ways lead to a line of the history or are refused, and on 64-bit words
they lead to the same line, since a step that overflows is refused as well.
-/
namespace NotepadCalculator
open Calendar Measurement Money Number Evaluation

variable {α : Type}

def Reference.named? (lines : Nat) : Reference → Option Nat
  | .latest => if 1 ≤ lines then some lines else none
  | .back count => if count < lines then some (lines - count) else none
  | .line number => if 1 ≤ number ∧ number ≤ lines then some number else none

theorem Reference.named?_bounds {lines id : Nat} {reference : Reference}
    (named : reference.named? lines = some id) : 1 ≤ id ∧ id ≤ lines := by
  cases reference <;>
    simp only [named?, Option.ite_none_right_eq_some, Option.some.injEq] at named <;> omega

namespace Surroundings
variable {s : Surroundings α} {reference other : Reference} {id : Nat}

theorem lineNamed_of_named (next : s.line = s.results.length + 1)
    (named : reference.named? s.results.length = some id) : s.lineNamed reference = .ok id := by
  cases reference <;>
    simp only [Reference.named?, Option.ite_none_right_eq_some, Option.some.injEq] at named
  case latest =>
    obtain ⟨positive, rfl⟩ := named
    rw [lineNamed, if_neg (List.ne_nil_of_length_pos positive)]
  case back count =>
    obtain ⟨within, rfl⟩ := named
    rw [lineNamed, if_pos (by omega), next, Nat.add_sub_add_right]
  case line number =>
    obtain ⟨⟨_, within⟩, rfl⟩ := named
    rw [lineNamed, if_pos (by omega)]

theorem previous_of_named (next : s.line = s.results.length + 1)
    (first : reference.named? s.results.length = some id)
    (second : other.named? s.results.length = some id) :
    s.previous reference = s.previous other := by
  rw [previous, previous, lineNamed_of_named next first, lineNamed_of_named next second]

theorem runFrom_of_named (next : s.line = s.results.length + 1)
    (named : reference.named? s.results.length = some id) {result : Option (Value α)}
    (kept : s.results[id - 1]? = some result) (p : Progress α) :
    runFrom (s.previous reference) p =
      (result.elim (.error (.invalidOperation (.noResult id))) .ok, p.withLine id) := by
  obtain ⟨least, _⟩ := Reference.named?_bounds named
  have found : s.result? id = some result := by rw [result?, if_neg (by omega), kept]
  rw [runFrom_previous, lineNamed_of_named next named]
  simp only [found]
  cases result <;> rfl

theorem runFrom_of_unnamed (next : s.line = s.results.length + 1)
    (unnamed : reference.named? s.results.length = none) (p : Progress α) :
    ∃ fault, runFrom (s.previous reference) p = (.error (.outOfReach fault), p) := by
  rw [runFrom_previous]
  cases reference <;>
    simp only [Reference.named?, ite_eq_right_iff, reduceCtorEq, imp_false] at unnamed
  case latest =>
    have empty : s.results = [] := List.length_eq_zero_iff.1 (by omega)
    rw [lineNamed, if_pos empty]
    exact ⟨_, rfl⟩
  case back count =>
    rw [lineNamed, if_neg (by omega)]
    exact ⟨_, rfl⟩
  case line number =>
    by_cases earlier : number < s.line
    · obtain rfl : number = 0 := by omega
      rw [lineNamed, if_pos earlier]
      exact ⟨_, rfl⟩
    · rw [lineNamed, if_neg earlier]
      exact ⟨_, rfl⟩

end Surroundings

/-! On 64-bit words, where a sum or a difference that overflows is nothing. -/

namespace Word

def add? (a b : UInt64) : Option UInt64 :=
  if a.toNat + b.toNat < UInt64.size then some (a + b) else none

def subtract? (a b : UInt64) : Option UInt64 := if b ≤ a then some (a - b) else none

def back? (current count : UInt64) : Option UInt64 :=
  ((add? count 1).bind (subtract? current)).filter (1 ≤ ·)

def place? (current line : UInt64) : Option UInt64 :=
  if line < current then subtract? line 1 else none

theorem exists_toNat {n : Nat} (small : n < UInt64.size) : ∃ word : UInt64, word.toNat = n :=
  ⟨.ofNat n, UInt64.toNat_ofNat_of_lt' small⟩

theorem add?_eq_some {a b c : UInt64} : add? a b = some c ↔ c.toNat = a.toNat + b.toNat := by
  unfold add?
  split
  · rename_i within
    rw [Option.some.injEq, ← UInt64.toNat_inj, UInt64.toNat_add, Nat.mod_eq_of_lt within]
    exact eq_comm
  · have bound : c.toNat < UInt64.size := c.toNat_lt_size
    simp only [reduceCtorEq, false_iff]
    omega

theorem subtract?_eq_some {a b c : UInt64} :
    subtract? a b = some c ↔ c.toNat + b.toNat = a.toNat := by
  unfold subtract?
  simp only [UInt64.le_iff_toNat_le]
  split
  · rename_i within
    rw [Option.some.injEq, ← UInt64.toNat_inj, UInt64.toNat_sub_of_le _ _ within]
    omega
  · simp only [reduceCtorEq, false_iff]
    omega

theorem back?_eq_some {current count line : UInt64} : back? current count = some line ↔
    line.toNat + (count.toNat + 1) = current.toNat ∧ 1 ≤ line.toNat := by
  simp only [back?, Option.filter_eq_some_iff, Option.bind_eq_some_iff, add?_eq_some,
    subtract?_eq_some, decide_eq_true_eq, UInt64.le_iff_toNat_le]
  refine and_congr_left fun _ => ⟨?_, fun sum => ?_⟩
  · rintro ⟨distance, further, sum⟩
    rw [further] at sum
    exact sum
  · have bound : current.toNat < UInt64.size := current.toNat_lt_size
    obtain ⟨distance, further⟩ := exists_toNat (show count.toNat + 1 < UInt64.size by omega)
    refine ⟨distance, further, ?_⟩
    rw [further]
    exact sum

theorem place?_eq_some {current line place : UInt64} : place? current line = some place ↔
    line.toNat < current.toNat ∧ place.toNat + 1 = line.toNat := by
  simp only [place?, Option.ite_none_right_eq_some, subtract?_eq_some, UInt64.lt_iff_toNat_lt]
  rfl

end Word

def Line.answer (line : Line) : Answer (Value Float) :=
  line.value.elim (.error (.invalidOperation (.noResult line.id))) .ok

namespace Sheet
variable {s : Sheet}

theorem id_of_getElem (orderly : Orderly s) {i : Nat} (within : i < s.lines.length) :
    s.lines[i].id = i + 1 := by
  have ids : (s.lines.map (·.id))[i]? = (List.range' 1 s.lines.length)[i]? := by rw [orderly.ids]
  simpa [List.getElem?_range', within, Nat.add_comm] using ids

/-- What the evaluation of a reference comes to, with so many levels below it. -/
def look (s : Sheet) (reference : Reference) (levels : Nat) (p : Progress Float) :
    Answer (Value Float) × Progress Float :=
  runFrom (s.surroundings.withLevels (levels + 1) (.previous reference)) p

def Refuses (s : Sheet) (reference : Reference) : Prop :=
  ∀ levels p, ∃ fault, s.look reference levels p = (.error (.outOfReach fault), p)

def Reads (s : Sheet) (reference : Reference) (line : Line) : Prop :=
  ∀ levels p, s.look reference levels p = (line.answer, p.withLine line.id)

theorem results_length (s : Sheet) : s.surroundings.results.length = s.lines.length :=
  List.length_map _

theorem surroundings_next (s : Sheet) :
    s.surroundings.line = s.surroundings.results.length + 1 := by
  rw [results_length]
  rfl

theorem reads_getElem (orderly : Orderly s) {reference : Reference} {i : Nat}
    (within : i < s.lines.length) (named : reference.named? s.lines.length = some (i + 1)) :
    s.Reads reference s.lines[i] := by
  intro levels p
  have kept : s.surroundings.results[i + 1 - 1]? = some s.lines[i].value := by
    simp [surroundings, within]
  rw [← results_length] at named
  rw [Line.answer, id_of_getElem orderly within]
  exact Surroundings.runFrom_of_named (surroundings_next s) named kept p

theorem refuses_of_unnamed {reference : Reference}
    (unnamed : reference.named? s.lines.length = none) : s.Refuses reference := by
  intro levels p
  rw [← results_length] at unnamed
  exact Surroundings.runFrom_of_unnamed (surroundings_next s) unnamed p

theorem look_of_named {first second : Reference} {id : Nat}
    (named : first.named? s.lines.length = some id)
    (same : second.named? s.lines.length = some id) : s.look first = s.look second := by
  funext levels p
  rw [← results_length] at named same
  exact congrArg (runFrom · p) (Surroundings.previous_of_named (surroundings_next s) named same)

/-! The lines that the computations lead to. -/

theorem lineNamed_latest (orderly : Orderly s) :
    (s.surroundings.lineNamed .latest).toOption = s.lines.getLast?.map (·.id) := by
  rw [Surroundings.lineNamed, List.getLast?_eq_getElem?]
  split
  · rename_i empty
    rw [List.map_eq_nil_iff.1 empty]
    rfl
  · rename_i nonempty
    have within : s.lines.length - 1 < s.lines.length := by
      have positive := List.length_pos_of_ne_nil nonempty
      rw [results_length] at positive
      omega
    rw [List.getElem?_eq_getElem within, Option.map_some, id_of_getElem orderly within,
      results_length, Nat.sub_add_cancel (by omega)]
    rfl

theorem back?_map {current count : UInt64} (next : current.toNat = s.nextLine) :
    (Word.back? current count).map (·.toNat) =
      (s.surroundings.lineNamed (.back count.toNat)).toOption := by
  have counted : s.surroundings.line = current.toNat := next.symm
  rw [Surroundings.lineNamed, counted]
  split
  · have bound : current.toNat < UInt64.size := current.toNat_lt_size
    obtain ⟨line, equal⟩ := Word.exists_toNat
      (show current.toNat - (count.toNat + 1) < UInt64.size by omega)
    have found : Word.back? current count = some line :=
      Word.back?_eq_some.2 ⟨by omega, by omega⟩
    rw [found, Option.map_some, equal]
    rfl
  · have missed : Word.back? current count = none := by
      refine Option.eq_none_iff_forall_ne_some.2 fun line found => ?_
      have bounds := Word.back?_eq_some.1 found
      omega
    rw [missed]
    rfl

theorem place?_bind {current number : UInt64} (next : current.toNat = s.nextLine) :
    ((Word.place? current number).bind fun place => s.lines[place.toNat]?) =
      s.line? number.toNat := by
  have counted : current.toNat = s.lines.length + 1 := next
  ext line
  simp only [Option.bind_eq_some_iff, Word.place?_eq_some, line?]
  constructor
  · rintro ⟨place, ⟨_, index⟩, kept⟩
    rw [if_neg (by omega), ← index]
    exact kept
  · intro kept
    split at kept
    · contradiction
    · have within := (List.getElem?_eq_some_iff.1 kept).1
      have bound : current.toNat < UInt64.size := current.toNat_lt_size
      obtain ⟨place, equal⟩ := Word.exists_toNat
        (show number.toNat - 1 < UInt64.size by omega)
      exact ⟨place, ⟨by omega, by omega⟩, equal ▸ kept⟩

/-- The three forms of a reference agree. The latest line is the last one, and so many lines back
    is that much less than its number. Before the first line, and from the current one on, every
    form is refused and nothing is recorded; what is not refused reads a line of the history, which
    its number leads to as well. On 64-bit words the computations lead to the same lines, whatever
    the numbers are. -/
theorem references_agree (reached : Reached s) :
    (1 ≤ s.lines.length → s.look .latest = s.look (.line s.lines.length)) ∧
    (∀ k < s.lines.length, s.look (.back k) = s.look (.line (s.lines.length - k))) ∧
    (s.lines.length = 0 → s.Refuses .latest) ∧
    (∀ k, s.lines.length ≤ k → s.Refuses (.back k)) ∧
    (∀ m, m = 0 ∨ s.lines.length < m → s.Refuses (.line m)) ∧
    (∀ reference, s.Refuses reference ∨
      ∃ line ∈ s.lines, line.id < s.nextLine ∧ s.Reads reference line) ∧
    (∀ line ∈ s.lines, s.Reads (.line line.id) line) ∧
    (s.surroundings.lineNamed .latest).toOption = s.lines.getLast?.map (·.id) ∧
    ∀ current word : UInt64, current.toNat = s.nextLine →
      (Word.back? current word).map (·.toNat) =
        (s.surroundings.lineNamed (.back word.toNat)).toOption ∧
      ((Word.place? current word).bind fun place => s.lines[place.toNat]?) =
        s.line? word.toNat := by
  have orderly := orderly_of_reached reached
  refine ⟨?_, ?_, ?_, ?_, ?_, ?_, ?_, lineNamed_latest orderly, ?_⟩
  · intro positive
    exact look_of_named (if_pos positive) (if_pos ⟨positive, Nat.le_refl _⟩)
  · intro k within
    exact look_of_named (if_pos within) (if_pos (by omega))
  · intro empty
    exact refuses_of_unnamed (if_neg (by omega))
  · intro k beyond
    exact refuses_of_unnamed (if_neg (by omega))
  · intro m beyond
    exact refuses_of_unnamed (if_neg (by omega))
  · intro reference
    cases named : reference.named? s.lines.length with
    | none => exact .inl (refuses_of_unnamed named)
    | some id =>
      obtain ⟨least, most⟩ := Reference.named?_bounds named
      obtain ⟨i, rfl⟩ := Nat.exists_eq_add_of_le' least
      have numbered := id_of_getElem orderly most
      have earlier : s.lines[i].id < s.nextLine := numbered ▸ Nat.lt_succ_of_le most
      exact .inr ⟨s.lines[i], List.getElem_mem most, earlier, reads_getElem orderly most named⟩
  · intro line member
    obtain ⟨i, within, rfl⟩ := List.getElem_of_mem member
    have numbered := id_of_getElem orderly within
    exact reads_getElem orderly within (numbered ▸ if_pos (by omega))
  · exact fun current word next => ⟨back?_map next, place?_bind next⟩

theorem references_agree_twoLines :
    Reached twoLines ∧ twoLines.look .latest = twoLines.look (.line 2) ∧
      twoLines.look (.back 1) = twoLines.look (.line 1) ∧ twoLines.Refuses (.back 2) ∧
      twoLines.Refuses (.line 3) ∧ (3 : UInt64).toNat = twoLines.nextLine ∧
      Word.back? 3 0xffffffffffffffff = none ∧
      (twoLines.surroundings.lineNamed (.back 0xffffffffffffffff)).toOption = none := by
  have reached : Reached twoLines := .enter _ (.enter _ (.new _ _ _))
  have length : twoLines.lines.length = 2 := by decide +kernel
  have next : (3 : UInt64).toNat = twoLines.nextLine := by rw [nextLine, length]; rfl
  obtain ⟨latest, back, _, beyond, later, _, _, _, words⟩ := references_agree reached
  rw [length] at latest back beyond later
  have missed : Word.back? 3 0xffffffffffffffff = none := by decide +kernel
  have refused := (words 3 0xffffffffffffffff next).1
  rw [missed] at refused
  exact ⟨reached, latest (by decide), back 1 (by decide), beyond 2 (by decide),
    later 3 (by decide), next, missed, refused.symm⟩

end Sheet

end NotepadCalculator
