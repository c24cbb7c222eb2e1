import Mathlib.Data.List.TakeWhile
import NotepadCalculator.Proofs.EvaluationSteps

/-!
What a template is printed as. Its placeholders are all the names in braces that occur in it. They
stand apart, and printing replaces each of them and keeps what stands between them.
-/
namespace NotepadCalculator

namespace Template

structure IsName (cs : List Char) : Prop where
  begins : cs.head?.any startsName = true
  continues : ∀ c ∈ cs, continuesName c = true

structure Spot where
  start : Nat
  name : String
  deriving DecidableEq, Repr

namespace Spot

def stop (spot : Spot) : Nat := spot.start + (spot.name.length + 2)

structure In (spot : Spot) (cs : List Char) : Prop where
  named : IsName spot.name.toList
  occurs : '{' :: (spot.name.toList ++ ['}']) <+: cs.drop spot.start

end Spot

/-- The text with something else in the place of each spot, from a position on. -/
def filled (text : String → List Char) (cs : List Char) : Nat → List Spot → List Char
  | position, [] => cs.drop position
  | position, spot :: rest =>
    (cs.drop position).take (spot.start - position) ++ text spot.name ++
      filled text cs spot.stop rest

/-! Scanning. -/

/-- What stands between the braces of a placeholder, up to the closing one. -/
theorem placeholderName?_eq_some {cs name : List Char} :
    placeholderName? cs = some name ↔ IsName name ∧ ∃ rest, cs = name ++ '}' :: rest := by
  unfold placeholderName?
  dsimp only
  constructor
  · intro found
    split at found
    · rename_i starts
      obtain ⟨begins, ends⟩ := Bool.and_eq_true_iff.1 starts
      obtain rfl := Option.some.inj found
      obtain ⟨rest, behind⟩ := List.head?_eq_some_iff.1 (of_decide_eq_true ends)
      refine ⟨⟨begins, fun c member => List.mem_takeWhile_imp member⟩, rest, ?_⟩
      rw [← behind]
      exact (List.prefix_iff_eq_append.1 (List.takeWhile_prefix _)).symm
    · contradiction
  · rintro ⟨⟨begins, inside⟩, rest, rfl⟩
    have taken : (name ++ '}' :: rest).takeWhile continuesName = name := by
      rw [List.takeWhile_append_of_pos inside, List.takeWhile_cons_of_neg (by decide),
        List.append_nil]
    rw [taken]
    simp [begins]

theorem piecesAfter_skipped (skipped : Nat) (cs : List Char) :
    piecesAfter skipped cs = piecesAfter 0 (cs.drop skipped) := by
  induction skipped generalizing cs with
  | zero => rfl
  | succ skipped ih =>
    cases cs with
    | nil => rfl
    | cons c cs => exact ih cs

theorem piecesAfter_placeholder {name : List Char} (named : IsName name) (rest : List Char) :
    piecesAfter 0 ('{' :: (name ++ '}' :: rest)) =
      .placeholder (String.ofList name) :: piecesAfter 0 rest := by
  have found := placeholderName?_eq_some.2 ⟨named, rest, rfl⟩
  have behind : (name ++ '}' :: rest).drop (name.length + 1) = rest := by simp
  rw [piecesAfter, if_pos rfl, found]
  dsimp only
  rw [piecesAfter_skipped, behind]

theorem piecesAfter_literal {c : Char} {rest : List Char}
    (plain : c = '{' → placeholderName? rest = none) :
    piecesAfter 0 (c :: rest) = .literal c :: piecesAfter 0 rest := by
  have none : (if c = '{' then placeholderName? rest else none) = none := by
    by_cases opens : c = '{'
    · rw [if_pos opens, plain opens]
    · rw [if_neg opens]
  rw [piecesAfter, none]

theorem plain_or_placeholder (c : Char) (rest : List Char) :
    (c = '{' → placeholderName? rest = none) ∨
      ∃ name after, IsName name ∧ c = '{' ∧ rest = name ++ '}' :: after := by
  by_cases plain : c = '{' → placeholderName? rest = none
  · exact .inl plain
  · obtain ⟨opens, some⟩ := Classical.not_imp.1 plain
    obtain ⟨name, found⟩ := Option.ne_none_iff_exists'.1 some
    obtain ⟨named, after, closes⟩ := placeholderName?_eq_some.1 found
    exact .inr ⟨name, after, named, opens, closes⟩

/-- A text in pieces: placeholders, and characters that no placeholder begins at. -/
inductive Reads : List Char → List Piece → Prop where
  | nil : Reads [] []
  | literal {c : Char} {rest : List Char} {pieces : List Piece}
      (plain : c = '{' → placeholderName? rest = none) (more : Reads rest pieces) :
      Reads (c :: rest) (.literal c :: pieces)
  | placeholder {name rest : List Char} {pieces : List Piece} (named : IsName name)
      (more : Reads rest pieces) :
      Reads ('{' :: (name ++ '}' :: rest)) (.placeholder (String.ofList name) :: pieces)

theorem reads_piecesAfter (cs : List Char) : Reads cs (piecesAfter 0 cs) := by
  -- A placeholder is passed in one step, so the induction is on the length of the text.
  induction length : cs.length using Nat.strongRecOn generalizing cs with
  | ind n ih =>
    cases cs with
    | nil => exact .nil
    | cons c rest =>
      rw [List.length_cons] at length
      obtain plain | ⟨name, after, named, rfl, rfl⟩ := plain_or_placeholder c rest
      · rw [piecesAfter_literal plain]
        exact .literal plain (ih rest.length (by omega) rest rfl)
      · rw [List.length_append, List.length_cons] at length
        rw [piecesAfter_placeholder named]
        exact .placeholder named (ih after.length (by omega) after rfl)

/-! Spots. -/

def spotsFrom : Nat → List Piece → List Spot
  | _, [] => []
  | position, .literal _ :: rest => spotsFrom (position + 1) rest
  | position, .placeholder name :: rest =>
    ⟨position, name⟩ :: spotsFrom (position + (name.length + 2)) rest

theorem in_iff {spot : Spot} {cs : List Char} : spot.In cs ↔
    ∃ rest, cs.drop spot.start = '{' :: rest ∧
      placeholderName? rest = some spot.name.toList := by
  constructor
  · rintro ⟨named, rest, occurs⟩
    rw [List.cons_append, List.append_assoc] at occurs
    exact ⟨_, occurs.symm, placeholderName?_eq_some.2 ⟨named, rest, rfl⟩⟩
  · rintro ⟨_, here, found⟩
    obtain ⟨named, rest, rfl⟩ := placeholderName?_eq_some.1 found
    refine ⟨named, rest, ?_⟩
    rw [here, List.cons_append, List.append_assoc]
    rfl

theorem not_opened_inside {name : List Char} (named : IsName name) (rest : List Char) {k : Nat}
    (inside : k ≤ name.length) (after : List Char) :
    (name ++ '}' :: rest).drop k ≠ '{' :: after := by
  intro opened
  have here : (name ++ '}' :: rest)[k]? = some '{' := by
    rw [← List.head?_drop, opened, List.head?_cons]
  rcases Nat.lt_or_eq_of_le inside with less | rfl
  · rw [List.getElem?_append_left less] at here
    have continued := named.continues '{' (List.mem_of_getElem? here)
    exact absurd continued (by decide)
  · rw [List.getElem?_append_right le_rfl, Nat.sub_self, List.getElem?_cons_zero] at here
    exact absurd here (by decide)

section
variable {whole rest : List Char} {position : Nat}

theorem drop_literal {c : Char} (here : whole.drop position = c :: rest) :
    whole.drop (position + 1) = rest := by
  rw [← List.drop_drop, here, List.drop_one, List.tail_cons]

theorem drop_placeholder {name : List Char}
    (here : whole.drop position = '{' :: (name ++ '}' :: rest)) :
    whole.drop (position + (name.length + 2)) = rest := by
  rw [← List.drop_drop, here]
  simp

variable {spot : Spot} (occurs : spot.In whole) (least : position ≤ spot.start)
include occurs least

theorem start_after_literal {c : Char} (here : whole.drop position = c :: rest)
    (plain : c = '{' → placeholderName? rest = none) : position + 1 ≤ spot.start := by
  apply Nat.lt_of_le_of_ne least
  rintro rfl
  obtain ⟨after, opened, found⟩ := in_iff.1 occurs
  obtain ⟨rfl, rfl⟩ := List.cons.inj (here.symm.trans opened)
  rw [plain rfl] at found
  cases found

/-- Between the beginning of a placeholder and its end there begins no other. -/
theorem start_after_placeholder {name : List Char} (named : IsName name)
    (here : whole.drop position = '{' :: (name ++ '}' :: rest)) :
    spot = ⟨position, String.ofList name⟩ ∨ position + (name.length + 2) ≤ spot.start := by
  obtain ⟨after, opened, found⟩ := in_iff.1 occurs
  by_cases same : position = spot.start
  · left
    obtain ⟨start, spotName⟩ := spot
    obtain rfl : position = start := same
    obtain ⟨_, rfl⟩ := List.cons.inj (here.symm.trans opened)
    rw [placeholderName?_eq_some.2 ⟨named, rest, rfl⟩, Option.some_inj] at found
    rw [found, String.ofList_toList]
  · right
    by_contra inside
    obtain ⟨k, start⟩ : ∃ k, spot.start = position + (k + 1) :=
      ⟨spot.start - position - 1, by omega⟩
    rw [start, ← List.drop_drop, here, List.drop_succ_cons] at opened
    exact not_opened_inside named rest (by omega) after opened

end

/-- The spots from a position on are those that do not begin before it. -/
theorem mem_spotsFrom {whole cs : List Char} {pieces : List Piece} (reads : Reads cs pieces)
    {position : Nat} (here : whole.drop position = cs) (spot : Spot) :
    spot ∈ spotsFrom position pieces ↔ position ≤ spot.start ∧ spot.In whole := by
  induction reads generalizing position with
  | nil =>
    rw [spotsFrom, List.mem_nil_iff, false_iff]
    rintro ⟨least, occurs⟩
    obtain ⟨after, opened, _⟩ := in_iff.1 occurs
    rw [List.drop_eq_nil_of_le ((List.drop_eq_nil_iff.1 here).trans least)] at opened
    cases opened
  | @literal c rest pieces plain more ih =>
    rw [spotsFrom, ih (drop_literal here)]
    constructor
    · rintro ⟨later, occurs⟩
      exact ⟨Nat.le_of_succ_le later, occurs⟩
    · rintro ⟨least, occurs⟩
      exact ⟨start_after_literal occurs least here plain, occurs⟩
  | @placeholder name rest pieces named more ih =>
    rw [spotsFrom, List.mem_cons, String.length_ofList, ih (drop_placeholder here)]
    constructor
    · rintro (rfl | ⟨later, occurs⟩)
      · refine ⟨le_rfl, in_iff.2 ⟨_, here, ?_⟩⟩
        rw [String.toList_ofList]
        exact placeholderName?_eq_some.2 ⟨named, rest, rfl⟩
      · exact ⟨by omega, occurs⟩
    · rintro ⟨least, occurs⟩
      rcases start_after_placeholder occurs least named here with rfl | later
      · exact .inl rfl
      · exact .inr ⟨later, occurs⟩

/-- Of the braces in `{a{b}} {1x}{_c}{`, these hold a name. -/
example : spotsFrom 0 (pieces "\x7ba\x7bb\x7d\x7d \x7b1x\x7d\x7b_c\x7d\x7b") =
    [⟨2, "b"⟩, ⟨11, "_c"⟩] := by
  decide +kernel

theorem pairwise_spotsFrom (position : Nat) (pieces : List Piece) :
    (∀ spot ∈ spotsFrom position pieces, position ≤ spot.start) ∧
      (spotsFrom position pieces).Pairwise fun spot next => spot.stop ≤ next.start := by
  induction pieces generalizing position with
  | nil => simp [spotsFrom]
  | cons piece pieces ih =>
    cases piece with
    | literal c =>
      obtain ⟨least, apart⟩ := ih (position + 1)
      exact ⟨fun spot member => Nat.le_of_succ_le (least spot member), apart⟩
    | placeholder name =>
      obtain ⟨least, apart⟩ := ih (position + (name.length + 2))
      refine ⟨List.forall_mem_cons.2 ⟨le_rfl, ?_⟩, List.pairwise_cons.2 ⟨least, apart⟩⟩
      exact fun spot member => le_trans (Nat.le_add_right _ _) (least spot member)

section
variable (text : String → List Char) {whole : List Char} {position : Nat}

theorem filled_literal {c : Char} {rest : List Char} (here : whole.drop position = c :: rest)
    {spots : List Spot} (later : ∀ spot ∈ spots, position + 1 ≤ spot.start) :
    filled text whole position spots = c :: filled text whole (position + 1) spots := by
  cases spots with
  | nil => rw [filled, filled, here, drop_literal here]
  | cons spot spots =>
    have gap : spot.start - position = spot.start - (position + 1) + 1 := by
      have := later spot List.mem_cons_self
      omega
    rw [filled, filled, here, drop_literal here, gap, List.take_succ_cons]
    simp

theorem filled_placeholder (name : String) (spots : List Spot) :
    filled text whole position (⟨position, name⟩ :: spots) =
      text name ++ filled text whole (position + (name.length + 2)) spots := by
  rw [filled, Nat.sub_self, List.take_zero, List.nil_append]
  rfl

end

end Template

open Evaluation Number Template

variable {α : Type}

namespace Progress

def withVariables (p : Progress α) (names : List String) : Progress α :=
  { p with variablesRead := p.variablesRead ++ names }

theorem withVariables_cons (p : Progress α) (name : String) (names : List String) :
    (p.withVariable name).withVariables names = p.withVariables (name :: names) := by
  unfold withVariables withVariable
  rw [List.append_assoc, List.singleton_append]

end Progress

namespace Surroundings
variable [Amount α]

def shownAs (s : Surroundings α) (bindings : Bindings (Value α)) (name : String) : List Char :=
  (bindings.get? name).elim [] fun value => (value.show s.places).toList

/-- Filling in the spots from a position on, up to the first name that is not bound. -/
theorem runFrom_fill (s : Surroundings α) {whole cs : List Char} {pieces : List Piece}
    (reads : Reads cs pieces) {position : Nat} (here : whole.drop position = cs)
    (p : Progress α) :
    let spots := spotsFrom position pieces
    let names := spots.map (·.name)
    runFrom (s.fill pieces) p =
      match names.find? fun name => (p.bindings.get? name).isNone with
      | none => (.ok (filled (s.shownAs p.bindings) whole position spots), p.withVariables names)
      | some name => (.error (.undefinedVariable name),
          p.withVariables (names.takeWhile fun name => (p.bindings.get? name).isSome)) := by
  induction reads generalizing position p with
  | nil =>
    show (Except.ok [], p) = (Except.ok (whole.drop position), p.withVariables [])
    rw [here, Progress.withVariables, List.append_nil]
  | @literal c rest pieces plain more ih =>
    have later := (pairwise_spotsFrom (position + 1) pieces).1
    dsimp only
    rw [fill, runFrom_bind, ih (drop_literal here), spotsFrom, filled_literal _ here later]
    generalize spotsFrom (position + 1) pieces = spots
    cases (spots.map (·.name)).find? fun name => (p.bindings.get? name).isNone with
    | none => rfl
    | some name => rfl
  | @placeholder name rest pieces named more ih =>
    dsimp only
    rw [fill, runFrom_bind, runFrom_readVariable, spotsFrom, String.length_ofList, List.map_cons,
      List.find?_cons, List.takeWhile_cons, filled_placeholder, String.length_ofList, shownAs]
    cases bound : p.bindings.get? (String.ofList name) with
    | none => simp [Progress.withVariables]
    | some value =>
      have kept : (p.withVariable (String.ofList name)).bindings = p.bindings := rfl
      dsimp only
      rw [runFrom_bind, ih (drop_placeholder here), kept]
      generalize spotsFrom (position + (name.length + 2)) pieces = spots
      simp only [Progress.withVariables_cons]
      cases (spots.map (·.name)).find? fun name => (p.bindings.get? name).isNone with
      | none => rfl
      | some unbound => rfl

/-- A template is printed with each of its placeholders replaced by the value that is bound to the
    name, and otherwise as it stands. The placeholders are all the names in braces that occur in the
    text; they do not overlap, and their names are read from left to right. The first name that is
    not bound is the error, and what has been read then are the names before it. -/
theorem print_template (s : Surroundings α) (template : String) :
    s.evaluate (.call "print" [.text template]) = s.print (.text template) ∧
    ∃ spots : List Spot, (∀ spot, spot ∈ spots ↔ spot.In template.toList) ∧
      (spots.Pairwise fun spot next => spot.stop ≤ next.start) ∧
      let names := spots.map (·.name)
      ∀ p : Progress α, runFrom (s.print (.text template)) p =
        match names.find? fun name => (p.bindings.get? name).isNone with
        | none =>
          (.ok (.text (String.ofList (filled (s.shownAs p.bindings) template.toList 0 spots))),
            p.withVariables names)
        | some name =>
          (.error (.undefinedVariable name),
            p.withVariables (names.takeWhile fun name => (p.bindings.get? name).isSome)) := by
  have reads : Reads template.toList (pieces template) := reads_piecesAfter template.toList
  refine ⟨rfl, spotsFrom 0 (pieces template), ?_, (pairwise_spotsFrom 0 _).2, ?_⟩
  · intro spot
    rw [mem_spotsFrom reads List.drop_zero]
    exact and_iff_right (Nat.zero_le _)
  · intro names p
    rw [print, runFrom_bind, s.runFrom_fill reads List.drop_zero p]
    cases names.find? fun name => (p.bindings.get? name).isNone with
    | none => rfl
    | some name => rfl

end Surroundings

end NotepadCalculator
