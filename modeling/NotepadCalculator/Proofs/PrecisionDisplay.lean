import NotepadCalculator.Proofs.DecimalNumbers
import NotepadCalculator.Proofs.FilledTemplates
import NotepadCalculator.Proofs.SheetRuns
import NotepadCalculator.Proofs.TextVariance

/-!
What the precision bears on. It is read only where an amount is shown, so texts are all that can
differ between two precisions. With places after the point, an amount is shown with a point in it,
and a name has none: whatever stands around it, no placeholder reaches into it, so the texts are
templates alike. Without places an amount is shown as digits, and these can complete a name.
-/
namespace NotepadCalculator
open Calendar Measurement Money Number

namespace Template

/-- Characters that no placeholder begins in or reaches across. -/
structure Closed (cs : List Char) : Prop where
  pointed : '.' ∈ cs
  noOpening : '{' ∉ cs
  noClosing : '}' ∉ cs

inductive Blurred : List Char → List Char → Prop where
  | nil : Blurred [] []
  | same (c : Char) {cs ds : List Char} (rest : Blurred cs ds) : Blurred (c :: cs) (c :: ds)
  | passage {here there cs ds : List Char} (closed : Closed here) (closed' : Closed there)
      (rest : Blurred cs ds) : Blurred (here ++ cs) (there ++ ds)

theorem blurred_refl (cs : List Char) : Blurred cs cs := by
  induction cs with
  | nil => exact .nil
  | cons c _ ih => exact .same c ih

theorem blurred_of_closed {here there : List Char} (closed : Closed here)
    (closed' : Closed there) : Blurred here there := by
  simpa using Blurred.passage closed closed' .nil

theorem blurred_symm {cs ds : List Char} (blurred : Blurred cs ds) : Blurred ds cs := by
  induction blurred with
  | nil => exact .nil
  | same c _ ih => exact .same c ih
  | passage closed closed' _ ih => exact .passage closed' closed ih

theorem blurred_append {cs ds cs' ds' : List Char} (first : Blurred cs ds)
    (second : Blurred cs' ds') : Blurred (cs ++ cs') (ds ++ ds') := by
  induction first with
  | nil => exact second
  | same c _ ih => exact .same c ih
  | passage closed closed' _ ih =>
    rw [List.append_assoc, List.append_assoc]
    exact .passage closed closed' ih

theorem not_closed_of_name {here cs name rest : List Char}
    (inside : ∀ c ∈ name, continuesName c = true) (split : here ++ cs = name ++ '}' :: rest) :
    ¬Closed here := by
  intro closed
  rcases List.append_eq_append_iff.1 split with ⟨more, rfl, _⟩ | ⟨more, rfl, ends⟩
  · have point := inside '.' (List.mem_append_left _ closed.pointed)
    exact absurd point (by decide)
  · cases more with
    | nil =>
      have point := inside '.' (by simpa using closed.pointed)
      exact absurd point (by decide)
    | cons c more =>
      obtain ⟨rfl, _⟩ := List.cons.inj ends
      exact closed.noClosing (by simp)

theorem blurred_name {name rest ds : List Char} (inside : ∀ c ∈ name, continuesName c = true)
    (blurred : Blurred (name ++ '}' :: rest) ds) :
    ∃ rest', ds = name ++ '}' :: rest' ∧ Blurred rest rest' := by
  generalize split : name ++ '}' :: rest = cs at blurred
  induction blurred generalizing name with
  | nil => simp at split
  | passage closed _ _ _ => exact absurd closed (not_closed_of_name inside split.symm)
  | @same c cs ds same ih =>
    cases name with
    | nil =>
      obtain ⟨rfl, rfl⟩ := List.cons.inj split
      exact ⟨ds, rfl, same⟩
    | cons n name =>
      obtain ⟨rfl, tail⟩ := List.cons.inj split
      obtain ⟨rest', rfl, blurred⟩ := ih (List.forall_mem_cons.1 inside).2 tail
      exact ⟨rest', rfl, blurred⟩

theorem placeholderName?_of_blurred {cs ds : List Char} (blurred : Blurred cs ds) :
    placeholderName? cs = placeholderName? ds := by
  have passed {cs ds name : List Char} (blurred : Blurred cs ds)
      (found : placeholderName? cs = some name) : placeholderName? ds = some name := by
    obtain ⟨isName, rest, rfl⟩ := placeholderName?_eq_some.1 found
    obtain ⟨rest', rfl, _⟩ := blurred_name isName.continues blurred
    exact placeholderName?_eq_some.2 ⟨isName, rest', rfl⟩
  exact Option.ext fun name => ⟨passed blurred, passed (blurred_symm blurred)⟩

theorem piecesAfter_closed {here : List Char} (noOpening : '{' ∉ here) (cs : List Char) :
    piecesAfter 0 (here ++ cs) = here.map .literal ++ piecesAfter 0 cs := by
  induction here with
  | nil => rfl
  | cons c here ih =>
    obtain ⟨other, more⟩ := List.ne_and_not_mem_of_not_mem_cons noOpening
    rw [List.cons_append, piecesAfter, if_neg (Ne.symm other), ih more]
    rfl

/-- A blurred text is a template with the same placeholders. -/
theorem like_piecesAfter {cs ds : List Char} (blurred : Blurred cs ds) :
    Like (fun c d => Blurred c.toList d.toList) (piecesAfter 0 cs) (piecesAfter 0 ds) := by
  -- A placeholder is passed in one step, so the induction is on the length of the text.
  induction length : cs.length using Nat.strongRecOn generalizing cs ds with
  | ind n ih =>
    cases blurred with
    | nil => exact .nil
    | @passage here there cs ds closed closed' rest =>
      rw [piecesAfter_closed closed.noOpening, piecesAfter_closed closed'.noOpening]
      refine .literals ?_ (ih cs.length ?_ rest rfl)
      · simpa using blurred_of_closed closed closed'
      · have := List.length_pos_of_mem closed.pointed
        rw [List.length_append] at length
        omega
    | @same c cs ds rest =>
      rw [List.length_cons] at length
      obtain plain | ⟨name, after, named, rfl, rfl⟩ := plain_or_placeholder c cs
      · have plain' := plain
        rw [placeholderName?_of_blurred rest] at plain'
        rw [piecesAfter_literal plain, piecesAfter_literal plain']
        show Like _ ([c].map .literal ++ _) ([c].map .literal ++ _)
        exact .literals (blurred_refl _) (ih cs.length (by omega) rest rfl)
      · obtain ⟨after', rfl, blurred⟩ := blurred_name named.continues rest
        rw [List.length_append, List.length_cons] at length
        rw [piecesAfter_placeholder named, piecesAfter_placeholder named]
        exact .placeholder _ (ih after.length (by omega) blurred rfl)

theorem transparent_blurred : Transparent fun c d => Blurred c.toList d.toList :=
  fun _ _ blurred => like_piecesAfter blurred

end Template

namespace Number
open Template

theorem closed_withPoint {places : Nat} (shown : 1 ≤ places) (n : Nat) :
    Closed (withPoint places n) := by
  have plain : ∀ c ∈ withPoint places n, c ≠ '{' ∧ c ≠ '}' := by
    intro c member
    rcases mem_withPoint member with rfl | digit
    · decide
    · have digit := isDigit_of_mem_padded digit
      constructor <;> rintro rfl <;> exact absurd digit (by decide)
  refine ⟨by simp [withPoint, if_neg (by omega : places ≠ 0)], fun opening => ?_, fun closing => ?_⟩
  · exact (plain _ opening).1 rfl
  · exact (plain _ closing).2 rfl

theorem closed_sign {cs : List Char} : Closed ('-' :: cs) ↔ Closed cs := by
  constructor
  · rintro ⟨pointed, noOpening, noClosing⟩
    exact ⟨by simpa using pointed, by simpa using noOpening, by simpa using noClosing⟩
  · rintro ⟨pointed, noOpening, noClosing⟩
    exact ⟨by simpa using pointed, by simpa using noOpening, by simpa using noClosing⟩

theorem closed_dropZeroSign {cs : List Char} (closed : Closed cs) : Closed (dropZeroSign cs) := by
  unfold dropZeroSign
  split
  · split
    · exact closed_sign.1 closed
    · exact closed
  · exact closed

/-- With places after the point, what an amount is shown as is a closed passage. -/
theorem closed_fixed {places : Nat} (shown : 1 ≤ places) (negative : Bool) (mantissa : Nat)
    (exponent : Int) :
    Closed (dropZeroSign ((Exact.finite negative mantissa exponent).fixed places).toList) := by
  have magnitude := closed_withPoint shown (scaledDigits places mantissa exponent)
  apply closed_dropZeroSign
  simp only [Exact.fixed, withSign, String.toList_ofList]
  cases negative with
  | false => exact magnitude
  | true => exact closed_sign.2 magnitude

theorem shows_blurred {p q : Nat} (alike : p = 0 ↔ q = 0) :
    Shows (fun c d => Blurred c.toList d.toList) p q Float where
  refl := fun c => blurred_refl _
  append := by
    intro c c' d d' first second
    rw [String.toList_append, String.toList_append]
    exact blurred_append first second
  amount := by
    intro a
    unfold shownAmount
    rw [String.toList_ofList, String.toList_ofList]
    show Blurred (dropZeroSign ((Exact.ofFloat a).fixed p).toList)
      (dropZeroSign ((Exact.ofFloat a).fixed q).toList)
    cases Exact.ofFloat a with
    | notANumber => exact blurred_refl _
    | infinite negative => exact blurred_refl _
    | finite negative mantissa exponent =>
      rcases Nat.eq_zero_or_pos p with rfl | shown
      · rw [alike.1 rfl]
        exact blurred_refl _
      · have shown' : 1 ≤ q := by omega
        exact blurred_of_closed (closed_fixed shown _ _ _) (closed_fixed shown' _ _ _)

end Number

variable {R : String → String → Prop}

inductive Outcome.Like (R : String → String → Prop) : Outcome → Outcome → Prop where
  | success {v w : Value Float} (like : Value.Like R v w) : Like R (.success v) (.success w)
  | silent : Like R .silent .silent
  | failure (error : LineError) : Like R (.failure error) (.failure error)

theorem Outcome.like_refl (refl : ∀ c, R c c) (outcome : Outcome) : Like R outcome outcome := by
  cases outcome with
  | success value => exact .success (Value.like_refl refl value)
  | silent => exact .silent
  | failure error => exact .failure error

structure Line.Like (R : String → String → Prop) (l l' : Line) : Prop where
  id : l'.id = l.id
  input : l'.input = l.input
  expr : l'.expr = l.expr
  outcome : Outcome.Like R l.outcome l'.outcome
  value : Option.Rel (Value.Like R) l.value l'.value

namespace Sheet

def withPrecision (s : Sheet) (places : Nat) : Sheet := { s with settings.precision := places }

/-- The same sheet with a precision of `p` and of `q`, but for texts. -/
structure Varied (R : String → String → Prop) (p q : Nat) (s t : Sheet) : Prop where
  precision : s.settings.precision = p
  settings : t.settings = { s.settings with precision := q }
  bindings : ∀ name, Option.Rel (Value.Like R) (s.bindings.get? name) (t.bindings.get? name)
  units : t.units = s.units
  lines : List.Forall₂ (Line.Like R) s.lines t.lines
  graph : t.graph = s.graph
  assignedIn : t.assignedIn = s.assignedIn
  rates : t.rates = s.rates
  now : t.now = s.now

theorem rel_refl {β : Type} {P : β → β → Prop} (refl : ∀ b, P b b) (found : Option β) :
    Option.Rel P found found := by
  cases found with
  | none => exact .none
  | some b => exact .some (refl b)

theorem varied_withPrecision (refl : ∀ c, R c c) (s : Sheet) (p q : Nat) :
    Varied R p q (s.withPrecision p) (s.withPrecision q) where
  precision := rfl
  settings := rfl
  bindings := fun _ => rel_refl (Value.like_refl refl) _
  units := rfl
  lines := List.forall₂_same.2 fun _ _ =>
    ⟨rfl, rfl, rfl, Outcome.like_refl refl _, rel_refl (Value.like_refl refl) _⟩
  graph := rfl
  assignedIn := rfl
  rates := rfl
  now := rfl

variable {p q : Nat} {s t : Sheet}

theorem varied_nextLine (varied : Varied R p q s t) : t.nextLine = s.nextLine := by
  rw [nextLine, nextLine, varied.lines.length_eq]

theorem varied_surroundings (varied : Varied R p q s t) : t.surroundings =
    s.surroundings.shownElse (t.lines.map (·.value)) q := by
  unfold surroundings
  rw [varied_nextLine varied, varied.units, varied.rates, varied.now, varied.settings]

theorem varied_outcome (varied : Varied R p q s t) (e : Expr Float)
    {answer answer' : Answer (Value Float)} (agree : Agree (Value.Like R) answer answer') :
    Outcome.Like R (s.outcome e answer) (t.outcome e answer') := by
  cases agree with
  | error error => exact .failure _
  | ok like =>
    have quiet : t.settings.quiet = s.settings.quiet := by rw [varied.settings]
    simp only [outcome, quiet]
    split
    · exact .silent
    · exact .success like

theorem varied_noteAssignment (varied : Varied R p q s t) (e : Expr Float)
    {answer answer' : Answer (Value Float)} (agree : Agree (Value.Like R) answer answer') :
    t.noteAssignment e answer' = s.noteAssignment e answer := by
  cases agree with
  | error error => exact varied.assignedIn
  | ok like =>
    unfold noteAssignment
    rw [varied_nextLine varied, varied.assignedIn]
    cases e <;> rfl

theorem varied_dependencies (varied : Varied R p q s t) {read read' : Progress Float}
    (like : Progress.Like R read read') : t.dependencies read' = s.dependencies read := by
  unfold dependencies
  rw [varied.assignedIn, like.readLines, like.readVariables]

theorem varied_record (shows : Shows R p q Float) (varied : Varied R p q s t) (input : String)
    {e : Expr Float} (printable : Surroundings.Printable R e) :
    Outcome.Like R (s.record input e).1 (t.record input e).1 ∧
      Varied R p q (s.record input e).2 (t.record input e).2 := by
  have results : List.Forall₂ (Option.Rel (Value.Like R)) s.surroundings.results
      (t.lines.map (·.value)) := by
    refine List.forall₂_map_left_iff.2 (List.forall₂_map_right_iff.2 ?_)
    exact varied.lines.imp fun _ _ like => like.value
  have shown : Shows R s.surroundings.places q Float := by
    rw [show s.surroundings.places = p from varied.precision]
    exact shows
  obtain ⟨agree, progress⟩ := Surroundings.run_like shown results printable varied.bindings
  rw [← varied_surroundings varied] at agree progress
  have outcome := varied_outcome varied e agree
  have assigned := varied_noteAssignment varied e agree
  have read := varied_dependencies varied progress
  have valued : Option.Rel (Value.Like R) (s.surroundings.run s.bindings e).1.toOption
      (t.surroundings.run t.bindings e).1.toOption := by
    generalize (s.surroundings.run s.bindings e).1 = answer,
      (t.surroundings.run t.bindings e).1 = answer' at agree
    cases agree with
    | ok like => exact .some like
    | error error => exact .none
  refine ⟨outcome, ?_⟩
  exact {
    precision := varied.precision
    settings := varied.settings
    bindings := progress.bindings
    units := varied.units
    lines := List.rel_append varied.lines
      (.cons ⟨varied_nextLine varied, rfl, rfl, outcome, valued⟩ .nil)
    graph := by
      simp only [record]
      rw [varied_nextLine varied, varied.graph, read]
    assignedIn := assigned
    rates := varied.rates
    now := varied.now }

theorem varied_command (varied : Varied R p q s t) {name : String}
    {arguments : List String}
    (steady : ∀ places, Command.read name arguments ≠ .ok (.setPrecision places)) :
    Outcome.Like R (s.command name arguments).1 (t.command name arguments).1 ∧
      Varied R p q (s.command name arguments).2 (t.command name arguments).2 := by
  unfold command
  cases taken : Command.read name arguments with
  | error error => exact ⟨.failure _, varied⟩
  | ok command =>
    simp only [Except.bind]
    cases command with
    | setPrecision places => exact absurd taken (steady places)
    | clear =>
      refine ⟨.silent, ?_⟩
      exact { varied with
        bindings := fun _ => .none
        units := congrArg UnitSystem.clear varied.units
        lines := .nil
        graph := rfl
        assignedIn := rfl }
    | defineUnit name scale base =>
      simp only [apply, varied.units]
      cases measured (s.units.define name scale base) with
      | error error => exact ⟨.failure _, varied⟩
      | ok units => exact ⟨.silent, { varied with units := rfl }⟩
    | _ => exact ⟨.silent, { varied with settings := by simp [apply, varied.settings] }⟩

def PrintsLiterals (input : String) : Prop :=
  ∀ fuzzy e, parseLine fuzzy input = .ok e → e.Throughout Expr.PrintsLiteral

theorem varied_enter (shows : Shows R p q Float) (varied : Varied R p q s t) {input : String}
    (printable : Transparent R ∨ PrintsLiterals input)
    (steady : ∀ places, commandOf? input ≠ some (.setPrecision places)) :
    Outcome.Like R (s.enter input).1 (t.enter input).1 ∧
      Varied R p q (s.enter input).2 (t.enter input).2 := by
  have fuzzy : t.settings.fuzzy = s.settings.fuzzy := by rw [varied.settings]
  unfold enter
  rw [fuzzy]
  cases parsed : parseLine s.settings.fuzzy input with
  | error error => exact ⟨.failure _, varied⟩
  | ok e =>
    have kept := varied_record shows varied input (e := e)
      (printable.imp_right fun all => all _ e parsed)
    cases e with
    | blank => exact ⟨.silent, varied⟩
    | command name arguments =>
      refine varied_command varied fun places taken => ?_
      exact steady places (commandOf?_of_read parsed taken)
    | _ => exact kept

theorem varied_enterAt (shows : Shows R p q Float) (varied : Varied R p q s t)
    {entry : Moment × String} (printable : Transparent R ∨ PrintsLiterals entry.2)
    (steady : ∀ places, commandOf? entry.2 ≠ some (.setPrecision places)) :
    Outcome.Like R (s.enterAt entry).1 (t.enterAt entry).1 ∧
      Varied R p q (s.enterAt entry).2 (t.enterAt entry).2 := by
  have together : Varied R p q { s with now := entry.1 } { t with now := entry.1 } :=
    { varied with now := rfl }
  exact varied_enter shows together printable steady

theorem varied_after (shows : Shows R p q Float) (varied : Varied R p q s t)
    {entries : List (Moment × String)}
    (printable : Transparent R ∨ ∀ entry ∈ entries, PrintsLiterals entry.2)
    (steady : ∀ entry ∈ entries, ∀ places, commandOf? entry.2 ≠ some (.setPrecision places)) :
    Varied R p q (s.after entries) (t.after entries) := by
  refine after_keeps (R := Varied R p q) (fun entry member s t varied => ?_) varied
  exact (varied_enterAt shows varied (printable.imp_right fun all => all entry member)
    (steady entry member)).2

abbrev SameButText : Value Float → Value Float → Prop := Value.Like fun _ _ => True

theorem sameButText_of_like {v w : Value Float} (like : Value.Like R v w) : SameButText v w := by
  cases like with
  | scalar tag a => exact .scalar tag a
  | date moment => exact .date moment
  | text _ => exact .text trivial

theorem rel_sameButText {found found' : Option (Value Float)}
    (like : Option.Rel (Value.Like R) found found') : Option.Rel SameButText found found' := by
  cases like with
  | none => exact .none
  | some like => exact .some (sameButText_of_like like)

theorem outcome_sameButText {outcome outcome' : Outcome} (like : Outcome.Like R outcome outcome') :
    Outcome.Like (fun _ _ => True) outcome outcome' := by
  cases like with
  | success like => exact .success (sameButText_of_like like)
  | silent => exact .silent
  | failure error => exact .failure error

/-- What holds of two runs that keep to the relation, whatever the relation is. -/
theorem varied_alike (shows : Shows R p q Float) {entries : List (Moment × String)}
    {last : Moment × String}
    (printable : Transparent R ∨ ∀ entry ∈ entries ++ [last], PrintsLiterals entry.2)
    (steady : ∀ entry ∈ entries ++ [last], ∀ places,
      commandOf? entry.2 ≠ some (.setPrecision places)) (s : Sheet) :
    let one := (s.withPrecision p).after entries
    let other := (s.withPrecision q).after entries
    (∀ name, Option.Rel SameButText (one.bindings.get? name) (other.bindings.get? name)) ∧
      List.Forall₂ (fun l l' => Option.Rel SameButText l.value l'.value) one.lines other.lines ∧
      Outcome.Like (fun _ _ => True) (one.enterAt last).1 (other.enterAt last).1 := by
  have before {e : Moment × String} (member : e ∈ entries) : e ∈ entries ++ [last] :=
    List.mem_append_left _ member
  have varied := varied_after shows (varied_withPrecision shows.refl s p q)
    (printable.imp_right fun all e member => all e (before member))
    (fun e member => steady e (before member))
  refine ⟨fun name => rel_sameButText (varied.bindings name), ?_, ?_⟩
  · exact varied.lines.imp fun _ _ like => rel_sameButText like.value
  · have member : last ∈ entries ++ [last] := by simp
    exact outcome_sameButText (varied_enterAt shows varied
      (printable.imp_right fun all => all last member) (steady last member)).1

/-- The precision is for display. With two precisions that both have places after the point or
    both have none, a sheet goes through the same run, whatever lines are entered, if none of them
    sets the precision: the same names are bound and the same lines kept, with values that are the
    same but for texts, and the next line succeeds with both precisions, is silent with both, or
    fails with both for the same reason. With a precision of zero and another one this holds of
    lines that print written texts only. -/
theorem precision_displays (s : Sheet) (p q : Nat) (entries : List (Moment × String))
    (last : Moment × String)
    (steady : ∀ entry ∈ entries ++ [last], ∀ places,
      commandOf? entry.2 ≠ some (.setPrecision places))
    (templates : (p = 0 ↔ q = 0) ∨ ∀ entry ∈ entries ++ [last], PrintsLiterals entry.2) :
    let one := (s.withPrecision p).after entries
    let other := (s.withPrecision q).after entries
    (∀ name, Option.Rel SameButText (one.bindings.get? name) (other.bindings.get? name)) ∧
      List.Forall₂ (fun l l' => Option.Rel SameButText l.value l'.value) one.lines other.lines ∧
      Outcome.Like (fun _ _ => True) (one.enterAt last).1 (other.enterAt last).1 := by
  rcases templates with alike | literal
  · exact varied_alike (shows_blurred alike) (.inl Template.transparent_blurred) steady s
  · have shows : Shows (fun _ _ => True) p q Float :=
      ⟨fun _ => trivial, fun _ _ => trivial, fun _ => trivial⟩
    exact varied_alike shows (.inr literal) steady s

def braced : List (Moment × String) :=
  [(fresh.now, "n = 2"), (fresh.now, "t = print(\"\x7bv\x7bn\x7d\x7d\")")]

theorem precision_displays_braced :
    let last : Moment × String := (Day.midnight ⟨0, by decide, by decide⟩, "print(t)")
    let one := (fresh.withPrecision 1).after braced
    let other := (fresh.withPrecision 3).after braced
    (one.enterAt last).1 = .success (.text "\x7bv2.0\x7d") ∧
      (other.enterAt last).1 = .success (.text "\x7bv2.000\x7d") ∧
      Option.Rel SameButText (one.bindings.get? "t") (other.bindings.get? "t") ∧
      Outcome.Like (fun _ _ => True) (one.enterAt last).1 (other.enterAt last).1 := by
  intro last one other
  have commandless : ∀ entry ∈ braced ++ [last], commandOf? entry.2 = none := by decide +kernel
  obtain ⟨bindings, _, outcomes⟩ := precision_displays fresh 1 3 braced last
    (fun entry member places => by simp [commandless entry member]) (.inl (by decide))
  exact ⟨by decide +kernel, by decide +kernel, bindings "t", outcomes⟩

/-- Without places the number completes a name. -/
theorem precision_completes_name :
    let last : Moment × String := (Day.midnight ⟨0, by decide, by decide⟩, "print(t)")
    (∀ entry ∈ braced ++ [last], commandOf? entry.2 = none) ∧
      (((fresh.withPrecision 0).after braced).enterAt last).1 =
        .failure (.eval (.undefinedVariable "v2")) ∧
      (((fresh.withPrecision 2).after braced).enterAt last).1 =
        .success (.text "\x7bv2.00\x7d") := by
  refine ⟨?_, ?_, ?_⟩ <;> decide +kernel

end Sheet

end NotepadCalculator
