import NotepadCalculator.Proofs.AddedUnits
import NotepadCalculator.Proofs.KnownTags
import NotepadCalculator.Proofs.SavedSessions
import NotepadCalculator.Proofs.UnitSpellings
import NotepadCalculator.Proofs.WrittenAmounts

/-!
Units that are added by a line and used in another. A command takes its arguments as they stand, so
a unit may be given a name that no other line can spell. But where the name is read as a unit behind
a number at all, every amount of the new unit can be entered from then on.
-/
namespace NotepadCalculator
open Measurement Number Text

namespace Text

theorem trim_of_unbroken {s : String} (unbroken : ∀ c ∈ s.toList, isBlank c = false) :
    trim s = s := by
  have whole {cs : List Char} (visible : ∀ c ∈ cs, isBlank c = false) :
      cs.dropWhile isBlank = cs := by
    rw [List.dropWhile_eq_self_iff]
    intro nonempty
    simp [visible _ (List.getElem_mem nonempty)]
  have reversed : ∀ c ∈ s.toList.reverse, isBlank c = false := by simpa using unbroken
  rw [trim, trimChars, whole unbroken, whole reversed, List.reverse_reverse, String.ofList_toList]

end Text

namespace Scan

/-- A word that is read as a unit is an argument of a command as well. -/
theorem unbroken_of_unitWord {cs : List Char} (word : UnitWord cs) :
    ∀ c ∈ cs, isBlank c = false ∧ c ≠ '/' := by
  have visible {c : Char} (letter : isWordChar c = true) : isBlank c = false ∧ c ≠ '/' := by
    refine ⟨isBlank_of_isWordChar letter, ?_⟩
    rintro rfl
    exact absurd letter (by decide)
  cases word with
  | word first letters free other =>
    exact fun c member => visible (List.all_eq_true.1 letters c member)
  | degree letters =>
    refine List.forall_mem_cons.2 ⟨⟨by decide +kernel, by decide⟩, ?_⟩
    exact fun c member => visible (List.all_eq_true.1 letters c member)

theorem isArgument_of_unitWord {name : String} (word : UnitWord name.toList) :
    IsArgument name where
  nonempty := by
    rintro rfl
    generalize same : "".toList = cs at word
    cases word <;> simp at same
  unbroken c member := (unbroken_of_unitWord word c member).1
  noComment := by
    intro comment
    exact (unbroken_of_unitWord word '/' (comment.subset List.mem_cons_self)).2 rfl

theorem kind_of_arguments (fuel position : Nat) (cs : List Char) :
    ∀ lexeme ∈ lexemesFuel fuel .arguments position cs, lexeme.token.kind = .commandArg := by
  induction fuel generalizing position cs with
  | zero => simp [lexemesFuel]
  | succ fuel ih =>
    unfold lexemesFuel
    dsimp only
    split
    · simp
    · simp
    · exact List.forall_mem_cons.2 ⟨rfl, ih _ _⟩

end Scan

namespace Grammar
open Parse

theorem parse_arguments (fuzzy : Bool) {name : String} (nonempty : name ≠ "")
    {arguments : List Token} (kinds : ∀ t ∈ arguments, t.kind = .commandArg) :
    parse fuzzy (⟨.command, name, 0⟩ :: arguments) =
      .ok (.command (lowerAscii name) (arguments.map (·.text))) := by
  have readable : (Token.mk .command name 0 :: arguments).find? (·.kind = .error) = none := by
    refine List.find?_eq_none.2 (List.forall_mem_cons.2 ⟨by simp, fun t member => ?_⟩)
    simp [kinds t member]
  have all : arguments.takeWhile (·.kind = .commandArg) = arguments :=
    List.takeWhile_eq_self_iff.2 (by simpa using kinds)
  refine parse_eq_ok.2 ⟨readable, .inr (.inl ⟨rfl, ?_⟩)⟩
  rw [command, List.tail_cons, all]
  exact if_neg nonempty

end Grammar

namespace Command

theorem readUnit_eq_ok {arguments : List String} {c : Command}
    (read : readUnit arguments = .ok c) :
    ∃ name scale text base, arguments = [name, text, base] ∧ c = .defineUnit name scale base := by
  unfold readUnit at read
  split at read
  · rename_i name text base
    cases spelled : float? text with
    | none =>
      rw [spelled] at read
      cases read
    | some scale =>
      rw [spelled] at read
      exact ⟨name, scale, text, base, rfl, (Except.ok.inj read).symm⟩
  · cases read

end Command

namespace Sheet

theorem define_of_silent {s later : Sheet} {name : String} {more : List String}
    (accepted : s.command "unit" (name :: more) = (.silent, later)) : ∃ scale base units,
      s.units.define name scale base = .ok units ∧ later = { s with units := units } := by
  have unit : Command.read "unit" (name :: more) = Command.readUnit (name :: more) := rfl
  cases read : Command.read "unit" (name :: more) with
  | error error =>
    simp [command, read, Except.bind] at accepted
  | ok c =>
    obtain ⟨name', scale, text, base, same, rfl⟩ := Command.readUnit_eq_ok (unit ▸ read)
    obtain ⟨rfl, _⟩ := List.cons.inj same
    rw [command_define read] at accepted
    cases defined : s.units.define name scale base with
    | error fault => simp [defined] at accepted
    | ok units =>
      rw [defined] at accepted
      exact ⟨scale, base, units, defined, (Prod.mk.inj accepted).2.symm⟩

theorem units_of_enter {s later : Sheet} {name : String} (word : Scan.UnitWord name.toList)
    {tail : String} (accepted : s.enter (":unit " ++ name ++ " " ++ tail) = (.silent, later)) :
    ∃ scale base units, s.units.define name scale base = .ok units ∧
      later = { s with units := units } := by
  have letters : "unit".toList.all Scan.isWordChar = true := by decide
  have blank : isBlank ' ' = true := by decide
  have characters : ":unit " ++ name ++ " " ++ tail = String.ofList
      (':' :: ("unit".toList ++ ' ' :: (name.toList ++ ' ' :: tail.toList))) := by
    rw [← String.toList_inj]
    simp
  have tokens := Scan.tokenize_arguments (List.all_eq_true.1 letters)
    (Scan.isArgument_of_unitWord word) (' ' :: tail.toList) blank
  have kinds := Scan.kind_of_arguments ("unit".length + name.length + (' ' :: tail.toList).length)
    ("unit".length + 2 + name.length) (' ' :: tail.toList)
  rw [characters] at accepted
  unfold enter at accepted
  rw [parseLine, tokens, Grammar.parse_arguments _ (by decide)] at accepted
  · exact define_of_silent accepted
  · refine List.forall_mem_cons.2 ⟨rfl, ?_⟩
    simpa using kinds

theorem canonicalName_of_defined {u units : UnitSystem Float} (named : u.Named) {name base : String}
    {scale : Float} (word : Scan.UnitWord name.toList)
    (defined : u.define name scale base = .ok units) : units.canonicalName name = .ok name := by
  have unbroken := Scan.unbroken_of_unitWord word
  have whole : isRatioName name = false := by
    rw [Bool.eq_false_iff]
    intro written
    exact (unbroken '/' (by simpa [isRatioName, mentions] using written)).2 rfl
  obtain ⟨_, _, _, source, found, _, _⟩ := UnitSystem.define_cases defined
  have resolved := UnitSystem.resolve_added named defined found
  rw [trim_of_unbroken fun c member => (unbroken c member).1] at resolved
  exact (UnitSystem.canonicalName_whole whole).2 ⟨_, resolved, rfl⟩

theorem runFrom_unit {s : Surroundings Float} {name called : String}
    (known : s.tables.units.canonicalName name = .ok called) (a : Float) (levels : Nat)
    (p : Progress Float) : Evaluation.runFrom (s.withLevels (levels + 1) (.unit a name)) p =
      (.ok (.unit a called), p) := by
  rw [Surroundings.withLevels, Surroundings.node, Surroundings.runFrom_unitLiteral,
    if_pos (UnitSystem.isUnit_of_canonicalName known), known]
  rfl

theorem runFrom_unary {s : Surroundings Float} {e : Expr Float} {value : Value Float} {levels : Nat}
    {p q : Progress Float}
    (ran : Evaluation.runFrom (s.withLevels levels e) p = (.ok value, q)) (op : UnaryOp) :
    Evaluation.runFrom (s.withLevels (levels + 1) (.unary op e)) p = (value.unary op, q) := by
  rw [Surroundings.withLevels, Surroundings.node, Evaluation.runFrom_bind, ran]
  exact Evaluation.runFrom_ofAnswer _ _

theorem enter_success {s : Sheet} {input : String} {e : Expr Float} {value : Value Float}
    (parsed : parseLine s.settings.fuzzy input = .ok e) (kept : isKept e = true)
    (shown : e.isQuietAssignment = false)
    (ran : (s.surroundings.run s.bindings e).1 = .ok value) :
    (s.enter input).1 = .success value := by
  rw [enter_of_kept parsed kept]
  simp [record, outcome, ran, shown]

/-- An amount of a unit that is known. -/
theorem enter_amount {s : Sheet} {name : List Char} (word : Scan.UnitWord name) {called : String}
    (known : s.units.canonicalName (String.ofList name) = .ok called) {number : List Char}
    (written : IsNumber number) : ∃ a, float? (String.ofList number) = some a ∧
      (s.enter (String.ofList (number ++ ' ' :: name))).1 = .success (.unit a called) := by
  have ran (a : Float) (levels : Nat) :=
    runFrom_unit (s := s.surroundings) known a levels (.start s.bindings)
  cases written with
  | unsigned decimal =>
    obtain ⟨a, spelled, _, _⟩ := float?_of_decimal decimal
    refine ⟨a, spelled, ?_⟩
    exact enter_success (parseLine_amount _ decimal spelled word) rfl rfl
      (congrArg Prod.fst (ran a 199))
  | plus decimal =>
    obtain ⟨a, spelled, plus, _⟩ := float?_of_decimal decimal
    refine ⟨a, plus, ?_⟩
    have sign : ('+', .plus, .plus) ∈ Scan.signs := by decide
    exact enter_success (parseLine_signed _ sign decimal spelled word) rfl rfl
      (congrArg Prod.fst (runFrom_unary (ran a 198) .plus))
  | minus decimal =>
    obtain ⟨a, spelled, _, minus⟩ := float?_of_decimal decimal
    refine ⟨-a, minus, ?_⟩
    have sign : ('-', .minus, .negate) ∈ Scan.signs := by decide
    exact enter_success (parseLine_signed _ sign decimal spelled word) rfl rfl
      (congrArg Prod.fst (runFrom_unary (ran a 198) .negate))

/-- What has been added can be used. If a line adds a unit under a name that is read as a unit
    behind a number, then any decimal number with that name after it, separated by a blank, is an
    amount of the new unit. -/
theorem enter_added_unit {s later : Sheet} (reached : s.Reached) {name scale base : String}
    (word : Scan.UnitWord name.toList)
    (accepted : s.enter (":unit " ++ name ++ " " ++ scale ++ " " ++ base) = (.silent, later))
    {number : String} (written : IsNumber number.toList) : ∃ a, float? number = some a ∧
      (later.enter (number ++ " " ++ name)).1 = .success (.unit a name) := by
  have line : ":unit " ++ name ++ " " ++ scale ++ " " ++ base =
      ":unit " ++ name ++ " " ++ (scale ++ " " ++ base) := by
    simp [String.append_assoc]
  rw [line] at accepted
  obtain ⟨factor, source, units, defined, rfl⟩ := units_of_enter word accepted
  have known : units.canonicalName (String.ofList name.toList) = .ok name := by
    rw [String.ofList_toList]
    exact canonicalName_of_defined (tagged_of_reached reached).named word defined
  obtain ⟨a, spelled, entered⟩ := enter_amount (s := { s with units := units }) word known written
  have amount : number ++ " " ++ name = String.ofList (number.toList ++ ' ' :: name.toList) := by
    rw [← String.toList_inj]
    simp
  rw [String.ofList_toList] at spelled
  exact ⟨a, spelled, amount ▸ entered⟩

theorem enter_added_lap :
    fresh.Reached ∧ Scan.UnitWord "lap".toList ∧ IsNumber "-2.5e1".toList ∧ ∃ later,
      fresh.enter ":unit lap 400 m" = (.silent, later) ∧ ∃ a, float? "-2.5e1" = some a ∧
        (later.enter "-2.5e1 lap").1 = .success (.unit a "lap") := by
  have reached : fresh.Reached := .new _ _ _
  have word : Scan.UnitWord "lap".toList :=
    @Scan.UnitWord.word 'l' ['a', 'p'] (.inl (by decide)) (by decide) (by decide) (by decide)
  have digit {c : Char} (numeric : isDigit c = true) : ∀ d ∈ [c], isDigit d = true :=
    List.forall_mem_singleton.2 numeric
  have fraction : IsFraction ['.', '5'] := .some (by decide) (digit (by decide))
  have power : IsPower ['e', '1'] :=
    @IsPower.some 'e' [] ['1'] (by decide) (by decide) (by decide) (digit (by decide))
  have number : IsNumber "-2.5e1".toList :=
    .minus (@IsDecimal.intro ['2'] _ _ (digit (by decide)) fraction power (by decide))
  have silent : (fresh.enter ":unit lap 400 m").1 = .silent := by decide +kernel
  obtain ⟨later, accepted⟩ : ∃ later, fresh.enter ":unit lap 400 m" = (.silent, later) := by
    generalize fresh.enter ":unit lap 400 m" = reply at silent ⊢
    obtain ⟨outcome, later⟩ := reply
    obtain rfl : outcome = .silent := silent
    exact ⟨later, rfl⟩
  exact ⟨reached, word, number, later, accepted,
    @enter_added_unit fresh later reached "lap" "400" "m" word accepted "-2.5e1" number⟩

/-- A unit whose name is the word for conversions is accepted, but no amount of it is. -/
theorem enter_added_keyword :
    fresh.Reached ∧ (fresh.enter ":unit in 0.0254 m").1 = .silent ∧
      ((fresh.enter ":unit in 0.0254 m").2.enter "5 in").1 =
        .failure (.parse ⟨.expected .conversionTarget none, 4⟩) := by
  refine ⟨.new _ _ _, ?_⟩
  decide +kernel

end Sheet

end NotepadCalculator
