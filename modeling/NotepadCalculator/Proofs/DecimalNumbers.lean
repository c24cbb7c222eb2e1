import NotepadCalculator.Proofs.ParsedTrees

/-!
Decimal numbers as they are written: digits, a point, a power of ten and a sign. Each of them is
scanned as a whole in front of a blank, and spells a number.
-/
namespace NotepadCalculator

/-! White space. -/

namespace Text

theorem holds_of_above {bounds : Boundaries} {c : Char} (above : ∀ b ∈ bounds, c.toNat < b) :
    bounds.holds c = false := by
  have unreached : bounds.takeWhile (· ≤ c.toNat) = [] := by
    cases bounds with
    | nil => rfl
    | cons b rest =>
      have beyond := above b List.mem_cons_self
      rw [List.takeWhile_cons_of_neg (by simpa using beyond)]
  rw [Boundaries.holds, unreached]
  rfl

theorem holds_cons_cons {low high : Nat} {rest : Boundaries} (sorted : low ≤ high)
    (above : ∀ b ∈ rest, high ≤ b) (c : Char) :
    Boundaries.holds (low :: high :: rest) c =
      (decide (low ≤ c.toNat ∧ c.toNat < high) || Boundaries.holds rest c) := by
  by_cases most : c.toNat < high
  · have outside : Boundaries.holds rest c = false :=
      holds_of_above fun b member => Nat.lt_of_lt_of_le most (above b member)
    rw [outside]
    by_cases least : low ≤ c.toNat
    · simp [Boundaries.holds, least, most]
    · simp [Boundaries.holds, least]
  · have inside : low ≤ c.toNat := by omega
    have later : high ≤ c.toNat := by omega
    rw [Bool.eq_iff_iff]
    simp only [Boundaries.holds, List.takeWhile_cons, inside, later, decide_true, if_true,
      List.length_cons, most, and_false, decide_false, Bool.false_or, decide_eq_true_eq]
    omega

def blankCodes : List Nat :=
  [9, 10, 11, 12, 13, 32, 133, 160, 5760, 8192, 8193, 8194, 8195, 8196, 8197, 8198, 8199, 8200,
    8201, 8202, 8232, 8233, 8239, 8287, 12288]

theorem mem_blankCodes {c : Char} (blank : isBlank c = true) : c.toNat ∈ blankCodes := by
  have nothing : Boundaries.holds [] c = false := rfl
  simp only [isBlank, blanks] at blank
  repeat rw [holds_cons_cons (by decide) (by decide)] at blank
  simp only [nothing, Bool.or_false, Bool.or_eq_true, decide_eq_true_eq] at blank
  simp only [blankCodes, List.mem_cons, List.not_mem_nil, or_false]
  omega

theorem isWordChar_of_isDigit {c : Char} (digit : isDigit c = true) :
    Scan.isWordChar c = true := by
  have between := isDigit_iff.1 digit
  have small : c.toNat < 128 := by omega
  simp [Scan.isWordChar, isNumeral, small, digit]

theorem isDigit_of_isLetter {c : Char} (letter : isLetter c = true) : isDigit c = false := by
  rw [Bool.eq_false_iff]
  intro digit
  have between := isDigit_iff.1 digit
  have small : c.toNat < 128 := by omega
  have above : 97 ≤ c.toNat ∧ c.toNat ≤ 122 ∨ 65 ≤ c.toNat ∧ c.toNat ≤ 90 := by
    simpa [isLetter, small, isAsciiLetter, Char.le_def, UInt32.le_iff_toNat_le] using letter
  omega

theorem isBlank_of_isWordChar {c : Char} (letter : Scan.isWordChar c = true) :
    isBlank c = false := by
  have each : ∀ code ∈ blankCodes, Scan.isWordChar (Char.ofNat code) = false := by decide +kernel
  rw [Bool.eq_false_iff]
  intro blank
  have apart := each c.toNat (mem_blankCodes blank)
  rw [Char.ofNat_toNat, letter] at apart
  cases apart

end Text

/-! Decimal numbers. -/

namespace Number
open Scan Text

inductive IsFraction : List Char → Prop where
  | none : IsFraction []
  | some {digits : List Char} (nonempty : digits ≠ []) (numeric : ∀ c ∈ digits, isDigit c = true) :
      IsFraction ('.' :: digits)

inductive IsPower : List Char → Prop where
  | none : IsPower []
  | some {mark : Char} {sign digits : List Char} (letter : mark ∈ ['e', 'E'])
      (signed : sign ∈ [[], ['+'], ['-']]) (nonempty : digits ≠ [])
      (numeric : ∀ c ∈ digits, isDigit c = true) : IsPower (mark :: (sign ++ digits))

/-- Digits before or behind a point, or both, and a power of ten. -/
inductive IsDecimal : List Char → Prop where
  | intro {whole places power : List Char} (numeric : ∀ c ∈ whole, isDigit c = true)
      (fraction : IsFraction places) (scaled : IsPower power) (nonempty : whole ++ places ≠ []) :
      IsDecimal (whole ++ (places ++ power))

inductive IsNumber : List Char → Prop where
  | unsigned {cs : List Char} (decimal : IsDecimal cs) : IsNumber cs
  | plus {cs : List Char} (decimal : IsDecimal cs) : IsNumber ('+' :: cs)
  | minus {cs : List Char} (decimal : IsDecimal cs) : IsNumber ('-' :: cs)

theorem dropWhile_left {p : Char → Bool} {cs rest : List Char} (inside : ∀ c ∈ cs, p c = true)
    (ends : rest.head?.any p = false) : (cs ++ rest).dropWhile p = rest := by
  have parts := List.takeWhile_append_dropWhile (p := p) (l := cs ++ rest)
  rw [takeWhile_left inside ends] at parts
  exact List.append_cancel_left parts

theorem startsDigit_of_digits {digits : List Char} (nonempty : digits ≠ [])
    (numeric : ∀ c ∈ digits, isDigit c = true) (rest : List Char) :
    startsDigit (digits ++ rest) = true := by
  cases digits with
  | nil => contradiction
  | cons c digits => simpa [startsDigit] using numeric c List.mem_cons_self

theorem beginsNumber_of_digits {digits : List Char} (nonempty : digits ≠ [])
    (numeric : ∀ c ∈ digits, isDigit c = true) : BeginsNumber digits := by
  cases digits with
  | nil => contradiction
  | cons c digits => exact .inl (numeric c List.mem_cons_self)

theorem startsDigit_power {power rest : List Char} (scaled : IsPower power)
    (ends : startsDigit rest = false) : startsDigit (power ++ rest) = false := by
  cases scaled with
  | none => exact ends
  | some letter _ _ _ =>
    simp only [List.mem_cons, List.not_mem_nil, or_false] at letter
    rcases letter with rfl | rfl <;> rfl

theorem startsDigit_fraction {places rest : List Char} (fraction : IsFraction places)
    (ends : startsDigit rest = false) : startsDigit (places ++ rest) = false := by
  cases fraction with
  | none => exact ends
  | some _ _ => rfl

theorem fraction_written {places power rest : List Char} (written : IsFraction places)
    (scaled : IsPower power) :
    fraction (places ++ (power ++ ' ' :: rest)) = places := by
  cases written with
  | none =>
    cases scaled with
    | none => rfl
    | some letter _ _ _ =>
      simp only [List.mem_cons, List.not_mem_nil, or_false] at letter
      rcases letter with rfl | rfl <;> rfl
  | some nonempty numeric =>
    have ends : startsDigit (power ++ ' ' :: rest) = false := startsDigit_power scaled rfl
    have digits := takeWhile_left numeric ends
    simp [fraction, startsDigit_of_digits nonempty numeric, digits]

theorem exponent_written {power rest : List Char} (scaled : IsPower power) :
    exponent (power ++ ' ' :: rest) = power := by
  cases scaled with
  | none => simp [exponent]
  | @some mark sign digits letter signed nonempty numeric =>
    have starts := startsDigit_of_digits nonempty numeric (' ' :: rest)
    have taken : (digits ++ ' ' :: rest).takeWhile isDigit = digits :=
      takeWhile_left numeric rfl
    have marked : (decide (mark = 'e') || decide (mark = 'E')) = true := by
      simpa using letter
    simp only [List.mem_cons, List.not_mem_nil, or_false] at signed
    rcases signed with rfl | rfl | rfl
    · cases digits with
      | nil => contradiction
      | cons d digits =>
        have numeric := numeric d List.mem_cons_self
        have plus : d ≠ '+' := by rintro rfl; contradiction
        have minus : d ≠ '-' := by rintro rfl; contradiction
        simp_all [exponent]
    · simp [exponent, marked, starts, taken]
    · simp [exponent, marked, starts, taken]

theorem numberText_written {cs rest : List Char} (decimal : IsDecimal cs) :
    numberText (cs ++ ' ' :: rest) = cs := by
  cases decimal with
  | @intro whole places power numeric written scaled nonempty =>
    have ends : startsDigit (places ++ (power ++ ' ' :: rest)) = false :=
      startsDigit_fraction written (startsDigit_power scaled rfl)
    have digits := takeWhile_left numeric ends
    simp only [List.append_assoc, numberText, digits, List.drop_left,
      fraction_written written scaled]
    rw [← List.drop_drop, List.drop_left, List.drop_left, exponent_written scaled]

/-! What it spells. -/

theorem tenPower?_written {power : List Char} (scaled : IsPower power) :
    ∃ e, tenPower? power = some e := by
  cases scaled with
  | none => exact ⟨0, rfl⟩
  | @some mark sign digits letter signed nonempty numeric =>
    have marked : mark = 'e' ∨ mark = 'E' := by simpa using letter
    have all : digits.all isDigit = true := List.all_eq_true.2 numeric
    simp only [List.mem_cons, List.not_mem_nil, or_false] at signed
    rcases signed with rfl | rfl | rfl
    · simp [tenPower?, splitSign_of_beginsNumber (beginsNumber_of_digits nonempty numeric), marked,
        nonempty, all]
    · simp [tenPower?, splitSign, marked, nonempty, all]
    · simp [tenPower?, splitSign, marked, nonempty, all]

theorem ofDigits?_written {cs : List Char} (decimal : IsDecimal cs) :
    ∃ m e, ∀ negative, Numeral.ofDigits? negative cs = some (.decimal negative m e) := by
  cases decimal with
  | @intro whole places power numeric fraction scaled nonempty =>
    obtain ⟨e, spelled⟩ := tenPower?_written scaled
    have unscaled : startsDigit (power ++ []) = false := startsDigit_power scaled rfl
    rw [List.append_nil] at unscaled
    have ends := startsDigit_fraction fraction unscaled
    have digits := takeWhile_left numeric ends
    have after := dropWhile_left numeric ends
    refine ⟨digitsValue (whole ++ places.tail), e - places.tail.length, fun negative => ?_⟩
    unfold Numeral.ofDigits?
    dsimp only
    rw [digits, after]
    cases fraction with
    | none =>
      have filled : whole ≠ [] := by simpa using nonempty
      cases scaled with
      | none => simp [filled, spelled]
      | some letter _ _ _ =>
        simp only [List.mem_cons, List.not_mem_nil, or_false] at letter
        rcases letter with rfl | rfl <;> simp [filled, spelled]
    | some nonempty' numeric' =>
      simp [takeWhile_left numeric' unscaled, dropWhile_left numeric' unscaled, nonempty', spelled]

theorem starts_of_decimal {c : Char} {cs : List Char} (decimal : IsDecimal (c :: cs))
    (rest : List Char) : (isDigit c || (c = '.' && startsDigit (cs ++ rest))) = true := by
  generalize same : c :: cs = all at decimal
  cases decimal with
  | @intro whole places power numeric fraction scaled nonempty =>
    cases whole with
    | cons d whole =>
      obtain rfl := (List.cons.inj same).1
      rw [numeric c List.mem_cons_self, Bool.true_or]
    | nil =>
      cases fraction with
      | none => exact absurd rfl nonempty
      | some nonempty' numeric' =>
        obtain ⟨rfl, rfl⟩ := List.cons.inj same
        simp [startsDigit_of_digits nonempty' numeric']

theorem beginsNumber_of_decimal {cs : List Char} (decimal : IsDecimal cs) : BeginsNumber cs := by
  cases cs with
  | nil =>
    generalize same : [] = all at decimal
    cases decimal with
    | intro _ _ _ nonempty => simp_all
  | cons c cs =>
    have starts := starts_of_decimal decimal []
    simp only [Bool.or_eq_true, Bool.and_eq_true, decide_eq_true_eq] at starts
    exact starts.imp_right (·.1)

/-- A number spells the same with a plus sign, and the opposite with a minus sign. -/
theorem float?_of_decimal {cs : List Char} (decimal : IsDecimal cs) :
    ∃ a, float? (String.ofList cs) = some a ∧ float? (String.ofList ('+' :: cs)) = some a ∧
      float? (String.ofList ('-' :: cs)) = some (-a) := by
  obtain ⟨m, e, spelled⟩ := ofDigits?_written decimal
  have begins := beginsNumber_of_decimal decimal
  refine ⟨Numeral.toFloat (.decimal false m e), ?_, ?_, ?_⟩
  · rw [float?, String.toList_ofList, read?_of_splitSign (splitSign_of_beginsNumber begins) begins,
      spelled]
    rfl
  · have sign : splitSign ('+' :: cs) = (false, cs) := rfl
    rw [float?, String.toList_ofList, read?_of_splitSign sign begins, spelled]
    rfl
  · have sign : splitSign ('-' :: cs) = (true, cs) := rfl
    rw [float?, String.toList_ofList, read?_of_splitSign sign begins, spelled]
    rfl

/-! Digits that are written out. -/

theorem isDigit_of_mem_padded {width n : Nat} {c : Char} (member : c ∈ padded width (digits n)) :
    isDigit c = true := by
  rcases List.mem_append.1 member with zero | digit
  · rw [(List.mem_replicate.1 zero).2]
    decide
  · have digit := Nat.isDigit_of_mem_toDigits (by decide) (by decide) digit
    simpa [isDigit, Char.isDigit, Char.le_def] using digit

theorem mem_withPoint {places n : Nat} {c : Char} (member : c ∈ withPoint places n) :
    c = '.' ∨ c ∈ padded (places + 1) (digits n) := by
  unfold withPoint at member
  split at member
  · exact .inr (List.mem_of_mem_take member)
  · rcases List.mem_append.1 member with whole | rest
    · exact .inr (List.mem_of_mem_take whole)
    · rcases List.mem_cons.1 rest with point | place
      · exact .inl point
      · exact .inr (List.mem_of_mem_drop place)

end Number

end NotepadCalculator
