import NotepadCalculator.Proofs.DecimalNumbers
import NotepadCalculator.Proofs.WholeDoubles
import NotepadCalculator.Value.Basic

/-!
Signs of amounts as they are shown. The digits are those of the magnitude, and what stands around
them depends on the tag alone. A sign is left out in front of nothing but zeros, unless a currency
symbol stands between them.
-/
namespace NotepadCalculator
open Money Number

def Tag.symbol? : Tag → Option String
  | .currency code => symbolOf? code
  | _ => none

def Tag.suffix : Tag → String
  | .number => ""
  | .percent => "%"
  | .unit name => unitSpace name ++ name
  | .currency code => if (symbolOf? code).isSome then "" else " " ++ code

def ShowsDigit (digits : String) : Prop := ∃ c ∈ digits.toList, c ≠ '0' ∧ c ≠ '.'

instance (digits : String) : Decidable (ShowsDigit digits) :=
  decidable_of_iff ((digits.toList.any fun c => c ≠ '0' && c ≠ '.') = true) (by simp [ShowsDigit])

namespace Number
open Text Float.Model UnpackedFloat

theorem unpack_amount_zero : (Amount.zero : Float).toModel.unpack = .zero .positive := by
  have same : (Amount.zero : Float) = 0 := by decide +kernel
  rw [same, unpack_zero]

theorem exists_ofFloat {a : Float} (finite : a.isFinite = true) :
    ∃ negative m e, Exact.ofFloat a = .finite negative m e ∧
      Exact.ofFloat (-a) = .finite (!negative) m e ∧
      Exact.ofFloat (Amount.magnitude a) = .finite false m e ∧
      Amount.isNegative a = (negative && m ≠ 0) := by
  have compared : Amount.isNegative a = UnpackedFloat.lt a.toModel.unpack (.zero .positive) := by
    rw [← unpack_amount_zero]
    exact Bool.eq_iff_iff.2 (decide_eq_true_iff.trans decide_eq_true_iff)
  have magnitude : Amount.magnitude a = a.abs := rfl
  rw [compared, magnitude]
  unfold Exact.ofFloat
  rw [unpack_neg, unpack_abs]
  rcases unpack_of_finite finite with ⟨sign, unpacked⟩ | ⟨sign, m, e, positive, unpacked⟩
  · rw [unpacked]
    refine ⟨isMinus sign, 0, 0, rfl, ?_, rfl, ?_⟩
    · cases sign <;> rfl
    · simp [UnpackedFloat.lt, UnpackedFloat.compare]
  · rw [unpacked]
    refine ⟨isMinus sign, m, e, rfl, ?_, rfl, ?_⟩
    · cases sign <;> rfl
    · cases sign <;> simp [UnpackedFloat.lt, UnpackedFloat.compare, isMinus, positive.ne']

/-- The digits that a mantissa and its power of two are shown with. -/
def magnitudeText (places m : ℕ) (e : ℤ) : String :=
  String.ofList (withPoint places (scaledDigits places m e))

theorem mem_magnitudeText {places m : ℕ} {e : ℤ} {c : Char}
    (member : c ∈ (magnitudeText places m e).toList) : isDigit c = true ∨ c = '.' := by
  rw [magnitudeText, String.toList_ofList] at member
  exact (mem_withPoint member).symm.imp_left isDigit_of_mem_padded

theorem scaledDigits_zero (places : ℕ) (e : ℤ) : scaledDigits places 0 e = 0 := by
  have unit := twoTo_pos (-e).toNat
  unfold scaledDigits roundHalfEven
  split
  · simp
  · simp [unit.ne, unit.ne']

theorem not_showsDigit_zero (places : ℕ) (e : ℤ) : ¬ ShowsDigit (magnitudeText places 0 e) := by
  rintro ⟨c, member, noZero, noPoint⟩
  rw [magnitudeText, scaledDigits_zero, String.toList_ofList] at member
  rcases mem_withPoint member with point | digit
  · exact noPoint point
  · rcases List.mem_append.1 digit with zero | last
    · exact noZero (List.mem_replicate.1 zero).2
    · exact noZero (List.mem_singleton.1 last)

theorem shownAmount_eq (places : ℕ) {a : Float} {negative : Bool} {m : ℕ} {e : ℤ}
    (read : Exact.ofFloat a = .finite negative m e) :
    shownAmount places a =
      (if negative = true ∧ ShowsDigit (magnitudeText places m e) then "-" else "") ++
        magnitudeText places m e := by
  have chars := @mem_magnitudeText places m e
  have fixed : Amount.fixed places a =
      withSign negative (withPoint places (scaledDigits places m e)) := by
    show (Exact.ofFloat a).fixed places = _
    rw [read, Exact.fixed]
  rw [shownAmount, fixed, ← String.toList_inj]
  simp only [magnitudeText, String.toList_ofList, withSign, ShowsDigit] at chars ⊢
  generalize withPoint places (scaledDigits places m e) = cs at chars ⊢
  cases negative with
  | false =>
    have unsigned : dropZeroSign cs = cs := by
      unfold dropZeroSign
      split
      · exact absurd (chars List.mem_cons_self) (by decide)
      · rfl
    simp [unsigned]
  | true =>
    have dropped : (cs.all fun c => c = '0' || c = '.') = true ↔
        ¬ ∃ c ∈ cs, c ≠ '0' ∧ c ≠ '.' := by
      simp [or_iff_not_imp_left]
    simp only [if_true, dropZeroSign, dropped, true_and]
    by_cases digit : ∃ c ∈ cs, c ≠ '0' ∧ c ≠ '.'
    · simp only [digit, not_true, if_false, if_true, String.toList_append, String.toList_ofList]
      rfl
    · simp only [digit, not_false_eq_true, if_true, if_false, String.toList_append,
        String.toList_ofList]
      rfl

theorem shownAmount_finite (places : ℕ) {a : Float} (finite : a.isFinite = true) :
    ∃ digits, Amount.fixed places (Amount.magnitude a) = digits ∧
      (∀ c ∈ digits.toList, isDigit c = true ∨ c = '.') ∧
      shownAmount places a =
        (if Amount.isNegative a = true ∧ ShowsDigit digits then "-" else "") ++ digits ∧
      (Amount.isNegative a = true → shownAmount places (-a) = digits) := by
  obtain ⟨negative, m, e, itself, opposite, magnitude, below⟩ := exists_ofFloat finite
  have signed : negative = true ∧ ShowsDigit (magnitudeText places m e) ↔
      Amount.isNegative a = true ∧ ShowsDigit (magnitudeText places m e) := by
    rw [below, Bool.and_eq_true, decide_eq_true_iff]
    constructor
    · rintro ⟨minus, digit⟩
      refine ⟨⟨minus, ?_⟩, digit⟩
      rintro rfl
      exact not_showsDigit_zero places e digit
    · rintro ⟨⟨minus, -⟩, digit⟩
      exact ⟨minus, digit⟩
  refine ⟨magnitudeText places m e, ?_, fun c => mem_magnitudeText, ?_, ?_⟩
  · show (Exact.ofFloat (Amount.magnitude a)).fixed places = _
    rw [magnitude, Exact.fixed]
    rfl
  · simp only [shownAmount_eq places itself, signed]
  · intro minus
    rw [below, Bool.and_eq_true] at minus
    simp [shownAmount_eq places opposite, minus.1]

end Number

/-- The text of a finite amount begins with a sign only if the amount is below zero, and, unless it
    has a currency symbol, only if a digit other than zero is shown. Around the digits of the
    magnitude stands what the tag adds. -/
theorem show_scalar (places : ℕ) (tag : Tag) {a : Float} (finite : a.isFinite = true) :
    ∃ digits, Amount.fixed places (Amount.magnitude a) = digits ∧
      (∀ c ∈ digits.toList, Text.isDigit c = true ∨ c = '.') ∧
      (Value.scalar tag a).show places =
        (if Amount.isNegative a = true ∧ (tag.symbol?.isSome = true ∨ ShowsDigit digits)
          then "-" else "") ++ tag.symbol?.getD "" ++ digits ++ tag.suffix := by
  obtain ⟨digits, written, chars, shown, opposite⟩ := shownAmount_finite places finite
  refine ⟨digits, written, chars, ?_⟩
  show tag.show places a = _
  cases tag with
  | number => simp [Tag.show, Tag.symbol?, Tag.suffix, shown]
  | percent => simp [Tag.show, Tag.symbol?, Tag.suffix, shown]
  | unit name => simp [Tag.show, Tag.symbol?, Tag.suffix, shown, String.append_assoc]
  | currency code =>
    cases symbol : symbolOf? code with
    | none => simp [Tag.show, Tag.symbol?, Tag.suffix, shown, symbol, String.append_assoc]
    | some mark =>
      -- The sign stands in front of the symbol, and what follows has none of its own.
      cases minus : Amount.isNegative a with
      | false =>
        rw [minus] at shown
        simp [Tag.show, Tag.symbol?, Tag.suffix, symbol, minus, shown]
      | true => simp [Tag.show, Tag.symbol?, Tag.suffix, symbol, minus, opposite minus]

/-- An amount that is shown as zero keeps its sign in front of a currency symbol. -/
theorem show_negative_zero :
    Float.isFinite (-0.001) = true ∧
      Amount.fixed 2 (Amount.magnitude (-0.001 : Float)) = "0.00" ∧ ¬ ShowsDigit "0.00" ∧
      (Value.currency (-0.001 : Float) "USD").show 2 = "-$0.00" ∧
      (Value.number (-0.001 : Float)).show 2 = "0.00" := by
  decide +kernel

theorem show_scalar_owed :
    Float.isFinite (-5) = true ∧ Float.isFinite (-0.04) = true ∧
      (Value.currency (-5 : Float) "EUR").show 1 = "-€5.0" ∧
      (Value.currency (-0.04 : Float) "EUR").show 1 = "-€0.0" := by
  obtain ⟨first, second⟩ : Float.isFinite (-5) = true ∧ Float.isFinite (-0.04) = true := by
    decide +kernel
  obtain ⟨_, rfl, -, shown⟩ := show_scalar 1 (.currency "EUR") first
  obtain ⟨_, rfl, -, shown'⟩ := show_scalar 1 (.currency "EUR") second
  refine ⟨first, second, shown.trans ?_, shown'.trans ?_⟩
  · decide +kernel
  · decide +kernel

end NotepadCalculator
