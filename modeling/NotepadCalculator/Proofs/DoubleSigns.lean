import Mathlib
import NotepadCalculator.Number.Amount

/-!
Signs of doubles. A double that digits spell is never below zero, and neither is the product of one
that is not below zero with one that is finite and above it.
-/
namespace NotepadCalculator.Number
open Float.Model UnpackedFloat

/-- A number, perhaps an infinite one, that is not below zero. -/
def NonNegative (x : Float) : Prop := x.isNaN = false ∧ 0 ≤ x

def Usable (x : Float) : Prop := x.isFinite = true ∧ 0 < x

instance (x : Float) : Decidable (NonNegative x) := inferInstanceAs (Decidable (_ ∧ _))
instance (x : Float) : Decidable (Usable x) := inferInstanceAs (Decidable (_ ∧ _))

/-! Both read off the sign and the kind of an unpacked number. -/

def NonNegativeForm : UnpackedFloat → Prop
  | .notANumber => False
  | .zero _ => True
  | .infinity sign => sign = .positive
  | .finite sign _ _ _ => sign = .positive

def UsableForm : UnpackedFloat → Prop
  | .finite sign _ _ _ => sign = .positive
  | _ => False

theorem unpack_zero : (0 : Float).toModel.unpack = .zero .positive := by
  have packed : (0 : Float) = .ofModel (.pack (.zero .positive)) := by decide +kernel
  rw [packed]
  rfl

theorem nonNegative_iff {x : Float} : NonNegative x ↔ NonNegativeForm x.toModel.unpack := by
  have compared : 0 ≤ x ↔ UnpackedFloat.le (.zero .positive) x.toModel.unpack = true := by
    rw [← unpack_zero]
    exact decide_eq_true_iff
  rw [NonNegative, compared]
  show x.toModel.unpack.isNaN = false ∧ _ ↔ _
  cases x.toModel.unpack with
  | notANumber => simp [NonNegativeForm, UnpackedFloat.isNaN]
  | zero sign =>
    simp [NonNegativeForm, UnpackedFloat.isNaN, UnpackedFloat.le, UnpackedFloat.compare]
  | infinity sign =>
    cases sign <;>
      simp [NonNegativeForm, UnpackedFloat.isNaN, UnpackedFloat.le, UnpackedFloat.compare]
  | finite sign m e positive =>
    cases sign <;>
      simp [NonNegativeForm, UnpackedFloat.isNaN, UnpackedFloat.le, UnpackedFloat.compare]

theorem usable_iff {x : Float} : Usable x ↔ UsableForm x.toModel.unpack := by
  have compared : 0 < x ↔ UnpackedFloat.lt (.zero .positive) x.toModel.unpack = true := by
    rw [← unpack_zero]
    exact decide_eq_true_iff
  rw [Usable, compared]
  show x.toModel.unpack.isFinite = true ∧ _ ↔ _
  cases x.toModel.unpack with
  | notANumber => simp [UsableForm, UnpackedFloat.isFinite]
  | zero sign =>
    simp [UsableForm, UnpackedFloat.isFinite, UnpackedFloat.lt, UnpackedFloat.compare]
  | infinity sign => simp [UsableForm, UnpackedFloat.isFinite]
  | finite sign m e positive =>
    cases sign <;>
      simp [UsableForm, UnpackedFloat.isFinite, UnpackedFloat.lt, UnpackedFloat.compare]

theorem unpack_of_usable {x : Float} (usable : Usable x) :
    ∃ m e positive, x.toModel.unpack = .finite .positive m e positive := by
  have form := usable_iff.1 usable
  cases unpacked : x.toModel.unpack with
  | finite sign m e positive =>
    rw [unpacked] at form
    obtain rfl : sign = .positive := form
    exact ⟨m, e, positive, rfl⟩
  | _ =>
    rw [unpacked] at form
    contradiction

theorem nonNegative_of_usable {x : Float} (usable : Usable x) : NonNegative x := by
  obtain ⟨m, e, positive, unpacked⟩ := unpack_of_usable usable
  rw [nonNegative_iff, unpacked]
  rfl

/-! Packing. -/

/-- The all-ones exponent is kept for infinities and for what is no number. -/
theorem ofNat_ne_ones {n : Nat} (small : n < 2047) : BitVec.ofNat 11 n ≠ -1#11 := by
  intro same
  have values := congrArg BitVec.toNat same
  have ones : (-1#11).toNat = 2047 := rfl
  rw [BitVec.toNat_ofNat] at values
  omega

theorem nonNegative_unpack {exponent : BitVec 11} (mantissa : BitVec 52)
    (number : exponent ≠ -1#11) :
    NonNegativeForm (UnpackedFloat.unpack .binary64
      (packComponents .binary64 .positive exponent mantissa)) := by
  simp only [UnpackedFloat.unpack, unpackMantissa_packComponents, unpackExponent_packComponents,
    unpackSign_packComponents, Sign.ofBitVec_toBitVec]
  rw [if_neg number]
  split
  · split
    · trivial
    · rfl
  · rfl

theorem nonNegative_pack {f : UnpackedFloat} (form : NonNegativeForm f) :
    NonNegativeForm (pack f).unpack := by
  cases f with
  | notANumber => contradiction
  | zero sign => cases sign <;> trivial
  | infinity sign =>
    obtain rfl : sign = .positive := form
    rfl
  | finite sign m e positive =>
    obtain rfl : sign = .positive := form
    have wide : (2 : Nat) ^ Format.binary64.exponentBits = 2048 := rfl
    show NonNegativeForm (UnpackedFloat.unpack .binary64 (UnpackedFloat.pack .binary64 _))
    simp only [UnpackedFloat.pack, wide]
    split
    · rfl
    · split
      · exact nonNegative_unpack _ (ofNat_ne_ones (by omega))
      · exact nonNegative_unpack _ (by decide)

theorem not_usableForm_zero (sign : Sign) : ¬ UsableForm (pack (.zero sign)).unpack := by
  cases sign <;> exact id

theorem not_usableForm_infinity (sign : Sign) : ¬ UsableForm (pack (.infinity sign)).unpack := by
  cases sign <;> exact id

/-! Rounding, products and quotients keep the sign. -/

theorem nonNegative_round (spec : Format) (m : Nat) (e : Int) (accuracy : Accuracy) :
    NonNegativeForm (roundWithAccuracy spec .positive m e accuracy) := by
  simp only [roundWithAccuracy]
  split
  · trivial
  · rfl

theorem nonNegative_mul_form (spec : Format) {f g : UnpackedFloat} (first : UsableForm f)
    (second : NonNegativeForm g) : NonNegativeForm (UnpackedFloat.mul spec f g) := by
  cases f with
  | finite sign m e positive =>
    obtain rfl : sign = .positive := first
    cases g with
    | notANumber => contradiction
    | zero sign => trivial
    | infinity sign =>
      obtain rfl : sign = .positive := second
      rfl
    | finite sign m e positive =>
      obtain rfl : sign = .positive := second
      exact nonNegative_round spec _ _ _
  | _ => contradiction

theorem mul_comm_form (spec : Format) (f g : UnpackedFloat) :
    UnpackedFloat.mul spec f g = UnpackedFloat.mul spec g f := by
  have signs : ∀ a b : Sign, a * b = b * a := by
    intro a b
    cases a <;> cases b <;> rfl
  cases f with
  | finite first m e positive =>
    cases g with
    | finite second n d positive =>
      simp only [UnpackedFloat.mul]
      rw [signs, Nat.mul_comm, Int.add_comm]
    | _ => simp only [UnpackedFloat.mul, signs]
  | _ => cases g <;> simp only [UnpackedFloat.mul, signs]

theorem nonNegative_div_form (spec : Format) {f g : UnpackedFloat} (first : NonNegativeForm f)
    (second : UsableForm g) : NonNegativeForm (UnpackedFloat.div spec f g) := by
  cases g with
  | finite sign m e positive =>
    obtain rfl : sign = .positive := second
    cases f with
    | notANumber => contradiction
    | zero sign => trivial
    | infinity sign =>
      obtain rfl : sign = .positive := first
      rfl
    | finite sign m e positive =>
      obtain rfl : sign = .positive := first
      exact nonNegative_round spec _ _ _
  | _ => contradiction

theorem nonNegative_mul {x y : Float} (first : Usable x) (second : NonNegative y) :
    NonNegative (x * y) :=
  nonNegative_iff.2 (nonNegative_pack
    (nonNegative_mul_form _ (usable_iff.1 first) (nonNegative_iff.1 second)))

theorem usable_of_usable_mul {x y : Float} (first : Usable x) (second : NonNegative y)
    (product : Usable (x * y)) : Usable y := by
  obtain ⟨m, e, positive, unpacked⟩ := unpack_of_usable first
  have multiplied : (x * y).toModel.unpack =
    (pack (UnpackedFloat.mul .binary64 x.toModel.unpack y.toModel.unpack)).unpack := rfl
  rw [usable_iff, multiplied, unpacked] at product
  rw [nonNegative_iff] at second
  rw [usable_iff]
  generalize y.toModel.unpack = factor at second product ⊢
  cases factor with
  | notANumber => contradiction
  | zero sign => exact (not_usableForm_zero _ product).elim
  | infinity sign => exact (not_usableForm_infinity _ product).elim
  | finite sign n d positive => exact second

/-! What digits spell. -/

theorem nonNegative_ofNat (n : Nat) : NonNegativeForm (UnpackedFloat.ofNat .binary64 n) := by
  unfold UnpackedFloat.ofNat UnpackedFloat.ofInt UnpackedFloat.normalize
  split
  · rename_i below
    have := Int.compare_eq_lt.1 below
    omega
  · trivial
  · exact nonNegative_round _ _ _ _

theorem nonNegative_ofScientific_form (m : Nat) (e : Int) :
    NonNegativeForm (UnpackedFloat.ofScientific .binary64 m e) := by
  unfold UnpackedFloat.ofScientific
  split
  · trivial
  split
  · rfl
  split
  · trivial
  split
  · exact nonNegative_mul_form _ rfl rfl
  · exact nonNegative_div_form _ rfl rfl

theorem usable_powers : ∀ x ∈ Float.exactlyRepresentablePowersOfTen, Usable x := by
  decide +kernel

theorem nonNegative_ofScientific (m : Nat) (down : Bool) (e : Nat) :
    NonNegative (Float.ofScientific m down e) := by
  rw [nonNegative_iff]
  unfold Float.ofScientific
  split
  · -- The digits are exact here, and so is the power of ten.
    rename_i small
    have digits := nonNegative_pack (nonNegative_ofNat m.toUInt64.toNat)
    have inside : e < Float.exactlyRepresentablePowersOfTen.size := Nat.lt_succ_of_le small.2
    have power := usable_iff.1 (usable_powers _ (Array.getElem_mem inside))
    split
    · exact nonNegative_pack (nonNegative_div_form .binary64 digits power)
    · have product := nonNegative_pack (nonNegative_mul_form .binary64 power digits)
      rw [mul_comm_form] at product
      exact product
  · exact nonNegative_pack (nonNegative_ofScientific_form _ _)

end NotepadCalculator.Number
