import NotepadCalculator.Proofs.RegainedAmounts

/-!
Whole numbers among the doubles. Products and quotients that a double can hold are exact, and so is
a whole number that is made a double. Rounding to a whole number gives the nearest one, a half going
away from zero.
-/
namespace NotepadCalculator.Number
open Float.Model UnpackedFloat

/-- The double has this sign and stands for this magnitude. -/
structure Stands (sign : Sign) (x : ℚ) (f : Float) : Prop where
  shaped : Shaped sign f.toModel.unpack
  exact : magnitude f.toModel.unpack = x

/-- There is room for the magnitude in 53 bits, and it is not too large. -/
def Fits (x : ℚ) : Prop := ∃ (m : ℕ) (e : ℤ), x = m * 2 ^ e ∧ m < 2 ^ 53 ∧ -1074 ≤ e ∧ e ≤ 971

theorem fits_natCast {n : ℕ} (narrow : n < 2 ^ 53) : Fits n :=
  ⟨n, 0, by simp, narrow, by omega, by omega⟩

theorem value_of_stands {sign : Sign} {x : ℚ} {f : Float} (stands : Stands sign x f) :
    value f = directed sign x := by
  rw [value_of_shaped stands.shaped, stands.exact]

theorem Stands.finite {sign : Sign} {x : ℚ} {f : Float} (stands : Stands sign x f) :
    f.isFinite = true :=
  isFinite_of_shaped stands.shaped

/-- Sign and magnitude leave no choice of a double. -/
theorem Stands.unique {sign : Sign} {x : ℚ} {f g : Float} (first : Stands sign x f)
    (second : Stands sign x g) : f = g := by
  have same := shaped_ext first.shaped second.shaped (first.exact.trans second.exact.symm)
  rw [← ofModel_pack_unpack f, same, ofModel_pack_unpack]

theorem stands_of_zero {sign : Sign} {f : Float} (zero : f.toModel.unpack = .zero sign) :
    Stands sign 0 f := by
  constructor
  · rw [zero]
    rfl
  · rw [zero]
    rfl

theorem stands_of_unpack {sign : Sign} {m : ℕ} {e : ℤ} {positive : 0 < m} {f : Float}
    (unpacked : f.toModel.unpack = .finite sign m e positive) :
    Stands sign (m * 2 ^ e) f := by
  obtain ⟨narrow, full, floor, -⟩ := canonical_of_unpack unpacked
  constructor
  · rw [unpacked]
    exact ⟨rfl, narrow, full, floor⟩
  · rw [unpacked]
    rfl

theorem Stands.unpack {sign : Sign} {x : ℚ} {f : Float} (stands : Stands sign x f) :
    (x = 0 ∧ f.toModel.unpack = .zero sign) ∨
      ∃ (m : ℕ) (e : ℤ) (positive : 0 < m), x = m * 2 ^ e ∧
        f.toModel.unpack = .finite sign m e positive := by
  obtain ⟨shaped, exact⟩ := stands
  cases unpacked : f.toModel.unpack with
  | zero s =>
    rw [unpacked] at shaped exact
    obtain rfl : s = sign := shaped
    exact .inl ⟨exact.symm, rfl⟩
  | finite s m e positive =>
    rw [unpacked] at shaped exact
    obtain ⟨rfl, -⟩ := shaped
    exact .inr ⟨m, e, positive, exact.symm, rfl⟩
  | _ =>
    rw [unpacked] at shaped
    contradiction

theorem exists_stands {f : Float} (finite : f.isFinite = true) : ∃ sign x, Stands sign x f := by
  rcases unpack_of_finite finite with ⟨sign, zero⟩ | ⟨sign, m, e, positive, unpacked⟩
  · exact ⟨sign, 0, stands_of_zero zero⟩
  · exact ⟨sign, _, stands_of_unpack unpacked⟩

theorem Stands.nonneg {sign : Sign} {x : ℚ} {f : Float} (stands : Stands sign x f) : 0 ≤ x := by
  rcases stands.unpack with ⟨rfl, -⟩ | ⟨m, e, -, rfl, -⟩
  · exact le_rfl
  · positivity

theorem Stands.abs_value {sign : Sign} {x : ℚ} {f : Float} (stands : Stands sign x f) :
    |value f| = x := by
  rw [value_of_stands stands]
  cases sign with
  | positive => exact abs_of_nonneg stands.nonneg
  | negative => exact (abs_neg x).trans (abs_of_nonneg stands.nonneg)

theorem Stands.unpack_of_pos {sign : Sign} {x : ℚ} {f : Float} (stands : Stands sign x f)
    (some : 0 < x) : ∃ (m : ℕ) (e : ℤ) (positive : 0 < m), x = m * 2 ^ e ∧
      f.toModel.unpack = .finite sign m e positive :=
  stands.unpack.resolve_left fun zero => some.ne' zero.1

/-! Results that a double can hold. -/

theorem Stands.fits {sign : Sign} {x : ℚ} {f : Float} (stands : Stands sign x f) : Fits x := by
  rcases stands.unpack with ⟨rfl, -⟩ | ⟨m, e, positive, rfl, unpacked⟩
  · exact ⟨0, 0, by simp, by norm_num, by omega, by omega⟩
  · obtain ⟨narrow, -, floor, ceiling⟩ := canonical_of_unpack unpacked
    exact ⟨m, e, rfl, (Nat.log2_lt positive.ne').1 (by omega), floor, ceiling⟩

theorem lt_limit_of_fits {x : ℚ} (fits : Fits x) : x < limit := by
  obtain ⟨m, e, rfl, narrow, -, ceiling⟩ := fits
  have most : (m : ℚ) ≤ (2 ^ 53 - 1 : ℕ) := by exact_mod_cast Nat.le_pred_of_lt narrow
  calc (m * 2 ^ e : ℚ) ≤ (2 ^ 53 - 1 : ℕ) * 2 ^ (971 : ℤ) := by
        gcongr
        norm_num
    _ < ((2 ^ 53 - 1 : ℕ) + 1 / 2) * 2 ^ (971 : ℤ) := by
        gcongr
        norm_num
    _ = limit := limit_eq.symm

theorem Rounds.stands {sign : Sign} {x : ℚ} {g : UnpackedFloat} (rounds : Rounds sign x g)
    (small : x < limit) : Stands sign (magnitude g) (.ofModel (pack g)) := by
  have same : (Float.ofModel (pack g)).toModel.unpack = g :=
    unpack_pack_of_shaped rounds.shaped (rounds.bounded.2 small)
  constructor
  · rw [same]
    exact rounds.shaped
  · rw [same]

/-- What a double can hold is its own rounding. -/
theorem stands_of_rounds {sign : Sign} {x : ℚ} {g : UnpackedFloat} (rounds : Rounds sign x g)
    (fits : Fits x) : Stands sign x (.ofModel (pack g)) := by
  have stands := rounds.stands (lt_limit_of_fits fits)
  obtain ⟨m, e, rfl, narrow, floor, -⟩ := fits
  rwa [rounds.exact m e narrow floor rfl] at stands

theorem stands_pack_zero (sign : Sign) : Stands sign 0 (.ofModel (pack (.zero sign))) :=
  stands_of_zero (unpack_pack_zero sign)

theorem rounds_zero (sign : Sign) : Rounds sign 0 (.zero sign) := by
  refine ⟨rfl, ?_, fun _ _ _ _ _ => rfl, ?_⟩
  · show |(0 : ℚ) - 0| ≤ _
    rw [sub_self, abs_zero]
    exact le_max_of_le_right (by positivity)
  · exact iff_of_true (show (0 : ℚ) < 2 ^ (1024 : ℤ) by positivity)
      (lt_limit_of_fits ⟨0, 0, by simp, by norm_num, by omega, by omega⟩)

section
variable {sign : Sign} {x y : ℚ} {v f : Float} (first : Stands sign x v)
  (second : Stands .positive y f) (some : 0 < y)
include first second some

theorem Stands.exists_product : ∃ g, Rounds sign (x * y) g ∧ v * f = .ofModel (pack g) := by
  obtain ⟨n, d, nPositive, rfl, factor⟩ := second.unpack_of_pos some
  have product : v * f = .ofModel (pack (UnpackedFloat.mul .binary64
      v.toModel.unpack f.toModel.unpack)) := rfl
  rcases first.unpack with ⟨rfl, unpacked⟩ | ⟨m, e, mPositive, rfl, unpacked⟩
  · rw [product, unpacked, factor, UnpackedFloat.mul, sign_mul_positive, zero_mul]
    exact ⟨_, rounds_zero sign, rfl⟩
  · rw [product, unpacked, factor]
    exact ⟨_, rounds_mul (canonical_of_unpack unpacked) (canonical_of_unpack factor), rfl⟩

theorem Stands.exists_quotient : ∃ g, Rounds sign (x / y) g ∧ v / f = .ofModel (pack g) := by
  obtain ⟨n, d, nPositive, rfl, factor⟩ := second.unpack_of_pos some
  have quotient : v / f = .ofModel (pack (UnpackedFloat.div .binary64
      v.toModel.unpack f.toModel.unpack)) := rfl
  rcases first.unpack with ⟨rfl, unpacked⟩ | ⟨m, e, mPositive, rfl, unpacked⟩
  · rw [quotient, unpacked, factor, UnpackedFloat.div, sign_div_positive, zero_div]
    exact ⟨_, rounds_zero sign, rfl⟩
  · rw [quotient, unpacked, factor]
    exact ⟨_, rounds_div (canonical_of_unpack unpacked) nPositive, rfl⟩

theorem Stands.mul (fits : Fits (x * y)) : Stands sign (x * y) (v * f) := by
  obtain ⟨g, rounds, product⟩ := first.exists_product second some
  rw [product]
  exact stands_of_rounds rounds fits

theorem Stands.div (fits : Fits (x / y)) : Stands sign (x / y) (v / f) := by
  obtain ⟨g, rounds, quotient⟩ := first.exists_quotient second some
  rw [quotient]
  exact stands_of_rounds rounds fits

end

theorem rounds_round (sign : Sign) {m : ℕ} (positive : 0 < m) (e : ℤ) :
    Rounds sign (m * 2 ^ e) (UnpackedFloat.round .binary64 sign m e) := by
  have target : Format.binary64.targetExponent (totalExponent m e) =
      max ((m.log2 : ℤ) + e - 52) (-1074) := by
    show max ((m.log2 : ℤ) + 1 + e - 53) (-1074) = _
    omega
  obtain ⟨k, shift⟩ : ∃ k, (e - max ((m.log2 : ℤ) + e - 52) (-1074)).toNat = k := ⟨_, rfl⟩
  have whole : (m * 2 ^ e : ℚ) = (m * 2 ^ k : ℕ) * 2 ^ (e - k) := by
    rw [zpow_sub₀ (by norm_num), zpow_natCast]
    push_cast
    field_simp
  simp only [UnpackedFloat.round, target, decreaseExponent, shift, Nat.shiftLeft_eq]
  rw [whole]
  refine rounds_roundWithAccuracy sign (represents_exact _) ?_
  have size := (log2_mul positive (Nat.two_pow_pos k)).1
  rw [Nat.log2_two_pow] at size
  omega

theorem stands_round (sign : Sign) {m : ℕ} {e : ℤ} (positive : 0 < m) (fits : Fits (m * 2 ^ e)) :
    Stands sign (m * 2 ^ e) (.ofModel (pack (UnpackedFloat.round .binary64 sign m e))) :=
  stands_of_rounds (rounds_round sign positive e) fits

/-! The same number under another sign. -/

theorem unpack_pack_of_canonical {f : UnpackedFloat} (canonical : Canonical f) :
    (pack f).unpack = f := by
  cases f with
  | notANumber => exact unpack_pack_notANumber
  | infinity sign => exact unpack_pack_infinity sign
  | zero sign => exact unpack_pack_zero sign
  | finite sign m e positive => exact unpack_pack canonical

theorem unpack_neg (f : Float) : (-f).toModel.unpack = f.toModel.unpack.neg := by
  have canonical : Canonical f.toModel.unpack := canonical_unpack _
  show (pack f.toModel.unpack.neg).unpack = _
  apply unpack_pack_of_canonical
  cases unpacked : f.toModel.unpack with
  | finite sign m e positive =>
    rw [unpacked] at canonical
    exact canonical
  | _ => trivial

theorem unpack_abs (f : Float) : f.abs.toModel.unpack = f.toModel.unpack.abs := by
  have canonical : Canonical f.toModel.unpack := canonical_unpack _
  show (pack f.toModel.unpack.abs).unpack = _
  apply unpack_pack_of_canonical
  cases unpacked : f.toModel.unpack with
  | finite sign m e positive =>
    rw [unpacked] at canonical
    exact canonical
  | _ => trivial

theorem Stands.neg {sign : Sign} {x : ℚ} {f : Float} (stands : Stands sign x f) :
    Stands (-sign) x (-f) := by
  rcases stands.unpack with ⟨rfl, unpacked⟩ | ⟨m, e, positive, rfl, unpacked⟩
  · apply stands_of_zero
    rw [unpack_neg, unpacked, UnpackedFloat.neg]
  · apply stands_of_unpack
    rw [unpack_neg, unpacked, UnpackedFloat.neg]

/-! Whole numbers made doubles. -/

theorem stands_one : Stands .positive 1 Float.exactlyRepresentablePowersOfTen[0] := by
  have unpacked : Float.exactlyRepresentablePowersOfTen[0].toModel.unpack =
      .finite .positive (2 ^ 52) (-52) (by decide) := rfl
  have one : (1 : ℚ) = (2 ^ 52 : ℕ) * 2 ^ (-52 : ℤ) := by norm_num
  rw [one]
  exact stands_of_unpack unpacked

theorem stands_toFloat {n : ℕ} (narrow : n < 2 ^ 53) :
    Stands .positive n n.toUInt64.toFloat := by
  have kept : n.toUInt64.toNat = n := by
    show n % 2 ^ 64 = n
    omega
  have made : n.toUInt64.toFloat =
      .ofModel (pack (UnpackedFloat.ofNat .binary64 n.toUInt64.toNat)) := rfl
  rw [made, kept]
  rcases Nat.eq_zero_or_pos n with rfl | positive
  · exact Nat.cast_zero (R := ℚ) ▸ stands_pack_zero .positive
  · have compared : compare (n : ℤ) 0 = .gt := Int.compare_eq_gt.2 (by omega)
    have fits : Fits (n * 2 ^ (0 : ℤ)) := by simpa using fits_natCast narrow
    simp only [UnpackedFloat.ofNat, UnpackedFloat.ofInt, UnpackedFloat.normalize, compared,
      Int.toNat_natCast]
    simpa using stands_round .positive positive fits

/-- A number with more than 53 bits is multiplied by one, with 53 bits more. -/
theorem ofScientific_whole {n : ℕ} (positive : 0 < n) :
    UnpackedFloat.ofScientific .binary64 n 0 = roundWithAccuracy .binary64 .positive
      (n * 2 ^ 53) (-53) .exact := by
  have wide : (2 : ℤ) ^ Format.binary64.exponentBits = 2048 := rfl
  unfold UnpackedFloat.ofScientific
  rw [dif_neg positive.ne', if_neg (by omega), if_neg (by omega), if_pos le_rfl]
  simp only [UnpackedFloat.mul, sign_mul_positive, Nat.shiftLeft_eq]
  rw [Int.toNat_zero, pow_zero, mul_one]
  rfl

theorem rounds_ofScientific {n : ℕ} (positive : 0 < n) :
    Rounds .positive n (UnpackedFloat.ofScientific .binary64 n 0) := by
  have whole : (n : ℚ) = (n * 2 ^ 53 : ℕ) * 2 ^ (-53 : ℤ) := by
    push_cast
    norm_num
    ring
  have bits := (log2_mul positive (Nat.two_pow_pos 53)).1
  rw [Nat.log2_two_pow] at bits
  rw [ofScientific_whole positive, whole]
  exact rounds_roundWithAccuracy .positive (represents_exact _) (by omega)

/-- A whole number that a double can hold is one. -/
theorem stands_ofNat {n : ℕ} (fits : Fits n) : Stands .positive n (Float.ofNat n) := by
  show Stands .positive n (Float.ofScientific n false 0)
  unfold Float.ofScientific
  split
  · rename_i small
    have product := (stands_toFloat small.1).mul stands_one one_pos (by rwa [mul_one])
    rwa [mul_one] at product
  · exact stands_of_rounds (rounds_ofScientific (by omega)) fits

theorem stands_ofInt {k : ℤ} (fits : Fits k.natAbs) :
    Stands (signOf (k < 0)) k.natAbs (Float.ofInt k) := by
  cases k with
  | ofNat n => exact stands_ofNat fits
  | negSucc n =>
    rw [decide_eq_true (Int.negSucc_lt_zero n)]
    exact (stands_ofNat fits).neg

theorem stands_ofInt_mul (k : ℤ) {n : ℕ} (positive : 0 < n) (fits : Fits (k.natAbs * n)) :
    Stands (signOf (k < 0)) (k.natAbs * n) (Float.ofInt (k * n)) := by
  have below : k * n < 0 ↔ k < 0 := by
    rw [mul_neg_iff]
    omega
  have same : ((k * n).natAbs : ℚ) = k.natAbs * n := by
    rw [Int.natAbs_mul, Int.natAbs_natCast, Nat.cast_mul]
  rw [← same] at fits ⊢
  simpa only [below] using stands_ofInt fits

theorem directed_signOf (k : ℤ) : directed (signOf (k < 0)) k.natAbs = k := by
  cases k with
  | ofNat n => rfl
  | negSucc n =>
    rw [decide_eq_true (Int.negSucc_lt_zero n), Int.cast_negSucc]
    rfl

theorem directed_signOf_mul (k : ℤ) (n : ℕ) : directed (signOf (k < 0)) (k.natAbs * n) = k * n := by
  rw [← directed_mul, directed_signOf]

theorem value_ofInt {k : ℤ} (fits : Fits k.natAbs) : value (Float.ofInt k) = k := by
  rw [value_of_stands (stands_ofInt fits), directed_signOf]

/-! Rounding to a whole number. -/

theorem floor_natCast_add_half (n : ℕ) : ⌊(n + 1 / 2 : ℚ)⌋₊ = n := by
  rw [Nat.floor_eq_iff (by positivity)]
  constructor <;> linarith

theorem floor_add_half (m : ℕ) {n : ℕ} (positive : 0 < n) :
    ⌊(m / n + 1 / 2 : ℚ)⌋₊ = if n ≤ 2 * (m % n) then m / n + 1 else m / n := by
  have whole : (0 : ℚ) < n := Nat.cast_pos.2 positive
  have rest : ((m % n : ℕ) : ℚ) / n < 1 := by
    rw [div_lt_one whole]
    exact_mod_cast Nat.mod_lt m positive
  have least : (0 : ℚ) ≤ ((m % n : ℕ) : ℚ) / n := by positivity
  rw [Nat.floor_eq_iff (by positivity), cast_div_parts m positive]
  split
  · rename_i grows
    have half : (1 / 2 : ℚ) ≤ ((m % n : ℕ) : ℚ) / n := by
      rw [le_div_iff₀ whole]
      have grows : (n : ℚ) ≤ 2 * (m % n : ℕ) := by exact_mod_cast grows
      linarith
    push_cast
    constructor <;> linarith
  · rename_i stays
    have half : ((m % n : ℕ) : ℚ) / n < 1 / 2 := by
      rw [div_lt_iff₀ whole]
      have stays : (2 * (m % n : ℕ) : ℚ) < n := by exact_mod_cast not_le.1 stays
      linarith
    constructor <;> linarith

theorem signOf_isMinus (sign : Sign) : signOf (isMinus sign) = sign := by
  cases sign <;> rfl

theorem stands_exact_zero (sign : Sign) (e : ℤ) :
    Stands sign 0 (Exact.finite (isMinus sign) 0 e).toFloat := by
  show Stands sign 0 (.ofModel (pack (.zero (signOf (isMinus sign)))))
  rw [signOf_isMinus]
  exact stands_pack_zero sign

theorem stands_exact (sign : Sign) {m : ℕ} {e : ℤ} (fits : Fits (m * 2 ^ e)) :
    Stands sign (m * 2 ^ e) (Exact.finite (isMinus sign) m e).toFloat := by
  cases m with
  | zero =>
    rw [Nat.cast_zero, zero_mul]
    exact stands_exact_zero sign e
  | succ m =>
    show Stands sign _ (.ofModel (pack (UnpackedFloat.round .binary64 (signOf (isMinus sign))
      (m + 1) e)))
    rw [signOf_isMinus]
    exact stands_round sign m.succ_pos fits

theorem stands_exact_natural (sign : Sign) {n : ℕ} (narrow : n < 2 ^ 53) :
    Stands sign n (Exact.finite (isMinus sign) n 0).toFloat := by
  have natural : (n : ℚ) = n * 2 ^ (0 : ℤ) := by simp
  have fits := fits_natCast narrow
  rw [natural] at fits ⊢
  exact stands_exact sign fits

theorem mul_zpow_eq_div (m : ℕ) {e : ℤ} (below : e ≤ 0) :
    (m * 2 ^ e : ℚ) = m / (twoTo (-e).toNat : ℕ) := by
  have turned : e = -((-e).toNat : ℤ) := by omega
  show (m * 2 ^ e : ℚ) = m / (2 ^ (-e).toNat : ℕ)
  conv_lhs => rw [turned, zpow_neg, zpow_natCast, ← div_eq_mul_inv]
  push_cast
  rfl

theorem mul_zpow_eq_natCast (m : ℕ) {e : ℤ} (least : 0 ≤ e) :
    (m * 2 ^ e : ℚ) = (m * twoTo e.toNat : ℕ) := by
  have same : e = (e.toNat : ℤ) := by omega
  show (m * 2 ^ e : ℚ) = (m * 2 ^ e.toNat : ℕ)
  conv_lhs => rw [same, zpow_natCast]
  push_cast
  rfl

theorem twoTo_pos (n : ℕ) : 0 < twoTo n := Nat.two_pow_pos n

/-- A double that is rounded to a whole number becomes the nearest one, a half going away from
    zero. -/
theorem Stands.nearest {sign : Sign} {x : ℚ} {f : Float} (stands : Stands sign x f) :
    Stands sign ⌊x + 1 / 2⌋₊ (Amount.integral .nearest f) := by
  have made : Amount.integral .nearest f = ((Exact.ofFloat f).integral .nearest).toFloat := rfl
  rcases stands.unpack with ⟨rfl, unpacked⟩ | ⟨m, e, positive, rfl, unpacked⟩
  · have none : ⌊(0 + 1 / 2 : ℚ)⌋₊ = 0 := by norm_num
    rw [made, Exact.ofFloat, unpacked, none]
    exact stands_exact_natural sign (by norm_num)
  · obtain ⟨bits, full, floor, ceiling⟩ := canonical_of_unpack unpacked
    have narrow : m < 2 ^ 53 := (Nat.log2_lt positive.ne').1 (by omega)
    rw [made, Exact.ofFloat, unpacked]
    simp only [Exact.integral]
    split
    · rename_i least
      have whole : ⌊(m * 2 ^ e + 1 / 2 : ℚ)⌋₊ = m * twoTo e.toNat := by
        rw [mul_zpow_eq_natCast m least, floor_natCast_add_half]
      rw [whole, ← mul_zpow_eq_natCast m least]
      exact stands_exact sign ⟨m, e, rfl, narrow, floor, ceiling⟩
    · rename_i below
      have half : m / twoTo (-e).toNat ≤ m / 2 :=
        Nat.div_le_div_left (Nat.le_self_pow (n := (-e).toNat) (by omega) 2) (by decide)
      rw [mul_zpow_eq_div m (by omega), floor_add_half m (twoTo_pos _)]
      simp only [Direction.grows, decide_eq_true_eq]
      apply stands_exact_natural
      split <;> omega

/-! Being a whole number. -/

theorem natural_of_mul_zpow (m n : ℕ) {e : ℤ} (below : e < 0) :
    (m * 2 ^ e : ℚ) = n ↔ m % twoTo (-e).toNat = 0 ∧ m / twoTo (-e).toNat = n := by
  have unit := twoTo_pos (-e).toNat
  have some : ((twoTo (-e).toNat : ℕ) : ℚ) ≠ 0 := by exact_mod_cast unit.ne'
  rw [mul_zpow_eq_div m below.le, div_eq_iff some]
  constructor
  · intro same
    obtain rfl : m = n * twoTo (-e).toNat := by exact_mod_cast same
    exact ⟨Nat.mul_mod_left _ _, Nat.mul_div_cancel _ unit⟩
  · rintro ⟨none, rfl⟩
    exact_mod_cast (Nat.div_mul_cancel (Nat.dvd_of_mod_eq_zero none)).symm

theorem cast_signed (sign : Sign) (n : ℕ) :
    ((signed (isMinus sign) n : ℤ) : ℚ) = directed sign n := by
  cases sign with
  | positive => rfl
  | negative => exact Int.cast_neg _

theorem directed_eq_intCast {sign : Sign} {x : ℚ} (least : 0 ≤ x) (k : ℤ) :
    directed sign x = k ↔ ∃ n : ℕ, x = n ∧ signed (isMinus sign) n = k := by
  constructor
  · intro whole
    cases sign with
    | positive =>
      obtain rfl : x = k := whole
      obtain ⟨n, rfl⟩ := Int.eq_ofNat_of_zero_le (Int.cast_nonneg_iff.1 least)
      exact ⟨n, rfl, rfl⟩
    | negative =>
      obtain rfl : x = (-k : ℤ) := by
        rw [Int.cast_neg, ← whole]
        exact (neg_neg x).symm
      obtain ⟨n, turned⟩ := Int.eq_ofNat_of_zero_le (Int.cast_nonneg_iff.1 least)
      refine ⟨n, by rw [turned]; rfl, ?_⟩
      show -(n : ℤ) = k
      omega
  · rintro ⟨n, rfl, rfl⟩
    exact (cast_signed sign n).symm

theorem Stands.whole {sign : Sign} {x : ℚ} {f : Float} (stands : Stands sign x f) (k : ℤ) :
    Amount.whole? f = some k ↔ value f = k := by
  have made : Amount.whole? f = (Exact.ofFloat f).whole? := rfl
  rw [value_of_stands stands, directed_eq_intCast stands.nonneg]
  rcases stands.unpack with ⟨rfl, unpacked⟩ | ⟨m, e, positive, rfl, unpacked⟩
  · rw [made, Exact.ofFloat, unpacked]
    simp only [Exact.whole?, le_refl, if_true, Nat.zero_mul, Option.some_inj]
    constructor
    · intro none
      exact ⟨0, rfl, none⟩
    · rintro ⟨n, none, rfl⟩
      obtain rfl : n = 0 := by exact_mod_cast none.symm
      rfl
  · rw [made, Exact.ofFloat, unpacked]
    simp only [Exact.whole?]
    split
    · rename_i least
      rw [mul_zpow_eq_natCast m least, Option.some_inj]
      simp only [Nat.cast_inj, exists_eq_left']
    · rename_i below
      simp only [natural_of_mul_zpow m _ (not_le.1 below)]
      split
      · rename_i none
        simp only [none, true_and, Option.some_inj, exists_eq_left']
      · rename_i some
        simp only [some, false_and, exists_false, reduceCtorEq]

/-- A double is a whole number just when it is finite and stands for one. -/
theorem whole?_eq_some_iff {f : Float} {k : ℤ} :
    Amount.whole? f = some k ↔ f.isFinite = true ∧ value f = k := by
  by_cases finite : f.isFinite = true
  · obtain ⟨sign, x, stands⟩ := exists_stands finite
    rw [stands.whole, and_iff_right finite]
  · have none : Amount.whole? f = none := by
      change ¬ f.toModel.unpack.isFinite = true at finite
      show (Exact.ofFloat f).whole? = _
      unfold Exact.ofFloat
      cases unpacked : f.toModel.unpack with
      | notANumber => rfl
      | infinity sign => rfl
      | _ =>
        rw [unpacked] at finite
        exact absurd rfl finite
    rw [none]
    simp only [finite, false_and, reduceCtorEq]

theorem value_of_not_finite {f : Float} (large : ¬ f.isFinite = true) : value f = 0 := by
  change ¬ f.toModel.unpack.isFinite = true at large
  unfold value
  cases unpacked : f.toModel.unpack with
  | finite sign m e positive =>
    rw [unpacked] at large
    exact absurd rfl large
  | _ => rfl

theorem isFinite_nearest (f : Float) :
    Float.isFinite (Amount.integral .nearest f) = f.isFinite := by
  by_cases finite : f.isFinite = true
  · obtain ⟨sign, x, stands⟩ := exists_stands finite
    rw [stands.nearest.finite, finite]
  · rw [Bool.not_eq_true] at finite
    rw [finite]
    change f.toModel.unpack.isFinite = false at finite
    show Float.isFinite ((Exact.ofFloat f).integral .nearest).toFloat = false
    unfold Exact.ofFloat
    cases unpacked : f.toModel.unpack with
    | notANumber => rfl
    | infinity sign => cases sign <;> rfl
    | _ =>
      rw [unpacked] at finite
      contradiction

theorem directed_floor (sign : Sign) {x : ℚ} (least : 0 ≤ x) :
    directed sign ⌊x + 1 / 2⌋₊ =
      SignType.sign (directed sign x) * ⌊|directed sign x| + 1 / 2⌋ := by
  have same : ((⌊x + 1 / 2⌋₊ : ℕ) : ℚ) = (⌊x + 1 / 2⌋ : ℤ) := by
    exact_mod_cast Int.natCast_floor_eq_floor (a := x + 1 / 2) (by linarith)
  rcases least.eq_or_lt with rfl | some
  · have none : ⌊(0 + 1 / 2 : ℚ)⌋₊ = 0 := by norm_num
    rw [none]
    cases sign <;> simp [directed]
  · cases sign with
    | positive =>
      rw [directed, directed, sign_pos some, abs_of_pos some, same, SignType.coe_one, one_mul]
    | negative =>
      rw [directed, directed, sign_neg (neg_lt_zero.2 some), abs_neg, abs_of_pos some, same,
        SignType.coe_neg_one, neg_one_mul]

theorem value_nearest (f : Float) :
    value (Amount.integral .nearest f) = SignType.sign (value f) * ⌊|value f| + 1 / 2⌋ := by
  by_cases finite : f.isFinite = true
  · obtain ⟨sign, x, stands⟩ := exists_stands finite
    rw [value_of_stands stands.nearest, value_of_stands stands]
    exact directed_floor sign stands.nonneg
  · have again := finite
    rw [← isFinite_nearest] at again
    rw [value_of_not_finite again, value_of_not_finite finite, sign_zero, SignType.coe_zero,
      zero_mul]

/-! Remainders. -/

theorem Stands.ofFloat {sign : Sign} {x : ℚ} {f : Float} (stands : Stands sign x f) :
    ∃ (m : ℕ) (e : ℤ), x = m * 2 ^ e ∧ Exact.ofFloat f = .finite (isMinus sign) m e := by
  rcases stands.unpack with ⟨rfl, unpacked⟩ | ⟨m, e, positive, rfl, unpacked⟩
  · refine ⟨0, 0, by simp, ?_⟩
    rw [Exact.ofFloat, unpacked]
  · refine ⟨m, e, rfl, ?_⟩
    rw [Exact.ofFloat, unpacked]

theorem isZero_of_stands {sign : Sign} {f : Float} (stands : Stands sign 0 f) :
    Amount.isZero f = true := by
  rw [stands.unique (stands_pack_zero sign)]
  cases sign <;> decide +kernel

theorem multiple_of_places {m n k : ℕ} {e d low : ℤ} (first : low ≤ e) (second : low ≤ d)
    (multiple : (m * 2 ^ e : ℚ) = k * (n * 2 ^ d)) :
    m * twoTo (e - low).toNat = k * (n * twoTo (d - low).toNat) := by
  have place : (2 : ℚ) ^ low ≠ 0 := by positivity
  obtain ⟨i, rfl⟩ := Int.le.dest first
  obtain ⟨j, rfl⟩ := Int.le.dest second
  have whole : (m * 2 ^ i : ℚ) = k * (n * 2 ^ j) := by
    apply mul_right_cancel₀ place
    rw [zpow_add₀ (by norm_num), zpow_add₀ (by norm_num), zpow_natCast, zpow_natCast] at multiple
    linarith
  simp only [add_sub_cancel_left, Int.toNat_natCast]
  exact_mod_cast whole

theorem Stands.isZero_remainder {sign sign' : Sign} {y : ℚ} {k : ℕ} {v f : Float}
    (first : Stands sign (k * y) v) (second : Stands sign' y f) (some : 0 < y) :
    Amount.isZero (Amount.remainder v f) = true := by
  obtain ⟨m, e, product, dividend⟩ := first.ofFloat
  obtain ⟨n, d, rfl, divisor⟩ := second.ofFloat
  have whole : n ≠ 0 := by
    rintro rfl
    simp at some
  have none := multiple_of_places (min_le_left e d) (min_le_right e d) product.symm
  have made : Amount.remainder v f =
      ((Exact.ofFloat v).remainder (Exact.ofFloat f)).toFloat := rfl
  rw [made, dividend, divisor]
  simp only [Exact.remainder, if_neg whole, none, Nat.mul_mod_left]
  exact isZero_of_stands (stands_exact_zero sign _)

end NotepadCalculator.Number
