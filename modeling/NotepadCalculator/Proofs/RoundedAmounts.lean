import NotepadCalculator.Evaluation.Evaluate
import NotepadCalculator.Proofs.WholeDoubles

/-!
Rounding to decimal places. An amount is multiplied by a power of ten, rounded to a whole number and
divided again. No amount becomes infinite by the division, but one that is large enough does so by
the product.
-/
namespace NotepadCalculator

namespace Number
open Float.Model UnpackedFloat

/-! Infinite results. -/

theorem isNaN_of_isFinite {f : Float} (finite : f.isFinite = true) : f.isNaN = false := by
  show f.toModel.unpack.isNaN = false
  rcases unpack_of_finite finite with ⟨sign, unpacked⟩ | ⟨sign, m, e, positive, unpacked⟩
  · rw [unpacked]
    rfl
  · rw [unpacked]
    rfl

/-- What is too large is too large with either sign, but still a number. -/
theorem isFinite_of_infinity {sign : Sign} {f : Float}
    (unpacked : f.toModel.unpack = .infinity sign) : f.isFinite = false ∧ f.isNaN = false := by
  constructor
  · show f.toModel.unpack.isFinite = false
    rw [unpacked]
    rfl
  · show f.toModel.unpack.isNaN = false
    rw [unpacked]
    rfl

theorem unpack_of_rounds {sign : Sign} {x : ℚ} {g : UnpackedFloat} (rounds : Rounds sign x g)
    (large : ¬ x < limit) : (Float.ofModel (pack g)).toModel.unpack = .infinity sign :=
  unpack_pack_of_large rounds.shaped (not_lt.1 (rounds.bounded.not.2 large))

theorem unpack_nearest {sign : Sign} {f : Float} (unpacked : f.toModel.unpack = .infinity sign) :
    (Amount.integral .nearest f : Float).toModel.unpack = .infinity sign := by
  show ((Exact.ofFloat f).integral .nearest).toFloat.toModel.unpack = .infinity sign
  rw [Exact.ofFloat, unpacked]
  cases sign <;> rfl

theorem unpack_div {sign : Sign} {y : ℚ} {v f : Float}
    (infinite : v.toModel.unpack = .infinity sign)
    (divisor : Stands .positive y f) (some : 0 < y) :
    (v / f).toModel.unpack = .infinity sign := by
  obtain ⟨n, d, positive, -, unpacked⟩ := divisor.unpack_of_pos some
  show (pack (UnpackedFloat.div .binary64 v.toModel.unpack f.toModel.unpack)).unpack = _
  rw [infinite, unpacked, UnpackedFloat.div, sign_div_positive]
  exact unpack_pack_infinity sign

theorem Stands.mul_lt_limit {sign : Sign} {x y : ℚ} {f : Float} (stands : Stands sign x f)
    (most : y ≤ 1) : x * y < limit :=
  (mul_le_of_le_one_right stands.nonneg most).trans_lt (lt_limit_of_fits stands.fits)

/-! Powers of ten. -/

theorem stands_tens {k : ℕ} (few : k ≤ 15) : Stands .positive (10 ^ k : ℕ) (Amount.tens k) := by
  have each : ∀ k ∈ List.range 16, (Amount.tens k : Float) = Float.ofNat (10 ^ k) := by
    decide +kernel
  rw [each k (List.mem_range.2 (by omega))]
  apply stands_ofNat
  apply fits_natCast
  calc 10 ^ k ≤ 10 ^ 15 := Nat.pow_le_pow_right (by norm_num) few
    _ < 2 ^ 53 := by norm_num

theorem stands_one_amount : Stands .positive 1 (Amount.ofNat 1 : Float) := by
  have same : (Amount.ofNat 1 : Float) = Float.ofNat 1 := by decide +kernel
  rw [same]
  exact_mod_cast stands_ofNat (fits_natCast (n := 1) (by norm_num))

theorem powerOfTen_natCast (k : ℕ) : (Amount.powerOfTen (k : ℤ) : Float) = Amount.tens k := by
  rw [Amount.powerOfTen, if_pos (Int.natCast_nonneg k), Int.toNat_natCast]

theorem powerOfTen_neg {k : ℕ} (positive : 0 < k) :
    (Amount.powerOfTen (-k : ℤ) : Float) = Amount.ofNat 1 / Amount.tens k := by
  rw [Amount.powerOfTen, if_neg (by omega), neg_neg, Int.toNat_natCast]

theorem exists_scale {k : ℕ} (positive : 0 < k) (few : k ≤ 15) :
    ∃ s, Stands .positive s (Amount.powerOfTen (-k : ℤ)) ∧ 2 ^ (-50 : ℤ) ≤ s ∧ s ≤ 1 := by
  have power : (0 : ℚ) < (10 ^ k : ℕ) := by positivity
  have least : (1 / 10 ^ 15 : ℚ) ≤ 1 / (10 ^ k : ℕ) := by
    push_cast
    gcongr
    norm_num
  have most : 1 / (10 ^ k : ℕ) ≤ (1 / 10 : ℚ) := by
    rw [div_le_div_iff_of_pos_left (by norm_num) power (by norm_num)]
    exact_mod_cast Nat.le_self_pow positive.ne' 10
  obtain ⟨g, rounds, quotient⟩ := stands_one_amount.exists_quotient (stands_tens few) power
  generalize (1 / (10 ^ k : ℕ) : ℚ) = tenth at least most rounds
  have small : tenth < limit :=
    (most.trans_lt (by norm_num)).trans (lt_limit_of_fits (fits_natCast (n := 1) (by norm_num)))
  have normal : (2 : ℚ) ^ (-1022 : ℤ) ≤ tenth :=
    (zpow_le_zpow_right₀ (n := -50) (by norm_num) (by norm_num)).trans
      (le_trans (by norm_num) least)
  obtain ⟨near, -, -⟩ := near_of_normal rounds normal
  obtain ⟨below, above⟩ := abs_le.1 near
  refine ⟨magnitude g, ?_, ?_, ?_⟩
  · rw [powerOfTen_neg positive, quotient]
    exact rounds.stands small
  · norm_num at below ⊢
    linarith
  · norm_num at above ⊢
    linarith

/-! Places behind the point. -/

section
variable {sign : Sign} {x y : ℚ} {v f : Float} (first : Stands sign x v)
  (second : Stands .positive y f)
include first second

theorem finite_of_raised (some : 1 ≤ y) (small : x * y < limit) :
    Float.isFinite (Amount.integral .nearest (v * f) / f) = true := by
  have positive : 0 < y := one_pos.trans_le some
  obtain ⟨g, rounds, product⟩ := first.exists_product second positive
  have nearest := (rounds.stands small).nearest
  obtain ⟨h, again, quotient⟩ := nearest.exists_quotient second positive
  have below := (div_le_self nearest.nonneg some).trans_lt (lt_limit_of_fits nearest.fits)
  rw [product, quotient]
  exact (again.stands below).finite

theorem infinite_of_raised (some : 0 < y) (large : ¬ x * y < limit) :
    (Amount.integral .nearest (v * f) / f : Float).toModel.unpack = .infinity sign := by
  obtain ⟨g, rounds, product⟩ := first.exists_product second some
  rw [product]
  exact unpack_div (unpack_nearest (unpack_of_rounds rounds large)) second some

/-! Places before the point. -/

omit first second in
theorem lt_limit_of_room (room : x ≤ (2 ^ 53 - 2) * 2 ^ (971 : ℤ)) :
    x * (1 + 1 / 2 ^ 53) + 2 ^ 51 ≤ limit := by
  have place : (2 : ℚ) ^ (52 : ℤ) ≤ 2 ^ (971 : ℤ) :=
    zpow_le_zpow_right₀ (by norm_num) (by norm_num)
  rw [limit_eq]
  generalize (2 : ℚ) ^ (971 : ℤ) = place at room place ⊢
  norm_num at room place ⊢
  linarith

theorem finite_of_lowered (least : 2 ^ (-50 : ℤ) ≤ y) (most : y ≤ 1)
    (room : x ≤ (2 ^ 53 - 2) * 2 ^ (971 : ℤ)) :
    Float.isFinite (Amount.integral .nearest (v * f) / f) = true := by
  have positive : 0 < y := lt_of_lt_of_le (by positivity) least
  obtain ⟨g, rounds, product⟩ := first.exists_product second positive
  have stands := rounds.stands (first.mul_lt_limit most)
  obtain ⟨h, again, quotient⟩ := stands.nearest.exists_quotient second positive
  rw [product, quotient]
  refine (again.stands ?_).finite
  rw [div_lt_iff₀ positive]
  have whole : (⌊magnitude g + 1 / 2⌋₊ : ℚ) ≤ magnitude g + 1 / 2 :=
    Nat.floor_le (by linarith [stands.nonneg])
  have exact : 0 ≤ x * y := mul_nonneg first.nonneg positive.le
  have above : magnitude g - x * y ≤ x * y * (1 / 2 ^ 53) + 1 := by
    refine ((abs_le.1 rounds.near).2).trans (max_le ?_ ?_)
    · norm_num
    · have little : (2 : ℚ) ^ (-1075 : ℤ) ≤ 2 ^ (0 : ℤ) :=
        zpow_le_zpow_right₀ (by norm_num) (by norm_num)
      rw [zpow_zero] at little
      linarith
  have scaled := mul_le_mul_of_nonneg_right (lt_limit_of_room room) positive.le
  have gap : (2 : ℚ) ≤ 2 ^ 51 * y := by
    norm_num at least
    linarith
  linarith

end

/-! The largest double. -/

def largest (sign : Sign) : Float := .ofModel (pack (.finite sign (2 ^ 53 - 1) 971 (by decide)))

theorem stands_largest (sign : Sign) :
    Stands sign ((2 ^ 53 - 1 : ℕ) * 2 ^ (971 : ℤ)) (largest sign) := by
  have canonical : Canonical (.finite sign (2 ^ 53 - 1) 971 (by decide)) := by
    have bits : (2 ^ 53 - 1).log2 = 52 := by decide
    exact ⟨bits.le, .inl bits, by norm_num, le_rfl⟩
  exact stands_of_unpack (unpack_pack_of_canonical canonical)

/-- There is no double between the two largest ones. -/
theorem eq_largest {sign : Sign} {x : ℚ} {f : Float} (stands : Stands sign x f)
    (large : (2 ^ 53 - 2) * 2 ^ (971 : ℤ) < x) : f = largest sign := by
  obtain ⟨m, e, same, narrow, -, ceiling⟩ := stands.fits
  have place : (0 : ℚ) < 2 ^ (971 : ℤ) := by positivity
  have last : e = 971 := by
    by_contra other
    have bits : (m : ℚ) ≤ 2 ^ 53 := by exact_mod_cast narrow.le
    have finer : (2 : ℚ) ^ e ≤ 2 ^ (970 : ℤ) := zpow_le_zpow_right₀ (by norm_num) (by omega)
    have most : x ≤ 2 ^ 53 * (2 ^ (971 : ℤ) * (1 / 2)) := by
      rw [same, ← half_of_last_place]
      gcongr
    refine absurd large (most.trans ?_).not_gt
    rw [mul_left_comm, mul_comm]
    gcongr
    norm_num
  subst last
  rw [same, mul_lt_mul_iff_left₀ place] at large
  have full : 2 ^ 53 - 2 < m := by
    rw [← Nat.cast_lt (α := ℚ)]
    exact lt_of_eq_of_lt (by norm_num) large
  obtain rfl : m = 2 ^ 53 - 1 := by omega
  exact (same ▸ stands).unique (stands_largest sign)

theorem isFinite_roundTo_largest (sign : Sign) {k : ℕ} (few : k ≤ 15) :
    Float.isFinite (Amount.roundTo (largest sign) (-k : ℤ)) = true := by
  have each : ∀ k ∈ List.range 16,
      Float.isFinite (Amount.roundTo (largest sign) (-k : ℤ)) = true := by
    cases sign <;> decide +kernel
  exact each k (List.mem_range.2 (by omega))

/-! Rounding. -/

theorem roundTo_natCast (f : Float) (k : ℕ) : Amount.roundTo f (k : ℤ) =
    Amount.integral .nearest (f * Amount.tens k) / Amount.tens k := by
  rw [Amount.roundTo, powerOfTen_natCast]

theorem roundTo_raised {sign : Sign} {x : ℚ} {f : Float} (stands : Stands sign x f) {k : ℕ}
    (few : k ≤ 15) :
    Float.isNaN (Amount.roundTo f (k : ℤ)) = false ∧
      (Float.isFinite (Amount.roundTo f (k : ℤ)) = true ↔ x * 10 ^ k < limit) := by
  have scale := stands_tens few
  push_cast at scale
  rw [roundTo_natCast]
  by_cases small : x * 10 ^ k < limit
  · have finite := finite_of_raised stands scale (one_le_pow₀ (by norm_num)) small
    exact ⟨isNaN_of_isFinite finite, iff_of_true finite small⟩
  · obtain ⟨infinite, number⟩ :=
      isFinite_of_infinity (infinite_of_raised stands scale (by positivity) small)
    exact ⟨number, iff_of_false (by simp [infinite]) small⟩

theorem roundTo_lowered {f : Float} (finite : f.isFinite = true) {k : ℕ}
    (positive : 0 < k) (few : k ≤ 15) :
    Float.isFinite (Amount.roundTo f (-k : ℤ)) = true := by
  obtain ⟨sign, x, stands⟩ := exists_stands finite
  rcases le_or_gt x ((2 ^ 53 - 2) * 2 ^ (971 : ℤ)) with room | large
  · obtain ⟨s, scale, least, most⟩ := exists_scale positive few
    exact finite_of_lowered stands scale least most room
  · -- Two roundings upwards would make the largest double infinite, so each power is tried on it.
    rw [eq_largest stands large]
    exact isFinite_roundTo_largest sign few

theorem roundTo_finite_iff {f : Float} (finite : f.isFinite = true) {n : ℤ}
    (few : n.natAbs ≤ 15) :
    Float.isNaN (Amount.roundTo f n) = false ∧
      (Float.isFinite (Amount.roundTo f n) = true ↔ |value f| * 10 ^ n < limit) := by
  obtain ⟨sign, x, stands⟩ := exists_stands finite
  rw [stands.abs_value]
  rcases lt_or_ge n 0 with negative | least
  · obtain ⟨k, rfl⟩ : ∃ k : ℕ, n = -k := ⟨n.natAbs, by omega⟩
    have rounded := roundTo_lowered finite (by omega) (k := k) (by omega)
    refine ⟨isNaN_of_isFinite rounded, iff_of_true rounded ?_⟩
    exact stands.mul_lt_limit (zpow_le_one_of_nonpos₀ (by norm_num) negative.le)
  · obtain ⟨k, rfl⟩ := Int.eq_ofNat_of_zero_le least
    rw [zpow_natCast]
    exact roundTo_raised stands (by omega)

/-- 15 places more are too many for a number with 301 digits. -/
theorem roundTo_overflow :
    Float.isFinite 1e300 = true ∧ Amount.whole? (15 : Float) = some 15 ∧
      Float.isFinite (Amount.roundTo 1e300 15) = false := by
  decide +kernel

end Number

open Calendar Number

/-- A finite amount that is rounded stays a number, under the same tag. It becomes infinite exactly
    where it would be too large for a double without its decimal point. -/
theorem Surroundings.apply_round (s : Surroundings Float) {f : Function}
    (rounding : f.builtin = .round) (tag : Tag) {a d : Float} {n : ℤ} (finite : a.isFinite = true)
    (whole : Amount.whole? d = some n) (few : n.natAbs ≤ 15) :
    s.apply f [.scalar tag a, .number d] = .ok (.scalar tag (Amount.roundTo a n)) ∧
      Float.isNaN (Amount.roundTo a n) = false ∧
      (Float.isFinite (Amount.roundTo a n) = true ↔ |value a| * 10 ^ n < limit) := by
  have places : roundedPlaces (some (.number d)) = .ok n := by
    have kept : (some n).filter (fun n => decide (n.natAbs ≤ 15)) = some n := by
      simp [Option.filter, few]
    simp only [roundedPlaces, whole, kept]
  refine ⟨?_, roundTo_finite_iff finite few⟩
  simp only [apply, rounding, List.head?_cons, places]
  rfl

theorem Surroundings.apply_round_largest :
    let s : Surroundings Float := ⟨⟨.standard, ⟨[]⟩⟩, Day.midnight ⟨0, by decide, by decide⟩, [], 1,
      2⟩
    let f : Function := ⟨.round, "round", 1, some 2⟩
    let a : Float := largest .positive
    (f.builtin = .round ∧ a.isFinite = true ∧ Amount.whole? (-15 : Float) = some (-15)) ∧
      s.apply f [.unit a "km", .number (-15)] = .ok (.unit (Amount.roundTo a (-15)) "km") ∧
      Float.isNaN (Amount.roundTo a (-15)) = false ∧
      Float.isFinite (Amount.roundTo a (-15)) = true := by
  intro s f a
  have stands := stands_largest .positive
  have whole : Amount.whole? (-15 : Float) = some (-15) := by decide +kernel
  have small : |value a| * 10 ^ (-15 : ℤ) < limit := by
    rw [stands.abs_value]
    exact stands.mul_lt_limit (by norm_num)
  obtain ⟨applied, number, bounded⟩ :=
    s.apply_round (f := f) rfl (.unit "km") stands.finite whole (by decide)
  exact ⟨⟨rfl, stands.finite, whole⟩, applied, number, bounded.2 small⟩

end NotepadCalculator
