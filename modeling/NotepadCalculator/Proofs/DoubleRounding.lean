import NotepadCalculator.Proofs.DoubleOrders

/-!
Rounding of doubles. A product and a quotient of doubles are the exact ones, rounded: off by at most
half of the last place, and not at all where the exact one is itself a double.
-/
namespace NotepadCalculator.Number
open Float.Model UnpackedFloat

/-! The highest bit of a number. -/

theorem pow_log2_le {m : ℕ} (positive : 0 < m) (e : ℤ) :
    (2 : ℚ) ^ ((m.log2 : ℤ) + e) ≤ m * 2 ^ e := by
  rw [zpow_add₀ (by norm_num), zpow_natCast]
  gcongr
  exact_mod_cast Nat.log2_self_le positive.ne'

theorem lt_pow_log2 (m : ℕ) (e : ℤ) : (m * 2 ^ e : ℚ) < 2 ^ ((m.log2 : ℤ) + e + 1) := by
  rw [add_right_comm, zpow_add₀ (by norm_num), ← Nat.cast_add_one, zpow_natCast]
  gcongr
  exact_mod_cast Nat.lt_log2_self

theorem lt_of_zpow_lt {i j : ℤ} (less : (2 : ℚ) ^ i < 2 ^ j) : i < j :=
  (zpow_lt_zpow_iff_right₀ (by norm_num)).1 less

theorem log2_le_of_le {m n : ℕ} {e d : ℤ} (positive : 0 < m) (most : (m * 2 ^ e : ℚ) ≤ n * 2 ^ d) :
    (m.log2 : ℤ) + e ≤ n.log2 + d := by
  have := lt_of_zpow_lt ((pow_log2_le positive e).trans_lt (most.trans_lt (lt_pow_log2 n d)))
  omega

theorem pos_of_log2_pos {m : ℕ} (some : 0 < m.log2) : 0 < m := by
  rw [Nat.pos_iff_ne_zero]
  rintro rfl
  contradiction

/-! The bits that are dropped. -/

/-- The two residual bits say where the exact number lies from the mantissa on. -/
def Represents (em : ExtendedMantissa) (x : ℚ) : Prop :=
  match em.roundBit, em.stickyBit with
  | false, false => x = em.mantissa
  | false, true => em.mantissa < x ∧ x < em.mantissa + 1 / 2
  | true, false => x = em.mantissa + 1 / 2
  | true, true => em.mantissa + 1 / 2 < x ∧ x < em.mantissa + 1

theorem represents_shiftRightOne {em : ExtendedMantissa} {x : ℚ} (exact : Represents em x) :
    Represents em.shiftRightOne (x / 2) := by
  obtain ⟨m, round, sticky⟩ := em
  have halves : (m : ℚ) = 2 * (m / 2 : ℕ) + (m % 2 : ℕ) := by
    exact_mod_cast (Nat.div_add_mod m 2).symm
  rcases Nat.mod_two_eq_zero_or_one m with even | odd
  · rw [even, Nat.cast_zero] at halves
    cases round <;> cases sticky <;>
      simp only [Represents, ExtendedMantissa.shiftRightOne, even, Bool.or_false, Bool.or_true,
        bne_self_eq_false] at exact ⊢
    all_goals grind
  · rw [odd, Nat.cast_one] at halves
    cases round <;> cases sticky <;>
      simp [Represents, ExtendedMantissa.shiftRightOne, odd] at exact ⊢
    all_goals grind

theorem represents_shiftRight {em : ExtendedMantissa} {x : ℚ} (exact : Represents em x) (n : ℕ) :
    Represents (em >>> n) (x / 2 ^ n) := by
  show Represents (n.repeat ExtendedMantissa.shiftRightOne em) _
  induction n with
  | zero => simpa [Nat.repeat] using exact
  | succ n ih =>
    rw [Nat.repeat, pow_succ, ← div_div]
    exact represents_shiftRightOne ih

theorem represents_exact (m : ℕ) : Represents (.ofMantissaAndAccuracy m .exact) m := rfl

theorem cast_div_parts (m : ℕ) {n : ℕ} (positive : 0 < n) :
    (m / n : ℚ) = (m / n : ℕ) + (m % n : ℕ) / n := by
  have whole : (n : ℚ) ≠ 0 := by exact_mod_cast positive.ne'
  rw [eq_comm, ← eq_sub_iff_add_eq', div_eq_iff whole, sub_mul, div_mul_cancel₀ _ whole,
    eq_sub_iff_add_eq]
  exact_mod_cast Nat.mod_add_div' m n

theorem represents_quotient (m : ℕ) {n : ℕ} (positive : 0 < n) :
    Represents (.ofMantissaAndAccuracy (m / n) (accuracyOfFraction (m % n) n)) (m / n) := by
  have whole : (0 : ℚ) < n := Nat.cast_pos.2 positive
  have left : (m % n : ℕ) < (n : ℚ) := Nat.cast_lt.2 (Nat.mod_lt m positive)
  rw [cast_div_parts m positive, accuracyOfFraction]
  split
  · rename_i none
    rw [none, Nat.cast_zero, zero_div, add_zero]
    exact represents_exact _
  · rename_i some
    have some : (0 : ℚ) < (m % n : ℕ) := Nat.cast_pos.2 (Nat.pos_of_ne_zero some)
    have share : (0 : ℚ) < (m % n : ℕ) / n := div_pos some whole
    have rest : (m % n : ℕ) / n < (1 : ℚ) := (div_lt_one whole).2 left
    rcases compared : compare (2 * (m % n)) n with _ | _ | _
    · have below : (2 * (m % n : ℕ) : ℚ) < n := by exact_mod_cast Nat.compare_eq_lt.1 compared
      have half : (m % n : ℕ) / n < (1 / 2 : ℚ) := by
        rw [div_lt_iff₀ whole]
        linarith
      show ((m / n : ℕ) : ℚ) < _ ∧ _ < ((m / n : ℕ) : ℚ) + 1 / 2
      exact ⟨by linarith, by linarith⟩
    · have same : (2 * (m % n : ℕ) : ℚ) = n := by exact_mod_cast Nat.compare_eq_eq.1 compared
      have half : (m % n : ℕ) / n = (1 / 2 : ℚ) := by
        rw [div_eq_iff whole.ne']
        linarith
      exact congrArg _ half
    · have above : (n : ℚ) < 2 * (m % n : ℕ) := by exact_mod_cast Nat.compare_eq_gt.1 compared
      have half : (1 / 2 : ℚ) < (m % n : ℕ) / n := by
        rw [lt_div_iff₀ whole]
        linarith
      show ((m / n : ℕ) : ℚ) + 1 / 2 < _ ∧ _ < ((m / n : ℕ) : ℚ) + 1
      exact ⟨by linarith, by linarith⟩

theorem mantissa_le {em : ExtendedMantissa} {x : ℚ} (exact : Represents em x) :
    em.mantissa ≤ x ∧ x < em.mantissa + 1 := by
  obtain ⟨m, round, sticky⟩ := em
  cases round <;> cases sticky <;> simp only [Represents] at exact ⊢
  all_goals grind

theorem roundedMantissa_nearest {em : ExtendedMantissa} {x : ℚ} (exact : Represents em x) :
    |(em.roundedMantissa : ℚ) - x| ≤ 1 / 2 := by
  obtain ⟨m, round, sticky⟩ := em
  rw [abs_le]
  cases round <;> cases sticky <;>
    simp only [Represents, ExtendedMantissa.roundedMantissa, ExtendedMantissa.accuracy,
      Accuracy.roundToNearestEven] at exact ⊢
  case true.false =>
    rcases Nat.mod_two_eq_zero_or_one m with even | odd
    · rw [even]
      grind
    · rw [odd]
      grind
  all_goals grind

/-- Halfway between two whole numbers the even one is taken. -/
theorem lt_roundedMantissa_iff {em : ExtendedMantissa} {x : ℚ} (exact : Represents em x) {n : ℕ}
    (odd : n % 2 = 1) : n < em.roundedMantissa ↔ (n + 1 / 2 : ℚ) ≤ x := by
  obtain ⟨m, round, sticky⟩ := em
  have whole : n < m ∧ (n : ℚ) + 1 ≤ m ∨ n = m ∧ (n : ℚ) = m ∨ m < n ∧ (m : ℚ) + 1 ≤ n := by
    rcases Nat.lt_trichotomy n m with less | same | more
    · exact .inl ⟨less, by exact_mod_cast less⟩
    · exact .inr (.inl ⟨same, congrArg _ same⟩)
    · exact .inr (.inr ⟨more, by exact_mod_cast more⟩)
  cases round <;> cases sticky <;>
    simp only [Represents, ExtendedMantissa.roundedMantissa, ExtendedMantissa.accuracy,
      Accuracy.roundToNearestEven] at exact ⊢
  all_goals grind

/-! Rounding. -/

/-- The middle between the largest double and what would be the next one. From there on numbers are
    rounded to infinity. -/
def limit : ℚ := 2 ^ (1024 : ℤ) - 2 ^ (970 : ℤ)

theorem limit_lt : limit < 2 ^ (1024 : ℤ) := sub_lt_self _ (by positivity)

theorem lt_limit : 2 ^ (1023 : ℤ) < limit := by
  have double : (2 : ℚ) ^ (1024 : ℤ) = 2 ^ (1023 : ℤ) * 2 := zpow_add_one₀ (by norm_num) 1023
  have less : (2 : ℚ) ^ (970 : ℤ) < 2 ^ (1023 : ℤ) :=
    zpow_lt_zpow_right₀ (by norm_num) (by norm_num)
  rw [limit, double, mul_two, lt_sub_iff_add_lt]
  exact add_lt_add_right less _

theorem half_of_last_place : (2 : ℚ) ^ (970 : ℤ) = 2 ^ (971 : ℤ) * (1 / 2) := by
  rw [one_div, ← zpow_sub_one₀ (by norm_num)]
  norm_num

/-- In last places of the largest double. -/
theorem limit_eq : limit = ((2 ^ 53 - 1 : ℕ) + 1 / 2) * 2 ^ (971 : ℤ) := by
  have wide : (2 : ℚ) ^ (1024 : ℤ) = 2 ^ (971 : ℤ) * 2 ^ 53 := by
    rw [← zpow_natCast, ← zpow_add₀ (by norm_num)]
    norm_num
  rw [limit, wide, half_of_last_place]
  generalize (2 : ℚ) ^ (971 : ℤ) = place
  push_cast
  ring

theorem two_pow_mul_zpow (n : ℕ) (d : ℤ) : (2 ^ n * 2 ^ d : ℚ) = 2 ^ (n + d) := by
  rw [← zpow_natCast, ← zpow_add₀ (by norm_num)]

/-- A mantissa of 53 bits is rounded to something finite exactly below the limit. -/
theorem roundedMantissa_lt_iff {em : ExtendedMantissa} {x : ℚ} (exact : Represents em x) {d : ℤ}
    (narrow : em.mantissa < 2 ^ 53) (full : 2 ^ 52 ≤ em.mantissa ∨ d = -1074) :
    (em.roundedMantissa * 2 ^ d : ℚ) < 2 ^ (1024 : ℤ) ↔ x * 2 ^ d < limit := by
  obtain ⟨least, most⟩ := roundedMantissa_near em
  obtain ⟨below, above⟩ := mantissa_le exact
  have place : (0 : ℚ) < 2 ^ d := by positivity
  -- Both sides hold with a finer last place than the largest double has, and neither with a
  -- coarser one.
  rcases lt_trichotomy d 971 with low | rfl | high
  · have small : (2 ^ 53 * 2 ^ d : ℚ) ≤ 2 ^ (1023 : ℤ) := by
      rw [two_pow_mul_zpow]
      exact zpow_le_zpow_right₀ (by norm_num) (by omega)
    have carried : (em.roundedMantissa : ℚ) ≤ 2 ^ 53 := by
      exact_mod_cast (show em.roundedMantissa ≤ 2 ^ 53 by omega)
    have within : x < 2 ^ 53 := above.trans_le (by exact_mod_cast narrow)
    apply iff_of_true
    · exact ((mul_le_mul_of_nonneg_right carried place.le).trans small).trans_lt
        (lt_limit.trans limit_lt)
    · exact (mul_lt_mul_of_pos_right within place).trans (small.trans_lt lt_limit)
  · have wide : (2 : ℚ) ^ (1024 : ℤ) = (2 ^ 53 - 1 + 1 : ℕ) * 2 ^ (971 : ℤ) := by
      rw [Nat.sub_add_cancel Nat.one_le_two_pow, Nat.cast_pow, Nat.cast_two, two_pow_mul_zpow]
      norm_num
    rw [limit_eq, wide, mul_lt_mul_iff_left₀ place, mul_lt_mul_iff_left₀ place, ← not_le,
      ← not_le, not_iff_not, ← lt_roundedMantissa_iff exact (by norm_num), Nat.cast_le,
      Nat.succ_le_iff]
  · have large : (2 : ℚ) ^ (1024 : ℤ) ≤ 2 ^ 52 * 2 ^ d := by
      rw [two_pow_mul_zpow]
      exact zpow_le_zpow_right₀ (by norm_num) (by omega)
    have bits : (2 : ℚ) ^ 52 ≤ em.mantissa := by
      exact_mod_cast (show 2 ^ 52 ≤ em.mantissa by omega)
    have more : (em.mantissa : ℚ) ≤ em.roundedMantissa := by exact_mod_cast least
    have both {y : ℚ} (enough : (em.mantissa : ℚ) ≤ y) : 2 ^ (1024 : ℤ) ≤ y * 2 ^ d :=
      large.trans (mul_le_mul_of_nonneg_right (bits.trans enough) place.le)
    exact iff_of_false (both more).not_gt (limit_lt.trans_le (both below)).not_gt

def magnitude : UnpackedFloat → ℚ
  | .finite _ m e _ => m * 2 ^ e
  | _ => 0

def Shaped (sign : Sign) : UnpackedFloat → Prop
  | .zero s => s = sign
  | .finite s m e _ => s = sign ∧ m.log2 ≤ 52 ∧ (m.log2 = 52 ∨ e = -1074) ∧ -1074 ≤ e
  | _ => False

/-- The number is the nearest one to the exact one, which it is off by at most half of its last
    place, and which it is if this has room in 53 bits. It is too large for a double from the limit
    on. -/
structure Rounds (sign : Sign) (x : ℚ) (f : UnpackedFloat) : Prop where
  shaped : Shaped sign f
  near : |magnitude f - x| ≤ max (x * 2 ^ (-53 : ℤ)) (2 ^ (-1075 : ℤ))
  exact : ∀ (m : ℕ) (e : ℤ), m < 2 ^ 53 → -1074 ≤ e → x = m * 2 ^ e → magnitude f = x
  bounded : magnitude f < 2 ^ (1024 : ℤ) ↔ x < limit

theorem magnitude_carry {r : ℕ} {d : ℤ} (most : r ≤ 2 ^ 53) (least : -1074 ≤ d) :
    ((r / 2 ^ excess r d : ℕ) : ℚ) * 2 ^ (d + excess r d) = r * 2 ^ d := by
  rcases Nat.lt_or_eq_of_le most with narrow | rfl
  · have none : excess r d = 0 := by
      have := log2_le_52 narrow
      unfold excess
      omega
    rw [none]
    simp
  · have one : excess (2 ^ 53) d = 1 := by
      unfold excess
      rw [Nat.log2_two_pow]
      omega
    rw [one, zpow_add₀ (by norm_num)]
    norm_num
    ring

theorem exponent_excess {m : ℕ} {e : ℤ} (precise : 52 ≤ m.log2 ∨ e ≤ -1074) :
    e + excess m e = max (m.log2 + e - 52) (-1074) := by
  unfold excess
  omega

theorem mantissa_ofMantissaAndAccuracy (m : ℕ) (accuracy : Accuracy) :
    (ExtendedMantissa.ofMantissaAndAccuracy m accuracy).mantissa = m := by
  cases accuracy with
  | exact => rfl
  | inexact half => cases half <;> rfl

theorem rounded_near {m k r : ℕ} {accuracy : Accuracy}
    (rounded : (ExtendedMantissa.ofMantissaAndAccuracy m accuracy >>> k).roundedMantissa = r) :
    m / 2 ^ k ≤ r ∧ r ≤ m / 2 ^ k + 1 := by
  have near := roundedMantissa_near (ExtendedMantissa.ofMantissaAndAccuracy m accuracy >>> k)
  rwa [rounded, mantissa_shift, mantissa_ofMantissaAndAccuracy] at near

theorem half_place_le {m : ℕ} {e : ℤ} {x : ℚ} (precise : 52 ≤ m.log2 ∨ e ≤ -1074) (least : m ≤ x) :
    (2 : ℚ) ^ (e + excess m e - 1) ≤ max (x * 2 ^ e * 2 ^ (-53 : ℤ)) (2 ^ (-1075 : ℤ)) := by
  rw [exponent_excess precise]
  rcases le_total ((m.log2 : ℤ) + e - 52) (-1074) with low | high
  · rw [max_eq_right low]
    exact le_max_right _ _
  · rw [max_eq_left high]
    refine le_max_of_le_left ?_
    calc (2 : ℚ) ^ ((m.log2 : ℤ) + e - 52 - 1) = 2 ^ ((m.log2 : ℤ) + e) * 2 ^ (-53 : ℤ) := by
          rw [← zpow_add₀ (by norm_num)]
          congr 1
          omega
      _ ≤ m * 2 ^ e * 2 ^ (-53 : ℤ) := by
          gcongr
          exact pow_log2_le (pos_of_log2_pos (by omega)) e
      _ ≤ x * 2 ^ e * 2 ^ (-53 : ℤ) := by gcongr

/-- Rounding has no effect on what has room in 53 bits. -/
theorem exponent_le {m n : ℕ} {e d : ℤ} {x : ℚ} (precise : 52 ≤ m.log2 ∨ e ≤ -1074)
    (least : m ≤ x) (narrow : n < 2 ^ 53) (floor : -1074 ≤ d) (same : x * 2 ^ e = n * 2 ^ d) :
    e + excess m e ≤ d := by
  rw [exponent_excess precise, max_le_iff]
  refine ⟨?_, floor⟩
  have bits := log2_le_52 narrow
  rcases Nat.eq_zero_or_pos m with rfl | positive
  · rw [Nat.log2_zero] at precise ⊢
    omega
  · have most : (m * 2 ^ e : ℚ) ≤ n * 2 ^ d := by
      rw [← same]
      gcongr
    have := log2_le_of_le positive most
    omega

theorem shifted_bits {m : ℕ} {e : ℤ} (precise : 52 ≤ m.log2 ∨ e ≤ -1074) :
    m / 2 ^ excess m e < 2 ^ 53 ∧ (2 ^ 52 ≤ m / 2 ^ excess m e ∨ e + excess m e = -1074) := by
  have target := exponent_excess precise
  constructor
  · have size : (m / 2 ^ excess m e).log2 ≤ 52 := by
      rw [log2_div]
      omega
    exact Nat.lt_of_lt_of_le Nat.lt_log2_self (Nat.pow_le_pow_right (by omega) (by omega))
  · rcases le_or_gt ((m.log2 : ℤ) + e - 52) (-1074) with low | high
    · exact .inr (by omega)
    · have some : 0 < m / 2 ^ excess m e :=
        div_pos_of_log2 (pos_of_log2_pos (by omega)) (by omega)
      left
      rw [← Nat.le_log2 some.ne', log2_div]
      omega

theorem rounded_le {m r : ℕ} {e : ℤ} (precise : 52 ≤ m.log2 ∨ e ≤ -1074)
    (near : r ≤ m / 2 ^ excess m e + 1) : r ≤ 2 ^ 53 := by
  have bits := (shifted_bits precise).1
  omega

theorem shaped_roundWithAccuracy (sign : Sign) {m : ℕ} {e : ℤ} (accuracy : Accuracy)
    (precise : 52 ≤ m.log2 ∨ e ≤ -1074) :
    Shaped sign (roundWithAccuracy .binary64 sign m e accuracy) := by
  obtain ⟨r, rounded⟩ : ∃ r, (ExtendedMantissa.ofMantissaAndAccuracy m accuracy >>>
    excess m e).roundedMantissa = r := ⟨_, rfl⟩
  have near := rounded_near rounded
  have target := exponent_excess precise
  have most : r.log2 ≤ 53 := by
    rw [Nat.log2_eq_log_two]
    exact (Nat.log_mono_right (rounded_le precise near.2)).trans_eq (Nat.log_pow (by omega) 53)
  have full : e + excess m e = -1074 ∨ 52 ≤ r.log2 := by
    rcases le_total ((m.log2 : ℤ) + e - 52) (-1074) with low | high
    · omega
    · have some : 0 < m / 2 ^ excess m e :=
        div_pos_of_log2 (pos_of_log2_pos (by omega)) (by omega)
      have size := (log2_near some near.1 near.2).1
      rw [log2_div] at size
      omega
  rw [roundWithAccuracy_eq rounded rfl]
  split
  · rfl
  · refine ⟨rfl, ?_⟩
    rw [log2_div]
    unfold excess at most full ⊢
    omega

theorem magnitude_roundWithAccuracy (sign : Sign) {m r : ℕ} {e : ℤ} {accuracy : Accuracy}
    (precise : 52 ≤ m.log2 ∨ e ≤ -1074)
    (rounded : (ExtendedMantissa.ofMantissaAndAccuracy m accuracy >>> excess m e).roundedMantissa =
      r) :
    magnitude (roundWithAccuracy .binary64 sign m e accuracy) = r * 2 ^ (e + excess m e) := by
  have target := exponent_excess precise
  rw [← magnitude_carry (rounded_le precise (rounded_near rounded).2) (by omega),
    roundWithAccuracy_eq rounded rfl]
  split
  · rename_i none
    rw [none]
    simp [magnitude]
  · rfl

theorem exists_multiple (n : ℕ) {e d : ℤ} (coarse : e ≤ d) :
    ∃ k : ℕ, (n * 2 ^ d : ℚ) = k * 2 ^ e := by
  obtain ⟨i, rfl⟩ := Int.le.dest coarse
  refine ⟨n * 2 ^ i, ?_⟩
  rw [zpow_add₀ (by norm_num), zpow_natCast]
  push_cast
  ring

theorem eq_of_abs_sub_lt_one {a b : ℕ} (near : |(a : ℚ) - b| < 1) : a = b := by
  have close : |(a : ℤ) - b| < 1 := by exact_mod_cast near
  exact_mod_cast sub_eq_zero.1 (Int.abs_lt_one_iff.1 close)

/-- Rounding keeps half of a last place of the exact number, and all of it if there is room. -/
theorem rounds_roundWithAccuracy (sign : Sign) {m : ℕ} {e : ℤ} {accuracy : Accuracy} {x : ℚ}
    (exact : Represents (.ofMantissaAndAccuracy m accuracy) x)
    (precise : 52 ≤ m.log2 ∨ e ≤ -1074) :
    Rounds sign (x * 2 ^ e) (roundWithAccuracy .binary64 sign m e accuracy) := by
  obtain ⟨r, rounded⟩ : ∃ r, (ExtendedMantissa.ofMantissaAndAccuracy m accuracy >>>
    excess m e).roundedMantissa = r := ⟨_, rfl⟩
  have least := (mantissa_le exact).1
  rw [mantissa_ofMantissaAndAccuracy] at least
  have shifted := represents_shiftRight exact (excess m e)
  have nearest := roundedMantissa_nearest shifted
  rw [rounded] at nearest
  have worth := magnitude_roundWithAccuracy sign precise rounded
  have place : (0 : ℚ) < 2 ^ (e + excess m e) := by positivity
  have scaled : x * 2 ^ e = x / 2 ^ excess m e * 2 ^ (e + excess m e) := by
    rw [zpow_add₀ (by norm_num), zpow_natCast]
    field_simp
  refine ⟨shaped_roundWithAccuracy sign accuracy precise, ?_, ?_, ?_⟩
  · refine le_trans ?_ (half_place_le precise least)
    rw [worth, scaled, ← sub_mul, abs_mul, abs_of_pos place, zpow_sub_one₀ (by norm_num), mul_comm,
      inv_eq_one_div]
    gcongr
  · intro n d narrow floor same
    -- The number is a multiple of the last place, so that nothing is nearer to it than itself.
    obtain ⟨k, whole⟩ := exists_multiple n (exponent_le precise least narrow floor same)
    have multiple : x / 2 ^ excess m e = k := by
      apply mul_right_cancel₀ place.ne'
      rw [← scaled, same, whole]
    rw [multiple] at nearest
    rw [worth, scaled, multiple, eq_of_abs_sub_lt_one (nearest.trans_lt (by norm_num))]
  · have bits := shifted_bits precise
    rw [← mantissa_ofMantissaAndAccuracy m accuracy, ← mantissa_shift,
      mantissa_ofMantissaAndAccuracy] at bits
    rw [worth, scaled, ← rounded]
    exact roundedMantissa_lt_iff shifted bits.1 bits.2

/-! Products and quotients. -/

theorem sign_mul_positive (sign : Sign) : sign * .positive = sign := by
  cases sign <;> rfl

theorem sign_div_positive (sign : Sign) : sign / .positive = sign := by
  cases sign <;> rfl

theorem rounds_mul {sign : Sign} {m n : ℕ} {e d : ℤ} {mPositive : 0 < m} {nPositive : 0 < n}
    (first : Canonical (.finite sign m e mPositive))
    (second : Canonical (.finite .positive n d nPositive)) :
    Rounds sign (m * 2 ^ e * (n * 2 ^ d)) (UnpackedFloat.mul .binary64
      (.finite sign m e mPositive) (.finite .positive n d nPositive)) := by
  obtain ⟨-, full, -, -⟩ := first
  obtain ⟨-, full', -, -⟩ := second
  have size := log2_mul mPositive nPositive
  have whole : (m * 2 ^ e * (n * 2 ^ d) : ℚ) = (m * n : ℕ) * 2 ^ (e + d) := by
    rw [zpow_add₀ (by norm_num), Nat.cast_mul]
    ring
  rw [whole, UnpackedFloat.mul, sign_mul_positive]
  exact rounds_roundWithAccuracy sign (represents_exact _) (by omega)

theorem product_bounds {m n : ℕ} (e d : ℤ) (mPositive : 0 < m) (nPositive : 0 < n) :
    (2 : ℚ) ^ ((m.log2 + e) + (n.log2 + d)) ≤ m * 2 ^ e * (n * 2 ^ d) ∧
      (m * 2 ^ e * (n * 2 ^ d) : ℚ) < 2 ^ ((m.log2 + e) + (n.log2 + d) + 2) := by
  constructor
  · rw [zpow_add₀ (by norm_num)]
    gcongr
    · exact pow_log2_le mPositive e
    · exact pow_log2_le nPositive d
  · calc (m * 2 ^ e * (n * 2 ^ d) : ℚ) < 2 ^ (m.log2 + e + 1) * 2 ^ (n.log2 + d + 1) := by
          gcongr
          · exact lt_pow_log2 m e
          · exact lt_pow_log2 n d
      _ = 2 ^ ((m.log2 + e) + (n.log2 + d) + 2) := by
          rw [← zpow_add₀ (by norm_num)]
          congr 1
          omega

/-- What is not below all normal doubles is rounded by little of itself. -/
theorem near_of_normal {sign : Sign} {x : ℚ} {f : UnpackedFloat} (rounds : Rounds sign x f)
    (normal : 2 ^ (-1022 : ℤ) ≤ x) :
    |magnitude f - x| ≤ x * 2 ^ (-53 : ℤ) ∧ 0 < magnitude f ∧ magnitude f < x * 2 := by
  have bit : (2 : ℚ) ^ (-1075 : ℤ) ≤ x * 2 ^ (-53 : ℤ) := by
    calc (2 : ℚ) ^ (-1075 : ℤ) = 2 ^ (-1022 : ℤ) * 2 ^ (-53 : ℤ) := by
          rw [← zpow_add₀ (by norm_num)]
          norm_num
      _ ≤ x * 2 ^ (-53 : ℤ) := by gcongr
  have near := rounds.near
  rw [max_eq_left bit] at near
  have positive : 0 < x := lt_of_lt_of_le (by positivity) normal
  have little : x * 2 ^ (-53 : ℤ) < x := mul_lt_of_lt_one_right positive (by norm_num)
  obtain ⟨below, above⟩ := abs_le.1 near
  exact ⟨near, by linarith, by linarith⟩

theorem log2_quotient {m n : ℕ} (some : 0 < m) (positive : 0 < n) (larger : n.log2 + 1 ≤ m.log2) :
    m.log2 - n.log2 - 1 ≤ (m / n).log2 := by
  have bits : 2 ^ (m.log2 - n.log2 - 1) ≤ m / n := by
    rw [Nat.le_div_iff_mul_le positive]
    calc 2 ^ (m.log2 - n.log2 - 1) * n ≤ 2 ^ (m.log2 - n.log2 - 1) * 2 ^ (n.log2 + 1) :=
          Nat.mul_le_mul_left _ Nat.lt_log2_self.le
      _ = 2 ^ m.log2 := by
          rw [← Nat.pow_add]
          congr 1
          omega
      _ ≤ m := Nat.log2_self_le some.ne'
  rwa [Nat.le_log2 (Nat.pos_of_ne_zero fun none => by simp [none] at bits).ne']

theorem rounds_div {sign : Sign} {m n : ℕ} {e d : ℤ} {mPositive : 0 < m}
    (first : Canonical (.finite sign m e mPositive)) (nPositive : 0 < n) :
    Rounds sign (m * 2 ^ e / (n * 2 ^ d)) (UnpackedFloat.div .binary64
      (.finite sign m e mPositive) (.finite .positive n d nPositive)) := by
  obtain ⟨narrow, -, -, -⟩ := first
  -- The dividend gets as many more bits as the quotient needs.
  obtain ⟨t, target⟩ : ∃ t, min (e - d) (Format.binary64.targetExponent
    (totalExponent m e - totalExponent n d)) = t := ⟨_, rfl⟩
  have least : t = min (e - d) (max ((m.log2 : ℤ) - n.log2 + (e - d) - 53) (-1074)) := by
    rw [← target]
    show min (e - d) (max ((m.log2 : ℤ) + 1 + e - (n.log2 + 1 + d) - 53) (-1074)) = _
    congr 2
    omega
  obtain ⟨i, lower⟩ := Int.le.dest (show t ≤ e - d by omega)
  have shift : (e - d - t).toNat = i := by omega
  have quotient : (m * 2 ^ e / (n * 2 ^ d) : ℚ) = (m * 2 ^ i : ℕ) / n * 2 ^ t := by
    rw [mul_div_mul_comm, ← zpow_sub₀ (by norm_num), ← lower, zpow_add₀ (by norm_num), zpow_natCast]
    push_cast
    ring
  rw [UnpackedFloat.div, sign_div_positive, quotient]
  simp only [divCore, target, shift, Nat.shiftLeft_eq]
  refine rounds_roundWithAccuracy sign (represents_quotient _ nPositive) ?_
  rcases le_or_gt t (-1074) with low | high
  · exact .inr low
  · have longer := (log2_mul mPositive (Nat.two_pow_pos i)).1
    rw [Nat.log2_two_pow] at longer
    have bits := log2_quotient (m := m * 2 ^ i) (by positivity) nPositive (by omega)
    omega

/-! Rounding twice. -/

theorem lt_two_places {m : ℕ} {u x r : ℚ} (narrow : m < 2 ^ 53) (place : 0 < u)
    (least : 2 ^ (-1075 : ℤ) ≤ u / 2) (first : |x - m * u| ≤ m * u * 2 ^ (-53 : ℤ))
    (second : |r - x| ≤ max (x * 2 ^ (-53 : ℤ)) (2 ^ (-1075 : ℤ))) :
    |r - m * u| < 2 * u := by
  have most : (m * u : ℚ) ≤ (2 ^ 53 - 1) * u := by
    gcongr
    have : (m : ℚ) + 1 ≤ 2 ^ 53 := by exact_mod_cast narrow
    linarith
  have bit : (2 : ℚ) ^ (-53 : ℤ) = 1 / 2 ^ 53 := by norm_num
  rw [bit] at first second
  have small : |r - x| < u := by
    refine lt_of_le_of_lt second (max_lt ?_ (by linarith))
    have := (abs_le.1 first).2
    linarith
  have := abs_le.1 first
  have := abs_lt.1 small
  rw [abs_lt]
  constructor <;> linarith

theorem not_finer {m : ℕ} {u x r : ℚ} (full : 2 ^ 52 < m) (place : 0 < u)
    (least : 2 ^ (-1075 : ℤ) ≤ u / 2) (first : |x - m * u| ≤ m * u * 2 ^ (-53 : ℤ))
    (second : |r - x| ≤ max (x * 2 ^ (-53 : ℤ)) (2 ^ (-1075 : ℤ))) :
    (2 ^ 52 - 1 / 2) * u < r := by
  have more : (2 ^ 52 + 1) * u ≤ m * u := by
    gcongr
    exact_mod_cast full
  have bit : (2 : ℚ) ^ (-53 : ℤ) = 1 / 2 ^ 53 := by norm_num
  rw [bit] at first second
  obtain ⟨-, above⟩ := abs_le.1 first
  obtain ⟨below, -⟩ := abs_le.1 first
  obtain ⟨under, -⟩ := abs_le.1 second
  rcases le_total (x * (1 / 2 ^ 53)) (2 ^ (-1075 : ℤ)) with low | high
  · rw [max_eq_right low] at under
    linarith
  · rw [max_eq_left high] at under
    linarith

theorem place_of_multiples {k m : ℕ} {u : ℚ} (place : 0 < u) (near : |k * u - m * u| < 2 * u) :
    |k * u - m * u| ≤ u := by
  rw [← sub_mul, abs_mul, abs_of_pos place] at near ⊢
  have close : |(k : ℚ) - m| < 2 := lt_of_mul_lt_mul_right near place.le
  have close : |(k : ℤ) - m| < 2 := by exact_mod_cast close
  have close : |(k : ℤ) - m| ≤ 1 := by omega
  have close : |(k : ℚ) - m| ≤ 1 := by exact_mod_cast close
  exact mul_le_of_le_one_left place.le close

/-- With a finer last place, 53 bits lie below all that are full with this one. -/
theorem le_of_finer {k : ℕ} {g e : ℤ} (narrow : k < 2 ^ 53) (finer : g < e) :
    (k * 2 ^ g : ℚ) ≤ (2 ^ 52 - 1 / 2) * 2 ^ e := by
  have most : (k : ℚ) ≤ 2 ^ 53 - 1 := by
    have : (k : ℚ) + 1 ≤ 2 ^ 53 := by exact_mod_cast narrow
    linarith
  have half : (2 : ℚ) ^ g ≤ 2 ^ (e - 1) := zpow_le_zpow_right₀ (by norm_num) (by omega)
  calc (k * 2 ^ g : ℚ) ≤ (2 ^ 53 - 1) * 2 ^ (e - 1) := by gcongr
    _ = (2 ^ 52 - 1 / 2) * 2 ^ e := by
        rw [zpow_sub_one₀ (by norm_num)]
        ring

/-- Rounded twice, a double ends up no farther than one place from where it was. -/
theorem within_place {sign : Sign} {m : ℕ} {e : ℤ} {positive : 0 < m} {h : UnpackedFloat} {x : ℚ}
    (canonical : Canonical (.finite sign m e positive)) (shaped : Shaped sign h)
    (first : |x - m * 2 ^ e| ≤ m * 2 ^ e * 2 ^ (-53 : ℤ))
    (second : |magnitude h - x| ≤ max (x * 2 ^ (-53 : ℤ)) (2 ^ (-1075 : ℤ)))
    (power : m = 2 ^ 52 → magnitude h = m * 2 ^ e) :
    |magnitude h - m * 2 ^ e| ≤ 2 ^ e := by
  obtain ⟨bits, full, floor, -⟩ := canonical
  have narrow : m < 2 ^ 53 := (Nat.log2_lt positive.ne').1 (by omega)
  have place : (0 : ℚ) < 2 ^ e := by positivity
  have least : (2 : ℚ) ^ (-1075 : ℤ) ≤ 2 ^ e / 2 := by
    rw [div_eq_mul_inv, ← zpow_sub_one₀ (by norm_num)]
    exact zpow_le_zpow_right₀ (by norm_num) (by omega)
  have near := lt_two_places narrow place least first second
  by_cases multiple : ∃ k : ℕ, magnitude h = k * 2 ^ e
  · obtain ⟨k, whole⟩ := multiple
    rw [whole] at near ⊢
    exact place_of_multiples place near
  · -- The place of the result is a finer one, so that it lies below all numbers with this place.
    exfalso
    cases h with
    | zero s => exact multiple ⟨0, by simp [magnitude]⟩
    | finite s k g whole =>
      obtain ⟨-, bits', -, floor'⟩ := shaped
      have finer : g < e := lt_of_not_ge fun coarse => multiple (exists_multiple k coarse)
      have low : magnitude (.finite s k g whole) ≤ (2 ^ 52 - 1 / 2) * 2 ^ e :=
        le_of_finer ((Nat.log2_lt whole.ne').1 (by omega)) finer
      have least' : 2 ^ 52 ≤ m := (Nat.le_log2 positive.ne').1 (by omega)
      rcases least'.eq_or_lt with same | more
      · rw [power same.symm, ← same] at low
        push_cast at low
        linarith
      · exact absurd (not_finer more place least first second) low.not_gt
    | _ => contradiction

/-! Packing. -/

theorem unpack_pack_zero (sign : Sign) : (pack (.zero sign)).unpack = .zero sign := by
  cases sign <;> rfl

theorem unpack_pack_infinity (sign : Sign) : (pack (.infinity sign)).unpack = .infinity sign := by
  cases sign <;> rfl

theorem unpack_pack_notANumber : (pack .notANumber).unpack = .notANumber := rfl

theorem canonical_of_shaped {sign : Sign} {f : UnpackedFloat} (shaped : Shaped sign f)
    (small : magnitude f < 2 ^ (1024 : ℤ)) : Canonical f := by
  cases f with
  | finite s m e positive =>
    obtain ⟨-, narrow, full, floor⟩ := shaped
    refine ⟨narrow, full, floor, ?_⟩
    have := lt_of_zpow_lt ((pow_log2_le positive e).trans_lt small)
    omega
  | _ => trivial

theorem unpack_pack_of_shaped {sign : Sign} {f : UnpackedFloat} (shaped : Shaped sign f)
    (small : magnitude f < 2 ^ (1024 : ℤ)) : (pack f).unpack = f := by
  cases f with
  | zero s => exact unpack_pack_zero s
  | finite s m e positive => exact unpack_pack (canonical_of_shaped shaped small)
  | _ => contradiction

theorem unpack_pack_of_large {sign : Sign} {f : UnpackedFloat} (shaped : Shaped sign f)
    (large : 2 ^ (1024 : ℤ) ≤ magnitude f) : (pack f).unpack = .infinity sign := by
  cases f with
  | finite s m e positive =>
    obtain ⟨rfl, narrow, -, -⟩ := shaped
    have := lt_of_zpow_lt (large.trans_lt (lt_pow_log2 m e))
    have same := pack_large s positive (show 972 ≤ e by omega)
    rw [← unpack_pack_infinity s]
    simp only [Float.Model.pack, same]
  | zero s => exact absurd large (by norm_num [magnitude])
  | _ => contradiction

theorem shaped_ext {sign : Sign} {f g : UnpackedFloat} (first : Shaped sign f)
    (second : Shaped sign g) (same : magnitude f = magnitude g) : f = g := by
  cases f with
  | zero s =>
    obtain rfl : s = sign := first
    cases g with
    | zero s => exact congrArg _ second.symm
    | finite s n d positive =>
      have : (0 : ℚ) < n * 2 ^ d := by positivity
      exact absurd same this.ne
    | _ => contradiction
  | finite s m e positive =>
    obtain ⟨rfl, narrow, full, floor⟩ := first
    cases g with
    | zero s =>
      have : (0 : ℚ) < m * 2 ^ e := by positivity
      exact absurd same this.ne'
    | finite s n d positive' =>
      obtain ⟨rfl, narrow', full', floor'⟩ := second
      have below := log2_le_of_le positive same.le
      have above := log2_le_of_le positive' same.ge
      obtain rfl : e = d := by omega
      have place : (2 : ℚ) ^ e ≠ 0 := by positivity
      obtain rfl : m = n := by exact_mod_cast mul_right_cancel₀ place same
      rfl
    | _ => contradiction
  | _ => contradiction

end NotepadCalculator.Number
