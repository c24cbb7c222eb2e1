import NotepadCalculator.Proofs.DoubleRounding
import NotepadCalculator.Proofs.UnitFactors
import NotepadCalculator.Proofs.UnitSpellings

/-!
Amounts that are converted to the unit that they are in. Where the unit is written as a ratio, they
are multiplied by its factor and divided by it again, and both are rounded.
-/
namespace NotepadCalculator
open Float.Model UnpackedFloat

namespace Number

def directed : Sign → ℚ → ℚ
  | .positive, x => x
  | .negative, x => -x

/-- What a double stands for, if it is finite. -/
def value (x : Float) : ℚ :=
  match x.toModel.unpack with
  | .finite sign m e _ => directed sign (m * 2 ^ e)
  | _ => 0

def lastPlace (x : Float) : ℚ :=
  match x.toModel.unpack with
  | .finite _ _ e _ => 2 ^ e
  | _ => 2 ^ (-1074 : ℤ)

/-- What is left of a number that is multiplied by a factor and divided by it again. This is the
    number itself if the product is exact, and it is off by no more than the last place unless the
    product is too large or too small for a double. It is infinite if the product is too large, and
    no number if the factor is zero or infinite itself. -/
structure Regained (v factor : Float) : Prop where
  exact : Usable factor → v.isFinite = true → value (v * factor) = value v * value factor →
    v * factor / factor = v
  near : Usable factor → v.isFinite = true → order v ≤ 1022 → -1022 ≤ order v + order factor →
    order v + order factor ≤ 1021 →
      (v * factor / factor).isFinite = true ∧
        |value (v * factor / factor) - value v| ≤ lastPlace v
  lost : Usable factor → v.isFinite = true → 1024 ≤ order v + order factor →
    (v * factor / factor).isInf = true
  spoiled : ¬Usable factor → (v * factor / factor).isNaN = true

theorem directed_inj {sign : Sign} {x y : ℚ} : directed sign x = directed sign y ↔ x = y := by
  cases sign with
  | positive => exact Iff.rfl
  | negative => exact neg_inj

theorem directed_eq_zero {sign : Sign} {x : ℚ} : directed sign x = 0 ↔ x = 0 := by
  cases sign with
  | positive => exact Iff.rfl
  | negative => exact neg_eq_zero

theorem directed_mul (sign : Sign) (x y : ℚ) : directed sign x * y = directed sign (x * y) := by
  cases sign with
  | positive => rfl
  | negative => exact neg_mul x y

theorem abs_directed_sub (sign : Sign) (x y : ℚ) :
    |directed sign x - directed sign y| = |x - y| := by
  cases sign with
  | positive => rfl
  | negative =>
    rw [directed, directed, neg_sub_neg, abs_sub_comm]

theorem lastPlace_pos (x : Float) : 0 < lastPlace x := by
  unfold lastPlace
  split
  all_goals positivity

theorem isFinite_of_shaped {sign : Sign} {x : Float} (shaped : Shaped sign x.toModel.unpack) :
    x.isFinite = true := by
  show x.toModel.unpack.isFinite = true
  cases unpacked : x.toModel.unpack with
  | zero s => rfl
  | finite s m e positive => rfl
  | _ =>
    rw [unpacked] at shaped
    contradiction

theorem value_of_shaped {sign : Sign} {x : Float} (shaped : Shaped sign x.toModel.unpack) :
    value x = directed sign (magnitude x.toModel.unpack) := by
  unfold value
  cases unpacked : x.toModel.unpack with
  | zero s => cases sign <;> simp [directed, magnitude]
  | finite s m e positive =>
    rw [unpacked] at shaped
    obtain ⟨rfl, -⟩ := shaped
    rfl
  | _ =>
    rw [unpacked] at shaped
    contradiction

theorem value_of_unpack {x : Float} {sign : Sign} {m : ℕ} {e : ℤ} {positive : 0 < m}
    (unpacked : x.toModel.unpack = .finite sign m e positive) :
    value x = directed sign (m * 2 ^ e) := by
  unfold value
  rw [unpacked]

theorem unpack_of_value {x : Float} (some : value x ≠ 0) :
    ∃ sign m e positive, x.toModel.unpack = .finite sign m e positive := by
  unfold value at some
  cases unpacked : x.toModel.unpack with
  | finite sign m e positive => exact ⟨sign, m, e, positive, rfl⟩
  | _ =>
    rw [unpacked] at some
    contradiction

theorem unpack_of_finite {x : Float} (finite : x.isFinite = true) :
    (∃ sign, x.toModel.unpack = .zero sign) ∨
      ∃ sign m e positive, x.toModel.unpack = .finite sign m e positive := by
  change x.toModel.unpack.isFinite = true at finite
  cases unpacked : x.toModel.unpack with
  | zero sign => exact .inl ⟨sign, rfl⟩
  | finite sign m e positive => exact .inr ⟨sign, m, e, positive, rfl⟩
  | _ =>
    rw [unpacked] at finite
    contradiction

theorem canonical_of_unpack {x : Float} {sign : Sign} {m : ℕ} {e : ℤ} {positive : 0 < m}
    (unpacked : x.toModel.unpack = .finite sign m e positive) :
    Canonical (.finite sign m e positive) := by
  rw [← unpacked]
  exact canonical_unpack _

section
variable {v f : Float} {sign : Sign} {m n : ℕ} {e d : ℤ} {mPositive : 0 < m} {nPositive : 0 < n}
  (first : v.toModel.unpack = .finite sign m e mPositive)
  (second : f.toModel.unpack = .finite .positive n d nPositive)
include first second

theorem exists_product : ∃ g, Rounds sign (m * 2 ^ e * (n * 2 ^ d)) g ∧
    (magnitude g < 2 ^ (1024 : ℤ) ∧ (v * f).toModel.unpack = g ∨
      2 ^ (1024 : ℤ) ≤ magnitude g ∧ (v * f).toModel.unpack = .infinity sign) := by
  have rounds := rounds_mul (canonical_of_unpack first) (canonical_of_unpack second)
  have product : (v * f).toModel.unpack = (pack (UnpackedFloat.mul .binary64
      v.toModel.unpack f.toModel.unpack)).unpack := rfl
  rw [product, first, second]
  generalize UnpackedFloat.mul .binary64 _ _ = g at rounds ⊢
  refine ⟨g, rounds, ?_⟩
  rcases lt_or_ge (magnitude g) (2 ^ (1024 : ℤ)) with small | large
  · exact .inl ⟨small, unpack_pack_of_shaped rounds.shaped small⟩
  · exact .inr ⟨large, unpack_pack_of_large rounds.shaped large⟩

theorem exists_quotient : ∃ h, Rounds sign (m * 2 ^ e / (n * 2 ^ d)) h ∧
    v / f = .ofModel (pack h) := by
  have quotient : v / f = .ofModel (pack (UnpackedFloat.div .binary64
      v.toModel.unpack f.toModel.unpack)) := rfl
  rw [quotient, first, second]
  exact ⟨_, rounds_div (canonical_of_unpack first) nPositive, rfl⟩

end

theorem mul_div_zero {v f : Float} (usable : Usable f) {sign : Sign}
    (zero : v.toModel.unpack = .zero sign) : v * f / f = v := by
  obtain ⟨n, d, positive, factor⟩ := unpack_of_usable usable
  have product : (v * f).toModel.unpack = .zero sign := by
    show (pack (UnpackedFloat.mul .binary64 v.toModel.unpack f.toModel.unpack)).unpack = _
    rw [zero, factor, UnpackedFloat.mul]
    cases sign <;> rfl
  refine Eq.trans ?_ (ofModel_pack_unpack v)
  show Float.ofModel (pack (UnpackedFloat.div .binary64 (v * f).toModel.unpack
    f.toModel.unpack)) = _
  rw [zero, product, factor, UnpackedFloat.div]
  cases sign <;> rfl

/-- What is a double has no other rounding. -/
theorem eq_of_rounds {v : Float} {sign : Sign} {m : ℕ} {e : ℤ} {positive : 0 < m}
    (unpacked : v.toModel.unpack = .finite sign m e positive) {h : UnpackedFloat}
    (rounds : Rounds sign (m * 2 ^ e) h) : .ofModel (pack h) = v := by
  obtain ⟨narrow, full, floor, -⟩ := canonical_of_unpack unpacked
  have same := rounds.exact m e ((Nat.log2_lt positive.ne').1 (by omega)) floor rfl
  have shaped : Shaped sign (.finite sign m e positive) := ⟨rfl, narrow, full, floor⟩
  rw [shaped_ext rounds.shaped shaped same, ← unpacked, ofModel_pack_unpack]

theorem mul_div_of_exact {v f : Float} (usable : Usable f) (finite : v.isFinite = true)
    (exact : value (v * f) = value v * value f) : v * f / f = v := by
  obtain ⟨n, d, nPositive, second⟩ := unpack_of_usable usable
  rcases unpack_of_finite finite with ⟨sign, first⟩ | ⟨sign, m, e, mPositive, first⟩
  · exact mul_div_zero usable first
  · have product : value (v * f) = directed sign (m * 2 ^ e * (n * 2 ^ d)) := by
      rw [exact, value_of_unpack first, value_of_unpack second, directed_mul]
      rfl
    have some : value (v * f) ≠ 0 := by
      rw [product, Ne, directed_eq_zero]
      positivity
    obtain ⟨sign', p, q, pPositive, unpacked⟩ := unpack_of_value some
    obtain ⟨g, rounds, ⟨-, rfl⟩ | ⟨-, large⟩⟩ := exists_product first second
    · have shaped := rounds.shaped
      rw [unpacked] at shaped
      obtain ⟨rfl, -⟩ := shaped
      rw [value_of_unpack unpacked, directed_inj] at product
      obtain ⟨h, again, quotient⟩ := exists_quotient unpacked second
      rw [product, mul_div_cancel_right₀ _ (by positivity)] at again
      rw [quotient, eq_of_rounds first again]
    · rw [unpacked] at large
      contradiction

theorem product_near {v f : Float} {sign : Sign} {m n : ℕ} {e d : ℤ} {mPositive : 0 < m}
    {nPositive : 0 < n} (first : v.toModel.unpack = .finite sign m e mPositive)
    (second : f.toModel.unpack = .finite .positive n d nPositive)
    (least : -1022 ≤ (m.log2 + e) + (n.log2 + d)) (most : (m.log2 + e) + (n.log2 + d) ≤ 1021) :
    ∃ p q pPositive, (v * f).toModel.unpack = .finite sign p q pPositive ∧
      |(p * 2 ^ q : ℚ) - m * 2 ^ e * (n * 2 ^ d)| ≤ m * 2 ^ e * (n * 2 ^ d) * 2 ^ (-53 : ℤ) ∧
      (m = 2 ^ 52 → (p * 2 ^ q : ℚ) = m * 2 ^ e * (n * 2 ^ d)) := by
  obtain ⟨low, high⟩ := product_bounds e d mPositive nPositive
  have normal := (zpow_le_zpow_right₀ (by norm_num) least).trans low
  have half := high.trans_le (zpow_le_zpow_right₀ (n := 1023) (by norm_num) (by omega))
  obtain ⟨g, rounds, packed⟩ := exists_product first second
  obtain ⟨near, some, twice⟩ := near_of_normal rounds normal
  rcases packed with ⟨-, packed⟩ | ⟨large, -⟩
  · cases g with
    | finite s p q pPositive =>
      obtain ⟨rfl, -⟩ := rounds.shaped
      refine ⟨p, q, pPositive, packed, near, ?_⟩
      -- The bits of the factor are those of the product as well.
      rintro rfl
      rw [Nat.log2_two_pow] at least
      have narrow := (canonical_of_unpack second).1
      refine rounds.exact n (52 + (e + d)) ((Nat.log2_lt nPositive.ne').1 (by omega)) (by omega) ?_
      rw [zpow_add₀ (by norm_num), zpow_add₀ (by norm_num)]
      push_cast
      ring
    | _ => exact absurd some (lt_irrefl 0)
  · have double : (2 : ℚ) ^ (1024 : ℤ) = 2 ^ (1023 : ℤ) * 2 := zpow_add_one₀ (by norm_num) 1023
    have small := twice.trans (mul_lt_mul_of_pos_right half two_pos)
    exact absurd large (double ▸ small.not_ge)

theorem lt_of_within_place {m : ℕ} {e : ℤ} {x : ℚ} (positive : 0 < m)
    (small : m.log2 + e ≤ 1022) (place : |x - m * 2 ^ e| ≤ 2 ^ e) : x < 2 ^ (1024 : ℤ) := by
  have most : (m * 2 ^ e : ℚ) < 2 ^ (1023 : ℤ) :=
    (lt_pow_log2 m e).trans_le (zpow_le_zpow_right₀ (by norm_num) (by omega))
  calc x ≤ m * 2 ^ e + 2 ^ e := by linarith [(abs_le.1 place).2]
    _ ≤ m * 2 ^ e + m * 2 ^ e := by
        gcongr
        exact le_mul_of_one_le_left (by positivity) (by exact_mod_cast positive)
    _ < 2 ^ (1023 : ℤ) + 2 ^ (1023 : ℤ) := by gcongr
    _ = 2 ^ (1024 : ℤ) := by
        rw [← mul_two]
        exact (zpow_add_one₀ (by norm_num) 1023).symm

theorem quotient_near {v : Float} {sign : Sign} {m : ℕ} {e : ℤ} {positive : 0 < m}
    (unpacked : v.toModel.unpack = .finite sign m e positive) {factor product : ℚ}
    {h : UnpackedFloat} (some : 0 < factor) (rounds : Rounds sign (product / factor) h)
    (near : |product - m * 2 ^ e * factor| ≤ m * 2 ^ e * factor * 2 ^ (-53 : ℤ))
    (power : m = 2 ^ 52 → product = m * 2 ^ e * factor) : |magnitude h - m * 2 ^ e| ≤ 2 ^ e := by
  have canonical := canonical_of_unpack unpacked
  refine within_place canonical rounds.shaped ?_ rounds.near ?_
  · have off : product / factor - m * 2 ^ e = (product - m * 2 ^ e * factor) / factor := by
      field_simp
    rw [off, abs_div, abs_of_pos some, div_le_iff₀ some]
    exact near.trans_eq (mul_right_comm _ _ _)
  · intro full
    rw [power full, mul_div_cancel_right₀ _ some.ne'] at rounds
    obtain ⟨narrow, -, floor, -⟩ := canonical
    exact rounds.exact m e ((Nat.log2_lt positive.ne').1 (by omega)) floor rfl

theorem mul_div_near {v f : Float} (usable : Usable f) (finite : v.isFinite = true)
    (small : order v ≤ 1022) (least : -1022 ≤ order v + order f)
    (most : order v + order f ≤ 1021) :
    (v * f / f).isFinite = true ∧ |value (v * f / f) - value v| ≤ lastPlace v := by
  obtain ⟨n, d, nPositive, second⟩ := unpack_of_usable usable
  rcases unpack_of_finite finite with ⟨sign, first⟩ | ⟨sign, m, e, mPositive, first⟩
  · rw [mul_div_zero usable first, sub_self, abs_zero]
    exact ⟨finite, (lastPlace_pos v).le⟩
  · rw [order_of_unpack first] at small least most
    rw [order_of_unpack second] at least most
    obtain ⟨p, q, pPositive, product, near, power⟩ := product_near first second least most
    obtain ⟨h, rounds, quotient⟩ := exists_quotient product second
    have place := quotient_near first (by positivity) rounds near power
    have result : (v * f / f).toModel.unpack = h := by
      rw [quotient]
      exact unpack_pack_of_shaped rounds.shaped (lt_of_within_place mPositive small place)
    have shaped := rounds.shaped
    rw [← result] at shaped place
    constructor
    · exact isFinite_of_shaped shaped
    · have last : lastPlace v = 2 ^ e := by
        unfold lastPlace
        rw [first]
      rwa [value_of_shaped shaped, value_of_unpack first, abs_directed_sub, last]

/-- A product that is too large for a double stays infinite. -/
theorem mul_div_large {v f : Float} (usable : Usable f) (finite : v.isFinite = true)
    (large : 1024 ≤ order v + order f) : (v * f / f).isInf = true := by
  obtain ⟨n, d, nPositive, second⟩ := unpack_of_usable usable
  obtain ⟨narrow', full', -, most⟩ := canonical_of_unpack second
  rw [order_of_unpack second] at large
  rcases unpack_of_finite finite with ⟨sign, first⟩ | ⟨sign, m, e, mPositive, first⟩
  · have none : order v = 0 := by
      unfold order
      rw [first]
    omega
  · obtain ⟨narrow, full, -, -⟩ := canonical_of_unpack first
    rw [order_of_unpack first] at large
    have size := log2_mul mPositive nPositive
    have shape : 52 ≤ (m * n).log2 ∨ e + d ≤ -1074 := by omega
    obtain ⟨k, g, whole, rounded, bits, -, -, grown, -⟩ :=
      round_near sign (Nat.mul_pos mPositive nPositive) shape (by omega)
    have infinite := pack_large sign whole (show 972 ≤ g by omega)
    have product : (v * f).toModel.unpack = .infinity sign := by
      show (pack (UnpackedFloat.mul .binary64 v.toModel.unpack f.toModel.unpack)).unpack = _
      rw [first, second, UnpackedFloat.mul, sign_mul_positive, rounded, ← unpack_pack_infinity sign]
      simp only [Float.Model.pack, infinite]
    show (pack (UnpackedFloat.div .binary64 (v * f).toModel.unpack
      f.toModel.unpack)).unpack.isInf = true
    rw [product, second, UnpackedFloat.div, unpack_pack_infinity]
    rfl

theorem mul_div_spoiled {v f : Float} (unusable : ¬Usable f)
    (unsigned : f.isFinite = true → NonNegative f) : (v * f / f).isNaN = true := by
  rw [usable_iff] at unusable
  rw [nonNegative_iff] at unsigned
  change f.toModel.unpack.isFinite = true → _ at unsigned
  show (pack (UnpackedFloat.div .binary64 (pack (UnpackedFloat.mul .binary64 v.toModel.unpack
    f.toModel.unpack)).unpack f.toModel.unpack)).unpack.isNaN = true
  generalize f.toModel.unpack = factor at unusable unsigned ⊢
  have none : UnpackedFloat.div .binary64 (pack (UnpackedFloat.mul .binary64 v.toModel.unpack
      factor)).unpack factor = .notANumber := by
    cases factor with
    | finite sign n d positive => exact absurd (unsigned rfl) unusable
    | notANumber =>
      cases v.toModel.unpack <;>
        simp only [UnpackedFloat.mul, unpack_pack_notANumber, UnpackedFloat.div]
    | zero sign =>
      cases v.toModel.unpack <;>
        simp only [UnpackedFloat.mul, unpack_pack_notANumber, unpack_pack_zero, UnpackedFloat.div]
    | infinity sign =>
      cases v.toModel.unpack <;>
        simp only [UnpackedFloat.mul, unpack_pack_notANumber, unpack_pack_infinity,
          UnpackedFloat.div]
  rw [none]
  rfl

theorem regained_of_unsigned (v : Float) {f : Float}
    (unsigned : f.isFinite = true → NonNegative f) : Regained v f where
  exact := mul_div_of_exact
  near := mul_div_near
  lost := mul_div_large
  spoiled unusable := mul_div_spoiled unusable unsigned

theorem nonNegative_div {x y : Float} (first : NonNegative x) (second : NonNegative y)
    (finite : (x / y).isFinite = true) : NonNegative (x / y) := by
  rw [nonNegative_iff] at first second ⊢
  change (pack (UnpackedFloat.div .binary64 x.toModel.unpack
    y.toModel.unpack)).unpack.isFinite = true at finite
  show NonNegativeForm (pack (UnpackedFloat.div .binary64 x.toModel.unpack y.toModel.unpack)).unpack
  generalize x.toModel.unpack = dividend, y.toModel.unpack = divisor at *
  cases divisor with
  | finite sign n d positive => exact nonNegative_pack (nonNegative_div_form _ first second)
  | notANumber => contradiction
  | zero sign =>
    cases dividend with
    | notANumber => contradiction
    | _ =>
      simp only [UnpackedFloat.div, unpack_pack_infinity, unpack_pack_notANumber] at finite
      contradiction
  | infinity sign =>
    cases dividend with
    | notANumber => contradiction
    | infinity s =>
      simp only [UnpackedFloat.div, unpack_pack_notANumber] at finite
      contradiction
    | _ =>
      simp only [UnpackedFloat.div, unpack_pack_zero]
      trivial

end Number

namespace Measurement.UnitSystem
open Number

theorem regained_of_ratio {u : UnitSystem Float} (reached : u.Reached) {spec : String}
    {r : Ratio Float} (read : u.ratio spec = .ok r) (v : Float) : Regained v r.factor := by
  obtain ⟨_, _, above, below⟩ := ratio_eq_ok.1 read
  refine regained_of_unsigned v (nonNegative_div ?_ ?_)
  · exact nonNegative_factor reached (resolveSide_eq_ok.1 above).1
  · exact nonNegative_factor reached (resolveSide_eq_ok.1 below).1

section
variable {α : Type} [Amount α] {u : UnitSystem α} {a b : String}

theorem convert_same_whole {unit : Definition α} (first : isRatioName a = false)
    (second : isRatioName b = false) (found : u.resolve a = .ok unit)
    (again : u.resolve b = .ok unit) (v : α) : u.convert v a b = .ok v :=
  (convert_whole_eq_ok (by rw [first, second]; rfl)).2 ⟨_, _, found, again, rfl, if_pos rfl⟩

theorem convert_same_ratio {r : Ratio α} (first : isRatioName a = true)
    (second : isRatioName b = true) (read : u.ratio a = .ok r) (again : u.ratio b = .ok r) (v : α) :
    u.convert v a b = .ok (v * r.factor / r.factor) := by
  have source := (rate_written first).2 ⟨r, read, rfl⟩
  have target := (rate_written second).2 ⟨r, again, rfl⟩
  rw [convert_written (by rw [first, Bool.true_or])]
  exact convertRate_eq_ok.2 ⟨_, _, source, target, rfl, rfl⟩

end

/-- Between two spellings of a unit that is written whole, every amount stays as it is. Between two
    spellings of a ratio it is multiplied by the factor of the ratio and divided by it again, which
    does not always give the same amount. -/
theorem convert_within_unit {u : UnitSystem Float} (reached : u.Reached) {a b : String}
    (synonymous : u.Synonymous a b) :
    (isRatioName a = false → ∀ v, u.convert v a b = .ok v) ∧
      (isRatioName a = true → ∃ r, u.ratio a = .ok r ∧ ∀ v,
        u.convert v a b = .ok (v * r.factor / r.factor) ∧ Regained v r.factor) := by
  cases sameUnit_of_synonymous (named_of_reached reached) synonymous with
  | whole first second found again =>
    constructor
    · intro _ v
      exact convert_same_whole first second found again v
    · intro written
      exact absurd written (Bool.eq_false_iff.1 first)
  | ratio first second read again =>
    constructor
    · intro whole
      exact absurd first (Bool.eq_false_iff.1 whole)
    · intro _
      refine ⟨_, read, fun v => ⟨?_, regained_of_ratio reached read v⟩⟩
      exact convert_same_ratio first second read again v

def kilometresPerHour : Ratio Float :=
  ⟨⟨"km", .length, .linear 1000⟩, ⟨"h", .time, .linear 3600⟩⟩

theorem convert_within_speed :
    let u : UnitSystem Float := .standard
    u.Reached ∧ u.Synonymous "km/h" "KM/hours" ∧ u.convert 32 "km/h" "KM/hours" = .ok 32 ∧
      ∃ w, u.convert 29 "km/h" "KM/hours" = .ok w ∧ |value w - value 29| ≤ lastPlace 29 := by
  intro u
  obtain ⟨first, second, written, ratio⟩ : u.canonicalName "km/h" = .ok "km/h" ∧
      u.canonicalName "KM/hours" = .ok "km/h" ∧ isRatioName "km/h" = true ∧
      u.ratio "km/h" = .ok kilometresPerHour := by
    decide +kernel
  obtain ⟨usable, finite, exact, finite', small, least, most⟩ :
      Usable kilometresPerHour.factor ∧ Float.isFinite 32 = true ∧
        value (32 * kilometresPerHour.factor) = value 32 * value kilometresPerHour.factor ∧
        Float.isFinite 29 = true ∧ order 29 ≤ 1022 ∧
        -1022 ≤ order 29 + order kilometresPerHour.factor ∧
        order 29 + order kilometresPerHour.factor ≤ 1021 := by
    decide +kernel
  have synonymous : u.Synonymous "km/h" "KM/hours" := ⟨_, first, second⟩
  obtain ⟨r, read, each⟩ := (convert_within_unit .standard synonymous).2 written
  obtain rfl := Except.ok.inj (ratio.symm.trans read)
  obtain ⟨kept, regained⟩ := each 32
  obtain ⟨moved, regained'⟩ := each 29
  rw [regained.exact usable finite exact] at kept
  exact ⟨.standard, synonymous, kept, _, moved,
    (regained'.near usable finite' small least most).2⟩

/-- What was 29 before is less afterwards. -/
theorem convert_within_speed_differs :
    let u : UnitSystem Float := .standard
    u.Reached ∧ u.canonicalName "km/h" = .ok "km/h" ∧ Float.isFinite 29 = true ∧
      u.convert 29 "km/h" "km/h" = .ok 28.999999999999996 ∧ (28.999999999999996 : Float) < 29 := by
  refine ⟨.standard, ?_⟩
  decide +kernel

end Measurement.UnitSystem

end NotepadCalculator
