import NotepadCalculator.Proofs.DoubleSigns

/-!
Orders of magnitude of doubles. A product of two usable numbers is as large as both together, up to
a factor of four, unless that lies outside of what doubles can hold.
-/
namespace NotepadCalculator.Number
open Float.Model UnpackedFloat

/-- The number lies between the power of two with this exponent and the next one. -/
def order (x : Float) : Int :=
  match x.toModel.unpack with
  | .finite _ mantissa exponent _ => mantissa.log2 + exponent
  | _ => 0

theorem order_of_unpack {x : Float} {sign : Sign} {m : Nat} {e : Int} {positive : 0 < m}
    (unpacked : x.toModel.unpack = .finite sign m e positive) : order x = m.log2 + e := by
  unfold order
  rw [unpacked]

/-! The highest bit of a product, of a shifted number, and of one that carries. -/

theorem log2_mul {m n : Nat} (first : 0 < m) (second : 0 < n) :
    m.log2 + n.log2 ≤ (m * n).log2 ∧ (m * n).log2 ≤ m.log2 + n.log2 + 1 := by
  have whole : m * n ≠ 0 := (Nat.mul_pos first second).ne'
  constructor
  · rw [Nat.le_log2 whole, Nat.pow_add]
    exact Nat.mul_le_mul (Nat.log2_self_le first.ne') (Nat.log2_self_le second.ne')
  · rw [← Nat.lt_succ_iff, Nat.log2_lt whole]
    calc m * n < 2 ^ (m.log2 + 1) * 2 ^ (n.log2 + 1) :=
          Nat.mul_lt_mul'' Nat.lt_log2_self Nat.lt_log2_self
      _ = 2 ^ (m.log2 + n.log2 + 1).succ := by rw [← Nat.pow_add]; congr 1; omega

theorem log2_near {q r : Nat} (positive : 0 < q) (least : q ≤ r) (most : r ≤ q + 1) :
    q.log2 ≤ r.log2 ∧ r.log2 ≤ q.log2 + 1 := by
  have whole : r ≠ 0 := by omega
  constructor
  · rw [Nat.le_log2 whole]
    exact Nat.le_trans (Nat.log2_self_le positive.ne') least
  · rw [← Nat.lt_succ_iff, Nat.log2_lt whole]
    have below := Nat.lt_log2_self (n := q)
    omega

theorem log2_div (m n : Nat) : (m / 2 ^ n).log2 = m.log2 - n := by
  simp only [Nat.log2_eq_log_two, Nat.log_div_base_pow]

theorem div_pos_of_log2 {m n : Nat} (positive : 0 < m) (within : n ≤ m.log2) : 0 < m / 2 ^ n :=
  Nat.div_pos ((Nat.le_log2 positive.ne').1 within) (Nat.two_pow_pos n)

theorem log2_le_52 {m : Nat} (narrow : m < 2 ^ 53) : m.log2 ≤ 52 := by
  by_cases none : m = 0
  · subst none
    decide
  · exact Nat.lt_succ_iff.1 ((Nat.log2_lt none).2 narrow)

/-! Rounding. -/

theorem mantissa_shift (em : ExtendedMantissa) (n : Nat) :
    (em >>> n).mantissa = em.mantissa / 2 ^ n := by
  show (n.repeat ExtendedMantissa.shiftRightOne em).mantissa = _
  induction n with
  | zero => simp [Nat.repeat]
  | succ n ih =>
    rw [Nat.repeat, ExtendedMantissa.shiftRightOne, ih, Nat.div_div_eq_div_mul, Nat.pow_succ]

theorem roundedMantissa_near (em : ExtendedMantissa) :
    em.mantissa ≤ em.roundedMantissa ∧ em.roundedMantissa ≤ em.mantissa + 1 := by
  unfold ExtendedMantissa.roundedMantissa
  cases em.accuracy with
  | exact => simp [Accuracy.roundToNearestEven]
  | inexact half =>
    cases half
    all_goals
      simp only [Accuracy.roundToNearestEven]
      omega

def excess (m : Nat) (e : Int) : Nat := (max ((m.log2 : Int) + e - 52) (-1074) - e).toNat

theorem shiftToTargetExponent_excess (m : Nat) (e : Int) (accuracy : Accuracy) :
    shiftToTargetExponent .binary64 m e accuracy =
      (ExtendedMantissa.ofMantissaAndAccuracy m accuracy >>> excess m e, e + excess m e) := by
  have target : Format.binary64.targetExponent (totalExponent m e) =
      max ((m.log2 : Int) + e - 52) (-1074) := by
    show max ((m.log2 : Int) + 1 + e - 53) (-1074) = _
    omega
  simp only [shiftToTargetExponent, shiftToExponent, target, excess]

/-- Bits are dropped twice, the second time only where rounding has carried. -/
theorem roundWithAccuracy_eq {sign : Sign} {m r : Nat} {e d : Int} {accuracy : Accuracy}
    (rounded :
      (ExtendedMantissa.ofMantissaAndAccuracy m accuracy >>> excess m e).roundedMantissa = r)
    (exponent : e + excess m e = d) :
    roundWithAccuracy .binary64 sign m e accuracy =
      if none : r / 2 ^ excess r d = 0 then .zero sign
      else .finite sign (r / 2 ^ excess r d) (d + excess r d) (Nat.pos_of_ne_zero none) := by
  subst rounded exponent
  simp only [roundWithAccuracy, shiftToTargetExponent_excess, mantissa_shift]
  rfl

/-- What is precise enough, and large enough to be told from zero, is rounded to a number in the
shape of doubles that is at most one order larger. -/
theorem round_near (sign : Sign) {m : Nat} {e : Int} (positive : 0 < m)
    (precise : 52 ≤ m.log2 ∨ e ≤ -1074) (least : -1074 ≤ m.log2 + e) :
    ∃ n d whole, roundWithAccuracy .binary64 sign m e .exact = .finite sign n d whole ∧
      n.log2 ≤ 52 ∧ -1074 ≤ d ∧ (n.log2 = 52 ∨ d = -1074) ∧
      m.log2 + e ≤ n.log2 + d ∧ n.log2 + d ≤ m.log2 + e + 1 := by
  obtain ⟨r, rounded⟩ : ∃ r,
    (ExtendedMantissa.ofMantissaAndAccuracy m .exact >>> excess m e).roundedMantissa = r := ⟨_, rfl⟩
  have near :=
    roundedMantissa_near (ExtendedMantissa.ofMantissaAndAccuracy m .exact >>> excess m e)
  rw [rounded, mantissa_shift] at near
  change m / _ ≤ r ∧ r ≤ m / _ + 1 at near
  have kept : excess m e ≤ m.log2 := by
    unfold excess
    omega
  have some := div_pos_of_log2 positive kept
  have size := log2_near some near.1 near.2
  rw [log2_div] at size
  have again : excess r (e + excess m e) ≤ r.log2 := by
    unfold excess at size ⊢
    omega
  have whole : 0 < r / 2 ^ excess r (e + excess m e) := div_pos_of_log2 (by omega) again
  refine ⟨_, _, whole, (roundWithAccuracy_eq rounded rfl).trans (dif_neg whole.ne'), ?_⟩
  rw [log2_div]
  unfold excess at size again ⊢
  omega

/-! Packing and unpacking. -/

/-- The shape of an unpacked double: all 53 bits of the mantissa are used, unless the exponent is
the least. -/
def Canonical : UnpackedFloat → Prop
  | .finite _ m e _ => m.log2 ≤ 52 ∧ (m.log2 = 52 ∨ e = -1074) ∧ -1074 ≤ e ∧ e ≤ 971
  | _ => True

theorem toNat_implicit (mantissa : BitVec 52) :
    (1#1 ++ mantissa).toNat = 2 ^ 52 + mantissa.toNat := by
  rw [BitVec.toNat_append, ← Nat.shiftLeft_add_eq_or_of_lt mantissa.isLt]
  rfl

theorem ofNat_ne_zero {width n : Nat} (positive : 0 < n) (small : n < 2 ^ width) :
    BitVec.ofNat width n ≠ BitVec.ofNat width 0 := by
  intro same
  have values := congrArg BitVec.toNat same
  rw [BitVec.toNat_ofNat, BitVec.toNat_ofNat, Nat.mod_eq_of_lt small, Nat.zero_mod] at values
  omega

theorem canonical_unpack (bits : BitVec 64) :
    Canonical (UnpackedFloat.unpack .binary64 bits) := by
  have low := (@unpackExponent .binary64 bits).isLt
  have bias : (Format.binary64.exponentBias : Int) = 1023 := rfl
  have wide : (2 : Nat) ^ Format.binary64.exponentBits = 2048 := rfl
  simp only [UnpackedFloat.unpack]
  rw [wide] at low
  split
  · split <;> trivial
  rename_i notOnes
  split
  · rename_i none
    have exponent : (@unpackExponent .binary64 bits).toNat = 0 := by rw [none]; rfl
    split
    · trivial
    · refine ⟨log2_le_52 (by omega), .inr ?_, ?_, ?_⟩ <;> omega
  · rename_i notNone
    have notOnes : (@unpackExponent .binary64 bits).toNat ≠ 2047 := fun same =>
      notOnes (BitVec.eq_of_toNat_eq same)
    have notNone : (@unpackExponent .binary64 bits).toNat ≠ 0 := fun same =>
      notNone (BitVec.eq_of_toNat_eq same)
    have mantissa := toNat_implicit (@unpackMantissa .binary64 bits)
    have full : (1#1 ++ @unpackMantissa .binary64 bits).toNat.log2 = 52 :=
      (Nat.log2_eq_iff (by omega)).2 (by omega)
    refine ⟨full.le, .inl full, ?_, ?_⟩ <;> omega

theorem unpack_normal {sign : Sign} {m : Nat} {e : Int} (positive : 0 < m) (full : m.log2 = 52)
    (least : -1074 ≤ e) (most : e ≤ 971) :
    UnpackedFloat.unpack .binary64 (packComponents .binary64 sign
      (.ofNat 11 (e + 1075).toNat) (.ofNat 52 m)) = .finite sign m e positive := by
  have bias : (Format.binary64.exponentBias : Int) = 1023 := rfl
  have size := (Nat.log2_eq_iff positive.ne').1 full
  have exponent : (BitVec.ofNat 11 (e + 1075).toNat).toNat = (e + 1075).toNat := by
    rw [BitVec.toNat_ofNat]
    omega
  have mantissa : (1#1 ++ BitVec.ofNat 52 m).toNat = m := by
    rw [toNat_implicit, BitVec.toNat_ofNat]
    omega
  simp only [UnpackedFloat.unpack, unpackMantissa_packComponents, unpackExponent_packComponents,
    unpackSign_packComponents, Sign.ofBitVec_toBitVec]
  rw [if_neg (ofNat_ne_ones (by omega)), if_neg (ofNat_ne_zero (by omega) (by omega))]
  simp only [mantissa, exponent, bias]
  congr 1
  omega

theorem unpack_subnormal {sign : Sign} {m : Nat} (positive : 0 < m) (partly : m < 2 ^ 52) :
    UnpackedFloat.unpack .binary64 (packComponents .binary64 sign 0 (.ofNat 52 m)) =
      .finite sign m (-1074) positive := by
  have bias : (Format.binary64.exponentBias : Int) = 1023 := rfl
  have mantissa : (BitVec.ofNat 52 m).toNat = m := by
    rw [BitVec.toNat_ofNat]
    omega
  simp only [UnpackedFloat.unpack, unpackMantissa_packComponents, unpackExponent_packComponents,
    unpackSign_packComponents, Sign.ofBitVec_toBitVec]
  rw [if_neg (by decide), if_pos (show (0 : BitVec 11) = 0#11 from rfl),
    dif_neg (ofNat_ne_zero positive partly)]
  simp only [mantissa, bias]
  congr 1

theorem pack_normal {sign : Sign} {m : Nat} {e : Int} {positive : 0 < m} (full : m.log2 = 52)
    (least : -1074 ≤ e) (most : e ≤ 971) :
    UnpackedFloat.pack .binary64 (.finite sign m e positive) = packComponents .binary64 sign
      (.ofNat 11 (e + 1075).toNat) (.ofNat 52 m) := by
  have wide : (2 : Nat) ^ Format.binary64.exponentBits = 2048 := rfl
  have bias : (Format.binary64.exponentBias : Int) = 1023 := rfl
  have stored : (Format.binary64.mantissaBitsWithoutImplicit : Int) = 52 := rfl
  have biased : (e + Format.binary64.exponentBias +
      Format.binary64.mantissaBitsWithoutImplicit).toNat = (e + 1075).toNat := by omega
  have bits : Format.binary64.mantissaBits = 53 := rfl
  simp only [UnpackedFloat.pack, wide, biased, bits, full]
  rw [if_neg (by omega), if_pos trivial]

theorem pack_large (sign : Sign) {m : Nat} {e : Int} (positive : 0 < m) (large : 972 ≤ e) :
    UnpackedFloat.pack .binary64 (.finite sign m e positive) =
      UnpackedFloat.pack .binary64 (.infinity sign) := by
  have wide : (2 : Nat) ^ Format.binary64.exponentBits = 2048 := rfl
  have bias : (Format.binary64.exponentBias : Int) = 1023 := rfl
  have stored : (Format.binary64.mantissaBitsWithoutImplicit : Int) = 52 := rfl
  simp only [UnpackedFloat.pack]
  rw [if_pos (by omega)]

theorem pack_subnormal {sign : Sign} {m : Nat} {positive : 0 < m} (partly : m < 2 ^ 52) :
    UnpackedFloat.pack .binary64 (.finite sign m (-1074) positive) =
      packComponents .binary64 sign 0 (.ofNat 52 m) := by
  have wide : (2 : Nat) ^ Format.binary64.exponentBits = 2048 := rfl
  have bits : Format.binary64.mantissaBits = 53 := rfl
  have short := (Nat.log2_lt positive.ne').2 partly
  simp only [UnpackedFloat.pack, wide, bits]
  rw [if_neg (by decide), if_neg (by omega)]
  rfl

theorem unpack_pack {sign : Sign} {m : Nat} {e : Int} {positive : 0 < m}
    (canonical : Canonical (.finite sign m e positive)) :
    (pack (.finite sign m e positive)).unpack = .finite sign m e positive := by
  obtain ⟨narrow, full, least, most⟩ := canonical
  show UnpackedFloat.unpack .binary64 (UnpackedFloat.pack .binary64 _) = _
  by_cases normal : m.log2 = 52
  · rw [pack_normal normal least most]
    exact unpack_normal positive normal least most
  · obtain rfl : e = -1074 := by omega
    have partly : m < 2 ^ 52 := (Nat.log2_lt positive.ne').1 (by omega)
    rw [pack_subnormal partly]
    exact unpack_subnormal positive partly

/-- A double is what its unpacked form is packed to. -/
theorem ofModel_pack_unpack (x : Float) : Float.ofModel (pack x.toModel.unpack) = x := by
  obtain ⟨⟨bits, valid⟩⟩ := x
  have same : UnpackedFloat.pack .binary64 (UnpackedFloat.unpack .binary64 bits.toBitVec) =
      bits.toBitVec := pack_unpack_of_valid valid
  simp only [Float.Model.pack, Float.Model.unpack, same]

/-! Products. -/

theorem usable_mul {x y : Float} (first : Usable x) (second : Usable y)
    (least : -1074 ≤ order x + order y) (most : order x + order y ≤ 1021) :
    Usable (x * y) ∧ order x + order y ≤ order (x * y) ∧
      order (x * y) ≤ order x + order y + 2 := by
  obtain ⟨m, e, mPositive, xUnpacked⟩ := unpack_of_usable first
  obtain ⟨n, d, nPositive, yUnpacked⟩ := unpack_of_usable second
  have xShape : Canonical x.toModel.unpack := canonical_unpack _
  have yShape : Canonical y.toModel.unpack := canonical_unpack _
  rw [xUnpacked] at xShape
  rw [yUnpacked] at yShape
  rw [order_of_unpack xUnpacked, order_of_unpack yUnpacked] at least most ⊢
  have size := log2_mul mPositive nPositive
  obtain ⟨-, xFull, -, -⟩ := xShape
  obtain ⟨-, yFull, -, -⟩ := yShape
  obtain ⟨k, f, whole, rounded, narrow, floor, full, near⟩ :=
    round_near .positive (e := e + d) (Nat.mul_pos mPositive nPositive) (by omega) (by omega)
  have canonical : Canonical (.finite .positive k f whole) := ⟨narrow, full, floor, by omega⟩
  have product : (x * y).toModel.unpack = .finite .positive k f whole := by
    show (pack (UnpackedFloat.mul .binary64 x.toModel.unpack y.toModel.unpack)).unpack = _
    rw [xUnpacked, yUnpacked]
    show (pack (roundWithAccuracy .binary64 .positive (m * n) (e + d) .exact)).unpack = _
    rw [rounded, unpack_pack canonical]
  constructor
  · rw [usable_iff, product]
    rfl
  · rw [order_of_unpack product]
    omega

end NotepadCalculator.Number
