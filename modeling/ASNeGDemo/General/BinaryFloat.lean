import Mathlib

/-!
Integers in the binary floating point formats of IEEE 754, in Lean's own model of them. What
fits into the mantissa is exact and stays exact: sums of such integers and products with one or
minus one are not rounded, neither is a conversion between two formats, and comparisons are those
of the integers. A product of zero keeps a sign; a sum of opposite numbers is the positive zero.
-/
namespace BinaryFloat

open Float.Model (Format UnpackedFloat totalExponent)
open Float.Model.UnpackedFloat hiding round

/-! ### Exact roundings -/

/-- A mantissa that is shifted out by zeros only. -/
theorem shiftRight_exact (m k : ℕ) :
    (⟨m * 2 ^ k, false, false⟩ : ExtendedMantissa) >>> k = ⟨m, false, false⟩ := by
  change k.repeat ExtendedMantissa.shiftRightOne _ = _
  induction k generalizing m with
  | zero => rw [pow_zero, mul_one]; rfl
  | succ k ih =>
    rw [pow_succ', ← mul_assoc, Nat.repeat, ih]
    simp [ExtendedMantissa.shiftRightOne]

theorem log2_mul_two_pow {n : ℕ} (hn : n ≠ 0) (t : ℕ) : (n * 2 ^ t).log2 = n.log2 + t := by
  have hscaled : n * 2 ^ t ≠ 0 := by positivity
  rw [Nat.log2_eq_iff hscaled, pow_add, Nat.add_right_comm, pow_add _ _ t]
  obtain ⟨hlow, hhigh⟩ := (Nat.log2_eq_iff hn).mp rfl
  exact ⟨Nat.mul_le_mul_right _ hlow, Nat.mul_lt_mul_of_pos_right hhigh (by positivity)⟩

theorem totalExponent_scaled {n : ℕ} (hn : n ≠ 0) (t : ℕ) :
    totalExponent (n * 2 ^ t) (-t) = n.log2 + 1 := by
  rw [totalExponent, log2_mul_two_pow hn]
  push_cast
  ring

/-- The mantissa of the format has no more bits than its least normal exponent allows; so have the
interchange formats. -/
def Ranged (spec : Format) : Prop := spec.mantissaBitsWithoutImplicit ≤ spec.exponentBias

theorem ranged_binary32 : Ranged .binary32 := by
  unfold Ranged
  decide

theorem ranged_binary64 : Ranged .binary64 := by
  unfold Ranged
  decide

/-- The bits by which a mantissa is shifted to fill the format. -/
def scale (spec : Format) (n : ℕ) : ℕ := spec.mantissaBits - (n.log2 + 1)

variable {spec : Format} {n : ℕ}

theorem exponentBias_eq (spec : Format) :
    (spec.exponentBias : ℤ) = 2 ^ (spec.exponentBits - 1) - 1 := by
  unfold Format.exponentBias
  have hpos : 1 ≤ 2 ^ (spec.exponentBits - 1) := Nat.one_le_two_pow
  push_cast [hpos]
  rfl

/-- The exponent that belongs to the integer. -/
theorem targetExponent_integer (h : Ranged spec) (hbits : n.log2 < spec.mantissaBits) :
    spec.targetExponent (n.log2 + 1) = -(scale spec n : ℤ) := by
  have hbias := exponentBias_eq spec
  have hmantissa := spec.hm
  have hranged : (spec.mantissaBitsWithoutImplicit : ℤ) ≤ spec.exponentBias := by
    exact_mod_cast h
  unfold Format.targetExponent Format.minExponent scale
  unfold Format.mantissaBits at hbits ⊢
  omega

/-- The integer with a full mantissa. -/
def integer (spec : Format) (s : Sign) (n : ℕ) (hn : 0 < n) : UnpackedFloat :=
  .finite s (n * 2 ^ scale spec n) (-(scale spec n : ℤ)) (by positivity)

section Rounding

variable (h : Ranged spec) (s : Sign) (hn : 0 < n) (hbits : n.log2 < spec.mantissaBits)
include h hn hbits

theorem shiftToTargetExponent_scaled {t : ℕ} (ht : scale spec n ≤ t) :
    shiftToTargetExponent spec (n * 2 ^ t) (-t) .exact =
      (⟨n * 2 ^ scale spec n, false, false⟩, -(scale spec n : ℤ)) := by
  have hsplit : n * 2 ^ t = n * 2 ^ scale spec n * 2 ^ (t - scale spec n) := by
    rw [mul_assoc, ← pow_add, Nat.add_sub_of_le ht]
  have hamount : (-(scale spec n : ℤ) - -(t : ℤ)).toNat = t - scale spec n := by omega
  unfold shiftToTargetExponent shiftToExponent
  rw [totalExponent_scaled hn.ne', targetExponent_integer h hbits]
  dsimp only [ExtendedMantissa.ofMantissaAndAccuracy]
  rw [hamount, hsplit, shiftRight_exact]
  exact Prod.ext rfl (by omega)

/-- Bits behind the mantissa that are all zero are rounded away without loss. -/
theorem roundWithAccuracy_scaled {t : ℕ} (ht : scale spec n ≤ t) :
    roundWithAccuracy spec s (n * 2 ^ t) (-t) .exact = integer spec s n hn := by
  have hpos : n * 2 ^ scale spec n ≠ 0 := by positivity
  have hfirst := shiftToTargetExponent_scaled h hn hbits ht
  have hsecond := shiftToTargetExponent_scaled h hn hbits le_rfl
  unfold roundWithAccuracy
  simp only [hfirst, ExtendedMantissa.roundedMantissa, ExtendedMantissa.accuracy,
    Accuracy.roundToNearestEven, hsecond, hpos, dite_false]
  rfl

/-- However many zeros it is written with, an integer that fits is rounded to itself. -/
theorem round_scaled (t : ℕ) :
    UnpackedFloat.round spec s (n * 2 ^ t) (-t) = integer spec s n hn := by
  unfold UnpackedFloat.round decreaseExponent
  rw [totalExponent_scaled hn.ne', targetExponent_integer h hbits]
  have hamount : (-(t : ℤ) - -(scale spec n : ℤ)).toNat = scale spec n - t := by omega
  have hexponent : -(t : ℤ) - (scale spec n - t : ℕ) = -(max t (scale spec n) : ℕ) := by omega
  have hmantissa : n * 2 ^ t * 2 ^ (scale spec n - t) = n * 2 ^ max t (scale spec n) := by
    rw [mul_assoc, ← pow_add]
    congr 2
    omega
  dsimp only
  rw [hamount, Nat.shiftLeft_eq, hexponent, hmantissa]
  exact roundWithAccuracy_scaled h s hn hbits (le_max_right _ _)

theorem normalize_scaled (t : ℕ) (zeroSign : Sign) :
    UnpackedFloat.normalize spec (s.apply n * 2 ^ t) (-t) zeroSign = integer spec s n hn := by
  have hpos : (0 : ℤ) < n * 2 ^ t := by positivity
  have hnat : ((n : ℤ) * 2 ^ t).toNat = n * 2 ^ t := by
    rw [← Int.toNat_natCast (n * 2 ^ t)]
    push_cast
    rfl
  unfold UnpackedFloat.normalize
  cases s with
  | positive =>
    dsimp only [Sign.apply]
    rw [compare_gt_iff_gt.mpr hpos, hnat]
    exact round_scaled h .positive hn hbits t
  | negative =>
    dsimp only [Sign.apply]
    rw [neg_mul, compare_lt_iff_lt.mpr (neg_neg_of_pos hpos), neg_neg, hnat]
    exact round_scaled h .negative hn hbits t

theorem ofInt_apply : UnpackedFloat.ofInt spec (s.apply n) = integer spec s n hn := by
  have hscaled := normalize_scaled h s hn hbits 0 .positive
  rwa [pow_zero, mul_one, Nat.cast_zero, neg_zero] at hscaled

end Rounding

/-! ### Packing -/

variable (s : Sign)

/-- The leading bit is put before the others again. -/
theorem toNat_one_append {m w : ℕ} (hlow : 2 ^ w ≤ m) (hhigh : m < 2 ^ (w + 1)) :
    (1#1 ++ BitVec.ofNat w m).toNat = m := by
  have hmod : m % 2 ^ w = m - 2 ^ w := by
    rw [Nat.mod_eq_sub_mod hlow, Nat.mod_eq_of_lt]
    rw [pow_succ] at hhigh
    omega
  rw [BitVec.toNat_append, ← Nat.shiftLeft_add_eq_or_of_lt (BitVec.isLt _), BitVec.toNat_ofNat,
    BitVec.toNat_ofNat, hmod, Nat.shiftLeft_eq]
  omega

/-- An integer is packed without loss. -/
theorem unpack_pack_integer (h : Ranged spec) (hn : 0 < n) (hbits : n.log2 < spec.mantissaBits) :
    unpack spec (UnpackedFloat.pack spec (integer spec s n hn)) = integer spec s n hn := by
  have hbias := exponentBias_eq spec
  have hranged : (spec.mantissaBitsWithoutImplicit : ℤ) ≤ spec.exponentBias := by
    exact_mod_cast h
  have hmantissa := spec.hm
  have hbitsOf : spec.mantissaBits = 1 + spec.mantissaBitsWithoutImplicit := rfl
  have hpow : (2 : ℤ) ^ spec.exponentBits = 2 * 2 ^ (spec.exponentBits - 1) := by
    rw [← pow_succ', Nat.sub_add_cancel spec.he]
  have hlog : (n * 2 ^ scale spec n).log2 = spec.mantissaBitsWithoutImplicit := by
    rw [log2_mul_two_pow hn.ne', scale]
    omega
  obtain ⟨hlow, hhigh⟩ := (Nat.log2_eq_iff (by positivity)).mp hlog
  have hscale : scale spec n ≤ spec.mantissaBitsWithoutImplicit := by
    rw [scale]
    omega
  obtain ⟨e, he⟩ : ∃ e : ℕ, (e : ℤ) =
      -(scale spec n : ℤ) + spec.exponentBias + spec.mantissaBitsWithoutImplicit :=
    ⟨_, Int.toNat_of_nonneg (by omega)⟩
  have hsmall : e + 1 < 2 ^ spec.exponentBits := by
    zify
    omega
  have hmod : e % 2 ^ spec.exponentBits = e := Nat.mod_eq_of_lt (by omega)
  unfold integer UnpackedFloat.pack
  dsimp only
  rw [← he, Int.toNat_natCast, if_neg (by omega), hlog, if_pos (by omega)]
  unfold unpack
  simp only [unpackMantissa_packComponents, unpackExponent_packComponents,
    unpackSign_packComponents, Sign.ofBitVec_toBitVec]
  rw [if_neg, if_neg]
  · congr 1
    · exact toNat_one_append hlow hhigh
    · rw [BitVec.toNat_ofNat, hmod]
      omega
  · intro heq
    have hzero := congrArg BitVec.toNat heq
    rw [BitVec.toNat_ofNat, hmod] at hzero
    simp at hzero
    omega
  · intro heq
    have hones := congrArg BitVec.toNat heq
    rw [BitVec.toNat_ofNat, hmod, BitVec.neg_one_eq_allOnes, BitVec.toNat_allOnes] at hones
    omega

theorem isNaN_unpack (b : BitVec spec.numBits) : (unpack spec b).isNaN = isNaNBits b := by
  unfold unpack isNaNBits
  dsimp only
  split_ifs <;> simp [isNaN, spec.he.ne', *]

/-- Overflow turns a number into an infinity, never into a NaN. -/
theorem isNaN_unpack_pack (f : UnpackedFloat) :
    (unpack spec (UnpackedFloat.pack spec f)).isNaN = f.isNaN := by
  have hexponent := spec.he
  rw [isNaN_unpack]
  fun_cases UnpackedFloat.pack with
  | case1 => exact isNaNBits_packedNaN
  | case2 s => simp [isNaNBits, packedInfinity, isNaN]
  | case3 s => simp [isNaNBits, packedZero, isNaN]
  | case4 s m e hm biasedExponent hover => simp [isNaNBits, packedInfinity, isNaN]
  | case5 s m e hm bits biasedExponent hfits hnormal =>
    simp only [isNaNBits, unpackExponent_packComponents, isNaN, decide_eq_false_iff_not, not_and]
    intro heq
    have hones := congrArg BitVec.toNat heq
    rw [BitVec.toNat_ofNat, Nat.mod_eq_of_lt (by omega), BitVec.neg_one_eq_allOnes,
      BitVec.toNat_allOnes] at hones
    omega
  | case6 s m e hm bits biasedExponent hfits hsubnormal =>
    simp only [isNaNBits, unpackExponent_packComponents, isNaN, decide_eq_false_iff_not, not_and]
    intro heq
    have hones := congrArg BitVec.toNat heq
    rw [BitVec.toNat_ofNat, BitVec.neg_one_eq_allOnes, BitVec.toNat_allOnes] at hones
    have hpow : 1 < 2 ^ spec.exponentBits := Nat.one_lt_two_pow (by omega)
    simp at hones
    omega

/-! ### Sums and products of integers -/

/-- The magnitude fits into the mantissa. -/
def Fits (spec : Format) (z : ℤ) : Prop := z.natAbs < 2 ^ spec.mantissaBits

theorem Fits.mul_unit {z : ℤ} (hz : Fits spec z) : Fits spec (z * s.apply 1) := by
  unfold Fits at *
  cases s <;> simpa [Sign.apply] using hz

/-- A number that is not zero has a sign and a magnitude. -/
theorem exists_apply {z : ℤ} (hz : z ≠ 0) : ∃ s : Sign, z = s.apply z.natAbs := by
  rcases hz.lt_or_gt with hneg | hpos
  · exact ⟨.negative, by simp only [Sign.apply]; omega⟩
  · exact ⟨.positive, by simp only [Sign.apply]; omega⟩

theorem apply_mul_two_pow (n t : ℕ) : s.apply (n * 2 ^ t : ℕ) = s.apply n * 2 ^ t := by
  cases s <;> simp [Sign.apply]

theorem decreaseExponent_scaled {t u : ℕ} (htu : t ≤ u) :
    decreaseExponent (n * 2 ^ t) (-t) (-u) = (n * 2 ^ u, -(u : ℤ)) := by
  have hamount : (-(t : ℤ) - -(u : ℤ)).toNat = u - t := by omega
  unfold decreaseExponent
  dsimp only
  rw [hamount, Nat.shiftLeft_eq, mul_assoc, ← pow_add, Nat.add_sub_of_le htu]
  exact Prod.ext rfl (by dsimp only; omega)

section Arithmetic

variable (h : Ranged spec) {a b : ℤ}
include h

/-- An integer is zero, or a sign and a magnitude that fills the mantissa. -/
theorem ofInt_cases (ha : Fits spec a) :
    a = 0 ∧ UnpackedFloat.ofInt spec a = .zero .positive ∨
      ∃ (s : Sign) (n : ℕ) (hn : 0 < n), a = s.apply n ∧ n.log2 < spec.mantissaBits ∧
        UnpackedFloat.ofInt spec a = integer spec s n hn := by
  by_cases hz : a = 0
  · subst hz
    exact .inl ⟨rfl, rfl⟩
  · obtain ⟨s, hs⟩ := exists_apply hz
    have hn : 0 < a.natAbs := Int.natAbs_pos.mpr hz
    have hbits : a.natAbs.log2 < spec.mantissaBits := (Nat.log2_lt hn.ne').mpr ha
    refine .inr ⟨s, a.natAbs, hn, hs, hbits, ?_⟩
    conv_lhs => rw [hs]
    exact ofInt_apply h s hn hbits

/-- Trailing zeros do not matter. -/
theorem normalize_shifted (ha : Fits spec a) (t : ℕ) :
    UnpackedFloat.normalize spec (a * 2 ^ t) (-t) .positive = UnpackedFloat.ofInt spec a := by
  obtain ⟨rfl, -⟩ | ⟨s, n, hn, rfl, hbits, hinteger⟩ := ofInt_cases h ha
  · rw [zero_mul]
    rfl
  · rw [hinteger]
    exact normalize_scaled h s hn hbits t .positive

theorem unpack_pack_ofInt (ha : Fits spec a) :
    unpack spec (UnpackedFloat.pack spec (UnpackedFloat.ofInt spec a)) =
      UnpackedFloat.ofInt spec a := by
  obtain ⟨-, hzero⟩ | ⟨s, n, hn, -, hbits, hinteger⟩ := ofInt_cases h ha
  · rw [hzero]
    exact unpack_packedZero
  · rw [hinteger]
    exact unpack_pack_integer s h hn hbits

theorem add_ofInt (ha : Fits spec a) (hb : Fits spec b) (hab : Fits spec (a + b)) :
    UnpackedFloat.add spec (UnpackedFloat.ofInt spec a) (UnpackedFloat.ofInt spec b) =
      UnpackedFloat.ofInt spec (a + b) := by
  obtain ⟨rfl, hzero⟩ | ⟨s, m, hm, rfl, hbits, hinteger⟩ := ofInt_cases h ha
  · rw [zero_add, hzero]
    obtain ⟨-, hzero⟩ | ⟨s, n, hn, -, -, hinteger⟩ := ofInt_cases h hb
    · rw [hzero]
      rfl
    · rw [hinteger]
      rfl
  · obtain ⟨rfl, hzero⟩ | ⟨s', n, hn, rfl, hbits', hinteger'⟩ := ofInt_cases h hb
    · rw [add_zero, hzero, hinteger]
      rfl
    · have hsum := normalize_shifted h hab (max (scale spec m) (scale spec n))
      rw [← hsum, hinteger, hinteger']
      have hmin : min (-(scale spec m : ℤ)) (-(scale spec n : ℤ)) =
          -(max (scale spec m) (scale spec n) : ℕ) := by omega
      unfold integer UnpackedFloat.add
      dsimp only
      rw [hmin, decreaseExponent_scaled (le_max_left _ _),
        decreaseExponent_scaled (le_max_right _ _), add_mul, apply_mul_two_pow, apply_mul_two_pow]

theorem ofInt_unit : UnpackedFloat.ofInt spec (s.apply 1) = integer spec s 1 Nat.one_pos := by
  have hpos : Nat.log2 1 < spec.mantissaBits := by
    rw [show Nat.log2 1 = 0 from rfl, Format.mantissaBits]
    omega
  exact ofInt_apply h s Nat.one_pos hpos

/-- A product with one or minus one is not rounded, but a zero takes over the sign. -/
theorem mul_unit (ha : Fits spec a) :
    UnpackedFloat.mul spec (UnpackedFloat.ofInt spec a) (UnpackedFloat.ofInt spec (s.apply 1)) =
      if a = 0 then .zero s else UnpackedFloat.ofInt spec (a * s.apply 1) := by
  rw [ofInt_unit s h]
  obtain ⟨rfl, hzero⟩ | ⟨s', n, hn, rfl, hbits, hinteger⟩ := ofInt_cases h ha
  · rw [hzero, if_pos rfl]
    cases s <;> rfl
  · have hne : s'.apply n ≠ 0 := by
      cases s' <;> simp only [Sign.apply] <;> omega
    have hproduct : s'.apply n * s.apply 1 = (s' * s).apply n := by
      cases s' <;> cases s <;> simp only [Sign.apply, mul_one, mul_neg, neg_neg]
    rw [if_neg hne, hinteger, hproduct, ofInt_apply h (s' * s) hn hbits,
      ← roundWithAccuracy_scaled h (s' * s) hn hbits (Nat.le_add_right _ (scale spec 1))]
    unfold integer UnpackedFloat.mul
    dsimp only
    rw [one_mul, mul_assoc, ← pow_add]
    congr 1
    push_cast
    ring

/-- Added to a number, it makes no difference which zero the product is. -/
theorem add_mul_unit (ha : Fits spec a) (hb : Fits spec b) (hab : Fits spec (a + b * s.apply 1)) :
    UnpackedFloat.add spec (UnpackedFloat.ofInt spec a)
        (UnpackedFloat.mul spec (UnpackedFloat.ofInt spec b)
          (UnpackedFloat.ofInt spec (s.apply 1))) =
      UnpackedFloat.ofInt spec (a + b * s.apply 1) := by
  rw [mul_unit s h hb]
  split_ifs with hzero
  · subst hzero
    rw [zero_mul, add_zero]
    obtain ⟨-, hzero⟩ | ⟨s', n, hn, -, -, hinteger⟩ := ofInt_cases h ha
    · rw [hzero]
      cases s <;> rfl
    · rw [hinteger]
      rfl
  · exact add_ofInt h ha (hb.mul_unit s) hab

/-- The product is packed without loss as well. -/
theorem unpack_pack_mul_unit (hb : Fits spec b) :
    let product := UnpackedFloat.mul spec (UnpackedFloat.ofInt spec b)
      (UnpackedFloat.ofInt spec (s.apply 1))
    unpack spec (UnpackedFloat.pack spec product) = product ∧ product.isFinite = true := by
  intro product
  have hproduct := mul_unit s h hb
  change product = _ at hproduct
  rw [hproduct]
  split_ifs with hzero
  · exact ⟨unpack_packedZero, rfl⟩
  · refine ⟨unpack_pack_ofInt h (hb.mul_unit s), ?_⟩
    obtain ⟨-, hzero⟩ | ⟨s', n, hn, -, -, hinteger⟩ := ofInt_cases h (hb.mul_unit s)
    · rw [hzero]
      rfl
    · rw [hinteger]
      rfl

end Arithmetic

/-! ### Conversions -/

/-- The number in another format. -/
def converted (spec : Format) : UnpackedFloat → UnpackedFloat
  | .finite s m e _ => .round spec s m e
  | f => f

/-- An integer that fits into both formats is converted without loss. -/
theorem converted_ofInt {spec' : Format} (h : Ranged spec) (h' : Ranged spec') {a : ℤ}
    (ha : Fits spec a) (ha' : Fits spec' a) :
    converted spec' (UnpackedFloat.ofInt spec a) = UnpackedFloat.ofInt spec' a := by
  obtain ⟨rfl, hzero⟩ | ⟨s, n, hn, rfl, hbits, hinteger⟩ := ofInt_cases h ha
  · rfl
  · have hbits' : n.log2 < spec'.mantissaBits := by
      refine (Nat.log2_lt hn.ne').mpr ?_
      unfold Fits at ha'
      cases s <;> simpa [Sign.apply] using ha'
    rw [hinteger, ofInt_apply h' s hn hbits']
    exact round_scaled h' s hn hbits' _

/-! ### What is not a number -/

theorem isNaN_roundWithAccuracy (s : Sign) (m : ℕ) (e : ℤ) (accuracy : Accuracy) :
    (roundWithAccuracy spec s m e accuracy).isNaN = false := by
  unfold roundWithAccuracy
  dsimp only
  split_ifs <;> rfl

theorem isNaN_normalize (z e : ℤ) (zeroSign : Sign) :
    (UnpackedFloat.normalize spec z e zeroSign).isNaN = false := by
  unfold UnpackedFloat.normalize
  cases compare z 0 with
  | eq => rfl
  | lt | gt => exact isNaN_roundWithAccuracy ..

/-- Only an infinity of the other sign makes a NaN of a number that is added to. -/
theorem isNaN_add {u v : UnpackedFloat} (hv : v.isFinite = true) :
    (UnpackedFloat.add spec u v).isNaN = u.isNaN := by
  cases v with
  | notANumber | infinity s => cases hv
  | zero s =>
    cases u with
    | zero s' => cases s <;> cases s' <;> rfl
    | _ => rfl
  | finite s m e hm =>
    cases u with
    | finite s' m' e' hm' => exact isNaN_normalize ..
    | _ => rfl

theorem isNaN_converted (u : UnpackedFloat) : (converted spec u).isNaN = u.isNaN := by
  cases u with
  | finite s m e hm => exact isNaN_roundWithAccuracy ..
  | _ => rfl

/-! ### Comparisons -/

/-- The place of a number among the others: its kind, its exponent and its mantissa. -/
def key : UnpackedFloat → ℤ ×ₗ ℤ ×ₗ ℤ
  | .notANumber => toLex (0, toLex (0, 0))
  | .infinity .negative => toLex (-2, toLex (0, 0))
  | .finite .negative m e _ => toLex (-1, toLex (-e, -m))
  | .zero _ => toLex (0, toLex (0, 0))
  | .finite .positive m e _ => toLex (1, toLex (e, m))
  | .infinity .positive => toLex (2, toLex (0, 0))

theorem lt_iff (u v : UnpackedFloat) :
    u.lt v = true ↔ u.isNaN = false ∧ v.isNaN = false ∧ key u < key v := by
  unfold UnpackedFloat.lt
  cases u with
  | notANumber => simp [UnpackedFloat.compare, isNaN]
  | infinity s =>
    cases v with
    | notANumber => simp [UnpackedFloat.compare, isNaN]
    | infinity s' =>
      cases s <;> cases s' <;>
        simp [UnpackedFloat.compare, isNaN, key, Prod.Lex.toLex_lt_toLex, compare]
    | zero s' => cases s <;> simp [UnpackedFloat.compare, isNaN, key, Prod.Lex.toLex_lt_toLex]
    | finite s' m e hm =>
      cases s <;> cases s' <;>
        simp [UnpackedFloat.compare, isNaN, key, Prod.Lex.toLex_lt_toLex]
  | zero s =>
    cases v with
    | notANumber => simp [UnpackedFloat.compare, isNaN]
    | infinity s' => cases s' <;> simp [UnpackedFloat.compare, isNaN, key, Prod.Lex.toLex_lt_toLex]
    | zero s' => simp [UnpackedFloat.compare, isNaN, key]
    | finite s' m e hm =>
      cases s' <;> simp [UnpackedFloat.compare, isNaN, key, Prod.Lex.toLex_lt_toLex]
  | finite s m e hm =>
    cases v with
    | notANumber => cases s <;> simp [UnpackedFloat.compare, isNaN]
    | infinity s' =>
      cases s <;> cases s' <;>
        simp [UnpackedFloat.compare, isNaN, key, Prod.Lex.toLex_lt_toLex]
    | zero s' => cases s <;> simp [UnpackedFloat.compare, isNaN, key, Prod.Lex.toLex_lt_toLex]
    | finite s' m' e' hm' =>
      cases s <;> cases s' <;>
        simp [UnpackedFloat.compare, isNaN, key, Prod.Lex.toLex_lt_toLex, Ordering.then_eq_lt,
          Ordering.then_eq_gt, compare_lt_iff_lt, compare_gt_iff_gt]

/-- What is not a NaN lies on one side of a number or the other. -/
theorem lt_or_lt {u v w : UnpackedFloat} (huw : u.lt w = true) (hv : v.isNaN = false) :
    u.lt v = true ∨ v.lt w = true := by
  obtain ⟨hu, hw, hkeys⟩ := (lt_iff u w).mp huw
  rcases lt_or_ge (key u) (key v) with hlow | hhigh
  · exact .inl ((lt_iff u v).mpr ⟨hu, hv, hlow⟩)
  · exact .inr ((lt_iff v w).mpr ⟨hv, hw, hhigh.trans_lt hkeys⟩)

theorem lt_of_isNaN {u v : UnpackedFloat} (hNaN : u.isNaN = true) :
    u.lt v = false ∧ v.lt u = false := by
  constructor
  · rw [Bool.eq_false_iff]
    intro hlt
    rw [((lt_iff u v).mp hlt).1] at hNaN
    cases hNaN
  · rw [Bool.eq_false_iff]
    intro hlt
    rw [((lt_iff v u).mp hlt).2.1] at hNaN
    cases hNaN

/-- Full mantissas compare as the magnitudes do. -/
theorem scaled_lt_iff {m : ℕ} (hm : 0 < m) (hn : 0 < n) (hmbits : m.log2 < spec.mantissaBits)
    (hnbits : n.log2 < spec.mantissaBits) :
    toLex (-(scale spec m : ℤ), ((m * 2 ^ scale spec m : ℕ) : ℤ)) <
      toLex (-(scale spec n : ℤ), ((n * 2 ^ scale spec n : ℕ) : ℤ)) ↔ m < n := by
  have hlog : ∀ {i j : ℕ}, 0 < j → i.log2 < j.log2 → i < j := by
    intro i j hj hij
    exact Nat.lt_log2_self.trans_le ((Nat.pow_le_pow_right two_pos hij).trans
      (Nat.log2_self_le hj.ne'))
  rw [Prod.Lex.toLex_lt_toLex]
  dsimp only
  rcases lt_trichotomy m.log2 n.log2 with hlt | heq | hgt
  · refine iff_of_true (.inl ?_) (hlog hn hlt)
    unfold scale
    omega
  · have hscale : scale spec m = scale spec n := by rw [scale, scale, heq]
    rw [hscale, Int.ofNat_lt, Nat.mul_lt_mul_right (by positivity)]
    simp
  · refine iff_of_false ?_ (hlog hm hgt).asymm
    rintro (hlow | ⟨hsame, -⟩)
    · unfold scale at hlow
      omega
    · unfold scale at hsame
      omega

theorem neg_lex_lt_iff {a b c d : ℤ} :
    toLex (-a, -b) < toLex (-c, -d) ↔ toLex (c, d) < toLex (a, b) := by
  simp only [Prod.Lex.toLex_lt_toLex, neg_lt_neg_iff, neg_inj, eq_comm]

theorem isNaN_ofInt (h : Ranged spec) {a : ℤ} (ha : Fits spec a) :
    (UnpackedFloat.ofInt spec a).isNaN = false := by
  obtain ⟨-, hzero⟩ | ⟨s, n, hn, -, -, hinteger⟩ := ofInt_cases h ha
  · rw [hzero]
    rfl
  · rw [hinteger]
    rfl

/-- Integers compare as numbers. -/
theorem lt_ofInt (h : Ranged spec) {a b : ℤ} (ha : Fits spec a) (hb : Fits spec b) :
    (UnpackedFloat.ofInt spec a).lt (UnpackedFloat.ofInt spec b) = decide (a < b) := by
  rw [Bool.eq_iff_iff, lt_iff, decide_eq_true_iff]
  refine (and_iff_right (isNaN_ofInt h ha)).trans ((and_iff_right (isNaN_ofInt h hb)).trans ?_)
  obtain ⟨rfl, hzero⟩ | ⟨s, m, hm, rfl, hbits, hinteger⟩ := ofInt_cases h ha
  · obtain ⟨rfl, -⟩ | ⟨s', n, hn, rfl, hbits', hinteger'⟩ := ofInt_cases h hb
    · simp
    · rw [hzero, hinteger']
      cases s' <;> simp [integer, key, Prod.Lex.toLex_lt_toLex, Sign.apply, hn]
  · obtain ⟨rfl, hzero'⟩ | ⟨s', n, hn, rfl, hbits', hinteger'⟩ := ofInt_cases h hb
    · rw [hinteger, hzero']
      cases s <;> simp [integer, key, Prod.Lex.toLex_lt_toLex, Sign.apply, hm]
    · have hpositive := scaled_lt_iff hm hn hbits hbits'
      have hnegative := scaled_lt_iff hn hm hbits' hbits
      rw [hinteger, hinteger']
      unfold integer
      cases s with
      | positive =>
        cases s' with
        | positive =>
          rw [key, key, Prod.Lex.toLex_lt_toLex]
          simp only [lt_irrefl, true_and, false_or, Sign.apply, Int.ofNat_lt]
          exact hpositive
        | negative =>
          simp only [key, Prod.Lex.toLex_lt_toLex, Sign.apply]
          omega
      | negative =>
        cases s' with
        | positive =>
          simp only [key, Prod.Lex.toLex_lt_toLex, Sign.apply]
          omega
        | negative =>
          rw [key, key, Prod.Lex.toLex_lt_toLex]
          simp only [lt_irrefl, true_and, false_or, Sign.apply, neg_lt_neg_iff, Int.ofNat_lt,
            neg_lex_lt_iff]
          exact hnegative

end BinaryFloat
