import ASNeGDemo.General.BinaryFloat
import ASNeGDemo.Stack.Variant

/-!
What the random walk of `Float` and `Double` needs of floating point arithmetic, and the
arithmetic that has it: the 64 and 32 bit formats of IEEE 754, with their NaNs, infinities and two
zeros.
-/
namespace ASNeGDemo

/-- No comparison with it holds. -/
def Unordered (P : Platform) (v : P.Double) : Prop := ∀ w, P.lt v w = false ∧ P.lt w v = false

/-- Small integers are exact as doubles and as floats, and so are the sums of the walk; that a
product of zero may have a sign is not seen in the sum. Comparisons hold of all doubles but the
NaNs, and neither a step nor a conversion makes a NaN or removes one. -/
structure RealArithmetic (P : Platform) : Prop where
  lt_ofInt : ∀ a b : ℤ, |a| ≤ 10000 → |b| ≤ 10000 → P.lt (P.ofInt a) (P.ofInt b) = decide (a < b)
  lt_or_lt : ∀ u v w, P.lt u w = true → ¬ Unordered P v → P.lt u v = true ∨ P.lt v w = true
  percent : ∀ k : ℕ, k < 5 →
    P.mul (P.ofInt 1000) (P.div (P.ofInt k) (P.ofDecimal 100)) = P.ofInt (10 * k)
  add_mul_ofInt : ∀ a b sign : ℤ, |a| ≤ 10000 → |b| ≤ 10000 → sign = 1 ∨ sign = -1 →
    P.add (P.ofInt a) (P.mul (P.ofInt b) (P.ofInt sign)) = P.ofInt (a + b * sign)
  widened_rounded : ∀ a : ℤ, |a| ≤ 10000 → P.widened (P.rounded (P.ofInt a)) = P.ofInt a
  unordered_add_iff : ∀ (v : P.Double) (b sign : ℤ), |b| ≤ 10000 → sign = 1 ∨ sign = -1 →
    (Unordered P (P.add v (P.mul (P.ofInt b) (P.ofInt sign))) ↔ Unordered P v)
  unordered_rounded_iff : ∀ v, Unordered P (P.widened (P.rounded v)) ↔ Unordered P v

/-! ### IEEE 754 -/

section Binary
open BinaryFloat Float.Model

/-- To the 32 bit format. -/
def narrow (v : Float.Model) : Float32.Model := Float32.Model.pack (converted .binary32 v.unpack)

/-- To the 64 bit format. -/
def widen (v : Float32.Model) : Float.Model := Float.Model.pack (converted .binary64 v.unpack)

/-- The platform whose doubles are those of the 64 bit format and whose floats are those of the
32 bit one. Decimals are quotients of integers. -/
def binaryPlatform : Platform where
  Double := Float.Model
  Single := Float32.Model
  ofInt := Float.Model.ofInt
  ofDecimal q := Float.Model.ofInt q.num / Float.Model.ofInt q.den
  add := (· + ·)
  mul := (· * ·)
  div := (· / ·)
  lt := Float.Model.lt
  rounded := narrow
  widened := widen
  truncated t v := t.wrap (v.unpack.toInt 0 0)
  overflowed t := t.wrap (t.max + 1)
  signFirst := false
  emptyArrayTyped := true
  uint32OfArray := List.head?

theorem fits_binary64 {a : ℤ} (ha : |a| ≤ 20000) : Fits .binary64 a := by
  obtain ⟨hlow, hhigh⟩ := abs_le.mp ha
  have hmagnitude : a.natAbs < 2 ^ 15 := by omega
  exact hmagnitude.trans (Nat.pow_lt_pow_right (by norm_num) (by decide))

theorem fits_binary32 {a : ℤ} (ha : |a| ≤ 20000) : Fits .binary32 a := by
  obtain ⟨hlow, hhigh⟩ := abs_le.mp ha
  have hmagnitude : a.natAbs < 2 ^ 15 := by omega
  exact hmagnitude.trans (Nat.pow_lt_pow_right (by norm_num) (by decide))

theorem unpack_ofInt {a : ℤ} (ha : |a| ≤ 20000) :
    (Float.Model.ofInt a).unpack = UnpackedFloat.ofInt .binary64 a :=
  unpack_pack_ofInt ranged_binary64 (fits_binary64 ha)

/-- Of the product of zero and minus one the sum does not show that it is the other zero. -/
example : Float.Model.ofInt 0 * Float.Model.ofInt (-1) ≠ Float.Model.ofInt 0 ∧
    Float.Model.ofInt 0 + Float.Model.ofInt 0 * Float.Model.ofInt (-1) = Float.Model.ofInt 0 := by
  decide +kernel

/-- The NaNs are what cannot be compared. -/
theorem binaryPlatform_unordered_iff (v : Float.Model) :
    Unordered binaryPlatform v ↔ v.isNaN = true := by
  constructor
  · intro hv
    by_contra hnumber
    rw [Bool.not_eq_true] at hnumber
    have hzero := hv (Float.Model.ofInt 0)
    have hbelow : Float.Model.lt (Float.Model.ofInt (-1)) (Float.Model.ofInt 0) = true := by
      decide +kernel
    have habove : Float.Model.lt (Float.Model.ofInt 0) (Float.Model.ofInt 1) = true := by
      decide +kernel
    rcases lt_or_lt (v := v.unpack) hbelow hnumber with hlow | hhigh
    · have hno := (hv (Float.Model.ofInt (-1))).2
      exact absurd (hno.symm.trans hlow) Bool.false_ne_true
    · exact absurd (hzero.1.symm.trans hhigh) Bool.false_ne_true
  · intro hv w
    exact lt_of_isNaN hv

/-- The sign of a step as the sign of a number. -/
theorem exists_sign {sign : ℤ} (h : sign = 1 ∨ sign = -1) :
    ∃ s : UnpackedFloat.Sign, sign = s.apply 1 := by
  rcases h with rfl | rfl
  · exact ⟨.positive, rfl⟩
  · exact ⟨.negative, rfl⟩

/-- The products of the walk are packed without loss. -/
theorem unpack_mul_sign (s : UnpackedFloat.Sign) {b : ℤ} (hb : |b| ≤ 20000) :
    (Float.Model.ofInt b * Float.Model.ofInt (s.apply 1)).unpack =
      UnpackedFloat.mul .binary64 (UnpackedFloat.ofInt .binary64 b)
        (UnpackedFloat.ofInt .binary64 (s.apply 1)) := by
  have hone : |s.apply 1| ≤ 20000 := by
    cases s <;> decide
  change UnpackedFloat.unpack .binary64 (UnpackedFloat.pack .binary64 (UnpackedFloat.mul .binary64
    (Float.Model.ofInt b).unpack (Float.Model.ofInt (s.apply 1)).unpack)) = _
  rw [unpack_ofInt hb, unpack_ofInt hone]
  exact (unpack_pack_mul_unit s ranged_binary64 (fits_binary64 hb)).1

theorem percent_binary : ∀ k : ℕ, k < 5 → Float.Model.ofInt 1000 * (Float.Model.ofInt k /
    (Float.Model.ofInt (100 : ℚ).num / Float.Model.ofInt (100 : ℚ).den)) =
      Float.Model.ofInt (10 * k) := by
  decide +kernel

/-- The sum with a step of the walk is exact. -/
theorem add_mul_sign (s : UnpackedFloat.Sign) {a b : ℤ} (ha : |a| ≤ 10000) (hb : |b| ≤ 10000) :
    Float.Model.ofInt a + Float.Model.ofInt b * Float.Model.ofInt (s.apply 1) =
      Float.Model.ofInt (a + b * s.apply 1) := by
  have ha' : |a| ≤ 20000 := ha.trans (by norm_num)
  have hb' : |b| ≤ 20000 := hb.trans (by norm_num)
  have hsum : |a + b * s.apply 1| ≤ 20000 := by
    have hproduct : |b * s.apply 1| = |b| := by
      cases s <;> simp [UnpackedFloat.Sign.apply]
    have hadd := abs_add_le a (b * s.apply 1)
    omega
  change Float.Model.pack (UnpackedFloat.add .binary64 (Float.Model.ofInt a).unpack
    (Float.Model.ofInt b * Float.Model.ofInt (s.apply 1)).unpack) = _
  rw [unpack_mul_sign s hb', unpack_ofInt ha', add_mul_unit s ranged_binary64 (fits_binary64 ha')
    (fits_binary64 hb') (fits_binary64 hsum)]
  rfl

/-- A step makes no NaN and removes none. -/
theorem isNaN_add_mul_sign (v : Float.Model) (s : UnpackedFloat.Sign) {b : ℤ} (hb : |b| ≤ 20000) :
    (v + Float.Model.ofInt b * Float.Model.ofInt (s.apply 1)).isNaN = v.isNaN := by
  have hfinite : (Float.Model.ofInt b * Float.Model.ofInt (s.apply 1)).unpack.isFinite = true := by
    rw [unpack_mul_sign s hb]
    exact (unpack_pack_mul_unit s ranged_binary64 (fits_binary64 hb)).2
  exact (isNaN_unpack_pack _).trans (isNaN_add hfinite)

theorem widen_narrow_ofInt {a : ℤ} (ha : |a| ≤ 20000) :
    widen (narrow (Float.Model.ofInt a)) = Float.Model.ofInt a := by
  have hnarrow : (Float32.Model.pack (UnpackedFloat.ofInt .binary32 a)).unpack =
      UnpackedFloat.ofInt .binary32 a := unpack_pack_ofInt ranged_binary32 (fits_binary32 ha)
  unfold widen narrow
  rw [unpack_ofInt ha, converted_ofInt ranged_binary64 ranged_binary32 (fits_binary64 ha)
    (fits_binary32 ha), hnarrow, converted_ofInt ranged_binary32 ranged_binary64
    (fits_binary32 ha) (fits_binary64 ha)]
  rfl

theorem isNaN_widen_narrow (v : Float.Model) : (widen (narrow v)).isNaN = v.isNaN := by
  have hnarrow : (narrow v).unpack.isNaN = v.isNaN :=
    (isNaN_unpack_pack _).trans (isNaN_converted _)
  rw [← hnarrow]
  exact (isNaN_unpack_pack _).trans (isNaN_converted _)

theorem unordered_iff_of_isNaN {u v : Float.Model} (h : u.isNaN = v.isNaN) :
    Unordered binaryPlatform u ↔ Unordered binaryPlatform v := by
  rw [binaryPlatform_unordered_iff, binaryPlatform_unordered_iff, h]

theorem binaryPlatform_arithmetic : RealArithmetic binaryPlatform where
  lt_ofInt a b ha hb := by
    have ha' : |a| ≤ 20000 := ha.trans (by norm_num)
    have hb' : |b| ≤ 20000 := hb.trans (by norm_num)
    change UnpackedFloat.lt (Float.Model.ofInt a).unpack (Float.Model.ofInt b).unpack = _
    rw [unpack_ofInt ha', unpack_ofInt hb']
    exact lt_ofInt ranged_binary64 (fits_binary64 ha') (fits_binary64 hb')
  lt_or_lt u v w huw hv := by
    have hnumber : v.isNaN = false :=
      Bool.eq_false_iff.mpr (mt (binaryPlatform_unordered_iff v).mpr hv)
    exact lt_or_lt huw hnumber
  percent := percent_binary
  add_mul_ofInt a b sign ha hb hsign := by
    obtain ⟨s, rfl⟩ := exists_sign hsign
    exact add_mul_sign s ha hb
  widened_rounded a ha := widen_narrow_ofInt (ha.trans (by norm_num))
  unordered_add_iff v b sign hb hsign := by
    obtain ⟨s, rfl⟩ := exists_sign hsign
    exact unordered_iff_of_isNaN (isNaN_add_mul_sign v s (hb.trans (by norm_num)))
  unordered_rounded_iff v := unordered_iff_of_isNaN (isNaN_widen_narrow v)

end Binary

end ASNeGDemo
