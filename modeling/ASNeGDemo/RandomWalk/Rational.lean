import ASNeGDemo.TestFolderLib.Update

/-!
The random walk with doubles taken as rationals. What the standard leaves open stays open: a
conversion that does not fit may leave anything behind.
-/
namespace ASNeGDemo

/-- What a platform with rational doubles is free to choose. -/
structure Leftovers where
  converted : (t : IntType) → ℚ → t.Val
  overflowed : (t : IntType) → t.Val
  signFirst : Bool
  emptyArrayTyped : Bool
  uint32OfArray : List (IntType.Val .uint32) → Option (IntType.Val .uint32)

def rationalPlatform (left : Leftovers) : Platform where
  Double := ℚ
  Single := ℚ
  ofInt z := z
  ofDecimal q := q
  add := (· + ·)
  mul := (· * ·)
  div := (· / ·)
  lt p q := decide (p < q)
  rounded := id
  widened := id
  truncated t q := if h : t.Fits (truncate q) then ⟨truncate q, h⟩ else left.converted t q
  overflowed := left.overflowed
  signFirst := left.signFirst
  emptyArrayTyped := left.emptyArrayTyped
  uint32OfArray := left.uint32OfArray

/-! ### Truncation -/

/-- Above a bound that is not positive lies what truncation does not bring below it. -/
theorem le_truncate_iff {n : ℤ} (hn : n ≤ 0) (q : ℚ) : n ≤ truncate q ↔ (n - 1 : ℚ) < q := by
  unfold truncate
  split_ifs with hq
  · have hn' : (n : ℚ) ≤ 0 := by exact_mod_cast hn
    exact iff_of_true (hn.trans (Int.floor_nonneg.mpr hq)) (by linarith)
  · rw [← Int.sub_one_lt_iff, Int.lt_ceil]
    push_cast
    rfl

theorem floor_le_truncate (q : ℚ) : ⌊q⌋ ≤ truncate q := by
  unfold truncate
  split_ifs
  · exact le_rfl
  · exact Int.floor_le_ceil q

theorem truncate_le_ceil (q : ℚ) : truncate q ≤ ⌈q⌉ := by
  unfold truncate
  split_ifs
  · exact Int.floor_le_ceil q
  · exact le_rfl

/-- Truncation of a sum goes no further than the summand. -/
theorem truncate_add_bounds {u m : ℤ} {d : ℚ} (h : |d| ≤ m) :
    u - m ≤ truncate (u + d) ∧ truncate (u + d) ≤ u + m := by
  obtain ⟨hlow, hhigh⟩ := abs_le.mp h
  constructor
  · refine le_trans ?_ (floor_le_truncate _)
    rw [Int.le_floor]
    push_cast
    linarith
  · apply (truncate_le_ceil _).trans
    rw [Int.ceil_le]
    push_cast
    linarith

/-! ### The step -/

section Step
variable (left : Leftovers) (span : ℤ)

/-- The step that the next two results of `rand()` give. -/
def stepOf (env : Env) : ℚ := (signedStep (rationalPlatform left) span env).1

theorem stepOf_eq (env : Env) :
    ∃ (k : ℕ) (s : ℤ), k ≤ 4 ∧ (s = 1 ∨ s = -1) ∧ stepOf left span env = span * (k / 100) * s := by
  have hsign : ∀ env, (mySign env).1 = 1 ∨ (mySign env).1 = -1 := by
    intro env
    unfold mySign
    simp only [Sim.bind_apply]
    split_ifs
    · exact .inr rfl
    · exact .inl rfl
  have hpercent : ∀ env, ∃ k : ℕ, k ≤ 4 ∧
      (myPercent (rationalPlatform left) env).1 = (k / 100 : ℚ) := by
    intro env
    refine ⟨(rand env).1 % 5, by omega, ?_⟩
    show (((rand env).1 % 5 : ℕ) : ℤ) / (100 : ℚ) = _
    rw [Int.cast_natCast]
  unfold stepOf signedStep
  cases (rationalPlatform left).signFirst with
  | true =>
    obtain ⟨k, hk, hdrawn⟩ := hpercent (mySign env).2
    refine ⟨k, (mySign env).1, hk, hsign env, ?_⟩
    rw [← hdrawn]
    rfl
  | false =>
    obtain ⟨k, hk, hdrawn⟩ := hpercent env
    refine ⟨k, (mySign (myPercent (rationalPlatform left) env).2).1, hk, hsign _, ?_⟩
    rw [← hdrawn]
    rfl

/-- A step is at most four percent of the span. -/
theorem abs_stepOf_le (hspan : 0 ≤ span) (env : Env) : |stepOf left span env| ≤ span * 4 / 100 := by
  obtain ⟨k, s, hk, hs, heq⟩ := stepOf_eq left span env
  have hspan' : (0 : ℚ) ≤ span := by exact_mod_cast hspan
  have hk' : (k : ℚ) ≤ 4 := by exact_mod_cast hk
  have habs : |(s : ℚ)| = 1 := by
    rcases hs with rfl | rfl <;> norm_num
  rw [heq, abs_mul, habs, mul_one, abs_of_nonneg (by positivity)]
  have hmul := mul_le_mul_of_nonneg_left hk' hspan'
  linarith

end Step

/-! ### One tick of one value -/

/-- The range of the walk of a type. -/
structure WalkRange where
  span : ℤ
  low : ℤ
  high : ℤ

def WalkRange.clamp (r : WalkRange) (z : ℤ) : ℤ := max r.low (min r.high z)

/-- Four percent of the span, rounded up. -/
def WalkRange.reach (r : WalkRange) : ℤ := ⌈(r.span * 4 / 100 : ℚ)⌉

/-- The types whose scalars walk, and where. -/
def walkRange : IntType → Option WalkRange
  | .sByte => none
  | .byte => some ⟨64, 0, 64⟩
  | .int16 => some ⟨150, -50, 100⟩
  | .uint16 => some ⟨100, 0, 100⟩
  | .int32 => some ⟨360, 0, 360⟩
  | .uint32 => some ⟨360, 0, 360⟩
  | .int64 => some ⟨2000, -1000, 1000⟩
  | .uint64 => some ⟨3000, 0, 3000⟩

/-- The double that is converted back: the stored value and the step. -/
def sumOf (left : Leftovers) (r : WalkRange) (v : ℤ) (env : Env) : ℚ := v + stepOf left r.span env

/-- What the source stores where the sum is too low. -/
def lowValue (t : IntType) (r : WalkRange) : ℤ := if t = .int64 then 1000 else r.low

theorem singleCase_walk (P : Platform) {t : IntType} {r : WalkRange} (h : walkRange t = some r) :
    TestFolderLib.singleCase P (.int t) =
      some (walk P t r.span r.low (lowValue t r) r.high) := by
  cases t <;> cases h <;> rfl

section Walk
variable (left : Leftovers) {t : IntType} {r : WalkRange}

/-- The bounds, and what is stored at them, are values of the type in the range. -/
theorem walkRange_fits (h : walkRange t = some r) :
    0 ≤ r.span ∧ r.low ≤ r.high ∧ t.Fits r.low ∧ t.Fits r.high ∧ t.Fits (lowValue t r) ∧
      r.low ≤ lowValue t r ∧ lowValue t r ≤ r.high := by
  cases t <;> cases h <;> decide

theorem truncated_val {q : ℚ} (h : t.Fits (truncate q)) :
    ((rationalPlatform left).truncated t q).val = truncate q := by
  show (if h : t.Fits (truncate q) then (⟨truncate q, h⟩ : t.Val) else left.converted t q).val = _
  rw [dif_pos h]

/-- What a tick makes of a value, in terms of what the conversion of the sum leaves behind. -/
theorem walk_val (h : walkRange t = some r) (v : t.Val) (env : Env) :
    let sum := ((rationalPlatform left).truncated t (sumOf left r v env)).val
    (walk (rationalPlatform left) t r.span r.low (lowValue t r) r.high v env).1.val =
      if sum < r.low then lowValue t r else if r.high < sum then r.high else sum := by
  intro sum
  obtain ⟨-, -, -, hhigh, hlowValue, -, hle⟩ := walkRange_fits h
  have hlow : (t.wrap (lowValue t r)).val = lowValue t r := IntType.wrap_val hlowValue
  have hwalk : (walk (rationalPlatform left) t r.span r.low (lowValue t r) r.high v env).1 =
      let value := if sum < r.low then t.wrap (lowValue t r) else
        (rationalPlatform left).truncated t (sumOf left r v env)
      if r.high < value.val then t.wrap r.high else value := rfl
  rw [hwalk]
  by_cases hsum : sum < r.low
  · simp only [hsum, if_true, hlow, not_lt.mpr hle, if_false]
  · simp only [hsum, if_false]
    by_cases hover : r.high < sum
    · rw [if_pos hover, if_pos hover, IntType.wrap_val hhigh]
    · rw [if_neg hover, if_neg hover]

/-- Whatever the conversion leaves behind, the new value is in the range. -/
theorem walk_mem (h : walkRange t = some r) (v : t.Val) (env : Env) :
    r.low ≤ (walk (rationalPlatform left) t r.span r.low (lowValue t r) r.high v env).1.val ∧
      (walk (rationalPlatform left) t r.span r.low (lowValue t r) r.high v env).1.val ≤ r.high := by
  obtain ⟨-, hrange, -, -, -, hlow, hhigh⟩ := walkRange_fits h
  rw [walk_val left h]
  split_ifs
  · exact ⟨hlow, hhigh⟩
  · exact ⟨hrange, le_rfl⟩
  · constructor <;> omega

/-- A step goes no further than four percent of the span. -/
theorem sum_bounds (h : walkRange t = some r) (v : ℤ) (env : Env) :
    v - r.reach ≤ truncate (sumOf left r v env) ∧ truncate (sumOf left r v env) ≤ v + r.reach :=
  truncate_add_bounds ((abs_stepOf_le left r.span (walkRange_fits h).1 env).trans (Int.le_ceil _))

/-- A step above the range stays in the type, and so does a step below it where the type has
negative values. -/
theorem walkRange_margin (h : walkRange t = some r) :
    r.high + r.reach ≤ t.max ∧ (t.signed = true → t.min ≤ r.low - r.reach) := by
  cases t <;> cases h <;> decide +kernel

end Walk

end ASNeGDemo
