import ASNeGDemo.RandomWalk.Conversion
import ASNeGDemo.RandomWalk.RealArithmetic

/-!
The random walk of `Float` and `Double`. The steps are multiples of ten and small integers are
exact, so from the initial value on nothing is ever rounded. A client can write any double: a NaN
brings the walk to a standstill, since no comparison holds of it, and every other one is in the
range after one step.
-/
namespace ASNeGDemo

variable {P : Platform}

/-- The number a variant holds, as a double. -/
def number : Variant (Value P) → Option P.Double
  | .scalar .float v => some (P.widened v)
  | .scalar .double v => some v
  | _ => none

/-- The two comparisons of the walk. -/
def clampReal (P : Platform) (v : P.Double) : P.Double :=
  let v := if P.lt v (P.ofInt 0) then P.ofInt 0 else v
  if P.lt (P.ofInt 1000) v then P.ofInt 1000 else v

/-- What a sum becomes when it is stored. -/
inductive Storing (P : Platform) : (P.Double → P.Double) → Prop where
  | float : Storing P fun v => P.widened (P.rounded v)
  | double : Storing P id

namespace RealArithmetic

variable (hP : RealArithmetic P)
include hP

theorem clampReal_range (v : P.Double) :
    P.lt (clampReal P v) (P.ofInt 0) = false ∧ P.lt (P.ofInt 1000) (clampReal P v) = false := by
  have hzero : P.lt (P.ofInt 0) (P.ofInt 0) = false := by
    rw [hP.lt_ofInt 0 0 (by norm_num) (by norm_num)]
    rfl
  have hhigh : P.lt (P.ofInt 1000) (P.ofInt 0) = false := by
    rw [hP.lt_ofInt 1000 0 (by norm_num) (by norm_num)]
    rfl
  have hsame : P.lt (P.ofInt 1000) (P.ofInt 1000) = false := by
    rw [hP.lt_ofInt 1000 1000 (by norm_num) (by norm_num)]
    rfl
  unfold clampReal
  dsimp only
  cases hbelow : P.lt v (P.ofInt 0) with
  | true =>
    rw [if_pos rfl, hhigh, if_neg Bool.false_ne_true]
    exact ⟨hzero, hhigh⟩
  | false =>
    rw [if_neg Bool.false_ne_true]
    cases habove : P.lt (P.ofInt 1000) v with
    | true =>
      rw [if_pos rfl]
      exact ⟨hhigh, hsame⟩
    | false =>
      rw [if_neg Bool.false_ne_true]
      exact ⟨hbelow, habove⟩

omit hP in
theorem clampReal_of_unordered {v : P.Double} (hv : Unordered P v) : clampReal P v = v := by
  unfold clampReal
  dsimp only
  rw [(hv _).1, if_neg Bool.false_ne_true, (hv _).2, if_neg Bool.false_ne_true]

theorem clampReal_ofInt {a : ℤ} (ha : |a| ≤ 10000) :
    clampReal P (P.ofInt a) = P.ofInt (max 0 (min 1000 a)) := by
  unfold clampReal
  dsimp only
  rw [hP.lt_ofInt a 0 ha (by norm_num)]
  by_cases hneg : a < 0
  · rw [decide_eq_true hneg, if_pos rfl, hP.lt_ofInt 1000 0 (by norm_num) (by norm_num)]
    have hmax : max 0 (min 1000 a) = 0 := by omega
    rw [hmax]
    rfl
  · rw [decide_eq_false hneg, if_neg Bool.false_ne_true, hP.lt_ofInt 1000 a (by norm_num) ha]
    by_cases hhigh : 1000 < a
    · have hmax : max 0 (min 1000 a) = 1000 := by omega
      rw [decide_eq_true hhigh, if_pos rfl, hmax]
    · have hmax : max 0 (min 1000 a) = a := by omega
      rw [decide_eq_false hhigh, if_neg Bool.false_ne_true, hmax]

/-- The bounds are ordered, so the comparisons make no NaN. -/
theorem unordered_clampReal_iff (v : P.Double) : Unordered P (clampReal P v) ↔ Unordered P v := by
  have hbound : ∀ a : ℤ, |a| ≤ 1000 → ¬ Unordered P (P.ofInt a) := by
    intro a ha hunordered
    obtain ⟨hlow, hhigh⟩ := abs_le.mp ha
    have hlt := hP.lt_ofInt a (a + 1) (abs_le.mpr (by omega)) (abs_le.mpr (by omega))
    rw [decide_eq_true (lt_add_one a), (hunordered _).1] at hlt
    exact Bool.false_ne_true hlt
  constructor
  · intro hclamped
    by_contra hv
    have hcases : clampReal P v = v ∨ ∃ a : ℤ, |a| ≤ 1000 ∧ clampReal P v = P.ofInt a := by
      unfold clampReal
      dsimp only
      split_ifs
      · exact .inr ⟨1000, by norm_num, rfl⟩
      · exact .inr ⟨0, by norm_num, rfl⟩
      · exact .inr ⟨1000, by norm_num, rfl⟩
      · exact .inl rfl
    rcases hcases with hsame | ⟨a, ha, hbounded⟩
    · exact hv (hsame ▸ hclamped)
    · exact hbound a ha (hbounded ▸ hclamped)
  · intro hv
    rw [clampReal_of_unordered hv]
    exact hv

/-- A step is the product of a sign and ten times an integer of at most four. -/
theorem signedStep_eq (env : Env) :
    ∃ (k : ℕ) (sign : ℤ), k < 5 ∧ (sign = 1 ∨ sign = -1) ∧
      (signedStep P 1000 env).1 = P.mul (P.ofInt (10 * k)) (P.ofInt sign) := by
  have hsign : ∀ env, (mySign env).1 = 1 ∨ (mySign env).1 = -1 := by
    intro env
    unfold mySign
    simp only [Sim.bind_apply]
    split_ifs
    · exact .inr rfl
    · exact .inl rfl
  have hmod : ∀ r : ℕ, r % 5 < 5 := fun r => Nat.mod_lt r (by norm_num)
  unfold signedStep
  split_ifs
  · exact ⟨_, _, hmod _, hsign env, congrArg (P.mul · _) (hP.percent _ (hmod _))⟩
  · exact ⟨_, _, hmod _, hsign _, congrArg (P.mul · _) (hP.percent _ (hmod _))⟩

variable {stored : P.Double → P.Double} (hstored : Storing P stored)
include hstored

theorem stored_ofInt {a : ℤ} (ha : |a| ≤ 10000) : stored (P.ofInt a) = P.ofInt a := by
  cases hstored with
  | float => exact hP.widened_rounded a ha
  | double => rfl

theorem unordered_stored_iff (v : P.Double) : Unordered P (stored v) ↔ Unordered P v := by
  cases hstored with
  | float => exact hP.unordered_rounded_iff v
  | double => exact Iff.rfl

end RealArithmetic

/-- What a walking step does to a number, whatever it was before: a NaN stays one, everything else
is a number from 0 to 1000 afterwards, so that all below zero is below it and all above 1000 above
it, and a multiple of ten in the range goes to another one, at most four on. -/
structure RealStep (P : Platform) (v v' : P.Double) : Prop where
  not_below : P.lt v' (P.ofInt 0) = false
  not_above : P.lt (P.ofInt 1000) v' = false
  unordered_iff : Unordered P v' ↔ Unordered P v
  above_low : ¬ Unordered P v → ∀ w, P.lt w (P.ofInt 0) = true → P.lt w v' = true
  below_high : ¬ Unordered P v → ∀ w, P.lt (P.ofInt 1000) w = true → P.lt v' w = true
  multiple : ∀ k : ℤ, 0 ≤ k → k ≤ 100 → v = P.ofInt (10 * k) →
    ∃ k' : ℤ, 0 ≤ k' ∧ k' ≤ 100 ∧ |k' - k| ≤ 4 ∧ v' = P.ofInt (10 * k')

/-- The number after the step: not a NaN unless it was one, and with `lt_or_lt` in the range. -/
theorem RealArithmetic.unordered_walked_iff (hP : RealArithmetic P) {stored : P.Double → P.Double}
    (hstored : Storing P stored) (v : P.Double) (env : Env) :
    Unordered P (clampReal P (stored (P.add v (signedStep P 1000 env).1))) ↔ Unordered P v := by
  obtain ⟨k, sign, hk, hsign, hstep⟩ := hP.signedStep_eq env
  have hten : |(10 * k : ℤ)| ≤ 10000 := abs_le.mpr (by omega)
  rw [hP.unordered_clampReal_iff, hP.unordered_stored_iff hstored, hstep]
  exact hP.unordered_add_iff v _ sign hten hsign

theorem RealArithmetic.realStep (hP : RealArithmetic P) {stored : P.Double → P.Double}
    (hstored : Storing P stored) (v : P.Double) (env : Env) :
    RealStep P v (clampReal P (stored (P.add v (signedStep P 1000 env).1))) where
  not_below := (hP.clampReal_range _).1
  not_above := (hP.clampReal_range _).2
  unordered_iff := hP.unordered_walked_iff hstored v env
  above_low hv w hw := by
    have hordered := mt (hP.unordered_walked_iff hstored v env).mp hv
    rcases hP.lt_or_lt w _ _ hw hordered with hlow | hbelow
    · exact hlow
    · exact absurd ((hP.clampReal_range _).1.symm.trans hbelow) Bool.false_ne_true
  below_high hv w hw := by
    have hordered := mt (hP.unordered_walked_iff hstored v env).mp hv
    rcases hP.lt_or_lt _ _ w hw hordered with habove | hhigh
    · exact absurd ((hP.clampReal_range _).2.symm.trans habove) Bool.false_ne_true
    · exact hhigh
  multiple := by
    rintro k hlow hhigh rfl
    obtain ⟨j, sign, hj, hsign, hstep⟩ := hP.signedStep_eq env
    have hk : |10 * k| ≤ 10000 := abs_le.mpr (by omega)
    have hten : |(10 * j : ℤ)| ≤ 10000 := abs_le.mpr (by omega)
    have hsteps : |(j * sign : ℤ)| ≤ 4 := by
      rcases hsign with rfl | rfl <;> exact abs_le.mpr (by omega)
    obtain ⟨hstepslow, hstepshigh⟩ := abs_le.mp hsteps
    have hsum : |10 * (k + j * sign)| ≤ 10000 := abs_le.mpr (by omega)
    have hfactor : 10 * k + 10 * j * sign = 10 * (k + j * sign) := by ring
    rw [hstep, hP.add_mul_ofInt _ _ sign hk hten hsign, hfactor, hP.stored_ofInt hstored hsum,
      hP.clampReal_ofInt hsum]
    refine ⟨max 0 (min 100 (k + j * sign)), by omega, by omega, abs_le.mpr (by omega), ?_⟩
    congr 1
    omega

/-- The two types that walk as numbers. -/
def RealType (t : BuildInType) : Prop := t = .float ∨ t = .double

/-- The case of either type is a step. -/
theorem RealArithmetic.singleCase (hP : RealArithmetic P) {t : BuildInType} (ht : RealType t) :
    ∃ f, TestFolderLib.singleCase P t = some f ∧ ∀ v env, ∃ w w',
      number (.scalar t v) = some w ∧ number (.scalar t (f v env).1) = some w' ∧
        RealStep P w w' := by
  rcases ht with rfl | rfl
  · refine ⟨walkSingle P 1000 1000, rfl, ?_⟩
    intro v env
    refine ⟨_, _, rfl, rfl, ?_⟩
    have hstep := hP.realStep .float (P.widened v) env
    have hzero := hP.widened_rounded 0 (by norm_num)
    have hhigh := hP.widened_rounded 1000 (by norm_num)
    have hwalk : P.widened (walkSingle P 1000 1000 v env).1 =
        clampReal P (P.widened (P.rounded (P.add (P.widened v) (signedStep P 1000 env).1))) := by
      unfold walkSingle clampReal
      simp only [Sim.bind_apply, Sim.pure_apply, apply_ite P.widened, hzero, hhigh]
    rw [hwalk]
    exact hstep
  · refine ⟨walkDouble P 1000 1000, rfl, ?_⟩
    intro v env
    exact ⟨_, _, rfl, rfl, hP.realStep .double v env⟩

/-! ### The two classes -/

section Values

theorem number_isSome_iff {variant : Variant (Value P)} :
    (number variant).isSome = true ↔
      ∃ (t : BuildInType) (v : Value P t), RealType t ∧ variant = .scalar t v := by
  constructor
  · intro h
    cases variant with
    | scalar t v =>
      cases t with
      | float => exact ⟨_, v, .inl rfl, rfl⟩
      | double => exact ⟨_, v, .inr rfl, rfl⟩
      | _ => cases h
    | _ => cases h
  · rintro ⟨t, v, rfl | rfl, rfl⟩ <;> rfl

/-- The number behind the variant makes a step. -/
def RealUpdate {σ ε : Type} (next : σ → ε → σ) (variant : σ → Variant (Value P)) (s : σ) (e : ε) :
    Prop :=
  ∃ v v', number (variant s) = some v ∧ number (variant (next s e)) = some v' ∧ RealStep P v v'

theorem always_realUpdate {σ ε : Type} (next : σ → ε → σ) (variant : σ → Variant (Value P))
    (draws : ε → Env) (hP : RealArithmetic P)
    (hnext : ∀ {t f} s e (v : Value P t), TestFolderLib.singleCase P t = some f →
      variant s = .scalar t v → variant (next s e) = .scalar t (f v (draws e)).1)
    {s : σ} (hs : (number (variant s)).isSome = true) (es : List ε) :
    Runs.Always next (RealUpdate next variant) s es := by
  have hstep : ∀ s e, (number (variant s)).isSome = true → RealUpdate next variant s e := by
    intro s e hs
    obtain ⟨t, v, ht, hv⟩ := number_isSome_iff.mp hs
    obtain ⟨f, hcase, hreal⟩ := hP.singleCase ht
    obtain ⟨w, w', hw, hw', hrealStep⟩ := hreal v (draws e)
    exact ⟨w, w', hv ▸ hw, hnext s e v hcase hv ▸ hw', hrealStep⟩
  refine Runs.always_of_invariant (I := fun s => (number (variant s)).isSome = true) ?_ hstep hs es
  intro s e hs
  obtain ⟨v, v', -, hv', -⟩ := hstep s e hs
  rw [hv']
  rfl

end Values

section Objects

/-- The nodes of the two types, with the same initial value in both classes. -/
theorem realNode_mem_initialValues (P : Platform) (now : DateTime) :
    ((216, Variant.scalar .float (P.rounded (P.ofInt 500))) ∈ TestFolderLib.initialValues P now ∧
      (216, Variant.scalar .float (P.rounded (P.ofInt 500))) ∈ TestStatusCode.valuesTo220 P) ∧
    (218, Variant.scalar .double (P.ofInt 500)) ∈ TestFolderLib.initialValues P now ∧
      (218, Variant.scalar .double (P.ofInt 500)) ∈ TestStatusCode.valuesTo220 P := by
  simp [TestFolderLib.initialValues, TestStatusCode.valuesTo220]

theorem folder_ticked_scalar {s : TestFolderLib.State P} (hs : s.Separated) {t : BuildInType}
    {f : Value P t → Sim (Value P t)} (hcase : TestFolderLib.singleCase P t = some f) {n : NodeId}
    {v : Value P t} (hv : TestFolderLib.variantOf n s = some (.scalar t v)) (e : Tick) :
    TestFolderLib.variantOf n (TestFolderLib.ticked s e) = some (.scalar t
      (if updates (·.toMembers) n s e then (f v (TestFolderLib.drawsFor s e.1 n e.2)).1
        else v)) := by
  obtain ⟨d, hd, hvariant⟩ := Option.map_eq_some_iff.mp hv
  have hhandled : TestFolderLib.handled d = true := by
    unfold TestFolderLib.handled
    rw [hvariant]
    change handledType t = true
    rw [← TestFolderLib.singleCase_isSome (P := P), hcase]
    rfl
  unfold TestFolderLib.variantOf TestFolderLib.ticked updates
  rw [TestFolderLib.timerLoop_value_drawsFor hs, hd, Option.map_some, Option.map_some,
    TestFolderLib.visited_eq, hhandled, Bool.and_true]
  cases (liveReference s.baseNodeClassWMap e.1 n).isSome with
  | true => exact congrArg some (folder_updated_scalar hcase hvariant _)
  | false => exact congrArg some hvariant

/-- The nodes below 220 share nothing with others. -/
theorem status_ticked_scalar {ns : ℕ} {s : TestStatusCode.State P}
    (hs : TestStatusCode.Layout s (TestStatusCode.Pair 221 222 ns) (TestStatusCode.Pair 226 227 ns)
      fun n => n = nodeId 227 ns)
    {t : BuildInType} {f : Value P t → Sim (Value P t)}
    (hcase : TestFolderLib.singleCase P t = some f) {id : ℕ} (hid : id < 220) {v : Value P t}
    (hv : TestStatusCode.variantOf (nodeId id ns) s = some (.scalar t v)) (e : Tick) :
    TestStatusCode.variantOf (nodeId id ns) (TestStatusCode.ticked s e) =
      some (.scalar t (if updates (·.toMembers) (nodeId id ns) s e then
        (f v (TestStatusCode.drawsFor s e.1 (nodeId id ns) e.2)).1 else v)) := by
  have hpair : ∀ {i j m}, 220 < i → 220 < j → ¬ TestStatusCode.Pair i j ns m (nodeId id ns) := by
    rintro i j m hi hj (⟨-, heq⟩ | ⟨-, heq⟩) <;> rw [nodeId_inj] at heq <;> omega
  have hone : TestStatusCode.OneUpdate s e.1 (nodeId id ns) := by
    apply hs.oneUpdate
    · intro m d hm
      exact absurd hm (hpair (by decide) (by decide))
    · intro m hm
      exact absurd hm (hpair (by decide) (by decide))
    · intro heq
      rw [nodeId_inj] at heq
      omega
  obtain ⟨d, hd, hvariant⟩ := Option.map_eq_some_iff.mp hv
  unfold TestStatusCode.variantOf TestStatusCode.ticked updates
  rw [hone.updated, hd, Option.map_some, Option.map_some]
  exact congrArg some (status_visited_variant hcase _ _ e.1 _ hvariant _)

/-- The variant holds a multiple of ten between 0 and 1000. -/
def MultipleOfTen (variant : Option (Variant (Value P))) : Prop :=
  ∃ k : ℤ, 0 ≤ k ∧ k ≤ 100 ∧ variant.bind number = some (P.ofInt (10 * k))

variable (hP : RealArithmetic P)
include hP

/-- A tick updates the value by a step or leaves it. -/
theorem MultipleOfTen.tick {variant : Option (Variant (Value P))} (h : MultipleOfTen variant)
    {variant' : Option (Variant (Value P))} {updated : Bool} {env : Env}
    (hnext : ∀ {t f} (v : Value P t), TestFolderLib.singleCase P t = some f →
      variant = some (.scalar t v) →
        variant' = some (.scalar t (if updated then (f v env).1 else v))) :
    MultipleOfTen variant' := by
  obtain ⟨k, hlow, hhigh, hnumber⟩ := h
  obtain ⟨held, rfl, hheld⟩ := Option.bind_eq_some_iff.mp hnumber
  have hsome : (number held).isSome = true := by
    rw [hheld]
    rfl
  obtain ⟨t, v, ht, rfl⟩ := number_isSome_iff.mp hsome
  obtain ⟨f, hcase, hreal⟩ := hP.singleCase ht
  have hvariant := hnext v hcase rfl
  cases updated with
  | false =>
    rw [hvariant]
    exact ⟨k, hlow, hhigh, hheld⟩
  | true =>
    obtain ⟨w, w', hw, hw', hstep⟩ := hreal v env
    obtain ⟨k', hlow', hhigh', -, hmultiple⟩ :=
      hstep.multiple k hlow hhigh (Option.some.inj (hw.symm.trans hheld))
    rw [hvariant]
    exact ⟨k', hlow', hhigh', hmultiple ▸ hw'⟩

theorem folder_multipleOfTen (es : List Tick) {s : TestFolderLib.State P} (hs : s.Separated)
    {n : NodeId} (hn : MultipleOfTen (TestFolderLib.variantOf n s)) :
    MultipleOfTen (TestFolderLib.variantOf n (es.foldl TestFolderLib.ticked s)) := by
  induction es generalizing s with
  | nil => exact hn
  | cons e es ih =>
    refine ih (TestFolderLib.timerLoop_separated hs e.1 e.2) ?_
    exact hn.tick hP fun v hcase hv => folder_ticked_scalar hs hcase hv e

theorem status_multipleOfTen (es : List Tick) {ns : ℕ} {s : TestStatusCode.State P}
    (hs : TestStatusCode.Layout s (TestStatusCode.Pair 221 222 ns) (TestStatusCode.Pair 226 227 ns)
      fun n => n = nodeId 227 ns)
    {id : ℕ} (hid : id < 220)
    (hn : MultipleOfTen (TestStatusCode.variantOf (nodeId id ns) s)) :
    MultipleOfTen (TestStatusCode.variantOf (nodeId id ns)
      (es.foldl TestStatusCode.ticked s)) := by
  induction es generalizing s with
  | nil => exact hn
  | cons e es ih =>
    refine ih (hs.timerLoop e.1 e.2) ?_
    exact hn.tick hP fun v hcase hv => status_ticked_scalar hs hcase hid hv e

/-- For both classes, on a platform with such arithmetic. From the initial values on, whatever the
ticks draw and whichever references are gone, `Float` and `Double` hold a multiple of ten between
0 and 1000. From any value that a client has written every update leaves a NaN one, and takes every
other number to one in that range. -/
theorem real_walk (env : Env) (now : DateTime) (ns : ℕ) (references : OrderedMap NodeId NodeRef) :
    (∀ es : List Tick, ∀ id ∈ [216, 218],
      MultipleOfTen (TestFolderLib.variantOf (nodeId id ns)
        (es.foldl TestFolderLib.ticked (TestFolderLib.created P env now ns references))) ∧
      MultipleOfTen (TestStatusCode.variantOf (nodeId id ns)
        (es.foldl TestStatusCode.ticked (TestStatusCode.created P env ns references)))) ∧
    (∀ (d : DataValue (Value P)) (es : List Env), (number d.variant).isSome = true →
      Runs.Always TestFolderLib.updated (RealUpdate TestFolderLib.updated DataValue.variant)
        d es) ∧
    ∀ (s : DataValue (Slot P) × Heap P) (es : List (StatusCode × Env)),
      (number (s.1.load s.2).variant).isSome = true →
      Runs.Always TestStatusCode.updated
        (RealUpdate TestStatusCode.updated fun s => (s.1.load s.2).variant) s es := by
  refine ⟨?_, ?_, ?_⟩
  · have hinitial : ∀ {id : ℕ} {t : BuildInType} {v : Value P t}, id < 220 → RealType t →
        number (.scalar t v) = some (P.ofInt 500) →
        (id, Variant.scalar t v) ∈ TestFolderLib.initialValues P now →
        (id, Variant.scalar t v) ∈ TestStatusCode.valuesTo220 P → ∀ es : List Tick,
        MultipleOfTen (TestFolderLib.variantOf (nodeId id ns)
          (es.foldl TestFolderLib.ticked (TestFolderLib.created P env now ns references))) ∧
        MultipleOfTen (TestStatusCode.variantOf (nodeId id ns)
          (es.foldl TestStatusCode.ticked (TestStatusCode.created P env ns references))) := by
      intro id t v hid ht hnumber hfolder hstatus es
      have hvalue : MultipleOfTen (some (Variant.scalar t v)) :=
        ⟨50, by norm_num, by norm_num, hnumber⟩
      constructor
      · apply folder_multipleOfTen hP es (TestFolderLib.created_separated env now ns references)
        unfold TestFolderLib.variantOf
        rw [TestFolderLib.created_value, TestFolderLib.initialValue_of_mem hfolder]
        exact hvalue
      · apply status_multipleOfTen hP es
          (TestStatusCode.created_layout (P := P) env ns references).layout hid
        have hcreated : TestStatusCode.variantOf (nodeId id ns)
            (TestStatusCode.created P env ns references) = some (.scalar t v) :=
          TestStatusCode.created_value_scalar env ns references (by rcases ht with rfl | rfl <;> rfl)
            hstatus
        rw [hcreated]
        exact hvalue
    obtain ⟨⟨hfolder216, hstatus216⟩, hfolder218, hstatus218⟩ := realNode_mem_initialValues P now
    have hfloat : number (.scalar .float (P.rounded (P.ofInt 500)) : Variant (Value P)) =
        some (P.ofInt 500) :=
      congrArg some (hP.widened_rounded 500 (by norm_num))
    intro es id hid
    rcases List.mem_pair.mp hid with rfl | rfl
    · exact hinitial (by norm_num) (.inl rfl) hfloat hfolder216 hstatus216 es
    · exact hinitial (by norm_num) (.inr rfl) rfl hfolder218 hstatus218 es
  · intro d es hd
    refine always_realUpdate TestFolderLib.updated DataValue.variant id hP ?_ hd es
    intro t f d env v hcase hd
    exact folder_updated_scalar hcase hd env
  · intro s es hs
    refine always_realUpdate TestStatusCode.updated (fun s => (s.1.load s.2).variant) Prod.snd hP
      ?_ hs es
    intro t f s e v hcase hs
    exact status_updated_scalar hcase hs e

end Objects

/-- A client writes a NaN, and the next update leaves it. -/
theorem real_walk_nan :
    let d : DataValue (Value binaryPlatform) :=
      ⟨.scalar .double (Float.Model.pack .notANumber), .success, 0, 0⟩
    let env : Env := ⟨Stream'.const 0, Stream'.const 0⟩
    (number (TestFolderLib.updated d env).variant).map Float.Model.isNaN = some true := by
  intro d env
  have hwalk := real_walk binaryPlatform_arithmetic env 0 2 .empty
  obtain ⟨⟨v, v', hv, hv', hstep⟩, -⟩ := hwalk.2.1 d [env] rfl
  obtain rfl : Float.Model.pack .notANumber = v := Option.some.inj hv
  have hnan : Unordered binaryPlatform (Float.Model.pack .notANumber) :=
    (binaryPlatform_unordered_iff _).mpr (by decide +kernel)
  rw [hv']
  exact congrArg some ((binaryPlatform_unordered_iff v').mp (hstep.unordered_iff.mpr hnan))

end ASNeGDemo
