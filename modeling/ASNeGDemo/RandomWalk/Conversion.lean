import ASNeGDemo.RandomWalk.Clamp
import ASNeGDemo.TestStatusCode.InitialValues

/-!
The conversions of the random walk from the initial values on. A sum below zero is converted to
an unsigned type before it is compared with the lower bound.
-/
namespace ASNeGDemo

/-- A tick: the references that can be locked, and what it draws. -/
abbrev Tick := (NodeRef → Bool) × Env

/-- The identifier and the initial value of the scalar node of a type, in both classes. -/
def walkNode : IntType → ℕ × ℤ
  | .sByte => (200, 11)
  | .byte => (202, 32)
  | .int16 => (204, 25)
  | .uint16 => (206, 50)
  | .int32 => (208, 180)
  | .uint32 => (210, 180)
  | .int64 => (212, 0)
  | .uint64 => (214, 1500)

section Runs
variable (left : Leftovers) (t : IntType) (r : WalkRange) {σ : Type} (ticked : σ → Tick → σ)
  (updates : σ → Tick → Bool) (variant : σ → Option (Variant (Value (rationalPlatform left))))
  (draws : σ → Tick → Env)

/-- If the tick updates the node, the truncated sum is a value of the type. -/
def Representable (s : σ) (e : Tick) : Prop :=
  updates s e = true → ∃ u : t.Val, variant s = some (.scalar (.int t) u) ∧
    t.Fits (truncate (sumOf left r u (draws s e)))

/-- If the tick updates the node, the sum does not come down to `-1`. -/
def AboveMinusOne (s : σ) (e : Tick) : Prop :=
  updates s e = true → ∀ u : t.Val, variant s = some (.scalar (.int t) u) →
    -1 < sumOf left r u (draws s e)

variable {t r updates variant draws}

/-- From a value in the range only a sum below zero is out of the type, and only if the type has
no sign. -/
theorem fits_sum_iff (h : walkRange t = some r) {v : ℤ} (hlow : r.low ≤ v) (hhigh : v ≤ r.high)
    (env : Env) :
    t.Fits (truncate (sumOf left r v env)) ↔ (t.signed = false → -1 < sumOf left r v env) := by
  have hreach := sum_bounds left h v env
  obtain ⟨hmax, hmin⟩ := walkRange_margin h
  unfold IntType.Fits
  cases hsigned : t.signed with
  | true =>
    have hmin := hmin hsigned
    exact iff_of_true (by omega) fun h => absurd h (by decide)
  | false =>
    have hzero : t.min = 0 := by
      unfold IntType.min
      rw [hsigned]
      rfl
    have hsum := le_truncate_iff le_rfl (sumOf left r v env)
    rw [Int.cast_zero, zero_sub] at hsum
    rw [hzero, hsum]
    simp only [forall_const]
    exact and_iff_left (by omega)

variable {left} in
theorem representable_iff (h : walkRange t = some r) {s : σ} {e : Tick} {v : t.Val}
    (hv : variant s = some (.scalar (.int t) v)) (hlow : r.low ≤ v.val) (hhigh : v.val ≤ r.high) :
    Representable left t r updates variant draws s e ↔
      (t.signed = false → AboveMinusOne left t r updates variant draws s e) := by
  have hfits := fits_sum_iff left h hlow hhigh (draws s e)
  have hinj : ∀ {u : t.Val}, variant s = some (.scalar (.int t) u) → v = u := by
    intro u hu
    rw [hv] at hu
    cases hu
    rfl
  constructor
  · intro hrep hsigned hupdates u hu
    obtain ⟨w, hw, hfit⟩ := hrep hupdates
    obtain rfl := hinj hu
    obtain rfl := hinj hw
    exact hfits.mp hfit hsigned
  · intro habove hupdates
    exact ⟨v, hv, hfits.mpr fun hsigned => habove hsigned hupdates v hv⟩

variable (updates variant draws) in
theorem always_representable_iff (h : walkRange t = some r) {J : σ → Prop}
    (hkeeps : ∀ s e, J s → J (ticked s e))
    (hwalks : ∀ s e (v : t.Val), J s → variant s = some (.scalar (.int t) v) →
      variant (ticked s e) = some (.scalar (.int t) (if updates s e then
        (walk (rationalPlatform left) t r.span r.low (lowValue t r) r.high v (draws s e)).1 else v)))
    {s : σ} (hs : J s) (hv : variant s = some (.scalar (.int t) (t.wrap (walkNode t).2)))
    (es : List Tick) :
    Runs.Always ticked (Representable left t r updates variant draws) s es ↔
      (t.signed = false →
        Runs.Always ticked (AboveMinusOne left t r updates variant draws) s es) := by
  rw [← Runs.always_imp]
  let I : σ → Prop := fun s => J s ∧ ∃ v : t.Val, variant s = some (.scalar (.int t) v) ∧
    r.low ≤ v.val ∧ v.val ≤ r.high
  have hinitial : r.low ≤ (t.wrap (walkNode t).2).val ∧ (t.wrap (walkNode t).2).val ≤ r.high := by
    cases t <;> cases h <;> decide
  have hI : ∀ s e, I s → I (ticked s e) := by
    rintro s e ⟨hJ, v, hv, hrange⟩
    refine ⟨hkeeps s e hJ, _, hwalks s e v hJ hv, ?_⟩
    cases updates s e with
    | true => exact walk_mem left h v (draws s e)
    | false => exact hrange
  apply Runs.always_congr hI
  · rintro s e ⟨-, v, hv, hlow, hhigh⟩
    exact representable_iff h hv hlow hhigh
  · exact ⟨hs, _, hv, hinitial⟩

end Runs

/-! ### The two classes -/

section Classes
variable {P : Platform}

def TestFolderLib.ticked (s : TestFolderLib.State P) (e : Tick) : TestFolderLib.State P :=
  (TestFolderLib.timerLoop s e.1 e.2).1.1

def TestStatusCode.ticked (s : TestStatusCode.State P) (e : Tick) : TestStatusCode.State P :=
  (TestStatusCode.timerLoop s e.1 e.2).1.1

/-- The reference of the node can be locked in the tick. -/
def updates {σ : Type} (members : σ → Members P) (n : NodeId) (s : σ) (e : Tick) : Bool :=
  (liveReference (members s).baseNodeClassWMap e.1 n).isSome

end Classes

variable {left : Leftovers} {t : IntType} {r : WalkRange}

theorem walkNode_mem_initialValues (t : IntType) (P : Platform) (now : DateTime) :
    ((walkNode t).1, Variant.scalar (.int t) (t.wrap (walkNode t).2)) ∈
        TestFolderLib.initialValues P now ∧
      ((walkNode t).1, Variant.scalar (.int t) (t.wrap (walkNode t).2)) ∈
        TestStatusCode.valuesTo220 P := by
  cases t <;> simp [walkNode, TestFolderLib.initialValues, TestStatusCode.valuesTo220]

theorem folder_ticked_variantOf {s : TestFolderLib.State (rationalPlatform left)}
    (hs : s.Separated) (h : walkRange t = some r) {n : NodeId} {v : t.Val}
    (hv : TestFolderLib.variantOf n s = some (.scalar (.int t) v)) (e : Tick) :
    TestFolderLib.variantOf n (TestFolderLib.ticked s e) = some (.scalar (.int t)
      (if updates (·.toMembers) n s e then (walk (rationalPlatform left) t r.span r.low
        (lowValue t r) r.high v (TestFolderLib.drawsFor s e.1 n e.2)).1 else v)) := by
  obtain ⟨d, hd, hvariant⟩ := Option.map_eq_some_iff.mp hv
  have hhandled : TestFolderLib.handled d = true := by
    unfold TestFolderLib.handled
    rw [hvariant]
    rfl
  unfold TestFolderLib.variantOf TestFolderLib.ticked updates
  rw [TestFolderLib.timerLoop_value_drawsFor hs, hd, Option.map_some, Option.map_some,
    TestFolderLib.visited_eq, hhandled, Bool.and_true]
  cases (liveReference s.baseNodeClassWMap e.1 n).isSome with
  | true =>
    exact congrArg some (folder_updated_scalar (singleCase_walk _ h) hvariant _)
  | false => exact congrArg some hvariant

theorem status_visited_variant {P : Platform} {t : BuildInType} {f : Value P t → Sim (Value P t)}
    (hcase : TestFolderLib.singleCase P t = some f) (statusCode : StatusCode)
    (references : OrderedMap NodeId NodeRef) (live : NodeRef → Bool) (n : NodeId)
    {d : DataValue (Value P)} {v : Value P t} (hd : d.variant = .scalar t v) (env : Env) :
    (TestStatusCode.visited statusCode references live n d env).variant = .scalar t
      (if (liveReference references live n).isSome then (f v env).1 else v) := by
  unfold TestStatusCode.visited
  rw [TestStatusCode.updateValue_eq]
  cases (liveReference references live n).isSome with
  | true =>
    have hupdated := folder_updated_scalar hcase hd env
    unfold TestFolderLib.updated at hupdated
    simp only [if_true, ← hupdated]
    cases (TestFolderLib.update d env).1 <;> rfl
  | false => exact hd

/-- The nodes of the scalars share neither data values nor objects with others. -/
theorem status_ticked_variantOf {ns : ℕ} {s : TestStatusCode.State (rationalPlatform left)}
    (hs : TestStatusCode.Layout s (TestStatusCode.Pair 221 222 ns) (TestStatusCode.Pair 226 227 ns)
      fun n => n = nodeId 227 ns)
    (h : walkRange t = some r) {v : t.Val}
    (hv : TestStatusCode.variantOf (nodeId (walkNode t).1 ns) s = some (.scalar (.int t) v))
    (e : Tick) :
    TestStatusCode.variantOf (nodeId (walkNode t).1 ns) (TestStatusCode.ticked s e) =
      some (.scalar (.int t) (if updates (·.toMembers) (nodeId (walkNode t).1 ns) s e then
        (walk (rationalPlatform left) t r.span r.low (lowValue t r) r.high v
          (TestStatusCode.drawsFor s e.1 (nodeId (walkNode t).1 ns) e.2)).1 else v)) := by
  have hid : (walkNode t).1 < 220 := by
    cases t <;> decide
  have hpair : ∀ {i j m}, 220 < i → 220 < j →
      ¬ TestStatusCode.Pair i j ns m (nodeId (walkNode t).1 ns) := by
    rintro i j m hi hj (⟨-, heq⟩ | ⟨-, heq⟩) <;> rw [nodeId_inj] at heq <;> omega
  have hone : TestStatusCode.OneUpdate s e.1 (nodeId (walkNode t).1 ns) := by
    apply hs.oneUpdate
    · intro m d hm
      exact absurd hm (hpair (by decide) (by decide))
    · intro m hm
      exact absurd hm (hpair (by decide) (by decide))
    · intro heq
      rw [nodeId_inj] at heq
      omega
  obtain ⟨d, hd, hvariant⟩ := Option.map_eq_some_iff.mp hv
  unfold TestStatusCode.variantOf TestStatusCode.ticked updates
  rw [hone.updated, hd, Option.map_some, Option.map_some]
  exact congrArg some (status_visited_variant (singleCase_walk _ h) _ _ e.1 _ hvariant _)

/-- For both classes and every scalar of a walking type: in a run of ticks from the initial
values every sum is representable before it is converted exactly if the type has a sign or no
sum comes down to `-1`. -/
theorem conversions_iff (left : Leftovers) {t : IntType} {r : WalkRange} (h : walkRange t = some r)
    (env : Env) (now : DateTime) (ns : ℕ) (references : OrderedMap NodeId NodeRef)
    (es : List Tick) :
    let n := nodeId (walkNode t).1 ns
    (Runs.Always TestFolderLib.ticked
        (Representable left t r (updates (·.toMembers) n) (TestFolderLib.variantOf n)
          fun s e => TestFolderLib.drawsFor s e.1 n e.2)
        (TestFolderLib.created (rationalPlatform left) env now ns references) es ↔
      (t.signed = false → Runs.Always TestFolderLib.ticked
        (AboveMinusOne left t r (updates (·.toMembers) n) (TestFolderLib.variantOf n)
          fun s e => TestFolderLib.drawsFor s e.1 n e.2)
        (TestFolderLib.created (rationalPlatform left) env now ns references) es)) ∧
    (Runs.Always TestStatusCode.ticked
        (Representable left t r (updates (·.toMembers) n) (TestStatusCode.variantOf n)
          fun s e => TestStatusCode.drawsFor s e.1 n e.2)
        (TestStatusCode.created (rationalPlatform left) env ns references) es ↔
      (t.signed = false → Runs.Always TestStatusCode.ticked
        (AboveMinusOne left t r (updates (·.toMembers) n) (TestStatusCode.variantOf n)
          fun s e => TestStatusCode.drawsFor s e.1 n e.2)
        (TestStatusCode.created (rationalPlatform left) env ns references) es)) := by
  intro n
  constructor
  · have hinitial : TestFolderLib.variantOf n
        (TestFolderLib.created (rationalPlatform left) env now ns references) =
          some (.scalar (.int t) (t.wrap (walkNode t).2)) := by
      unfold TestFolderLib.variantOf
      rw [TestFolderLib.created_value,
        TestFolderLib.initialValue_of_mem (walkNode_mem_initialValues t _ now).1]
      rfl
    have hcreated := TestFolderLib.created_separated (P := rationalPlatform left) env now ns
      references
    generalize TestFolderLib.created (rationalPlatform left) env now ns references = s
      at hinitial hcreated
    exact always_representable_iff left TestFolderLib.ticked (updates (·.toMembers) n)
      (TestFolderLib.variantOf n) (fun s e => TestFolderLib.drawsFor s e.1 n e.2) h
      (fun s e hs => TestFolderLib.timerLoop_separated hs e.1 e.2)
      (fun s e v hs hv => folder_ticked_variantOf hs h hv e) hcreated hinitial es
  · have hinitial := TestStatusCode.created_value_int env ns references
      (walkNode_mem_initialValues t (rationalPlatform left) now).2
    have hcreated := (TestStatusCode.created_layout (P := rationalPlatform left) env ns
      references).layout
    generalize TestStatusCode.created (rationalPlatform left) env ns references = s
      at hinitial hcreated
    exact always_representable_iff left TestStatusCode.ticked (updates (·.toMembers) n)
      (TestStatusCode.variantOf n) (fun s e => TestStatusCode.drawsFor s e.1 n e.2) h
      (fun s e hs => hs.timerLoop e.1 e.2)
      (fun s e v hs hv => status_ticked_variantOf hs h hv e) hcreated hinitial es

theorem conversions_iff_int16 :
    let env : Env := ⟨Stream'.const 0, Stream'.const 0⟩
    let tick : Tick := (fun _ => true, ⟨Stream'.const 9, Stream'.const 0⟩)
    let references := OrderedMap.empty.insertAll [(nodeId 204 2, 0)]
    let n := nodeId 204 2
    Runs.Always TestFolderLib.ticked
        (Representable wrapping .int16 ⟨150, -50, 100⟩ (updates (·.toMembers) n)
          (TestFolderLib.variantOf n) fun s e => TestFolderLib.drawsFor s e.1 n e.2)
        (TestFolderLib.created (rationalPlatform wrapping) env 0 2 references) [tick, tick] ∧
      Runs.Always TestStatusCode.ticked
        (Representable wrapping .int16 ⟨150, -50, 100⟩ (updates (·.toMembers) n)
          (TestStatusCode.variantOf n) fun s e => TestStatusCode.drawsFor s e.1 n e.2)
        (TestStatusCode.created (rationalPlatform wrapping) env 2 references) [tick, tick] := by
  intro env tick references n
  have hrange : walkRange .int16 = some ⟨150, -50, 100⟩ := rfl
  have hboth := conversions_iff wrapping hrange env 0 2 references [tick, tick]
  exact ⟨hboth.1.mpr fun h => absurd h (by decide), hboth.2.mpr fun h => absurd h (by decide)⟩

/-- The integer a variant holds. -/
def asInt {P : Platform} : Variant (Value P) → Option ℤ
  | .scalar (.int _) v => some v.val
  | _ => none

theorem not_representable {σ : Type} {update : σ → Tick → Bool}
    {variant : σ → Option (Variant (Value (rationalPlatform left)))} {draws : σ → Tick → Env}
    {s : σ} {e : Tick} {z : ℤ} (h : update s e = true ∧ (variant s).bind asInt = some z ∧
      ¬ t.Fits (truncate (sumOf left r z (draws s e)))) :
    ¬ Representable left t r update variant draws s e := by
  obtain ⟨hupdate, hz, hnot⟩ := h
  intro hrep
  obtain ⟨u, hu, hfits⟩ := hrep hupdate
  rw [hu] at hz
  have huz : u.val = z := Option.some.inj hz
  exact hnot (huz ▸ hfits)

/-- Eleven ticks take the `Byte` down from 32 to 0, the twelfth converts `-2.56`. -/
theorem conversion_below_zero :
    let env : Env := ⟨Stream'.const 0, Stream'.const 0⟩
    let tick : Tick := (fun _ => true, ⟨Stream'.const 9, Stream'.const 0⟩)
    let references := OrderedMap.empty.insertAll [(nodeId 202 2, 0)]
    let n := nodeId 202 2
    ¬ Runs.Always TestFolderLib.ticked
        (Representable wrapping .byte ⟨64, 0, 64⟩ (updates (·.toMembers) n)
          (TestFolderLib.variantOf n) fun s e => TestFolderLib.drawsFor s e.1 n e.2)
        (TestFolderLib.created (rationalPlatform wrapping) env 0 2 references)
        (List.replicate 11 tick ++ [tick]) ∧
      ¬ Runs.Always TestStatusCode.ticked
        (Representable wrapping .byte ⟨64, 0, 64⟩ (updates (·.toMembers) n)
          (TestStatusCode.variantOf n) fun s e => TestStatusCode.drawsFor s e.1 n e.2)
        (TestStatusCode.created (rationalPlatform wrapping) env 2 references)
        (List.replicate 11 tick ++ [tick]) := by
  intro env tick references n
  constructor
  · intro h
    apply absurd (Runs.always_append_singleton h)
    exact not_representable (z := 0) (by decide +kernel)
  · intro h
    apply absurd (Runs.always_append_singleton h)
    exact not_representable (z := 0) (by decide +kernel)

end ASNeGDemo
