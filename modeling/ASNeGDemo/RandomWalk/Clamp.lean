import ASNeGDemo.RandomWalk.Rational
import ASNeGDemo.TestStatusCode.Agreement

/-!
The random walk over any number of ticks. Both classes walk the same way: within the range,
and clamped to it, but for the lower bound of `Int64`.
-/
namespace ASNeGDemo

/-- The data value and the objects after one `updateSingle` or `updateArray`. -/
def TestStatusCode.updated {P : Platform} (s : DataValue (Slot P) × Heap P)
    (tick : StatusCode × Env) : DataValue (Slot P) × Heap P :=
  (TestStatusCode.update tick.1 s.2 s.1 tick.2).1.getD s

section Updates
variable {P : Platform}

/-- An update of a scalar stores what its case makes of the value. -/
theorem folder_updated_scalar {t : BuildInType} {f : Value P t → Sim (Value P t)}
    (hcase : TestFolderLib.singleCase P t = some f) {d : DataValue (Value P)} {v : Value P t}
    (hd : d.variant = .scalar t v) (env : Env) :
    (TestFolderLib.updated d env).variant = .scalar t (f v env).1 := by
  obtain ⟨variant, _, _, _⟩ := d
  obtain rfl : variant = .scalar t v := hd
  simp only [TestFolderLib.updated, TestFolderLib.update, TestFolderLib.updateSingle,
    Variant.isArray, hcase]
  rfl

/-- What is read after an update is the update of what was read before. -/
theorem status_updated_variant {s : DataValue (Slot P) × Heap P} (howned : s.1.refs.Nodup)
    (tick : StatusCode × Env) :
    ((TestStatusCode.updated s tick).1.load (TestStatusCode.updated s tick).2).variant =
      (TestFolderLib.updated (s.1.load s.2) tick.2).variant := by
  obtain ⟨hload, -⟩ := TestStatusCode.update_load tick.1 s.2 howned tick.2
  rw [TestStatusCode.updateValue_eq] at hload
  unfold TestStatusCode.updated TestFolderLib.updated
  cases hu : (TestFolderLib.update (s.1.load s.2) tick.2).1 with
  | none =>
    rw [hu] at hload
    rw [Option.map_eq_none_iff.mp hload]
    rfl
  | some d =>
    rw [hu] at hload
    obtain ⟨updated, hupdated, hd⟩ := Option.map_eq_some_iff.mp hload
    have hvariant : (updated.1.load updated.2).variant = d.variant := by
      rw [hd]
      rfl
    rw [hupdated]
    exact hvariant

theorem scalar_refs_nodup {d : DataValue (Slot P)} {h : Heap P} {t : BuildInType} {v : Value P t}
    (hd : (d.load h).variant = .scalar t v) : d.refs.Nodup := by
  obtain ⟨variant, _, _, _⟩ := d
  cases variant with
  | null => exact List.nodup_nil
  | scalar t slot =>
    cases slot with
    | val v => exact List.nodup_nil
    | ref a => exact List.nodup_singleton _
  | array t slots => simp [DataValue.load, DataValue.map, Variant.map] at hd

theorem status_updated_scalar {t : BuildInType} {f : Value P t → Sim (Value P t)}
    (hcase : TestFolderLib.singleCase P t = some f) {s : DataValue (Slot P) × Heap P}
    {v : Value P t} (hs : (s.1.load s.2).variant = .scalar t v) (tick : StatusCode × Env) :
    ((TestStatusCode.updated s tick).1.load (TestStatusCode.updated s tick).2).variant =
      .scalar t (f v tick.2).1 :=
  (status_updated_variant (scalar_refs_nodup hs) tick).trans
    (folder_updated_scalar hcase hs tick.2)

end Updates

/-! ### Runs -/

section Runs
variable (left : Leftovers) (t : IntType) (r : WalkRange) {σ ε : Type} (next : σ → ε → σ)
  (variant : σ → Variant (Value (rationalPlatform left))) (draws : ε → Env)

/-- The tick stores the nearest value of the range to the truncated sum, and moves a value of
the range by at most four percent of the span. -/
def ClampedTick (s : σ) (e : ε) : Prop :=
  ∃ u u' : t.Val, variant s = .scalar (.int t) u ∧ variant (next s e) = .scalar (.int t) u' ∧
    u'.val = r.clamp (truncate (sumOf left r u (draws e))) ∧ r.low ≤ u'.val ∧ u'.val ≤ r.high ∧
    (r.low ≤ u.val → u.val ≤ r.high → |u'.val - u.val| ≤ r.reach)

/-- The sum of the stored value and the step does not come down to the integer below the range. -/
def AboveLow (s : σ) (e : ε) : Prop :=
  ∀ u : t.Val, variant s = .scalar (.int t) u → (r.low - 1 : ℚ) < sumOf left r u (draws e)

variable {left t r next variant draws}

theorem clamp_reach {u z : ℤ} (hlow : r.low ≤ u) (hhigh : u ≤ r.high) (h : |z - u| ≤ r.reach) :
    |r.clamp z - u| ≤ r.reach := by
  unfold WalkRange.clamp
  rw [abs_le] at h ⊢
  omega

/-- Storing the bound is clamping; at its lower bound `Int64` stores another value. -/
theorem stored_eq_clamp_iff (h : walkRange t = some r) (z : ℤ) :
    (if z < r.low then lowValue t r else if r.high < z then r.high else z) = r.clamp z ↔
      (t = .int64 → r.low ≤ z) := by
  obtain ⟨-, hrange, -⟩ := walkRange_fits h
  have hlowValue : lowValue t r = r.low ↔ t ≠ .int64 := by
    cases t <;> cases h <;> decide
  unfold WalkRange.clamp
  split_ifs with hlow hhigh
  · have hclamp : max r.low (min r.high z) = r.low := by omega
    rw [hclamp, hlowValue]
    constructor
    · intro hne ht
      exact absurd ht hne
    · intro hle ht
      exact absurd (hle ht) (not_le.mpr hlow)
  · exact iff_of_true (by omega) (fun _ => by omega)
  · exact iff_of_true (by omega) (fun _ => by omega)

theorem aboveLow_iff (h : walkRange t = some r) {s : σ} {e : ε} {v : t.Val}
    (hv : variant s = .scalar (.int t) v) :
    AboveLow left t r variant draws s e ↔ r.low ≤ truncate (sumOf left r v (draws e)) := by
  have hlow : r.low ≤ 0 := by
    cases t <;> cases h <;> decide
  rw [le_truncate_iff hlow]
  constructor
  · intro habove
    exact habove v hv
  · intro hsum u hu
    rw [hv] at hu
    cases hu
    exact hsum

theorem clampedTick_iff (h : walkRange t = some r)
    (hwalks : ∀ s e (v : t.Val), variant s = .scalar (.int t) v → variant (next s e) =
      .scalar (.int t)
        (walk (rationalPlatform left) t r.span r.low (lowValue t r) r.high v (draws e)).1)
    {s : σ} {e : ε} {v : t.Val} (hv : variant s = .scalar (.int t) v)
    (hfits : t.Fits (truncate (sumOf left r v (draws e)))) :
    ClampedTick left t r next variant draws s e ↔
      (t = .int64 → AboveLow left t r variant draws s e) := by
  have hnext := hwalks s e v hv
  have hvalue := walk_val left h v (draws e)
  have hmem := walk_mem left h v (draws e)
  have hreach := sum_bounds left h v (draws e)
  simp only [truncated_val left hfits] at hvalue
  rw [aboveLow_iff h hv, ← stored_eq_clamp_iff h, ← hvalue]
  constructor
  · rintro ⟨u, u', hu, hu', hclamp, -⟩
    rw [hv] at hu
    rw [hnext] at hu'
    cases hu
    cases hu'
    exact hclamp
  · intro hclamp
    refine ⟨v, _, hv, hnext, hclamp, hmem.1, hmem.2, ?_⟩
    intro hlow hhigh
    rw [hclamp]
    exact clamp_reach hlow hhigh (abs_le.mpr (by omega))

variable (left next variant draws) in
/-- From a stored value whose sum with the first step fits: in a run of ticks every one is
clamped exactly if the value is no `Int64` or no sum comes down below the range. -/
theorem always_clamped_iff (h : walkRange t = some r) (hsigned : t.signed = true)
    (hwalks : ∀ s e (v : t.Val), variant s = .scalar (.int t) v → variant (next s e) =
      .scalar (.int t)
        (walk (rationalPlatform left) t r.span r.low (lowValue t r) r.high v (draws e)).1)
    {s : σ} {v : t.Val} (hv : variant s = .scalar (.int t) v) {es : List ε}
    (hfits : ∀ e ∈ es.head?, t.Fits (truncate (sumOf left r v (draws e)))) :
    Runs.Always next (ClampedTick left t r next variant draws) s es ↔
      (t = .int64 → Runs.Always next (AboveLow left t r variant draws) s es) := by
  let I : σ → Prop := fun s =>
    ∃ u : t.Val, variant s = .scalar (.int t) u ∧ r.low ≤ u.val ∧ u.val ≤ r.high
  have hI : ∀ s e (u : t.Val), variant s = .scalar (.int t) u → I (next s e) := by
    intro s e u hu
    exact ⟨_, hwalks s e u hu, walk_mem left h u (draws e)⟩
  have hstep : ∀ s e, I s → (ClampedTick left t r next variant draws s e ↔
      (t = .int64 → AboveLow left t r variant draws s e)) := by
    rintro s e ⟨u, hu, hlow, hhigh⟩
    apply clampedTick_iff h hwalks hu
    have hmargin := walkRange_margin h
    have hreach := sum_bounds left h u (draws e)
    have hmin := hmargin.2 hsigned
    constructor <;> omega
  cases es with
  | nil => exact iff_of_true trivial fun _ => trivial
  | cons e es =>
    have hfirst := clampedTick_iff h hwalks hv (hfits e rfl)
    have hrest := Runs.always_congr (fun s e hs => hI s e _ hs.choose_spec.1) hstep (hI s e v hv) es
    apply (and_congr hfirst hrest).trans
    rw [Runs.always_imp]
    exact imp_and.symm

end Runs

/-- For both classes and the signed types: in a run of ticks from any stored value whose sum with
the first step fits the type, every tick is clamped exactly if the value is no `Int64` or no sum
comes down below the range. -/
theorem clamped_iff (left : Leftovers) {t : IntType} {r : WalkRange} (h : walkRange t = some r)
    (hsigned : t.signed = true) (v : t.Val) :
    (∀ (d : DataValue (Value (rationalPlatform left))) (es : List Env),
      d.variant = .scalar (.int t) v →
      (∀ env ∈ es.head?, t.Fits (truncate (sumOf left r v env))) →
      (Runs.Always TestFolderLib.updated
          (ClampedTick left t r TestFolderLib.updated DataValue.variant id) d es ↔
        (t = .int64 → Runs.Always TestFolderLib.updated
          (AboveLow left t r DataValue.variant id) d es))) ∧
    ∀ (s : DataValue (Slot (rationalPlatform left)) × Heap (rationalPlatform left))
      (es : List (StatusCode × Env)),
      (s.1.load s.2).variant = .scalar (.int t) v →
      (∀ e ∈ es.head?, t.Fits (truncate (sumOf left r v e.2))) →
      (Runs.Always TestStatusCode.updated
          (ClampedTick left t r TestStatusCode.updated (fun s => (s.1.load s.2).variant) Prod.snd)
          s es ↔
        (t = .int64 → Runs.Always TestStatusCode.updated
          (AboveLow left t r (fun s => (s.1.load s.2).variant) Prod.snd) s es)) := by
  have hcase := singleCase_walk (rationalPlatform left) h
  constructor
  · intro d es hd hfits
    exact always_clamped_iff left TestFolderLib.updated DataValue.variant id h hsigned
      (fun d env v hd => folder_updated_scalar hcase hd env) hd hfits
  · intro s es hs hfits
    exact always_clamped_iff left TestStatusCode.updated (fun s => (s.1.load s.2).variant) Prod.snd
      h hsigned (fun s e v hs => status_updated_scalar hcase hs e) hs hfits

/-- A platform that wraps. -/
def wrapping : Leftovers where
  converted t q := t.wrap (truncate q)
  overflowed t := t.wrap (t.max + 1)
  signFirst := false
  emptyArrayTyped := true
  uint32OfArray := List.head?

/-- An `Int16` at its upper bound, and draws that push it further up. -/
theorem clamped_iff_int16 :
    let d : DataValue (Value (rationalPlatform wrapping)) :=
      ⟨.scalar (.int .int16) (IntType.wrap .int16 100), .success, 0, 0⟩
    let s : DataValue (Slot (rationalPlatform wrapping)) × Heap (rationalPlatform wrapping) :=
      (⟨.scalar (.int .int16) (.val (IntType.wrap .int16 100)), .success, 0, 0⟩,
        fun t => ⟨fun _ => TestStatusCode.noElement _ t, 0⟩)
    let env : Env := ⟨Stream'.const 4, Stream'.const 0⟩
    Runs.Always TestFolderLib.updated
        (ClampedTick wrapping .int16 ⟨150, -50, 100⟩ TestFolderLib.updated DataValue.variant id)
        d [env, env] ∧
      Runs.Always TestStatusCode.updated
        (ClampedTick wrapping .int16 ⟨150, -50, 100⟩ TestStatusCode.updated
          (fun s => (s.1.load s.2).variant) Prod.snd) s [(.success, env), (.badNotConnected, env)] := by
  intro d s env
  have hfits : IntType.int16.Fits (truncate (sumOf wrapping ⟨150, -50, 100⟩
      (IntType.wrap .int16 100).val env)) := by decide +kernel
  have hboth := clamped_iff wrapping (t := .int16) rfl rfl (IntType.wrap .int16 100)
  constructor
  · refine (hboth.1 d [env, env] rfl ?_).mpr (fun ht => absurd ht (by decide))
    intro e he
    cases he
    exact hfits
  · refine (hboth.2 s [(.success, env), (.badNotConnected, env)] rfl ?_).mpr
      (fun ht => absurd ht (by decide))
    intro e he
    cases he
    exact hfits

/-- An `Int64` at its lower bound, and draws that push it further down: it goes to the upper
bound. -/
theorem clamp_misses_low :
    let d : DataValue (Value (rationalPlatform wrapping)) :=
      ⟨.scalar (.int .int64) (IntType.wrap .int64 (-1000)), .success, 0, 0⟩
    let s : DataValue (Slot (rationalPlatform wrapping)) × Heap (rationalPlatform wrapping) :=
      (⟨.scalar (.int .int64) (.val (IntType.wrap .int64 (-1000))), .success, 0, 0⟩,
        fun t => ⟨fun _ => TestStatusCode.noElement _ t, 0⟩)
    let env : Env := ⟨Stream'.const 9, Stream'.const 0⟩
    let after : IntType.Val .int64 := IntType.wrap .int64 1000
    (TestFolderLib.updated d env).variant = .scalar (.int .int64) after ∧
      ((TestStatusCode.updated s (.success, env)).1.load
        (TestStatusCode.updated s (.success, env)).2).variant = .scalar (.int .int64) after ∧
      (⟨2000, -1000, 1000⟩ : WalkRange).clamp
        (truncate (sumOf wrapping ⟨2000, -1000, 1000⟩ (-1000) env)) = -1000 := by
  intro d s env after
  have hcase := singleCase_walk (rationalPlatform wrapping) (t := .int64) rfl
  have hafter : (walk (rationalPlatform wrapping) .int64 2000 (-1000) 1000 1000
      (IntType.wrap .int64 (-1000)) env).1 = after := Subtype.ext (by decide +kernel)
  refine ⟨?_, ?_, by decide +kernel⟩
  · rw [folder_updated_scalar hcase rfl env]
    exact congrArg (Variant.scalar (.int .int64)) hafter
  · rw [status_updated_scalar hcase rfl (.success, env)]
    exact congrArg (Variant.scalar (.int .int64)) hafter

end ASNeGDemo
