import ASNeGDemo.TestFolderLib.AsMap

/-!
Arrays over many ticks. Between two writes of a client, every tick that reaches the node counts
the elements of an integer array up by one and negates those of a Boolean array.
-/
namespace ASNeGDemo.TestFolderLib

variable {P : Platform}

/-- The event is a tick that finds the node's reference. -/
def updatesNode (references : OrderedMap NodeId NodeRef) (m : NodeId) : Event P → Bool
  | .timerLoop live _ => (liveReference references live m).isSome
  | _ => false

/-- The ticks among the events that update the node. -/
def ticksOf (references : OrderedMap NodeId NodeRef) (m : NodeId) (es : List (Event P)) : ℕ :=
  es.countP (updatesNode references m)

/-- `value++` has a result by the standard: it overflows no type that is as wide as `int`. -/
def IncrementDefined (t : IntType) (value : ℤ) : Prop :=
  t.signed = true ∧ 32 ≤ t.width → value < t.max

/-- The increments of an event at the node are defined, if the node holds an integer array. -/
def IncrementsDefined (m : NodeId) (s : State P) (e : Event P) : Prop :=
  updatesNode s.baseNodeClassWMap m e = true → ∀ (t : IntType) (xs : List t.Val),
    variantOf m s = some (.array (.int t) xs) → ∀ x ∈ xs, IncrementDefined t x.val

/-! ### One tick -/

theorem increment_of_defined {t : IntType} {x : t.Val} (h : IncrementDefined t x.val) :
    increment P t x = t.wrap (x.val + 1) := by
  unfold increment
  rw [if_neg]
  rintro ⟨hsigned, hwidth, hmax⟩
  exact absurd hmax (h ⟨hsigned, hwidth⟩).ne

/-- An update takes all elements one step on. An array whose type is not known any more has no
elements. -/
theorem updated_array {t : BuildInType} {g : Value P t → Value P t}
    (hcase : arrayCase P t = some fun vs => return vs.map g) {d : DataValue (Value P)}
    {vs : List (Value P t)} (hd : d.variant = .array t vs) (draws : Env) :
    (if handled d then updated d draws else d).variant = .array t (vs.map g) := by
  obtain ⟨variant, _, _, _⟩ := d
  obtain rfl : variant = .array t vs := hd
  by_cases he : (vs.isEmpty && !P.emptyArrayTyped) = true
  · have hnil : vs = [] := List.isEmpty_iff.mp (Bool.and_eq_true_iff.mp he).1
    have hnot : ∀ statusCode source server,
        handled (P := P) ⟨.array t vs, statusCode, source, server⟩ = false := by
      intro statusCode source server
      simp only [handled, Variant.variantType, he, if_true]
      rfl
    rw [hnot, hnil]
    rfl
  · have htyped : handledType t = true := by
      rw [← arrayCase_isSome (P := P), hcase]
      rfl
    simp only [handled, Variant.variantType, he, Bool.false_eq_true, if_false, htyped, if_true,
      updated, update, updateArray, Variant.isArray, hcase]
    rfl

theorem step_variantOf {s : State P} (hs : s.Separated) {m : NodeId} {e : Event P}
    (he : ∀ d, e ≠ .writeValue m d) {t : BuildInType} {g : Value P t → Value P t}
    (hcase : arrayCase P t = some fun vs => return vs.map g) {vs : List (Value P t)}
    (hv : variantOf m s = some (.array t vs)) :
    (updatesNode s.baseNodeClassWMap m e = true →
        variantOf m (step s e).1 = some (.array t (vs.map g))) ∧
      (updatesNode s.baseNodeClassWMap m e ≠ true →
        variantOf m (step s e).1 = some (.array t vs)) := by
  obtain ⟨-, -, o, rfl, -, hvalue, -⟩ := step_refines hs e
  obtain ⟨d, hd, hvariant⟩ := Option.map_eq_some_iff.mp hv
  unfold variantOf
  rw [hvalue m, hd, Option.map_some, Option.map_some]
  obtain ⟨event, answer, draws⟩ := o
  cases event with
  | readValue n =>
    exact ⟨fun h => absurd h (by simp [updatesNode]), fun _ => congrArg some hvariant⟩
  | writeValue n written =>
    have hne : n ≠ m := by
      rintro rfl
      exact he written rfl
    simp only [effect, if_neg hne]
    exact ⟨fun h => absurd h (by simp [updatesNode]), fun _ => congrArg some hvariant⟩
  | timerLoop live env =>
    constructor
    · intro hlive
      have hupdated := updated_array hcase hvariant (draws m)
      simp only [effect, show (liveReference s.baseNodeClassWMap live m).isSome = true from hlive,
        Bool.true_and]
      exact congrArg some hupdated
    · intro hlive
      have hdead : (liveReference s.baseNodeClassWMap live m).isSome = false :=
        Bool.eq_false_of_not_eq_true hlive
      simp only [effect, hdead, Bool.false_and, Bool.false_eq_true, if_false]
      exact congrArg some hvariant

/-! ### Runs -/

section Runs
variable {s : State P} {m : NodeId} {es : List (Event P)}

theorem step_separated (hs : s.Separated) (e : Event P) :
    (step s e).1.Separated ∧ (step s e).1.baseNodeClassWMap = s.baseNodeClassWMap :=
  ⟨(step_refines hs e).1, (step_refines hs e).2.1⟩

theorem ticksOf_cons (references : OrderedMap NodeId NodeRef) (e : Event P) :
    ticksOf references m (e :: es) =
      ticksOf references m es + if updatesNode references m e then 1 else 0 := by
  unfold ticksOf
  rw [List.countP_cons]

/-- After a run the elements are as many steps on as there were ticks. -/
theorem run_array (hs : s.Separated) (hes : ∀ d, Event.writeValue m d ∉ es) {t : BuildInType}
    {g : Value P t → Value P t} (hcase : arrayCase P t = some fun vs => return vs.map g)
    {vs : List (Value P t)} (hv : variantOf m s = some (.array t vs)) :
    variantOf m (Runs.run step s es).1 = some (.array t
      (vs.map g^[ticksOf s.baseNodeClassWMap m es])) := by
  induction es generalizing s vs with
  | nil => simpa [ticksOf] using hv
  | cons e es ih =>
    obtain ⟨hsep, hrefs⟩ := step_separated hs e
    have he : ∀ d, e ≠ .writeValue m d := fun d heq => hes d (heq ▸ List.mem_cons_self)
    obtain ⟨hmapped, hkept⟩ := step_variantOf hs he hcase hv
    have hes : ∀ d, Event.writeValue m d ∉ es := fun d hd => hes d (List.mem_cons_of_mem e hd)
    rw [Runs.run_cons, ticksOf_cons]
    by_cases hupdates : updatesNode s.baseNodeClassWMap m e = true
    · have hrest := ih hsep hes (hmapped hupdates)
      rw [hrefs] at hrest
      rw [hrest, if_pos hupdates, List.map_map, Function.iterate_succ]
    · have hrest := ih hsep hes (hkept hupdates)
      rw [hrefs] at hrest
      rw [hrest, if_neg hupdates, Nat.add_zero]

theorem iterate_not (n : ℕ) (b : Bool) : not^[n] b = (b ^^ decide (Odd n)) := by
  induction n generalizing b with
  | zero => simp
  | succ n ih =>
    simp only [Function.iterate_succ_apply', ih, Nat.odd_add_one, decide_not, Bool.xor_not]

theorem increment_val {t : IntType} {x : t.Val} (h : x.val < t.max) :
    (increment P t x).val = x.val + 1 := by
  rw [increment_of_defined fun _ => h, IntType.wrap_val]
  have hx := x.2
  constructor <;> omega

theorem iterate_increment {t : IntType} (n : ℕ) {x : t.Val}
    (h : t.signed = true ∧ 32 ≤ t.width → x.val + n ≤ t.max) :
    (increment P t)^[n] x = t.wrap (x.val + n) := by
  induction n generalizing x with
  | zero => simp
  | succ n ih =>
    have hdefined : IncrementDefined t x.val := by
      intro hwide
      have hle := h hwide
      omega
    have hnext : t.signed = true ∧ 32 ≤ t.width → (increment P t x).val + n ≤ t.max := by
      intro hwide
      have hle := h hwide
      rw [increment_val (hdefined hwide)]
      omega
    rw [Function.iterate_succ_apply, ih hnext, increment_of_defined hdefined, IntType.wrap_wrap_add]
    congr 1
    push_cast
    ring

/-- The elements leave room for a number of ticks. -/
def Room (t : IntType) (xs : List t.Val) (n : ℕ) : Prop :=
  t.signed = true ∧ 32 ≤ t.width → ∀ x ∈ xs, x.val + n ≤ t.max

/-- There is room for one more tick if the increments are defined and leave room for the rest. -/
theorem room_succ {t : IntType} (xs : List t.Val) (n : ℕ) :
    (∀ x ∈ xs, IncrementDefined t x.val) ∧ Room t (xs.map (increment P t)) n ↔
      Room t xs (n + 1) := by
  constructor
  · rintro ⟨hdefined, hroom⟩ hwide x hx
    have hle := hroom hwide _ (List.mem_map_of_mem hx)
    rw [increment_val (hdefined x hx hwide)] at hle
    push_cast
    omega
  · intro hroom
    have hlt : t.signed = true ∧ 32 ≤ t.width → ∀ x ∈ xs, x.val < t.max := by
      intro hwide x hx
      have hle := hroom hwide x hx
      push_cast at hle
      omega
    refine ⟨fun x hx hwide => hlt hwide x hx, fun hwide y hy => ?_⟩
    obtain ⟨x, hx, rfl⟩ := List.mem_map.mp hy
    have hle := hroom hwide x hx
    rw [increment_val (hlt hwide x hx)]
    push_cast at hle
    omega

/-- All increments of a run are defined exactly if the elements leave room for its ticks. -/
theorem always_defined_iff (hs : s.Separated) (hes : ∀ d, Event.writeValue m d ∉ es) {t : IntType}
    {xs : List t.Val} (hv : variantOf m s = some (.array (.int t) xs)) :
    Runs.Always (fun s e => (step s e).1) (IncrementsDefined m) s es ↔
      Room t xs (ticksOf s.baseNodeClassWMap m es) := by
  induction es generalizing s xs with
  | nil =>
    refine iff_of_true trivial fun _ x _ => ?_
    rw [ticksOf, List.countP_nil, Nat.cast_zero, add_zero]
    exact x.2.2
  | cons e es ih =>
    obtain ⟨hsep, hrefs⟩ := step_separated hs e
    have he : ∀ d, e ≠ .writeValue m d := fun d heq => hes d (heq ▸ List.mem_cons_self)
    obtain ⟨hmapped, hkept⟩ := step_variantOf (t := .int t) (g := increment P t) hs he rfl hv
    have hes : ∀ d, Event.writeValue m d ∉ es := fun d hd => hes d (List.mem_cons_of_mem e hd)
    have hfirst : IncrementsDefined m s e ↔
        (updatesNode s.baseNodeClassWMap m e = true → ∀ x ∈ xs, IncrementDefined t x.val) := by
      constructor
      · intro h hupdates
        exact h hupdates t xs hv
      · intro h hupdates t' xs' hv'
        rw [hv] at hv'
        cases hv'
        exact h hupdates
    rw [ticksOf_cons]
    by_cases hupdates : updatesNode s.baseNodeClassWMap m e = true
    · have hrest := ih hsep hes (hmapped hupdates)
      rw [hrefs] at hrest
      rw [if_pos hupdates, ← room_succ]
      exact and_congr (hfirst.trans (forall_prop_of_true hupdates)) hrest
    · have hrest := ih hsep hes (hkept hupdates)
      rw [hrefs] at hrest
      rw [if_neg hupdates, Nat.add_zero, ← hrest]
      exact and_iff_right (hfirst.mpr fun h => absurd h hupdates)

theorem run_reached (hs : s.Separated) (es : List (Event P)) :
    (Runs.run step s es).1.Separated ∧
      (Runs.run step s es).1.baseNodeClassWMap = s.baseNodeClassWMap ∧
      ((Runs.run step s es).1.value m).isSome = (s.value m).isSome := by
  have hkept := Runs.run_invariant (I := fun s' : State P =>
      s'.Separated ∧ s'.baseNodeClassWMap = s.baseNodeClassWMap)
    (fun s' e hs' => ⟨(step_separated hs'.1 e).1, (step_separated hs'.1 e).2.trans hs'.2⟩) es
    (⟨hs, rfl⟩ : s.Separated ∧ s.baseNodeClassWMap = s.baseNodeClassWMap)
  obtain ⟨history, -, -, hvalue, -⟩ := run_refines hs es
  refine ⟨hkept.1, hkept.2, ?_⟩
  rw [hvalue, Option.isSome_map]

end Runs

section Written
variable (env : Env) (now : DateTime) (ns : ℕ) (references : OrderedMap NodeId NodeRef)

/-- The object after a run that ends with a write to the node. -/
def written (before : List (Event P)) (m : NodeId) (d : DataValue (Value P)) : State P :=
  (Runs.run step (created P env now ns references) (before ++ [.writeValue m d])).1

theorem created_value_isSome {m : NodeId} (hm : m ∈ (List.range' 200 36).map (nodeId · ns)) :
    ((created P env now ns references).value m).isSome = true := by
  obtain ⟨id, hid, rfl⟩ := List.mem_map.mp hm
  have hids : (initialValues P now).map Prod.fst = List.range' 200 36 := rfl
  rw [← hids] at hid
  obtain ⟨e, he, rfl⟩ := List.mem_map.mp hid
  rw [created_value, initialValue_of_mem he]
  rfl

theorem written_spec (before : List (Event P)) {m : NodeId}
    (hm : m ∈ (List.range' 200 36).map (nodeId · ns)) (d : DataValue (Value P)) :
    (written env now ns references before m d).Separated ∧
      (written env now ns references before m d).baseNodeClassWMap = references ∧
      variantOf m (written env now ns references before m d) = some d.variant := by
  have hcreated := created_separated (P := P) env now ns references
  obtain ⟨hsep, hrefs, -⟩ := run_reached (m := m) hcreated (before ++ [.writeValue m d])
  obtain ⟨hbefore, -, hsome⟩ := run_reached (m := m) hcreated before
  rw [created_value_isSome env now ns references hm] at hsome
  refine ⟨hsep, hrefs, ?_⟩
  obtain ⟨old, hold⟩ := Option.isSome_iff_exists.mp hsome
  unfold variantOf written
  rw [Runs.run_append]
  have hvalue := writeValue_value hbefore m d m
  rw [hold, Option.map_some, if_pos rfl] at hvalue
  exact congrArg (Option.map DataValue.variant) hvalue

/-- After a client has written an array, and until its next write: all increments of a run are
defined and the elements are as many further on as there were ticks, exactly if the type is
narrower than `int` or unsigned or the elements leave room for the ticks. A Boolean array is
negated by every tick. -/
theorem array_ticks_iff (before : List (Event P)) {m : NodeId}
    (hm : m ∈ (List.range' 200 36).map (nodeId · ns)) (d : DataValue (Value P))
    {es : List (Event P)} (hes : ∀ d', Event.writeValue m d' ∉ es) :
    let s := written env now ns references before m d
    let n := ticksOf references m es
    (∀ (t : IntType) (xs : List t.Val), d.variant = .array (.int t) xs →
      (Runs.Always (fun s e => (step s e).1) (IncrementsDefined m) s es ∧
          variantOf m (Runs.run step s es).1 =
            some (.array (.int t) (xs.map fun x => t.wrap (x.val + n))) ↔
        (t = .int32 ∨ t = .int64 → ∀ x ∈ xs, x.val + n ≤ t.max))) ∧
    ∀ bs : List Bool, d.variant = .array .boolean bs →
      variantOf m (Runs.run step s es).1 =
        some (.array .boolean (bs.map fun b => (b ^^ decide (Odd n)))) := by
  intro s n
  obtain ⟨hsep, hrefs, hvariant⟩ := written_spec env now ns references before hm d
  constructor
  · intro t xs hd
    have hv : variantOf m s = some (.array (.int t) xs) := hvariant.trans (congrArg some hd)
    have hdefined := always_defined_iff hsep hes hv
    have hrun := run_array (t := .int t) (g := increment P t) hsep hes rfl hv
    rw [hrefs] at hdefined hrun
    have hwide : (t.signed = true ∧ 32 ≤ t.width) ↔ (t = .int32 ∨ t = .int64) := by
      cases t <;> decide
    rw [← hwide]
    refine Iff.trans (and_iff_left_of_imp fun halways => ?_) hdefined
    have hroom := hdefined.mp halways
    rw [hrun]
    refine congrArg some (congrArg (Variant.array (.int t)) ?_)
    apply List.map_congr_left
    intro x hx
    exact iterate_increment _ fun hwide => hroom hwide x hx
  · intro bs hd
    have hv : variantOf m s = some (.array .boolean bs) := hvariant.trans (congrArg some hd)
    have hrun := run_array (t := .boolean) (g := not) hsep hes rfl hv
    rw [hrefs] at hrun
    rw [hrun]
    refine congrArg some (congrArg (Variant.array .boolean) ?_)
    apply List.map_congr_left
    intro b _
    exact iterate_not _ b

end Written

theorem array_ticks_iff_boolean :
    let env : Env := ⟨Stream'.const 0, Stream'.const 0⟩
    let tick : Event exactPlatform := .timerLoop (fun _ => true) env
    let references := OrderedMap.empty.insertAll [(nodeId 221 2, 0)]
    variantOf (nodeId 221 2) (Runs.run step (written env 0 2 references [] (nodeId 221 2)
        ⟨.array .boolean [true, false], .success, 0, 0⟩) [tick, tick]).1 =
      some (.array .boolean [true, false]) := by
  intro env tick references
  have hnode : nodeId 221 2 ∈ (List.range' 200 36).map (nodeId · 2) := by decide
  have hes : ∀ d, Event.writeValue (nodeId 221 2) d ∉ [tick, tick] := by simp [tick]
  have htwo : ticksOf references (nodeId 221 2) [tick, tick] = 2 := by decide
  have hticks := (array_ticks_iff env 0 2 references [] hnode
    ⟨.array .boolean [true, false], .success, 0, 0⟩ hes).2 _ rfl
  rw [htwo] at hticks
  exact hticks

/-- A client writes the maximum of an `Int32`, the next tick increments it. -/
theorem increment_overflow :
    let env : Env := ⟨Stream'.const 0, Stream'.const 0⟩
    let tick : Event exactPlatform := .timerLoop (fun _ => true) env
    let references := OrderedMap.empty.insertAll [(nodeId 209 2, 0)]
    ¬ Runs.Always (fun s e => (step s e).1) (IncrementsDefined (nodeId 209 2))
        (written env 0 2 references [] (nodeId 209 2)
          ⟨.array (.int .int32) [IntType.wrap .int32 2147483647], .success, 0, 0⟩)
        [tick] := by
  intro env tick references h
  have hnode : nodeId 209 2 ∈ (List.range' 200 36).map (nodeId · 2) := by decide
  have hes : ∀ d, Event.writeValue (nodeId 209 2) d ∉ [tick] := by simp [tick]
  have hone : ticksOf references (nodeId 209 2) [tick] = 1 := by decide
  obtain ⟨hsep, hrefs, hvariant⟩ := written_spec (P := exactPlatform) env 0 2 references [] hnode
    ⟨.array (.int .int32) [IntType.wrap .int32 2147483647], .success, 0, 0⟩
  have hroom := (always_defined_iff hsep hes hvariant).mp h
  rw [hrefs, hone] at hroom
  exact absurd (hroom (by decide) _ List.mem_cons_self) (by decide)

end ASNeGDemo.TestFolderLib
