import ASNeGDemo.NodeSet.TestVariables
import ASNeGDemo.TestFolderLib.Lifetime
import ASNeGDemo.TestStatusCode.Agreement

/-! The shapes of the values behind the nodes of `TestFolderLib`, step by step. -/
namespace ASNeGDemo.TestFolderLib

variable {P : Platform}

theorem length_mapM {α β : Type} (f : α → Sim β) (l : List α) (env : Env) :
    (l.mapM f env).1.length = l.length := by
  induction l generalizing env with
  | nil => rfl
  | cons a l ih =>
    rw [List.mapM_cons, Sim.bind_apply, Sim.bind_apply, Sim.pure_apply, List.length_cons,
      List.length_cons, ih]

theorem updated_shape (d : DataValue (Value P)) (draws : Env) :
    (updated d draws).variant.shape P = d.variant.shape P := by
  obtain ⟨variant, _, _, _⟩ := d
  cases variant with
  | null => rfl
  | scalar t v =>
    cases hc : singleCase P t with
    | none => simp [updated, update, updateSingle, Variant.isArray, hc]
    | some f =>
      simp only [updated, update, updateSingle, Variant.isArray, hc]
      rfl
  | array t vs =>
    by_cases he : (vs.isEmpty && !P.emptyArrayTyped) = true
    · simp [updated, update, updateArray, Variant.isArray, he]
    · rw [updated]
      simp only [update, updateArray, Variant.isArray, he, TestStatusCode.arrayCase_eq]
      cases TestStatusCode.arrayCase P t with
      | none => rfl
      | some f => exact Variant.shape_array (length_mapM f vs draws)

/-- The initial values are what the node set declares. -/
theorem initialValues_shape (now : DateTime) :
    (initialValues P now).map (fun e => (e.1, e.2.shape P)) =
      testVariables.map fun v => (v.id, v.shape) := rfl

variable {v : UAVariable}

theorem initialValue_shape (hv : v ∈ testVariables) {now : DateTime} {ns ns' : ℕ}
    {d : DataValue (Value P)} (hd : initialValue P now ns' (nodeId v.id ns) = some d) :
    d.variant.shape P = v.shape := by
  obtain ⟨e, he, heq⟩ := List.mem_map.mp (OrderedMap.mem_of_lookup hd)
  obtain ⟨hnode, rfl⟩ := Prod.mk.inj heq
  have hid : e.1 = v.id := id_of_nodeId hnode
  have hmem : (e.1, e.2.shape P) ∈ testVariables.map fun v => (v.id, v.shape) := by
    rw [← initialValues_shape now]
    exact List.mem_map_of_mem he
  obtain ⟨v', hv', heq'⟩ := List.mem_map.mp hmem
  obtain ⟨hid', hshape⟩ := Prod.mk.inj heq'
  obtain rfl := List.inj_on_of_nodup_map testVariables_nodup hv' hv (hid'.trans hid)
  exact hshape.symm

section Steps
variable {s : State P} {ns : ℕ} {initial : Shape}

/-- The shape of what is behind a node. -/
def State.shape (s : State P) (n : NodeId) : Option Shape :=
  (s.value n).map fun d => d.variant.shape P

theorem startup_shape (h : s.Separated) (hv : v ∈ testVariables) (b : ServiceBehaviour)
    (now : DateTime) :
    (startup b now s).1.shape (nodeId v.id ns) = s.shape (nodeId v.id ns) ∨
      s.shape (nodeId v.id ns) = none ∧
        (startup b now s).1.shape (nodeId v.id ns) = some v.shape := by
  obtain ⟨-, hlife, -⟩ := startup_life b now h
  have hvalue := congrArg (fun l : Life P => l.value (nodeId v.id ns)) hlife
  change (startup b now s).1.value (nodeId v.id ns) = _ at hvalue
  unfold State.shape
  by_cases hstatus : b.namespaceInfo.statusCode = .success
  · rw [Life.effect_startup _ hstatus] at hvalue
    change _ = (s.value (nodeId v.id ns)).or _ at hvalue
    rw [hvalue]
    cases s.value (nodeId v.id ns) with
    | some d => exact .inl rfl
    | none =>
      rw [Option.none_or]
      cases hd : initialValue P now _ (nodeId v.id ns) with
      | none => exact .inl rfl
      | some d => exact .inr ⟨rfl, congrArg some (initialValue_shape hv hd)⟩
  · have hrefused : startup b now s = (s, some false) :=
      (module P).startup_refused b now s hstatus
    rw [hrefused]
    exact .inl rfl

theorem timerLoop_shape (h : s.Separated) (live : NodeRef → Bool) (env : Env) (n : NodeId) :
    (timerLoop s live env).1.1.shape n = s.shape n := by
  obtain ⟨draws, hvalue, -⟩ := timerLoop_value h live env
  unfold State.shape
  rw [hvalue n, Option.map_map]
  congr 1
  funext d
  dsimp only [Function.comp]
  rw [visited_eq]
  split_ifs
  · exact updated_shape d (draws n)
  · rfl

theorem writeValue_shape (h : s.Separated) (n m : NodeId) (d : DataValue (Value P)) :
    ShapeStep (ι := DateTime) [n] initial (.event (.writeValue m d))
      (some (.written (writeValue s m d).2)) (s.shape n) ((writeValue s m d).1.shape n) := by
  have hvalue := writeValue_value h m d n
  have hcode : (writeValue s m d).2 = .success ↔ (s.value m).isSome := by
    unfold writeValue State.value
    cases s.valueMap.find m <;> simp
  unfold State.shape
  rw [hvalue]
  apply ShapeStep.write
  · intro hs hm
    obtain rfl := List.mem_singleton.mp hm
    obtain ⟨d', hd'⟩ := Option.isSome_iff_exists.mp (hcode.mp hs)
    rw [hd', Option.map_some, Option.map_some, if_pos rfl]
  · intro hno
    by_cases hm : m = n
    · subst hm
      have hnone : s.value m = none := by
        rw [← Option.not_isSome_iff_eq_none, ← hcode]
        exact fun hs => hno ⟨hs, List.mem_singleton_self m⟩
      rw [hnone]
      rfl
    · simp only [hm, if_false, Option.map_id']

theorem proceed_shape (h : s.Separated) (hv : v ∈ testVariables) (e : LifeEvent P DateTime) :
    ShapeStep [nodeId v.id ns] v.shape e (proceed s e).2 (s.shape (nodeId v.id ns))
      ((proceed s e).1.shape (nodeId v.id ns)) := by
  cases e with
  | call c =>
    cases c with
    | startup b now => exact .quiet rfl (startup_shape h hv b now)
    | shutdown => exact .quiet rfl (.inl rfl)
  | event e =>
    cases e with
    | readValue n => exact .quiet rfl (.inl rfl)
    | writeValue m d => exact writeValue_shape h (nodeId v.id ns) m d
    | timerLoop live env => exact .quiet rfl (.inl (timerLoop_shape h live env _))
  | writeLoopTimeValue d => exact .quiet rfl (.inl rfl)

end Steps

end ASNeGDemo.TestFolderLib
