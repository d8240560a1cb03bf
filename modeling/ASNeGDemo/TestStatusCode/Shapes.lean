import ASNeGDemo.NodeSet.TestVariables
import ASNeGDemo.TestStatusCode.Reloads

/-!
The shapes of the values behind the nodes of `TestStatusCode`, step by step. Where data values are
shared, shapes are too.
-/
namespace ASNeGDemo

variable {P : Platform}

/-- The first shape of what is behind the variable. The string of node 222 goes into the data value
of node 221. -/
def UAVariable.firstShape (v : UAVariable) : Shape :=
  if v.id = 221 then (.string, false) else v.shape

namespace TestStatusCode

theorem update_shape {statusCode : StatusCode} {h h' : Heap P} {d d' : DataValue (Slot P)}
    {env : Env} (hu : (update statusCode h d env).1 = some (d', h')) :
    d'.variant.shape P = d.variant.shape P := by
  obtain ⟨variant, _, _, _⟩ := d
  cases variant with
  | null => simp [update, updateSingle, Variant.isArray] at hu
  | scalar t slot =>
    cases hc : singleCase P t with
    | none => simp [update, updateSingle, Variant.isArray, hc] at hu
    | some f =>
      simp only [update, updateSingle, Variant.isArray, hc] at hu
      obtain ⟨rfl, rfl⟩ := Prod.mk.inj (Option.some.inj hu)
      rfl
  | array t slots =>
    by_cases he : (slots.isEmpty && !P.emptyArrayTyped) = true
    · simp [update, updateArray, Variant.isArray, he] at hu
    · cases hc : arrayCase P t with
      | none => simp [update, updateArray, Variant.isArray, he, hc] at hu
      | some f =>
        simp only [update, updateArray, Variant.isArray, he, hc] at hu
        obtain ⟨rfl, rfl⟩ := Prod.mk.inj (Option.some.inj hu)
        obtain ⟨-, hlength, -⟩ := updateSlots_refs f h slots env
        exact Variant.shape_array hlength

theorem store_shape (h : Heap P) (d : DataValue (Value P)) :
    (DataValue.store h d).1.variant.shape P = d.variant.shape P := by
  obtain ⟨-, hload⟩ := DataValue.store_made h d
  have hshape := Variant.shape_map (P := P) (fun _ => Slot.read (DataValue.store h d).2)
    (DataValue.store h d).1.variant
  rw [← hshape]
  exact congrArg (fun d : DataValue (Value P) => d.variant.shape P) hload

/-- A block for a variable makes a value of the first shape. -/
theorem NewBlock.shape {id : ℕ} {content : Sim (Variant (Value P))} (h : NewBlock P id content)
    {v : UAVariable} (hv : v ∈ testVariables) (hid : v.id = id) (env : Env) :
    (content env).1.shape P = v.firstShape := by
  have hfirst : v.firstShape = v.shape := if_neg (hid ▸ h.id_ne.1)
  rw [hfirst]
  cases h with
  | @value id value h =>
    have hshapes : (valuesTo220 P ++ values223To225 P ++ valuesFrom230 P).map
        (fun e => (e.1, e.2.shape P)) = (testVariables.filter fun v =>
          v.id ∉ [221, 222, 226, 227, 228, 229]).map fun v => (v.id, v.shape) := rfl
    have hmem : (id, value.shape P) ∈ (testVariables.filter fun v =>
        v.id ∉ [221, 222, 226, 227, 228, 229]).map fun v => (v.id, v.shape) :=
      hshapes ▸ List.mem_map_of_mem h
    obtain ⟨v', hv', heq⟩ := List.mem_map.mp hmem
    obtain ⟨hid', hshape⟩ := Prod.mk.inj heq
    obtain rfl := List.inj_on_of_nodup_map testVariables_nodup (List.mem_of_mem_filter hv') hv
      (hid'.trans hid.symm)
    exact hshape.symm
  | dateTime time =>
    have hdate : ∀ v ∈ testVariables, v.id = 228 → v.shape = (.dateTime, false) := by decide
    exact (hdate v hv hid).symm
  | dateTimes =>
    have hdates : ∀ v ∈ testVariables, v.id = 229 → v.shape = (.dateTime, true) := by decide
    exact (hdates v hv hid).symm

/-- The shape of what is behind a node. -/
def State.shape (s : State P) (n : NodeId) : Option Shape :=
  (s.valueMap.find n).map fun cell => (s.cells.read cell).variant.shape P

theorem State.shape_eq (s : State P) (n : NodeId) :
    s.shape n = (s.value n).map fun d => d.variant.shape P := by
  unfold State.shape State.value
  rw [Option.map_map]
  congr 1
  funext cell
  exact (Variant.shape_map _ _).symm

/-- A variable that the first state does not have comes up with its first shape. -/
def Fresh (s₀ s : State P) : Prop :=
  ∀ v ∈ testVariables, ∀ ns cell, s.valueMap.find (nodeId v.id ns) = some cell →
    cell < s.cells.next ∧ (s₀.valueMap.find (nodeId v.id ns) = some cell ∨
      (s.cells.read cell).variant.shape P = v.firstShape)

section Startup
variable {s₀ s : State P}

/-- A block makes one data value, of the shape of its content, and gives it to no other node. -/
theorem insertNew_made (s : State P) (id : ℕ) (content : Sim (Variant (Value P))) (env : Env) :
    ∃ d, (insertNew s id content env).1.cells = s.cells.alloc d ∧
      (∃ env', d.variant.shape P = (content env').1.shape P) ∧
      ∀ {n cell}, (insertNew s id content env).1.valueMap.find n = some cell →
        s.valueMap.find n = some cell ∨ cell = s.cells.next ∧ n = nodeId id s.namespaceIndex :=
  ⟨_, rfl, ⟨_, store_shape _ _⟩, find_insertNew_cases⟩

theorem Fresh.insertNew (h : Fresh s₀ s) {id : ℕ} {content : Sim (Variant (Value P))}
    (hshape : ∀ v ∈ testVariables, v.id = id → ∀ env, (content env).1.shape P = v.firstShape)
    (env : Env) : Fresh s₀ (insertNew s id content env).1 := by
  obtain ⟨d, hcells, ⟨env', hd⟩, hcases⟩ := insertNew_made s id content env
  intro v hv ns cell hn
  rw [hcells]
  obtain hn | ⟨rfl, heq⟩ := hcases hn
  · obtain ⟨hlt, hold⟩ := h v hv ns cell hn
    rw [s.cells.alloc_read_of_lt hlt]
    exact ⟨hlt.trans (Nat.lt_succ_self _), hold⟩
  · rw [s.cells.alloc_read_next, hd]
    exact ⟨Nat.lt_succ_self _, .inr (hshape v hv (id_of_nodeId heq) env')⟩

theorem Fresh.insertString (h : Fresh s₀ s) (env : Env) :
    Fresh s₀ (insertString s.cells.next (insertValue s (value221 P) env).1) := by
  change Fresh s₀ (TestStatusCode.insertString s.cells.next
    (TestStatusCode.insertNew s 221 (return (value221 P).2) env).1)
  obtain ⟨d, hcells, -, hcases⟩ := insertNew_made s 221 (return (value221 P).2) env
  generalize (TestStatusCode.insertNew s 221 (return (value221 P).2) env).1 = s₁ at hcells hcases
  let s₂ := TestStatusCode.insertString s.cells.next s₁
  have hstring : ∀ v ∈ testVariables, v.id = 221 ∨ v.id = 222 →
      v.firstShape = (.string, false) := by decide
  -- the data value of both nodes holds the string now
  have hself : (s₂.cells.read s.cells.next).variant.shape P = (.string, false) :=
    congrArg (fun d : DataValue (Slot P) => d.variant.shape P) (Memory.write_read_self ..)
  have hother {cell : ℕ} (hne : cell ≠ s.cells.next) :
      s₂.cells.read cell = (s.cells.alloc d).read cell :=
    (Memory.write_read_of_ne _ hne _).trans (congrArg (fun m => m.read cell) hcells)
  have hnext : s₂.cells.next = s.cells.next + 1 := congrArg Memory.next hcells
  intro v hv ns cell hn
  change cell < s₂.cells.next ∧ (_ ∨ (s₂.cells.read cell).variant.shape P = _)
  rw [hnext]
  obtain hn | ⟨-, rfl, heq⟩ := find_insertCell_cases hn
  · obtain hn | ⟨rfl, heq⟩ := hcases hn
    · obtain ⟨hlt, hold⟩ := h v hv ns cell hn
      rw [hother hlt.ne, s.cells.alloc_read_of_lt hlt]
      exact ⟨hlt.trans (Nat.lt_succ_self _), hold⟩
    · rw [hself, hstring v hv (.inl (id_of_nodeId heq))]
      exact ⟨Nat.lt_succ_self _, .inr rfl⟩
  · rw [hself, hstring v hv (.inr (id_of_nodeId heq))]
    exact ⟨Nat.lt_succ_self _, .inr rfl⟩

theorem Fresh.insertTextArray (h : Fresh s₀ s) (env env' : Env) :
    Fresh s₀ (insertTextArray (s.heap .localizedText).next (insertText s env).1 env').1 := by
  have hscalar : ∀ v ∈ testVariables, v.id = 226 → v.firstShape = (.localizedText, false) := by
    decide
  have harray : ∀ v ∈ testVariables, v.id = 227 → v.firstShape = (.localizedText, true) := by
    decide
  have hshape : ∀ v ∈ testVariables, v.id = 226 → ∀ env : Env,
      ((return .scalar .localizedText ⟨"de", "text"⟩ : Sim (Variant (Value P))) env).1.shape P =
        v.firstShape := fun v hv hid _ => (hscalar v hv hid).symm
  have htext : Fresh s₀ (insertText s env).1 := h.insertNew hshape env
  generalize (insertText s env).1 = s₁ at htext
  intro v hv ns cell hn
  change cell < s₁.cells.next + 1 ∧ (_ ∨ ((s₁.cells.alloc _).read cell).variant.shape P = _)
  obtain hn | ⟨-, rfl, heq⟩ := find_insertCell_cases hn
  · obtain ⟨hlt, hold⟩ := htext v hv ns cell hn
    rw [s₁.cells.alloc_read_of_lt hlt]
    exact ⟨hlt.trans (Nat.lt_succ_self _), hold⟩
  · rw [harray v hv (id_of_nodeId heq), s₁.cells.alloc_read_next]
    exact ⟨Nat.lt_succ_self _, .inr rfl⟩

theorem createValueMap_shape (h : Settled s) {v : UAVariable} (hv : v ∈ testVariables) (ns : ℕ)
    (env : Env) :
    (createValueMap s env).1.shape (nodeId v.id ns) = s.shape (nodeId v.id ns) ∨
      s.shape (nodeId v.id ns) = none ∧
        (createValueMap s env).1.shape (nodeId v.id ns) = some v.firstShape := by
  have hkeeps := Keeps.createValueMap s env
  have hfresh : Fresh s (createValueMap s env).1 :=
    createValueMap_preserves
      (fun hblock env h => h.insertNew (fun v hv hid env => hblock.shape hv hid env) env)
      (fun env h => h.insertString env) (fun env env' h => h.insertTextArray env env')
      (fun v hv ns cell hn => ⟨h.layout.allocated hn, .inl hn⟩) env
  generalize (createValueMap s env).1 = s' at hkeeps hfresh ⊢
  unfold State.shape
  cases hold : s.valueMap.find (nodeId v.id ns) with
  | some cell =>
    have hholds := hkeeps.holds ⟨hold, h.layout.allocated hold, rfl⟩
    rw [hholds.find, Option.map_some, Option.map_some, hholds.read]
    exact .inl rfl
  | none =>
    cases hnew : s'.valueMap.find (nodeId v.id ns) with
    | none => exact .inl rfl
    | some cell =>
      obtain hfind | hshape := (hfresh v hv ns cell hnew).2
      · rw [hold] at hfind
        cases hfind
      · exact .inr ⟨rfl, congrArg some hshape⟩

theorem startup_shape (h : Settled s) {v : UAVariable} (hv : v ∈ testVariables) (ns : ℕ)
    (b : ServiceBehaviour) (env : Env) :
    (startup b env s).1.shape (nodeId v.id ns) = s.shape (nodeId v.id ns) ∨
      s.shape (nodeId v.id ns) = none ∧
        (startup b env s).1.shape (nodeId v.id ns) = some v.firstShape := by
  refine (startup_preserves (I := fun s' : State P => Settled s' ∧
    (s'.shape (nodeId v.id ns) = s.shape (nodeId v.id ns) ∨ s.shape (nodeId v.id ns) = none ∧
      s'.shape (nodeId v.id ns) = some v.firstShape)) ?_ ?_ b env ⟨h, .inl rfl⟩).2
  · rintro s' env ⟨h', hshape⟩
    refine ⟨h'.createValueMap env, ?_⟩
    obtain hsame | ⟨hnone, hfirst⟩ := createValueMap_shape h' hv ns env
    · rw [hsame]
      exact hshape
    · obtain hshape | ⟨-, hshape⟩ := hshape
      · exact .inr ⟨hshape.symm.trans hnone, hfirst⟩
      · exact nomatch hshape.symm.trans hnone
  · rintro s' s'' hmap hcells hheap ⟨h', hshape⟩
    refine ⟨h'.congr hmap hcells hheap, ?_⟩
    unfold State.shape at hshape ⊢
    rw [hmap, hcells]
    exact hshape

end Startup

section Steps
variable {s : State P}

theorem visit_shape (statusCode : StatusCode) (references : OrderedMap NodeId NodeRef)
    (live : NodeRef → Bool) (pass : Pass P) (entry : NodeId × ℕ) (env : Env) (cell : ℕ) :
    ((visit statusCode references live pass entry env).1.cells.read cell).variant.shape P =
      (pass.cells.read cell).variant.shape P := by
  obtain ⟨heq, -⟩ | ⟨reference, d, heap, -, -, hu, heq⟩ :=
    visit_cases statusCode references live pass entry env
  · rw [heq]
  · rw [heq]
    by_cases hc : cell = entry.2
    · subst hc
      dsimp only
      rw [Memory.write_read_self]
      exact update_shape hu
    · dsimp only
      rw [Memory.write_read_of_ne _ hc]

theorem timerLoop_shape (s : State P) (live : NodeRef → Bool) (env : Env) (n : NodeId) :
    (timerLoop s live env).1.1.shape n = s.shape n := by
  obtain ⟨hmap, -, hcells, -⟩ := timerLoop_apply s live env
  unfold State.shape
  rw [hmap, hcells]
  congr 1
  funext cell
  refine passOver_preserves (fun pass _ => (pass.cells.read cell).variant.shape P =
    (s.cells.read cell).variant.shape P) ?_ rfl
  intro pass entry env' hpass
  rw [visit_shape, hpass]

/-- The identifiers of the nodes that have the data value of a variable. -/
def sharers (id : ℕ) : List ℕ := if id = 221 ∨ id = 222 then [221, 222] else [id]

theorem mem_sharers_iff (h : Settled s) {m : NodeId} {cell : ℕ}
    (hm : s.valueMap.find m = some cell) (id ns : ℕ) :
    m ∈ (sharers id).map (nodeId · ns) ↔ s.valueMap.find (nodeId id ns) = some cell := by
  unfold sharers
  constructor
  · intro hin
    split_ifs at hin with hid
    · have hboth : s.valueMap.find (nodeId 221 ns) = some cell := by
        simp only [List.map_cons, List.map_nil, List.mem_cons, List.not_mem_nil, or_false] at hin
        obtain rfl | rfl := hin
        · exact hm
        · exact (h.twins ns).trans hm
      obtain rfl | rfl := hid
      · exact hboth
      · exact (h.twins ns).symm.trans hboth
    · obtain rfl := List.mem_singleton.mp hin
      exact hm
  · intro hfind
    obtain rfl | ⟨ns', ⟨rfl, heq⟩ | ⟨rfl, heq⟩⟩ := h.layout.injective hm hfind
    · split_ifs with hid
      · obtain rfl | rfl := hid
        · exact List.mem_cons_self
        · exact List.mem_cons_of_mem _ List.mem_cons_self
      · exact List.mem_cons_self
    · obtain rfl := id_of_nodeId heq
      obtain rfl : ns = ns' := congrArg NodeId.namespaceIndex heq
      exact List.mem_cons_self
    · obtain rfl := id_of_nodeId heq
      obtain rfl : ns = ns' := congrArg NodeId.namespaceIndex heq
      exact List.mem_cons_of_mem _ List.mem_cons_self

theorem writeValue_shape (h : Settled s) (id ns : ℕ) (m : NodeId) (d : DataValue (Value P))
    (initial : Shape) :
    ShapeStep (ι := Env) ((sharers id).map (nodeId · ns)) initial (.event (.writeValue m d))
      (some (.written (writeValue s m d).2)) (s.shape (nodeId id ns))
      ((writeValue s m d).1.shape (nodeId id ns)) := by
  unfold writeValue
  cases hm : s.valueMap.find m with
  | none => exact .write (fun hs => nomatch hs) fun _ => rfl
  | some cell =>
    have hmem := mem_sharers_iff h hm id ns
    unfold State.shape
    dsimp only
    apply ShapeStep.write
    · intro _ hin
      rw [hmem.mp hin, Option.map_some, Memory.write_read_self, store_shape]
    · intro hno
      cases hn : s.valueMap.find (nodeId id ns) with
      | none => rfl
      | some cell' =>
        have hne : cell' ≠ cell := by
          rintro rfl
          exact hno ⟨rfl, hmem.mpr hn⟩
        rw [Option.map_some, Option.map_some, Memory.write_read_of_ne _ hne]

theorem proceed_shape (h : Settled s) {v : UAVariable} (hv : v ∈ testVariables) (ns : ℕ)
    (e : LifeEvent P Env) :
    ShapeStep ((sharers v.id).map (nodeId · ns)) v.firstShape e (proceed s e).2
      (s.shape (nodeId v.id ns)) ((proceed s e).1.shape (nodeId v.id ns)) := by
  cases e with
  | call c =>
    cases c with
    | startup b env => exact .quiet rfl (startup_shape h hv ns b env)
    | shutdown => exact .quiet rfl (.inl rfl)
  | event e =>
    cases e with
    | readValue n => exact .quiet rfl (.inl rfl)
    | writeValue m d => exact writeValue_shape h v.id ns m d v.firstShape
    | timerLoop live env => exact .quiet rfl (.inl (timerLoop_shape s live env _))
  | writeLoopTimeValue d => exact .quiet rfl (.inl rfl)

end Steps

end TestStatusCode

end ASNeGDemo
