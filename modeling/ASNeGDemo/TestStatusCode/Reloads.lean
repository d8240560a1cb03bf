import ASNeGDemo.Lifecycle.Restart
import ASNeGDemo.TestStatusCode.InitialValues

/-!
`TestStatusCode` over its whole life. A startup makes new data values in any case, also where the
nodes are there already; what was stored before stays where it is, and what is shared stays
within the pairs of one namespace.
-/
namespace ASNeGDemo.TestStatusCode

variable {P : Platform}

/-! ### The blocks of `createValueMap` -/

/-- The blocks that make a data value of their own and leave no pointer to it behind. -/
inductive NewBlock (P : Platform) : ℕ → Sim (Variant (Value P)) → Prop where
  | value {id : ℕ} {v : Variant (Value P)}
      (h : (id, v) ∈ valuesTo220 P ++ values223To225 P ++ valuesFrom230 P) :
      NewBlock P id (return v)
  | dateTime (time : DateTime) : NewBlock P 228 (return .scalar .dateTime time)
  | dateTimes : NewBlock P 229
      (return .array .dateTime [← universalTime, ← universalTime, ← universalTime])

theorem NewBlock.id_ne {id : ℕ} {content : Sim (Variant (Value P))} (h : NewBlock P id content) :
    id ≠ 221 ∧ id ≠ 222 ∧ id ≠ 226 ∧ id ≠ 227 := by
  cases h with
  | value h =>
    have hids : (valuesTo220 P ++ values223To225 P ++ valuesFrom230 P).map Prod.fst =
        List.range' 200 21 ++ List.range' 223 3 ++ List.range' 230 6 := rfl
    have hid : id ∈ List.range' 200 21 ++ List.range' 223 3 ++ List.range' 230 6 :=
      hids ▸ List.mem_map_of_mem h
    simp only [List.mem_append, List.mem_range'_1] at hid
    omega
  | dateTime => decide
  | dateTimes => decide

section Blocks
variable {I : State P → Prop}

theorem insertValues_preserves
    (hnew : ∀ {s id content}, NewBlock P id content → ∀ env, I s →
      I (insertNew s id content env).1)
    {es : List (ℕ × Variant (Value P))} (hes : ∀ e ∈ es, NewBlock P e.1 (return e.2))
    {s : State P} (h : I s) (env : Env) : I (es.foldlM insertValue s env).1 :=
  Sim.foldlM_spec (fun s _ => I s) (fun e he _ env h => hnew (hes e he) env h) h

theorem insertDateTimes_preserves
    (hnew : ∀ {s id content}, NewBlock P id content → ∀ env, I s →
      I (insertNew s id content env).1)
    {s : State P} (h : I s) (env : Env) : I (insertDateTimes s env).1 := by
  unfold insertDateTimes
  refine Sim.bind_spec (fun _ => True) trivial ?_
  intro time env _
  refine Sim.bind_spec I (hnew (.dateTime time) env h) ?_
  intro s₁ env h₁
  exact hnew .dateTimes env h₁

/-- What every block keeps, `createValueMap` keeps. The block of node 222 goes with that of node
221, whose data value it writes, and the block of node 227 with that of node 226. -/
theorem createValueMap_preserves
    (hnew : ∀ {s id content}, NewBlock P id content → ∀ env, I s →
      I (insertNew s id content env).1)
    (hstring : ∀ {s} env, I s → I (insertString s.cells.next (insertValue s (value221 P) env).1))
    (htext : ∀ {s} env env', I s →
      I (insertTextArray (s.heap .localizedText).next (insertText s env).1 env').1)
    {s : State P} (h : I s) (env : Env) : I (createValueMap s env).1 := by
  have hvalues {es : List (ℕ × Variant (Value P))}
      (hes : ∀ e ∈ es, e ∈ valuesTo220 P ++ values223To225 P ++ valuesFrom230 P) {s : State P}
      (h : I s) (env : Env) : I (es.foldlM insertValue s env).1 :=
    insertValues_preserves hnew (fun e he => .value (hes e he)) h env
  unfold createValueMap
  apply Sim.bind_spec I (hvalues (fun e he => List.mem_append_left _ (List.mem_append_left _ he)) h env)
  intro s₁ env h₁
  apply Sim.bind_spec (fun s₂ => I (insertString s₁.cells.next s₂)) (hstring env h₁)
  intro s₂ env h₂
  apply Sim.bind_spec I
    (hvalues (fun e he => List.mem_append_left _ (List.mem_append_right _ he)) h₂ env)
  intro s₄ env h₄
  apply Sim.bind_spec (fun s₅ => ∀ env,
    I (insertTextArray (s₄.heap .localizedText).next s₅ env).1) fun env' => htext env env' h₄
  intro s₅ env h₅
  apply Sim.bind_spec I (h₅ env)
  intro s₆ env h₆
  apply Sim.bind_spec I (insertDateTimes_preserves hnew h₆ env)
  intro s₇ env h₇
  exact hvalues (fun e he => List.mem_append_right _ he) h₇ env

end Blocks

/-! ### What is shared -/

/-- The nodes 221 and 222 of one namespace. -/
def Twins (m n : NodeId) : Prop := ∃ ns, Pair 221 222 ns m n

/-- The nodes 226 and 227 of one namespace. -/
def Texts (m n : NodeId) : Prop := ∃ ns, Pair 226 227 ns m n

/-- Twins share their data value if they are there, and nothing else is shared but the text objects
of a namespace. -/
structure Settled (s : State P) : Prop where
  layout : Layout s Twins Texts fun n => ∃ ns, n = nodeId 227 ns
  twins : ∀ ns, s.valueMap.find (nodeId 221 ns) = s.valueMap.find (nodeId 222 ns)

section Sharing
variable {s : State P} {repeated : NodeId → Prop}

/-- The data value that the block of node 222 writes is so far that of node 221, or of no node. -/
theorem Layout.insertString_twins (h : Layout s Twins Texts repeated) {dataValue : ℕ}
    (hallocated : dataValue < s.cells.next)
    (halone : ∀ {n}, s.valueMap.find n = some dataValue → n = nodeId 221 s.namespaceIndex) :
    Layout (TestStatusCode.insertString dataValue s) Twins Texts repeated := by
  let s' := TestStatusCode.insertString dataValue s
  have hmade : Made s.heap s'.heap [(.string, (s.heap .string).next)] :=
    (Slot.create_made (t := .string) s.heap none).1
  have hself : s'.refs dataValue = [(.string, (s.heap .string).next)] :=
    congrArg DataValue.refs (s.cells.write_read_self dataValue _)
  have hold {c : ℕ} (hc : c ≠ dataValue) : s'.refs c = s.refs c :=
    congrArg DataValue.refs (s.cells.write_read_of_ne hc _)
  have hfind {n : NodeId} {c : ℕ} (hn : s'.valueMap.find n = some c) :
      s.valueMap.find n = some c ∨ c = dataValue ∧ n = nodeId 222 s.namespaceIndex :=
    (find_insertCell_cases hn).imp_right And.right
  -- only the two twins can have the cell, and the other nodes have what they had
  have hpair {n : NodeId} (hn : s'.valueMap.find n = some dataValue) :
      n = nodeId 221 s.namespaceIndex ∨ n = nodeId 222 s.namespaceIndex :=
    (hfind hn).imp halone And.right
  have hother {n : NodeId} {c : ℕ} (hn : s'.valueMap.find n = some c) (hc : c ≠ dataValue) :
      s.valueMap.find n = some c :=
    (hfind hn).resolve_right fun hnew => hc hnew.1
  constructor
  · intro n c hn
    obtain hn | ⟨rfl, -⟩ := hfind hn
    · exact h.allocated hn
    · exact hallocated
  · intro m n c hm hn
    by_cases hc : c = dataValue
    · subst hc
      obtain rfl | rfl := hpair hm <;> obtain rfl | rfl := hpair hn
      · exact .inl rfl
      · exact .inr ⟨_, .inl ⟨rfl, rfl⟩⟩
      · exact .inr ⟨_, .inr ⟨rfl, rfl⟩⟩
      · exact .inl rfl
    · exact h.injective (hother hm hc) (hother hn hc)
  · intro n c hn r hr
    change r.2 < (s'.heap r.1).next
    change r ∈ s'.refs c at hr
    by_cases hc : c = dataValue
    · subst hc
      rw [hself] at hr
      exact (hmade.fresh r hr).2
    · rw [hold hc] at hr
      exact (h.refs_allocated (hother hn hc) r hr).trans_le (hmade.grows.next_le r.1)
  · intro m n c c' hm hn hne hno
    change (s'.refs c).Disjoint (s'.refs c')
    by_cases hc : c = dataValue
    · subst hc
      rw [hself, hold hne.symm]
      exact (h.disjoint_made hmade (hother hn hne.symm)).symm
    · rw [hold hc]
      by_cases hc' : c' = dataValue
      · subst hc'
        rw [hself]
        exact h.disjoint_made hmade (hother hm hc)
      · rw [hold hc']
        exact h.disjoint (hother hm hc) (hother hn hc') hne hno
  · intro n c hn hnr
    change (s'.refs c).Nodup
    by_cases hc : c = dataValue
    · subst hc
      rw [hself]
      exact List.nodup_singleton _
    · rw [hold hc]
      exact h.nodup (hother hn hc) hnr

/-- The text object that the block of node 227 takes is so far in the data value of node 226, or in
none. -/
theorem Layout.insertTextArray_texts (h : Layout s Twins Texts fun n => ∃ ns, n = nodeId 227 ns)
    {ltext : ℕ} (hallocated : ltext < (s.heap .localizedText).next)
    (halone : ∀ {n cell}, s.valueMap.find n = some cell → (.localizedText, ltext) ∈ s.refs cell →
      n = nodeId 226 s.namespaceIndex) (env : Env) :
    Layout (TestStatusCode.insertTextArray ltext s env).1 Twins Texts
      fun n => ∃ ns, n = nodeId 227 ns := by
  have honly {r : BuildInType × ℕ} (hr : r ∈ [(BuildInType.localizedText, ltext),
      (.localizedText, ltext), (.localizedText, ltext)]) : r = (.localizedText, ltext) := by
    simpa using hr
  apply h.insertCell_alloc 227 (fun ho => ho) (fun hr => hr) (fun _ => le_rfl)
  · intro r hr
    rw [honly hr]
    exact hallocated
  · intro hno
    exact absurd ⟨_, rfl⟩ hno
  · intro n cell hn hno r hr hr'
    rw [honly hr'] at hr
    obtain rfl := halone hn hr
    exact hno ⟨⟨_, .inl ⟨rfl, rfl⟩⟩, ⟨_, .inr ⟨rfl, rfl⟩⟩⟩

theorem find_insertNew (s : State P) (id : ℕ) (content : Sim (Variant (Value P))) (env : Env)
    (n : NodeId) :
    (insertNew s id content env).1.valueMap.find n =
      if n = nodeId id s.namespaceIndex then
        some ((s.valueMap.find (nodeId id s.namespaceIndex)).getD s.cells.next)
      else s.valueMap.find n := by
  obtain ⟨d, heap, -, heq⟩ := insertNew_eq s id content env
  rw [heq, find_insertCell]

theorem find_insertNew_cases {id : ℕ} {content : Sim (Variant (Value P))} {env : Env} {n : NodeId}
    {cell : ℕ} (hn : (insertNew s id content env).1.valueMap.find n = some cell) :
    s.valueMap.find n = some cell ∨ cell = s.cells.next ∧ n = nodeId id s.namespaceIndex := by
  obtain ⟨d, heap, -, heq⟩ := insertNew_eq s id content env
  rw [heq] at hn
  exact (find_insertCell_cases hn).imp_right And.right

theorem Settled.insertNew (h : Settled s) {id : ℕ} {content : Sim (Variant (Value P))}
    (hblock : NewBlock P id content) (env : Env) : Settled (insertNew s id content env).1 where
  layout := h.layout.insertNew id content env
  twins ns := by
    obtain ⟨h221, h222, -⟩ := hblock.id_ne
    have hne {id' : ℕ} (hid : id ≠ id') : nodeId id' ns ≠ nodeId id s.namespaceIndex := by
      simp [nodeId, hid.symm]
    rw [find_insertNew, find_insertNew, if_neg (hne h221), if_neg (hne h222), h.twins ns]

/-- The blocks of the nodes 221 and 222 insert the same data value. -/
theorem Settled.insertString (h : Settled s) (env : Env) :
    Settled (insertString s.cells.next (insertValue s (value221 P) env).1) := by
  change Settled (TestStatusCode.insertString s.cells.next
    (TestStatusCode.insertNew s 221 (return (value221 P).2) env).1)
  have hlayout := h.layout.insertNew 221 (return (value221 P).2) env
  have hfind := find_insertNew s 221 (return (value221 P).2) env
  have hns := (insertNew_filled s 221 (return (value221 P).2) env).namespaceIndex
  have hnext : s.cells.next <
      (TestStatusCode.insertNew s 221 (return (value221 P).2) env).1.cells.next :=
    Nat.lt_succ_self _
  have halone {n : NodeId} (hn : (TestStatusCode.insertNew s 221 (return (value221 P).2)
      env).1.valueMap.find n = some s.cells.next) : n = nodeId 221 s.namespaceIndex := by
    obtain hn | ⟨-, rfl⟩ := find_insertNew_cases hn
    · exact absurd (h.layout.allocated hn) (lt_irrefl _)
    · rfl
  generalize (TestStatusCode.insertNew s 221 (return (value221 P).2) env).1 = s₁ at *
  constructor
  · exact hlayout.insertString_twins hnext (hns.symm ▸ halone)
  · intro ns
    have hsame {id id' : ℕ} : nodeId id ns = nodeId id' s.namespaceIndex ↔
        ns = s.namespaceIndex ∧ id = id' := by
      simp [nodeId]
    unfold TestStatusCode.insertString
    rw [find_insertCell, find_insertCell]
    dsimp only
    rw [hns, hfind, hfind, hfind]
    by_cases hcurrent : ns = s.namespaceIndex
    · subst hcurrent
      simp [nodeId_inj, h.twins]
    · rw [if_neg (by simp [hsame, hcurrent]), if_neg (by simp [hsame, hcurrent]),
        if_neg (by simp [hsame, hcurrent]), if_neg (by simp [hsame, hcurrent]), h.twins]

/-- The block of node 226 makes the text object, and that of node 227 takes it. -/
theorem Settled.insertTextArray (h : Settled s) (env env' : Env) :
    Settled (insertTextArray (s.heap .localizedText).next (insertText s env).1 env').1 := by
  have hlayout := h.layout.insertNew 226 (return .scalar .localizedText ⟨"de", "text"⟩) env
  change Layout (insertText s env).1 Twins Texts _ at hlayout
  have hns : (insertText s env).1.namespaceIndex = s.namespaceIndex :=
    (insertNew_filled s 226 (return .scalar .localizedText ⟨"de", "text"⟩) env).namespaceIndex
  have hnext : (s.heap .localizedText).next <
      ((insertText s env).1.heap .localizedText).next := by
    have halloc := TypedMemory.alloc_next_self s.heap .localizedText ⟨"de", "text"⟩
    exact (Nat.lt_succ_self _).trans_eq halloc.symm
  have halone {n : NodeId} {cell : ℕ} (hn : (insertText s env).1.valueMap.find n = some cell)
      (hr : (.localizedText, (s.heap .localizedText).next) ∈ (insertText s env).1.refs cell) :
      n = nodeId 226 s.namespaceIndex := by
    obtain hn | ⟨-, rfl⟩ := find_insertNew_cases hn
    · -- an object of an old data value is an old one
      have hold : (insertText s env).1.refs cell = s.refs cell :=
        congrArg DataValue.refs (s.cells.alloc_read_of_lt (h.layout.allocated hn) _)
      rw [hold] at hr
      exact absurd (h.layout.refs_allocated hn _ hr) (lt_irrefl _)
    · rfl
  constructor
  · exact hlayout.insertTextArray_texts hnext (hns.symm ▸ halone) env'
  · intro ns
    have hne {id : ℕ} (h226 : id ≠ 226) (h227 : id ≠ 227) :
        (TestStatusCode.insertTextArray (s.heap .localizedText).next (insertText s env).1
          env').1.valueMap.find (nodeId id ns) = s.valueMap.find (nodeId id ns) := by
      refine (find_insertCell _ 227 _ _).trans ?_
      rw [if_neg (by simp [nodeId, h227])]
      refine (find_insertNew s 226 (return .scalar .localizedText ⟨"de", "text"⟩) env _).trans ?_
      rw [if_neg (by simp [nodeId, h226])]
    rw [hne (by decide) (by decide), hne (by decide) (by decide), h.twins ns]

theorem Settled.createValueMap (h : Settled s) (env : Env) : Settled (createValueMap s env).1 :=
  createValueMap_preserves (fun hblock env h => h.insertNew hblock env)
    (fun env h => h.insertString env) (fun env env' h => h.insertTextArray env env') h env

end Sharing

/-! ### What a startup keeps -/

/-- The data values behind the nodes, and the objects, of the first state are still there. -/
structure Keeps (s s' : State P) : Prop where
  holds : ∀ {n cell d}, Holds s n cell d → Holds s' n cell d
  grows : TypedMemory.Extends s.heap s'.heap

section Startup
variable {s s' : State P} {sameCell sameObject : NodeId → NodeId → Prop} {repeated : NodeId → Prop}

theorem Keeps.createValueMap (s : State P) (env : Env) : Keeps s (createValueMap s env).1 := by
  apply createValueMap_preserves (I := Keeps s) ?_ ?_ ?_ ⟨fun h => h, .refl s.heap⟩ env
  · intro s₁ id content _ env h₁
    obtain ⟨d, heap, hmade, heq⟩ := insertNew_eq s₁ id content env
    refine ⟨fun h => (h₁.holds h).insertNew id content env, ?_⟩
    rw [heq]
    exact h₁.grows.trans hmade.grows
  · intro s₁ env h₁
    obtain ⟨d, heap, hmade, heq⟩ := insertNew_eq s₁ 221 (return (value221 P).2) env
    constructor
    · intro n cell d h
      exact ((h₁.holds h).insertNew 221 _ env).insertString (h₁.holds h).allocated.ne
    · change TypedMemory.Extends s.heap ((TestStatusCode.insertNew s₁ 221
        (return (value221 P).2) env).1.heap.alloc .string none)
      rw [heq]
      exact (h₁.grows.trans hmade.grows).trans (TypedMemory.extends_alloc ..)
  · intro s₁ env env' h₁
    constructor
    · intro n cell d h
      exact ((h₁.holds h).insertNew 226 _ env).insertTextArray _ env'
    · exact h₁.grows.trans (TypedMemory.extends_alloc ..)

/-- So is what is read at the nodes. -/
theorem Keeps.value (h : Keeps s s') (hs : Layout s sameCell sameObject repeated) {n : NodeId}
    {d : DataValue (Value P)} (hd : s.value n = some d) : s'.value n = some d := by
  obtain ⟨cell, hn, rfl⟩ := Option.map_eq_some_iff.mp hd
  have hholds := h.holds ⟨hn, hs.allocated hn, rfl⟩
  unfold State.value
  rw [hholds.find, Option.map_some, hholds.read,
    DataValue.load_of_extends h.grows (hs.refs_allocated hn)]

/-- Only the value map is of interest here; the other stages ask the service. -/
theorem startup_preserves {I : State P → Prop}
    (hmap : ∀ {s} env, I s → I (TestStatusCode.createValueMap s env).1)
    (hother : ∀ {s s'}, s'.valueMap = s.valueMap → s'.cells = s.cells → s'.heap = s.heap →
      I s → I s')
    (b : ServiceBehaviour) (env : Env) (h : I s) : I (startup b env s).1 := by
  refine Stage.chain_preserves (I := I) ?_ h
  intro f hf s' hs'
  simp only [List.mem_cons, List.not_mem_nil, or_false] at hf
  rcases hf with rfl | rfl | rfl | rfl | rfl | rfl
  · unfold getNamespaceInfo
    split_ifs
    · exact hother (s := s') rfl rfl rfl hs'
    · exact hs'
  · dsimp only
    exact hmap env hs'
  · exact hs'
  · exact hs'
  · unfold createNodeReferences
    split_ifs
    · exact hother (s := s') rfl rfl rfl hs'
    · exact hs'
  · exact hother (s := s') rfl rfl rfl hs'

theorem Settled.congr (hmap : s'.valueMap = s.valueMap) (hcells : s'.cells = s.cells)
    (hheap : s'.heap = s.heap) (h : Settled s) : Settled s' := by
  obtain ⟨⟨_, _, _, _⟩, _, _, _, _⟩ := s
  obtain ⟨⟨_, _, _, _⟩, _, _, _, _⟩ := s'
  obtain rfl := hmap
  obtain rfl := hcells
  obtain rfl := hheap
  exact ⟨⟨h.layout.allocated, h.layout.injective, h.layout.refs_allocated, h.layout.disjoint,
    h.layout.nodup⟩, h.twins⟩

theorem Settled.startup (h : Settled s) (b : ServiceBehaviour) (env : Env) :
    Settled (startup b env s).1 :=
  startup_preserves (fun env h => h.createValueMap env) (fun hm hc hh h => h.congr hm hc hh) b env h

/-- A startup, whatever comes of it, keeps every value. -/
theorem startup_value (h : Settled s) (b : ServiceBehaviour) (env : Env) {n : NodeId}
    {d : DataValue (Value P)} (hd : s.value n = some d) :
    (TestStatusCode.startup b env s).1.value n = some d := by
  refine (startup_preserves (I := fun s' => Settled s' ∧ s'.value n = some d) ?_ ?_ b env
    ⟨h, hd⟩).2
  · rintro s' env ⟨h', hd'⟩
    exact ⟨h'.createValueMap env, (Keeps.createValueMap s' env).value h'.layout hd'⟩
  · rintro s' s'' hm hc hh ⟨h', hd'⟩
    refine ⟨h'.congr hm hc hh, ?_⟩
    unfold State.value
    rw [hm, hc, hh]
    exact hd'

end Startup

/-! ### Lives -/

/-- The answer is that of the callback or the tick. -/
def proceed (s : State P) : LifeEvent P Env → State P × Option (Answer P)
  | .call c => (((module P).call s c).1, none)
  | .event e => ((step s e).1, some (step s e).2)
  | .writeLoopTimeValue dataValue => (invoke s (.writeLoopTimeValue dataValue), none)

/-- The node shares with another one, if the two are there. -/
def Entangled (n : NodeId) : Prop := ∃ ns, ∃ id ∈ [221, 222, 226, 227], n = nodeId id ns

theorem Settled.proceed {s : State P} (h : Settled s) (e : LifeEvent P Env) :
    Settled (proceed s e).1 := by
  cases e with
  | call c =>
    cases c with
    | startup b env => exact h.startup b env
    | shutdown => exact h
  | event e =>
    cases e with
    | readValue n => exact h
    | writeValue n d =>
      obtain ⟨hmap, -⟩ := writeValue_valueMap s n d
      refine ⟨(h.layout.writeValue n d).mono id And.left And.left, ?_⟩
      intro ns
      change (writeValue s n d).1.valueMap.find _ = (writeValue s n d).1.valueMap.find _
      rw [hmap]
      exact h.twins ns
    | timerLoop live env =>
      obtain ⟨hmap, -⟩ := timerLoop_apply s live env
      refine ⟨h.layout.timerLoop live env, ?_⟩
      intro ns
      change (timerLoop s live env).1.1.valueMap.find _ = (timerLoop s live env).1.1.valueMap.find _
      rw [hmap]
      exact h.twins ns
  | writeLoopTimeValue d => exact Settled.congr (s := s) rfl rfl rfl h

theorem construct_settled (env : Env) : Settled (construct P env).1 where
  layout := unshared_of_empty rfl |>.mono False.elim False.elim False.elim
  twins _ := rfl

theorem proceed_value {s : State P} (h : Settled s) {e : LifeEvent P Env}
    (he : ∀ e', e ≠ .event e') {n : NodeId} {d : DataValue (Value P)} (hd : s.value n = some d) :
    (proceed s e).1.value n = some d := by
  cases e with
  | call c =>
    cases c with
    | startup b env => exact startup_value h b env hd
    | shutdown => exact hd
  | event e => exact absurd rfl (he e)
  | writeLoopTimeValue d => exact hd

/-- What is neither a write nor a tick leaves every value that is there. -/
theorem run_value_of_some {s : State P} (h : Settled s) {n : NodeId} {d : DataValue (Value P)}
    (hd : s.value n = some d) {fs : List (LifeEvent P Env)} (hfs : ∀ e, .event e ∉ fs) :
    (Runs.run proceed s fs).1.value n = some d := by
  induction fs generalizing s with
  | nil => exact hd
  | cons f fs ih =>
    have hf (e : Event P) : f ≠ .event e := by
      rintro rfl
      exact hfs e List.mem_cons_self
    exact ih (h.proceed f) (proceed_value h hf hd) fun e he => hfs e (List.mem_cons_of_mem _ he)

/-- Over its whole life, whatever startups came to. Of the nodes that are there exactly the twins of
a namespace read what is written to one another; all but the twins and the texts are updated once
in every tick, by what is drawn for them; and no startup sets a value back. -/
theorem lives_distinct (env : Env) (es : List (LifeEvent P Env)) :
    let s := (Runs.run proceed (construct P env).1 es).1
    (∀ m n, m ∈ s.valueMap.keys → m ≠ n → (WriteIsolated s m n ↔ ¬ Twins m n)) ∧
    (∀ live n, ¬ Entangled n → OneUpdate s live n) ∧
    ∀ n d, s.value n = some d → ∀ fs : List (LifeEvent P Env), (∀ e, .event e ∉ fs) →
      (Runs.run proceed s fs).1.value n = some d := by
  intro s
  have hs : Settled s :=
    Runs.run_invariant (I := Settled) (fun _ e h => h.proceed e) es (construct_settled env)
  refine ⟨?_, ?_, ?_⟩
  · intro m n hm hne
    rw [writeIsolated_iff hs.layout hm, not_iff_not]
    constructor
    · intro heq
      obtain ⟨cell, hc⟩ := Option.isSome_iff_exists.mp ((s.valueMap.mem_keys_iff m).mp hm)
      exact (hs.layout.injective hc (heq ▸ hc)).resolve_left hne
    · rintro ⟨ns, ⟨rfl, rfl⟩ | ⟨rfl, rfl⟩⟩
      · exact hs.twins ns
      · exact (hs.twins ns).symm
  · intro live n hn
    apply hs.layout.oneUpdate
    · rintro m d ⟨ns, ⟨-, rfl⟩ | ⟨-, rfl⟩⟩
      · exact absurd ⟨ns, 222, by decide, rfl⟩ hn
      · exact absurd ⟨ns, 221, by decide, rfl⟩ hn
    · rintro m ⟨ns, ⟨-, rfl⟩ | ⟨-, rfl⟩⟩
      · exact absurd ⟨ns, 227, by decide, rfl⟩ hn
      · exact absurd ⟨ns, 226, by decide, rfl⟩ hn
    · rintro ⟨ns, rfl⟩
      exact absurd ⟨ns, 227, by decide, rfl⟩ hn
  · intro n d hd fs hfs
    exact run_value_of_some hs hd hfs

end ASNeGDemo.TestStatusCode
