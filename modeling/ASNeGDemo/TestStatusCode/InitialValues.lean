import ASNeGDemo.TestStatusCode.Isolation

/-!
The initial values of `TestStatusCode`. What a block of `createValueMap` puts behind a node, the
later blocks leave there.
-/
namespace ASNeGDemo.TestStatusCode

variable {P : Platform} {s : State P} {n : NodeId} {cell : ℕ} {d : DataValue (Slot P)}

/-- The node has the cell, and the cell holds the data value. -/
structure Holds (s : State P) (n : NodeId) (cell : ℕ) (d : DataValue (Slot P)) : Prop where
  find : s.valueMap.find n = some cell
  allocated : cell < s.cells.next
  read : s.cells.read cell = d

/-- An insertion with a new cell leaves the cells that are there. -/
theorem Holds.insertCell_alloc (h : Holds s n cell d) (id : ℕ) (d' : DataValue (Slot P))
    (heap : Heap P) :
    Holds (insertCell { s with cells := s.cells.alloc d', heap := heap } id s.cells.next) n cell
      d where
  find := by
    rw [find_insertCell]
    by_cases hn : n = nodeId id s.namespaceIndex
    · rw [if_pos hn]
      have hfind : s.valueMap.find (nodeId id s.namespaceIndex) = some cell := hn ▸ h.find
      exact congrArg (fun o => some (Option.getD o s.cells.next)) hfind
    · rw [if_neg hn]
      exact h.find
  allocated := h.allocated.trans (Nat.lt_succ_self _)
  read := (s.cells.alloc_read_of_lt h.allocated d').trans h.read

theorem Holds.insertNew (h : Holds s n cell d) (id : ℕ) (content : Sim (Variant (Value P)))
    (env : Env) : Holds (insertNew s id content env).1 n cell d := by
  obtain ⟨d', heap, -, heq⟩ := insertNew_eq s id content env
  rw [heq]
  exact h.insertCell_alloc id d' heap

theorem Holds.insertValues (es : List (ℕ × Variant (Value P))) (h : Holds s n cell d) (env : Env) :
    Holds (es.foldlM insertValue s env).1 n cell d :=
  Sim.foldlM_spec (fun s _ => Holds s n cell d)
    (fun e _ _ env h => h.insertNew e.1 (return e.2) env) h

/-- The block of node 222 writes the cell of node 221. -/
theorem Holds.insertString (h : Holds s n cell d) {dataValue : ℕ} (hne : cell ≠ dataValue) :
    Holds (insertString dataValue s) n cell d where
  find := by
    unfold TestStatusCode.insertString
    rw [find_insertCell]
    by_cases hn : n = nodeId 222 s.namespaceIndex
    · rw [if_pos hn]
      have hfind : s.valueMap.find (nodeId 222 s.namespaceIndex) = some cell := hn ▸ h.find
      exact congrArg (fun o => some (Option.getD o dataValue)) hfind
    · rw [if_neg hn]
      exact h.find
  allocated := h.allocated
  read := (s.cells.write_read_of_ne hne _).trans h.read

theorem Holds.insertTextArray (h : Holds s n cell d) (ltext : ℕ) (env : Env) :
    Holds (insertTextArray ltext s env).1 n cell d :=
  h.insertCell_alloc 227 _ s.heap

theorem Holds.withReferences (h : Holds s n cell d) (references : OrderedMap NodeId NodeRef) :
    Holds { s with baseNodeClassWMap := references } n cell d :=
  ⟨h.find, h.allocated, h.read⟩

theorem Holds.insertDateTimes (h : Holds s n cell d) (env : Env) :
    Holds (insertDateTimes s env).1 n cell d := by
  simp only [TestStatusCode.insertDateTimes, Sim.bind_apply]
  exact (h.insertNew 228 _ _).insertNew 229 _ _

/-- A block for a number makes a data value that holds the number itself. -/
theorem insertNew_holds {id : ℕ} (hnone : s.valueMap.find (nodeId id s.namespaceIndex) = none)
    {t : BuildInType} (ht : byReference t = false) (v : Value P t) (env : Env) :
    ∃ d : DataValue (Slot P), d.variant = .scalar t (.val v) ∧
      Holds (insertNew s id (return .scalar t v) env).1 (nodeId id s.namespaceIndex)
        s.cells.next d := by
  refine ⟨_, ?_, insertNew_find hnone _ env, Nat.lt_succ_self _, s.cells.alloc_read_next _⟩
  unfold DataValue.store Slot.create
  simp [ht]

/-- A list of blocks with identifiers of their own puts every number of it behind its node. -/
theorem insertValues_holds {es : List (ℕ × Variant (Value P))} (hids : (es.map Prod.fst).Nodup)
    (hnone : ∀ e ∈ es, s.valueMap.find (nodeId e.1 s.namespaceIndex) = none) {id : ℕ}
    {t : BuildInType} (ht : byReference t = false) {v : Value P t}
    (hmem : (id, Variant.scalar t v) ∈ es) (env : Env) :
    ∃ (d : DataValue (Slot P)) (cell : ℕ), d.variant = .scalar t (.val v) ∧
      Holds (es.foldlM insertValue s env).1 (nodeId id s.namespaceIndex) cell d := by
  induction es generalizing s env with
  | nil => exact absurd hmem List.not_mem_nil
  | cons e es ih =>
    obtain ⟨hid, hids⟩ := List.nodup_cons.mp hids
    rw [List.foldlM_cons, Sim.bind_apply]
    rcases List.mem_cons.mp hmem with rfl | hmem
    · obtain ⟨d, hd, hholds⟩ := insertNew_holds (hnone _ List.mem_cons_self) ht v env
      exact ⟨d, _, hd, hholds.insertValues es _⟩
    · have hfilled := insertNew_filled s e.1 (return e.2) env
      have hns : (insertValue s e env).1.namespaceIndex = s.namespaceIndex :=
        hfilled.namespaceIndex
      have hrest : ∀ f ∈ es, (insertValue s e env).1.valueMap.find
          (nodeId f.1 (insertValue s e env).1.namespaceIndex) = none := by
        intro f hf
        rw [hns]
        refine (hfilled.find_of_notMem ?_).trans (hnone f (List.mem_cons_of_mem e hf))
        rw [List.mem_singleton]
        intro heq
        exact hid (heq ▸ List.mem_map_of_mem hf)
      have hholds := ih hids hrest hmem (insertValue s e env).2
      rwa [hns] at hholds

/-- The numbers of the first block of `createValueMap` are there when it is done. -/
theorem createValueMap_holds (hempty : s.valueMap = .empty) {id : ℕ} {t : BuildInType}
    (ht : byReference t = false) {v : Value P t} (hmem : (id, Variant.scalar t v) ∈ valuesTo220 P)
    (env : Env) :
    ∃ (d : DataValue (Slot P)) (cell : ℕ), d.variant = .scalar t (.val v) ∧
      Holds (createValueMap s env).1 (nodeId id s.namespaceIndex) cell d := by
  have hids : (valuesTo220 P).map Prod.fst = List.range' 200 21 := rfl
  have hnone : ∀ e ∈ valuesTo220 P, s.valueMap.find (nodeId e.1 s.namespaceIndex) = none := by
    intro e _
    rw [hempty]
    rfl
  have hfirst := insertValues_holds (hids ▸ List.nodup_range') hnone ht hmem env
  obtain ⟨d, cell, hd, hholds⟩ := hfirst
  refine ⟨d, cell, hd, ?_⟩
  let Kept : State P → Prop := fun s' => Holds s' (nodeId id s.namespaceIndex) cell d
  change Kept (createValueMap s env).1
  unfold createValueMap
  apply Sim.bind_spec Kept hholds
  intro s₁ env h₁
  apply Sim.bind_spec Kept (h₁.insertNew 221 _ env)
  intro s₂ env h₂
  have h₃ := h₂.insertString h₁.allocated.ne
  apply Sim.bind_spec Kept (h₃.insertValues (values223To225 P) env)
  intro s₄ env h₄
  apply Sim.bind_spec Kept (h₄.insertNew 226 _ env)
  intro s₅ env h₅
  apply Sim.bind_spec Kept (h₅.insertTextArray _ env)
  intro s₆ env h₆
  apply Sim.bind_spec Kept (h₆.insertDateTimes env)
  intro s₇ env h₇
  exact h₇.insertValues (valuesFrom230 P) env

theorem created_value_scalar (env : Env) (ns : ℕ) (references : OrderedMap NodeId NodeRef) {id : ℕ}
    {t : BuildInType} (ht : byReference t = false) {v : Value P t}
    (hmem : (id, Variant.scalar t v) ∈ valuesTo220 P) :
    ((created P env ns references).value (nodeId id ns)).map DataValue.variant =
      some (.scalar t v) := by
  obtain ⟨d, cell, hd, hholds⟩ :=
    createValueMap_holds (named_valueMap env ns) ht hmem (construct P env).2
  rw [named_namespaceIndex] at hholds
  have hcreated : Holds (created P env ns references) (nodeId id ns) cell d :=
    hholds.withReferences references
  generalize created P env ns references = s at hcreated
  rw [State.value, hcreated.find, Option.map_some, Option.map_some, hcreated.read]
  simp only [DataValue.load, DataValue.map_variant, hd]
  rfl

theorem created_value_int (env : Env) (ns : ℕ) (references : OrderedMap NodeId NodeRef) {id : ℕ}
    {t : IntType} {v : t.Val} (hmem : (id, Variant.scalar (.int t) v) ∈ valuesTo220 P) :
    ((created P env ns references).value (nodeId id ns)).map DataValue.variant =
      some (.scalar (.int t) v) :=
  created_value_scalar env ns references rfl hmem

end ASNeGDemo.TestStatusCode
