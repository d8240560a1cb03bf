import ASNeGDemo.TestStatusCode.Module

/-!
Who holds what in `TestStatusCode`. Nodes have data value cells and cells have element
objects; the layout says which nodes may share a cell and which cells may share objects.
-/
namespace ASNeGDemo.TestStatusCode

variable {P : Platform}

/-- The objects behind a cell. -/
def State.refs (s : State P) (cell : ℕ) : List (BuildInType × ℕ) := (s.cells.read cell).refs

/-- Nodes share a cell only if `sameCell` says so, cells share an object only if `sameObject`
does, and a cell holds an object twice only if `repeated` does. -/
structure Layout (s : State P) (sameCell sameObject : NodeId → NodeId → Prop)
    (repeated : NodeId → Prop) : Prop where
  allocated : ∀ {n cell}, s.valueMap.find n = some cell → cell < s.cells.next
  injective : ∀ {m n cell}, s.valueMap.find m = some cell → s.valueMap.find n = some cell →
    m = n ∨ sameCell m n
  refs_allocated : ∀ {n cell}, s.valueMap.find n = some cell →
    ∀ r ∈ s.refs cell, r.2 < (s.heap r.1).next
  disjoint : ∀ {m n cell cell'}, s.valueMap.find m = some cell →
    s.valueMap.find n = some cell' → cell ≠ cell' → ¬ sameObject m n →
      (s.refs cell).Disjoint (s.refs cell')
  nodup : ∀ {n cell}, s.valueMap.find n = some cell → ¬ repeated n → (s.refs cell).Nodup

/-- The layout of an object in which nothing is shared. -/
abbrev Unshared (s : State P) : Prop :=
  Layout s (fun _ _ => False) (fun _ _ => False) fun _ => False

/-- The two nodes with the identifiers `i` and `j`, in either order. -/
def Pair (i j ns : ℕ) (m n : NodeId) : Prop :=
  m = nodeId i ns ∧ n = nodeId j ns ∨ m = nodeId j ns ∧ n = nodeId i ns

section Layout
variable {s : State P} {sameCell sameObject : NodeId → NodeId → Prop} {repeated : NodeId → Prop}

theorem Layout.mono (h : Layout s sameCell sameObject repeated)
    {sameCell' sameObject' : NodeId → NodeId → Prop} {repeated' : NodeId → Prop}
    (hc : ∀ {m n}, sameCell m n → sameCell' m n) (ho : ∀ {m n}, sameObject m n → sameObject' m n)
    (hr : ∀ {n}, repeated n → repeated' n) : Layout s sameCell' sameObject' repeated' where
  allocated := h.allocated
  injective hm hn := (h.injective hm hn).imp_right hc
  refs_allocated := h.refs_allocated
  disjoint hm hn hne hno := h.disjoint hm hn hne (mt ho hno)
  nodup hn hnr := h.nodup hn (mt hr hnr)

/-! ### Insertion -/

theorem find_insertCell (s : State P) (id cell : ℕ) (n : NodeId) :
    (insertCell s id cell).valueMap.find n =
      if n = nodeId id s.namespaceIndex then
        some ((s.valueMap.find (nodeId id s.namespaceIndex)).getD cell)
      else s.valueMap.find n :=
  s.valueMap.find_insert ..

theorem find_insertCell_cases {id cell : ℕ} {n : NodeId} {c : ℕ}
    (h : (insertCell s id cell).valueMap.find n = some c) :
    s.valueMap.find n = some c ∨
      s.valueMap.find n = none ∧ c = cell ∧ n = nodeId id s.namespaceIndex := by
  rw [find_insertCell] at h
  split_ifs at h with heq
  · subst heq
    cases hf : s.valueMap.find (nodeId id s.namespaceIndex) with
    | none => exact Or.inr ⟨rfl, by simpa [hf] using h.symm, rfl⟩
    | some old => exact Or.inl (by simpa [hf] using h)
  · exact Or.inl h

/-- A new cell. The other cells may grow apart from it as far as `sameObject'` says. -/
theorem Layout.insertCell_alloc (h : Layout s sameCell sameObject repeated) (id : ℕ)
    {d : DataValue (Slot P)} {heap : Heap P} {sameObject' : NodeId → NodeId → Prop}
    {repeated' : NodeId → Prop} (hsame : ∀ {m n}, sameObject m n → sameObject' m n)
    (hrepeated : ∀ {n}, repeated n → repeated' n)
    (hgrows : ∀ t, (s.heap t).next ≤ (heap t).next) (hrefs : ∀ r ∈ d.refs, r.2 < (heap r.1).next)
    (hnodup : ¬ repeated' (nodeId id s.namespaceIndex) → d.refs.Nodup)
    (hapart : ∀ {n c}, s.valueMap.find n = some c →
      ¬ (sameObject' n (nodeId id s.namespaceIndex) ∧ sameObject' (nodeId id s.namespaceIndex) n) →
      (s.refs c).Disjoint d.refs) :
    Layout (insertCell { s with cells := s.cells.alloc d, heap := heap } id s.cells.next)
      sameCell sameObject' repeated' := by
  let s' : State P := { s with cells := s.cells.alloc d, heap := heap }
  have hcases : ∀ {n c}, (insertCell s' id s.cells.next).valueMap.find n = some c →
      s.valueMap.find n = some c ∨ c = s.cells.next ∧ n = nodeId id s.namespaceIndex :=
    fun hf => (find_insertCell_cases (s := s') hf).imp_right And.right
  have hold : ∀ {n c}, s.valueMap.find n = some c →
      (insertCell s' id s.cells.next).refs c = s.refs c := by
    intro n c hf
    exact congrArg DataValue.refs (s.cells.alloc_read_of_lt (h.allocated hf) d)
  have hnew : (insertCell s' id s.cells.next).refs s.cells.next = d.refs :=
    congrArg DataValue.refs (s.cells.alloc_read_next d)
  constructor
  · intro n c hf
    show c < s.cells.next + 1
    rcases hcases hf with hf | ⟨rfl, -⟩
    · exact (h.allocated hf).trans (Nat.lt_succ_self _)
    · exact Nat.lt_succ_self _
  · intro m n c hfm hfn
    rcases hcases hfm with hfm | ⟨rfl, rfl⟩ <;> rcases hcases hfn with hfn | ⟨hc, rfl⟩
    · exact h.injective hfm hfn
    · exact absurd (h.allocated hfm) (by omega)
    · exact absurd (h.allocated hfn) (by omega)
    · exact Or.inl rfl
  · intro n c hf r hr
    show r.2 < (heap r.1).next
    rcases hcases hf with hf | ⟨rfl, -⟩
    · rw [hold hf] at hr
      exact (h.refs_allocated hf r hr).trans_le (hgrows r.1)
    · rw [hnew] at hr
      exact hrefs r hr
  · intro m n c c' hfm hfn hne hno
    rcases hcases hfm with hfm | ⟨rfl, rfl⟩ <;> rcases hcases hfn with hfn | ⟨rfl, rfl⟩
    · rw [hold hfm, hold hfn]
      exact h.disjoint hfm hfn hne (mt hsame hno)
    · rw [hold hfm, hnew]
      exact hapart hfm fun hboth => hno hboth.1
    · rw [hold hfn, hnew]
      exact (hapart hfn fun hboth => hno hboth.2).symm
    · exact absurd rfl hne
  · intro n c hf hnr
    rcases hcases hf with hf | ⟨rfl, rfl⟩
    · rw [hold hf]
      exact h.nodup hf (mt hrepeated hnr)
    · rw [hnew]
      exact hnodup hnr

/-- New objects are in no old cell. -/
theorem Layout.disjoint_made (h : Layout s sameCell sameObject repeated) {heap : Heap P}
    {refs : List (BuildInType × ℕ)} (hm : Made s.heap heap refs) {n : NodeId} {cell : ℕ}
    (hf : s.valueMap.find n = some cell) : (s.refs cell).Disjoint refs :=
  fun r hr hr' => absurd (h.refs_allocated hf r hr) (not_lt.mpr (hm.fresh r hr').1)

/-- A write gives a cell new objects. -/
theorem Layout.write (h : Layout s sameCell sameObject repeated) {n : NodeId} {cell : ℕ}
    (hcell : s.valueMap.find n = some cell) {d : DataValue (Slot P)} {heap : Heap P}
    (hm : Made s.heap heap d.refs) :
    Layout { s with cells := s.cells.write cell d, heap := heap } sameCell
      (fun m m' => sameObject m m' ∧ m ≠ n ∧ m' ≠ n) (fun m => repeated m ∧ m ≠ n) := by
  let s' : State P := { s with cells := s.cells.write cell d, heap := heap }
  have hself : s'.refs cell = d.refs := congrArg DataValue.refs (s.cells.write_read_self cell d)
  have hold : ∀ {c}, c ≠ cell → s'.refs c = s.refs c :=
    fun hne => congrArg DataValue.refs (s.cells.write_read_of_ne hne d)
  have hother : ∀ {m c}, s.valueMap.find m = some c → c ≠ cell → m ≠ n := by
    rintro m c hf hne rfl
    exact hne (Option.some.inj (hf.symm.trans hcell))
  constructor
  · exact h.allocated
  · exact h.injective
  · intro m c hf r hr
    change r.2 < (heap r.1).next
    change r ∈ s'.refs c at hr
    by_cases hc : c = cell
    · subst hc
      rw [hself] at hr
      exact (hm.fresh r hr).2
    · rw [hold hc] at hr
      exact (h.refs_allocated hf r hr).trans_le (hm.grows.next_le r.1)
  · intro m m' c c' hf hf' hne hno
    change (s'.refs c).Disjoint (s'.refs c')
    by_cases hc : c = cell
    · subst hc
      rw [hself, hold hne.symm]
      exact (h.disjoint_made hm hf').symm
    · rw [hold hc]
      by_cases hc' : c' = cell
      · subst hc'
        rw [hself]
        exact h.disjoint_made hm hf
      · rw [hold hc']
        exact h.disjoint hf hf' hne fun ho => hno ⟨ho, hother hf hc, hother hf' hc'⟩
  · intro m c hf hnr
    change (s'.refs c).Nodup
    by_cases hc : c = cell
    · subst hc
      rw [hself]
      exact hm.nodup
    · rw [hold hc]
      exact h.nodup hf fun hr => hnr ⟨hr, hother hf hc⟩

end Layout

/-! ### The value map -/

/-- What a series of insertions changes: the value map gets the nodes with the given
identifiers, as far as it does not have them, and there are new cells and objects. -/
def Filled (ids : List ℕ) (s s' : State P) : Prop :=
  ∃ es : List (NodeId × ℕ), es.map Prod.fst = ids.map (nodeId · s.namespaceIndex) ∧
    ∃ cells heap,
      s' = { s with valueMap := s.valueMap.insertAll es, cells := cells, heap := heap }

section Filled
variable {ids ids' : List ℕ} {s s' s'' : State P}

theorem Filled.refl (s : State P) : Filled [] s s := ⟨[], rfl, s.cells, s.heap, rfl⟩

theorem Filled.append (h : Filled ids s s') (h' : Filled ids' s' s'') :
    Filled (ids ++ ids') s s'' := by
  obtain ⟨es, hes, cells, heap, rfl⟩ := h
  obtain ⟨es', hes', cells', heap', rfl⟩ := h'
  refine ⟨es ++ es', ?_, cells', heap', ?_⟩
  · rw [List.map_append, hes, hes', List.map_append]
  · simp only [s.valueMap.insertAll_append]

theorem filled_insertCell (s : State P) (id cell : ℕ) (cells : Memory (DataValue (Slot P)))
    (heap : Heap P) :
    Filled [id] s (insertCell { s with cells := cells, heap := heap } id cell) :=
  ⟨[(nodeId id s.namespaceIndex, cell)], rfl, cells, heap, rfl⟩

theorem Filled.namespaceIndex (h : Filled ids s s') : s'.namespaceIndex = s.namespaceIndex := by
  obtain ⟨es, -, cells, heap, rfl⟩ := h
  rfl

theorem Filled.statusCode (h : Filled ids s s') : s'.statusCode = s.statusCode := by
  obtain ⟨es, -, cells, heap, rfl⟩ := h
  rfl

theorem Filled.find_of_notMem (h : Filled ids s s') {i : ℕ} (hid : i ∉ ids) :
    s'.valueMap.find (nodeId i s.namespaceIndex) =
      s.valueMap.find (nodeId i s.namespaceIndex) := by
  obtain ⟨es, hes, cells, heap, rfl⟩ := h
  change (s.valueMap.insertAll es).find _ = _
  have hnone : es.lookup (nodeId i s.namespaceIndex) = none := by
    rw [← Option.not_isSome_iff_eq_none, OrderedMap.lookup_isSome_iff, hes, List.mem_map]
    rintro ⟨j, hj, heq⟩
    exact hid (nodeId_inj.mp heq ▸ hj)
  rw [s.valueMap.find_insertAll, hnone, Option.or_none]

theorem Filled.mem_keys (h : Filled ids s s') (n : NodeId) :
    n ∈ s'.valueMap.keys ↔
      n ∈ s.valueMap.keys ∨ n ∈ ids.map (nodeId · s.namespaceIndex) := by
  obtain ⟨es, hes, cells, heap, rfl⟩ := h
  rw [← hes]
  exact s.valueMap.mem_keys_insertAll es n

end Filled

/-- A block of `createValueMap` inserts a cell with new objects. -/
theorem insertNew_eq (s : State P) (id : ℕ) (content : Sim (Variant (Value P))) (env : Env) :
    ∃ d heap, Made s.heap heap d.refs ∧ (insertNew s id content env).1 =
      insertCell { s with cells := s.cells.alloc d, heap := heap } id s.cells.next :=
  ⟨_, _, (DataValue.store_made s.heap _).1, rfl⟩

section Creation
variable {s : State P} {sameCell sameObject : NodeId → NodeId → Prop} {repeated : NodeId → Prop}

theorem insertNew_filled (s : State P) (id : ℕ) (content : Sim (Variant (Value P))) (env : Env) :
    Filled [id] s (insertNew s id content env).1 := by
  obtain ⟨d, heap, -, heq⟩ := insertNew_eq s id content env
  rw [heq]
  exact filled_insertCell s id _ _ heap

theorem Layout.insertNew (h : Layout s sameCell sameObject repeated) (id : ℕ)
    (content : Sim (Variant (Value P))) (env : Env) :
    Layout (insertNew s id content env).1 sameCell sameObject repeated := by
  obtain ⟨d, heap, hmade, heq⟩ := insertNew_eq s id content env
  rw [heq]
  apply h.insertCell_alloc id (fun ho => ho) (fun hr => hr) hmade.grows.next_le
  · exact fun r hr => (hmade.fresh r hr).2
  · exact fun _ => hmade.nodup
  · exact fun hf _ => h.disjoint_made hmade hf

theorem insertValues_filled (es : List (ℕ × Variant (Value P))) (s : State P) (env : Env) :
    Filled (es.map Prod.fst) s (es.foldlM insertValue s env).1 := by
  induction es generalizing s env with
  | nil => exact .refl s
  | cons e es ih =>
    rw [List.foldlM_cons, Sim.bind_apply]
    exact (insertNew_filled s e.1 (return e.2) env).append (ih _ _)

theorem Layout.insertValues (es : List (ℕ × Variant (Value P)))
    (h : Layout s sameCell sameObject repeated) (env : Env) :
    Layout (es.foldlM insertValue s env).1 sameCell sameObject repeated :=
  Sim.foldlM_spec (fun s _ => Layout s sameCell sameObject repeated)
    (fun e _ _ env h => h.insertNew e.1 (return e.2) env) h

theorem insertString_filled (dataValue : ℕ) (s : State P) :
    Filled [222] s (insertString dataValue s) :=
  filled_insertCell s 222 dataValue _ _

theorem insertTextArray_filled (ltext : ℕ) (s : State P) (env : Env) :
    Filled [227] s (insertTextArray ltext s env).1 :=
  filled_insertCell s 227 s.cells.next _ s.heap

theorem insertDateTimes_filled (s : State P) (env : Env) :
    Filled [228, 229] s (insertDateTimes s env).1 := by
  simp only [insertDateTimes, Sim.bind_apply]
  exact (insertNew_filled s 228 _ _).append (insertNew_filled _ 229 _ _)

/-- Whatever the value map held before, the nodes of all blocks are in it afterwards. -/
theorem createValueMap_filled (s : State P) (env : Env) :
    Filled (List.range' 200 36) s (createValueMap s env).1 := by
  unfold createValueMap
  apply Sim.bind_spec (Filled (List.range' 200 21) s) (insertValues_filled (valuesTo220 P) s env)
  intro s₁ env h₁
  apply Sim.bind_spec (Filled (List.range' 200 22) s) (h₁.append (insertNew_filled s₁ 221 _ _))
  intro s₂ env h₂
  have h₃ := h₂.append (insertString_filled s₁.cells.next s₂)
  apply Sim.bind_spec (Filled (List.range' 200 26) s)
    (h₃.append (insertValues_filled (values223To225 P) _ _))
  intro s₄ env h₄
  apply Sim.bind_spec (Filled (List.range' 200 27) s) (h₄.append (insertNew_filled s₄ 226 _ _))
  intro s₅ env h₅
  apply Sim.bind_spec (Filled (List.range' 200 28) s) (h₅.append (insertTextArray_filled _ s₅ _))
  intro s₆ env h₆
  apply Sim.bind_spec (Filled (List.range' 200 30) s) (h₆.append (insertDateTimes_filled s₆ _))
  intro s₇ env h₇
  exact h₇.append (insertValues_filled (valuesFrom230 P) s₇ env)

theorem insertNew_find {id : ℕ} (h : s.valueMap.find (nodeId id s.namespaceIndex) = none)
    (content : Sim (Variant (Value P))) (env : Env) :
    (insertNew s id content env).1.valueMap.find (nodeId id s.namespaceIndex) =
      some s.cells.next := by
  obtain ⟨d, heap, -, heq⟩ := insertNew_eq s id content env
  rw [heq, find_insertCell]
  simp [h]

/-- A block that inserts the cell of another node. -/
theorem Layout.insertCell_shared (h : Unshared s) {i j cell : ℕ}
    (hcell : s.valueMap.find (nodeId i s.namespaceIndex) = some cell) :
    Layout (insertCell s j cell) (Pair i j s.namespaceIndex) (fun _ _ => False)
      fun _ => False := by
  have hcases : ∀ {n c}, (insertCell s j cell).valueMap.find n = some c →
      s.valueMap.find n = some c ∨ c = cell ∧ n = nodeId j s.namespaceIndex :=
    fun hf => (find_insertCell_cases hf).imp_right And.right
  have hshared : ∀ {n}, s.valueMap.find n = some cell → n = nodeId i s.namespaceIndex :=
    fun hf => (h.injective hf hcell).resolve_right id
  -- every cell of the new map is a cell of the old one
  have hold : ∀ {n c}, (insertCell s j cell).valueMap.find n = some c →
      ∃ m, s.valueMap.find m = some c := by
    intro n c hf
    rcases hcases hf with hf | ⟨rfl, -⟩
    · exact ⟨n, hf⟩
    · exact ⟨_, hcell⟩
  constructor
  · intro n c hf
    exact h.allocated (hold hf).choose_spec
  · intro m n c hfm hfn
    rcases hcases hfm with hfm | ⟨rfl, rfl⟩ <;> rcases hcases hfn with hfn | ⟨hc, rfl⟩
    · exact (h.injective hfm hfn).imp_right False.elim
    · exact Or.inr (Or.inl ⟨hshared (hc ▸ hfm), rfl⟩)
    · exact Or.inr (Or.inr ⟨rfl, hshared hfn⟩)
    · exact Or.inl rfl
  · intro n c hf
    exact h.refs_allocated (hold hf).choose_spec
  · intro m n c c' hfm hfn hne _
    exact h.disjoint (hold hfm).choose_spec (hold hfn).choose_spec hne id
  · intro n c hf _
    exact h.nodup (hold hf).choose_spec id

/-- The block of node 222 makes the two nodes share the cell of node 221. -/
theorem Layout.insertString (h : Unshared s) {cell : ℕ}
    (hcell : s.valueMap.find (nodeId 221 s.namespaceIndex) = some cell)
    (hnone : s.valueMap.find (nodeId 222 s.namespaceIndex) = none) :
    Layout (insertString cell s) (Pair 221 222 s.namespaceIndex) (fun _ _ => False)
        (fun _ => False) ∧
      (insertString cell s).valueMap.find (nodeId 221 s.namespaceIndex) = some cell ∧
      (insertString cell s).valueMap.find (nodeId 222 s.namespaceIndex) = some cell := by
  have hmade : Made s.heap (s.heap.alloc .string none) [(.string, (s.heap .string).next)] :=
    (Slot.create_made (t := .string) s.heap none).1
  refine ⟨?_, ?_, ?_⟩
  · have hwritten : Unshared
        { s with
          cells := s.cells.write cell { s.cells.read cell with
            variant := .scalar .string (.ref (s.heap .string).next) }
          heap := s.heap.alloc .string none } :=
      (h.write hcell hmade).mono id And.left And.left
    exact hwritten.insertCell_shared hcell
  · rw [(insertString_filled cell s).find_of_notMem (by decide)]
    exact hcell
  · apply (find_insertCell _ 222 cell _).trans
    rw [if_pos rfl]
    exact congrArg (fun o => some (Option.getD o cell)) hnone

/-- The block of node 227 fills the new cell with the text object of node 226. -/
theorem Layout.insertTextArray {ns ltext cell : ℕ} (hns : s.namespaceIndex = ns)
    (h : Layout s (Pair 221 222 ns) (fun _ _ => False) (fun _ => False))
    (hcell : s.valueMap.find (nodeId 226 ns) = some cell)
    (hrefs : s.refs cell = [(.localizedText, ltext)]) (env : Env) :
    Layout (insertTextArray ltext s env).1 (Pair 221 222 ns) (Pair 226 227 ns)
      (fun n => n = nodeId 227 ns) := by
  subst hns
  have hltext : (BuildInType.localizedText, ltext) ∈ s.refs cell := by simp [hrefs]
  have honly : ∀ r, r ∈ [(BuildInType.localizedText, ltext), (.localizedText, ltext),
      (.localizedText, ltext)] → r = (.localizedText, ltext) := by simp
  apply h.insertCell_alloc 227 False.elim False.elim (fun _ => le_rfl)
  · intro r hr
    rw [honly r hr]
    exact h.refs_allocated hcell _ hltext
  · intro hno
    exact absurd rfl hno
  · -- a cell that holds the text object is the cell of node 226
    intro n c hf hno r hr hr'
    rw [honly r hr'] at hr
    by_cases hc : c = cell
    · subst hc
      rcases h.injective hf hcell with rfl | ⟨-, hn⟩ | ⟨-, hn⟩
      · exact hno ⟨Or.inl ⟨rfl, rfl⟩, Or.inr ⟨rfl, rfl⟩⟩
      · simp [nodeId_inj] at hn
      · simp [nodeId_inj] at hn
    · exact h.disjoint hf hcell hc id hr hltext

theorem Filled.find_of_empty {s s' : State P} {ids : List ℕ} (hf : Filled ids s s')
    (hempty : s.valueMap = .empty) {id : ℕ} (hid : id ∉ ids) :
    s'.valueMap.find (nodeId id s'.namespaceIndex) = none := by
  rw [hf.namespaceIndex, hf.find_of_notMem hid, hempty]
  rfl

theorem unshared_of_empty (hempty : s.valueMap = .empty) : Unshared s := by
  constructor <;> simp [hempty]

/-- The nodes 221 and 222 share their data value, the nodes 226 and 227 a text object, which
node 227 holds more than once, and nothing else is shared. -/
structure CreatedLayout (ns : ℕ) (s : State P) : Prop where
  layout : Layout s (Pair 221 222 ns) (Pair 226 227 ns) fun n => n = nodeId 227 ns
  same_cell : s.valueMap.find (nodeId 221 ns) = s.valueMap.find (nodeId 222 ns)

theorem createValueMap_layout {ns : ℕ} (hempty : s.valueMap = .empty)
    (hns : s.namespaceIndex = ns) (env : Env) :
    CreatedLayout ns (createValueMap s env).1 := by
  subst hns
  let ns := s.namespaceIndex
  unfold createValueMap
  refine Sim.bind_spec (fun s₁ => Filled (List.range' 200 21) s s₁ ∧ Unshared s₁)
    ⟨insertValues_filled (valuesTo220 P) s env,
      (unshared_of_empty hempty).insertValues (valuesTo220 P) env⟩ ?_
  rintro s₁ env ⟨hf₁, hl₁⟩
  refine Sim.bind_spec (fun s₂ => Filled (List.range' 200 22) s s₂ ∧ Unshared s₂ ∧
      s₂.valueMap.find (nodeId 221 s₂.namespaceIndex) = some s₁.cells.next)
    ⟨hf₁.append (insertNew_filled s₁ 221 _ env), hl₁.insertNew 221 _ env,
      insertNew_find (hf₁.find_of_empty hempty (show 221 ∉ List.range' 200 21 by decide)) _ env⟩ ?_
  rintro s₂ env ⟨hf₂, hl₂, h221⟩
  obtain ⟨hl₃, h221, h222⟩ := hl₂.insertString h221 (hf₂.find_of_empty hempty (by decide))
  have hf₃ := hf₂.append (insertString_filled s₁.cells.next s₂)
  rw [hf₂.namespaceIndex] at hl₃ h221 h222
  have hns₃ : (insertString s₁.cells.next s₂).namespaceIndex = ns := hf₃.namespaceIndex
  generalize insertString s₁.cells.next s₂ = s₃ at hf₃ hl₃ h221 h222 hns₃ ⊢
  -- from here on the nodes 221 and 222 stay as they are
  refine Sim.bind_spec (fun s₄ => Filled (List.range' 223 3) s₃ s₄ ∧
      Layout s₄ (Pair 221 222 ns) (fun _ _ => False) (fun _ => False))
    ⟨insertValues_filled (values223To225 P) s₃ env, hl₃.insertValues (values223To225 P) env⟩ ?_
  rintro s₄ env ⟨hf₄, hl₄⟩
  have hns₄ : s₄.namespaceIndex = ns := hf₄.namespaceIndex.trans hns₃
  refine Sim.bind_spec (fun s₅ => Filled (List.range' 223 4) s₃ s₅ ∧
      Layout s₅ (Pair 221 222 ns) (fun _ _ => False) (fun _ => False) ∧
      s₅.valueMap.find (nodeId 226 s₄.namespaceIndex) = some s₄.cells.next ∧
      s₅.refs s₄.cells.next = [(.localizedText, (s₄.heap .localizedText).next)])
    ⟨hf₄.append (insertNew_filled s₄ 226 _ env), hl₄.insertNew 226 _ env,
      insertNew_find ((hf₃.append hf₄).find_of_empty hempty (by decide)) _ env,
      congrArg DataValue.refs (s₄.cells.alloc_read_next _)⟩ ?_
  rintro s₅ env ⟨hf₅, hl₅, h226, hrefs⟩
  rw [hns₄] at h226
  refine Sim.bind_spec (fun s₆ => Filled (List.range' 223 5) s₃ s₆ ∧
      Layout s₆ (Pair 221 222 ns) (Pair 226 227 ns) fun n => n = nodeId 227 ns)
    ⟨hf₅.append (insertTextArray_filled _ s₅ env),
      hl₅.insertTextArray (hf₅.namespaceIndex.trans hns₃) h226 hrefs env⟩ ?_
  rintro s₆ env ⟨hf₆, hl₆⟩
  refine Sim.bind_spec (fun s₇ => Filled (List.range' 223 7) s₃ s₇ ∧
      Layout s₇ (Pair 221 222 ns) (Pair 226 227 ns) fun n => n = nodeId 227 ns)
    ⟨hf₆.append (insertDateTimes_filled s₆ env), ?_⟩ ?_
  · simp only [insertDateTimes, Sim.bind_apply]
    exact (hl₆.insertNew 228 _ _).insertNew 229 _ _
  rintro s₇ env ⟨hf₇, hl₇⟩
  have hf₈ : Filled (List.range' 223 13) s₃ ((valuesFrom230 P).foldlM insertValue s₇ env).1 :=
    hf₇.append (insertValues_filled (valuesFrom230 P) s₇ env)
  refine ⟨hl₇.insertValues (valuesFrom230 P) env, ?_⟩
  have hkept221 := hf₈.find_of_notMem (i := 221) (by decide)
  have hkept222 := hf₈.find_of_notMem (i := 222) (by decide)
  rw [hns₃] at hkept221 hkept222
  exact hkept221.trans (h221.trans (hkept222.trans h222).symm)

end Creation

end ASNeGDemo.TestStatusCode
