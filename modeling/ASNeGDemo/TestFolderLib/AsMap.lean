import ASNeGDemo.TestFolderLib.Module

/-!
`TestFolderLib` as a map from node ids to data values. The object keeps two maps and cells
behind pointers; seen from outside, every node has a value of its own that only its own
writes and its own timer updates change.
-/
namespace ASNeGDemo.TestFolderLib

variable {P : Platform}

/-- The data value behind a node. -/
def State.value (s : State P) (n : NodeId) : Option (DataValue (Value P)) :=
  (s.valueMap.find n).map s.cells.read

/-- The variant behind a node. -/
def variantOf (n : NodeId) (s : State P) : Option (Variant (Value P)) :=
  (s.value n).map DataValue.variant

/-- Every node has an allocated cell of its own. -/
structure State.Separated (s : State P) : Prop where
  allocated : ∀ {n cell}, s.valueMap.find n = some cell → cell < s.cells.next
  injective : ∀ {m n cell}, s.valueMap.find m = some cell → s.valueMap.find n = some cell → m = n

/-! ### The initial values -/

theorem insertValue_find (now : DateTime) (s : State P) (e : ℕ × Variant (Value P))
    (n : NodeId) :
    (insertValue now s e).valueMap.find n =
      if n = nodeId e.1 s.namespaceIndex then
        some ((s.valueMap.find (nodeId e.1 s.namespaceIndex)).getD s.cells.next)
      else s.valueMap.find n :=
  s.valueMap.find_insert ..

theorem State.Separated.insertValue {s : State P} (h : s.Separated) (now : DateTime)
    (e : ℕ × Variant (Value P)) : (insertValue now s e).Separated := by
  have hcell : ∀ {n cell}, (TestFolderLib.insertValue now s e).valueMap.find n = some cell →
      s.valueMap.find n = some cell ∨
        cell = s.cells.next ∧ n = nodeId e.1 s.namespaceIndex := by
    intro n cell hn
    rw [insertValue_find] at hn
    split_ifs at hn with heq
    · subst heq
      cases hf : s.valueMap.find (nodeId e.1 s.namespaceIndex) with
      | none => exact Or.inr ⟨by simpa [hf] using hn.symm, rfl⟩
      | some old => exact Or.inl (by simpa [hf] using hn)
    · exact Or.inl hn
  constructor
  · intro n cell hn
    change cell < s.cells.next + 1
    rcases hcell hn with hn | ⟨rfl, -⟩
    · exact (h.allocated hn).trans (Nat.lt_succ_self _)
    · exact Nat.lt_succ_self _
  · intro m n cell hm hn
    rcases hcell hm with hm | ⟨rfl, rfl⟩ <;> rcases hcell hn with hn | ⟨hc, rfl⟩
    · exact h.injective hm hn
    · exact absurd (h.allocated hm) (by omega)
    · exact absurd (h.allocated hn) (by omega)
    · rfl

theorem insertValue_value {s : State P} (h : s.Separated) (now : DateTime)
    (e : ℕ × Variant (Value P)) (n : NodeId) :
    (insertValue now s e).value n = (s.value n).or
      ([(nodeId e.1 s.namespaceIndex, ⟨e.2, .success, now, now⟩)].lookup n) := by
  rw [State.value, insertValue_find]
  by_cases hn : n = nodeId e.1 s.namespaceIndex
  · subst hn
    cases hf : s.valueMap.find (nodeId e.1 s.namespaceIndex) with
    | none => simp [State.value, hf, insertValue]
    | some old => simp [State.value, hf, insertValue, Memory.alloc_read_of_lt _ (h.allocated hf)]
  · have hne : (n == nodeId e.1 s.namespaceIndex) = false := by simpa using hn
    rw [if_neg hn, List.lookup_cons, hne]
    cases hf : s.valueMap.find n with
    | none => simp [State.value, hf]
    | some old => simp [State.value, hf, insertValue, Memory.alloc_read_of_lt _ (h.allocated hf)]

/-- The initial data values of the nodes in a namespace. -/
def initialValue (P : Platform) (now : DateTime) (ns : ℕ) (n : NodeId) :
    Option (DataValue (Value P)) :=
  ((initialValues P now).map fun e => (nodeId e.1 ns, ⟨e.2, .success, now, now⟩)).lookup n

/-- The identifiers of the nodes are all different. -/
theorem initialValue_of_mem {now : DateTime} {id : ℕ} {v : Variant (Value P)}
    (h : (id, v) ∈ initialValues P now) (ns : ℕ) :
    initialValue P now ns (nodeId id ns) = some ⟨v, .success, now, now⟩ := by
  have hids : (initialValues P now).map Prod.fst = List.range' 200 36 := rfl
  have hnodup : ((initialValues P now).map Prod.fst).Nodup := hids ▸ List.nodup_range'
  obtain ⟨before, after, hsplit⟩ := List.append_of_mem h
  rw [hsplit, List.map_append, List.map_cons, List.nodup_append'] at hnodup
  rw [initialValue, hsplit, List.map_append, List.map_cons, List.lookup_eq_some_iff]
  refine ⟨_, _, rfl, ?_⟩
  intro p hp
  obtain ⟨e, he, rfl⟩ := List.mem_map.mp hp
  have hne : id ≠ e.1 := by
    rintro rfl
    exact hnodup.2.2 (List.mem_map_of_mem he) List.mem_cons_self
  simpa [nodeId_inj] using hne

theorem lookup_cons_or {κ α : Type*} [BEq κ] (k : κ) (v : α) (l : List (κ × α)) (n : κ) :
    ((k, v) :: l).lookup n = ([(k, v)].lookup n).or (l.lookup n) := by
  cases h : n == k <;> simp [List.lookup_cons, h]

theorem foldl_insertValue (l : List (ℕ × Variant (Value P))) (now : DateTime) :
    ∀ {s : State P}, s.Separated → (l.foldl (insertValue now) s).Separated ∧
      ∀ n, (l.foldl (insertValue now) s).value n = (s.value n).or
        ((l.map fun e => (nodeId e.1 s.namespaceIndex, ⟨e.2, .success, now, now⟩)).lookup n) := by
  induction l with
  | nil => intro s h; simp [h]
  | cons e l ih =>
    intro s h
    obtain ⟨hsep, hval⟩ := ih (h.insertValue now e)
    refine ⟨hsep, fun n => ?_⟩
    rw [List.foldl_cons, hval, insertValue_value h, Option.or_assoc]
    exact congrArg _ (lookup_cons_or ..).symm

/-- The object after `createValueMap` in a namespace, with any node references. -/
def created (P : Platform) (env : Env) (now : DateTime) (ns : ℕ)
    (references : OrderedMap NodeId NodeRef) : State P :=
  { (createValueMap now { (construct P env).1 with namespaceIndex := ns }).1 with
    baseNodeClassWMap := references }

theorem construct_separated (env : Env) (ns : ℕ) :
    ({ (construct P env).1 with namespaceIndex := ns } : State P).Separated where
  allocated h := by simp [construct] at h
  injective h := by simp [construct] at h

variable (env : Env) (now : DateTime) (ns : ℕ) (references : OrderedMap NodeId NodeRef)

theorem created_separated : (created P env now ns references).Separated :=
  let h := (foldl_insertValue (initialValues P now) now (construct_separated env ns)).1
  ⟨h.allocated, h.injective⟩

theorem created_value (n : NodeId) :
    (created P env now ns references).value n = initialValue P now ns n := by
  have h := (foldl_insertValue (initialValues P now) now (construct_separated env ns)).2 n
  rw [show ({ (construct P env).1 with namespaceIndex := ns } : State P).value n = none from rfl,
    Option.none_or] at h
  exact h

/-! ### One pass of the timer -/

section Timer
variable {references} {live : NodeRef → Bool} {n : NodeId}

/-- The data value a visit leaves behind. -/
def visited (references : OrderedMap NodeId NodeRef) (live : NodeRef → Bool) (n : NodeId)
    (dataValue : DataValue (Value P)) (draws : Env) : DataValue (Value P) :=
  ((visit references live n dataValue draws).1.map Publication.dataValue).getD dataValue

/-- What a visit publishes: nothing, or one data value. -/
def published (references : OrderedMap NodeId NodeRef) (live : NodeRef → Bool) (n : NodeId)
    (dataValue : DataValue (Value P)) (draws : Env) : List (Publication P) :=
  (visit references live n dataValue draws).1.toList

theorem published_nodeId {dataValue : DataValue (Value P)} {draws : Env} {p : Publication P}
    (h : p ∈ published references live n dataValue draws) : p.nodeId = n := by
  rw [published, Option.mem_toList] at h
  cases hr : references.find n with
  | none => simp [visit, hr] at h
  | some reference =>
    by_cases hl : live reference
    · simp only [visit, hr, hl, if_true, Sim.bind_apply, Sim.pure_apply,
        Option.map_eq_some_iff] at h
      obtain ⟨d, -, rfl⟩ := h
      rfl
    · simp [visit, hr, hl] at h

variable (references live)

theorem visitCell_apply (acc : Memory (DataValue (Value P)) × List (Publication P))
    (entry : NodeId × ℕ) (draws : Env) :
    ((visitCell references live acc entry draws).1.1.read entry.2 =
        visited references live entry.1 (acc.1.read entry.2) draws) ∧
      (∀ cell ≠ entry.2, (visitCell references live acc entry draws).1.1.read cell =
        acc.1.read cell) ∧
      (visitCell references live acc entry draws).1.1.next = acc.1.next ∧
      (visitCell references live acc entry draws).1.2 =
        acc.2 ++ published references live entry.1 (acc.1.read entry.2) draws := by
  simp only [visitCell, Sim.bind_apply, visited, published]
  cases (visit references live entry.1 (acc.1.read entry.2) draws).1 with
  | none => simp
  | some p =>
    refine ⟨by simp, fun cell hne => ?_, by simp, by simp⟩
    simp [Memory.write_read_of_ne _ hne]

/-- The loop over nodes with cells of their own: each cell is visited once, with the value
it had before the loop. The draws of a node are what is left of the stream when the loop
gets to it. -/
theorem foldlM_visitCell (entries : List (NodeId × ℕ)) :
    (entries.map Prod.fst).Nodup → (entries.map Prod.snd).Nodup →
    ∀ (acc : Memory (DataValue (Value P)) × List (Publication P)) (env : Env),
      ∃ draws : NodeId → Env,
        (∀ e ∈ entries, (entries.foldlM (visitCell references live) acc env).1.1.read e.2 =
          visited references live e.1 (acc.1.read e.2) (draws e.1)) ∧
        (∀ cell ∉ entries.map Prod.snd,
          (entries.foldlM (visitCell references live) acc env).1.1.read cell =
            acc.1.read cell) ∧
        (entries.foldlM (visitCell references live) acc env).1.1.next = acc.1.next ∧
        (entries.foldlM (visitCell references live) acc env).1.2 = acc.2 ++
          entries.flatMap fun e => published references live e.1 (acc.1.read e.2) (draws e.1) := by
  induction entries with
  | nil => intro _ _ acc env; exact ⟨fun _ => env, by simp⟩
  | cons e entries ih =>
    intro hkeys hcells acc env
    obtain ⟨hk, hkeys⟩ := List.nodup_cons.mp hkeys
    obtain ⟨hc, hcells⟩ := List.nodup_cons.mp hcells
    obtain ⟨hself, hother, hnext, hpub⟩ :=
      visitCell_apply references live acc e env
    obtain ⟨draws, hread, hrest, hn, hp⟩ := ih hkeys hcells
      (visitCell references live acc e env).1 (visitCell references live acc e env).2
    have hdraws : ∀ f ∈ entries, Function.update draws e.1 env f.1 = draws f.1 := by
      intro f hf
      apply Function.update_of_ne
      intro heq
      exact hk (heq ▸ List.mem_map_of_mem hf)
    have hcell : ∀ f ∈ entries, (visitCell references live acc e env).1.1.read f.2 =
        acc.1.read f.2 := by
      intro f hf
      apply hother
      intro heq
      exact hc (heq ▸ List.mem_map_of_mem hf)
    refine ⟨Function.update draws e.1 env, ?_, ?_, hn.trans hnext, ?_⟩
    · intro f hf
      rcases List.mem_cons.mp hf with rfl | hf
      · rw [Function.update_self]
        exact (hrest _ hc).trans hself
      · rw [hdraws f hf, ← hcell f hf]
        exact hread f hf
    · intro cell hcell
      obtain ⟨hne, hcell⟩ := not_or.mp (mt List.mem_cons.mpr hcell)
      exact (hrest cell hcell).trans (hother cell hne)
    · apply hp.trans
      rw [hpub, List.append_assoc, List.flatMap_cons, Function.update_self]
      congr 2
      apply List.flatMap_congr
      intro f hf
      rw [hdraws f hf, hcell f hf]

variable {references live}

theorem filter_flatMap_published {s : State P} (draws : NodeId → Env) (n : NodeId)
    (entries : List (NodeId × ℕ)) (hkeys : (entries.map Prod.fst).Nodup) :
    (entries.flatMap fun e =>
        published references live e.1 (s.cells.read e.2) (draws e.1)).filter (·.nodeId = n) =
      match entries.lookup n with
      | some cell => published references live n (s.cells.read cell) (draws n)
      | none => [] := by
  induction entries with
  | nil => rfl
  | cons e entries ih =>
    obtain ⟨hk, hkeys⟩ := List.nodup_cons.mp hkeys
    rw [List.flatMap_cons, List.filter_append, ih hkeys, List.lookup_cons]
    by_cases hn : n = e.1
    · subst hn
      have hnone : entries.lookup e.1 = none := by
        rw [← Option.not_isSome_iff_eq_none, OrderedMap.lookup_isSome_iff]
        exact hk
      rw [List.filter_eq_self.mpr fun p hp => by simpa using published_nodeId hp, hnone]
      simp
    · have hne : (n == e.1) = false := by simpa using hn
      rw [List.filter_eq_nil_iff.mpr fun p hp => by simpa [published_nodeId hp] using Ne.symm hn,
        hne]
      simp

/-- One timer pass, node by node. -/
theorem timerLoop_value {s : State P} (h : s.Separated) (live : NodeRef → Bool) (env : Env) :
    ∃ draws : NodeId → Env,
      (∀ n, (timerLoop s live env).1.1.value n = (s.value n).map fun d =>
        visited s.baseNodeClassWMap live n d (draws n)) ∧
      ∀ n, (timerLoop s live env).1.2.filter (·.nodeId = n) =
        match s.value n with
        | some d => published s.baseNodeClassWMap live n d (draws n)
        | none => [] := by
  have hcells : (s.valueMap.entries.map Prod.snd).Nodup := by
    apply List.Nodup.map_on _ (List.Nodup.of_map Prod.fst s.valueMap.keys_nodup)
    intro e he f hf heq
    obtain ⟨m, cell⟩ := e
    obtain ⟨n, cell'⟩ := f
    obtain rfl : cell = cell' := heq
    rw [h.injective ((s.valueMap.mem_entries_iff m cell).mp he)
      ((s.valueMap.mem_entries_iff n cell).mp hf)]
  obtain ⟨draws, hread, -, -, hpub⟩ := foldlM_visitCell s.baseNodeClassWMap
    live s.valueMap.entries s.valueMap.keys_nodup hcells (s.cells, []) env
  refine ⟨draws, fun n => ?_, fun n => ?_⟩
  · change (s.valueMap.find n).map _ = ((s.valueMap.find n).map _).map _
    cases hf : s.valueMap.find n with
    | none => rfl
    | some cell =>
      exact congrArg some (hread (n, cell) ((s.valueMap.mem_entries_iff n cell).mpr hf))
  · change List.filter _
      (s.valueMap.entries.foldlM (visitCell s.baseNodeClassWMap live) (s.cells, []) env).1.2 = _
    rw [hpub, List.nil_append, filter_flatMap_published draws n _ s.valueMap.keys_nodup]
    change (match s.valueMap.find n with | some cell => _ | none => _) =
      match (s.valueMap.find n).map s.cells.read with | some d => _ | none => _
    cases s.valueMap.find n <;> rfl

theorem foldlM_visitCell_read_of_ne (references : OrderedMap NodeId NodeRef) (live : NodeRef → Bool)
    {entries : List (NodeId × ℕ)} (acc : Memory (DataValue (Value P)) × List (Publication P))
    {cell : ℕ} (env : Env) (h : ∀ e ∈ entries, e.2 ≠ cell) :
    (entries.foldlM (visitCell references live) acc env).1.1.read cell = acc.1.read cell := by
  refine Sim.foldlM_spec (fun (walked : Memory _ × List _) _ =>
    walked.1.read cell = acc.1.read cell) ?_ rfl
  intro e he walked env hwalked
  obtain ⟨-, hother, -⟩ := visitCell_apply references live walked e env
  exact (hother cell (h e he).symm).trans hwalked

/-- What is left of the draws when the loop gets to a node. -/
def drawsFor (s : State P) (live : NodeRef → Bool) (n : NodeId) (env : Env) : Env :=
  ((s.valueMap.entries.takeWhile fun e => e.1 ≠ n).foldlM (visitCell s.baseNodeClassWMap live)
    (s.cells, []) env).2

/-- One timer pass at one node, with the draws that the entries before it leave. -/
theorem timerLoop_value_drawsFor {s : State P} (h : s.Separated) (live : NodeRef → Bool) (env : Env)
    (n : NodeId) :
    (timerLoop s live env).1.1.value n = (s.value n).map fun d =>
      visited s.baseNodeClassWMap live n d (drawsFor s live n env) := by
  change (s.valueMap.find n).map _ = ((s.valueMap.find n).map _).map _
  cases hf : s.valueMap.find n with
  | none => rfl
  | some cell =>
    obtain ⟨rest, hsplit, hothers⟩ := s.valueMap.entries_split hf
    have hcell : ∀ e ∈ s.valueMap.entries.takeWhile (fun e => e.1 ≠ n) ++ rest, e.2 ≠ cell := by
      rintro ⟨m, cell'⟩ he rfl
      refine hothers _ he (h.injective ((s.valueMap.mem_entries_iff m cell').mp ?_) hf)
      rw [hsplit]
      rcases List.mem_append.mp he with he | he
      · exact List.mem_append_left _ he
      · exact List.mem_append_right _ (List.mem_cons_of_mem _ he)
    have hbefore := foldlM_visitCell_read_of_ne s.baseNodeClassWMap live (s.cells, []) env
      fun e he => hcell e (List.mem_append_left _ he)
    apply congrArg some
    change (s.valueMap.entries.foldlM (visitCell s.baseNodeClassWMap live)
      (s.cells, []) env).1.1.read cell = _
    conv_lhs => rw [hsplit]
    rw [List.foldlM_append, Sim.bind_apply, List.foldlM_cons, Sim.bind_apply,
      foldlM_visitCell_read_of_ne _ live _ _ fun e he => hcell e (List.mem_append_right _ he),
      (visitCell_apply _ live _ (n, cell) _).1, hbefore]
    rfl

theorem timerLoop_separated {s : State P} (h : s.Separated) (live : NodeRef → Bool) (env : Env) :
    (timerLoop s live env).1.1.Separated := by
  have hnext : (timerLoop s live env).1.1.cells.next = s.cells.next := by
    change (s.valueMap.entries.foldlM (visitCell s.baseNodeClassWMap live)
      (s.cells, []) env).1.1.next = _
    generalize hm : (s.cells, ([] : List (Publication P))) = acc
    rw [show s.cells.next = acc.1.next by rw [← hm]]
    clear hm
    generalize s.valueMap.entries = entries
    induction entries generalizing acc env with
    | nil => rfl
    | cons e entries ih => exact (ih _ _).trans (visitCell_apply _ live acc e env).2.2.1
  exact ⟨fun hf => hnext.symm ▸ h.allocated hf, fun hm hn => h.injective hm hn⟩

/-- The data value after one `updateSingle` or `updateArray`. -/
def updated (dataValue : DataValue (Value P)) (draws : Env) : DataValue (Value P) :=
  (update dataValue draws).1.getD dataValue

theorem visit_apply (dataValue : DataValue (Value P)) (draws : Env) :
    (visit references live n dataValue draws).1 =
      (liveReference references live n).bind fun reference =>
        (update dataValue draws).1.map fun d => ⟨n, reference, d⟩ := by
  cases hr : references.find n with
  | none => simp [visit, liveReference, hr]
  | some reference =>
    by_cases hl : live reference <;> simp [visit, liveReference, hr, hl, Option.filter]

theorem update_of_handled {dataValue : DataValue (Value P)} (h : handled dataValue = true)
    (draws : Env) : (update dataValue draws).1 = some (updated dataValue draws) := by
  have hs := update_isSome dataValue draws
  rw [h] at hs
  obtain ⟨d, hd⟩ := Option.isSome_iff_exists.mp hs
  rw [updated, hd, Option.getD_some]

theorem update_of_not_handled {dataValue : DataValue (Value P)} (h : handled dataValue ≠ true)
    (draws : Env) : (update dataValue draws).1 = none := by
  rw [← Option.not_isSome_iff_eq_none, update_isSome]
  exact h

theorem visited_eq (dataValue : DataValue (Value P)) (draws : Env) :
    visited references live n dataValue draws =
      if (liveReference references live n).isSome && handled dataValue then
        updated dataValue draws
      else dataValue := by
  rw [visited, visit_apply]
  cases liveReference references live n with
  | none => rfl
  | some reference =>
    by_cases hh : handled dataValue = true
    · simp [update_of_handled hh, hh]
    · simp [update_of_not_handled hh, hh]

theorem published_eq (dataValue : DataValue (Value P)) (draws : Env) :
    published references live n dataValue draws =
      match liveReference references live n with
      | some reference =>
          if handled dataValue then [⟨n, reference, updated dataValue draws⟩] else []
      | none => [] := by
  rw [published, visit_apply]
  cases liveReference references live n with
  | none => rfl
  | some reference =>
    by_cases hh : handled dataValue = true
    · simp [update_of_handled hh, hh]
    · simp [update_of_not_handled hh, hh]

end Timer

/-! ### Runs -/

section Runs

theorem writeValue_value {s : State P} (h : s.Separated) (m : NodeId)
    (dataValue : DataValue (Value P)) (n : NodeId) :
    (writeValue s m dataValue).1.value n =
      (s.value n).map fun d => if m = n then dataValue else d := by
  cases hm : s.valueMap.find m with
  | none =>
    have hne : ∀ cell, s.valueMap.find n = some cell → m ≠ n := by
      rintro cell hn rfl
      simp [hm] at hn
    cases hn : s.valueMap.find n with
    | none => simp [writeValue, hm, State.value, hn]
    | some cell => simp [writeValue, hm, State.value, hn, hne cell hn]
  | some cell =>
    cases hn : s.valueMap.find n with
    | none => simp [writeValue, hm, State.value, hn]
    | some cell' =>
      by_cases heq : m = n
      · subst heq
        obtain rfl : cell = cell' := by simpa [hm] using hn
        simp [writeValue, hm, State.value]
      · have hc : cell' ≠ cell := by
          rintro rfl
          exact heq (h.injective hm hn)
        simp [writeValue, hm, State.value, hn, heq, Memory.write_read_of_ne _ hc]

theorem writeValue_separated {s : State P} (h : s.Separated) (m : NodeId)
    (dataValue : DataValue (Value P)) : (writeValue s m dataValue).1.Separated := by
  cases hm : s.valueMap.find m with
  | none => simpa [writeValue, hm] using h
  | some cell =>
    simp only [writeValue, hm]
    exact ⟨h.allocated, h.injective⟩

def step (s : State P) : Event P → State P × Answer P
  | .readValue n => (s, .read (readValue s n))
  | .writeValue n dataValue =>
      ((writeValue s n dataValue).1, .written (writeValue s n dataValue).2)
  | .timerLoop live env => ((timerLoop s live env).1.1, .published (timerLoop s live env).1.2)

/-- An event of a run, with its answer and with what its updates drew for each node. -/
structure Occurrence (P : Platform) where
  event : Event P
  answer : Answer P
  draws : NodeId → Env

/-- What an occurrence does to the data value of one node of the abstract map. -/
def effect (references : OrderedMap NodeId NodeRef) (n : NodeId)
    (dataValue : DataValue (Value P)) (o : Occurrence P) : DataValue (Value P) :=
  match o.event with
  | .readValue _ => dataValue
  | .writeValue m written => if m = n then written else dataValue
  | .timerLoop live _ =>
      if (liveReference references live n).isSome && handled dataValue then
        updated dataValue (o.draws n)
      else dataValue

/-- The answer the abstract map gives. A tick publishes, for each node with a live reference
and a handled type, the updated value, once, and nothing for the others. -/
def Answered (references : OrderedMap NodeId NodeRef)
    (value : NodeId → Option (DataValue (Value P))) (o : Occurrence P) : Prop :=
  match o.event, o.answer with
  | .readValue n, .read answer =>
      answer = match value n with
        | some d => (.success, some d)
        | none => (.badInternalError, none)
  | .writeValue n _, .written statusCode =>
      statusCode = if (value n).isSome then .success else .badInternalError
  | .timerLoop live _, .published publications =>
      ∀ n, publications.filter (·.nodeId = n) =
        match value n, liveReference references live n with
        | some d, some reference =>
            if handled d then [⟨n, reference, updated d (o.draws n)⟩] else []
        | _, _ => []
  | _, _ => False

/-- One step of the object is one step of the abstract map. -/
theorem step_refines {s : State P} (h : s.Separated) (e : Event P) :
    (step s e).1.Separated ∧ (step s e).1.baseNodeClassWMap = s.baseNodeClassWMap ∧
      ∃ o : Occurrence P, o.event = e ∧ o.answer = (step s e).2 ∧
        (∀ n, (step s e).1.value n = (s.value n).map fun d =>
          effect s.baseNodeClassWMap n d o) ∧
        Answered s.baseNodeClassWMap s.value o := by
  have env : Env := ⟨Stream'.const 0, Stream'.const 0⟩
  cases e with
  | readValue n =>
    refine ⟨h, rfl, ⟨.readValue n, .read (readValue s n), fun _ => env⟩, rfl, rfl, ?_, ?_⟩
    · intro m
      simp [step, effect]
    · change readValue s n = _
      cases hf : s.valueMap.find n <;> simp [readValue, State.value, hf]
  | writeValue m dataValue =>
    refine ⟨writeValue_separated h m dataValue, ?_,
      ⟨.writeValue m dataValue, .written (writeValue s m dataValue).2, fun _ => env⟩,
      rfl, rfl, writeValue_value h m dataValue, ?_⟩
    · cases hf : s.valueMap.find m <;> simp [step, writeValue, hf]
    · change (writeValue s m dataValue).2 = _
      cases hf : s.valueMap.find m <;> simp [writeValue, State.value, hf]
  | timerLoop live env =>
    obtain ⟨draws, hvalue, hpublished⟩ := timerLoop_value h live env
    refine ⟨timerLoop_separated h live env, rfl,
      ⟨.timerLoop live env, .published (timerLoop s live env).1.2, draws⟩, rfl, rfl, ?_, ?_⟩
    · intro n
      apply (hvalue n).trans
      simp only [visited_eq]
      rfl
    · intro n
      rw [hpublished n]
      cases s.value n with
      | none => rfl
      | some d =>
        apply (published_eq d (draws n)).trans
        cases liveReference s.baseNodeClassWMap live n <;> rfl

/-- A run of the object is a run of the abstract map. -/
theorem run_refines {s : State P} (h : s.Separated) (es : List (Event P)) :
    ∃ history : List (Occurrence P),
      history.map Occurrence.event = es ∧
      history.map Occurrence.answer = (Runs.run step s es).2 ∧
      (∀ n, (Runs.run step s es).1.value n = (s.value n).map fun d =>
        history.foldl (effect s.baseNodeClassWMap n) d) ∧
      ∀ before o after, history = before ++ o :: after →
        Answered s.baseNodeClassWMap
          (fun n => (s.value n).map fun d => before.foldl (effect s.baseNodeClassWMap n) d) o := by
  induction es generalizing s with
  | nil => exact ⟨[], rfl, rfl, by simp, by simp⟩
  | cons e es ih =>
    obtain ⟨hsep, hrefs, o, rfl, ho, hvalue, hanswered⟩ := step_refines h e
    obtain ⟨history, hevents, hanswers, hrun, hall⟩ := ih hsep
    rw [hrefs] at hrun hall
    refine ⟨o :: history, by rw [List.map_cons, hevents], ?_, ?_, ?_⟩
    · rw [List.map_cons, ho, hanswers, Runs.run_cons]
    · intro n
      rw [Runs.run_cons, hrun, hvalue, Option.map_map]
      rfl
    · intro before o' after heq
      cases before with
      | nil =>
        obtain ⟨rfl, rfl⟩ := List.cons.inj heq
        simpa using hanswered
      | cons b before =>
        obtain ⟨rfl, rfl⟩ := List.cons.inj heq
        have hvalues := hall before o' after rfl
        simp only [hvalue, Option.map_map] at hvalues
        exact hvalues

/-- After `createValueMap`, with any node references, every run of reads, writes and ticks
answers and publishes as a map from node ids to data values does, where every node is
changed only by its own writes and its own updates. -/
theorem behaves_as_map (env : Env) (now : DateTime) (ns : ℕ) (references : OrderedMap NodeId NodeRef)
    (es : List (Event P)) :
    ∃ history : List (Occurrence P),
      history.map Occurrence.event = es ∧
      history.map Occurrence.answer =
        (Runs.run step (created P env now ns references) es).2 ∧
      (∀ n, (Runs.run step (created P env now ns references) es).1.value n =
        (initialValue P now ns n).map fun d => history.foldl (effect references n) d) ∧
      ∀ before o after, history = before ++ o :: after →
        Answered references
          (fun n => (initialValue P now ns n).map fun d =>
            before.foldl (effect references n) d) o := by
  have h := run_refines (created_separated (P := P) env now ns references) es
  simp only [created_value] at h
  exact h

end Runs

end ASNeGDemo.TestFolderLib
