import ASNeGDemo.TestStatusCode.Layout

/-!
Which nodes of `TestStatusCode` have a data value of their own. A write shows in another node
exactly where the layout lets the two share a data value, and a tick updates a node once where it
lets the node share nothing that is updated elsewhere.
-/
namespace ASNeGDemo.TestStatusCode

variable {P : Platform}

/-- The data value behind a node. -/
def State.value (s : State P) (n : NodeId) : Option (DataValue (Value P)) :=
  (s.valueMap.find n).map fun cell => (s.cells.read cell).load s.heap

/-- The variant behind a node. -/
def variantOf (n : NodeId) (s : State P) : Option (Variant (Value P)) :=
  (s.value n).map DataValue.variant

theorem readValue_eq (s : State P) (n : NodeId) :
    readValue s n = match s.value n with
      | none => (.badInternalError, none)
      | some d => (.success, some d) := by
  unfold readValue State.value
  cases s.valueMap.find n <;> rfl

/-! ### Writes -/

section Write
variable {s : State P} {sameCell sameObject : NodeId → NodeId → Prop} {repeated : NodeId → Prop}

theorem Layout.writeValue (h : Layout s sameCell sameObject repeated) (n : NodeId)
    (dataValue : DataValue (Value P)) :
    Layout (writeValue s n dataValue).1 sameCell (fun m m' => sameObject m m' ∧ m ≠ n ∧ m' ≠ n)
      (fun m => repeated m ∧ m ≠ n) := by
  unfold TestStatusCode.writeValue
  cases hf : s.valueMap.find n with
  | none =>
    have hne : ∀ {m cell}, s.valueMap.find m = some cell → m ≠ n := by
      rintro m cell hm rfl
      simp [hf] at hm
    refine ⟨h.allocated, h.injective, h.refs_allocated, ?_, ?_⟩
    · intro m m' c c' hm hm' hc hno
      exact h.disjoint hm hm' hc fun ho => hno ⟨ho, hne hm, hne hm'⟩
    · intro m c hm hnr
      exact h.nodup hm fun hr => hnr ⟨hr, hne hm⟩
  | some cell => exact h.write hf (DataValue.store_made s.heap dataValue).1

theorem writeValue_valueMap (s : State P) (n : NodeId) (dataValue : DataValue (Value P)) :
    (writeValue s n dataValue).1.valueMap = s.valueMap ∧
      (writeValue s n dataValue).1.baseNodeClassWMap = s.baseNodeClassWMap := by
  unfold writeValue
  cases s.valueMap.find n <;> exact ⟨rfl, rfl⟩

/-- A write shows in the nodes with the cell it went to. -/
theorem writeValue_value_same {m n : NodeId} {cell : ℕ} (hm : s.valueMap.find m = some cell)
    (hn : s.valueMap.find n = some cell) (dataValue : DataValue (Value P)) :
    (writeValue s m dataValue).1.value n = some dataValue := by
  obtain ⟨-, hload⟩ := DataValue.store_made s.heap dataValue
  simp only [writeValue, hm, State.value, hn, Option.map_some, Memory.write_read_self, hload]

/-- A write leaves the nodes with other cells as they are. -/
theorem writeValue_value_other (h : Layout s sameCell sameObject repeated) {m n : NodeId}
    (hne : s.valueMap.find m ≠ s.valueMap.find n) (dataValue : DataValue (Value P)) :
    (writeValue s m dataValue).1.value n = s.value n := by
  unfold writeValue
  cases hm : s.valueMap.find m with
  | none => rfl
  | some cell =>
    cases hn : s.valueMap.find n with
    | none => simp only [State.value, hn, Option.map_none]
    | some cell' =>
      have hc : cell' ≠ cell := fun hc => hne (by rw [hm, hn, hc])
      obtain ⟨hmade, -⟩ := DataValue.store_made s.heap dataValue
      have hload := DataValue.load_of_extends hmade.grows (h.refs_allocated hn)
      simp only [State.value, hn, Option.map_some, Memory.write_read_of_ne _ hc, hload]

/-- Writes to one node leave what is read at another as it is. -/
def WriteIsolated (s : State P) (m n : NodeId) : Prop :=
  ∀ dataValue, readValue (writeValue s m dataValue).1 n = readValue s n

theorem writeIsolated_iff (h : Layout s sameCell sameObject repeated) {m n : NodeId}
    (hm : m ∈ s.valueMap.keys) :
    WriteIsolated s m n ↔ s.valueMap.find m ≠ s.valueMap.find n := by
  constructor
  · intro hw heq
    obtain ⟨cell, hc⟩ := Option.isSome_iff_exists.mp ((s.valueMap.mem_keys_iff m).mp hm)
    have hread : ∀ d, readValue s n = (.success, some d) := by
      intro d
      rw [← hw d, readValue_eq, writeValue_value_same hc (heq ▸ hc)]
    have hsame := (hread ⟨.null, .success, 0, 0⟩).symm.trans (hread ⟨.null, .badInternalError, 0, 0⟩)
    simp at hsame
  · intro hne dataValue
    rw [readValue_eq, readValue_eq, writeValue_value_other h hne]

end Write

/-! ### One pass of the timer -/

def Pass.refs (pass : Pass P) (cell : ℕ) : List (BuildInType × ℕ) := (pass.cells.read cell).refs

def Pass.value (pass : Pass P) (cell : ℕ) : DataValue (Value P) :=
  (pass.cells.read cell).load pass.heap

/-- Whether the type behind a cell is handled. -/
def Pass.handled (pass : Pass P) (cell : ℕ) : Bool :=
  TestStatusCode.handled P (pass.cells.read cell)

theorem Pass.handled_value (pass : Pass P) (cell : ℕ) :
    TestStatusCode.handled P (pass.value cell) = pass.handled cell := by
  simp only [TestStatusCode.handled, handled, value, DataValue.load, DataValue.map_variant,
    Variant.map_variantType]

/-- A visit makes no cells and no objects, and every cell keeps its objects and its type. -/
structure Pass.SameLayout (pass pass' : Pass P) : Prop where
  cells_next : pass'.cells.next = pass.cells.next
  heap_next : ∀ t, (pass'.heap t).next = (pass.heap t).next
  refs_eq : ∀ cell, pass'.refs cell = pass.refs cell
  handled_eq : ∀ cell, pass'.handled cell = pass.handled cell

theorem Pass.SameLayout.refl (pass : Pass P) : pass.SameLayout pass :=
  ⟨rfl, fun _ => rfl, fun _ => rfl, fun _ => rfl⟩

theorem Pass.SameLayout.trans {pass pass' pass'' : Pass P} (h : pass.SameLayout pass')
    (h' : pass'.SameLayout pass'') : pass.SameLayout pass'' where
  cells_next := h'.cells_next.trans h.cells_next
  heap_next t := (h'.heap_next t).trans (h.heap_next t)
  refs_eq cell := (h'.refs_eq cell).trans (h.refs_eq cell)
  handled_eq cell := (h'.handled_eq cell).trans (h.handled_eq cell)

section Visit
variable (statusCode : StatusCode) (references : OrderedMap NodeId NodeRef)
  (live : NodeRef → Bool)

/-- What a visit does: nothing, or the update of its cell. -/
theorem visit_cases (pass : Pass P) (entry : NodeId × ℕ) (env : Env) :
    (visit statusCode references live pass entry env).1 = pass ∧
        ¬((liveReference references live entry.1).isSome ∧ pass.handled entry.2 = true) ∨
      ∃ reference dataValue heap,
        liveReference references live entry.1 = some reference ∧ pass.handled entry.2 = true ∧
        (update statusCode pass.heap (pass.cells.read entry.2) env).1 = some (dataValue, heap) ∧
        (visit statusCode references live pass entry env).1 =
          { cells := pass.cells.write entry.2 dataValue
            heap := heap
            published := pass.published ++ [⟨entry.1, reference, dataValue.load heap⟩] } := by
  have hsome := update_isSome statusCode pass.heap (pass.cells.read entry.2) env
  unfold visit
  cases hr : liveReference references live entry.1 with
  | none => exact Or.inl ⟨rfl, by simp⟩
  | some reference =>
    simp only [Sim.bind_apply]
    cases hu : (update statusCode pass.heap (pass.cells.read entry.2) env).1 with
    | none =>
      rw [hu] at hsome
      exact Or.inl ⟨rfl, fun h => Bool.false_ne_true (hsome.trans h.2)⟩
    | some updated =>
      rw [hu] at hsome
      exact Or.inr ⟨reference, updated.1, updated.2, rfl, hsome.symm, rfl, rfl⟩

theorem visit_sameLayout (pass : Pass P) (entry : NodeId × ℕ) (env : Env) :
    pass.SameLayout (visit statusCode references live pass entry env).1 := by
  rcases visit_cases statusCode references live pass entry env with
    ⟨heq, -⟩ | ⟨reference, dataValue, heap, -, -, hu, heq⟩
  · rw [heq]
    exact .refl pass
  · obtain ⟨hrefs, hhandled, htouch⟩ := update_refs hu
    rw [heq]
    refine ⟨rfl, htouch.next_eq, ?_, ?_⟩
    · intro cell
      by_cases hc : cell = entry.2
      · subst hc
        exact (congrArg DataValue.refs (pass.cells.write_read_self _ _)).trans hrefs
      · exact congrArg DataValue.refs (pass.cells.write_read_of_ne hc _)
    · intro cell
      by_cases hc : cell = entry.2
      · subst hc
        exact (congrArg (TestStatusCode.handled P) (pass.cells.write_read_self _ _)).trans hhandled
      · exact congrArg (TestStatusCode.handled P) (pass.cells.write_read_of_ne hc _)

/-- The visit of the entry does not reach the cell or its objects. -/
def Quiet (pass : Pass P) (cell : ℕ) (entry : NodeId × ℕ) : Prop :=
  (liveReference references live entry.1).isSome → pass.handled entry.2 = true →
    entry.2 ≠ cell ∧ (pass.refs entry.2).Disjoint (pass.refs cell)

theorem Quiet.sameLayout {references live} {pass pass' : Pass P} (hs : pass.SameLayout pass')
    {cell : ℕ} {entry : NodeId × ℕ} (h : Quiet references live pass cell entry) :
    Quiet references live pass' cell entry := by
  intro hlive hhandled
  rw [hs.handled_eq] at hhandled
  rw [hs.refs_eq, hs.refs_eq]
  exact h hlive hhandled

theorem visit_value_of_quiet {pass : Pass P} {cell : ℕ} {entry : NodeId × ℕ}
    (hq : Quiet references live pass cell entry) (env : Env) :
    (visit statusCode references live pass entry env).1.value cell = pass.value cell := by
  rcases visit_cases statusCode references live pass entry env with
    ⟨heq, -⟩ | ⟨reference, dataValue, heap, hr, hhandled, hu, heq⟩
  · rw [heq]
  · obtain ⟨hne, hdisjoint⟩ := hq (by simp [hr]) hhandled
    obtain ⟨-, -, htouch⟩ := update_refs hu
    have hload := DataValue.load_of_touches htouch hdisjoint.symm
    simp only [heq, Pass.value, Memory.write_read_of_ne _ hne.symm, hload]

/-- What a node with its own data value has after its visit: the update of what it had, if its
reference can be locked and its type is handled. -/
def visited (n : NodeId) (dataValue : DataValue (Value P)) (draws : Env) : DataValue (Value P) :=
  if (liveReference references live n).isSome then
    (updateValue statusCode dataValue draws).1.getD dataValue
  else dataValue

theorem visit_value_self {pass : Pass P} {n : NodeId} {cell : ℕ}
    (hn : (liveReference references live n).isSome → pass.handled cell = true →
      (pass.refs cell).Nodup) (env : Env) :
    (visit statusCode references live pass (n, cell) env).1.value cell =
      visited statusCode references live n (pass.value cell) env := by
  rcases visit_cases statusCode references live pass (n, cell) env with
    ⟨heq, hno⟩ | ⟨reference, dataValue, heap, hr, hhandled, hu, heq⟩
  · rw [heq, visited]
    split_ifs with hlive
    · have hsome := updateValue_isSome statusCode (pass.value cell) env
      rw [pass.handled_value, Bool.eq_false_iff.mpr fun hh => hno ⟨hlive, hh⟩,
        Option.isSome_eq_false_iff, Option.isNone_iff_eq_none] at hsome
      rw [hsome, Option.getD_none]
    · rfl
  · have hlive : (liveReference references live n).isSome := by simp [hr]
    obtain ⟨hload, -⟩ := update_load statusCode pass.heap (hn hlive hhandled) env
    rw [hu] at hload
    rw [heq, visited, if_pos hlive]
    simp only [Pass.value, Memory.write_read_self, ← hload, Option.map_some, Option.getD_some]

theorem foldlM_visit_sameLayout (entries : List (NodeId × ℕ)) (pass : Pass P) (env : Env) :
    pass.SameLayout (entries.foldlM (visit statusCode references live) pass env).1 := by
  refine Sim.foldlM_spec (fun walked _ => pass.SameLayout walked) ?_ (.refl pass)
  intro e _ walked env hwalked
  exact hwalked.trans (visit_sameLayout statusCode references live walked e env)

theorem foldlM_visit_value_of_quiet {entries : List (NodeId × ℕ)} {pass : Pass P} {cell : ℕ}
    (hq : ∀ e ∈ entries, Quiet references live pass cell e) (env : Env) :
    (entries.foldlM (visit statusCode references live) pass env).1.value cell =
      pass.value cell := by
  -- a visit stays quiet because the visits before it keep the layout
  have hstep : ∀ e ∈ entries, ∀ walked env,
      (pass.SameLayout walked ∧ walked.value cell = pass.value cell) →
        pass.SameLayout (visit statusCode references live walked e env).1 ∧
          (visit statusCode references live walked e env).1.value cell = pass.value cell := by
    rintro e he walked env ⟨hlayout, hvalue⟩
    have hquiet := (hq e he).sameLayout hlayout
    have hkeeps := visit_value_of_quiet statusCode references live hquiet env
    exact ⟨hlayout.trans (visit_sameLayout statusCode references live walked e env),
      hkeeps.trans hvalue⟩
  have hloop := Sim.foldlM_spec (fun walked _ =>
    pass.SameLayout walked ∧ walked.value cell = pass.value cell) hstep (e := env) ⟨.refl pass, rfl⟩
  exact hloop.2

/-- Where all other visits are quiet, the loop updates the cell once, with what is drawn when
the loop gets to it. -/
theorem foldlM_visit_value {before after : List (NodeId × ℕ)} {pass : Pass P} {n : NodeId}
    {cell : ℕ} (hq : ∀ e ∈ before ++ after, Quiet references live pass cell e)
    (hn : (liveReference references live n).isSome → (pass.refs cell).Nodup) (env : Env) :
    ((before ++ (n, cell) :: after).foldlM (visit statusCode references live) pass env).1.value
        cell =
      visited statusCode references live n (pass.value cell)
        (before.foldlM (visit statusCode references live) pass env).2 := by
  have hbefore := foldlM_visit_sameLayout statusCode references live before pass env
  rw [List.foldlM_append, Sim.bind_apply, List.foldlM_cons, Sim.bind_apply]
  generalize hp : before.foldlM (visit statusCode references live) pass env = walked at hbefore ⊢
  have hvalue : walked.1.value cell = pass.value cell := by
    rw [← hp]
    exact foldlM_visit_value_of_quiet statusCode references live (fun e he => hq e (by simp [he])) env
  have hown := visit_sameLayout statusCode references live walked.1 (n, cell) walked.2
  rw [foldlM_visit_value_of_quiet, visit_value_self, hvalue]
  · intro hlive _
    rw [hbefore.refs_eq]
    exact hn hlive
  · intro e he
    exact (hq e (by simp [he])).sameLayout (hbefore.trans hown)

end Visit

/-! ### The timer -/

/-- `timerLoop` as far as the walk over the given entries. -/
def passOver (s : State P) (live : NodeRef → Bool) (entries : List (NodeId × ℕ)) : Sim (Pass P) := do
  let s ← switchStatus s
  entries.foldlM (visit s.statusCode s.baseNodeClassWMap live) ⟨s.cells, s.heap, []⟩

/-- What is left of the draws when the loop gets to a node. -/
def drawsFor (s : State P) (live : NodeRef → Bool) (n : NodeId) (env : Env) : Env :=
  (passOver s live (s.valueMap.entries.takeWhile fun e => e.1 ≠ n) env).2

/-- A tick makes of the value of a node the update of that value with the draws made for the
node, and only the visit of the node itself changes it. -/
structure OneUpdate (s : State P) (live : NodeRef → Bool) (n : NodeId) : Prop where
  updated : ∀ env, (timerLoop s live env).1.1.value n = (s.value n).map fun d =>
    visited (switchStatus s env).1.statusCode s.baseNodeClassWMap live n d (drawsFor s live n env)
  own_visit : ∀ env walked entry rest, s.valueMap.entries = walked ++ entry :: rest →
    entry.1 ≠ n → ∀ cell, s.valueMap.find n = some cell →
      (passOver s live (walked ++ [entry]) env).1.value cell = (passOver s live walked env).1.value cell

theorem switchStatus_frame (s : State P) (env : Env) :
    (switchStatus s env).1.toMembers = s.toMembers ∧ (switchStatus s env).1.cells = s.cells ∧
      (switchStatus s env).1.heap = s.heap := by
  simp only [switchStatus, Sim.bind_apply]
  split_ifs <;> exact ⟨rfl, rfl, rfl⟩

section Timer
variable {s : State P} {live : NodeRef → Bool}

theorem passOver_apply (s : State P) (live : NodeRef → Bool) (entries : List (NodeId × ℕ))
    (env : Env) :
    passOver s live entries env =
      entries.foldlM (visit (switchStatus s env).1.statusCode s.baseNodeClassWMap live)
        ⟨s.cells, s.heap, []⟩ (switchStatus s env).2 := by
  obtain ⟨hmembers, hcells, hheap⟩ := switchStatus_frame s env
  simp only [passOver, Sim.bind_apply, hmembers, hcells, hheap]

/-- What every visit keeps, the walk keeps. -/
theorem passOver_preserves (J : Pass P → Env → Prop) {entries : List (NodeId × ℕ)} {env : Env}
    (hvisit : ∀ pass entry env', J pass env' →
      J (visit (switchStatus s env).1.statusCode s.baseNodeClassWMap live pass entry env').1
        (visit (switchStatus s env).1.statusCode s.baseNodeClassWMap live pass entry env').2)
    (h : J ⟨s.cells, s.heap, []⟩ (switchStatus s env).2) :
    J (passOver s live entries env).1 (passOver s live entries env).2 := by
  rw [passOver_apply]
  exact Sim.foldlM_spec J (fun entry _ pass env' => hvisit pass entry env') h

theorem passOver_sameLayout (s : State P) (live : NodeRef → Bool) (walked : List (NodeId × ℕ))
    (env : Env) : Pass.SameLayout ⟨s.cells, s.heap, []⟩ (passOver s live walked env).1 := by
  rw [passOver_apply]
  exact foldlM_visit_sameLayout ..

theorem passOver_concat (walked : List (NodeId × ℕ)) (entry : NodeId × ℕ) (env : Env) :
    passOver s live (walked ++ [entry]) env =
      visit (switchStatus s env).1.statusCode s.baseNodeClassWMap live
        (passOver s live walked env).1 entry (passOver s live walked env).2 := by
  rw [passOver_apply, passOver_apply, List.foldlM_append, Sim.bind_apply, List.foldlM_cons,
    Sim.bind_apply]
  rfl

theorem timerLoop_apply (s : State P) (live : NodeRef → Bool) (env : Env) :
    (timerLoop s live env).1.1.valueMap = s.valueMap ∧
      (timerLoop s live env).1.1.baseNodeClassWMap = s.baseNodeClassWMap ∧
      (timerLoop s live env).1.1.cells = (passOver s live s.valueMap.entries env).1.cells ∧
      (timerLoop s live env).1.1.heap = (passOver s live s.valueMap.entries env).1.heap := by
  obtain ⟨hmembers, hcells, hheap⟩ := switchStatus_frame s env
  simp only [timerLoop, passOver, Sim.bind_apply, Sim.pure_apply, hmembers, and_self]

theorem timerLoop_value (s : State P) (live : NodeRef → Bool) (env : Env) (n : NodeId) :
    (timerLoop s live env).1.1.value n =
      (s.valueMap.find n).map (passOver s live s.valueMap.entries env).1.value := by
  obtain ⟨hmap, -, hcells, hheap⟩ := timerLoop_apply s live env
  rw [State.value, hmap, hcells, hheap]
  rfl

theorem Layout.timerLoop {sameCell sameObject : NodeId → NodeId → Prop} {repeated : NodeId → Prop}
    (h : Layout s sameCell sameObject repeated) (live : NodeRef → Bool) (env : Env) :
    Layout (timerLoop s live env).1.1 sameCell sameObject repeated := by
  obtain ⟨hmap, -, hcells, hheap⟩ := timerLoop_apply s live env
  have hsame := passOver_sameLayout s live s.valueMap.entries env
  have hrefs : ∀ cell, (TestStatusCode.timerLoop s live env).1.1.refs cell = s.refs cell := by
    intro cell
    rw [State.refs, hcells]
    exact hsame.refs_eq cell
  constructor
  · intro n cell hf
    rw [hcells, hsame.cells_next]
    exact h.allocated (hmap ▸ hf)
  · intro m n cell hm hn
    exact h.injective (hmap ▸ hm) (hmap ▸ hn)
  · intro n cell hf r hr
    rw [hheap, hsame.heap_next]
    exact h.refs_allocated (hmap ▸ hf) r (hrefs cell ▸ hr)
  · intro m n cell cell' hm hn hne hno
    rw [hrefs, hrefs]
    exact h.disjoint (hmap ▸ hm) (hmap ▸ hn) hne hno
  · intro n cell hf hnr
    rw [hrefs]
    exact h.nodup (hmap ▸ hf) hnr

/-- A tick updates a node once, unless a node it shares with can be locked, or it holds an
object twice and can itself be locked. -/
theorem Layout.oneUpdate {sameCell sameObject : NodeId → NodeId → Prop} {repeated : NodeId → Prop}
    (h : Layout s sameCell sameObject repeated) {n : NodeId}
    (hcell : ∀ m d, sameCell m n → s.value n = some d → handled P d = true →
      liveReference s.baseNodeClassWMap live m = none)
    (hobject : ∀ m, sameObject m n → liveReference s.baseNodeClassWMap live m = none)
    (hrepeated : repeated n → liveReference s.baseNodeClassWMap live n = none) :
    OneUpdate s live n := by
  let start : Pass P := ⟨s.cells, s.heap, []⟩
  have hquiet : ∀ cell, s.valueMap.find n = some cell → ∀ e ∈ s.valueMap.entries, e.1 ≠ n →
      Quiet s.baseNodeClassWMap live start cell e := by
    rintro cell hn ⟨m, cell'⟩ he hne hlive hhandled
    have hm := (s.valueMap.mem_entries_iff m cell').mp he
    have hc : cell' ≠ cell := by
      rintro rfl
      have hshared := (h.injective hm hn).resolve_left hne
      have hvalue : s.value n = some (start.value cell') := by rw [State.value, hn]; rfl
      rw [← start.handled_value] at hhandled
      simp [hcell m _ hshared hvalue hhandled] at hlive
    refine ⟨hc, h.disjoint hm hn hc fun ho => ?_⟩
    simp [hobject m ho] at hlive
  constructor
  · intro env
    rw [timerLoop_value, State.value]
    cases hn : s.valueMap.find n with
    | none => rfl
    | some cell =>
      obtain ⟨rest, hsplit, hothers⟩ := s.valueMap.entries_split hn
      apply congrArg some
      rw [drawsFor, passOver_apply, passOver_apply]
      conv_lhs => rw [hsplit]
      rw [foldlM_visit_value]
      · rfl
      · intro e he
        refine hquiet cell hn e ?_ (hothers e he)
        rw [hsplit]
        rcases List.mem_append.mp he with he | he
        · exact List.mem_append_left _ he
        · exact List.mem_append_right _ (List.mem_cons_of_mem _ he)
      · intro hlive
        refine h.nodup hn fun hr => ?_
        simp [hrepeated hr] at hlive
  · intro env walked entry rest hsplit hne cell hn
    have hentry := hquiet cell hn entry (by rw [hsplit]; simp) hne
    rw [passOver_concat]
    exact visit_value_of_quiet _ _ _ (hentry.sameLayout (passOver_sameLayout s live walked env)) _

end Timer

/-! ### Runs -/

def step (s : State P) : Event P → State P × Answer P
  | .readValue n => (s, .read (readValue s n))
  | .writeValue n dataValue =>
      ((writeValue s n dataValue).1, .written (writeValue s n dataValue).2)
  | .timerLoop live env => ((timerLoop s live env).1.1, .published (timerLoop s live env).1.2)

/-- The object that has been constructed and knows its namespace. -/
def named (P : Platform) (env : Env) (ns : ℕ) : State P :=
  { (construct P env).1 with namespaceIndex := ns }

/-- The object after `createValueMap`, with any node references. -/
def created (P : Platform) (env : Env) (ns : ℕ) (references : OrderedMap NodeId NodeRef) :
    State P :=
  { (createValueMap (named P env ns) (construct P env).2).1 with baseNodeClassWMap := references }

/-- The object after a run that starts when `createValueMap` is done. -/
def reached (P : Platform) (env : Env) (ns : ℕ) (references : OrderedMap NodeId NodeRef)
    (es : List (Event P)) : State P :=
  (Runs.run step (created P env ns references) es).1

/-- No client wrote to the node. -/
def Untouched (es : List (Event P)) (n : NodeId) : Prop := ∀ d, Event.writeValue n d ∉ es

/-- A node that shares with `n` is updated by a tick, or `n` holds an object more than once and
is itself updated. -/
def Disturbed (ns : ℕ) (es : List (Event P)) (s : State P) (live : NodeRef → Bool)
    (n : NodeId) : Prop :=
  (∃ m d, Pair 221 222 ns m n ∧ s.value n = some d ∧ handled P d = true ∧
      (liveReference s.baseNodeClassWMap live m).isSome) ∨
    (∃ m, Pair 226 227 ns m n ∧ Untouched es m ∧ Untouched es n ∧
      (liveReference s.baseNodeClassWMap live m).isSome) ∨
    n = nodeId 227 ns ∧ Untouched es n ∧ (liveReference s.baseNodeClassWMap live n).isSome

section Runs
variable (env : Env) (ns : ℕ) (references : OrderedMap NodeId NodeRef)

theorem named_valueMap : (named P env ns).valueMap = .empty := rfl

theorem named_namespaceIndex : (named P env ns).namespaceIndex = ns := rfl

theorem CreatedLayout.withReferences {ns : ℕ} {s : State P} (h : CreatedLayout ns s)
    (references : OrderedMap NodeId NodeRef) :
    CreatedLayout ns { s with baseNodeClassWMap := references } :=
  ⟨⟨h.layout.allocated, h.layout.injective, h.layout.refs_allocated, h.layout.disjoint,
    h.layout.nodup⟩, h.same_cell⟩

theorem created_layout : CreatedLayout ns (created P env ns references) :=
  (createValueMap_layout (named_valueMap env ns) (named_namespaceIndex env ns) _).withReferences
    references

theorem mem_keys_created (n : NodeId) :
    n ∈ (created P env ns references).valueMap.keys ↔
      n ∈ (List.range' 200 36).map (nodeId · ns) := by
  have h := (createValueMap_filled (named P env ns) (construct P env).2).mem_keys n
  rw [named_valueMap, named_namespaceIndex] at h
  rw [created, h]
  exact or_iff_right List.not_mem_nil

theorem reached_append (es : List (Event P)) (e : Event P) :
    reached P env ns references (es ++ [e]) = (step (reached P env ns references es) e).1 := by
  rw [reached, Runs.run_append]
  rfl

/-- What the run leaves as `createValueMap` made it. -/
theorem reached_maps (es : List (Event P)) :
    (reached P env ns references es).valueMap = (created P env ns references).valueMap ∧
      (reached P env ns references es).baseNodeClassWMap = references := by
  induction es using List.reverseRecOn with
  | nil => exact ⟨rfl, rfl⟩
  | append_singleton es e ih =>
    rw [reached_append]
    cases e with
    | readValue n => exact ih
    | writeValue n d =>
      obtain ⟨hmap, hrefs⟩ := writeValue_valueMap (reached P env ns references es) n d
      exact ⟨hmap.trans ih.1, hrefs.trans ih.2⟩
    | timerLoop live env' =>
      obtain ⟨hmap, hrefs, -⟩ := timerLoop_apply (reached P env ns references es) live env'
      exact ⟨hmap.trans ih.1, hrefs.trans ih.2⟩

/-- A written node leaves the sharing of objects for good. -/
theorem reached_layout (es : List (Event P)) :
    Layout (reached P env ns references es) (Pair 221 222 ns)
      (fun m n => Pair 226 227 ns m n ∧ Untouched es m ∧ Untouched es n)
      (fun n => n = nodeId 227 ns ∧ Untouched es n) := by
  induction es using List.reverseRecOn with
  | nil =>
    exact (created_layout env ns references).layout.mono id
      (fun h => ⟨h, by simp [Untouched], by simp [Untouched]⟩) fun h => ⟨h, by simp [Untouched]⟩
  | append_singleton es e ih =>
    rw [reached_append]
    have hkeep : (∀ n d, e ≠ .writeValue n d) → ∀ n, Untouched es n → Untouched (es ++ [e]) n := by
      intro hno n hn d
      simp [hn d, (hno n d).symm]
    cases e with
    | readValue n =>
      exact ih.mono id (fun h => ⟨h.1, hkeep (by simp) _ h.2.1, hkeep (by simp) _ h.2.2⟩)
        fun h => ⟨h.1, hkeep (by simp) _ h.2⟩
    | timerLoop live env' =>
      exact (ih.timerLoop live env').mono id
        (fun h => ⟨h.1, hkeep (by simp) _ h.2.1, hkeep (by simp) _ h.2.2⟩)
        fun h => ⟨h.1, hkeep (by simp) _ h.2⟩
    | writeValue n d =>
      have hother : ∀ m, Untouched es m → m ≠ n → Untouched (es ++ [.writeValue n d]) m := by
        intro m hm hne d'
        simp [hm d', hne]
      exact (ih.writeValue n d).mono id
        (fun h => ⟨h.1.1, hother _ h.1.2.1 h.2.1, hother _ h.1.2.2 h.2.2⟩)
        fun h => ⟨h.1.1, hother _ h.1.2 h.2⟩

end Runs

end ASNeGDemo.TestStatusCode
