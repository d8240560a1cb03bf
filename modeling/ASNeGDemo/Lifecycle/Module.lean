import ASNeGDemo.LoopTimer

/-!
The life cycle `TestFolderLib` and `TestStatusCode` have in common. A module is seen through
its members: the namespace it found, the nodes and references it knows and its loop timer.
-/
namespace ASNeGDemo

variable {P : Platform}

/-- The results of a reference request, as far as both arrays go. -/
def NodeReferenceResponse.results (res : NodeReferenceResponse) : List (StatusCode × NodeRef) :=
  res.statuses.zip res.nodeReferences

/-- The members, and the nodes the reference request names. -/
structure Client (P : Platform) extends Members P where
  requested : List NodeId

/-- The requests that follow the value map. -/
def request (b : ServiceBehaviour) (res : NodeReferenceResponse) : Stage (Client P) :=
  Stage.chain
    [ fun c => (c, some (allRegistered b.registerValues)),
      fun c => (c, some (firstRegistered b.uninitialised b.registerLoopTime)),
      fun c =>
        if res.statusCode = .success then
          let saved := saveReferences c.requested res.statuses res.nodeReferences
            c.baseNodeClassWMap
          ({ c with baseNodeClassWMap := saved.1 }, saved.2)
        else (c, some false) ]

/-- The part of a startup that follows the value map. -/
def connect (b : ServiceBehaviour) (res : NodeReferenceResponse) : Stage (Client P) :=
  Stage.chain [request b res, fun c => ({ c with loop := c.loop.startTimerLoop }, some true)]

/-- The references that came back, by the node they were asked for. -/
def returned (res : NodeReferenceResponse) (requested : List NodeId) : List (NodeId × NodeRef) :=
  requested.zip (res.results.map Prod.snd)

/-- A loop over the references that comes to its end has saved one for each result, and all
results were good. -/
theorem saveReferences_of_true {nodes : List NodeId} {statuses : List StatusCode}
    {references : List NodeRef} {map : OrderedMap NodeId NodeRef}
    (h : (saveReferences nodes statuses references map).2 = some true) :
    (saveReferences nodes statuses references map).1 = map.insertAll
        (nodes.zip ((statuses.zip references).map Prod.snd)) ∧
      (statuses.zip references).length ≤ nodes.length ∧
      ∀ e ∈ statuses.zip references, e.1 = .success := by
  induction references generalizing nodes statuses map with
  | nil => cases statuses <;> cases nodes <;> simp [saveReferences]
  | cons reference references ih =>
    cases statuses with
    | nil => simp [saveReferences] at h
    | cons status statuses =>
      by_cases hs : status = .success
      · subst hs
        cases nodes with
        | nil => simp [saveReferences] at h
        | cons node nodes =>
          simp only [saveReferences, ne_eq, not_true_eq_false, if_false] at h ⊢
          obtain ⟨hmap, hlen, hall⟩ := ih h
          refine ⟨hmap, Nat.succ_le_succ hlen, ?_⟩
          intro e he
          rcases List.mem_cons.mp he with rfl | he
          · rfl
          · exact hall e he
      · cases nodes <;> simp [saveReferences, hs] at h

/-- What a startup that gets to its end has been told, and what it has made of it. -/
structure Connected (b : ServiceBehaviour) (res : NodeReferenceResponse) (c c' : Client P) :
    Prop where
  values : allRegistered b.registerValues = true
  loopTime : firstRegistered b.uninitialised b.registerLoopTime = true
  results_length : res.results.length ≤ c.requested.length
  results_success : ∀ e ∈ res.results, e.1 = .success
  client_eq : c' = { c with
    baseNodeClassWMap := c.baseNodeClassWMap.insertAll (returned res c.requested)
    loop := c.loop.startTimerLoop }

theorem connect_of_true {b : ServiceBehaviour} {res : NodeReferenceResponse} {c : Client P}
    (h : (connect b res c).2 = some true) : Connected b res c (connect b res c).1 := by
  unfold connect at h ⊢
  obtain ⟨hrequest, -⟩ := (Stage.chain_cons_true_iff ..).mp h
  rw [Stage.chain_cons_of_true hrequest, Stage.chain_cons_always, Stage.chain_nil]
  unfold request at hrequest ⊢
  obtain ⟨hvalues, hrest⟩ := (Stage.chain_cons_true_iff ..).mp hrequest
  obtain ⟨hloop, hrest⟩ := (Stage.chain_cons_true_iff ..).mp hrest
  obtain ⟨hsaved, -⟩ := (Stage.chain_cons_true_iff ..).mp hrest
  rw [Stage.chain_cons_of_true hvalues, Stage.chain_cons_of_true hloop,
    Stage.chain_cons_of_true hsaved, Stage.chain_nil]
  by_cases hstatus : res.statusCode = .success
  · simp only [hstatus, if_true] at hsaved ⊢
    obtain ⟨hmap, hlen, hall⟩ := saveReferences_of_true hsaved
    refine ⟨Option.some.inj hvalues, Option.some.inj hloop, hlen, hall, ?_⟩
    rw [hmap]
    rfl
  · simp [hstatus] at hsaved

theorem request_loop (b : ServiceBehaviour) (res : NodeReferenceResponse) (c : Client P) :
    (request b res c).1.loop = c.loop := by
  refine Stage.chain_preserves (I := fun c' : Client P => c'.loop = c.loop) ?_ rfl
  intro f hf c' hc'
  simp only [List.mem_cons, List.not_mem_nil, or_false] at hf
  rcases hf with rfl | rfl | rfl
  · exact hc'
  · exact hc'
  · change (ite _ _ _ : Client P × Option Bool).1.loop = _
    split_ifs <;> exact hc'

/-- A startup that does not get to its end has not touched the timer. -/
theorem connect_loop_of_not {b : ServiceBehaviour} {res : NodeReferenceResponse} {c : Client P}
    (h : (connect b res c).2 ≠ some true) : (connect b res c).1.loop = c.loop := by
  have hrequest : (request b res c).2 ≠ some true := by
    intro htrue
    exact h ((Stage.chain_cons_true_iff ..).mpr ⟨htrue, rfl⟩)
  rw [connect, Stage.chain_cons_of_not hrequest]
  exact request_loop b res c

/-- A callback the service invokes for a client. -/
inductive Callback (P : Platform) where
  | readValue (n : NodeId)
  | writeValue (n : NodeId) (dataValue : DataValue (Value P))
  | readLoopTimeValue
  | writeLoopTimeValue (dataValue : DataValue (Value P))

/-- What a callback does to the loop timer. -/
def LoopTimer.invoke (l : LoopTimer P) : Callback P → LoopTimer P
  | .writeLoopTimeValue dataValue =>
      match l.writeLoopTimeValue dataValue with
      | some written => written.1
      | none => l
  | _ => l

/-- A class with this life cycle: how it starts, what its callbacks do, and that its startup
is `connect` on what both classes have, once the value map is filled. `ι` is what filling
the value map draws. -/
structure Module (P : Platform) (σ ι : Type) where
  uri : String
  construct : Sim σ
  fill : ServiceBehaviour → ι → σ → σ
  startup : ServiceBehaviour → ι → Stage σ
  shutdown : Stage σ
  invoke : σ → Callback P → σ
  client : σ → Client P
  read : NodeReferenceResponse → NodeReferenceResponse
  construct_empty : ∀ env, (client (construct env).1).valueMap = .empty ∧
    (client (construct env).1).baseNodeClassWMap = .empty ∧
    (client (construct env).1).loop.slotTimer.elements = []
  fill_namespaceIndex : ∀ b i s, (client (fill b i s)).namespaceIndex =
    namespaceIndexOf uri b.namespaceInfo.index2NamespaceMap (client s).namespaceIndex
  fill_valueMap : ∀ b i s, ∃ es : List (NodeId × ℕ),
    es.map Prod.fst = (List.range' 200 36).map (nodeId · (client (fill b i s)).namespaceIndex) ∧
      (client (fill b i s)).valueMap = (client s).valueMap.insertAll es
  fill_others : ∀ b i s,
    (client (fill b i s)).baseNodeClassWMap = (client s).baseNodeClassWMap ∧
      (client (fill b i s)).loop = (client s).loop
  requested_construct : ∀ b i env, (client (fill b i (construct env).1)).requested =
    (client (fill b i (construct env).1)).valueMap.keys
  read_results : ∀ res, (read res).results = res.results
  startup_refused : ∀ b i s, b.namespaceInfo.statusCode ≠ .success →
    startup b i s = (s, some false)
  startup_connect : ∀ b i s, b.namespaceInfo.statusCode = .success →
    connect b (read b.nodeReferences) (client (fill b i s)) =
      (client (startup b i s).1, (startup b i s).2)
  shutdown_eq : ∀ s, shutdown s = (s, some true)
  invoke_loop : ∀ s callback, (client (invoke s callback)).loop = (client s).loop.invoke callback

end ASNeGDemo
