import ASNeGDemo.Alarm.Runs
import ASNeGDemo.Stack.Answers

/-!
The startup of `Alarm`. The node ids come from a browse request, the references from a request
for the first ten of them, and the methods are registered before the defaults are set.
-/
namespace ASNeGDemo

/-- The object, and what it has stored in nodes. The root node id is a pointer in the source, null
until the namespace was found once. -/
structure AlarmObject where
  namespaceIndex : ℕ
  rootNodeId : Option NodeId
  /-- `ackedStateNodeId_` to `disableNodeId_`. -/
  nodeIds : ℕ → Option NodeId
  /-- `ackedState_` to `commentSourceTimestamp_`. -/
  references : ℕ → Option NodeRef
  /-- What the service has taken on: the object, the method and the callback. -/
  registered : List (NodeId × NodeId × Alarm.Operation)
  slotTimerElement : Option ℕ
  slotTimer : SlotTimer
  /-- What each reference leads to, by the member that holds it: no two members lead to one
  node. -/
  contents : NodeRef → Alarm.Nodes

/-- The place of a node in the requests. -/
def AlarmNode.position : AlarmNode → ℕ
  | .state s => AlarmState.select 0 2 4 6 s
  | .id s => AlarmState.select 1 3 5 7 s
  | .comment => 8

/-- The nodes the references lead to now. -/
def AlarmObject.nodes (s : AlarmObject) : Alarm.Nodes := fun k =>
  match s.references k.position with
  | some reference => s.contents reference k
  | none => Alarm.emptyNodes k

/-- Other contents behind the references there are. -/
def AlarmObject.store (s : AlarmObject) (m : Alarm.Nodes) : AlarmObject :=
  { s with contents := fun reference k =>
      if s.references k.position = some reference then m k else s.contents reference k }

/-- How the service answers the requests of a startup; the answer to a registration goes by its
place among the seven. -/
structure AlarmServiceBehaviour where
  namespaceInfo : NamespaceInfoResponse
  nodeIds : BrowsePathToNodeIdResponse
  references : GetNodeReferenceResponse
  registerMethod : ℕ → RegisterForwardResponse

namespace Alarm

/-- The object the constructor leaves behind, over nodes with any contents. -/
def construct (contents : NodeRef → Nodes) : AlarmObject :=
  ⟨0, none, fun _ => none, fun _ => none, [], none, ⟨[]⟩, contents⟩

def uri : String := "http://ASNeG-Demo.de/Alarm/"

def getNamespaceInfo : NamespaceInfoResponse → Stage AlarmObject :=
  findNamespace (fun namespaceIndex s => { s with namespaceIndex := namespaceIndex }) uri

def getNodeIds (res : BrowsePathToNodeIdResponse) : Stage AlarmObject :=
  Stage.chain
    [ fun s => ({ s with rootNodeId := some (nodeIdString "AlarmObject" s.namespaceIndex) },
        some true),
      Stage.within AlarmObject.nodeIds (fun s nodeIds => { s with nodeIds := nodeIds })
        (readResponse res 15) ]

def createNodeReferences (res : GetNodeReferenceResponse) : Stage AlarmObject :=
  Stage.within AlarmObject.references (fun s references => { s with references := references })
    (readResponse res 10)

/-- Both node ids are read through pointers. -/
def registerCallback (res : RegisterForwardResponse) (objectNodeId methodNodeId : Option NodeId)
    (callback : Operation) : Stage AlarmObject := fun s =>
  match objectNodeId, methodNodeId with
  | some objectNodeId, some methodNodeId =>
      if res.accepted then
        ({ s with registered := s.registered ++ [(objectNodeId, methodNodeId, callback)] },
          some true)
      else (s, some false)
  | _, _ => (s, none)

/-- The registrations in the order of the source. -/
def callbacks (s : AlarmObject) : List (Option NodeId × Option NodeId × Operation) :=
  [ (s.rootNodeId, s.nodeIds 10, .acknowledge),
    (s.rootNodeId, some (nodeId 9111 0), .acknowledge),
    (s.rootNodeId, s.nodeIds 11, .confirm),
    (s.rootNodeId, some (nodeId 9113 0), .confirm),
    (s.rootNodeId, s.nodeIds 13, .enabled),
    (s.rootNodeId, s.nodeIds 14, .disable),
    (some (nodeId 2782 0), some (nodeId 3875 0), .conditionRefresh) ]

def registerCallbacks (res : ℕ → RegisterForwardResponse) : Stage AlarmObject := fun s =>
  Stage.chain ((callbacks s).zipIdx.map fun e =>
    registerCallback (res e.2) e.1.1 e.1.2.1 e.1.2.2) s

def startTimerLoop : Stage AlarmObject := fun s =>
  ({ s with
      slotTimerElement := some s.slotTimer.elements.length
      slotTimer := s.slotTimer.start 60000 }, some true)

section Startup
variable (live : NodeRef → Bool) (uninitialised : Bool)

/-- The setters and getters of the object: a node is reached through its reference, as long as
that can be locked. -/
def accessors (s : AlarmObject) : Alarm where
  rootNodeId := s.rootNodeId.getD (nodeId 0 0)
  live := fun k => ((s.references k.position).filter live).isSome
  uninitialised := uninitialised

def startup (b : AlarmServiceBehaviour) : Stage AlarmObject :=
  Stage.chain
    [ getNamespaceInfo b.namespaceInfo,
      getNodeIds b.nodeIds,
      createNodeReferences b.references,
      registerCallbacks b.registerMethod,
      fun s => (s.store (started (accessors live uninitialised s) s.nodes), some true),
      startTimerLoop ]

end Startup

/-! ### The nodes behind the references -/

theorem position_lt (k : AlarmNode) : k.position < 10 := by
  cases k with
  | state s => cases s <;> decide
  | id s => cases s <;> decide
  | comment => decide

theorem store_nodes {s : AlarmObject} (h : ∀ idx < 10, (s.references idx).isSome) (m : Nodes) :
    (s.store m).nodes = m := by
  funext k
  obtain ⟨reference, hreference⟩ := Option.isSome_iff_exists.mp (h k.position (position_lt k))
  simp [AlarmObject.nodes, AlarmObject.store, hreference]

/-- What a startup leaves in the nodes. -/
def defaultNodes : Nodes
  | .state s => stateText s (!(s == .active))
  | .id s => !(s == .active)
  | .comment => ⟨"", ""⟩

/-- Nodes after a setter. -/
def setIfLive (a : Alarm) (m : Nodes) (k : AlarmNode) (v : k.Content) : Nodes :=
  if a.live k then Function.update m k v else m

theorem setIfLive_self (a : Alarm) (m : Nodes) (k : AlarmNode) (v : k.Content) :
    setIfLive a m k v k = if a.live k then v else m k := by
  unfold setIfLive
  cases a.live k <;> simp

theorem setIfLive_of_ne (a : Alarm) (m : Nodes) {k j : AlarmNode} (h : j ≠ k) (v : k.Content) :
    setIfLive a m k v j = m j := by
  unfold setIfLive
  cases a.live k <;> simp [h]

theorem setNode_run (a : Alarm) (m : Nodes) (k : AlarmNode) (v : k.Content)
    (rest : Unit → Action Unit) :
    (a.setNode k v >>= rest).run m = (rest ()).run (setIfLive a m k v) := by
  unfold setNode setIfLive
  cases a.live k <;> rfl

/-- The defaults reach the nodes whose references can be locked. -/
theorem started_apply (a : Alarm) (m : Nodes) (k : AlarmNode) :
    started a m k = if a.live k then defaultNodes k else m k := by
  have hcomment (m : Nodes) :
      ((a.setNode .comment ⟨"", ""⟩).run m).2.1 = setIfLive a m .comment ⟨"", ""⟩ := by
    unfold setNode setIfLive
    cases a.live .comment <;> rfl
  unfold started setDefaults setAckedState setAckedStateId setConfirmedState setConfirmedStateId
    setActiveState setActiveStateId setEnabledState setEnabledStateId setComment
  simp only [setNode_run, hcomment]
  cases k with
  | state s =>
    cases s <;> simp only [setIfLive_self, setIfLive_of_ne, ne_eq, AlarmNode.state.injEq,
      reduceCtorEq, not_false_eq_true] <;> rfl
  | id s =>
    cases s <;> simp only [setIfLive_self, setIfLive_of_ne, ne_eq, AlarmNode.id.injEq,
      reduceCtorEq, not_false_eq_true] <;> rfl
  | comment =>
    simp only [setIfLive_self, setIfLive_of_ne, ne_eq, reduceCtorEq, not_false_eq_true]
    rfl

/-! ### What a startup does -/

/-- The answers name the namespace, give a node id for each browse path and a reference for each
of the first ten ids, and acknowledge each registration. -/
structure Complete (b : AlarmServiceBehaviour) (namespaceIndex : ℕ) (nodeIds : List NodeId)
    (references : List NodeRef) : Prop where
  namespaceFound : firstNamespaceIndex uri b.namespaceInfo = some namespaceIndex
  nodeIds : b.nodeIds.Complete 15 nodeIds
  references : b.references.Complete 10 references
  accepted : ∀ idx < 7, (b.registerMethod idx).accepted = true

/-- What a registration comes to, where both pointers are set. -/
def registration : Option NodeId × Option NodeId × Operation → Option (NodeId × NodeId × Operation)
  | (some objectNodeId, some methodNodeId, callback) =>
      some (objectNodeId, methodNodeId, callback)
  | _ => none

def registrations (s : AlarmObject) : List (NodeId × NodeId × Operation) :=
  (callbacks s).filterMap registration

/-- The pointers that `registerCallbacks` reads are set. -/
structure Known (s : AlarmObject) : Prop where
  rootNodeId : s.rootNodeId.isSome
  nodeIds : ∀ idx < 15, (s.nodeIds idx).isSome

theorem Known.callbacks {s : AlarmObject} (h : Known s) :
    ∀ e ∈ callbacks s, e.1.isSome ∧ e.2.1.isSome := by
  have hacknowledge := h.nodeIds 10 (by omega)
  have hconfirm := h.nodeIds 11 (by omega)
  have henabled := h.nodeIds 13 (by omega)
  have hdisable := h.nodeIds 14 (by omega)
  simp [Alarm.callbacks, h.rootNodeId, hacknowledge, hconfirm, henabled, hdisable]

theorem Known.registrations_length {s : AlarmObject} (h : Known s) :
    (registrations s).length = 7 := by
  obtain ⟨rootNodeId, hroot⟩ := Option.isSome_iff_exists.mp h.rootNodeId
  obtain ⟨acknowledge, hacknowledge⟩ := Option.isSome_iff_exists.mp (h.nodeIds 10 (by omega))
  obtain ⟨confirm, hconfirm⟩ := Option.isSome_iff_exists.mp (h.nodeIds 11 (by omega))
  obtain ⟨enabled, henabled⟩ := Option.isSome_iff_exists.mp (h.nodeIds 13 (by omega))
  obtain ⟨disable, hdisable⟩ := Option.isSome_iff_exists.mp (h.nodeIds 14 (by omega))
  simp [registrations, Alarm.callbacks, registration, hroot, hacknowledge, hconfirm, henabled,
    hdisable]

/-- The registrations one after the other, for any list of them. -/
theorem registerCallback_chain (res : ℕ → RegisterForwardResponse)
    (l : List ((Option NodeId × Option NodeId × Operation) × ℕ))
    (hl : ∀ e ∈ l, e.1.1.isSome ∧ e.1.2.1.isSome) (s : AlarmObject) :
    let registered := Stage.chain (l.map fun e =>
      registerCallback (res e.2) e.1.1 e.1.2.1 e.1.2.2) s
    registered.2 ≠ none ∧
      (registered.2 = some true ↔ ∀ e ∈ l, (res e.2).accepted = true) ∧
      (registered.2 = some true → registered.1 =
        { s with registered := s.registered ++ (l.map Prod.fst).filterMap registration }) := by
  induction l generalizing s with
  | nil => simp
  | cons e l ih =>
    obtain ⟨⟨objectNodeId, methodNodeId, callback⟩, idx⟩ := e
    obtain ⟨he, hrest⟩ := List.forall_mem_cons.mp hl
    obtain ⟨o, rfl⟩ := Option.isSome_iff_exists.mp he.1
    obtain ⟨m, rfl⟩ := Option.isSome_iff_exists.mp he.2
    simp only [List.map_cons, List.forall_mem_cons]
    by_cases haccepted : (res idx).accepted = true
    · have hfirst : registerCallback (res idx) (some o) (some m) callback s =
          ({ s with registered := s.registered ++ [(o, m, callback)] }, some true) := if_pos haccepted
      rw [Stage.chain_cons_of_true (by rw [hfirst]), hfirst]
      obtain ⟨hdefined, htrue, hstate⟩ := ih hrest
        { s with registered := s.registered ++ [(o, m, callback)] }
      refine ⟨hdefined, ?_, ?_⟩
      · rw [htrue]
        exact (and_iff_right haccepted).symm
      · intro h
        rw [hstate h]
        simp [registration]
    · have hfirst : registerCallback (res idx) (some o) (some m) callback s = (s, some false) :=
        if_neg haccepted
      rw [Stage.chain_cons_of_not (by simp [hfirst]), hfirst]
      exact ⟨by simp, by simp [haccepted], by simp⟩

theorem registerCallbacks_of_known {s : AlarmObject} (h : Known s)
    (res : ℕ → RegisterForwardResponse) :
    (registerCallbacks res s).2 ≠ none ∧
      ((registerCallbacks res s).2 = some true ↔ ∀ idx < 7, (res idx).accepted = true) ∧
      ((registerCallbacks res s).2 = some true → (registerCallbacks res s).1 =
        { s with registered := s.registered ++ registrations s }) := by
  have hl : ∀ e ∈ (callbacks s).zipIdx, e.1.1.isSome ∧ e.1.2.1.isSome := by
    intro e he
    exact h.callbacks e.1 (List.fst_mem_of_mem_zipIdx he)
  obtain ⟨hdefined, htrue, hstate⟩ := registerCallback_chain res _ hl s
  refine ⟨hdefined, ?_, ?_⟩
  · refine htrue.trans ⟨?_, ?_⟩
    · intro hall idx hidx
      have hlength : idx < (callbacks s).length := hidx
      exact hall ((callbacks s)[idx], idx) (List.mk_mem_zipIdx_iff_getElem?.mpr (by simp [hlength]))
    · intro hall e he
      exact hall e.2 (List.snd_lt_of_mem_zipIdx he)
  · intro hregistered
    have hall := hstate hregistered
    rwa [List.zipIdx_map_fst] at hall

/-- The three requests before the registrations. -/
def requests (b : AlarmServiceBehaviour) : List (Stage AlarmObject) :=
  [getNamespaceInfo b.namespaceInfo, getNodeIds b.nodeIds, createNodeReferences b.references]

/-- The object once they are answered. -/
def found (b : AlarmServiceBehaviour) (namespaceIndex : ℕ) (s : AlarmObject) : AlarmObject :=
  { s with
    namespaceIndex := namespaceIndex
    rootNodeId := some (nodeIdString "AlarmObject" namespaceIndex)
    nodeIds := (readResponse b.nodeIds 15 s.nodeIds).1
    references := (readResponse b.references 10 s.references).1 }

theorem getNodeIds_eq (res : BrowsePathToNodeIdResponse) (s : AlarmObject) :
    getNodeIds res s =
      ({ s with
          rootNodeId := some (nodeIdString "AlarmObject" s.namespaceIndex)
          nodeIds := (readResponse res 15 s.nodeIds).1 }, (readResponse res 15 s.nodeIds).2) := by
  unfold getNodeIds
  rw [Stage.chain_cons_always, Stage.chain_singleton]
  rfl

section Requests
variable {b : AlarmServiceBehaviour} {namespaceIndex : ℕ}

theorem requests_of_answers (hfound : firstNamespaceIndex uri b.namespaceInfo = some namespaceIndex)
    {nodeIds : List NodeId} (hids : b.nodeIds.Complete 15 nodeIds) {references : List NodeRef}
    (hrefs : b.references.Complete 10 references) (s : AlarmObject) :
    Stage.chain (requests b) s = (found b namespaceIndex s, some true) := by
  have hinfo : getNamespaceInfo b.namespaceInfo s =
      ({ s with namespaceIndex := namespaceIndex }, some true) :=
    findNamespace_of_eq_some _ hfound s
  have hidsTrue (s : AlarmObject) : (getNodeIds b.nodeIds s).2 = some true := by
    rw [getNodeIds_eq]
    exact (readResponse_true_iff ..).mpr ⟨nodeIds, hids⟩
  have hrefsTrue (s : AlarmObject) : (createNodeReferences b.references s).2 = some true :=
    (readResponse_true_iff ..).mpr ⟨references, hrefs⟩
  unfold requests
  rw [Stage.chain_cons_of_true (by rw [hinfo]), hinfo, Stage.chain_cons_of_true (hidsTrue _),
    getNodeIds_eq, Stage.chain_cons_of_true (hrefsTrue _)]
  rfl

theorem requests_true_iff (s : AlarmObject) :
    (Stage.chain (requests b) s).2 = some true ↔
      (∃ namespaceIndex, firstNamespaceIndex uri b.namespaceInfo = some namespaceIndex) ∧
        (∃ nodeIds, b.nodeIds.Complete 15 nodeIds) ∧
          ∃ references, b.references.Complete 10 references := by
  constructor
  · intro h
    obtain ⟨hinfo, h⟩ := (Stage.chain_cons_true_iff ..).mp h
    obtain ⟨hids, h⟩ := (Stage.chain_cons_true_iff ..).mp h
    obtain ⟨hrefs, -⟩ := (Stage.chain_cons_true_iff ..).mp h
    rw [getNodeIds_eq] at hids
    exact ⟨(findNamespace_true_iff _ _ s).mp hinfo, (readResponse_true_iff ..).mp hids,
      (readResponse_true_iff ..).mp hrefs⟩
  · rintro ⟨⟨namespaceIndex, hfound⟩, ⟨nodeIds, hids⟩, references, hrefs⟩
    rw [requests_of_answers hfound hids hrefs]

theorem requests_ne_none (s : AlarmObject) : (Stage.chain (requests b) s).2 ≠ none := by
  refine Stage.chain_ne_none ?_ s
  intro f hf s
  obtain rfl | rfl | rfl : f = _ ∨ f = _ ∨ f = _ := by simpa [requests] using hf
  · exact findNamespace_ne_none _ _ s
  · rw [getNodeIds_eq]
    exact readResponse_ne_none b.nodeIds 15 s.nodeIds
  · exact readResponse_ne_none b.references 10 s.references

/-- A complete browse answer sets the pointers. -/
theorem found_known {nodeIds : List NodeId} (hids : b.nodeIds.Complete 15 nodeIds)
    (s : AlarmObject) : Known (found b namespaceIndex s) := by
  refine ⟨rfl, ?_⟩
  intro idx hidx
  have hlt : idx < nodeIds.length := by
    rw [hids.length]
    exact hidx
  change ((readResponse b.nodeIds 15 s.nodeIds).1 idx).isSome
  rw [readResponse_complete hids s.nodeIds idx hidx, List.getElem?_eq_getElem hlt]
  rfl

end Requests

section Startup
variable (live : NodeRef → Bool) (uninitialised : Bool) {b : AlarmServiceBehaviour}

/-- The requests and the registrations, before anything is stored in a node. -/
def preparation (b : AlarmServiceBehaviour) : Stage AlarmObject :=
  Stage.chain [Stage.chain (requests b), registerCallbacks b.registerMethod]

theorem startup_eq (s : AlarmObject) :
    startup live uninitialised b s = Stage.chain
      [ preparation b,
        fun s => (s.store (started (accessors live uninitialised s) s.nodes), some true),
        startTimerLoop ] s := by
  unfold preparation
  rw [Stage.chain_cons_chain, List.cons_append, Stage.chain_cons_chain]
  rfl

theorem preparation_ne_none (s : AlarmObject) : (preparation b s).2 ≠ none := by
  unfold preparation
  by_cases h : (Stage.chain (requests b) s).2 = some true
  · obtain ⟨⟨namespaceIndex, hfound⟩, ⟨nodeIds, hids⟩, references, hrefs⟩ :=
      (requests_true_iff s).mp h
    rw [Stage.chain_cons_of_true h, Stage.chain_singleton, requests_of_answers hfound hids hrefs]
    exact (registerCallbacks_of_known (found_known hids s) _).1
  · rw [Stage.chain_cons_of_not h]
    exact requests_ne_none s

theorem preparation_true_iff (s : AlarmObject) :
    (preparation b s).2 = some true ↔
      ∃ namespaceIndex nodeIds references, Complete b namespaceIndex nodeIds references := by
  unfold preparation
  rw [Stage.chain_cons_true_iff, Stage.chain_singleton, requests_true_iff]
  constructor
  · rintro ⟨⟨⟨namespaceIndex, hfound⟩, ⟨nodeIds, hids⟩, references, hrefs⟩, hregister⟩
    rw [requests_of_answers hfound hids hrefs] at hregister
    have haccepted := (registerCallbacks_of_known (found_known hids s) _).2.1.mp hregister
    exact ⟨namespaceIndex, nodeIds, references, hfound, hids, hrefs, haccepted⟩
  · rintro ⟨namespaceIndex, nodeIds, references, h⟩
    refine ⟨⟨⟨_, h.namespaceFound⟩, ⟨_, h.nodeIds⟩, _, h.references⟩, ?_⟩
    rw [requests_of_answers h.namespaceFound h.nodeIds h.references]
    exact (registerCallbacks_of_known (found_known h.nodeIds s) _).2.1.mpr h.accepted

theorem preparation_of_complete {namespaceIndex : ℕ} {nodeIds : List NodeId}
    {references : List NodeRef} (h : Complete b namespaceIndex nodeIds references)
    (s : AlarmObject) :
    (preparation b s).1 = { found b namespaceIndex s with
      registered := s.registered ++ registrations (found b namespaceIndex s) } := by
  obtain ⟨-, htrue, hstate⟩ := registerCallbacks_of_known
    (found_known h.nodeIds s : Known (found b namespaceIndex s)) b.registerMethod
  unfold preparation
  have hrequests := requests_of_answers h.namespaceFound h.nodeIds h.references s
  rw [Stage.chain_cons_of_true (by rw [hrequests]), hrequests, Stage.chain_singleton,
    hstate (htrue.mpr h.accepted)]
  rfl

/-- What holds before the requests and the registrations and does not speak of what they store
holds after them, wherever they stop. -/
theorem preparation_preserves {I : AlarmObject → Prop}
    (hinfo : ∀ s namespaceIndex, I s → I { s with namespaceIndex := namespaceIndex })
    (hids : ∀ s rootNodeId nodeIds, I s →
      I { s with rootNodeId := rootNodeId, nodeIds := nodeIds })
    (hrefs : ∀ s, I s → I { s with references := (readResponse b.references 10 s.references).1 })
    (hregister : ∀ s registered, I s → I { s with registered := registered })
    {s : AlarmObject} (hs : I s) : I (preparation b s).1 := by
  refine Stage.chain_preserves (I := I) ?_ hs
  intro f hf s hs
  obtain rfl | rfl : f = _ ∨ f = _ := by simpa using hf
  · refine Stage.chain_preserves (I := I) ?_ hs
    intro f hf s hs
    obtain rfl | rfl | rfl : f = _ ∨ f = _ ∨ f = _ := by simpa [requests] using hf
    · unfold getNamespaceInfo findNamespace
      cases firstNamespaceIndex uri b.namespaceInfo with
      | none => exact hs
      | some namespaceIndex => exact hinfo s namespaceIndex hs
    · rw [getNodeIds_eq]
      exact hids s _ _ hs
    · exact hrefs s hs
  · refine Stage.chain_preserves (I := I) ?_ hs
    refine List.forall_mem_map.mpr fun e _ s hs => ?_
    unfold registerCallback
    cases e.1.1 with
    | none => exact hs
    | some objectNodeId =>
      cases e.1.2.1 with
      | none => exact hs
      | some methodNodeId =>
        dsimp only
        split_ifs
        · exact hregister s _ hs
        · exact hs

/-- Neither the requests nor the registrations touch the nodes or the timer. -/
theorem preparation_frame (s : AlarmObject) :
    (preparation b s).1.contents = s.contents ∧ (preparation b s).1.slotTimer = s.slotTimer ∧
      (preparation b s).1.slotTimerElement = s.slotTimerElement :=
  preparation_preserves (I := fun s' => s'.contents = s.contents ∧ s'.slotTimer = s.slotTimer ∧
      s'.slotTimerElement = s.slotTimerElement)
    (fun _ _ h => h) (fun _ _ _ h => h) (fun _ h => h) (fun _ _ h => h) ⟨rfl, rfl, rfl⟩

/-- A startup that gives up has stored nothing and started no timer. -/
theorem startup_frame_of_not {s : AlarmObject}
    (h : (startup live uninitialised b s).2 ≠ some true) :
    (startup live uninitialised b s).1.contents = s.contents ∧
      (startup live uninitialised b s).1.slotTimer = s.slotTimer ∧
      (startup live uninitialised b s).1.slotTimerElement = s.slotTimerElement := by
  rw [startup_eq] at h ⊢
  by_cases htrue : (preparation b s).2 = some true
  · rw [Stage.chain_cons_of_true htrue, Stage.chain_cons_always, Stage.chain_singleton] at h
    exact absurd rfl h
  · rw [Stage.chain_cons_of_not htrue]
    exact preparation_frame s

/-- What the defaults leave behind the references. -/
theorem defaults_contents (s : AlarmObject) (reference : NodeRef) (k : AlarmNode) :
    (s.store (started (accessors live uninitialised s) s.nodes)).contents reference k =
      if s.references k.position = some reference ∧ live reference = true then defaultNodes k
      else s.contents reference k := by
  by_cases hreference : s.references k.position = some reference
  · simp [AlarmObject.store, AlarmObject.nodes, started_apply, accessors, hreference]
  · simp [AlarmObject.store, hreference]

/-- A startup never reads through a null pointer, and returns true exactly if all answers are
complete. Each member then holds what came back for it, the seven methods are registered, the
nine nodes whose references can be locked hold their defaults, and the timer is started;
otherwise nodes and timer are untouched. -/
theorem alarm_startup_iff (b : AlarmServiceBehaviour) (s : AlarmObject) :
    let after := (startup live uninitialised b s).1
    (startup live uninitialised b s).2 ≠ none ∧
    ((startup live uninitialised b s).2 = some true ↔
      ∃ namespaceIndex nodeIds references, Complete b namespaceIndex nodeIds references) ∧
    ((startup live uninitialised b s).2 ≠ some true →
      after.contents = s.contents ∧ after.slotTimer = s.slotTimer ∧
        after.slotTimerElement = s.slotTimerElement) ∧
    ∀ namespaceIndex nodeIds references, Complete b namespaceIndex nodeIds references →
      after.rootNodeId = some (nodeIdString "AlarmObject" namespaceIndex) ∧
      (∀ idx < 15, after.nodeIds idx = nodeIds[idx]?) ∧
      (∀ idx < 10, after.references idx = references[idx]?) ∧
      (after.registered = s.registered ++ registrations after ∧ (registrations after).length = 7) ∧
      (∀ reference k, after.contents reference k =
        if references[k.position]? = some reference ∧ live reference = true then defaultNodes k
        else s.contents reference k) ∧
      after.slotTimer = s.slotTimer.start 60000 ∧
      after.slotTimerElement = some s.slotTimer.elements.length := by
  intro after
  have hafter : after = (startup live uninitialised b s).1 := rfl
  have hframe := startup_frame_of_not live uninitialised (b := b) (s := s)
  have hchain := startup_eq live uninitialised (b := b) s
  by_cases htrue : (preparation b s).2 = some true
  · rw [Stage.chain_cons_of_true htrue, Stage.chain_cons_always, Stage.chain_singleton] at hchain
    have hcomplete := (preparation_true_iff s).mp htrue
    rw [hchain] at hafter ⊢
    refine ⟨Option.some_ne_none _, iff_of_true rfl hcomplete, fun h => absurd rfl h, ?_⟩
    intro namespaceIndex nodeIds references h
    rw [preparation_of_complete h] at hafter
    have hknown : Known (found b namespaceIndex s) := found_known h.nodeIds s
    have hreferences := readResponse_complete h.references s.references
    rw [hafter]
    refine ⟨rfl, readResponse_complete h.nodeIds _, hreferences,
      ⟨rfl, hknown.registrations_length⟩, ?_, rfl, rfl⟩
    intro reference k
    rw [← hreferences k.position (position_lt k)]
    exact defaults_contents ..
  · rw [Stage.chain_cons_of_not htrue] at hchain
    have hincomplete := mt (preparation_true_iff s).mpr htrue
    refine ⟨?_, ?_, hframe,
      fun namespaceIndex nodeIds references h => absurd ⟨_, _, _, h⟩ hincomplete⟩
    · rw [hchain]
      exact preparation_ne_none s
    · rw [hchain]
      exact preparation_true_iff s

end Startup

end Alarm

end ASNeGDemo
