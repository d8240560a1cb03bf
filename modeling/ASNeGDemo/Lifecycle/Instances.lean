import ASNeGDemo.Lifecycle.Module
import ASNeGDemo.TestFolderLib.AsMap
import ASNeGDemo.TestStatusCode.Layout

/-! `TestFolderLib` and `TestStatusCode` as modules. -/
namespace ASNeGDemo

variable {P : Platform}

namespace TestFolderLib

/-- The namespace found in the table and the value map made in it. -/
def fill (b : ServiceBehaviour) (now : DateTime) (s : State P) : State P :=
  (createValueMap now { s with
    namespaceIndex := namespaceIndexOf uri b.namespaceInfo.index2NamespaceMap s.namespaceIndex }).1

def client (s : State P) : Client P := { s.toMembers with requested := s.valueVec }

@[simp] theorem client_toMembers (s : State P) : (client s).toMembers = s.toMembers := rfl

def invoke (s : State P) : Callback P → State P
  | .writeValue n dataValue => (writeValue s n dataValue).1
  | callback => { s with loop := s.loop.invoke callback }

/-- The insertions leave everything but the value map and the cells alone. -/
theorem foldl_insertValue_eq (now : DateTime) (l : List (ℕ × Variant (Value P))) (s : State P) :
    ∃ es : List (NodeId × ℕ),
      es.map Prod.fst = l.map (fun e => nodeId e.1 s.namespaceIndex) ∧
      ∃ cells, l.foldl (insertValue now) s =
        { s with
          valueMap := s.valueMap.insertAll es
          cells := cells } := by
  induction l generalizing s with
  | nil => exact ⟨[], rfl, s.cells, rfl⟩
  | cons e l ih =>
    obtain ⟨es, hes, cells, heq⟩ := ih (insertValue now s e)
    refine ⟨(nodeId e.1 s.namespaceIndex, s.cells.next) :: es, ?_, cells, heq⟩
    rw [List.map_cons, hes, List.map_cons]
    rfl

/-- What filling the value map changes. -/
theorem fill_eq (b : ServiceBehaviour) (now : DateTime) (s : State P) :
    ∃ es : List (NodeId × ℕ),
      es.map Prod.fst = (List.range' 200 36).map (nodeId · (fill b now s).namespaceIndex) ∧
      ∃ cells, fill b now s = { s with
        namespaceIndex := namespaceIndexOf uri b.namespaceInfo.index2NamespaceMap s.namespaceIndex
        valueMap := s.valueMap.insertAll es
        valueVec := s.valueVec ++ (s.valueMap.insertAll es).keys
        cells := cells } := by
  obtain ⟨es, hes, cells, heq⟩ := foldl_insertValue_eq now (initialValues P now) { s with
    namespaceIndex := namespaceIndexOf uri b.namespaceInfo.index2NamespaceMap s.namespaceIndex }
  have hids : (initialValues P now).map Prod.fst = List.range' 200 36 := rfl
  refine ⟨es, ?_, cells, ?_⟩
  · rw [← hids, List.map_map, hes]
    simp only [fill, createValueMap, heq]
    rfl
  · simp only [fill, createValueMap, heq]

theorem fill_valueMap (b : ServiceBehaviour) (now : DateTime) (s : State P) :
    ∃ es : List (NodeId × ℕ),
      es.map Prod.fst = (List.range' 200 36).map (nodeId · (fill b now s).namespaceIndex) ∧
      (fill b now s).valueMap = s.valueMap.insertAll es := by
  obtain ⟨es, hes, cells, heq⟩ := fill_eq b now s
  refine ⟨es, hes, ?_⟩
  rw [heq]

theorem fill_others (b : ServiceBehaviour) (now : DateTime) (s : State P) :
    (fill b now s).namespaceIndex =
        namespaceIndexOf uri b.namespaceInfo.index2NamespaceMap s.namespaceIndex ∧
      (fill b now s).baseNodeClassWMap = s.baseNodeClassWMap ∧
      (fill b now s).loop = s.loop ∧
      (fill b now s).valueVec = s.valueVec ++ (fill b now s).valueMap.keys := by
  obtain ⟨es, -, cells, heq⟩ := fill_eq b now s
  rw [heq]
  exact ⟨rfl, rfl, rfl, rfl⟩

theorem startup_connect (b : ServiceBehaviour) (now : DateTime) (s : State P)
    (h : b.namespaceInfo.statusCode = .success) :
    connect b b.nodeReferences (client (fill b now s)) =
      (client (startup b now s).1, (startup b now s).2) := by
  have hname : getNamespaceInfo b.namespaceInfo s = ({ s with
      namespaceIndex := namespaceIndexOf uri b.namespaceInfo.index2NamespaceMap s.namespaceIndex },
      some true) := if_pos h
  rw [startup, Stage.chain_cons_of_true, hname, Stage.chain_cons_of_true]
  · rw [connect, request, Stage.chain_cons_chain]
    refine Stage.chain_simulates client ?_ (fill b now s)
    refine .cons (fun s => rfl) (.cons (fun s => rfl) (.cons (fun s => ?_) ?_))
    · unfold createNodeReferences
      split_ifs <;> rfl
    · exact .cons (fun s => rfl) .nil
  · rfl
  · rw [hname]

/-- The class as a module. -/
def module (P : Platform) : Module P (State P) DateTime where
  uri := uri
  construct := construct P
  fill := fill
  startup := startup
  shutdown := shutdown
  invoke := invoke
  client := client
  read := id
  construct_empty _ := ⟨rfl, rfl, rfl⟩
  fill_namespaceIndex b now s := (fill_others b now s).1
  fill_valueMap := fill_valueMap
  fill_others b now s := ⟨(fill_others b now s).2.1, (fill_others b now s).2.2.1⟩
  requested_construct b now env := by
    have hvec := (fill_others b now (construct P env).1).2.2.2
    rwa [show (construct P env).1.valueVec = [] from rfl, List.nil_append] at hvec
  read_results _ := rfl
  startup_refused b now s h := by
    have hname : getNamespaceInfo b.namespaceInfo s = (s, some false) := if_neg h
    rw [startup, Stage.chain_cons_of_not (by simp [hname]), hname]
  startup_connect := startup_connect
  shutdown_eq _ := rfl
  invoke_loop s callback := by
    cases callback with
    | writeValue n dataValue => simp only [invoke, writeValue, LoopTimer.invoke]; split <;> rfl
    | _ => rfl

end TestFolderLib

namespace TestStatusCode

/-- The namespace found in the table and the value map made in it. -/
def fill (b : ServiceBehaviour) (env : Env) (s : State P) : State P :=
  (createValueMap { s with
    namespaceIndex := namespaceIndexOf uri b.namespaceInfo.index2NamespaceMap s.namespaceIndex }
    env).1

def client (s : State P) : Client P := { s.toMembers with requested := s.valueMap.keys }

@[simp] theorem client_toMembers (s : State P) : (client s).toMembers = s.toMembers := rfl

def invoke (s : State P) : Callback P → State P
  | .writeValue n dataValue => (writeValue s n dataValue).1
  | callback => { s with loop := s.loop.invoke callback }

/-- A reference and its status come in one object here. -/
def paired (res : NodeReferenceResponse) : NodeReferenceResponse :=
  { res with
    statuses := res.results.map Prod.fst
    nodeReferences := res.results.map Prod.snd }

theorem fill_valueMap (b : ServiceBehaviour) (env : Env) (s : State P) :
    ∃ es : List (NodeId × ℕ),
      es.map Prod.fst = (List.range' 200 36).map (nodeId · (fill b env s).namespaceIndex) ∧
      (fill b env s).valueMap = s.valueMap.insertAll es := by
  have hfilled := createValueMap_filled { s with
    namespaceIndex := namespaceIndexOf uri b.namespaceInfo.index2NamespaceMap s.namespaceIndex } env
  have hns := hfilled.namespaceIndex
  obtain ⟨es, hes, cells, heap, heq⟩ := hfilled
  refine ⟨es, ?_, ?_⟩
  · rw [hes, fill, hns]
  · rw [fill, heq]

theorem fill_others (b : ServiceBehaviour) (env : Env) (s : State P) :
    (fill b env s).namespaceIndex =
        namespaceIndexOf uri b.namespaceInfo.index2NamespaceMap s.namespaceIndex ∧
      (fill b env s).baseNodeClassWMap = s.baseNodeClassWMap ∧ (fill b env s).loop = s.loop := by
  obtain ⟨es, -, cells, heap, heq⟩ := createValueMap_filled { s with
    namespaceIndex := namespaceIndexOf uri b.namespaceInfo.index2NamespaceMap s.namespaceIndex } env
  rw [fill, heq]
  exact ⟨rfl, rfl, rfl⟩

theorem startup_connect (b : ServiceBehaviour) (env : Env) (s : State P)
    (h : b.namespaceInfo.statusCode = .success) :
    connect b (paired b.nodeReferences) (client (fill b env s)) =
      (client (startup b env s).1, (startup b env s).2) := by
  have hname : getNamespaceInfo b.namespaceInfo s = ({ s with
      namespaceIndex := namespaceIndexOf uri b.namespaceInfo.index2NamespaceMap s.namespaceIndex },
      some true) := if_pos h
  rw [startup, Stage.chain_cons_of_true, hname, Stage.chain_cons_always, ← fill]
  · rw [connect, request, Stage.chain_cons_chain]
    refine Stage.chain_simulates client ?_ (fill b env s)
    refine .cons (fun s => rfl) (.cons (fun s => rfl) (.cons (fun s => ?_) ?_))
    · unfold createNodeReferences paired
      split_ifs <;> rfl
    · exact .cons (fun s => rfl) .nil
  · rw [hname]

/-- The class as a module. -/
def module (P : Platform) : Module P (State P) Env where
  uri := uri
  construct := construct P
  fill := fill
  startup := startup
  shutdown := shutdown
  invoke := invoke
  client := client
  read := paired
  construct_empty _ := ⟨rfl, rfl, rfl⟩
  fill_namespaceIndex b env s := by
    rw [client_toMembers]
    exact (fill_others b env s).1
  fill_valueMap b env s := by
    rw [client_toMembers]
    exact fill_valueMap b env s
  fill_others b env s := by
    rw [client_toMembers]
    exact (fill_others b env s).2
  requested_construct b env env' := by
    rw [client]
  read_results res := by
    exact (List.zip_of_prod rfl rfl).symm
  startup_refused b env s h := by
    have hname : getNamespaceInfo b.namespaceInfo s = (s, some false) := if_neg h
    rw [startup, Stage.chain_cons_of_not (by simp [hname]), hname]
  startup_connect := startup_connect
  shutdown_eq _ := rfl
  invoke_loop s callback := by
    cases callback with
    | writeValue n dataValue => simp only [invoke, writeValue, LoopTimer.invoke]; split <;> rfl
    | _ => rfl

end TestStatusCode

end ASNeGDemo
