import ASNeGDemo.Stack.Variant
import ASNeGDemo.General.Stages

/-!
What the library asks of its surroundings: the slot timer of the IO thread and the requests
to the application service. An answer of the service is a record of what came back; nothing
ties its length or its content to the request.
-/
namespace ASNeGDemo

structure TimerElement where
  interval : ℕ
  running : Bool
  deriving DecidableEq

/-- Every element ever started, in order; an element is named by its position. -/
structure SlotTimer where
  elements : List TimerElement
  deriving DecidableEq

namespace SlotTimer

def start (t : SlotTimer) (interval : ℕ) : SlotTimer := ⟨t.elements ++ [⟨interval, true⟩]⟩

def stop (t : SlotTimer) (element : ℕ) : SlotTimer :=
  ⟨t.elements.modify element fun e => { e with running := false }⟩

/-- The number of elements that were started and not stopped. -/
def running (t : SlotTimer) : ℕ := t.elements.countP (·.running)

@[simp] theorem running_start (t : SlotTimer) (interval : ℕ) :
    (t.start interval).running = t.running + 1 := by
  simp [running, start, List.countP_append]

end SlotTimer

/-- The weak pointer to a node of the address space, named by the node it was made for. -/
abbrev NodeRef := ℕ

/-- The reference of a node, as long as it can be locked. -/
def liveReference (references : OrderedMap NodeId NodeRef) (live : NodeRef → Bool)
    (n : NodeId) : Option NodeRef :=
  (references.find n).filter live

/-- A `setValueSync` on the node behind a reference, made for one node of the value map. -/
structure Publication (P : Platform) where
  nodeId : NodeId
  reference : NodeRef
  dataValue : DataValue (Value P)

/-- What happens to a module that is up: reads and writes of clients, and ticks of its timer.
A tick comes with the references that can be locked and with what it draws. -/
inductive Event (P : Platform) where
  | readValue (n : NodeId)
  | writeValue (n : NodeId) (dataValue : DataValue (Value P))
  | timerLoop (live : NodeRef → Bool) (env : Env)

inductive Answer (P : Platform) where
  | read (answer : StatusCode × Option (DataValue (Value P)))
  | written (statusCode : StatusCode)
  | published (publications : List (Publication P))

structure NamespaceInfoResponse where
  statusCode : StatusCode
  index2NamespaceMap : OrderedMap ℕ String

structure RegisterForwardNodeResponse where
  statusCode : StatusCode
  statusCodeArray : List StatusCode

/-- The results of a reference request; the two arrays are read side by side. -/
structure NodeReferenceResponse where
  statusCode : StatusCode
  statuses : List StatusCode
  nodeReferences : List NodeRef

/-- How the service answers the four requests of a startup. -/
structure ServiceBehaviour where
  namespaceInfo : NamespaceInfoResponse
  registerValues : RegisterForwardNodeResponse
  registerLoopTime : RegisterForwardNodeResponse
  nodeReferences : NodeReferenceResponse
  /-- What an `OpcUaStatusCode` holds before anything is stored in it. -/
  uninitialised : StatusCode

/-- The loop over the namespace table: the last index of the name wins. -/
def namespaceIndexOf (uri : String) (table : OrderedMap ℕ String) (namespaceIndex : ℕ) : ℕ :=
  table.entries.foldl (fun index e => if e.2 = uri then e.1 else index) namespaceIndex

/-- All nodes of a registration were accepted, as far as codes came back. -/
def allRegistered (res : RegisterForwardNodeResponse) : Bool :=
  res.statusCode = .success && res.statusCodeArray.all (· = .success)

/-- The one node of a registration was accepted; a missing code is read uninitialised. -/
def firstRegistered (uninitialised : StatusCode) (res : RegisterForwardNodeResponse) : Bool :=
  res.statusCode = .success && res.statusCodeArray.head?.getD uninitialised = .success

/-- The loop that checks and saves node references. An index behind the end of the status
array or of the requested nodes is undefined behaviour. -/
def saveReferences : List NodeId → List StatusCode → List NodeRef →
    OrderedMap NodeId NodeRef → OrderedMap NodeId NodeRef × Option Bool
  | _, _, [], map => (map, some true)
  | _, [], _ :: _, map => (map, none)
  | nodes, status :: statuses, reference :: references, map =>
      if status ≠ .success then (map, some false)
      else match nodes with
        | [] => (map, none)
        | node :: nodes => saveReferences nodes statuses references (map.insert node reference)

end ASNeGDemo
