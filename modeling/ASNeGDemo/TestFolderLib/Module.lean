import ASNeGDemo.General.Memory
import ASNeGDemo.General.Runs
import ASNeGDemo.LoopTimer
import ASNeGDemo.TestFolderLib.Update

/-! The class `TestFolderLib`: its members, its startup, its callbacks and its timer. -/
namespace ASNeGDemo.TestFolderLib

/-- The object. `cells` are the data values behind the pointers of the value map. -/
structure State (P : Platform) extends Members P where
  valueVec : List NodeId
  cells : Memory (DataValue (Value P))

variable {P : Platform}

/-- A data value no pointer leads to. -/
def noDataValue (P : Platform) : DataValue (Value P) := ⟨.null, .success, 0, 0⟩

/-- The object the constructor leaves behind. -/
def construct (P : Platform) : Sim (State P) := do
  let loop ← LoopTimer.construct P
  return {
    namespaceIndex := 0
    valueMap := .empty
    valueVec := []
    baseNodeClassWMap := .empty
    loop := loop
    cells := ⟨fun _ => noDataValue P, 0⟩ }

def intArray (P : Platform) (t : IntType) : Variant (Value P) :=
  .array (.int t) [t.wrap 0, t.wrap 1, t.wrap 2]

/-- The identifiers of the nodes and the initial values of their variables. -/
def initialValues (P : Platform) (now : DateTime) : List (ℕ × Variant (Value P)) :=
  [ (200, .scalar (.int .sByte) (IntType.wrap .sByte 11)),
    (201, intArray P .sByte),
    (202, .scalar (.int .byte) (IntType.wrap .byte 32)),
    (203, intArray P .byte),
    (204, .scalar (.int .int16) (IntType.wrap .int16 25)),
    (205, intArray P .int16),
    (206, .scalar (.int .uint16) (IntType.wrap .uint16 50)),
    (207, intArray P .uint16),
    (208, .scalar (.int .int32) (IntType.wrap .int32 180)),
    (209, intArray P .int32),
    (210, .scalar (.int .uint32) (IntType.wrap .uint32 180)),
    (211, intArray P .uint32),
    (212, .scalar (.int .int64) (IntType.wrap .int64 0)),
    (213, intArray P .int64),
    (214, .scalar (.int .uint64) (IntType.wrap .uint64 1500)),
    (215, intArray P .uint64),
    (216, .scalar .float (P.rounded (P.ofInt 500))),
    (217, .array .float [P.rounded (P.ofDecimal 0.0), P.rounded (P.ofDecimal 6.7),
      P.rounded (P.ofDecimal 10.1)]),
    (218, .scalar .double (P.ofInt 500)),
    (219, .array .double [P.ofDecimal 0.0, P.ofDecimal 6.7, P.ofDecimal 10.1]),
    (220, .scalar .boolean true),
    (221, .array .boolean [false, false, false]),
    (222, .scalar .string (some "TestString")),
    (223, .array .string [some "TestString1", some "TestString2", some "TestString3"]),
    (224, .scalar .byteString (some (bytes "TestByteString"))),
    (225, .array .byteString [some (bytes "TestByteString1"), some (bytes "TestByteString2"),
      some (bytes "TestByteString3")]),
    (226, .scalar .localizedText ⟨"de", "Text"⟩),
    (227, .array .localizedText [⟨"de", "Test1"⟩, ⟨"de", "Test2"⟩, ⟨"de", "Test3"⟩]),
    (228, .scalar .dateTime now),
    (229, .array .dateTime [now, now, now]),
    (230, .scalar .guid initialGuid),
    (231, .array .guid [initialGuid, initialGuid, initialGuid]),
    (232, .scalar .nodeId (nodeId 1 1)),
    (233, .array .nodeId [nodeId 1 1, nodeId 2 1, nodeId 3 1]),
    (234, .scalar .qualifiedName ⟨"Name", 1⟩),
    (235, .array .qualifiedName [⟨"Name1", 1⟩, ⟨"Name2", 1⟩, ⟨"Name3", 1⟩]) ]

/-- `valueMap_.insert` of a new data value. The cell is made before the map decides whether
the key is new. -/
def insertValue (now : DateTime) (s : State P) (e : ℕ × Variant (Value P)) : State P :=
  { s with
    valueMap := s.valueMap.insert (nodeId e.1 s.namespaceIndex) s.cells.next
    cells := s.cells.alloc ⟨e.2, .success, now, now⟩ }

def uri : String := "http://ASNeG-Demo.de/Test-Server-Lib/"

def getNamespaceInfo (res : NamespaceInfoResponse) : Stage (State P) := fun s =>
  if res.statusCode = .success then
    ({ s with
        namespaceIndex := namespaceIndexOf uri res.index2NamespaceMap s.namespaceIndex },
      some true)
  else (s, some false)

def createValueMap (now : DateTime) : Stage (State P) := fun s =>
  let s := (initialValues P now).foldl (insertValue now) s
  ({ s with valueVec := s.valueVec ++ s.valueMap.keys }, some true)

def registerCallbacks (res : RegisterForwardNodeResponse) : Stage (State P) := fun s =>
  (s, some (allRegistered res))

def registerLoopTimeCallbacks (uninitialised : StatusCode) (res : RegisterForwardNodeResponse) :
    Stage (State P) := fun s =>
  (s, some (firstRegistered uninitialised res))

def createNodeReferences (res : NodeReferenceResponse) : Stage (State P) := fun s =>
  if res.statusCode = .success then
    let saved := saveReferences s.valueVec res.statuses res.nodeReferences s.baseNodeClassWMap
    ({ s with baseNodeClassWMap := saved.1 }, saved.2)
  else (s, some false)

def startTimerLoop : Stage (State P) := fun s =>
  ({ s with loop := s.loop.startTimerLoop }, some true)

/-- `startup`, with the answers of the service and the clock reading of `createValueMap`. -/
def startup (b : ServiceBehaviour) (now : DateTime) : Stage (State P) :=
  Stage.chain
    [ getNamespaceInfo b.namespaceInfo,
      createValueMap now,
      registerCallbacks b.registerValues,
      registerLoopTimeCallbacks b.uninitialised b.registerLoopTime,
      createNodeReferences b.nodeReferences,
      startTimerLoop ]

def shutdown : Stage (State P) := fun s => (s, some true)

/-- The status code and, where the node is known, the copied data value. -/
def readValue (s : State P) (n : NodeId) : StatusCode × Option (DataValue (Value P)) :=
  match s.valueMap.find n with
  | none => (.badInternalError, none)
  | some cell => (.success, some (s.cells.read cell))

def writeValue (s : State P) (n : NodeId) (dataValue : DataValue (Value P)) :
    State P × StatusCode :=
  match s.valueMap.find n with
  | none => (s, .badInternalError)
  | some cell => ({ s with cells := s.cells.write cell dataValue }, .success)

/-- What `timerLoop` does with one data value: nothing where the reference is missing or
expired or the type is unknown, else the data value it stores and publishes. -/
def visit (references : OrderedMap NodeId NodeRef) (live : NodeRef → Bool) (n : NodeId)
    (dataValue : DataValue (Value P)) : Sim (Option (Publication P)) :=
  match references.find n with
  | none => return none
  | some reference =>
      if live reference then do
        return (← update dataValue).map fun d => ⟨n, reference, d⟩
      else return none

/-- One pass of the loop body. -/
def visitCell (references : OrderedMap NodeId NodeRef) (live : NodeRef → Bool)
    (acc : Memory (DataValue (Value P)) × List (Publication P)) (entry : NodeId × ℕ) :
    Sim (Memory (DataValue (Value P)) × List (Publication P)) := do
  match ← visit references live entry.1 (acc.1.read entry.2) with
  | none => return acc
  | some p => return (acc.1.write entry.2 p.dataValue, acc.2 ++ [p])

/-- `timerLoop`; `live` tells which references can still be locked. -/
def timerLoop (s : State P) (live : NodeRef → Bool) : Sim (State P × List (Publication P)) := do
  let (cells, published) ←
    s.valueMap.entries.foldlM (visitCell s.baseNodeClassWMap live) (s.cells, [])
  return ({ s with cells := cells }, published)

end ASNeGDemo.TestFolderLib
