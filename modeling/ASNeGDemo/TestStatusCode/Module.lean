import ASNeGDemo.General.Runs
import ASNeGDemo.LoopTimer
import ASNeGDemo.TestStatusCode.Update

/-! The class `TestStatusCode`: its members, its startup, its callbacks and its timer. -/
namespace ASNeGDemo.TestStatusCode

/-- The object. `cells` are the data values behind the pointers of the value map, `heap` the
elements behind the pointers of the data values. -/
structure State (P : Platform) extends Members P where
  switchTime : DateTime
  statusCode : StatusCode
  cells : Memory (DataValue (Slot P))
  heap : Heap P

variable {P : Platform}

/-- A data value no pointer leads to. -/
def noDataValue (P : Platform) : DataValue (Slot P) := ⟨.null, .success, 0, 0⟩

/-- An object no pointer leads to. -/
def noElement (P : Platform) : (t : BuildInType) → Value P t
  | .unknown => ()
  | .boolean => false
  | .int t => t.wrap 0
  | .float => P.rounded (P.ofInt 0)
  | .double => P.ofInt 0
  | .string => none
  | .dateTime => (0 : ℤ)
  | .guid => ⟨0, 0, 0, []⟩
  | .byteString => none
  | .nodeId => nodeId 0 0
  | .qualifiedName => ⟨"", 0⟩
  | .localizedText => ⟨"", ""⟩
  | .raw _ => []

/-- The object the constructor leaves behind. -/
def construct (P : Platform) : Sim (State P) := do
  let switchTime ← universalTime
  let loop ← LoopTimer.construct P
  return {
    namespaceIndex := 0
    valueMap := .empty
    baseNodeClassWMap := .empty
    loop := loop
    switchTime := switchTime
    statusCode := .success
    cells := ⟨fun _ => noDataValue P, 0⟩
    heap := fun t => ⟨fun _ => noElement P t, 0⟩ }

/-! ### The value map -/

/-- `for (uint32_t pos=0; pos<3;pos++) dataValue->variant()->pushBack(pos*factor)`. -/
def intArray (P : Platform) (t : IntType) (factor : ℤ) : Variant (Value P) :=
  .array (.int t) [t.wrap 0, t.wrap factor, t.wrap (2 * factor)]

def valuesTo220 (P : Platform) : List (ℕ × Variant (Value P)) :=
  [ (200, .scalar (.int .sByte) (IntType.wrap .sByte 11)),
    (201, intArray P .sByte 1),
    (202, .scalar (.int .byte) (IntType.wrap .byte 32)),
    (203, intArray P .byte 1),
    (204, .scalar (.int .int16) (IntType.wrap .int16 25)),
    (205, intArray P .int16 2),
    (206, .scalar (.int .uint16) (IntType.wrap .uint16 50)),
    (207, intArray P .uint16 3),
    (208, .scalar (.int .int32) (IntType.wrap .int32 180)),
    (209, intArray P .int32 4),
    (210, .scalar (.int .uint32) (IntType.wrap .uint32 180)),
    (211, intArray P .uint32 5),
    (212, .scalar (.int .int64) (IntType.wrap .int64 0)),
    (213, intArray P .int64 6),
    (214, .scalar (.int .uint64) (IntType.wrap .uint64 1500)),
    (215, intArray P .uint64 5),
    (216, .scalar .float (P.rounded (P.ofInt 500))),
    (217, .array .float ([0, 1, 2].map fun pos : ℤ =>
      P.rounded (P.mul (P.ofInt pos) (P.ofDecimal 6.7)))),
    (218, .scalar .double (P.ofInt 500)),
    (219, .array .double ([0, 1, 2].map fun pos : ℤ =>
      P.mul (P.ofInt pos) (P.ofDecimal 7.23))),
    (220, .scalar .boolean true) ]

def value221 (P : Platform) : ℕ × Variant (Value P) :=
  (221, .array .boolean [false, false, false])

def values223To225 (P : Platform) : List (ℕ × Variant (Value P)) :=
  [ (223, .array .string [some "string", some "string", some "string"]),
    (224, .scalar .byteString (some (bytes "string"))),
    (225, .array .byteString [some (bytes "string"), some (bytes "string"),
      some (bytes "string")]) ]

def valuesFrom230 (P : Platform) : List (ℕ × Variant (Value P)) :=
  [ (230, .scalar .guid initialGuid),
    (231, .array .guid [initialGuid, initialGuid, initialGuid]),
    (232, .scalar .nodeId (nodeId 1 1)),
    (233, .array .nodeId [nodeId 0 1, nodeId 1 1, nodeId 2 1]),
    (234, .scalar .qualifiedName ⟨"Name", 1⟩),
    (235, .array .qualifiedName [⟨"Name", 0⟩, ⟨"Name", 1⟩, ⟨"Name", 2⟩]) ]

/-- `valueMap_.insert`. -/
def insertCell (s : State P) (id cell : ℕ) : State P :=
  { s with valueMap := s.valueMap.insert (nodeId id s.namespaceIndex) cell }

/-- A block of `createValueMap`: a new data value with new elements, and its insertion. -/
def insertNew (s : State P) (id : ℕ) (content : Sim (Variant (Value P))) : Sim (State P) := do
  let dataValue ← createDataValue (Value P)
  let variant ← content
  let stored := DataValue.store s.heap { dataValue with variant := variant }
  return insertCell { s with cells := s.cells.alloc stored.1, heap := stored.2 } id s.cells.next

def insertValue (s : State P) (e : ℕ × Variant (Value P)) : Sim (State P) :=
  insertNew s e.1 (return e.2)

/-- The block of node 222. It makes no data value of its own, so the new string goes into the
one that `dataValue` still points to. -/
def insertString (dataValue : ℕ) (s : State P) : State P :=
  let str := (s.heap .string).next
  let stored := { s.cells.read dataValue with variant := .scalar .string (.ref str) }
  insertCell
    { s with cells := s.cells.write dataValue stored, heap := s.heap.alloc .string none }
    222 dataValue

/-- The block of node 226; it leaves the text object behind in `ltext`. -/
def insertText (s : State P) : Sim (State P) :=
  insertNew s 226 (return .scalar .localizedText ⟨"de", "text"⟩)

/-- The block of node 227. The loop makes a text object in each pass, but sets and pushes
`ltext`. -/
def insertTextArray (ltext : ℕ) (s : State P) : Sim (State P) := do
  let dataValue ← createDataValue (Slot P)
  let stored := { dataValue with
    variant := .array .localizedText [.ref ltext, .ref ltext, .ref ltext] }
  return insertCell { s with cells := s.cells.alloc stored } 227 s.cells.next

def insertDateTimes (s : State P) : Sim (State P) := do
  let time ← universalTime
  let s ← insertNew s 228 (return .scalar .dateTime time)
  insertNew s 229 (return .array .dateTime [← universalTime, ← universalTime, ← universalTime])

def createValueMap (s : State P) : Sim (State P) := do
  let s ← (valuesTo220 P).foldlM insertValue s
  let dataValue := s.cells.next
  let s ← insertValue s (value221 P)
  let s := insertString dataValue s
  let s ← (values223To225 P).foldlM insertValue s
  let ltext := (s.heap .localizedText).next
  let s ← insertText s
  let s ← insertTextArray ltext s
  let s ← insertDateTimes s
  (valuesFrom230 P).foldlM insertValue s

/-! ### Startup -/

def uri : String := "http://ASNeG-Demo.de/TestStatusCode/"

def getNamespaceInfo (res : NamespaceInfoResponse) : Stage (State P) := fun s =>
  if res.statusCode = .success then
    ({ s with
        namespaceIndex := namespaceIndexOf uri res.index2NamespaceMap s.namespaceIndex },
      some true)
  else (s, some false)

def registerCallbacks (res : RegisterForwardNodeResponse) : Stage (State P) := fun s =>
  (s, some (allRegistered res))

def registerLoopTimeCallbacks (uninitialised : StatusCode) (res : RegisterForwardNodeResponse) :
    Stage (State P) := fun s =>
  (s, some (firstRegistered uninitialised res))

/-- The results carry their status with them, and the nodes are those of the value map. -/
def createNodeReferences (res : NodeReferenceResponse) : Stage (State P) := fun s =>
  if res.statusCode = .success then
    let results := res.statuses.zip res.nodeReferences
    let saved := saveReferences s.valueMap.keys (results.map Prod.fst) (results.map Prod.snd)
      s.baseNodeClassWMap
    ({ s with baseNodeClassWMap := saved.1 }, saved.2)
  else (s, some false)

def startTimerLoop : Stage (State P) := fun s =>
  ({ s with loop := s.loop.startTimerLoop }, some true)

/-- `startup`, with the answers of the service and the clock of `createValueMap`. -/
def startup (b : ServiceBehaviour) (env : Env) : Stage (State P) :=
  Stage.chain
    [ getNamespaceInfo b.namespaceInfo,
      fun s => ((createValueMap s env).1, some true),
      registerCallbacks b.registerValues,
      registerLoopTimeCallbacks b.uninitialised b.registerLoopTime,
      createNodeReferences b.nodeReferences,
      startTimerLoop ]

def shutdown : Stage (State P) := fun s => (s, some true)

/-! ### Callbacks and timer -/

/-- The status code and, where the node is known, the copied data value. -/
def readValue (s : State P) (n : NodeId) : StatusCode × Option (DataValue (Value P)) :=
  match s.valueMap.find n with
  | none => (.badInternalError, none)
  | some cell => (.success, some ((s.cells.read cell).load s.heap))

/-- `copyTo` leaves the cell with elements of its own. -/
def writeValue (s : State P) (n : NodeId) (dataValue : DataValue (Value P)) :
    State P × StatusCode :=
  match s.valueMap.find n with
  | none => (s, .badInternalError)
  | some cell =>
      let stored := DataValue.store s.heap dataValue
      ({ s with cells := s.cells.write cell stored.1, heap := stored.2 }, .success)

def toggled : StatusCode → StatusCode
  | .success => .badNotConnected
  | .badNotConnected => .success
  | statusCode => statusCode

/-- The switch at the head of `timerLoop`; the clock is read a second time when it switches. -/
def switchStatus (s : State P) : Sim (State P) := do
  let now ← universalTime
  if s.switchTime + seconds 5 < now then
    let switchTime ← universalTime
    return { s with switchTime := switchTime, statusCode := toggled s.statusCode }
  else return s

/-- What the loop of `timerLoop` changes. -/
structure Pass (P : Platform) where
  cells : Memory (DataValue (Slot P))
  heap : Heap P
  published : List (Publication P)

/-- One pass of the loop body. -/
def visit (statusCode : StatusCode) (references : OrderedMap NodeId NodeRef)
    (live : NodeRef → Bool) (pass : Pass P) (entry : NodeId × ℕ) : Sim (Pass P) :=
  match liveReference references live entry.1 with
  | none => return pass
  | some reference => do
      match ← update statusCode pass.heap (pass.cells.read entry.2) with
      | none => return pass
      | some (dataValue, heap) => return {
          cells := pass.cells.write entry.2 dataValue
          heap := heap
          published := pass.published ++ [⟨entry.1, reference, dataValue.load heap⟩] }

/-- `timerLoop`; `live` tells which references can still be locked. -/
def timerLoop (s : State P) (live : NodeRef → Bool) : Sim (State P × List (Publication P)) := do
  let s ← switchStatus s
  let pass ← s.valueMap.entries.foldlM (visit s.statusCode s.baseNodeClassWMap live)
    ⟨s.cells, s.heap, []⟩
  return ({ s with cells := pass.cells, heap := pass.heap }, pass.published)

end ASNeGDemo.TestStatusCode
