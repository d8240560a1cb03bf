import ASNeGDemo.Stack.Variant

/-!
Reading the history of the `EventObject` node, `HistoricalAccess::readHEvent`. The events are
made up in each call, and each is read through the select clauses of the filter.
-/
namespace ASNeGDemo.HistoricalAccess

/-- An array of the stack: the size asked of `resize` and the values pushed since. -/
structure StackArray (α : Type) where
  capacity : ℕ
  values : List α

namespace StackArray
variable {α : Type}

def resized (capacity : ℕ) : StackArray α := ⟨capacity, []⟩

def pushBack (array : StackArray α) (value : α) : StackArray α :=
  { array with values := array.values ++ [value] }

theorem foldl_pushBack {β : Type} (f : β → α) (l : List β) (array : StackArray α) :
    l.foldl (fun array x => array.pushBack (f x)) array =
      ⟨array.capacity, array.values ++ l.map f⟩ := by
  induction l generalizing array with
  | nil => simp
  | cons x l ih =>
    rw [List.foldl_cons, ih]
    simp [pushBack]

theorem foldlM_pushBack {β γ : Type} (f : β → Sim γ) (g : γ → α) (l : List β)
    (array : StackArray α) (env : Env) :
    (l.foldlM (fun array x => do return array.pushBack (g (← f x))) array : Sim _) env =
      (⟨array.capacity, array.values ++ (l.mapM f env).1.map g⟩, (l.mapM f env).2) := by
  induction l generalizing array env with
  | nil => simp
  | cons x l ih =>
    rw [List.foldlM_cons, Sim.bind_apply, ih]
    simp [pushBack, List.mapM_cons]

end StackArray

/-- The fields of the event that are set here; the others are those of the event type. -/
structure BaseEventType (P : Platform) where
  eventId : Variant (Value P) := .null
  sourceNode : Variant (Value P) := .null
  sourceName : Variant (Value P) := .null
  time : Variant (Value P) := .null
  receiveTime : Variant (Value P) := .null
  message : Variant (Value P) := .null
  severity : Variant (Value P) := .null

structure SimpleAttributeOperand where
  typeId : NodeId
  browsePath : List QualifiedName

structure EventFilter where
  selectClauses : List SimpleAttributeOperand

inductive EventResult where
  | success
  | other (code : ℕ)
  deriving DecidableEq

/-- `EventBase::get`: the result code, what the call leaves in `value` (`none` is a null
pointer), and what it leaves of the browse names. -/
abbrev EventGet (P : Platform) := BaseEventType P → NodeId → List QualifiedName →
  EventResult × Option (Variant (Value P)) × List QualifiedName

structure EventField (P : Platform) where
  variant : Option (Variant (Value P))

abbrev HistoryEventFieldList (P : Platform) := StackArray (EventField P)

structure ApplicationHReadEventContext (P : Platform) where
  filter : EventFilter
  eventFieldArray : Option (StackArray (HistoryEventFieldList P))
  statusCode : StatusCode

def numberEvents : ℕ := 5

variable {P : Platform} (get : EventGet P)

/-- `boost::posix_time::microsec_clock::local_time()`. -/
def localTime : Sim DateTime := universalTime

/-- The event at a position of the history. `representation` gives the bytes of a `ptime`. -/
def createEvent (P : Platform) (representation : DateTime → Bytes) (namespaceIndex idx : ℕ) :
    Sim (BaseEventType P) := do
  let event : BaseEventType P := {}
  let event := { event with
    message := .scalar .localizedText ⟨"de", "BaseEventType: Event message " ++ toString idx⟩ }
  let event := { event with severity := .scalar (.int .uint16) (IntType.wrap .uint16 100) }
  let time ← localTime
  let event := { event with eventId := .scalar .byteString (some (representation time)) }
  let event := { event with
    sourceNode := .scalar .nodeId (nodeIdString "EventObject" namespaceIndex) }
  let event := { event with sourceName := .scalar .string (some "EventObject") }
  let event := { event with time := .scalar .dateTime (← localTime) }
  let event := { event with receiveTime := .scalar .dateTime (← localTime) }
  let event := { event with message := .scalar .localizedText ⟨"", "EventObject"⟩ }
  return { event with severity := .scalar (.int .uint16) (IntType.wrap .uint16 100) }

/-- The list that `get` may consume is a copy of the browse path. -/
def browseNameList (simpleAttributeOperand : SimpleAttributeOperand) : List QualifiedName :=
  simpleAttributeOperand.browsePath.foldl (fun browseNames browseName =>
    browseNames ++ [browseName]) []

/-- The field of one select clause. -/
def selectField (eventBase : BaseEventType P) (simpleAttributeOperand : SimpleAttributeOperand) :
    EventField P :=
  let result := get eventBase simpleAttributeOperand.typeId (browseNameList simpleAttributeOperand)
  if result.1 ≠ .success then ⟨some .null⟩ else ⟨result.2.1⟩

/-- The loop over the select clauses. -/
def filterEvent (eventFilter : EventFilter) (eventBase : BaseEventType P) :
    HistoryEventFieldList P :=
  eventFilter.selectClauses.foldl (fun eventFields simpleAttributeOperand =>
    eventFields.pushBack (selectField get eventBase simpleAttributeOperand))
    (.resized eventFilter.selectClauses.length)

def readHEvent (representation : DateTime → Bytes) (namespaceIndex : ℕ)
    (ctx : ApplicationHReadEventContext P) : Sim (ApplicationHReadEventContext P) := do
  let eventFieldArray ← (List.range numberEvents).foldlM (fun eventFieldArray idx => do
    let eventBase ← createEvent P representation namespaceIndex idx
    return eventFieldArray.pushBack (filterEvent get ctx.filter eventBase)) (.resized numberEvents)
  return { ctx with eventFieldArray := some eventFieldArray, statusCode := .success }

@[simp] theorem browseNameList_eq (simpleAttributeOperand : SimpleAttributeOperand) :
    browseNameList simpleAttributeOperand = simpleAttributeOperand.browsePath := by
  have hfold : ∀ (l acc : List QualifiedName),
      l.foldl (fun browseNames browseName => browseNames ++ [browseName]) acc = acc ++ l := by
    intro l
    induction l with
    | nil => simp
    | cons x l ih => simp [ih]
  exact (hfold simpleAttributeOperand.browsePath []).trans (List.nil_append _)

theorem filterEvent_eq (eventFilter : EventFilter) (eventBase : BaseEventType P) :
    filterEvent get eventFilter eventBase =
      ⟨eventFilter.selectClauses.length,
        eventFilter.selectClauses.map (selectField get eventBase)⟩ :=
  StackArray.foldl_pushBack ..

/-- The events that a call makes up. -/
def events (P : Platform) (representation : DateTime → Bytes) (namespaceIndex : ℕ) :
    Sim (List (BaseEventType P)) :=
  (List.range numberEvents).mapM (createEvent P representation namespaceIndex)

/-- A call makes up its events and filters one after the other. -/
theorem readHEvent_eq (representation : DateTime → Bytes) (namespaceIndex : ℕ)
    (ctx : ApplicationHReadEventContext P) (env : Env) :
    readHEvent get representation namespaceIndex ctx env =
      ({ ctx with
          eventFieldArray := some ⟨numberEvents,
            (events P representation namespaceIndex env).1.map (filterEvent get ctx.filter)⟩
          statusCode := .success },
        (events P representation namespaceIndex env).2) := by
  simp only [readHEvent, Sim.bind_apply, StackArray.foldlM_pushBack, Sim.pure_apply]
  rfl

end ASNeGDemo.HistoricalAccess
