import ASNeGDemo.Stack.Service

/-!
The loop time of `TestFolderLib` and `TestStatusCode`: the value a client reads and writes,
and the timer element that runs `timerLoop` at this period. Both classes have these members
and functions word for word.
-/
namespace ASNeGDemo

/-- A data value without a value, with a clock reading for each timestamp. -/
def createDataValue (ε : BuildInType → Type) : Sim (DataValue ε) := do
  let sourceTimestamp ← universalTime
  let serverTimestamp ← universalTime
  return ⟨.null, .success, sourceTimestamp, serverTimestamp⟩

/-- The literal of which both classes make their guids. -/
def initialGuid : Guid :=
  ⟨0x12345678, 0x9ABC, 0xDEF0, [0x12, 0x34, 0x56, 0x78, 0x9A, 0xBC, 0xDE, 0xF0]⟩

structure LoopTimer (P : Platform) where
  loopTime : DataValue (Value P)
  slotTimerElement : Option ℕ
  slotTimer : SlotTimer

namespace LoopTimer
variable {P : Platform}

def uint32Variant (P : Platform) (n : ℕ) : Variant (Value P) :=
  .scalar (.int .uint32) (IntType.wrap .uint32 n)

/-- `variant<OpcUaUInt32>()`; `none` where the variant holds something else and it throws. -/
def asUInt32 : Variant (Value P) → Option ℕ
  | .scalar (.int .uint32) v => some (Int.toNat v.val)
  | .array (.int .uint32) vs => (P.uint32OfArray vs).map fun v => Int.toNat v.val
  | _ => none

/-- The members as the constructors leave them. -/
def construct (P : Platform) : Sim (LoopTimer P) := do
  let loopTime ← createDataValue (Value P)
  return {
    loopTime := { loopTime with variant := uint32Variant P 0 }
    slotTimerElement := none
    slotTimer := ⟨[]⟩ }

/-- Construct, bind and start a new element with this period. -/
def startElement (l : LoopTimer P) (interval : ℕ) : LoopTimer P :=
  { l with
    slotTimerElement := some l.slotTimer.elements.length
    slotTimer := l.slotTimer.start interval }

/-- Stop and reset the element, if there is one. -/
def stopElement (l : LoopTimer P) : LoopTimer P :=
  match l.slotTimerElement with
  | some element => { l with slotTimerElement := none, slotTimer := l.slotTimer.stop element }
  | none => l

def startTimerLoop (l : LoopTimer P) : LoopTimer P :=
  startElement { l with loopTime := { l.loopTime with variant := uint32Variant P 1111 } } 1111

@[simp] theorem startTimerLoop_running (l : LoopTimer P) :
    l.startTimerLoop.slotTimer.running = l.slotTimer.running + 1 :=
  SlotTimer.running_start ..

def readLoopTimeValue (l : LoopTimer P) : StatusCode × DataValue (Value P) :=
  (.success, l.loopTime)

/-- `none` where reading the interval throws; the members are untouched then. -/
def writeLoopTimeValue (l : LoopTimer P) (dataValue : DataValue (Value P)) :
    Option (LoopTimer P × StatusCode) := do
  let interval ← asUInt32 dataValue.variant
  let (interval, dataValue) :=
    if interval < 100 then (100, { dataValue with variant := uint32Variant P 100 })
    else (interval, dataValue)
  let l := stopElement { l with loopTime := dataValue }
  if interval = 0 then return (l, .success)
  return (l.startElement interval, .success)

end LoopTimer

/-- The members `TestFolderLib` and `TestStatusCode` have in common. The value map holds the
addresses of data value cells. -/
structure Members (P : Platform) where
  namespaceIndex : ℕ
  valueMap : OrderedMap NodeId ℕ
  baseNodeClassWMap : OrderedMap NodeId NodeRef
  loop : LoopTimer P

end ASNeGDemo
