import ASNeGDemo.General.SharedCells
import ASNeGDemo.Stack.BuildInTypes

/-!
The operations of `Alarm` on its state nodes. Every setter and getter is one access to one
node; an operation is the sequence of them that the code runs through.
-/
namespace ASNeGDemo

/-- The states that are kept twice, as a text and as a Boolean `Id`. -/
inductive AlarmState where
  | acked | confirmed | active | enabled
  deriving DecidableEq, Repr

/-- The one of four values that belongs to a state. -/
def AlarmState.select {α : Type} (acked confirmed active enabled : α) : AlarmState → α
  | .acked => acked
  | .confirmed => confirmed
  | .active => active
  | .enabled => enabled

/-- The nodes behind the references of the class. -/
inductive AlarmNode where
  | state (s : AlarmState)
  | id (s : AlarmState)
  | comment
  deriving DecidableEq, Repr

/-- What the variable of a node holds. -/
abbrev AlarmNode.Content : AlarmNode → Type
  | .state _ => LocalizedText
  | .id _ => Bool
  | .comment => LocalizedText

/-- The `OffNormalAlarmType` event, as far as `sendAlarmEvent` fills it. -/
structure AlarmEvent where
  alarmConditionType : NodeId
  eventId : Bytes
  conditionName : String
  branchId : NodeId
  activeState : LocalizedText
  activeStateId : Bool
  ackedState : LocalizedText
  ackedStateId : Bool
  confirmedState : LocalizedText
  confirmedStateId : Bool
  enabledState : LocalizedText
  enabledStateId : Bool
  retain : Bool
  message : LocalizedText
  severity : ℕ

def AlarmEvent.state (e : AlarmEvent) : AlarmState → LocalizedText :=
  AlarmState.select e.ackedState e.confirmedState e.activeState e.enabledState

def AlarmEvent.id (e : AlarmEvent) : AlarmState → Bool :=
  AlarmState.select e.ackedStateId e.confirmedStateId e.activeStateId e.enabledStateId

structure Alarm where
  rootNodeId : NodeId
  /-- Whether the reference of a node can be locked. -/
  live : AlarmNode → Bool
  /-- What an `OpcUaBoolean` holds before anything is stored in it. -/
  uninitialised : Bool

namespace Alarm
open SharedCells

abbrev Action := Program AlarmNode AlarmNode.Content AlarmEvent

variable (a : Alarm)

/-- All setters: nothing happens where the reference has expired. -/
def setNode (k : AlarmNode) (v : k.Content) : Action Unit :=
  if a.live k then Program.set k v else pure ()

/-- All getters; `default` is what the local variable holds before the node is read. -/
def getNode (k : AlarmNode) (default : k.Content) : Action k.Content :=
  if a.live k then Program.get k else pure default

def setAckedState (ackedState : LocalizedText) : Action Unit :=
  a.setNode (.state .acked) ackedState

def setAckedStateId (ackedState : Bool) : Action Unit := a.setNode (.id .acked) ackedState

def setConfirmedState (confirmedState : LocalizedText) : Action Unit :=
  a.setNode (.state .confirmed) confirmedState

def setConfirmedStateId (confirmedState : Bool) : Action Unit :=
  a.setNode (.id .confirmed) confirmedState

def setActiveState (activeState : LocalizedText) : Action Unit :=
  a.setNode (.state .active) activeState

def setActiveStateId (activeState : Bool) : Action Unit := a.setNode (.id .active) activeState

def setEnabledState (enabledState : LocalizedText) : Action Unit :=
  a.setNode (.state .enabled) enabledState

def setEnabledStateId (enabledState : Bool) : Action Unit :=
  a.setNode (.id .enabled) enabledState

def setComment (comment : LocalizedText) : Action Unit := a.setNode .comment comment

def ackedState : Action LocalizedText := a.getNode (.state .acked) ⟨"", ""⟩
def ackedStateId : Action Bool := a.getNode (.id .acked) a.uninitialised
def confirmedState : Action LocalizedText := a.getNode (.state .confirmed) ⟨"", ""⟩
def confirmedStateId : Action Bool := a.getNode (.id .confirmed) a.uninitialised
def activeState : Action LocalizedText := a.getNode (.state .active) ⟨"", ""⟩
def activeStateId : Action Bool := a.getNode (.id .active) a.uninitialised
def enabledState : Action LocalizedText := a.getNode (.state .enabled) ⟨"", ""⟩
def enabledStateId : Action Bool := a.getNode (.id .enabled) a.uninitialised

/-- The defaults `startup` sets once the references are there. -/
def setDefaults : Action Unit := do
  a.setAckedState ⟨"en", "Acknowledged"⟩
  a.setAckedStateId true
  a.setConfirmedState ⟨"en", "Confirmed"⟩
  a.setConfirmedStateId true
  a.setActiveState ⟨"en", "Inactive"⟩
  a.setActiveStateId false
  a.setEnabledState ⟨"en", "Enabled"⟩
  a.setEnabledStateId true
  a.setComment ⟨"", ""⟩

/-- The state nodes are read one by one; the status of the transaction is only logged. -/
def sendAlarmEvent (eventMessage : String) : Action Unit := do
  let activeState ← a.activeState
  let activeStateId ← a.activeStateId
  let ackedState ← a.ackedState
  let ackedStateId ← a.ackedStateId
  let confirmedState ← a.confirmedState
  let confirmedStateId ← a.confirmedStateId
  let enabledState ← a.enabledState
  let enabledStateId ← a.enabledStateId
  Program.fire
    { alarmConditionType := a.rootNodeId
      eventId := bytes "0123456789012345"
      conditionName := "OffNormalAlarm"
      branchId := nodeId 0 0
      activeState, activeStateId, ackedState, ackedStateId
      confirmedState, confirmedStateId, enabledState, enabledStateId
      retain := true
      message := ⟨"en", eventMessage⟩
      severity := 500 }

def acknowledge : Action Unit := do
  a.setAckedState ⟨"en", "Acknowledged"⟩
  a.setAckedStateId true
  a.sendAlarmEvent "alarm acknowledged..."

def confirm : Action Unit := do
  a.setAckedState ⟨"en", "Acknowledged"⟩
  a.setAckedStateId true
  a.setConfirmedState ⟨"en", "Confirmed"⟩
  a.setConfirmedStateId true
  a.sendAlarmEvent "alarm confirmed..."

def enabled : Action Unit := do
  a.setEnabledState ⟨"en", "Enabled"⟩
  a.setEnabledStateId true
  a.sendAlarmEvent "alarm enable..."

def disable : Action Unit := do
  a.setEnabledState ⟨"en", "Disabled"⟩
  a.setEnabledStateId false
  a.sendAlarmEvent "alarm disable..."

def conditionRefresh : Action Unit := a.sendAlarmEvent "alarm condition refresh..."

def timerLoop : Action Unit := do
  if !(← a.enabledStateId) then
    return
  a.setAckedState ⟨"en", "Unacknowledged"⟩
  a.setAckedStateId false
  a.setConfirmedState ⟨"en", "Unconfirmed"⟩
  a.setConfirmedStateId false
  a.setActiveState ⟨"en", "Active"⟩
  a.setActiveStateId true
  a.sendAlarmEvent "alarm activated..."

/-! ### With live references -/

/-- The references of all nodes can be locked. -/
def Live : Prop := ∀ k, a.live k = true

variable {a}

@[simp] theorem setNode_of_live (h : a.Live) (k : AlarmNode) (v : k.Content) :
    a.setNode k v = Program.set k v := if_pos (h k)

@[simp] theorem getNode_of_live (h : a.Live) (k : AlarmNode) (default : k.Content) :
    a.getNode k default = Program.get k := if_pos (h k)

end Alarm

end ASNeGDemo
