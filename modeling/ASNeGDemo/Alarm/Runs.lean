import ASNeGDemo.Alarm.Operations
import ASNeGDemo.General.Runs

/-!
The alarm as a state machine: each operation runs to its end before the next one starts.
The eight nodes carry four flags, and the texts say what the flags say.
-/
namespace ASNeGDemo.Alarm
open SharedCells

/-- The text that goes with an `Id`. -/
def stateText : AlarmState → Bool → LocalizedText
  | .acked, true => ⟨"en", "Acknowledged"⟩
  | .acked, false => ⟨"en", "Unacknowledged"⟩
  | .confirmed, true => ⟨"en", "Confirmed"⟩
  | .confirmed, false => ⟨"en", "Unconfirmed"⟩
  | .active, true => ⟨"en", "Active"⟩
  | .active, false => ⟨"en", "Inactive"⟩
  | .enabled, true => ⟨"en", "Enabled"⟩
  | .enabled, false => ⟨"en", "Disabled"⟩

theorem stateText_injective (s : AlarmState) : Function.Injective (stateText s) := by
  intro b c h
  cases s <;> cases b <;> cases c <;> simp [stateText] at h ⊢

/-- The contents of the nodes. -/
abbrev Nodes := ∀ k : AlarmNode, k.Content

/-- Every state agrees with its `Id`. -/
def Agrees (m : Nodes) : Prop := ∀ s, m (.state s) = stateText s (m (.id s))

/-- What every reached state satisfies. -/
structure Consistent (m : Nodes) : Prop where
  agrees : Agrees m
  acked_of_confirmed : m (.id .confirmed) = true → m (.id .acked) = true
  of_inactive : m (.id .active) = false →
    m (.id .acked) = true ∧ m (.id .confirmed) = true

inductive Operation where
  | acknowledge | confirm | enabled | disable | conditionRefresh | timerLoop
  deriving DecidableEq, Repr

/-- The program behind an operation. -/
def program (a : Alarm) : Operation → Action Unit
  | .acknowledge => a.acknowledge
  | .confirm => a.confirm
  | .enabled => a.enabled
  | .disable => a.disable
  | .conditionRefresh => a.conditionRefresh
  | .timerLoop => a.timerLoop

/-- A complete execution of an operation: the nodes left behind and the events fired. -/
def step (a : Alarm) (m : Nodes) (op : Operation) : Nodes × List AlarmEvent :=
  ((a.program op).run m).2

/-- The nodes after `startup` has set its defaults. -/
def started (a : Alarm) (m : Nodes) : Nodes := (a.setDefaults.run m).2.1

/-! ### The flags -/

/-- What an operation makes of the four flags. -/
def effect (op : Operation) (flag : AlarmState → Bool) : AlarmState → Bool :=
  match op with
  | .acknowledge => Function.update flag .acked true
  | .confirm => Function.update (Function.update flag .acked true) .confirmed true
  | .enabled => Function.update flag .enabled true
  | .disable => Function.update flag .enabled false
  | .conditionRefresh => flag
  | .timerLoop =>
      if flag .enabled then
        Function.update (Function.update (Function.update flag .acked false)
          .confirmed false) .active true
      else flag

def message : Operation → String
  | .acknowledge => "alarm acknowledged..."
  | .confirm => "alarm confirmed..."
  | .enabled => "alarm enable..."
  | .disable => "alarm disable..."
  | .conditionRefresh => "alarm condition refresh..."
  | .timerLoop => "alarm activated..."

/-- The event that shows the given nodes. -/
def event (a : Alarm) (eventMessage : String) (m : Nodes) : AlarmEvent :=
  { alarmConditionType := a.rootNodeId
    eventId := bytes "0123456789012345"
    conditionName := "OffNormalAlarm"
    branchId := nodeId 0 0
    activeState := m (.state .active)
    activeStateId := m (.id .active)
    ackedState := m (.state .acked)
    ackedStateId := m (.id .acked)
    confirmedState := m (.state .confirmed)
    confirmedStateId := m (.id .confirmed)
    enabledState := m (.state .enabled)
    enabledStateId := m (.id .enabled)
    retain := true
    message := ⟨"en", eventMessage⟩
    severity := 500 }

@[simp] theorem event_state (a : Alarm) (eventMessage : String) (m : Nodes) (s : AlarmState) :
    (event a eventMessage m).state s = m (.state s) := by
  cases s <;> rfl

@[simp] theorem event_id (a : Alarm) (eventMessage : String) (m : Nodes) (s : AlarmState) :
    (event a eventMessage m).id s = m (.id s) := by
  cases s <;> rfl

/-- The nodes with one state and its `Id` replaced, in the order of the source. -/
def withState (m : Nodes) (s : AlarmState) (b : Bool) : Nodes :=
  Function.update (Function.update m (.state s) (stateText s b)) (.id s) b

@[simp] theorem withState_id (m : Nodes) (s s' : AlarmState) (b : Bool) :
    withState m s b (.id s') = Function.update (fun s => m (.id s)) s b s' := by
  by_cases h : s' = s
  · subst h
    simp [withState]
  · simp [withState, h]

theorem withState_state (m : Nodes) (s s' : AlarmState) (b : Bool) :
    withState m s b (.state s') = if s' = s then stateText s b else m (.state s') := by
  by_cases h : s' = s
  · subst h
    simp [withState]
  · simp [withState, h]

theorem Agrees.withState {m : Nodes} (h : Agrees m) (s : AlarmState) (b : Bool) :
    Agrees (withState m s b) := by
  intro s'
  rw [withState_state, withState_id]
  by_cases hs : s' = s
  · subst hs
    simp
  · simp [hs, h s']

section Live
variable {a : Alarm} (h : a.Live) (m : Nodes)
include h

theorem sendAlarmEvent_run (eventMessage : String) :
    (a.sendAlarmEvent eventMessage).run m = ((), m, [event a eventMessage m]) := by
  simp only [sendAlarmEvent, activeState, activeStateId, ackedState, ackedStateId,
    confirmedState, confirmedStateId, enabledState, enabledStateId, getNode_of_live h]
  rfl

/-- Storing a text and its `Id`, then going on. -/
theorem setState_run (s : AlarmState) (b : Bool) (rest : Action Unit) :
    (do
      a.setNode (.state s) (stateText s b)
      a.setNode (.id s) b
      rest).run m = rest.run (withState m s b) := by
  simp only [setNode_of_live h]
  rfl

/-- The one lemma about what an operation does. -/
theorem step_eq (op : Operation) :
    step a m op =
      if op = .timerLoop ∧ m (.id .enabled) = false then (m, [])
      else
        let m' := match op with
          | .acknowledge => withState m .acked true
          | .confirm => withState (withState m .acked true) .confirmed true
          | .enabled => withState m .enabled true
          | .disable => withState m .enabled false
          | .conditionRefresh => m
          | .timerLoop => withState (withState (withState m .acked false) .confirmed false)
              .active true
        (m', [event a (message op) m']) := by
  cases op with
  | acknowledge =>
    exact congrArg Prod.snd ((setState_run h m .acked true _).trans (sendAlarmEvent_run h _ _))
  | confirm =>
    exact congrArg Prod.snd ((setState_run h m .acked true _).trans
      ((setState_run h _ .confirmed true _).trans (sendAlarmEvent_run h _ _)))
  | enabled =>
    exact congrArg Prod.snd ((setState_run h m .enabled true _).trans (sendAlarmEvent_run h _ _))
  | disable =>
    exact congrArg Prod.snd ((setState_run h m .enabled false _).trans (sendAlarmEvent_run h _ _))
  | conditionRefresh => exact congrArg Prod.snd (sendAlarmEvent_run h m _)
  | timerLoop =>
    have hgate : a.timerLoop.run m =
        (if !(m (.id .enabled)) then (pure () : Action Unit) else do
          a.setAckedState ⟨"en", "Unacknowledged"⟩
          a.setAckedStateId false
          a.setConfirmedState ⟨"en", "Unconfirmed"⟩
          a.setConfirmedStateId false
          a.setActiveState ⟨"en", "Active"⟩
          a.setActiveStateId true
          a.sendAlarmEvent "alarm activated...").run m := by
      simp only [timerLoop, enabledStateId, getNode_of_live h]
      rfl
    cases he : m (.id .enabled) with
    | false =>
      rw [he] at hgate
      exact congrArg Prod.snd hgate
    | true =>
      rw [he] at hgate
      exact congrArg Prod.snd (hgate.trans ((setState_run h m .acked false _).trans
        ((setState_run h _ .confirmed false _).trans
          ((setState_run h _ .active true _).trans (sendAlarmEvent_run h _ _)))))

theorem started_eq :
    started a m = Function.update (withState (withState (withState (withState m .acked true)
      .confirmed true) .active false) .enabled true) .comment ⟨"", ""⟩ := by
  have hrun := (setState_run h m .acked true _).trans ((setState_run h _ .confirmed true _).trans
    ((setState_run h _ .active false _).trans ((setState_run h _ .enabled true
      (a.setComment ⟨"", ""⟩)).trans (by rw [setComment, setNode_of_live h]))))
  exact congrArg (fun r => r.2.1) hrun

/-- An operation keeps texts and flags together and is one step of the flags. -/
theorem step_refines (hm : Agrees m) (op : Operation) :
    Agrees (step a m op).1 ∧
      (fun s => (step a m op).1 (.id s)) = effect op fun s => m (.id s) := by
  rw [step_eq h]
  by_cases hgate : op = .timerLoop ∧ m (.id .enabled) = false
  · rw [if_pos hgate]
    obtain ⟨rfl, he⟩ := hgate
    exact ⟨hm, by simp [effect, he]⟩
  · rw [if_neg hgate]
    cases op with
    | acknowledge => exact ⟨hm.withState _ _, by funext s; simp [effect]⟩
    | confirm => exact ⟨(hm.withState _ _).withState _ _, by funext s; simp [effect]⟩
    | enabled => exact ⟨hm.withState _ _, by funext s; simp [effect]⟩
    | disable => exact ⟨hm.withState _ _, by funext s; simp [effect]⟩
    | conditionRefresh => exact ⟨hm, rfl⟩
    | timerLoop =>
      have he : m (.id .enabled) = true := by simpa using hgate
      exact ⟨((hm.withState _ _).withState _ _).withState _ _, by funext s; simp [effect, he]⟩

end Live

/-! ### Runs -/

/-- The part of the invariant that is about the flags alone. -/
def FlagsConsistent (flag : AlarmState → Bool) : Prop :=
  (flag .confirmed = true → flag .acked = true) ∧
    (flag .active = false → flag .acked = true ∧ flag .confirmed = true)

theorem FlagsConsistent.effect {flag : AlarmState → Bool} (h : FlagsConsistent flag)
    (op : Operation) : FlagsConsistent (effect op flag) := by
  obtain ⟨hconfirmed, hinactive⟩ := h
  cases op with
  | acknowledge => exact ⟨fun _ => rfl, fun hi => ⟨rfl, (hinactive hi).2⟩⟩
  | confirm => exact ⟨fun _ => rfl, fun _ => ⟨rfl, rfl⟩⟩
  | enabled => exact ⟨hconfirmed, hinactive⟩
  | disable => exact ⟨hconfirmed, hinactive⟩
  | conditionRefresh => exact ⟨hconfirmed, hinactive⟩
  | timerLoop =>
    by_cases he : flag .enabled = true
    · simp [Alarm.effect, he, FlagsConsistent]
    · simpa [Alarm.effect, he, FlagsConsistent] using And.intro hconfirmed hinactive

/-- The calls that switch the alarm on or off. -/
def switch : Operation → Option Bool
  | .enabled => some true
  | .disable => some false
  | _ => none

theorem effect_enabled (op : Operation) (flag : AlarmState → Bool) :
    effect op flag .enabled = (switch op).getD (flag .enabled) := by
  cases op with
  | timerLoop => by_cases he : flag .enabled = true <;> simp [effect, switch, he]
  | _ => rfl

section Runs
variable {a : Alarm} (h : a.Live) (m : Nodes)
include h

theorem started_agrees : Agrees (started a m) := by
  rw [started_eq h]
  intro s
  cases s <;> rfl

theorem started_id (s : AlarmState) : started a m (.id s) = !(s == .active) := by
  rw [started_eq h]
  cases s <;> rfl

theorem run_agrees (ops : List Operation) :
    Agrees (Runs.run (step a) (started a m) ops).1 :=
  Runs.run_invariant (fun m op hm => (step_refines h m hm op).1) ops (started_agrees h m)

theorem run_flagsConsistent (ops : List Operation) :
    FlagsConsistent fun s => (Runs.run (step a) (started a m) ops).1 (.id s) := by
  refine (Runs.run_invariant (I := fun m : Nodes =>
    Agrees m ∧ FlagsConsistent fun s => m (.id s)) ?_ ops ⟨started_agrees h m, ?_⟩).2
  · intro m op hm
    obtain ⟨hagrees, hflags⟩ := step_refines h m hm.1 op
    exact ⟨hagrees, hflags ▸ hm.2.effect op⟩
  · simp [FlagsConsistent, started_id h]

/-- Only the calls that switch the alarm on or off decide whether it is enabled. -/
theorem run_enabled (ops : List Operation) :
    (Runs.run (step a) (started a m) ops).1 (.id .enabled) =
      (ops.filterMap switch).getLast?.getD true := by
  induction ops using List.reverseRecOn with
  | nil => exact started_id h m .enabled
  | append_singleton ops op ih =>
    rw [Runs.run_append, Runs.run_cons, Runs.run_nil]
    have hstep := congrFun (step_refines h _ (run_agrees h m ops) op).2 .enabled
    rw [effect_enabled, ih] at hstep
    apply hstep.trans
    cases hs : switch op with
    | none => simp [List.filterMap_append, hs]
    | some b => simp [List.filterMap_append, hs]

/-- Every reached state is consistent, the switch decides whether the alarm is enabled, a
disabled timer does nothing, and every other operation shows in one event the nodes it
leaves behind. -/
theorem alarm_consistent (ops : List Operation) (op : Operation) :
    let reached := (Runs.run (step a) (started a m) ops).1
    Consistent reached ∧
      reached (.id .enabled) = (ops.filterMap switch).getLast?.getD true ∧
      (op = .timerLoop ∧ reached (.id .enabled) = false → step a reached op = (reached, [])) ∧
      (¬ (op = .timerLoop ∧ reached (.id .enabled) = false) →
        ∃ e, (step a reached op).2 = [e] ∧
          ∀ s, e.state s = (step a reached op).1 (.state s) ∧
            e.id s = (step a reached op).1 (.id s)) := by
  intro reached
  obtain ⟨hconfirmed, hinactive⟩ := run_flagsConsistent h m ops
  refine ⟨⟨run_agrees h m ops, hconfirmed, hinactive⟩, run_enabled h m ops, ?_, ?_⟩
  · intro hgate
    rw [step_eq h, if_pos hgate]
  · intro hgate
    rw [step_eq h, if_neg hgate]
    exact ⟨_, rfl, fun s => ⟨event_state .., event_id ..⟩⟩

end Runs

/-- An alarm with live references. -/
def ofNodes (rootNodeId : NodeId) : Alarm := ⟨rootNodeId, fun _ => true, false⟩

theorem ofNodes_live (rootNodeId : NodeId) : (ofNodes rootNodeId).Live := fun _ => rfl

/-- Nodes that nothing was stored in. -/
def emptyNodes : Nodes
  | .state _ => ⟨"", ""⟩
  | .id _ => false
  | .comment => ⟨"", ""⟩

theorem alarm_consistent_confirmed :
    let a := ofNodes (nodeIdString "AlarmObject" 2)
    let reached := (Runs.run (step a) (started a emptyNodes) [.timerLoop, .confirm, .disable]).1
    Consistent reached ∧
      reached (.id .enabled) =
        (([.timerLoop, .confirm, .disable] : List Operation).filterMap switch).getLast?.getD
          true ∧
      (Operation.timerLoop = .timerLoop ∧ reached (.id .enabled) = false →
        step a reached .timerLoop = (reached, [])) ∧
      (¬ (Operation.timerLoop = .timerLoop ∧ reached (.id .enabled) = false) →
        ∃ e, (step a reached .timerLoop).2 = [e] ∧
          ∀ s, e.state s = (step a reached .timerLoop).1 (.state s) ∧
            e.id s = (step a reached .timerLoop).1 (.id s)) :=
  alarm_consistent (ofNodes_live _) emptyNodes _ _

end ASNeGDemo.Alarm
