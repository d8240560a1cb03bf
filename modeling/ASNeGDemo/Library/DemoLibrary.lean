import ASNeGDemo.Alarm.Startup
import ASNeGDemo.Authentication.Startup
import ASNeGDemo.Events.Messages
import ASNeGDemo.Library.Services
import ASNeGDemo.Lifecycle.Periods

/-!
The library as a whole. It starts its classes one after the other and looks at none of their
answers, and no shutdown takes back what a startup has done. So each time the application is
loaded again the four classes with a timer start another element beside the ones they have.
-/
namespace ASNeGDemo

variable {P : Platform}

/-- The object. `Discovery` and `CameraAnimation` have no member that is ever changed. -/
structure DemoLibrary (P : Platform) where
  testFolderLib : TestFolderLib.State P
  testStatusCode : TestStatusCode.State P
  function : Function.State
  serviceFunction : ServiceFunction.State
  event : Events.State
  alarm : AlarmObject
  authentication : Authentication.State P
  historicalAccess : HistoricalAccess.State

/-- How the service answers the requests of all startups, what these draw from the clock, and
which references can be locked then. -/
structure LibraryBehaviour where
  testFolderLib : ServiceBehaviour
  now : DateTime
  testStatusCode : ServiceBehaviour
  env : Env
  function : Function.MethodServiceBehaviour
  serviceFunction : ServiceFunction.ReloadServiceBehaviour
  event : Events.EventServiceBehaviour
  alarm : AlarmServiceBehaviour
  live : NodeRef → Bool
  /-- What an uninitialised `bool` of `Alarm` holds. -/
  uninitialised : Bool
  authentication : Authentication.AuthenticationServiceBehaviour
  historicalAccess : HistoricalAccess.HistoryServiceBehaviour
  discovery : RegisterForwardResponse

namespace DemoLibrary

/-- The object the constructor leaves behind, over nodes of `Alarm` with any contents. -/
def construct (P : Platform) (contents : NodeRef → Alarm.Nodes) : Sim (DemoLibrary P) := do
  let testFolderLib ← TestFolderLib.construct P
  let testStatusCode ← TestStatusCode.construct P
  return {
    testFolderLib := testFolderLib
    testStatusCode := testStatusCode
    function := Function.construct
    serviceFunction := ServiceFunction.construct
    event := Events.construct
    alarm := Alarm.construct contents
    authentication := Authentication.construct P
    historicalAccess := HistoricalAccess.construct }

/-- The startups in the order of the source. -/
def startups (b : LibraryBehaviour) : List (Stage (DemoLibrary P)) :=
  [ Stage.within testFolderLib (fun s m => { s with testFolderLib := m })
      (TestFolderLib.startup b.testFolderLib b.now),
    Stage.within testStatusCode (fun s m => { s with testStatusCode := m })
      (TestStatusCode.startup b.testStatusCode b.env),
    CameraAnimation.startup,
    Stage.within function (fun s m => { s with function := m }) (Function.startup b.function),
    Stage.within serviceFunction (fun s m => { s with serviceFunction := m })
      (ServiceFunction.startup b.serviceFunction),
    Stage.within event (fun s m => { s with event := m }) (Events.startup b.event),
    Stage.within alarm (fun s m => { s with alarm := m })
      (Alarm.startup b.live b.uninitialised b.alarm),
    Stage.within authentication (fun s m => { s with authentication := m })
      (Authentication.startup b.authentication),
    Stage.within historicalAccess (fun s m => { s with historicalAccess := m })
      (HistoricalAccess.startup b.historicalAccess),
    Discovery.startup b.discovery ]

def startup (b : LibraryBehaviour) : Stage (DemoLibrary P) :=
  Stage.chain ((startups b).map Stage.carryOn)

/-- The classes left out log and return true as well. -/
def shutdown : Stage (DemoLibrary P) :=
  Stage.chain ([ Stage.within event (fun s m => { s with event := m }) Events.shutdown,
    Stage.within testStatusCode (fun s m => { s with testStatusCode := m })
      TestStatusCode.shutdown,
    Stage.within testFolderLib (fun s m => { s with testFolderLib := m })
      TestFolderLib.shutdown ].map Stage.carryOn)

/-- Every class has had its startup, whether or not the ones before it gave up. -/
theorem startup_eq {b : LibraryBehaviour} {s : DemoLibrary P} (h : (startup b s).2 ≠ none) :
    startup b s =
      ({ testFolderLib := (TestFolderLib.startup b.testFolderLib b.now s.testFolderLib).1
         testStatusCode := (TestStatusCode.startup b.testStatusCode b.env s.testStatusCode).1
         function := (Function.startup b.function s.function).1
         serviceFunction := (ServiceFunction.startup b.serviceFunction s.serviceFunction).1
         event := (Events.startup b.event s.event).1
         alarm := (Alarm.startup b.live b.uninitialised b.alarm s.alarm).1
         authentication := (Authentication.startup b.authentication s.authentication).1
         historicalAccess := (HistoricalAccess.startup b.historicalAccess s.historicalAccess).1 },
        some true) :=
  Stage.chain_carryOn h

/-! ### Runs -/

/-- What happens to the library, in any order. Calls of methods, logins and the reading of history
change nothing in it. -/
inductive Occurrence (P : Platform) where
  | startup (b : LibraryBehaviour)
  | shutdown
  | testFolderLib (e : LoopEvent P)
  | testStatusCode (e : LoopEvent P)
  | event
  | alarm (live : NodeRef → Bool) (uninitialised : Bool) (op : Alarm.Operation)

/-- Which classes with a timer returned true from a startup. -/
structure Started where
  testFolderLib : Bool
  testStatusCode : Bool
  event : Bool
  alarm : Bool
  deriving DecidableEq

def Started.none : Started := ⟨false, false, false, false⟩

def started (b : LibraryBehaviour) (s : DemoLibrary P) : Started where
  testFolderLib := (TestFolderLib.startup b.testFolderLib b.now s.testFolderLib).2 = some true
  testStatusCode := (TestStatusCode.startup b.testStatusCode b.env s.testStatusCode).2 = some true
  event := (Events.startup b.event s.event).2 = some true
  alarm := (Alarm.startup b.live b.uninitialised b.alarm s.alarm).2 = some true

def step (s : DemoLibrary P) : Occurrence P → DemoLibrary P × Started
  | .startup b => ((startup b s).1, started b s)
  | .shutdown => ((shutdown s).1, .none)
  | .testFolderLib e => ({ s with testFolderLib := TestFolderLib.happen s.testFolderLib e }, .none)
  | .testStatusCode e => ({ s with testStatusCode := TestStatusCode.happen s.testStatusCode e }, .none)
  | .event => ({ s with event := (Events.timerLoop P s.event).1 }, .none)
  | .alarm live uninitialised op =>
      let nodes := (Alarm.step (Alarm.accessors live uninitialised s.alarm) s.alarm.nodes op).1
      ({ s with alarm := s.alarm.store nodes }, .none)

/-- The startup, if it is one, does nothing undefined. -/
def Defined (s : DemoLibrary P) : Occurrence P → Prop
  | .startup b => (startup b s).2 ≠ none
  | _ => True

def run (s : DemoLibrary P) (es : List (Occurrence P)) : DemoLibrary P × List Started :=
  Runs.run step s es

/-- All startups of a run are defined. -/
def RunDefined (s : DemoLibrary P) (es : List (Occurrence P)) : Prop :=
  Runs.Always (fun s e => (step s e).1) Defined s es

/-! ### The timers -/

def onTestFolderLib : Occurrence P × Started → Option (Happening P DateTime × Bool)
  | (.startup b, started) => some (.call (.startup b.testFolderLib b.now), started.testFolderLib)
  | (.shutdown, _) => some (.call .shutdown, false)
  | (.testFolderLib e, _) => some (.event e, false)
  | _ => none

def onTestStatusCode : Occurrence P × Started → Option (Happening P Env × Bool)
  | (.startup b, started) => some (.call (.startup b.testStatusCode b.env), started.testStatusCode)
  | (.shutdown, _) => some (.call .shutdown, false)
  | (.testStatusCode e, _) => some (.event e, false)
  | _ => none

/-- What a history makes of the periods of a class. -/
def periodsAfter {ι : Type} (own : Occurrence P × Started → Option (Happening P ι × Bool))
    (periods : List ℕ) (history : List (Occurrence P × Started)) : List ℕ :=
  (history.filterMap own).foldl Happening.periods periods

/-- The loop timers of the two classes that have a loop time. -/
structure HoldLast (s : DemoLibrary P) : Prop where
  testFolderLib : s.testFolderLib.loop.HoldsLast
  testStatusCode : s.testStatusCode.loop.HoldsLast

theorem events_startup_slotTimer (b : Events.EventServiceBehaviour) (s : Events.State) :
    (Events.startup b s).1.slotTimer.periods =
      s.slotTimer.periods ++ if (Events.startup b s).2 = some true then [5000] else [] := by
  unfold Events.startup
  by_cases hinfo : (Events.getNamespaceInfo b.namespaceInfo s).2 = some true
  · have hsame : (Events.getNamespaceInfo b.namespaceInfo s).1.slotTimer = s.slotTimer := by
      unfold Events.getNamespaceInfo findNamespace
      cases firstNamespaceIndex Events.uri b.namespaceInfo <;> rfl
    rw [Stage.chain_cons_of_true hinfo]
    by_cases haccepted : b.registerEvents.accepted = true
    · rw [Stage.chain_cons_of_true (by simp [Events.registerEventCallbacks, haccepted]),
        Stage.chain_singleton]
      change ((Events.getNamespaceInfo b.namespaceInfo s).1.slotTimer.start 5000).periods =
        _ ++ if some true = some true then [5000] else []
      rw [if_pos rfl, hsame, SlotTimer.periods_start]
    · rw [Stage.chain_cons_of_not (by simp [Events.registerEventCallbacks, haccepted]),
        if_neg (by simp [Events.registerEventCallbacks, haccepted]), List.append_nil, ← hsame]
      rfl
  · have hsame : (Events.getNamespaceInfo b.namespaceInfo s).1.slotTimer = s.slotTimer := by
      unfold Events.getNamespaceInfo findNamespace
      cases firstNamespaceIndex Events.uri b.namespaceInfo <;> rfl
    rw [Stage.chain_cons_of_not hinfo, if_neg hinfo, List.append_nil, hsame]

theorem alarm_startup_slotTimer (live : NodeRef → Bool) (uninitialised : Bool)
    (b : AlarmServiceBehaviour) (s : AlarmObject) :
    (Alarm.startup live uninitialised b s).1.slotTimer.periods = s.slotTimer.periods ++
      if (Alarm.startup live uninitialised b s).2 = some true then [60000] else [] := by
  obtain ⟨-, hslotTimer, -⟩ := Alarm.preparation_frame (b := b) s
  rw [Alarm.startup_eq]
  by_cases htrue : (Alarm.preparation b s).2 = some true
  · rw [Stage.chain_cons_of_true htrue, Stage.chain_cons_always, Stage.chain_singleton]
    change ((Alarm.preparation b s).1.slotTimer.start 60000).periods =
      _ ++ if some true = some true then [60000] else []
    rw [if_pos rfl, hslotTimer, SlotTimer.periods_start]
  · rw [Stage.chain_cons_of_not htrue, if_neg htrue, List.append_nil, hslotTimer]

/-- One step. -/
theorem step_timers {s : DemoLibrary P} (hs : HoldLast s) {e : Occurrence P} (he : Defined s e) :
    let s' := (step s e).1
    let started := (step s e).2
    HoldLast s' ∧
    s'.testFolderLib.loop.slotTimer.periods =
      periodsAfter onTestFolderLib s.testFolderLib.loop.slotTimer.periods [(e, started)] ∧
    s'.testStatusCode.loop.slotTimer.periods =
      periodsAfter onTestStatusCode s.testStatusCode.loop.slotTimer.periods [(e, started)] ∧
    s'.event.slotTimer.periods =
      s.event.slotTimer.periods ++ (if started.event then [5000] else []) ∧
    s'.alarm.slotTimer.periods =
      s.alarm.slotTimer.periods ++ (if started.alarm then [60000] else []) := by
  have hfolder := (TestFolderLib.liveModule P).proceed_periods hs.testFolderLib
  have hstatus := (TestStatusCode.liveModule P).proceed_periods hs.testStatusCode
  cases e with
  | startup b =>
    obtain ⟨hfolderHolds, hfolderPeriods⟩ := hfolder (.call (.startup b.testFolderLib b.now))
    obtain ⟨hstatusHolds, hstatusPeriods⟩ := hstatus (.call (.startup b.testStatusCode b.env))
    have hstep : (step s (.startup b)).1 = (startup b s).1 := rfl
    rw [hstep, startup_eq he]
    refine ⟨⟨hfolderHolds, hstatusHolds⟩, hfolderPeriods, hstatusPeriods, ?_, ?_⟩
    · simpa [step, started] using events_startup_slotTimer b.event s.event
    · simpa [step, started] using
        alarm_startup_slotTimer b.live b.uninitialised b.alarm s.alarm
  | shutdown =>
    exact ⟨hs, rfl, rfl, (List.append_nil _).symm, (List.append_nil _).symm⟩
  | testFolderLib e =>
    obtain ⟨hholds, hperiods⟩ := hfolder (.event e)
    exact ⟨⟨hholds, hs.testStatusCode⟩, hperiods, rfl, (List.append_nil _).symm,
      (List.append_nil _).symm⟩
  | testStatusCode e =>
    obtain ⟨hholds, hperiods⟩ := hstatus (.event e)
    exact ⟨⟨hs.testFolderLib, hholds⟩, rfl, hperiods, (List.append_nil _).symm,
      (List.append_nil _).symm⟩
  | event =>
    exact ⟨⟨hs.testFolderLib, hs.testStatusCode⟩, rfl, rfl, (List.append_nil _).symm,
      (List.append_nil _).symm⟩
  | alarm live uninitialised op =>
    exact ⟨⟨hs.testFolderLib, hs.testStatusCode⟩, rfl, rfl, (List.append_nil _).symm,
      (List.append_nil _).symm⟩

theorem periodsAfter_cons {ι : Type} (own : Occurrence P × Started → Option (Happening P ι × Bool))
    (periods : List ℕ) (e : Occurrence P × Started) (history : List (Occurrence P × Started)) :
    periodsAfter own periods (e :: history) =
      periodsAfter own (periodsAfter own periods [e]) history := by
  unfold periodsAfter
  rw [← List.singleton_append, List.filterMap_append, List.foldl_append]

theorem run_timers {s : DemoLibrary P} (hs : HoldLast s) {es : List (Occurrence P)}
    (hes : RunDefined s es) :
    let r := run s es
    let history := es.zip r.2
    HoldLast r.1 ∧
    r.1.testFolderLib.loop.slotTimer.periods =
      periodsAfter onTestFolderLib s.testFolderLib.loop.slotTimer.periods history ∧
    r.1.testStatusCode.loop.slotTimer.periods =
      periodsAfter onTestStatusCode s.testStatusCode.loop.slotTimer.periods history ∧
    r.1.event.slotTimer.periods =
      s.event.slotTimer.periods ++ List.replicate (r.2.countP (·.event)) 5000 ∧
    r.1.alarm.slotTimer.periods =
      s.alarm.slotTimer.periods ++ List.replicate (r.2.countP (·.alarm)) 60000 := by
  induction es generalizing s with
  | nil => exact ⟨hs, rfl, rfl, (List.append_nil _).symm, (List.append_nil _).symm⟩
  | cons e es ih =>
    obtain ⟨he, hrest⟩ := hes
    obtain ⟨hnext, hfolder, hstatus, hevent, halarm⟩ := step_timers hs he
    obtain ⟨hholds, hfolders, hstatuses, hevents, halarms⟩ := ih hnext hrest
    intro r history
    have hcount (p : Started → Bool) (interval : ℕ) :
        List.replicate (r.2.countP p) interval =
          (if p (step s e).2 then [interval] else []) ++
            List.replicate ((run (step s e).1 es).2.countP p) interval := by
      change List.replicate (((step s e).2 :: (run (step s e).1 es).2).countP p) interval = _
      rw [List.countP_cons, Nat.add_comm, List.replicate_add]
      cases p (step s e).2 <;> rfl
    have hhistory : history = (e, (step s e).2) :: es.zip (run (step s e).1 es).2 := rfl
    refine ⟨hholds, ?_, ?_, ?_, ?_⟩
    · rw [hhistory, periodsAfter_cons, ← hfolder]
      exact hfolders
    · rw [hhistory, periodsAfter_cons, ← hstatus]
      exact hstatuses
    · rw [hcount, ← List.append_assoc, ← hevent]
      exact hevents
    · rw [hcount, ← List.append_assoc, ← halarm]
      exact halarms

/-- Nothing that happens later changes the periods but the last one. -/
theorem periodsAfter_dropLast {ι : Type}
    (own : Occurrence P × Started → Option (Happening P ι × Bool)) (periods : List ℕ)
    (history : List (Occurrence P × Started)) :
    periods.dropLast <+: (periodsAfter own periods history).dropLast := by
  refine List.foldlRecOn (motive := fun later : List ℕ => periods.dropLast <+: later.dropLast)
    (history.filterMap own) _ (List.prefix_refl _) ?_
  intro later hlater e _
  obtain ⟨happening, started⟩ := e
  cases happening with
  | call c =>
    unfold Happening.periods
    dsimp only
    split_ifs
    · rw [List.dropLast_concat]
      exact hlater.trans (List.dropLast_prefix later)
    · exact hlater
  | event e =>
    cases e with
    | timerLoop live env => exact hlater
    | callback callback =>
      cases callback with
      | writeLoopTimeValue dataValue =>
        unfold Happening.periods Callback.periods
        dsimp only
        cases LoopTimer.asUInt32 dataValue.variant with
        | none => exact hlater
        | some interval =>
          dsimp only
          rwa [List.dropLast_concat]
      | _ => exact hlater

theorem construct_holdLast (contents : NodeRef → Alarm.Nodes) (env : Env) :
    HoldLast (construct P contents env).1 := by
  have hzero : LoopTimer.asUInt32 (LoopTimer.uint32Variant P 0) = some 0 :=
    LoopTimer.asUInt32_uint32Variant (by norm_num)
  exact ⟨⟨.inl ⟨rfl, rfl⟩, hzero⟩, ⟨.inl ⟨rfl, rfl⟩, hzero⟩⟩

/-- Over any startups, shutdowns, callbacks and ticks. Every startup of a class that returns true
leaves one more element that nothing stops, whatever becomes of the other classes. The loop time
that is read is the period of the element started last; a write replaces that one, and starts one
where there is none, and every earlier element keeps its period for good. -/
theorem library_timers (contents : NodeRef → Alarm.Nodes) (env : Env) {es : List (Occurrence P)}
    (hes : RunDefined (construct P contents env).1 es) :
    let r := run (construct P contents env).1 es
    let folder := periodsAfter onTestFolderLib [] (es.zip r.2)
    let status := periodsAfter onTestStatusCode [] (es.zip r.2)
    (r.1.testFolderLib.loop.slotTimer.periods = folder ∧
      LoopTimer.asUInt32 r.1.testFolderLib.loop.readLoopTimeValue.2.variant =
        some (folder.getLast?.getD 0)) ∧
    (r.1.testStatusCode.loop.slotTimer.periods = status ∧
      LoopTimer.asUInt32 r.1.testStatusCode.loop.readLoopTimeValue.2.variant =
        some (status.getLast?.getD 0)) ∧
    r.1.event.slotTimer.periods = List.replicate (r.2.countP (·.event)) 5000 ∧
    r.1.alarm.slotTimer.periods = List.replicate (r.2.countP (·.alarm)) 60000 ∧
    ∀ before after, es = before ++ after →
      let earlier := (run (construct P contents env).1 before).1
      earlier.testFolderLib.loop.slotTimer.periods.dropLast <+: folder.dropLast ∧
        earlier.testStatusCode.loop.slotTimer.periods.dropLast <+: status.dropLast := by
  intro r folder status
  have hconstruct := construct_holdLast (P := P) contents env
  obtain ⟨hholds, hfolder, hstatus, hevent, halarm⟩ := run_timers hconstruct hes
  refine ⟨⟨hfolder, ?_⟩, ⟨hstatus, ?_⟩, hevent, halarm, ?_⟩
  · rw [hholds.testFolderLib.reported, hfolder]
    rfl
  · rw [hholds.testStatusCode.reported, hstatus]
    rfl
  · rintro before after rfl earlier
    obtain ⟨hbefore, hafter⟩ := Runs.always_append.mp hes
    obtain ⟨hearlier, -⟩ := run_timers hconstruct hbefore
    obtain ⟨-, hfolderAfter, hstatusAfter, -⟩ := run_timers hearlier hafter
    have hrun : r.1 = (run earlier after).1 := by
      unfold r run
      rw [Runs.run_append]
      rfl
    have hfolderAll : folder =
        periodsAfter onTestFolderLib earlier.testFolderLib.loop.slotTimer.periods _ :=
      hfolder.symm.trans (hrun ▸ hfolderAfter)
    have hstatusAll : status =
        periodsAfter onTestStatusCode earlier.testStatusCode.loop.slotTimer.periods _ :=
      hstatus.symm.trans (hrun ▸ hstatusAfter)
    rw [hfolderAll, hstatusAll]
    exact ⟨periodsAfter_dropLast .., periodsAfter_dropLast ..⟩

/-- A service that answers the two test classes and `Event`, and turns the others away. -/
def answering : LibraryBehaviour where
  testFolderLib := givingOut 0 36
  now := 0
  testStatusCode := givingOut 36 36
  env := ⟨Stream'.const 0, Stream'.const 0⟩
  function := ⟨⟨.success, .empty⟩, ⟨.success, .success⟩, ⟨.success, .success⟩, ⟨.success, .success⟩,
    ⟨.success, .success⟩⟩
  serviceFunction := ⟨⟨.success, .empty⟩, ⟨.success, .success⟩⟩
  event := ⟨⟨.success, OrderedMap.empty.insert 4 Events.uri⟩, ⟨.success, .success⟩⟩
  alarm := ⟨⟨.success, .empty⟩, ⟨.success, none⟩, ⟨.success, none⟩, fun _ => ⟨.success, .success⟩⟩
  live := fun _ => true
  uninitialised := false
  authentication := ⟨⟨.success, .empty⟩, ⟨.success, .success⟩, ⟨.success, none⟩, fun _ => true, 0⟩
  historicalAccess := ⟨⟨.success, .empty⟩, ⟨.success, []⟩, ⟨.success, []⟩⟩
  discovery := ⟨.success, .success⟩

/-- Loaded twice, with a loop time of 40 written in between and one of 7000 at the end. -/
def reloaded : List (Occurrence exactPlatform) :=
  let write (n : ℕ) : Occurrence exactPlatform := .testFolderLib (.callback
    (.writeLoopTimeValue ⟨LoopTimer.uint32Variant exactPlatform n, .success, 0, 0⟩))
  [.startup answering, write 40, .shutdown, .startup answering, write 7000]

theorem reloaded_defined :
    RunDefined (construct exactPlatform (fun _ => Alarm.emptyNodes) answering.env).1 reloaded := by
  refine ⟨?_, trivial, trivial, ?_, trivial, trivial⟩
  · change (startup answering _).2 ≠ none
    decide +kernel
  · change (startup answering _).2 ≠ none
    decide +kernel

theorem reloaded_started :
    (run (construct exactPlatform (fun _ => Alarm.emptyNodes) answering.env).1 reloaded).2 =
      [⟨true, true, true, false⟩, .none, .none, ⟨true, true, true, false⟩, .none] := by
  decide +kernel

/-- The first timer goes on with 100 ms beside the second one. -/
theorem library_timers_reloaded :
    let r := run (construct exactPlatform (fun _ => Alarm.emptyNodes) answering.env).1 reloaded
    r.1.testFolderLib.loop.slotTimer.periods = [100, 7000] ∧
      r.1.testStatusCode.loop.slotTimer.periods = [1111, 1111] ∧
      r.1.event.slotTimer.periods = [5000, 5000] ∧ r.1.alarm.slotTimer.periods = [] := by
  have htimers := library_timers (fun _ => Alarm.emptyNodes) answering.env reloaded_defined
  simp only [reloaded_started] at htimers
  obtain ⟨⟨hfolder, -⟩, ⟨hstatus, -⟩, hevent, halarm, -⟩ := htimers
  exact ⟨hfolder, hstatus, hevent, halarm⟩

end DemoLibrary

end ASNeGDemo
