import ASNeGDemo.Alarm.Startup

/-!
The alarm while the application is started again and again. A startup sets the alarm back to its
defaults and fires nothing, so a subscriber does not hear of it.
-/
namespace ASNeGDemo.Alarm

/-- What happens to the object: startups whatever the service answers, shutdowns, and operations
that run to their end. -/
inductive Occurrence where
  | startup (b : AlarmServiceBehaviour)
  | shutdown
  | operation (op : Operation)

/-- The object, the operations since the last startup that returned true, and all events so
far. -/
structure Trace where
  object : AlarmObject
  sinceStartup : List Operation
  fired : List AlarmEvent

/-- The event shows what the nodes hold. -/
def Shows (e : AlarmEvent) (m : Nodes) : Prop :=
  ∀ s, e.state s = m (.state s) ∧ e.id s = m (.id s)

/-- The nodes after operations on a freshly started alarm. -/
def nodesAfter (ops : List Operation) : Nodes :=
  (Runs.run (step (ofNodes (nodeId 0 0))) (started (ofNodes (nodeId 0 0)) emptyNodes) ops).1

section Occurrences
variable (live : NodeRef → Bool) (uninitialised : Bool)

def occur (t : Trace) : Occurrence → Trace
  | .startup b =>
      let started := startup live uninitialised b t.object
      { t with
        object := started.1
        sinceStartup := if started.2 = some true then [] else t.sinceStartup }
  | .shutdown => t
  | .operation op =>
      let stepped := step (accessors live uninitialised t.object) t.object.nodes op
      { object := t.object.store stepped.1
        sinceStartup := t.sinceStartup ++ [op]
        fired := t.fired ++ stepped.2 }

/-- A startup that gives up leaves the references as they are: those it has read again lead to
the same nodes. -/
def Steady (t : Trace) : Occurrence → Prop
  | .startup b => (startup live uninitialised b t.object).2 ≠ some true →
      ∀ idx < 10, (startup live uninitialised b t.object).1.references idx =
        t.object.references idx
  | _ => True

end Occurrences

/-! ### Operations on a freshly started alarm -/

section Operations
variable {a a' : Alarm}

theorem started_eq_defaultNodes (h : a.Live) (m : Nodes) : started a m = defaultNodes := by
  funext k
  rw [started_apply, if_pos (h k)]

/-- What an operation leaves in the nodes does not depend on the object it belongs to. -/
theorem step_nodes (h : a.Live) (h' : a'.Live) (m : Nodes) (op : Operation) :
    (step a m op).1 = (step a' m op).1 := by
  rw [step_eq h, step_eq h']
  split_ifs <;> rfl

theorem nodesAfter_nil : nodesAfter [] = defaultNodes :=
  started_eq_defaultNodes (ofNodes_live (nodeId 0 0)) emptyNodes

theorem nodesAfter_append (h : a.Live) (ops : List Operation) (op : Operation) :
    nodesAfter (ops ++ [op]) = (step a (nodesAfter ops) op).1 := by
  unfold nodesAfter
  rw [Runs.run_append]
  exact step_nodes (ofNodes_live _) h _ op

theorem nodesAfter_consistent (ops : List Operation) : Consistent (nodesAfter ops) := by
  obtain ⟨hconfirmed, hinactive⟩ := run_flagsConsistent (ofNodes_live (nodeId 0 0)) emptyNodes ops
  exact ⟨run_agrees (ofNodes_live _) emptyNodes ops, hconfirmed, hinactive⟩

theorem nodesAfter_enabled (ops : List Operation) :
    nodesAfter ops (.id .enabled) = (ops.filterMap switch).getLast?.getD true :=
  run_enabled (ofNodes_live _) emptyNodes ops

/-- An operation that does nothing meets a disabled alarm; every other one fires an event that
shows what it leaves behind. -/
theorem step_fired (h : a.Live) (m : Nodes) (op : Operation) :
    (m (.id .enabled) = false ∧ step a m op = (m, [])) ∨
      ∃ e, (step a m op).2 = [e] ∧ Shows e (step a m op).1 := by
  rw [step_eq h]
  by_cases hgate : op = .timerLoop ∧ m (.id .enabled) = false
  · rw [if_pos hgate]
    exact .inl ⟨hgate.2, rfl⟩
  · rw [if_neg hgate]
    exact .inr ⟨_, rfl, fun s => ⟨event_state .., event_id ..⟩⟩

theorem effect_active (op : Operation) (flag : AlarmState → Bool) :
    effect op flag .active = true ↔
      flag .active = true ∨ op = .timerLoop ∧ flag .enabled = true := by
  cases op with
  | timerLoop => by_cases he : flag .enabled = true <;> simp [effect, he]
  | _ => simp [effect]

/-- The alarm is active exactly if the timer has met it enabled since the startup: no operation
makes it inactive again. -/
theorem nodesAfter_active (ops : List Operation) :
    nodesAfter ops (.id .active) = true ↔
      ∃ i, ops[i]? = some .timerLoop ∧
        ((ops.take i).filterMap switch).getLast?.getD true = true := by
  induction ops using List.reverseRecOn with
  | nil => simp [nodesAfter_nil, defaultNodes]
  | append_singleton ops op ih =>
    have hagrees := (nodesAfter_consistent ops).agrees
    have hflags := congrFun
      (step_refines (ofNodes_live (nodeId 0 0)) (nodesAfter ops) hagrees op).2 .active
    rw [nodesAfter_append (ofNodes_live (nodeId 0 0)), hflags, effect_active, ih,
      nodesAfter_enabled]
    constructor
    · rintro (⟨i, hi, henabled⟩ | ⟨rfl, henabled⟩)
      · have hlt := (List.getElem?_eq_some_iff.mp hi).1
        refine ⟨i, ?_, ?_⟩
        · rw [List.getElem?_append_left hlt, hi]
        · rwa [List.take_append_of_le_length (by omega)]
      · refine ⟨ops.length, by simp, ?_⟩
        rwa [List.take_left]
    · rintro ⟨i, hi, henabled⟩
      have hlt := (List.getElem?_eq_some_iff.mp hi).1
      rw [List.length_append, List.length_singleton] at hlt
      rw [List.take_append_of_le_length (by omega)] at henabled
      by_cases hlast : i = ops.length
      · subst hlast
        rw [List.take_length] at henabled
        simp only [List.getElem?_concat_length, Option.some.injEq] at hi
        exact .inr ⟨hi, henabled⟩
      · rw [List.getElem?_append_left (by omega)] at hi
        exact .inl ⟨i, hi, henabled⟩

end Operations

/-! ### Runs -/

/-- After a startup that returned true: all references are there, the nodes are those of the
operations since then, and the last event shows them as soon as there was one. -/
structure Tracked (t : Trace) : Prop where
  references : ∀ idx < 10, (t.object.references idx).isSome
  nodes : t.object.nodes = nodesAfter t.sinceStartup
  shown : t.sinceStartup ≠ [] → ∃ e, t.fired.getLast? = some e ∧ Shows e t.object.nodes

section Runs
variable {live : NodeRef → Bool} (uninitialised : Bool) (hlive : ∀ r, live r = true)
include hlive

theorem accessors_live {s : AlarmObject} (h : ∀ idx < 10, (s.references idx).isSome) :
    (accessors live uninitialised s).Live := by
  intro k
  obtain ⟨r, hr⟩ := Option.isSome_iff_exists.mp (h k.position (position_lt k))
  simp [accessors, hr, hlive r]

/-- A startup that returns true begins anew, whatever was there before. -/
theorem tracked_of_startup {b : AlarmServiceBehaviour} {s : AlarmObject}
    (h : (startup live uninitialised b s).2 = some true) (fired : List AlarmEvent) :
    Tracked ⟨(startup live uninitialised b s).1, [], fired⟩ := by
  have hchain := startup_eq live uninitialised (b := b) s
  have htrue : (preparation b s).2 = some true := by
    by_contra hnot
    rw [hchain, Stage.chain_cons_of_not hnot] at h
    exact hnot h
  obtain ⟨namespaceIndex, nodeIds, references, hcomplete⟩ := (preparation_true_iff s).mp htrue
  rw [Stage.chain_cons_of_true htrue, Stage.chain_cons_always, Stage.chain_singleton,
    preparation_of_complete hcomplete] at hchain
  rw [hchain]
  have hrefs : ∀ idx < 10, ((found b namespaceIndex s).references idx).isSome := by
    intro idx hidx
    have hlt : idx < references.length := by
      rw [hcomplete.references.length]
      exact hidx
    change ((readResponse b.references 10 s.references).1 idx).isSome
    rw [readResponse_complete hcomplete.references _ idx hidx, List.getElem?_eq_getElem hlt]
    rfl
  refine ⟨hrefs, ?_, fun hnil => absurd rfl hnil⟩
  rw [nodesAfter_nil]
  exact (store_nodes hrefs _).trans
    (started_eq_defaultNodes (accessors_live uninitialised hlive hrefs) _)

omit hlive in
/-- A startup that gives up leaves what the nodes hold. -/
theorem startup_nodes_of_not {b : AlarmServiceBehaviour} {s : AlarmObject}
    (h : (startup live uninitialised b s).2 ≠ some true)
    (hrefs : ∀ idx < 10, (startup live uninitialised b s).1.references idx = s.references idx) :
    (startup live uninitialised b s).1.nodes = s.nodes := by
  have hcontents : (startup live uninitialised b s).1.contents = s.contents :=
    (startup_frame_of_not live uninitialised h).1
  funext k
  unfold AlarmObject.nodes
  rw [hrefs k.position (position_lt k), hcontents]

theorem Tracked.occur {t : Trace} (ht : Tracked t) {e : Occurrence}
    (he : Steady live uninitialised t e) : Tracked (occur live uninitialised t e) := by
  cases e with
  | shutdown => exact ht
  | startup b =>
    by_cases h : (startup live uninitialised b t.object).2 = some true
    · have hnew := tracked_of_startup uninitialised hlive h t.fired
      simpa only [Alarm.occur, h, if_true] using hnew
    · have hrefs := he h
      have hnodes := startup_nodes_of_not uninitialised h hrefs
      simp only [Alarm.occur, h, if_false]
      refine ⟨?_, hnodes.trans ht.nodes, ?_⟩
      · intro idx hidx
        rw [hrefs idx hidx]
        exact ht.references idx hidx
      · rw [hnodes]
        exact ht.shown
  | operation op =>
    have ha := accessors_live uninitialised hlive ht.references
    have hstored := store_nodes ht.references
      (step (accessors live uninitialised t.object) t.object.nodes op).1
    refine ⟨ht.references, ?_, fun _ => ?_⟩
    · rw [Alarm.occur, nodesAfter_append ha, ← ht.nodes]
      exact hstored
    · rw [Alarm.occur]
      dsimp only
      rw [hstored]
      obtain ⟨hdisabled, hnothing⟩ | ⟨e, hfired, hshows⟩ := step_fired ha t.object.nodes op
      · have hops : t.sinceStartup ≠ [] := by
          intro hnil
          rw [ht.nodes, hnil, nodesAfter_nil] at hdisabled
          cases hdisabled
        obtain ⟨e, he, hshows⟩ := ht.shown hops
        rw [hnothing, List.append_nil]
        exact ⟨e, he, hshows⟩
      · refine ⟨e, ?_, hshows⟩
        rw [hfired]
        exact List.getLast?_concat

theorem tracked_run {t : Trace} (ht : Tracked t) {es : List Occurrence}
    (hes : Runs.Always (occur live uninitialised) (Steady live uninitialised) t es) :
    Tracked (es.foldl (occur live uninitialised) t) := by
  induction es generalizing t with
  | nil => exact ht
  | cons e es ih => exact ih (ht.occur uninitialised hlive hes.1) hes.2

/-- After a startup that returned true and any operations, shutdowns and further startups,
successful or not, as long as those that give up leave the references alone: the nodes are those
of the operations since the last successful one, and consistent; the alarm is active exactly if
the timer has met it enabled since then; and the last event shows the nodes, unless a startup has
set them back without an event. -/
theorem reloaded_alarm (t : Trace) {b : AlarmServiceBehaviour}
    (hb : (startup live uninitialised b t.object).2 = some true) {es : List Occurrence}
    (hes : Runs.Always (occur live uninitialised) (Steady live uninitialised) t
      (.startup b :: es)) :
    let reached := (.startup b :: es).foldl (occur live uninitialised) t
    reached.object.nodes = nodesAfter reached.sinceStartup ∧
    Consistent reached.object.nodes ∧
    (reached.object.nodes (.id .active) = true ↔
      ∃ i, reached.sinceStartup[i]? = some .timerLoop ∧
        ((reached.sinceStartup.take i).filterMap switch).getLast?.getD true = true) ∧
    ∀ e, reached.fired.getLast? = some e →
      (Shows e reached.object.nodes ↔ reached.sinceStartup ≠ [] ∨ Shows e defaultNodes) := by
  intro reached
  have hfirst : Tracked (occur live uninitialised t (.startup b)) := by
    have hnew := tracked_of_startup uninitialised hlive hb t.fired
    simpa only [Alarm.occur, hb, if_true] using hnew
  have htracked : Tracked reached := tracked_run uninitialised hlive hfirst hes.2
  rw [htracked.nodes]
  refine ⟨rfl, nodesAfter_consistent _, nodesAfter_active _, ?_⟩
  intro e he
  constructor
  · intro hshows
    by_cases hnil : reached.sinceStartup = []
    · rw [hnil, nodesAfter_nil] at hshows
      exact .inr hshows
    · exact .inl hnil
  · rintro (hops | hdefault)
    · obtain ⟨e', he', hshows⟩ := htracked.shown hops
      obtain rfl := Option.some.inj (he.symm.trans he')
      rwa [htracked.nodes] at hshows
    · by_cases hnil : reached.sinceStartup = []
      · rw [hnil, nodesAfter_nil]
        exact hdefault
      · obtain ⟨e', he', hshows⟩ := htracked.shown hnil
        obtain rfl := Option.some.inj (he.symm.trans he')
        rwa [htracked.nodes] at hshows

end Runs

/-- A service that answers in full, or turns down the last registration. -/
def answering (last : StatusCode) : AlarmServiceBehaviour where
  namespaceInfo := ⟨.success, OrderedMap.empty.insert 4 uri⟩
  nodeIds := ⟨.success, some (good ((List.range 15).map fun i => nodeId (100 + i) 4))⟩
  references := ⟨.success, some (good (List.range 10))⟩
  registerMethod := fun idx => ⟨.success, if idx = 6 then last else .success⟩

/-- The alarm goes off, and the application is loaded again, at first in vain. -/
def reload : List Occurrence :=
  [.operation .timerLoop, .shutdown, .startup (answering .badInternalError),
    .startup (answering .success)]

def setBack : Trace :=
  (.startup (answering .success) :: reload).foldl (occur (fun _ => true) false)
    ⟨construct fun _ => emptyNodes, [], []⟩

theorem reload_steady :
    Runs.Always (occur (fun _ => true) false) (Steady (fun _ => true) false)
      ⟨construct fun _ => emptyNodes, [], []⟩ (.startup (answering .success) :: reload) := by
  refine ⟨fun h => absurd rfl h, trivial, trivial, fun _ => ?_, fun h => absurd rfl h, trivial⟩
  decide

/-- The last event a subscriber has seen says that the alarm is active. -/
theorem reloaded_alarm_setBack :
    ∃ e, setBack.fired.getLast? = some e ∧ ¬ Shows e setBack.object.nodes := by
  have hactive : ∃ e, setBack.fired.getLast? = some e ∧ e.activeStateId = true := ⟨_, rfl, rfl⟩
  obtain ⟨e, he, hid⟩ := hactive
  refine ⟨e, he, ?_⟩
  have hrun := reloaded_alarm false (fun _ => rfl) ⟨construct fun _ => emptyNodes, [], []⟩
    (b := answering .success) rfl reload_steady
  rw [setBack, hrun.2.2.2 e he]
  rintro (hops | hdefault)
  · exact hops rfl
  · exact absurd (hid.symm.trans (hdefault .active).2) (by decide)

end ASNeGDemo.Alarm
