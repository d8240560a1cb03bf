import ASNeGDemo.Alarm.Runs

/-!
The timer of the alarm beside a method call. The class takes no lock, so between two steps of
one the other can take any number of its own. What comes out is told by the party that
wrote each node last.
-/
namespace ASNeGDemo.Alarm
open SharedCells

/-- The method calls a client can make. -/
inductive Method where
  | acknowledge | confirm | enabled | disable
  deriving DecidableEq, Repr

def Method.operation : Method → Operation
  | .acknowledge => .acknowledge
  | .confirm => .confirm
  | .enabled => .enabled
  | .disable => .disable

abbrev Overlap := Cells AlarmNode AlarmNode.Content × Log AlarmNode AlarmNode.Content AlarmEvent

/-- One `timerLoop` (left) and one method call (right), in the order of the schedule. -/
def overlap (a : Alarm) (m : Nodes) (method : Method) (schedule : List Party) : Overlap :=
  interleave schedule (Cells.fresh m) (a.program .timerLoop) (a.program method.operation)

/-- Without a schedule the method call follows the timer. -/
theorem overlap_serial (a : Alarm) (m : Nodes) (method : Method) :
    (overlap a m method []).1.value = (step a (step a m .timerLoop).1 method.operation).1 :=
  interleave_nil_value ..

/-- What one would like to see after any overlap. -/
structure StaysConsistent (r : Overlap) : Prop where
  agrees : Agrees r.1.value
  acked_of_confirmed : r.1.value (.id .confirmed) = true → r.1.value (.id .acked) = true
  events : ∀ p e, (p, Access.emit e) ∈ r.2 → ∀ s, e.state s = stateText s (e.id s)

/-- The states a method call writes. -/
def Method.states : Method → List AlarmState
  | .acknowledge => [.acked]
  | .confirm => [.acked, .confirmed]
  | .enabled => [.enabled]
  | .disable => [.enabled]

/-- The states the timer writes where it finds the alarm enabled. -/
def timerStates : List AlarmState := [.acked, .confirmed, .active]

/-- The `Id` a party writes for a state, if it writes the state at all. -/
def written (method : Method) : Party → AlarmState → Bool
  | .left, s => s == .active
  | .right, _ => method != .disable

/-- The accesses that store states, one after the other. -/
def stateWrites (b : AlarmState → Bool) (states : List AlarmState) :
    List (Access AlarmNode AlarmNode.Content AlarmEvent) :=
  states.flatMap fun s => [.write (.state s) (stateText s (b s)), .write (.id s) (b s)]

/-- Something for every node, put together from something for every state. -/
def nodeWise {F : AlarmNode → Type} (state : ∀ s, F (.state s)) (id : ∀ s, F (.id s))
    (comment : F .comment) : ∀ k, F k
  | .state s => state s
  | .id s => id s
  | .comment => comment

/-- The states each party writes. -/
def partyStates (timer method : List AlarmState) : Party → List AlarmState
  | .left => timer
  | .right => method

/-- The accesses of `sendAlarmEvent`, with what they saw. -/
def eventReads (seen : Cells AlarmNode AlarmNode.Content) :
    List (Access AlarmNode AlarmNode.Content AlarmEvent) :=
  [.active, .acked, .confirmed, .enabled].flatMap fun s =>
    [.read (.state s) (seen.value (.state s)) (seen.writer (.state s)),
      .read (.id s) (seen.value (.id s)) (seen.writer (.id s))]

/-- The writer that the last read of a node saw. -/
def lastSeen (k : AlarmNode) (as : List (Access AlarmNode AlarmNode.Content AlarmEvent)) :
    Option (Option Party) :=
  (as.filterMap fun
    | .read j _ w => if j = k then some w else none
    | _ => none).getLast?

theorem lastSeen_append {k : AlarmNode} {w : Option Party}
    (as : List (Access AlarmNode AlarmNode.Content AlarmEvent))
    {bs : List (Access AlarmNode AlarmNode.Content AlarmEvent)} (h : lastSeen k bs = some w) :
    lastSeen k (as ++ bs) = some w := by
  unfold lastSeen at h ⊢
  rw [List.filterMap_append, List.getLast?_append, h, Option.some_or]

theorem lastSeen_eventReads (as : List (Access AlarmNode AlarmNode.Content AlarmEvent))
    (seen : Cells AlarmNode AlarmNode.Content) (s : AlarmState) :
    lastSeen (.state s) (as ++ eventReads seen) = some (seen.writer (.state s)) ∧
      lastSeen (.id s) (as ++ eventReads seen) = some (seen.writer (.id s)) := by
  have hreads : lastSeen (.state s) (eventReads seen) = some (seen.writer (.state s)) ∧
      lastSeen (.id s) (eventReads seen) = some (seen.writer (.id s)) := by
    cases s <;> exact ⟨rfl, rfl⟩
  exact ⟨lastSeen_append as hreads.1, lastSeen_append as hreads.2⟩

section Traces
variable {a : Alarm} (h : a.Live)
  {as : List (Access AlarmNode AlarmNode.Content AlarmEvent)}
include h

theorem sendAlarmEvent_trace {eventMessage : String}
    (ht : (a.sendAlarmEvent eventMessage).Trace as) :
    ∃ seen, as = eventReads seen ++ [.emit (event a eventMessage seen.value)] := by
  simp only [sendAlarmEvent, activeState, activeStateId, ackedState, ackedStateId,
    confirmedState, confirmedStateId, enabledState, enabledStateId, getNode_of_live h] at ht
  obtain ⟨v₁, w₁, _, rfl, v₂, w₂, _, rfl, v₃, w₃, _, rfl, v₄, w₄, _, rfl, v₅, w₅, _, rfl,
    v₆, w₆, _, rfl, v₇, w₇, _, rfl, v₈, w₈, _, rfl, _, rfl, rfl⟩ := ht
  let text := AlarmState.select v₃ v₅ v₁ v₇
  let flag := AlarmState.select v₄ v₆ v₂ v₈
  let textWriter := AlarmState.select w₃ w₅ w₁ w₇
  let flagWriter := AlarmState.select w₄ w₆ w₂ w₈
  exact ⟨⟨nodeWise text flag ⟨"", ""⟩, nodeWise textWriter flagWriter none⟩, rfl⟩

theorem setState_trace {s : AlarmState} {b : Bool} {rest : Action Unit}
    (ht : (do
      a.setNode (.state s) (stateText s b)
      a.setNode (.id s) b
      rest).Trace as) :
    ∃ bs, as = .write (.state s) (stateText s b) :: .write (.id s) b :: bs ∧ rest.Trace bs := by
  simp only [setNode_of_live h] at ht
  obtain ⟨_, _, rfl, _, bs, rfl, ht⟩ := ht
  exact ⟨bs, rfl, ht⟩

/-- The accesses of one party: the reads of its gate, and behind it what it writes and the
event it fires. -/
def PartyTrace (a : Alarm) (b : AlarmState → Bool) (states : List AlarmState)
    (as : List (Access AlarmNode AlarmNode.Content AlarmEvent)) : Prop :=
  ∃ gate, (∀ x ∈ gate, ∃ k v w, x = .read k v w) ∧
    (states = [] ∧ as = gate ∨
      ∃ seen eventMessage, as = gate ++ stateWrites b states ++ eventReads seen ++
        [.emit (event a eventMessage seen.value)])

theorem method_trace {method : Method} (ht : (a.program method.operation).Trace as) :
    PartyTrace a (written method .right) method.states as := by
  refine ⟨[], by simp, Or.inr ?_⟩
  cases method with
  | acknowledge =>
    obtain ⟨bs, rfl, hrest⟩ := setState_trace h (s := .acked) (b := true) ht
    obtain ⟨seen, rfl⟩ := sendAlarmEvent_trace h hrest
    exact ⟨seen, _, rfl⟩
  | confirm =>
    obtain ⟨bs, rfl, hconfirmed⟩ := setState_trace h (s := .acked) (b := true) ht
    obtain ⟨cs, rfl, hrest⟩ := setState_trace h (s := .confirmed) (b := true) hconfirmed
    obtain ⟨seen, rfl⟩ := sendAlarmEvent_trace h hrest
    exact ⟨seen, _, rfl⟩
  | enabled =>
    obtain ⟨bs, rfl, hrest⟩ := setState_trace h (s := .enabled) (b := true) ht
    obtain ⟨seen, rfl⟩ := sendAlarmEvent_trace h hrest
    exact ⟨seen, _, rfl⟩
  | disable =>
    obtain ⟨bs, rfl, hrest⟩ := setState_trace h (s := .enabled) (b := false) ht
    obtain ⟨seen, rfl⟩ := sendAlarmEvent_trace h hrest
    exact ⟨seen, _, rfl⟩

theorem timerLoop_trace (method : Method) (ht : (a.program .timerLoop).Trace as) :
    PartyTrace a (written method .left) [] as ∨
      PartyTrace a (written method .left) timerStates as := by
  simp only [program, timerLoop, enabledStateId, getNode_of_live h] at ht
  obtain ⟨b, w, bs, rfl, ht⟩ := ht
  cases b with
  | false =>
    obtain rfl : bs = [] := ht
    exact Or.inl ⟨[.read (.id .enabled) false w], by simp, Or.inl ⟨rfl, rfl⟩⟩
  | true =>
    obtain ⟨cs, rfl, hconfirmed⟩ := setState_trace h (s := .acked) (b := false) ht
    obtain ⟨ds, rfl, hactive⟩ := setState_trace h (s := .confirmed) (b := false) hconfirmed
    obtain ⟨es, rfl, hrest⟩ := setState_trace h (s := .active) (b := true) hactive
    obtain ⟨seen, rfl⟩ := sendAlarmEvent_trace h hrest
    exact Or.inr ⟨[.read (.id .enabled) true w], by simp, Or.inr ⟨seen, _, rfl⟩⟩

end Traces

section PartyTrace
variable {a : Alarm} {b : AlarmState → Bool} {states : List AlarmState}
  {as : List (Access AlarmNode AlarmNode.Content AlarmEvent)}

theorem mem_stateWrites {k : AlarmNode} {v : k.Content} :
    Access.write k v ∈ stateWrites b states ↔
      ∃ s ∈ states, (.write k v : Access AlarmNode AlarmNode.Content AlarmEvent) =
          .write (.state s) (stateText s (b s)) ∨
        (.write k v : Access AlarmNode AlarmNode.Content AlarmEvent) = .write (.id s) (b s) := by
  simp [stateWrites]

theorem mem_of_write_state {s : AlarmState} {v : LocalizedText}
    (h : Access.write (.state s) v ∈ stateWrites b states) : s ∈ states := by
  obtain ⟨s', hs', heq | heq⟩ := mem_stateWrites.mp h
  · cases heq
    exact hs'
  · cases heq

theorem mem_of_write_id {s : AlarmState} {v : Bool}
    (h : Access.write (.id s) v ∈ stateWrites b states) : s ∈ states := by
  obtain ⟨s', hs', heq | heq⟩ := mem_stateWrites.mp h
  · cases heq
  · cases heq
    exact hs'

theorem PartyTrace.write_mem (h : PartyTrace a b states as) {k : AlarmNode} {v : k.Content} :
    Access.write k v ∈ as ↔ Access.write k v ∈ stateWrites b states := by
  obtain ⟨gate, hgate, ⟨rfl, rfl⟩ | ⟨seen, eventMessage, rfl⟩⟩ := h
  · constructor
    · intro hmem
      obtain ⟨_, _, _, heq⟩ := hgate _ hmem
      cases heq
    · intro hmem
      simp [stateWrites] at hmem
  · have hmem : Access.write k v ∉ gate := by
      intro hmem
      obtain ⟨_, _, _, heq⟩ := hgate _ hmem
      cases heq
    have hreads : Access.write k v ∉ eventReads seen := by simp [eventReads]
    simp [hmem, hreads]

/-- An event shows what the last reads before it saw. -/
theorem PartyTrace.emit_eq (h : PartyTrace a b states as) {before after} {e : AlarmEvent}
    (heq : as = before ++ .emit e :: after) :
    ∃ bs seen eventMessage, before = bs ++ eventReads seen ∧
      e = event a eventMessage seen.value := by
  obtain ⟨gate, hgate, hcases⟩ := h
  have hnot : Access.emit e ∉ gate := by
    intro hmem
    obtain ⟨_, _, _, heq⟩ := hgate _ hmem
    cases heq
  rcases hcases with ⟨-, rfl⟩ | ⟨seen, eventMessage, rfl⟩
  · simp [heq] at hnot
  · have hwrites : Access.emit e ∉ stateWrites b states := by simp [stateWrites]
    have hreads : Access.emit e ∉ eventReads seen := by simp [eventReads]
    obtain ⟨rfl, he, -⟩ := (List.append_cons_inj_of_notMem
      (by simp [hnot, hwrites, hreads]) (by simp)).mp heq
    obtain rfl := Access.emit.inj he
    exact ⟨_, seen, eventMessage, rfl, rfl⟩

end PartyTrace

/-! ### What an overlap leaves behind -/

/-- The content of a node, told by its last writer. -/
def contentBy (m : Nodes) (method : Method) : (k : AlarmNode) → Option Party → k.Content
  | k, none => m k
  | .state s, some p => stateText s (written method p s)
  | .id s, some p => written method p s
  | .comment, some _ => m .comment

theorem contentBy_agrees {m : Nodes} (hm : Agrees m) (method : Method) (s : AlarmState)
    (w : Option Party) :
    contentBy m method (.state s) w = stateText s (contentBy m method (.id s) w) := by
  cases w with
  | none => exact hm s
  | some p => rfl

/-- Where both parties write a state, they write different things. -/
theorem written_ne {method : Method} {s : AlarmState} (hl : s ∈ timerStates)
    (hr : s ∈ method.states) : written method .left s ≠ written method .right s := by
  revert hl hr
  cases method <;> cases s <;> decide

/-- What is known about an overlap: the states each party writes, and that nodes and reads
are told by their last writers. -/
structure Account (a : Alarm) (m : Nodes) (method : Method) (r : Overlap)
    (states : Party → List AlarmState) : Prop where
  left : states .left = [] ∨ states .left = timerStates
  right : states .right = method.states
  trace : ∀ p, PartyTrace a (written method p) (states p) (ofParty p r.2)
  value : ∀ k, r.1.value k = contentBy m method k (r.1.writer k)
  read : ∀ p k v w, (p, Access.read k v w) ∈ r.2 → v = contentBy m method k w
  mem_of_writer : ∀ {p s}, r.1.writer (.state s) = some p ∨ r.1.writer (.id s) = some p →
    s ∈ states p
  writer_isSome : ∀ {p s}, s ∈ states p →
    (r.1.writer (.state s)).isSome ∧ (r.1.writer (.id s)).isSome

theorem overlap_account {a : Alarm} (h : a.Live) (m : Nodes) (method : Method)
    (schedule : List Party) :
    ∃ states, Account a m method (overlap a m method schedule) states := by
  obtain ⟨htimer, hmethod⟩ := interleave_trace schedule (Cells.fresh m) (a.program .timerLoop)
    (a.program method.operation)
  have hhistory := interleave_history schedule (Cells.fresh m) (a.program .timerLoop)
    (a.program method.operation)
  change History (overlap a m method schedule).1 _ (overlap a m method schedule).2 at hhistory
  change Program.Trace _ (ofParty .left (overlap a m method schedule).2) at htimer
  change Program.Trace _ (ofParty .right (overlap a m method schedule).2) at hmethod
  generalize overlap a m method schedule = r at *
  obtain ⟨states, hl, hr, htrace⟩ : ∃ states : Party → List AlarmState,
      (states .left = [] ∨ states .left = timerStates) ∧ states .right = method.states ∧
      ∀ p, PartyTrace a (written method p) (states p) (ofParty p r.2) := by
    rcases timerLoop_trace h method htimer with ht | ht
    · refine ⟨partyStates [] method.states, Or.inl rfl, rfl, fun p => ?_⟩
      cases p with
      | left => exact ht
      | right => exact method_trace h hmethod
    · refine ⟨partyStates timerStates method.states, Or.inr rfl, rfl, fun p => ?_⟩
      cases p with
      | left => exact ht
      | right => exact method_trace h hmethod
  have hwrite : ∀ {p k v}, (p, Access.write k v) ∈ r.2 ↔
      Access.write k v ∈ stateWrites (written method p) (states p) := by
    intro p k v
    rw [← mem_ofParty]
    exact (htrace p).write_mem
  have hdetermined := hhistory.determined (contentBy m method) (fun k => by
    cases k <;> rfl) (by
      intro p k v hv
      obtain ⟨s, -, heq | heq⟩ := mem_stateWrites.mp (hwrite.mp hv) <;>
      · cases heq
        rfl)
  refine ⟨states, hl, hr, htrace, hdetermined.1, hdetermined.2, ?_, ?_⟩
  · rintro p s (hp | hp)
    · rcases hhistory.writer_wrote hp with hnone | ⟨v, hv⟩
      · simp [Cells.fresh] at hnone
      · exact mem_of_write_state (hwrite.mp hv)
    · rcases hhistory.writer_wrote hp with hnone | ⟨v, hv⟩
      · simp [Cells.fresh] at hnone
      · exact mem_of_write_id (hwrite.mp hv)
  · intro p s hs
    have hstate := hwrite.mpr (mem_stateWrites.mpr ⟨s, hs, Or.inl rfl⟩)
    have hid := hwrite.mpr (mem_stateWrites.mpr ⟨s, hs, Or.inr rfl⟩)
    exact ⟨hhistory.writer_isSome (Or.inr ⟨p, _, hstate⟩),
      hhistory.writer_isSome (Or.inr ⟨p, _, hid⟩)⟩

namespace Account
variable {a : Alarm} {m : Nodes} {method : Method} {r : Overlap}
  {states : Party → List AlarmState}

/-- A state that at most one party writes has one writer. -/
theorem writer_eq (h : Account a m method r states) {s : AlarmState}
    (hs : ¬ (s ∈ states .left ∧ s ∈ states .right)) :
    r.1.writer (.state s) = r.1.writer (.id s) := by
  cases hstate : r.1.writer (.state s) with
  | none =>
    cases hid : r.1.writer (.id s) with
    | none => rfl
    | some p =>
      have hsome := (h.writer_isSome (h.mem_of_writer (Or.inr hid))).1
      rw [hstate] at hsome
      cases hsome
  | some p =>
    have hp := h.mem_of_writer (Or.inl hstate)
    obtain ⟨q, hid⟩ := Option.isSome_iff_exists.mp (h.writer_isSome hp).2
    have hq := h.mem_of_writer (Or.inr hid)
    rw [hid]
    cases p <;> cases q
    · rfl
    · exact absurd ⟨hp, hq⟩ hs
    · exact absurd ⟨hq, hp⟩ hs
    · rfl

/-- A state agrees with its `Id` exactly if both come from the same writer. -/
theorem agrees_iff (h : Account a m method r states) (hm : Agrees m) (s : AlarmState) :
    r.1.value (.state s) = stateText s (r.1.value (.id s)) ↔
      r.1.writer (.state s) = r.1.writer (.id s) := by
  rw [h.value, h.value]
  constructor
  · intro hagrees
    by_contra hne
    have hboth : s ∈ states .left ∧ s ∈ states .right := by
      by_contra hs
      exact hne (h.writer_eq hs)
    obtain ⟨p, hp⟩ := Option.isSome_iff_exists.mp (h.writer_isSome hboth.1).1
    obtain ⟨q, hq⟩ := Option.isSome_iff_exists.mp (h.writer_isSome hboth.1).2
    rw [hp, hq] at hagrees hne
    have hw : written method p s = written method q s := stateText_injective s hagrees
    have hl : s ∈ timerStates := by
      rcases h.left with hl | hl
      · rw [hl] at hboth
        simp at hboth
      · exact hl ▸ hboth.1
    have hwne := written_ne hl (h.right ▸ hboth.2)
    cases p <;> cases q
    · exact hne rfl
    · exact hwne hw
    · exact hwne hw.symm
    · exact hne rfl
  · intro hw
    rw [hw]
    exact contentBy_agrees hm method s _

/-- `confirmed` without `acked` takes a `confirm` that is overtaken at the one node and
overtakes at the other. -/
theorem acked_of_confirmed_iff (h : Account a m method r states)
    (hm : m (.id .confirmed) = true → m (.id .acked) = true) :
    (r.1.value (.id .confirmed) = true → r.1.value (.id .acked) = true) ↔
      ¬ (method = .confirm ∧ r.1.writer (.id .confirmed) = some .right ∧
        r.1.writer (.id .acked) = some .left) := by
  constructor
  · rintro himp ⟨rfl, hc, ha⟩
    rw [h.value, h.value, hc, ha] at himp
    exact Bool.false_ne_true (himp rfl)
  · intro hnot hconfirmed
    have hacked : .acked ∈ method.states → written method .right .acked = true := by
      cases method <;> decide
    rw [h.value] at hconfirmed ⊢
    cases hc : r.1.writer (.id .confirmed) with
    | none =>
      -- nobody wrote `confirmed`, so the timer did not pass its gate
      have hleft : states .left = [] := by
        refine h.left.resolve_right fun hl => ?_
        have hsome := (h.writer_isSome (p := .left) (s := .confirmed) (hl ▸ by decide)).2
        rw [hc] at hsome
        cases hsome
      rw [hc] at hconfirmed
      cases ha : r.1.writer (.id .acked) with
      | none => exact hm hconfirmed
      | some p =>
        have hp := h.mem_of_writer (Or.inr ha)
        cases p with
        | left =>
          rw [hleft] at hp
          cases hp
        | right => exact hacked (h.right ▸ hp)
    | some p =>
      cases p with
      | left =>
        rw [hc] at hconfirmed
        cases hconfirmed
      | right =>
        have hp := h.mem_of_writer (Or.inr hc)
        rw [h.right] at hp
        obtain rfl : method = .confirm := by
          revert hp
          cases method <;> decide
        have hsome := (h.writer_isSome (p := .right) (s := .acked) (h.right ▸ by decide)).2
        obtain ⟨q, ha⟩ := Option.isSome_iff_exists.mp hsome
        cases q with
        | left => exact absurd ⟨rfl, hc, ha⟩ hnot
        | right =>
          rw [ha]
          exact hacked (by decide)

/-- An event shows a state that agrees with its `Id` if the reads of the two saw the same
writer. -/
theorem event_agrees (h : Account a m method r states) (hm : Agrees m) {p : Party}
    {before after} {e : AlarmEvent} (heq : ofParty p r.2 = before ++ .emit e :: after)
    {s : AlarmState} (hs : lastSeen (.state s) before = lastSeen (.id s) before) :
    e.state s = stateText s (e.id s) := by
  obtain ⟨bs, seen, eventMessage, rfl, rfl⟩ := (h.trace p).emit_eq heq
  obtain ⟨hstate, hid⟩ := lastSeen_eventReads bs seen s
  rw [hstate, hid, Option.some.injEq] at hs
  have hread : ∀ {k v w}, .read k v w ∈ eventReads seen → v = contentBy m method k w := by
    intro k v w hmem
    refine h.read p k v w (mem_ofParty.mp ?_)
    rw [heq]
    simp [hmem]
  have hvalue : seen.value (.state s) = contentBy m method (.state s) (seen.writer (.state s)) :=
    hread (by cases s <;> simp [eventReads])
  have hvalue' : seen.value (.id s) = contentBy m method (.id s) (seen.writer (.id s)) :=
    hread (by cases s <;> simp [eventReads])
  rw [event_state, event_id, hvalue, hvalue', hs]
  exact contentBy_agrees hm method s _

end Account

/-- The timer overtakes an `acknowledge` between its two writes: the text says acknowledged
and the `Id` says not. The overlap starts from the defaults of `startup`. -/
theorem overlap_torn :
    let a := ofNodes (nodeIdString "AlarmObject" 2)
    Consistent (started a emptyNodes) ∧
      ¬ StaysConsistent (overlap a (started a emptyNodes) .acknowledge
        [.left, .left, .right, .right, .left]) := by
  intro a
  refine ⟨?_, fun h => ?_⟩
  · have hstart := run_flagsConsistent (ofNodes_live (nodeIdString "AlarmObject" 2)) emptyNodes []
    exact ⟨started_agrees (ofNodes_live _) _, hstart.1, hstart.2⟩
  · have hacked := h.agrees .acked
    revert hacked
    decide

/-- What holds of every overlap of the timer with one method call. -/
theorem overlap_consistent {a : Alarm} (h : a.Live) {m : Nodes} (hm : Agrees m)
    (hacked : m (.id .confirmed) = true → m (.id .acked) = true) (method : Method)
    (schedule : List Party) :
    let r := overlap a m method schedule
    (∀ s, r.1.value (.state s) = stateText s (r.1.value (.id s)) ↔
        r.1.writer (.state s) = r.1.writer (.id s)) ∧
      (∀ s, ¬ (s ∈ timerStates ∧ s ∈ method.states) →
        r.1.value (.state s) = stateText s (r.1.value (.id s))) ∧
      ((r.1.value (.id .confirmed) = true → r.1.value (.id .acked) = true) ↔
        ¬ (method = .confirm ∧ r.1.writer (.id .confirmed) = some .right ∧
          r.1.writer (.id .acked) = some .left)) ∧
      ∀ p before e after, ofParty p r.2 = before ++ .emit e :: after →
        ∀ s, lastSeen (.state s) before = lastSeen (.id s) before →
          e.state s = stateText s (e.id s) := by
  intro r
  obtain ⟨states, haccount⟩ := overlap_account h m method schedule
  refine ⟨haccount.agrees_iff hm, fun s hs => ?_, haccount.acked_of_confirmed_iff hacked,
    fun p before e after heq s => haccount.event_agrees hm heq⟩
  apply (haccount.agrees_iff hm s).mpr
  apply haccount.writer_eq
  rintro ⟨hl, hr⟩
  refine hs ⟨?_, haccount.right ▸ hr⟩
  rcases haccount.left with hleft | hleft
  · rw [hleft] at hl
    cases hl
  · exact hleft ▸ hl

theorem overlap_consistent_acknowledge :
    let a := ofNodes (nodeIdString "AlarmObject" 2)
    let r := overlap a (started a emptyNodes) .acknowledge
      [.left, .left, .right, .right, .left]
    (r.1.value (.state .acked) = stateText .acked (r.1.value (.id .acked)) ↔
        r.1.writer (.state .acked) = r.1.writer (.id .acked)) ∧
      r.1.value (.state .active) = stateText .active (r.1.value (.id .active)) := by
  intro a r
  have hlive : a.Live := ofNodes_live _
  have h := overlap_consistent hlive (started_agrees hlive emptyNodes)
    (fun _ => rfl) .acknowledge [.left, .left, .right, .right, .left]
  exact ⟨h.1 .acked, h.2.1 .active (by decide)⟩

end ASNeGDemo.Alarm
