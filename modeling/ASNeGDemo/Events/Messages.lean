import ASNeGDemo.General.Runs
import ASNeGDemo.HistoricalAccess.Paging
import ASNeGDemo.HistoricalAccess.ReadEvents
import ASNeGDemo.Stack.Answers

/-!
The class `Event`. Each pass of its timer fires three events, and each event carries the next
number of one counter in its message.
-/
namespace ASNeGDemo.Events

open HistoricalAccess (BaseEventType)

structure State where
  namespaceIndex : ℕ
  counter : UInt32
  slotTimerElement : Option ℕ
  slotTimer : SlotTimer

/-- The object the constructor leaves behind. -/
def construct : State := ⟨0, 0, none, ⟨[]⟩⟩

/-! ### Startup -/

/-- How the service answers the requests of a startup. -/
structure EventServiceBehaviour where
  namespaceInfo : NamespaceInfoResponse
  registerEvents : RegisterForwardResponse

def uri : String := "http://ASNeG-Demo.de/Event/"

def getNamespaceInfo : NamespaceInfoResponse → Stage State :=
  findNamespace (fun namespaceIndex s => { s with namespaceIndex := namespaceIndex }) uri

def registerEventCallbacks (res : RegisterForwardResponse) : Stage State := fun s =>
  (s, some res.accepted)

def startTimerLoop : Stage State := fun s =>
  ({ s with
      slotTimerElement := some s.slotTimer.elements.length
      slotTimer := s.slotTimer.start 5000 }, some true)

def startup (b : EventServiceBehaviour) : Stage State :=
  Stage.chain
    [getNamespaceInfo b.namespaceInfo, registerEventCallbacks b.registerEvents, startTimerLoop]

def shutdown : Stage State := fun s => (s, some true)

/-! ### Events -/

/-- The classes of the events that are fired. -/
inductive EventType where
  | baseEventType | customerEventType | alarmConditionType
  deriving DecidableEq, Repr

/-- A fired event. The two variables are those of `CustomerEventType`. -/
structure FireEventRequest (P : Platform) where
  nodeId : NodeId
  eventType : EventType
  event : BaseEventType P
  variable1 : Variant (Value P) := .null
  variable2 : Variant (Value P) := .null

variable {P : Platform}

/-- `ss << text << counter_` as a message. -/
def messageVariant (P : Platform) (text : String) (counter : UInt32) : Variant (Value P) :=
  .scalar .localizedText ⟨"de", text ++ toString counter⟩

def event11 (P : Platform) (namespaceIndex : ℕ) (counter : UInt32) : FireEventRequest P where
  nodeId := nodeIdString "Event11" namespaceIndex
  eventType := .baseEventType
  event :=
    { message := messageVariant P "BaseEventType: Event message " counter
      severity := .scalar (.int .uint16) (IntType.wrap .uint16 100) }

def event12 (P : Platform) (namespaceIndex : ℕ) (counter : UInt32) : FireEventRequest P where
  nodeId := nodeIdString "Event12" namespaceIndex
  eventType := .customerEventType
  event :=
    { message := messageVariant P "CustomerEventType: Event message " counter
      severity := .scalar (.int .uint16) (IntType.wrap .uint16 100) }
  variable1 := .scalar .double (P.ofInt 1234)
  variable2 := .scalar .double (P.ofInt 5678)

def event21 (P : Platform) (namespaceIndex : ℕ) (counter : UInt32) : FireEventRequest P where
  nodeId := nodeIdString "Event21" namespaceIndex
  eventType := .alarmConditionType
  event :=
    { message := messageVariant P "BaseEventType: Event message " counter
      severity := .scalar (.int .uint16) (IntType.wrap .uint16 100) }

/-- The counter goes up and the event carries it; the status of the transaction is only
printed. -/
def sendEvent (event : ℕ → UInt32 → FireEventRequest P) (s : State) :
    State × FireEventRequest P :=
  let s := { s with counter := s.counter + 1 }
  (s, event s.namespaceIndex s.counter)

def sendEvent11 (P : Platform) : State → State × FireEventRequest P := sendEvent (event11 P)
def sendEvent12 (P : Platform) : State → State × FireEventRequest P := sendEvent (event12 P)
def sendEvent21 (P : Platform) : State → State × FireEventRequest P := sendEvent (event21 P)

def timerLoop (P : Platform) (s : State) : State × List (FireEventRequest P) :=
  let (s, first) := sendEvent11 P s
  let (s, second) := sendEvent12 P s
  let (s, third) := sendEvent21 P s
  (s, [first, second, third])

/-! ### Runs -/

/-- What happens to the object, in any order: startups whatever the service answers, shutdowns,
and passes of its timer. -/
inductive Occurrence where
  | startup (b : EventServiceBehaviour)
  | shutdown
  | timerLoop

def step (P : Platform) (s : State) : Occurrence → State × List (FireEventRequest P)
  | .startup b => ((startup b s).1, [])
  | .shutdown => ((shutdown s).1, [])
  | .timerLoop => timerLoop P s

/-- All events of a run, in order. -/
def firedFrom (P : Platform) (s : State) (es : List Occurrence) : List (FireEventRequest P) :=
  (Runs.run (step P) s es).2.flatten

/-- The namespace in force at each pass of the timer: the one found last, whether or not the
startup that found it went on from there. -/
def passNamespaces : ℕ → List Occurrence → List ℕ
  | _, [] => []
  | namespaceIndex, .startup b :: es =>
      passNamespaces ((firstNamespaceIndex uri b.namespaceInfo).getD namespaceIndex) es
  | namespaceIndex, .shutdown :: es => passNamespaces namespaceIndex es
  | namespaceIndex, .timerLoop :: es => namespaceIndex :: passNamespaces namespaceIndex es

/-- The event at a position, counted from zero over the life of the object. -/
def eventAt (P : Platform) (namespaceIndex position : ℕ) : FireEventRequest P :=
  let counter := UInt32.ofNat (position + 1)
  if position % 3 = 0 then event11 P namespaceIndex counter
  else if position % 3 = 1 then event12 P namespaceIndex counter
  else event21 P namespaceIndex counter

/-- A startup changes the namespace and the timer, and leaves the counter. -/
theorem startup_frame (b : EventServiceBehaviour) (s : State) :
    (startup b s).1.namespaceIndex =
        (firstNamespaceIndex uri b.namespaceInfo).getD s.namespaceIndex ∧
      (startup b s).1.counter = s.counter := by
  unfold startup
  cases hfirst : firstNamespaceIndex uri b.namespaceInfo with
  | none =>
    have hname : getNamespaceInfo b.namespaceInfo s = (s, some false) :=
      findNamespace_of_eq_none _ hfirst s
    rw [Stage.chain_cons_of_not (by simp [hname]), hname]
    exact ⟨rfl, rfl⟩
  | some namespaceIndex =>
    have hname : getNamespaceInfo b.namespaceInfo s =
        ({ s with namespaceIndex := namespaceIndex }, some true) :=
      findNamespace_of_eq_some _ hfirst s
    rw [Stage.chain_cons_of_true (by simp [hname]), hname]
    refine Stage.chain_preserves (I := fun s' : State =>
      s'.namespaceIndex = namespaceIndex ∧ s'.counter = s.counter) ?_ ⟨rfl, rfl⟩
    intro f hf s' hs'
    simp only [List.mem_cons, List.not_mem_nil, or_false] at hf
    rcases hf with rfl | rfl <;> exact hs'

/-- A pass after a number of complete passes fires the next three events. -/
theorem timerLoop_eq {s : State} {k : ℕ} (h : s.counter = UInt32.ofNat (3 * k)) :
    timerLoop P s = ({ s with counter := UInt32.ofNat (3 * (k + 1)) },
      [eventAt P s.namespaceIndex (3 * k), eventAt P s.namespaceIndex (3 * k + 1),
        eventAt P s.namespaceIndex (3 * k + 2)]) := by
  have hnext : ∀ n : ℕ, UInt32.ofNat n + 1 = UInt32.ofNat (n + 1) := fun n =>
    (UInt32.ofNat_add n 1).symm
  have hfirst : 3 * k % 3 = 0 := by omega
  have hsecond : (3 * k + 1) % 3 = 1 := by omega
  have hthird : (3 * k + 2) % 3 = 2 := by omega
  simp only [timerLoop, sendEvent11, sendEvent12, sendEvent21, sendEvent, h, hnext, eventAt,
    hfirst, hsecond, hthird]
  rfl

theorem firedFrom_closed (es : List Occurrence) (s : State) (k : ℕ)
    (h : s.counter = UInt32.ofNat (3 * k)) :
    (firedFrom P s es).length = 3 * (passNamespaces s.namespaceIndex es).length ∧
      (∀ i ns, (passNamespaces s.namespaceIndex es)[i / 3]? = some ns →
        (firedFrom P s es)[i]? = some (eventAt P ns (3 * k + i))) ∧
      (Runs.run (step P) s es).1.counter =
        UInt32.ofNat (3 * (k + (passNamespaces s.namespaceIndex es).length)) := by
  induction es generalizing s k with
  | nil => exact ⟨rfl, by simp [passNamespaces], h⟩
  | cons e es ih =>
    cases e with
    | startup b =>
      obtain ⟨hns, hcounter⟩ := startup_frame b s
      have hrest := ih (startup b s).1 k (hcounter.trans h)
      rw [hns] at hrest
      exact hrest
    | shutdown => exact ih s k h
    | timerLoop =>
      have hpass : timerLoop P s = _ := timerLoop_eq h
      have hfired : firedFrom P s (.timerLoop :: es) = (timerLoop P s).2 ++
          firedFrom P (timerLoop P s).1 es := rfl
      have hcounter : (Runs.run (step P) s (.timerLoop :: es)).1 =
          (Runs.run (step P) (timerLoop P s).1 es).1 := rfl
      obtain ⟨hlength, hevents, hlast⟩ := ih (timerLoop P s).1 (k + 1) (by rw [hpass])
      have hns : (timerLoop P s).1.namespaceIndex = s.namespaceIndex := by rw [hpass]
      rw [hns] at hlength hevents hlast
      have hthree : (timerLoop P s).2.length = 3 := rfl
      rw [hfired, hcounter]
      refine ⟨?_, ?_, ?_⟩
      · rw [List.length_append, hlength, hthree, passNamespaces, List.length_cons]
        omega
      · intro i ns hi
        rw [passNamespaces] at hi
        by_cases hlt : i < 3
        · have hdiv : i / 3 = 0 := by omega
          rw [hdiv, List.getElem?_cons_zero] at hi
          obtain rfl := Option.some.inj hi
          rw [hpass, List.getElem?_append_left hlt]
          have hi' : i = 0 ∨ i = 1 ∨ i = 2 := by omega
          rcases hi' with rfl | rfl | rfl <;> rfl
        · obtain ⟨j, rfl⟩ : ∃ j, i = j + 3 := ⟨i - 3, by omega⟩
          rw [Nat.add_div_right j (by norm_num), List.getElem?_cons_succ] at hi
          rw [List.getElem?_append_right (by omega), hthree, Nat.add_sub_cancel, hevents j ns hi]
          congr 2
          omega
      · rw [hlast, passNamespaces, List.length_cons]
        congr 1
        omega

/-- Every event is the one of its position. -/
theorem firedFrom_construct {es : List Occurrence} {i : ℕ} {request : FireEventRequest P}
    (h : (firedFrom P construct es)[i]? = some request) : ∃ ns, request = eventAt P ns i := by
  obtain ⟨hlength, hevents, -⟩ := firedFrom_closed (P := P) es construct 0 rfl
  have hlt := (List.getElem?_eq_some_iff.mp h).1
  rw [hlength] at hlt
  have hpass : i / 3 < (passNamespaces construct.namespaceIndex es).length := by omega
  have hevent := hevents i _ (List.getElem?_eq_getElem hpass)
  rw [Nat.mul_zero, Nat.zero_add] at hevent
  exact ⟨_, Option.some.inj (h.symm.trans hevent)⟩

/-- However often the object is started and shut down: the events it fires are numbered through
from one on, three to a pass of the timer, and go to the nodes of the namespace found last. -/
theorem fired_numbered (P : Platform) (es : List Occurrence) :
    let fired := firedFrom P construct es
    let namespaces := passNamespaces 0 es
    fired.length = 3 * namespaces.length ∧
      (∀ i ns, namespaces[i / 3]? = some ns → fired[i]? = some (eventAt P ns i)) ∧
      (Runs.run (step P) construct es).1.counter = UInt32.ofNat fired.length := by
  intro fired namespaces
  obtain ⟨hlength, hevents, hcounter⟩ := firedFrom_closed (P := P) es construct 0 rfl
  refine ⟨hlength, ?_, ?_⟩
  · intro i ns hi
    have hevent := hevents i ns hi
    rwa [Nat.mul_zero, Nat.zero_add] at hevent
  · rw [hcounter, hlength, Nat.zero_add]

/-! ### Messages -/

theorem toString_injective : Function.Injective (toString : UInt32 → String) := by
  intro m n h
  have hm := HistoricalAccess.lexicalCastUInt32_readsBack m
  rw [h, HistoricalAccess.lexicalCastUInt32_readsBack n] at hm
  exact (Option.some.inj hm).symm

theorem messageVariant_text {text text' : String} {m n : UInt32}
    (h : messageVariant P text m = messageVariant P text' n) :
    text ++ toString m = text' ++ toString n := by
  have hvalue : (⟨"de", text ++ toString m⟩ : LocalizedText) = ⟨"de", text' ++ toString n⟩ :=
    eq_of_heq (Variant.scalar.inj h).2
  exact congrArg LocalizedText.text hvalue

theorem messageVariant_inj {text : String} {m n : UInt32} :
    messageVariant P text m = messageVariant P text n ↔ m = n := by
  constructor
  · intro h
    exact toString_injective (String.append_right_inj text |>.mp (messageVariant_text h))
  · rintro rfl
    rfl

theorem base_ne_customer (m n : UInt32) :
    messageVariant P "BaseEventType: Event message " m ≠
      messageVariant P "CustomerEventType: Event message " n := by
  intro h
  have hlists := congrArg String.toList (messageVariant_text h)
  rw [String.toList_append, String.toList_append] at hlists
  have hbase : ∃ l, "BaseEventType: Event message ".toList = 'B' :: l := ⟨_, rfl⟩
  have hcustomer : ∃ l, "CustomerEventType: Event message ".toList = 'C' :: l := ⟨_, rfl⟩
  obtain ⟨base, hbase⟩ := hbase
  obtain ⟨customer, hcustomer⟩ := hcustomer
  rw [hbase, hcustomer, List.cons_append, List.cons_append] at hlists
  exact absurd (List.cons.inj hlists).1 (by decide)

theorem eventAt_message (ns i : ℕ) :
    (eventAt P ns i).event.message =
      if i % 3 = 1 then messageVariant P "CustomerEventType: Event message " (UInt32.ofNat (i + 1))
      else messageVariant P "BaseEventType: Event message " (UInt32.ofNat (i + 1)) := by
  unfold eventAt
  split_ifs with hfirst hsecond
  · omega
  · rfl
  · rfl
  · rfl

theorem ofNat_succ_eq_iff {i j : ℕ} :
    UInt32.ofNat (i + 1) = UInt32.ofNat (j + 1) ↔ i ≡ j [MOD 2 ^ 32] := by
  rw [← UInt32.toNat_inj, UInt32.toNat_ofNat', UInt32.toNat_ofNat']
  exact Nat.ModEq.add_iff_right rfl

/-- Two events carry the same message exactly if their numbers agree in 32 bits and both or
neither are of the middle kind of a pass. So a message does not come back within `2 ^ 32` events,
and comes back with the next number of that value only from `Event21` to `Event11`. -/
theorem fired_message_eq_iff (P : Platform) (es : List Occurrence) {i j : ℕ}
    {first second : FireEventRequest P} (hi : (firedFrom P construct es)[i]? = some first)
    (hj : (firedFrom P construct es)[j]? = some second) :
    (first.event.message = second.event.message ↔
        i ≡ j [MOD 2 ^ 32] ∧ (i % 3 = 1 ↔ j % 3 = 1)) ∧
      (i < j → j < i + 2 ^ 32 → first.event.message ≠ second.event.message) ∧
      (j = i + 2 ^ 32 → (first.event.message = second.event.message ↔ i % 3 = 2)) := by
  obtain ⟨ns, rfl⟩ := firedFrom_construct hi
  obtain ⟨ns', rfl⟩ := firedFrom_construct hj
  have hiff : (eventAt P ns i).event.message = (eventAt P ns' j).event.message ↔
      i ≡ j [MOD 2 ^ 32] ∧ (i % 3 = 1 ↔ j % 3 = 1) := by
    rw [eventAt_message, eventAt_message, ← ofNat_succ_eq_iff]
    split_ifs with hmiddle hmiddle' hmiddle'
    · rw [messageVariant_inj]
      simp [hmiddle, hmiddle']
    · exact iff_of_false (base_ne_customer _ _).symm (by simp [hmiddle, hmiddle'])
    · exact iff_of_false (base_ne_customer _ _) (by simp [hmiddle, hmiddle'])
    · rw [messageVariant_inj]
      simp [hmiddle, hmiddle']
  refine ⟨hiff, ?_, ?_⟩
  · intro hlt hclose hsame
    have hmod := (hiff.mp hsame).1
    unfold Nat.ModEq at hmod
    omega
  · rintro rfl
    rw [hiff]
    unfold Nat.ModEq
    omega

/-- The first event before a restart and the last one after it. -/
theorem fired_message_eq_iff_restart :
    let b : EventServiceBehaviour :=
      ⟨⟨.success, OrderedMap.empty.insertAll [(0, "http://opcfoundation.org/UA/"), (1, uri)]⟩,
        ⟨.success, .success⟩⟩
    let fired := firedFrom exactPlatform construct
      [.startup b, .timerLoop, .shutdown, .startup b, .timerLoop]
    fired.length = 6 ∧ ∃ first second, fired[0]? = some first ∧ fired[5]? = some second ∧
      first.event.message ≠ second.event.message := by
  intro b fired
  have hfirst : fired[0]? = some (event11 exactPlatform 1 1) := rfl
  have hsecond : fired[5]? = some (event21 exactPlatform 1 6) := rfl
  refine ⟨rfl, _, _, hfirst, hsecond, ?_⟩
  exact (fired_message_eq_iff exactPlatform _ hfirst hsecond).2.1 (by decide) (by decide)

end ASNeGDemo.Events
