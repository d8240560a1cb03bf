import ASNeGDemo.Function.Method
import ASNeGDemo.Stack.Answers

/-!
The classes of the library that only register callbacks: `ServiceFunction`, through which a client
has the application loaded again, the startup of `HistoricalAccess`, `Discovery` and
`CameraAnimation`. A registration outlives the startup that made it, so a method can be called
under an id of a namespace index that has changed since.
-/
namespace ASNeGDemo

/-! ### `ServiceFunction` -/

namespace ServiceFunction

/-- The object, and the methods whose calls the service forwards to it. -/
structure State where
  namespaceIndex : ℕ
  reloadFunc : NodeId
  forwarded : List NodeId

/-- The object the constructor leaves behind. -/
def construct : State := ⟨0, nodeId 0 0, []⟩

/-- How the service answers the requests of a startup. -/
structure ReloadServiceBehaviour where
  namespaceInfo : NamespaceInfoResponse
  reload : RegisterForwardResponse

def uri : String := "http://ASNeG-Demo/Service/"

def getNamespaceInfo : NamespaceInfoResponse → Stage State :=
  findNamespace (fun namespaceIndex s =>
    { s with
      namespaceIndex := namespaceIndex
      reloadFunc := nodeIdString "Service.Reload" namespaceIndex }) uri

def registerCallbacks (res : RegisterForwardResponse) (name : String) : Stage State := fun s =>
  if res.accepted then
    ({ s with forwarded := s.forwarded ++ [nodeIdString name s.namespaceIndex] }, some true)
  else (s, some false)

def startup (b : ReloadServiceBehaviour) : Stage State :=
  Stage.chain [getNamespaceInfo b.namespaceInfo, registerCallbacks b.reload "Service.Reload"]

/-- `method`: the status code, and whether it calls `reload` of the service. -/
def method (s : State) (methodNodeId : NodeId) : StatusCode × Bool :=
  if methodNodeId = s.reloadFunc then (.success, true) else (.badNotSupported, false)

/-- Once there is a registration, the object knows the id of its method, and every registration is
one of it under some namespace index. -/
structure Registered (s : State) : Prop where
  reloadFunc : s.forwarded ≠ [] → s.reloadFunc = nodeIdString "Service.Reload" s.namespaceIndex
  forwarded : ∀ n ∈ s.forwarded, n = nodeIdString "Service.Reload" n.namespaceIndex

theorem Registered.startup {s : State} (h : Registered s) (b : ReloadServiceBehaviour) :
    Registered (startup b s).1 := by
  unfold ServiceFunction.startup
  cases hfirst : firstNamespaceIndex uri b.namespaceInfo with
  | none =>
    have hinfo : getNamespaceInfo b.namespaceInfo s = (s, some false) :=
      findNamespace_of_eq_none _ hfirst s
    rw [Stage.chain_cons_of_not (by simp [hinfo]), hinfo]
    exact h
  | some namespaceIndex =>
    have hinfo : getNamespaceInfo b.namespaceInfo s =
        ({ s with
            namespaceIndex := namespaceIndex
            reloadFunc := nodeIdString "Service.Reload" namespaceIndex }, some true) :=
      findNamespace_of_eq_some _ hfirst s
    rw [Stage.chain_cons_of_true (by rw [hinfo]), hinfo, Stage.chain_singleton]
    unfold registerCallbacks
    split_ifs
    · refine ⟨fun _ => rfl, ?_⟩
      intro n hn
      obtain hold | hnew := List.mem_append.mp hn
      · exact h.forwarded n hold
      · rw [List.mem_singleton.mp hnew]
        rfl
    · exact ⟨fun _ => rfl, h.forwarded⟩

def startups (bs : List ReloadServiceBehaviour) (s : State) : State :=
  bs.foldl (fun s b => (startup b s).1) s

theorem startups_registered {s : State} (h : Registered s) (bs : List ReloadServiceBehaviour) :
    Registered (startups bs s) :=
  List.foldlRecOn (motive := Registered) bs _ h fun _ hs b _ => hs.startup b

theorem construct_registered : Registered construct :=
  ⟨fun hne => absurd rfl hne, fun _ hn => nomatch hn⟩

end ServiceFunction

/-! ### The methods of `Function` -/

namespace Function

/-- `registerCallbacks`, with the methods whose calls the service forwards to the object. -/
def forward (res : RegisterForwardMethodResponse) (name : String) :
    Stage (State × List NodeId) := fun s =>
  if res.transactionStatusCode = .success ∧ res.statusCode = .success then
    ((s.1, s.2 ++ [nodeIdString name s.1.namespaceIndex]), some true)
  else (s, some false)

def findMethods (res : NamespaceInfoResponse) : Stage (State × List NodeId) :=
  Stage.within Prod.fst (fun s state => (state, s.2)) (getNamespaceInfo res)

def startupForwarding (b : MethodServiceBehaviour) : Stage (State × List NodeId) :=
  Stage.chain
    [ findMethods b.namespaceInfo,
      forward b.func1 "func1",
      forward b.func2 "func2",
      forward b.func3 "func3",
      forward b.funcMult "funcMult" ]

/-- Seen without the registrations it is the startup. -/
theorem startupForwarding_fst (b : MethodServiceBehaviour) (s : State × List NodeId) :
    startup b s.1 = ((startupForwarding b s).1.1, (startupForwarding b s).2) := by
  have hforward (res : RegisterForwardMethodResponse) (name : String) (s : State × List NodeId) :
      registerCallbacks res s.1 = ((forward res name s).1.1, (forward res name s).2) := by
    unfold registerCallbacks forward
    by_cases haccepted : res.transactionStatusCode = .success ∧ res.statusCode = .success
    · simp [haccepted]
    · rw [if_neg haccepted]
      simpa using haccepted
  unfold startup startupForwarding
  refine Stage.chain_simulates Prod.fst ?_ s
  refine .cons (fun s => rfl) (.cons (hforward _ _) (.cons (hforward _ _) ?_))
  exact .cons (hforward _ _) (.cons (hforward _ _) .nil)

def methodNames : List String := ["func1", "func2", "func3", "funcMult"]

structure Registered (s : State × List NodeId) : Prop where
  named : s.2 ≠ [] → s.1.Named
  forwarded : ∀ n ∈ s.2, ∃ name ∈ methodNames, n = nodeIdString name n.namespaceIndex

theorem Registered.startup {s : State × List NodeId} (h : Registered s)
    (b : MethodServiceBehaviour) : Registered (startupForwarding b s).1 := by
  have hforward {res : RegisterForwardMethodResponse} {name : String} (hname : name ∈ methodNames)
      (s : State × List NodeId) (hs : s.1.Named ∧ Registered s) :
      (forward res name s).1.1.Named ∧ Registered (forward res name s).1 := by
    unfold forward
    split_ifs
    · refine ⟨hs.1, fun _ => hs.1, ?_⟩
      intro n hn
      obtain hold | hnew := List.mem_append.mp hn
      · exact hs.2.forwarded n hold
      · exact ⟨name, hname, List.mem_singleton.mp hnew ▸ rfl⟩
    · exact hs
  unfold startupForwarding
  obtain hnamed | ⟨-, hlost⟩ := getNamespaceInfo_cases b.namespaceInfo s.1
  · have hfirst : (findMethods b.namespaceInfo s).1.1.Named ∧
        Registered (findMethods b.namespaceInfo s).1 :=
      ⟨hnamed, fun _ => hnamed, h.forwarded⟩
    by_cases hfound : (findMethods b.namespaceInfo s).2 = some true
    · rw [Stage.chain_cons_of_true hfound]
      refine (Stage.chain_preserves (I := fun s => s.1.Named ∧ Registered s) ?_ hfirst).2
      intro f hf s hs
      simp only [List.mem_cons, List.not_mem_nil, or_false] at hf
      rcases hf with rfl | rfl | rfl | rfl <;> exact hforward (by simp [methodNames]) s hs
    · rw [Stage.chain_cons_of_not hfound]
      exact hfirst.2
  · have hstage : findMethods b.namespaceInfo s = (s, some false) := by
      unfold findMethods Stage.within
      rw [hlost]
    rw [Stage.chain_cons_of_not (by rw [hstage]; simp), hstage]
    exact h

def startupsForwarding (bs : List MethodServiceBehaviour) (s : State × List NodeId) :
    State × List NodeId :=
  bs.foldl (fun s b => (startupForwarding b s).1) s

theorem startupsForwarding_registered {s : State × List NodeId} (h : Registered s)
    (bs : List MethodServiceBehaviour) : Registered (startupsForwarding bs s) :=
  List.foldlRecOn (motive := Registered) bs _ h fun _ hs b _ => hs.startup b

theorem construct_registered : Registered (construct, []) :=
  ⟨fun hne => absurd rfl hne, fun _ hn => nomatch hn⟩

section Calls
variable {P : Platform} (getArray : List UInt32Value → Option UInt32Value)

/-- The call is answered as one of a method the object does not know. -/
def Unknown (ctx : ApplicationMethodContext P) (answer : Option (ApplicationMethodContext P)) :
    Prop :=
  answer = some { ctx with statusCode := .badNotSupported }

theorem multiply_known (ctx : ApplicationMethodContext P) : ¬ Unknown ctx (multiply getArray ctx) := by
  intro hunknown
  have hstatus : ∀ after, multiply getArray ctx = some after → after.statusCode ≠ .badNotSupported := by
    intro after hafter
    by_cases hpair : ∃ argument1 argument2, ctx.inputArguments = [argument1, argument2]
    · obtain ⟨argument1, argument2, hinputs⟩ := hpair
      rw [multiply_pair getArray hinputs] at hafter
      split_ifs at hafter
      · rw [← Option.some.inj hafter]
        exact nofun
      · obtain ⟨value1, -, hafter⟩ := Option.bind_eq_some_iff.mp hafter
        rw [← Option.some.inj hafter]
        exact nofun
      · obtain ⟨value1, -, hafter⟩ := Option.bind_eq_some_iff.mp hafter
        obtain ⟨value2, -, hafter⟩ := Option.bind_eq_some_iff.mp hafter
        rw [← Option.some.inj hafter]
        exact nofun
    · rw [multiply_rejected getArray hpair] at hafter
      rw [← Option.some.inj hafter]
      exact nofun
  exact hstatus _ hunknown rfl

/-- A method is known under the namespace index the object has. -/
theorem unknown_method_iff {s : State} (hs : s.Named) {name : String} (hname : name ∈ methodNames)
    {ctx : ApplicationMethodContext P} {namespaceIndex : ℕ}
    (hid : ctx.methodNodeId = nodeIdString name namespaceIndex) :
    Unknown ctx (method getArray s ctx) ↔ namespaceIndex ≠ s.namespaceIndex := by
  constructor
  · rintro hunknown rfl
    have hanswer : ¬ Unknown ctx (method getArray s ctx) := by
      unfold method
      rw [hs.func1, hs.func2, hs.func3, hs.funcMult, hid]
      simp only [nodeIdString_inj]
      split_ifs with h1 h2 h3 hmult
      · simp [Unknown]
      · simp [Unknown]
      · simp [Unknown]
      · exact multiply_known getArray ctx
      · simp [methodNames, h1, h2, h3, hmult] at hname
    exact hanswer hunknown
  · intro hne
    apply method_unknown hs
    intro other _ heq
    rw [hid] at heq
    exact hne (congrArg NodeId.namespaceIndex heq)

end Calls

end Function

/-- However often the application is loaded again: a call that the service forwards for any of the
registrations so far is taken for that of a known method, by both classes, exactly if the id is of
the namespace index the class has found last. So after a change of the index every method that
was not registered anew is lost, and with `Service.Reload` the way to load the application again. -/
theorem forwarded_methods (P : Platform)
    (getArray : List Function.UInt32Value → Option Function.UInt32Value)
    (bs : List Function.MethodServiceBehaviour)
    (bs' : List ServiceFunction.ReloadServiceBehaviour) :
    let function := Function.startupsForwarding bs (Function.construct, [])
    let service := ServiceFunction.startups bs' ServiceFunction.construct
    (function.1 = Function.startups bs Function.construct ∧
      ∀ n ∈ function.2, ∀ ctx : Function.ApplicationMethodContext P, ctx.methodNodeId = n →
        (Function.Unknown ctx (Function.method getArray function.1 ctx) ↔
          n.namespaceIndex ≠ function.1.namespaceIndex)) ∧
    ∀ n ∈ service.forwarded, ServiceFunction.method service n =
      if n.namespaceIndex = service.namespaceIndex then (.success, true)
      else (.badNotSupported, false) := by
  intro function service
  have hfunction : Function.Registered function :=
    Function.startupsForwarding_registered Function.construct_registered bs
  have hservice : ServiceFunction.Registered service :=
    ServiceFunction.startups_registered ServiceFunction.construct_registered bs'
  refine ⟨⟨?_, ?_⟩, ?_⟩
  · unfold function Function.startupsForwarding Function.startups
    exact (List.foldl_hom Prod.fst fun s b =>
      congrArg Prod.fst (Function.startupForwarding_fst b s)).symm
  · intro n hn ctx hid
    obtain ⟨name, hname, hname'⟩ := hfunction.forwarded n hn
    exact Function.unknown_method_iff getArray (hfunction.named (List.ne_nil_of_mem hn)) hname
      (hid.trans hname')
  · intro n hn
    have hreload := hservice.reloadFunc (List.ne_nil_of_mem hn)
    unfold ServiceFunction.method
    rw [hreload]
    refine if_congr ?_ rfl rfl
    constructor
    · rintro rfl
      rfl
    · intro heq
      rw [hservice.forwarded n hn, heq]

/-! ### The other startups -/

namespace HistoricalAccess

/-- The object, and the nodes whose history the service has it read. -/
structure State where
  namespaceIndex : ℕ
  dataNodes : List NodeId
  eventNodes : List NodeId

def construct : State := ⟨0, [], []⟩

/-- How the service answers the requests of a startup. -/
structure HistoryServiceBehaviour where
  namespaceInfo : NamespaceInfoResponse
  data : RegisterForwardNodeResponse
  event : RegisterForwardNodeResponse

def uri : String := "http://ASNeG-Demo.de/HistoricalAccess/"

def getNamespaceInfo : NamespaceInfoResponse → Stage State :=
  findNamespace (fun namespaceIndex s => { s with namespaceIndex := namespaceIndex }) uri

def registerHADataCallback (res : RegisterForwardNodeResponse) : Stage State := fun s =>
  if allRegistered res then
    ({ s with dataNodes := s.dataNodes ++ [nodeIdString "DoubleValue" s.namespaceIndex] },
      some true)
  else (s, some false)

def registerHAEventCallback (res : RegisterForwardNodeResponse) : Stage State := fun s =>
  if allRegistered res then
    ({ s with eventNodes := s.eventNodes ++ [nodeIdString "EventObject" s.namespaceIndex] },
      some true)
  else (s, some false)

def startup (b : HistoryServiceBehaviour) : Stage State :=
  Stage.chain
    [ getNamespaceInfo b.namespaceInfo,
      registerHADataCallback b.data,
      registerHAEventCallback b.event ]

end HistoricalAccess

namespace Discovery

/-- The status of the response is not looked at. -/
def startup {σ : Type} (res : RegisterForwardResponse) : Stage σ := fun s =>
  (s, some (res.transactionStatusCode = .success))

end Discovery

namespace CameraAnimation

/-- The startup returns before it does anything. -/
def startup {σ : Type} : Stage σ := fun s => (s, some true)

end CameraAnimation

end ASNeGDemo
