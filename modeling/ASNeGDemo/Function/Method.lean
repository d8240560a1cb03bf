import ASNeGDemo.HistoricalAccess.ReadEvents
import ASNeGDemo.Stack.Service

/-!
The methods of the class `Function`. The four method ids are made when the namespace is found;
the callback is registered behind that.
-/
namespace ASNeGDemo.Function

open HistoricalAccess (StackArray)

/-- The object. -/
structure State where
  namespaceIndex : ℕ
  func1 : NodeId
  func2 : NodeId
  func3 : NodeId
  funcMult : NodeId

/-- The object the constructor leaves behind. -/
def construct : State := ⟨0, nodeId 0 0, nodeId 0 0, nodeId 0 0, nodeId 0 0⟩

/-! ### Startup -/

structure RegisterForwardMethodResponse where
  transactionStatusCode : StatusCode
  statusCode : StatusCode

/-- How the service answers the requests of a startup. -/
structure MethodServiceBehaviour where
  namespaceInfo : NamespaceInfoResponse
  func1 : RegisterForwardMethodResponse
  func2 : RegisterForwardMethodResponse
  func3 : RegisterForwardMethodResponse
  funcMult : RegisterForwardMethodResponse

def uri : String := "http://ASNeG-Demo.de/Function/"

/-- The loop over the namespace table stops at the first index of the name. -/
def getNamespaceInfo (res : NamespaceInfoResponse) : Stage State := fun s =>
  if res.statusCode = .success then
    match res.index2NamespaceMap.entries.find? (·.2 = uri) with
    | some (namespaceIndex, _) =>
        ({ namespaceIndex := namespaceIndex
           func1 := nodeIdString "func1" namespaceIndex
           func2 := nodeIdString "func2" namespaceIndex
           func3 := nodeIdString "func3" namespaceIndex
           funcMult := nodeIdString "funcMult" namespaceIndex }, some true)
    | none => (s, some false)
  else (s, some false)

def registerCallbacks (res : RegisterForwardMethodResponse) : Stage State := fun s =>
  (s, some (res.transactionStatusCode = .success && res.statusCode = .success))

def startup (b : MethodServiceBehaviour) : Stage State :=
  Stage.chain
    [ getNamespaceInfo b.namespaceInfo,
      registerCallbacks b.func1,
      registerCallbacks b.func2,
      registerCallbacks b.func3,
      registerCallbacks b.funcMult ]

/-! ### Calls -/

variable {P : Platform}

structure ApplicationMethodContext (P : Platform) where
  methodNodeId : NodeId
  inputArguments : List (Variant (Value P))
  outputArguments : StackArray (Variant (Value P))
  statusCode : StatusCode

/-- An `OpcUaUInt32`. -/
abbrev UInt32Value := IntType.Val .uint32

def uint32 (P : Platform) (value : UInt32Value) : Variant (Value P) := .scalar (.int .uint32) value

/-- `get<OpcUaUInt32>()`; `none` where it throws. What it makes of an array is up to the stack. -/
def getUInt32 (getArray : List UInt32Value → Option UInt32Value) :
    Variant (Value P) → Option UInt32Value
  | .scalar (.int .uint32) value => some value
  | .array (.int .uint32) values => getArray values
  | _ => none

/-- `value1 * value2`. -/
def product (value1 value2 : UInt32Value) : UInt32Value := IntType.wrap .uint32 (value1 * value2)

/-- A call of `funcMult`; `none` is a call that throws. -/
def multiply (getArray : List UInt32Value → Option UInt32Value)
    (ctx : ApplicationMethodContext P) : Option (ApplicationMethodContext P) :=
  match ctx.inputArguments with
  | [argument1, argument2] =>
      if argument1.variantType P ≠ .int .uint32 then
        some { ctx with statusCode := .badInvalidArgument }
      else do
        let value1 ← getUInt32 getArray argument1
        if argument2.variantType P ≠ .int .uint32 then
          some { ctx with statusCode := .badInvalidArgument }
        else do
          let value2 ← getUInt32 getArray argument2
          let value3 := product value1 value2
          some { ctx with
            outputArguments := (StackArray.resized 1).pushBack (uint32 P value3)
            statusCode := .success }
  | _ => some { ctx with statusCode := .badInvalidArgument }

/-- `method`; `none` is a call that throws. -/
def method (getArray : List UInt32Value → Option UInt32Value) (s : State)
    (ctx : ApplicationMethodContext P) : Option (ApplicationMethodContext P) :=
  if ctx.methodNodeId = s.func1 then some { ctx with statusCode := .success }
  else if ctx.methodNodeId = s.func2 then some { ctx with statusCode := .success }
  else if ctx.methodNodeId = s.func3 then
    some { ctx with
      outputArguments :=
        ((StackArray.resized 2).pushBack (uint32 P (IntType.wrap .uint32 1))).pushBack
          (uint32 P (IntType.wrap .uint32 2))
      statusCode := .success }
  else if ctx.methodNodeId = s.funcMult then multiply getArray ctx
  else some { ctx with statusCode := .badNotSupported }

/-! ### The ids of the methods -/

/-- The namespace is one of the table. -/
def NamespaceFound (res : NamespaceInfoResponse) : Prop :=
  res.statusCode = .success ∧ ∃ entry ∈ res.index2NamespaceMap.entries, entry.2 = uri

/-- The object knows the ids of its methods. -/
structure State.Named (s : State) : Prop where
  func1 : s.func1 = nodeIdString "func1" s.namespaceIndex
  func2 : s.func2 = nodeIdString "func2" s.namespaceIndex
  func3 : s.func3 = nodeIdString "func3" s.namespaceIndex
  funcMult : s.funcMult = nodeIdString "funcMult" s.namespaceIndex

/-- The ids are set with the namespace, or the object stays as it is. -/
theorem getNamespaceInfo_cases (res : NamespaceInfoResponse) (s : State) :
    (getNamespaceInfo res s).1.Named ∨
      ¬ NamespaceFound res ∧ getNamespaceInfo res s = (s, some false) := by
  unfold getNamespaceInfo NamespaceFound
  split_ifs with hstatus
  · cases hfind : res.index2NamespaceMap.entries.find? (·.2 = uri) with
    | none =>
      rw [List.find?_eq_none] at hfind
      refine .inr ⟨?_, rfl⟩
      rintro ⟨-, entry, hentry, huri⟩
      exact hfind entry hentry (by simpa using huri)
    | some entry => exact .inl ⟨rfl, rfl, rfl, rfl⟩
  · exact .inr ⟨fun hfound => hstatus hfound.1, rfl⟩

/-- The registrations leave the object as it is, whether they succeed or not. -/
theorem startup_state (b : MethodServiceBehaviour) (s : State) :
    (startup b s).1 = (getNamespaceInfo b.namespaceInfo s).1 := by
  unfold startup
  by_cases h : (getNamespaceInfo b.namespaceInfo s).2 = some true
  · rw [Stage.chain_cons_of_true h]
    apply Stage.chain_preserves (I := (· = (getNamespaceInfo b.namespaceInfo s).1))
    · intro f hf s' hs'
      simp only [List.mem_cons, List.not_mem_nil, or_false] at hf
      rcases hf with rfl | rfl | rfl | rfl <;> exact hs'
    · rfl
  · rw [Stage.chain_cons_of_not h]

theorem startup_named {b : MethodServiceBehaviour} {s : State}
    (h : s.Named ∨ NamespaceFound b.namespaceInfo) : (startup b s).1.Named := by
  rw [startup_state]
  rcases getNamespaceInfo_cases b.namespaceInfo s with hnamed | ⟨hlost, hkept⟩
  · exact hnamed
  · rw [hkept]
    exact h.resolve_right hlost

/-- The object after a row of startups. -/
def startups (bs : List MethodServiceBehaviour) (s : State) : State :=
  bs.foldl (fun s b => (startup b s).1) s

/-- From the first startup that finds the namespace on the object knows its ids. -/
theorem startups_named {bs : List MethodServiceBehaviour} {s : State}
    (h : s.Named ∨ ∃ b ∈ bs, NamespaceFound b.namespaceInfo) : (startups bs s).Named := by
  induction bs generalizing s with
  | nil => exact h.resolve_right (by simp)
  | cons b bs ih =>
    apply ih
    rcases h with hnamed | ⟨found, hmem, hfound⟩
    · exact .inl (startup_named (.inl hnamed))
    · rcases List.mem_cons.mp hmem with rfl | hrest
      · exact .inl (startup_named (.inr hfound))
      · exact .inr ⟨found, hrest, hfound⟩

section Dispatch
variable {s : State} (hs : s.Named) (getArray : List UInt32Value → Option UInt32Value)
  {ctx : ApplicationMethodContext P}
include hs

theorem method_funcMult (hid : ctx.methodNodeId = nodeIdString "funcMult" s.namespaceIndex) :
    method getArray s ctx = multiply getArray ctx := by
  unfold method
  rw [hs.func1, hs.func2, hs.func3, hs.funcMult, hid, if_neg (by simp [nodeIdString_inj]),
    if_neg (by simp [nodeIdString_inj]), if_neg (by simp [nodeIdString_inj]), if_pos rfl]

theorem method_unknown (hid : ∀ name ∈ ["func1", "func2", "func3", "funcMult"],
    ctx.methodNodeId ≠ nodeIdString name s.namespaceIndex) :
    method getArray s ctx = some { ctx with statusCode := .badNotSupported } := by
  unfold method
  rw [hs.func1, hs.func2, hs.func3, hs.funcMult, if_neg (hid _ (by simp)),
    if_neg (hid _ (by simp)), if_neg (hid _ (by simp)), if_neg (hid _ (by simp))]

end Dispatch

/-! ### Products -/

/-- A 32 bit product is the product exactly if that fits. -/
theorem product_val_iff (value1 value2 : UInt32Value) :
    (product value1 value2).val = value1.val * value2.val ↔
      value1.val * value2.val < 2 ^ 32 := by
  have hval : (product value1 value2).val = value1.val * value2.val % 2 ^ 32 := rfl
  have hnonneg : 0 ≤ value1.val * value2.val := Int.mul_nonneg value1.2.1 value2.2.1
  rw [hval]
  constructor
  · intro heq
    rw [← heq]
    exact Int.emod_lt_of_pos _ (by norm_num)
  · intro hlt
    exact Int.emod_eq_of_lt hnonneg hlt

section Multiply
variable (getArray : List UInt32Value → Option UInt32Value) (ctx : ApplicationMethodContext P)

/-- A call that is turned away and touches nothing. -/
def Rejects (answer : Option (ApplicationMethodContext P)) (statusCode : StatusCode) : Prop :=
  ∃ after, answer = some after ∧ after.statusCode = statusCode ∧
    after.outputArguments = ctx.outputArguments

/-- `funcMult` turns away all but two single values, and answers these with their product. -/
structure MultipliesRight (answer : Option (ApplicationMethodContext P)) : Prop where
  rejects : (¬ ∃ value1 value2, ctx.inputArguments = [uint32 P value1, uint32 P value2]) →
    Rejects ctx answer .badInvalidArgument
  multiplies : ∀ after, answer = some after → after.statusCode = .success →
    ∃ value1 value2 value3, ctx.inputArguments = [uint32 P value1, uint32 P value2] ∧
      after.outputArguments.values = [uint32 P value3] ∧ value3.val = value1.val * value2.val

/-- The arguments are turned away by the checks of `funcMult`, or are two single values whose
product fits. -/
def FitArguments (arguments : List (Variant (Value P))) : Prop :=
  ∀ argument1 argument2, arguments = [argument1, argument2] →
    argument1.variantType P ≠ .int .uint32 ∨
      (argument2.variantType P ≠ .int .uint32 ∧ (getUInt32 getArray argument1).isSome) ∨
      ∃ value1 value2, argument1 = uint32 P value1 ∧ argument2 = uint32 P value2 ∧
        value1.val * value2.val < 2 ^ 32

variable {ctx}

theorem multipliesRight_rejected :
    MultipliesRight ctx (some { ctx with statusCode := .badInvalidArgument }) where
  rejects _ := ⟨_, rfl, rfl, rfl⟩
  multiplies after hafter hsuccess := by
    rw [← Option.some.inj hafter] at hsuccess
    cases hsuccess

theorem not_multipliesRight_none
    (hno : ¬ ∃ value1 value2, ctx.inputArguments = [uint32 P value1, uint32 P value2]) :
    ¬ MultipliesRight ctx none := by
  intro h
  obtain ⟨after, hafter, -⟩ := h.rejects hno
  cases hafter

variable {getArray}

theorem uint32_injective : Function.Injective (uint32 P) := by
  intro value1 value2 h
  cases h
  rfl

/-- An answer of Success is right exactly if it was made of two single values, and with their
product. -/
theorem multipliesRight_success_iff (value3 : UInt32Value) :
    MultipliesRight ctx (some { ctx with
      outputArguments := (StackArray.resized 1).pushBack (uint32 P value3)
      statusCode := .success }) ↔
    ∃ value1 value2, ctx.inputArguments = [uint32 P value1, uint32 P value2] ∧
      value3.val = value1.val * value2.val := by
  constructor
  · intro h
    obtain ⟨value1, value2, result, hinputs, houtputs, hresult⟩ := h.multiplies _ rfl rfl
    have hvalue : value3 = result := by
      have hsingle : uint32 P value3 = uint32 P result := List.singleton_inj.mp houtputs
      exact uint32_injective hsingle
    rw [hvalue]
    exact ⟨value1, value2, hinputs, hresult⟩
  · rintro ⟨value1, value2, hinputs, hresult⟩
    constructor
    · intro hno
      exact absurd ⟨value1, value2, hinputs⟩ hno
    · intro after hafter _
      rw [← Option.some.inj hafter]
      exact ⟨value1, value2, value3, hinputs, rfl, hresult⟩

/-- A single value can be read, and an argument that cannot be read is none. -/
theorem not_uint32_of_getUInt32 {argument : Variant (Value P)}
    (h : getUInt32 getArray argument = none) (value : UInt32Value) : argument ≠ uint32 P value := by
  rintro rfl
  cases h

variable (getArray)

theorem fitArguments_pair (argument1 argument2 : Variant (Value P)) :
    FitArguments getArray [argument1, argument2] ↔
      argument1.variantType P ≠ .int .uint32 ∨
        (argument2.variantType P ≠ .int .uint32 ∧ (getUInt32 getArray argument1).isSome) ∨
        ∃ value1 value2, argument1 = uint32 P value1 ∧ argument2 = uint32 P value2 ∧
          value1.val * value2.val < 2 ^ 32 := by
  constructor
  · intro h
    exact h argument1 argument2 rfl
  · intro h first second hpair
    cases hpair
    exact h

/-- Both arguments have the variant type and can be read. -/
theorem multiplied_right_iff {argument1 argument2 : Variant (Value P)} {value1 value2 : UInt32Value}
    (hinputs : ctx.inputArguments = [argument1, argument2])
    (htype1 : argument1.variantType P = .int .uint32)
    (htype2 : argument2.variantType P = .int .uint32)
    (hget1 : getUInt32 getArray argument1 = some value1)
    (hget2 : getUInt32 getArray argument2 = some value2) :
    MultipliesRight ctx (some { ctx with
      outputArguments := (StackArray.resized 1).pushBack (uint32 P (product value1 value2))
      statusCode := .success }) ↔ FitArguments getArray [argument1, argument2] := by
  rw [multipliesRight_success_iff, hinputs, fitArguments_pair]
  constructor
  · rintro ⟨single1, single2, hsingles, hproduct⟩
    obtain ⟨rfl, rfl⟩ : argument1 = uint32 P single1 ∧ argument2 = uint32 P single2 := by
      simpa using hsingles
    obtain rfl := Option.some.inj hget1
    obtain rfl := Option.some.inj hget2
    exact .inr (.inr ⟨single1, single2, rfl, rfl, (product_val_iff single1 single2).mp hproduct⟩)
  · rintro (hne | ⟨hne, -⟩ | ⟨single1, single2, rfl, rfl, hlt⟩)
    · exact absurd htype1 hne
    · exact absurd htype2 hne
    · obtain rfl := Option.some.inj hget1
      obtain rfl := Option.some.inj hget2
      exact ⟨single1, single2, rfl, (product_val_iff single1 single2).mpr hlt⟩

/-- An argument of the variant type that cannot be read takes the answer away. -/
theorem unread_right_iff {argument1 argument2 : Variant (Value P)}
    (hinputs : ctx.inputArguments = [argument1, argument2])
    (htype1 : argument1.variantType P = .int .uint32)
    (hunread : getUInt32 getArray argument1 = none ∨
      argument2.variantType P = .int .uint32 ∧ getUInt32 getArray argument2 = none) :
    MultipliesRight ctx none ↔ FitArguments getArray [argument1, argument2] := by
  have hno : ∀ value1 value2, ¬ (argument1 = uint32 P value1 ∧ argument2 = uint32 P value2) := by
    rintro value1 value2 ⟨hfirst, hsecond⟩
    rcases hunread with hget1 | ⟨-, hget2⟩
    · exact not_uint32_of_getUInt32 hget1 value1 hfirst
    · exact not_uint32_of_getUInt32 hget2 value2 hsecond
  apply iff_of_false
  · apply not_multipliesRight_none
    rintro ⟨value1, value2, hsingles⟩
    rw [hinputs] at hsingles
    exact hno value1 value2 (by simpa using hsingles)
  · rw [fitArguments_pair]
    rintro (hne | ⟨hne, hread⟩ | ⟨value1, value2, hfirst, hsecond, -⟩)
    · exact hne htype1
    · rcases hunread with hget1 | ⟨htype2, -⟩
      · rw [hget1] at hread
        cases hread
      · exact hne htype2
    · exact hno value1 value2 ⟨hfirst, hsecond⟩

theorem multiply_pair {argument1 argument2 : Variant (Value P)}
    (hinputs : ctx.inputArguments = [argument1, argument2]) :
    multiply getArray ctx =
      if argument1.variantType P ≠ .int .uint32 then
        some { ctx with statusCode := .badInvalidArgument }
      else (getUInt32 getArray argument1).bind fun value1 =>
        if argument2.variantType P ≠ .int .uint32 then
          some { ctx with statusCode := .badInvalidArgument }
        else (getUInt32 getArray argument2).bind fun value2 =>
          some { ctx with
            outputArguments := (StackArray.resized 1).pushBack (uint32 P (product value1 value2))
            statusCode := .success } := by
  unfold multiply
  rw [hinputs]
  rfl

theorem multiply_rejected
    (h : ¬ ∃ argument1 argument2, ctx.inputArguments = [argument1, argument2]) :
    multiply getArray ctx = some { ctx with statusCode := .badInvalidArgument } := by
  unfold multiply
  split
  · exact absurd ⟨_, _, ‹_›⟩ h
  · rfl

/-- A call of `funcMult` is answered right exactly if its arguments fit. -/
theorem multiply_right_iff :
    MultipliesRight ctx (multiply getArray ctx) ↔ FitArguments getArray ctx.inputArguments := by
  by_cases hpair : ∃ argument1 argument2, ctx.inputArguments = [argument1, argument2]
  · obtain ⟨argument1, argument2, hinputs⟩ := hpair
    have hfit : FitArguments getArray ctx.inputArguments ↔
        FitArguments getArray [argument1, argument2] := by
      rw [hinputs]
    rw [hfit, multiply_pair getArray hinputs]
    -- the checks in their order, each before the reading of its argument
    by_cases htype1 : argument1.variantType P = .int .uint32
    · rw [if_neg (not_not.mpr htype1)]
      cases hget1 : getUInt32 getArray argument1 with
      | none => exact unread_right_iff getArray hinputs htype1 (.inl hget1)
      | some value1 =>
        by_cases htype2 : argument2.variantType P = .int .uint32
        · cases hget2 : getUInt32 getArray argument2 with
          | none =>
            rw [Option.bind_some, if_neg (not_not.mpr htype2), Option.bind_none]
            exact unread_right_iff getArray hinputs htype1 (.inr ⟨htype2, hget2⟩)
          | some value2 =>
            rw [Option.bind_some, if_neg (not_not.mpr htype2), Option.bind_some]
            exact multiplied_right_iff getArray hinputs htype1 htype2 hget1 hget2
        · rw [Option.bind_some, if_pos htype2]
          apply iff_of_true multipliesRight_rejected
          rw [fitArguments_pair, hget1]
          exact .inr (.inl ⟨htype2, rfl⟩)
    · rw [if_pos htype1]
      apply iff_of_true multipliesRight_rejected
      rw [fitArguments_pair]
      exact .inl htype1
  · rw [multiply_rejected getArray hpair]
    apply iff_of_true multipliesRight_rejected
    intro argument1 argument2 hinputs
    exact absurd ⟨argument1, argument2, hinputs⟩ hpair

end Multiply

/-! ### Calls of any method -/

/-- Unknown ids are turned away, and `funcMult` answers right. -/
structure AnswersRight (ctx : ApplicationMethodContext P) (namespaceIndex : ℕ)
    (answer : Option (ApplicationMethodContext P)) : Prop where
  unknown : (∀ name ∈ ["func1", "func2", "func3", "funcMult"],
    ctx.methodNodeId ≠ nodeIdString name namespaceIndex) → Rejects ctx answer .badNotSupported
  funcMult : ctx.methodNodeId = nodeIdString "funcMult" namespaceIndex → MultipliesRight ctx answer

/-- A startup with the namespace in the table. -/
def foundStartup : MethodServiceBehaviour where
  namespaceInfo := ⟨.success, OrderedMap.empty.insertAll
    [(0, "http://opcfoundation.org/UA/"), (1, uri)]⟩
  func1 := ⟨.success, .success⟩
  func2 := ⟨.success, .success⟩
  func3 := ⟨.success, .success⟩
  funcMult := ⟨.success, .success⟩

theorem foundStartup_found : ∃ b ∈ [foundStartup], NamespaceFound b.namespaceInfo :=
  ⟨foundStartup, by simp, rfl, (1, uri), by decide, rfl⟩

theorem foundStartup_namespaceIndex : (startups [foundStartup] construct).namespaceIndex = 1 := by
  decide

/-- A call of `funcMult` with two single values. -/
def multCall (value1 value2 : UInt32Value) : ApplicationMethodContext exactPlatform where
  methodNodeId := nodeIdString "funcMult" 1
  inputArguments := [uint32 _ value1, uint32 _ value2]
  outputArguments := StackArray.resized 0
  statusCode := .success

/-- 65536 times 65536 is answered with Success and zero. -/
theorem method_product_wraps :
    let s := startups [foundStartup] construct
    let ctx := multCall (IntType.wrap .uint32 65536) (IntType.wrap .uint32 65536)
    method List.head? s ctx = some { ctx with
        outputArguments :=
          (StackArray.resized 1).pushBack (uint32 exactPlatform (IntType.wrap .uint32 0))
        statusCode := .success } ∧
      ¬ AnswersRight ctx s.namespaceIndex (method List.head? s ctx) := by
  intro s ctx
  have hs : s.Named := startups_named (.inr foundStartup_found)
  have hid : ctx.methodNodeId = nodeIdString "funcMult" s.namespaceIndex := by
    rw [foundStartup_namespaceIndex]
    rfl
  have hzero : method List.head? s ctx = some { ctx with
      outputArguments :=
        (StackArray.resized 1).pushBack (uint32 exactPlatform (IntType.wrap .uint32 0))
      statusCode := .success } := by
    rw [method_funcMult hs List.head? hid]
    rfl
  refine ⟨hzero, ?_⟩
  intro h
  have hright := h.funcMult hid
  rw [hzero, multipliesRight_success_iff] at hright
  obtain ⟨value1, value2, hinputs, hproduct⟩ := hright
  simp only [ctx, multCall, List.cons.injEq, and_true] at hinputs
  rw [← uint32_injective hinputs.1, ← uint32_injective hinputs.2] at hproduct
  revert hproduct
  decide

/-- After any startups, one of which found the namespace (the callback is registered behind
that), a call is answered right exactly if it is not one of `funcMult` with arguments that pass
its checks and do not fit. -/
theorem method_right_iff (getArray : List UInt32Value → Option UInt32Value)
    (bs : List MethodServiceBehaviour) (hfound : ∃ b ∈ bs, NamespaceFound b.namespaceInfo)
    (ctx : ApplicationMethodContext P) :
    let s := startups bs construct
    AnswersRight ctx s.namespaceIndex (method getArray s ctx) ↔
      (ctx.methodNodeId = nodeIdString "funcMult" s.namespaceIndex →
        FitArguments getArray ctx.inputArguments) := by
  intro s
  have hs : s.Named := startups_named (.inr hfound)
  by_cases hid : ctx.methodNodeId = nodeIdString "funcMult" s.namespaceIndex
  · rw [method_funcMult hs getArray hid]
    constructor
    · intro h _
      exact (multiply_right_iff getArray).mp (h.funcMult hid)
    · intro hfit
      constructor
      · intro hunknown
        exact absurd hid (hunknown _ (by simp))
      · intro _
        exact (multiply_right_iff getArray).mpr (hfit hid)
  · apply iff_of_true
    · constructor
      · intro hunknown
        rw [method_unknown hs getArray hunknown]
        exact ⟨_, rfl, rfl, rfl⟩
      · intro hmult
        exact absurd hmult hid
    · intro hmult
      exact absurd hmult hid

theorem method_right_six_seven :
    let s := startups [foundStartup] construct
    let ctx := multCall (IntType.wrap .uint32 6) (IntType.wrap .uint32 7)
    AnswersRight ctx s.namespaceIndex (method List.head? s ctx) := by
  intro s ctx
  apply (method_right_iff List.head? [foundStartup] foundStartup_found ctx).mpr
  intro _
  apply (fitArguments_pair List.head? _ _).mpr
  exact .inr (.inr ⟨_, _, rfl, rfl, by decide⟩)

end ASNeGDemo.Function
