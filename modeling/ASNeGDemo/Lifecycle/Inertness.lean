import ASNeGDemo.Lifecycle.Completeness

/-!
What a failed startup leaves behind. Callbacks that the service accepted stay registered, and
one of them starts a timer element.
-/
namespace ASNeGDemo

variable {P : Platform}

/-- The service accepted the loop time node, in a startup that got that far. -/
structure LoopTimeAccepted (b : ServiceBehaviour) : Prop where
  namespaceInfo : b.namespaceInfo.statusCode = .success
  values : allRegistered b.registerValues = true
  statusCode : b.registerLoopTime.statusCode = .success
  code : b.registerLoopTime.statusCodeArray[0]? = some StatusCode.success

/-- The service accepted the node of a callback; `nodes` is what was asked for. -/
def Accepted (b : ServiceBehaviour) (nodes : List NodeId) : Callback P → Prop
  | .readValue n | .writeValue n _ =>
      b.namespaceInfo.statusCode = .success ∧ b.registerValues.statusCode = .success ∧
        ∃ i : ℕ, nodes[i]? = some n ∧
          b.registerValues.statusCodeArray[i]? = some StatusCode.success
  | .readLoopTimeValue | .writeLoopTimeValue _ => LoopTimeAccepted b

/-- Every write of an interval starts an element. -/
theorem LoopTimer.writeLoopTimeValue_elements (l : LoopTimer P) {dataValue : DataValue (Value P)}
    {interval : ℕ} (h : asUInt32 dataValue.variant = some interval) :
    (l.invoke (.writeLoopTimeValue dataValue)).slotTimer.elements ≠ [] := by
  simp only [invoke, writeLoopTimeValue, h, Option.bind_eq_bind, Option.bind_some]
  by_cases hsmall : interval < 100
  · simp [hsmall, startElement, SlotTimer.start]
  · have hpos : interval ≠ 0 := by omega
    simp [hsmall, hpos, startElement, SlotTimer.start]

namespace Module

variable {σ ι : Type} (M : Module P σ ι)

/-- The timer is started last: a startup that does not return true has not touched it. -/
theorem startup_loop_of_not {b : ServiceBehaviour} {i : ι} {s : σ}
    (h : (M.startup b i s).2 ≠ some true) :
    (M.client (M.startup b i s).1).loop = (M.client s).loop := by
  by_cases hname : b.namespaceInfo.statusCode = .success
  · have hconnect := M.startup_connect b i s hname
    have hnot : (connect b (M.read b.nodeReferences) (M.client (M.fill b i s))).2 ≠ some true := by
      rw [hconnect]
      exact h
    have hloop := connect_loop_of_not hnot
    rw [hconnect] at hloop
    exact hloop.trans (M.fill_others b i s).2
  · rw [M.startup_refused b i s hname]

/-- Callbacks other than writes of the loop time leave the timer alone. -/
theorem foldl_invoke_loop {callbacks : List (Callback P)}
    (h : ∀ dataValue, Callback.writeLoopTimeValue dataValue ∉ callbacks) (s : σ) :
    (M.client (callbacks.foldl M.invoke s)).loop = (M.client s).loop := by
  induction callbacks generalizing s with
  | nil => rfl
  | cons callback callbacks ih =>
    rw [List.foldl_cons, ih fun d hd => h d (List.mem_cons_of_mem _ hd), M.invoke_loop]
    cases callback with
    | writeLoopTimeValue dataValue => exact absurd List.mem_cons_self (h dataValue)
    | _ => rfl

/-- After a failed first startup the accepted callbacks start no timer element exactly if the
loop time node was not accepted. -/
theorem inert_iff {b : ServiceBehaviour} {i : ι} {env : Env}
    (h : (M.startup b i (M.construct env).1).2 = some false) :
    (∀ callbacks : List (Callback P),
      (∀ callback ∈ callbacks,
        Accepted b (M.client (M.startup b i (M.construct env).1).1).valueMap.keys callback) →
      (M.client (callbacks.foldl M.invoke (M.startup b i (M.construct env).1).1)).loop.slotTimer.elements
        = []) ↔ ¬ LoopTimeAccepted b := by
  constructor
  · intro hinert haccepted
    let dataValue : DataValue (Value P) := ⟨LoopTimer.uint32Variant P 500, .success, 0, 0⟩
    have hnone := hinert [.writeLoopTimeValue dataValue] (by simpa [Accepted] using haccepted)
    rw [List.foldl_cons, List.foldl_nil, M.invoke_loop] at hnone
    have hinterval : LoopTimer.asUInt32 dataValue.variant = some 500 := rfl
    exact LoopTimer.writeLoopTimeValue_elements _ hinterval hnone
  · intro hno callbacks hall
    have hwrite : ∀ dataValue, Callback.writeLoopTimeValue dataValue ∉ callbacks :=
      fun dataValue hmem => hno (hall _ hmem)
    rw [M.foldl_invoke_loop hwrite, M.startup_loop_of_not (by simp [h])]
    exact (M.construct_empty env).2.2

end Module

/-- For both classes: a module whose startup returned false starts no timer element, whatever
accepted callbacks are invoked, exactly if the service had not accepted the loop time node. -/
theorem failed_startup_inert_iff (b : ServiceBehaviour) (env : Env) (now : DateTime)
    (draws : Env) :
    ((TestFolderLib.startup b now (TestFolderLib.construct P env).1).2 = some false →
      ((∀ callbacks : List (Callback P),
        (∀ callback ∈ callbacks, Accepted b
          (TestFolderLib.startup b now (TestFolderLib.construct P env).1).1.valueMap.keys callback) →
        (callbacks.foldl TestFolderLib.invoke
          (TestFolderLib.startup b now (TestFolderLib.construct P env).1).1).loop.slotTimer.elements
            = []) ↔ ¬ LoopTimeAccepted b)) ∧
    ((TestStatusCode.startup b draws (TestStatusCode.construct P env).1).2 = some false →
      ((∀ callbacks : List (Callback P),
        (∀ callback ∈ callbacks, Accepted b
          (TestStatusCode.startup b draws (TestStatusCode.construct P env).1).1.valueMap.keys
            callback) →
        (callbacks.foldl TestStatusCode.invoke
          (TestStatusCode.startup b draws
            (TestStatusCode.construct P env).1).1).loop.slotTimer.elements = []) ↔
        ¬ LoopTimeAccepted b)) :=
  ⟨(TestFolderLib.module P).inert_iff, (TestStatusCode.module P).inert_iff⟩

/-- A service that refuses the references after it accepted both registrations. -/
def withoutReferences : ServiceBehaviour :=
  { standardNamespaces with nodeReferences := ⟨.badInternalError, [], []⟩ }

/-- Both startups fail, and a client that writes the loop time starts an element. -/
theorem failed_startup_starts_timer :
    let env : Env := ⟨Stream'.const 0, Stream'.const 0⟩
    let callback : Callback exactPlatform :=
      .writeLoopTimeValue ⟨LoopTimer.uint32Variant exactPlatform 500, .success, 0, 0⟩
    let folder := TestFolderLib.startup withoutReferences 0
      (TestFolderLib.construct exactPlatform env).1
    let status := TestStatusCode.startup withoutReferences env
      (TestStatusCode.construct exactPlatform env).1
    Accepted withoutReferences folder.1.valueMap.keys callback ∧
      Accepted withoutReferences status.1.valueMap.keys callback ∧
      (folder.2 = some false ∧
        (TestFolderLib.invoke folder.1 callback).loop.slotTimer = ⟨[⟨500, true⟩]⟩) ∧
      status.2 = some false ∧
        (TestStatusCode.invoke status.1 callback).loop.slotTimer = ⟨[⟨500, true⟩]⟩ := by
  refine ⟨⟨rfl, rfl, rfl, rfl⟩, ⟨rfl, rfl, rfl, rfl⟩, ?_, ?_⟩
  · decide +kernel
  · decide +kernel

end ASNeGDemo
