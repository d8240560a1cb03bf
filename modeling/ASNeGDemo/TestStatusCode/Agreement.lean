import ASNeGDemo.TestFolderLib.AsMap
import ASNeGDemo.TestStatusCode.Isolation

/-!
The two value simulations. `TestFolderLib` copies a value out, computes and writes it back,
`TestStatusCode` changes elements in place; on a value whose elements are its own they do the
same up to the status code.
-/
namespace ASNeGDemo

variable {P : Platform}

def DataValue.withStatusCode {ε : BuildInType → Type} (d : DataValue ε) (statusCode : StatusCode) :
    DataValue ε :=
  { d with statusCode := statusCode }

def Publication.withStatusCode (p : Publication P) (statusCode : StatusCode) : Publication P :=
  { p with dataValue := p.dataValue.withStatusCode statusCode }

namespace TestStatusCode

/-! ### The updates -/

theorem singleCase_eq (t : BuildInType) : TestFolderLib.singleCase P t = singleCase P t := by
  cases t with
  | int t => cases t <;> rfl
  | _ => rfl

/-- A pass over the copied vector is a loop over the positions. -/
theorem arrayCase_eq (t : BuildInType) :
    TestFolderLib.arrayCase P t =
      (arrayCase P t).map fun (f : Value P t → Sim (Value P t)) (vs : List (Value P t)) =>
        vs.mapM f := by
  have hpure : ∀ {α : Type} (g : α → α) (f : α → Sim α), (∀ v, f v = pure (g v)) →
      ∀ vs : List α, vs.mapM f = pure (vs.map g) := by
    intro α g f hf vs
    rw [← List.mapM_pure]
    exact congrArg (List.mapM · vs) (funext hf)
  cases t with
  | int t => exact congrArg some (funext fun vs => (hpure _ _ (fun _ => rfl) vs).symm)
  | float => exact congrArg some (funext fun vs => (hpure _ _ (fun _ => rfl) vs).symm)
  | double => exact congrArg some (funext fun vs => (hpure _ _ (fun _ => rfl) vs).symm)
  | boolean => exact congrArg some (funext fun vs =>
      (hpure _ _ (fun v => by cases v <;> rfl) vs).symm)
  | guid => exact congrArg some (funext fun vs => (hpure _ _ (fun _ => rfl) vs).symm)
  | _ => rfl

/-- The updates of a value draw the same and differ in the status code only. -/
theorem updateValue_eq (statusCode : StatusCode) (d : DataValue (Value P)) (env : Env) :
    updateValue statusCode d env =
      ((TestFolderLib.update d env).1.map (·.withStatusCode statusCode),
        (TestFolderLib.update d env).2) := by
  obtain ⟨variant, _, _, _⟩ := d
  cases variant with
  | null => rfl
  | scalar t v =>
    cases hc : singleCase P t with
    | none =>
      simp [updateValue, TestFolderLib.update, TestFolderLib.updateSingle, Variant.isArray,
        singleCase_eq, hc]
    | some f =>
      simp [updateValue, TestFolderLib.update, TestFolderLib.updateSingle, Variant.isArray,
        singleCase_eq, hc, DataValue.stamped, DataValue.withStatusCode]
  | array t vs =>
    by_cases he : (vs.isEmpty && !P.emptyArrayTyped) = true
    · simp [updateValue, TestFolderLib.update, TestFolderLib.updateArray, Variant.isArray, he]
    · cases hc : arrayCase P t with
      | none =>
        simp [updateValue, TestFolderLib.update, TestFolderLib.updateArray, Variant.isArray,
          arrayCase_eq, he, hc]
      | some f =>
        simp [updateValue, TestFolderLib.update, TestFolderLib.updateArray, Variant.isArray,
          arrayCase_eq, he, hc, DataValue.stamped, DataValue.withStatusCode]

/-- An update of `TestFolderLib` stores the status code `Success`. -/
theorem folder_update_statusCode {d d' : DataValue (Value P)} {env : Env}
    (h : (TestFolderLib.update d env).1 = some d') : d'.statusCode = .success := by
  rcases TestFolderLib.update_cases d env with ⟨-, hnone⟩ | ⟨-, variant, time, rest, hsome⟩
  · rw [hnone] at h
    cases h
  · rw [hsome] at h
    rw [← Option.some.inj h]
    rfl

/-- An update looks at the variant only: status code and timestamps are new in any case. -/
theorem folder_update_congr {d d' : DataValue (Value P)} (h : d.variant = d'.variant) :
    TestFolderLib.update d = TestFolderLib.update d' := by
  obtain ⟨variant, _, _, _⟩ := d
  obtain ⟨variant', _, _, _⟩ := d'
  obtain rfl : variant = variant' := h
  cases variant <;> rfl

/-! ### The visits -/

section Visits
variable (references : OrderedMap NodeId NodeRef) (live : NodeRef → Bool)

theorem visitCell_eq (acc : Memory (DataValue (Value P)) × List (Publication P)) (n : NodeId)
    (cell : ℕ) (env : Env) :
    TestFolderLib.visitCell references live acc (n, cell) env =
      match liveReference references live n with
      | none => (acc, env)
      | some reference =>
          match TestFolderLib.update (acc.1.read cell) env with
          | (none, env') => (acc, env')
          | (some d, env') => ((acc.1.write cell d, acc.2 ++ [⟨n, reference, d⟩]), env') := by
  unfold TestFolderLib.visitCell TestFolderLib.visit
  cases hr : references.find n with
  | none => simp [liveReference, hr]
  | some reference =>
    by_cases hl : live reference
    · simp only [liveReference, hr, hl, Option.filter, if_true, Sim.bind_apply, Sim.pure_apply]
      obtain ⟨updated, env'⟩ := TestFolderLib.update (acc.1.read cell) env
      cases updated <;> rfl
    · simp [liveReference, hr, hl, Option.filter]

theorem visit_eq (statusCode : StatusCode) (pass : Pass P) (n : NodeId) (cell : ℕ) (env : Env) :
    visit statusCode references live pass (n, cell) env =
      match liveReference references live n with
      | none => (pass, env)
      | some reference =>
          match update statusCode pass.heap (pass.cells.read cell) env with
          | (none, env') => (pass, env')
          | (some (d, heap), env') =>
              (⟨pass.cells.write cell d, heap, pass.published ++ [⟨n, reference, d.load heap⟩]⟩,
                env') := by
  unfold visit
  cases liveReference references live n with
  | none => rfl
  | some reference =>
    simp only [Sim.bind_apply]
    obtain ⟨updated, env'⟩ := update statusCode pass.heap (pass.cells.read cell) env
    cases updated <;> rfl

/-- On a variant that both objects hold and whose elements are its own, the visits of a node draw
the same from the surroundings. Either both leave everything as it is, where the reference is
gone or the type unknown, or both store and publish the same, up to the status code. -/
theorem visits_agree (statusCode : StatusCode)
    (acc : Memory (DataValue (Value P)) × List (Publication P)) {pass : Pass P} (n : NodeId)
    {cell cell' : ℕ} (hvariant : (pass.value cell').variant = (acc.1.read cell).variant)
    (howned : (pass.refs cell').Nodup) (env : Env) :
    let folder := TestFolderLib.visitCell references live acc (n, cell) env
    let status := visit statusCode references live pass (n, cell') env
    let visited := (liveReference references live n).isSome ∧
      TestFolderLib.handled (acc.1.read cell) = true
    status.2 = folder.2 ∧
      (¬ visited → folder.1 = acc ∧ status.1 = pass) ∧
      (visited → ∃ p : Publication P, p.dataValue.statusCode = .success ∧
        folder.1 = (acc.1.write cell p.dataValue, acc.2 ++ [p]) ∧
        status.1.value cell' = p.dataValue.withStatusCode statusCode ∧
        status.1.published = pass.published ++ [p.withStatusCode statusCode]) := by
  intro folder status visited
  obtain ⟨hload, henv⟩ := update_load statusCode pass.heap howned env
  have hread : TestFolderLib.update ((pass.cells.read cell').load pass.heap) =
      TestFolderLib.update (acc.1.read cell) := folder_update_congr hvariant
  rw [updateValue_eq, hread] at hload henv
  have hsome := TestFolderLib.update_isSome (acc.1.read cell) env
  have hfolder := visitCell_eq references live acc n cell env
  have hstatus := visit_eq references live statusCode pass n cell' env
  have hcode : ∀ d, (TestFolderLib.update (acc.1.read cell) env).1 = some d →
      d.statusCode = .success := fun _ => folder_update_statusCode
  generalize TestFolderLib.update (acc.1.read cell) env = made at *
  generalize update statusCode pass.heap (pass.cells.read cell') env = changed at *
  obtain ⟨made, env'⟩ := made
  obtain ⟨changed, env''⟩ := changed
  obtain rfl : env'' = env' := henv
  cases hr : liveReference references live n with
  | none =>
    rw [hr] at hfolder hstatus
    replace hfolder : folder = (acc, env) := hfolder
    replace hstatus : status = (pass, env) := hstatus
    have hno : ¬ visited := by
      rintro ⟨hlive, -⟩
      simp [hr] at hlive
    rw [hfolder, hstatus]
    exact ⟨rfl, fun _ => ⟨rfl, rfl⟩, fun h => absurd h hno⟩
  | some reference =>
    rw [hr] at hfolder hstatus
    cases made with
    | none =>
      obtain rfl : changed = none := Option.map_eq_none_iff.mp hload
      replace hfolder : folder = (acc, env'') := hfolder
      replace hstatus : status = (pass, env'') := hstatus
      have hno : ¬ visited := by
        rintro ⟨-, hhandled⟩
        exact Bool.false_ne_true (hsome.trans hhandled)
      rw [hfolder, hstatus]
      exact ⟨rfl, fun _ => ⟨rfl, rfl⟩, fun h => absurd h hno⟩
    | some d =>
      obtain ⟨⟨stored, heap⟩, rfl, hstored⟩ := Option.map_eq_some_iff.mp hload
      replace hstored : stored.load heap = d.withStatusCode statusCode := hstored
      replace hfolder : folder =
        ((acc.1.write cell d, acc.2 ++ [⟨n, reference, d⟩]), env'') := hfolder
      replace hstatus : status = (⟨pass.cells.write cell' stored, heap,
        pass.published ++ [⟨n, reference, stored.load heap⟩]⟩, env'') := hstatus
      have hyes : visited := ⟨by simp [hr], hsome.symm⟩
      rw [hfolder, hstatus, hstored]
      refine ⟨rfl, fun h => absurd hyes h, fun _ => ⟨⟨n, reference, d⟩, hcode d rfl, rfl, ?_, rfl⟩⟩
      rw [Pass.value, Memory.write_read_self]
      exact hstored

end Visits

/-- Two node ids, of which each gets a number of its own. -/
theorem visits_agree_nodeIds :
    let d : DataValue (Value exactPlatform) :=
      ⟨.array .nodeId [nodeId 1 1, nodeId 2 1], .success, 0, 0⟩
    let noHeap : Heap exactPlatform := fun t => ⟨fun _ => noElement exactPlatform t, 0⟩
    let pass : Pass exactPlatform :=
      ⟨⟨fun _ => (DataValue.store noHeap d).1, 1⟩, (DataValue.store noHeap d).2, []⟩
    let references := OrderedMap.empty.insertAll [(nodeId 233 2, 5)]
    let env : Env := ⟨id, Stream'.const 3⟩
    let folder := TestFolderLib.visitCell references (fun _ => true)
      (⟨fun _ => d, 1⟩, []) (nodeId 233 2, 0) env
    let status := visit .badNotConnected references (fun _ => true) pass (nodeId 233 2, 0) env
    status.2 = folder.2 ∧ ∃ p : Publication exactPlatform,
      folder.1.2 = [p] ∧ status.1.published = [p.withStatusCode .badNotConnected] ∧
        p.dataValue = ⟨.array .nodeId [nodeId 0 1, nodeId 1 1], .success, 3, 3⟩ := by
  intro d noHeap pass references env folder status
  have hvariant : (pass.value 0).variant = d.variant := rfl
  have howned : (pass.refs 0).Nodup := by decide
  obtain ⟨henv, -, hvisited⟩ := visits_agree references (fun _ => true) .badNotConnected
    (⟨fun _ => d, 1⟩, []) (nodeId 233 2) hvariant howned env
  obtain ⟨p, -, hfolder, -, hpublished⟩ := hvisited ⟨by decide, rfl⟩
  have hmade : folder.1.2.map Publication.dataValue =
      [⟨.array .nodeId [nodeId 0 1, nodeId 1 1], .success, 3, 3⟩] := rfl
  have hone : folder.1.2 = [p] := congrArg Prod.snd hfolder
  rw [hone] at hmade
  exact ⟨henv, p, hone, hpublished, (List.cons.inj hmade).1⟩

end TestStatusCode

end ASNeGDemo
