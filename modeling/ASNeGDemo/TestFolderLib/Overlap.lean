import ASNeGDemo.General.SharedCells
import ASNeGDemo.TestFolderLib.AsMap

/-!
One node of `TestFolderLib` between the timer and a client. The timer reads, computes and
stores in separate steps and takes no lock, so a write can fall between them.
-/
namespace ASNeGDemo.TestFolderLib
open SharedCells

variable {P : Platform}

/-- Programs over the data value of one node. -/
abbrev CellProgram (P : Platform) :=
  Program Unit (fun _ => DataValue (Value P)) (Publication P)

/-- The contents of the one cell. -/
abbrev cell (dataValue : DataValue (Value P)) : Unit → DataValue (Value P) := fun _ => dataValue

/-- The types whose case of `updateSingle` starts with `getValue`. -/
def readsValue : BuildInType → Bool
  | .int _ | .float | .double | .boolean | .guid => true
  | _ => false

/-- What the local variables of an update hold where no value is read into them. -/
structure Locals (P : Platform) where
  uninitialised : (t : BuildInType) → Value P t
  /-- After a `getValue` of a data value that holds something else; that is up to the stack. -/
  mismatched : (t : BuildInType) → Variant (Value P) → Value P t
  mismatchedArray : (t : BuildInType) → Variant (Value P) → List (Value P t)

variable (locals : Locals P)

/-- `getValue` into a variable of type `t`. -/
def getScalar (t : BuildInType) : Variant (Value P) → Value P t
  | .scalar t' v => if h : t' = t then h ▸ v else locals.mismatched t (.scalar t' v)
  | variant => locals.mismatched t variant

/-- The same for a vector. -/
def getArray (t : BuildInType) : Variant (Value P) → List (Value P t)
  | .array t' vs => if h : t' = t then h ▸ vs else locals.mismatchedArray t (.array t' vs)
  | variant => locals.mismatchedArray t variant

@[simp] theorem getScalar_scalar {t : BuildInType} (v : Value P t) :
    getScalar locals t (.scalar t v) = v := by
  simp [getScalar]

@[simp] theorem getArray_array {t : BuildInType} (vs : List (Value P t)) :
    getArray locals t (.array t vs) = vs := by
  simp [getArray]

variable (n : NodeId) (reference : NodeRef)

/-- The end of an update: the clock is read once, the two timestamps and the status code go in one
after the other, and `setValueSync` reads the data value again. -/
def publish (env : Env) : CellProgram P Unit :=
  let time := (universalTime env).1
  .update () (fun dataValue => { dataValue with serverTimestamp := time }) fun _ =>
    .update () (fun dataValue => { dataValue with sourceTimestamp := time }) fun _ =>
      .update () (fun dataValue => { dataValue with statusCode := .success }) fun _ =>
        .read () fun dataValue => Program.fire ⟨n, reference, dataValue⟩

/-- The `getValue` of a case of `updateSingle`, where it has one. -/
def readScalar (t : BuildInType) : CellProgram P (Value P t) :=
  if readsValue t then .read () fun dataValue => pure (getScalar locals t dataValue.variant)
  else pure (locals.uninitialised t)

/-- A case of `updateSingle`, access by access. -/
def singleCaseSteps (t : BuildInType) (env : Env) : CellProgram P Unit :=
  match singleCase P t with
  | none => return
  | some update => do
      let value ← readScalar locals t
      let result := update value env
      .update () (fun dataValue => { dataValue with variant := .scalar t result.1 }) fun _ =>
        publish n reference result.2

/-- A case of `updateArray`, access by access. -/
def arrayCaseSteps (t : BuildInType) (env : Env) : CellProgram P Unit :=
  match arrayCase P t with
  | none => return
  | some update => do
      let value := getArray locals t (← Program.get ()).variant
      let result := update value env
      .update () (fun dataValue => { dataValue with variant := .array t result.1 }) fun _ =>
        publish n reference result.2

def updateSingleSteps (env : Env) : CellProgram P Unit := do
  singleCaseSteps locals n reference ((← Program.get ()).variant.variantType P) env

def updateArraySteps (env : Env) : CellProgram P Unit := do
  arrayCaseSteps locals n reference ((← Program.get ()).variant.variantType P) env

/-- What `timerLoop` does at a node with a live reference. -/
def visitSteps (env : Env) : CellProgram P Unit := do
  if (← Program.get ()).variant.isArray then updateArraySteps locals n reference env
  else updateSingleSteps locals n reference env

/-- `writeValue` at the node. -/
def writeSteps (dataValue : DataValue (Value P)) : CellProgram P Unit :=
  Program.set () dataValue

theorem update_cell (dataValue d : DataValue (Value P)) :
    Function.update (cell dataValue) () d = cell d := by
  funext _
  simp

/-- Without company the end of an update stamps the data value and publishes it. -/
theorem publish_run (dataValue : DataValue (Value P)) (env : Env) :
    (publish n reference env).run (cell dataValue) =
      ((), cell (dataValue.stamped (universalTime env).1 .success),
        [⟨n, reference, dataValue.stamped (universalTime env).1 .success⟩]) := by
  simp [publish, Program.run, Program.fire, update_cell, DataValue.stamped]

theorem singleCase_of_not_readsValue {t : BuildInType} {u : Value P t → Sim (Value P t)}
    (hc : singleCase P t = some u) (hr : ¬ readsValue t = true) (v w : Value P t) : u v = u w := by
  cases t with
  | int | float | double | boolean | guid => exact absurd rfl hr
  | unknown | raw => cases hc
  | string | dateTime | byteString | nodeId | qualifiedName | localizedText =>
    cases hc
    rfl

theorem visitSteps_run_eq (dataValue : DataValue (Value P)) (env : Env) :
    (visitSteps locals n reference env).run (cell dataValue) =
      if dataValue.variant.isArray then
        (arrayCaseSteps locals n reference (dataValue.variant.variantType P) env).run (cell dataValue)
      else
        (singleCaseSteps locals n reference (dataValue.variant.variantType P) env).run
          (cell dataValue) := by
  by_cases h : dataValue.variant.isArray = true <;>
    simp [visitSteps, updateArraySteps, updateSingleSteps, Program.run, h]

/-- Without company the accesses make up the visit of the timer loop. -/
theorem visitSteps_run (dataValue : DataValue (Value P)) (env : Env) :
    (visitSteps locals n reference env).run (cell dataValue) =
      match (update dataValue env).1 with
      | some d => ((), cell d, [⟨n, reference, d⟩])
      | none => ((), cell dataValue, []) := by
  obtain ⟨variant, statusCode, sourceTimestamp, serverTimestamp⟩ := dataValue
  rw [visitSteps_run_eq]
  cases variant with
  | null => rfl
  | scalar t v =>
    rw [show Variant.variantType P (.scalar t v) = t from rfl]
    cases hc : singleCase P t with
    | none => simp [singleCaseSteps, Program.run, update, updateSingle, Variant.isArray, hc]
    | some u =>
      by_cases hr : readsValue t = true
      · simp [singleCaseSteps, Program.run, update, updateSingle, Variant.isArray, hc, readScalar,
          hr, publish_run, update_cell]
      · have hu := singleCase_of_not_readsValue hc hr (locals.uninitialised t) v
        simp [singleCaseSteps, Program.run, update, updateSingle, Variant.isArray, hc, readScalar,
          hr, hu, publish_run, update_cell]
  | array t vs =>
    by_cases he : (vs.isEmpty && !P.emptyArrayTyped) = true
    · rw [show Variant.variantType P (.array t vs) = .unknown from if_pos he]
      simp [arrayCaseSteps, arrayCase, Program.run, update, updateArray, Variant.isArray, he]
    · rw [show Variant.variantType P (.array t vs) = t from if_neg he]
      cases hc : arrayCase P t with
      | none => simp [arrayCaseSteps, Program.run, update, updateArray, Variant.isArray, he, hc]
      | some u =>
        simp [arrayCaseSteps, Program.run, update, updateArray, Variant.isArray, he, hc, publish_run,
          update_cell]

/-! ### The timer beside a write -/

/-- One visit of the timer (left) and one `writeValue` (right) at the same node, in the order
of the schedule. -/
def overlap (stored written : DataValue (Value P)) (env : Env) (schedule : List Party) :
    Cells Unit (fun _ => DataValue (Value P)) ×
      Log Unit (fun _ => DataValue (Value P)) (Publication P) :=
  interleave schedule (Cells.fresh (cell stored)) (visitSteps locals n reference env)
    (writeSteps written)

/-- The accesses of the timer before the write. They are, in this order, the array test, the
type test, `getValue`, `setValue`, the three stamps and the publication. -/
def beforeWrite (log : Log Unit (fun _ => DataValue (Value P)) (Publication P)) : ℕ :=
  (log.takeWhile (·.1 = .left)).length

theorem singleCaseSteps_of_readsValue {t : BuildInType} {u : Value P t → Sim (Value P t)}
    (hc : singleCase P t = some u) (hr : readsValue t = true) (env : Env) :
    singleCaseSteps locals n reference t env =
      .read () fun dataValue =>
        let result := u (getScalar locals t dataValue.variant) env
        .update () (fun d => { d with variant := .scalar t result.1 }) fun _ =>
          publish n reference result.2 := by
  simp [singleCaseSteps, hc, readScalar, hr]

theorem overlap_cases {t : BuildInType} {u : Value P t → Sim (Value P t)}
    (hc : singleCase P t = some u) (hr : readsValue t = true) {stored written : DataValue (Value P)}
    {v w : Value P t} (hs : stored.variant = .scalar t v) (hw : written.variant = .scalar t w)
    (env : Env) (schedule : List Party) :
    let r := overlap locals n reference stored written env schedule
    (r.1.value ()).variant =
      if beforeWrite r.2 ≤ 2 then .scalar t (u w env).1
      else if beforeWrite r.2 = 3 then .scalar t (u v env).1
      else .scalar t w := by
  obtain ⟨_, _, _, _⟩ := stored
  obtain ⟨_, _, _, _⟩ := written
  obtain rfl := hs
  obtain rfl := hw
  intro r
  obtain ⟨i, hi⟩ := interleave_set schedule (Cells.fresh (cell _))
    (visitSteps locals n reference env) () _
  change r = _ at hi
  have hsteps := singleCaseSteps_of_readsValue locals n reference hc hr env
  have ht : ∀ x : Value P t, Variant.variantType P (.scalar t x) = t := fun _ => rfl
  simp only [hi, beforeWrite]
  rw [takeWhile_steps .left i _ _ (by simp)]
  rcases i with _ | _ | _ | _ | _ | _ | _ | _ | _ | i <;>
  · simp [Program.steps, Program.step, Program.finish, visitSteps, updateSingleSteps, Cells.fresh,
      Cells.write, Variant.isArray, ht, hsteps, publish, Program.fire]

theorem updated_variant {t : BuildInType} {u : Value P t → Sim (Value P t)}
    (hc : singleCase P t = some u) {dataValue : DataValue (Value P)} {v : Value P t}
    (hv : dataValue.variant = .scalar t v) (env : Env) :
    (updated dataValue env).variant = .scalar t (u v env).1 := by
  simp [updated, update, updateSingle, Variant.isArray, hv, hc]

/-- A write before `getValue` is updated, a write after `setValue` stays, and a write between
the two is lost. A Boolean has only two values, so there the loss does not show. -/
theorem overlap_value {t : BuildInType} (ht : readsValue t = true)
    {stored written : DataValue (Value P)} {v w : Value P t} (hs : stored.variant = .scalar t v)
    (hw : written.variant = .scalar t w) (env : Env) (schedule : List Party) :
    let r := overlap locals n reference stored written env schedule
    ((r.1.value ()).variant =
        if beforeWrite r.2 ≤ 2 then (updated written env).variant
        else if beforeWrite r.2 = 3 then (updated stored env).variant
        else written.variant) ∧
      (t = .boolean → (r.1.value ()).variant = written.variant ∨
        (r.1.value ()).variant = (updated written env).variant) := by
  intro r
  obtain ⟨u, hc⟩ : ∃ u, singleCase P t = some u := by
    rw [← Option.isSome_iff_exists, singleCase_isSome]
    revert ht
    cases t <;> simp [readsValue, handledType]
  have hcases := overlap_cases locals n reference hc ht hs hw env schedule
  rw [updated_variant hc hs, updated_variant hc hw, hw]
  refine ⟨hcases, ?_⟩
  rintro rfl
  have hu : ∀ x : Bool, (u x env).1 = !x := by
    cases hc
    intro x
    cases x <;> rfl
  have hflip : (u v env).1 = w ∨ (u v env).1 = (u w env).1 := by
    have hbool : ∀ x y : Bool, (!x) = y ∨ (!x) = !y := by decide
    rw [hu v, hu w]
    exact hbool v w
  rw [hcases]
  split_ifs
  · exact Or.inr rfl
  · exact hflip.imp (congrArg _) (congrArg _)
  · exact Or.inl rfl

/-- A value of each type. -/
def zeroValue : (t : BuildInType) → Value exactPlatform t
  | .unknown => ()
  | .boolean => false
  | .int t => t.wrap 0
  | .float => (0 : ℚ)
  | .double => (0 : ℚ)
  | .string => none
  | .dateTime => (0 : ℤ)
  | .guid => ⟨0, 0, 0, []⟩
  | .byteString => none
  | .nodeId => nodeId 0 0
  | .qualifiedName => ⟨"", 0⟩
  | .localizedText => ⟨"", ""⟩
  | .raw _ => []

/-- A data value that holds a signed byte. -/
def sByteValue (z : ℤ) : DataValue (Value exactPlatform) :=
  ⟨.scalar (.int .sByte) (IntType.wrap .sByte z), .success, 0, 0⟩

def asSByte : Variant (Value exactPlatform) → ℤ
  | .scalar (.int .sByte) v => v.val
  | _ => 0

def zeroLocals : Locals exactPlatform := ⟨zeroValue, fun t _ => zeroValue t, fun _ _ => []⟩

def noEnv : Env := ⟨Stream'.const 0, Stream'.const 0⟩

/-- The timer has read 5 when a client writes 20; it stores 6, neither 20 nor 21. -/
theorem overlap_loses_write :
    let r := overlap zeroLocals (nodeId 200 2) 0 (sByteValue 5) (sByteValue 20) noEnv
      [.left, .left, .left, .right]
    ¬ ((r.1.value ()).variant = (sByteValue 20).variant ∨
      (r.1.value ()).variant = (updated (sByteValue 20) noEnv).variant) := by
  rintro r (h | h)
  · have hbyte := congrArg asSByte h
    revert hbyte
    decide
  · have hbyte := congrArg asSByte h
    revert hbyte
    decide

theorem overlap_value_sByte :
    let r := overlap zeroLocals (nodeId 200 2) 0 (sByteValue 5) (sByteValue 20) noEnv
      [.left, .left, .left, .right]
    (r.1.value ()).variant =
      if beforeWrite r.2 ≤ 2 then (updated (sByteValue 20) noEnv).variant
      else if beforeWrite r.2 = 3 then (updated (sByteValue 5) noEnv).variant
      else (sByteValue 20).variant :=
  (overlap_value zeroLocals (nodeId 200 2) 0 rfl rfl rfl noEnv _).1

end ASNeGDemo.TestFolderLib
