import ASNeGDemo.TestFolderLib.Shapes
import ASNeGDemo.TestStatusCode.Shapes

/-!
Whether the values behind the nodes are of the types that the node set files declare. Neither class
looks at the type of a value that a client writes, so only what a node is given by the class itself
can be promised.
-/
namespace ASNeGDemo

variable {P : Platform}

theorem conforms_iff {v : UAVariable} {initial : Shape} {variant : Variant (Value P)}
    {last : Option (DataValue (Value P))}
    (h : variant.shape P = (last.map fun w => w.variant.shape P).getD initial) :
    v.Conforms variant ↔
      (last = none → initial = v.shape) ∧ ∀ w, last = some w → v.Conforms w.variant := by
  unfold UAVariable.Conforms
  rw [h]
  cases last with
  | none => simp
  | some w => simp

/-- Over the whole lives of the two objects. A value is of the type and rank that the node set file
declares exactly if the last one written to its node is, and without a write from the start on; in
`TestStatusCode` the nodes 221 and 222 are written together, and never both of them are. -/
theorem declared_types (P : Platform) (env : Env) (es : List (LifeEvent P DateTime))
    (es' : List (LifeEvent P Env)) :
    let folder := Runs.run TestFolderLib.proceed (TestFolderLib.construct P env).1 es
    let status := Runs.run TestStatusCode.proceed (TestStatusCode.construct P env).1 es'
    ∀ v ∈ testVariables, ∀ ns,
      (∀ d, folder.1.value (nodeId v.id ns) = some d →
        (v.Conforms d.variant ↔
          ∀ w, lastStored [nodeId v.id ns] es folder.2 = some w → v.Conforms w.variant)) ∧
      ∀ d, status.1.value (nodeId v.id ns) = some d →
        let last := lastStored ((TestStatusCode.sharers v.id).map (nodeId · ns)) es' status.2
        (v.Conforms d.variant ↔
          (last = none → v.id ≠ 221) ∧ ∀ w, last = some w → v.Conforms w.variant) ∧
        ∀ v' ∈ testVariables, v.id = 221 → v'.id = 222 →
          ∀ d', status.1.value (nodeId v'.id ns) = some d' →
            ¬ (v.Conforms d.variant ∧ v'.Conforms d'.variant) := by
  intro folder status v hv ns
  constructor
  · intro d hd
    have hseen : folder.1.shape (nodeId v.id ns) = some (d.variant.shape P) :=
      congrArg (Option.map fun d : DataValue (Value P) => d.variant.shape P) hd
    have hshape := shape_run (I := TestFolderLib.State.Separated)
      (fun _ e h => (TestFolderLib.proceed_refines h e).1)
      (fun _ e h => TestFolderLib.proceed_shape h hv e) es
      (TestFolderLib.construct_separated_life P env).1 rfl hseen
    rw [conforms_iff hshape]
    exact and_iff_right fun _ => rfl
  · intro d hd last
    have hsettled : TestStatusCode.Settled status.1 :=
      Runs.run_invariant (I := TestStatusCode.Settled) (fun _ e h => h.proceed e) es'
        (TestStatusCode.construct_settled env)
    constructor
    · have hseen : status.1.shape (nodeId v.id ns) = some (d.variant.shape P) := by
        rw [TestStatusCode.State.shape_eq, hd]
        rfl
      have hshape := shape_run (I := TestStatusCode.Settled) (fun _ e h => h.proceed e)
        (fun _ e h => TestStatusCode.proceed_shape h hv ns e) es'
        (TestStatusCode.construct_settled env) rfl hseen
      have hfirst : ∀ v ∈ testVariables, v.firstShape = v.shape ↔ v.id ≠ 221 := by decide
      rw [conforms_iff hshape, hfirst v hv]
    · rintro v' hv' hid hid' d' hd' ⟨hconforms, hconforms'⟩
      have hsame : status.1.value (nodeId 221 ns) = status.1.value (nodeId 222 ns) := by
        unfold TestStatusCode.State.value
        rw [hsettled.twins ns]
      rw [hid, hsame] at hd
      rw [hid', hd] at hd'
      obtain rfl := Option.some.inj hd'
      have hne : ∀ v ∈ testVariables, v.id = 221 → ∀ v' ∈ testVariables, v'.id = 222 →
          v.shape ≠ v'.shape := by decide
      exact hne v hv hid v' hv' hid' (hconforms.symm.trans hconforms')

end ASNeGDemo
