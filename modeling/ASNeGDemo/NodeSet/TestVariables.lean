import ASNeGDemo.Lifecycle.Restart

/-!
The variables that the node set files of `TestFolderLib` and `TestStatusCode` declare: the shape of
a value, and what becomes of the shape behind a node over a life in which clients write.
-/
namespace ASNeGDemo

variable {P : Platform}

/-! ### Shapes -/

/-- The type of a variant, and whether it is an array. -/
abbrev Shape := BuildInType × Bool

def Variant.shape (P : Platform) {ε : BuildInType → Type} (v : Variant ε) : Shape :=
  (v.variantType P, v.isArray)

theorem Variant.shape_map {ε δ : BuildInType → Type} (f : (t : BuildInType) → ε t → δ t)
    (v : Variant ε) : (v.map f).shape P = v.shape P := by
  unfold shape
  rw [map_variantType]
  cases v <;> rfl

/-- Copying elements does not change how many there are. -/
theorem Variant.shape_array {ε δ : BuildInType → Type} {t : BuildInType} {vs : List (ε t)}
    {vs' : List (δ t)} (h : vs'.length = vs.length) :
    (Variant.array t vs').shape P = (Variant.array t vs).shape P := by
  have hempty : vs'.isEmpty = vs.isEmpty := by
    rw [Bool.eq_iff_iff, List.isEmpty_iff_length_eq_zero, List.isEmpty_iff_length_eq_zero, h]
  simp only [shape, variantType, isArray, hempty]

/-! ### The node set files -/

/-- A `UAVariable`, as far as it says what its value is. -/
structure UAVariable where
  id : ℕ
  dataType : ℕ
  valueRank : Option ℕ
  deriving DecidableEq

/-- The data types of the namespace 0 by their number, `Opc.Ua.NodeSet.xml`. -/
def dataTypeOf : ℕ → BuildInType
  | 1 => .boolean
  | 2 => .int .sByte
  | 3 => .int .byte
  | 4 => .int .int16
  | 5 => .int .uint16
  | 6 => .int .int32
  | 7 => .int .uint32
  | 8 => .int .int64
  | 9 => .int .uint64
  | 10 => .float
  | 11 => .double
  | 12 => .string
  | 13 => .dateTime
  | 14 => .guid
  | 15 => .byteString
  | 17 => .nodeId
  | 20 => .qualifiedName
  | 21 => .localizedText
  | _ => .unknown

/-- The variables of the folder `BuildInType`, the same in `Opc.Ua.NodeSetTestLib.xml` and in
`TestStatusCode.OpcUaNodeSet.xml`: one of each data type, and after it an array of it. -/
def testVariables : List UAVariable :=
  [ (200, 2), (202, 3), (204, 4), (206, 5), (208, 6), (210, 7), (212, 8), (214, 9), (216, 10),
    (218, 11), (220, 1), (222, 12), (224, 15), (226, 21), (228, 13), (230, 14), (232, 17),
    (234, 20) ].flatMap fun e => [⟨e.1, e.2, none⟩, ⟨e.1 + 1, e.2, some 1⟩]

/-- The rank 1 is that of a list; without a rank a variable is a scalar. -/
def UAVariable.shape (v : UAVariable) : Shape := (dataTypeOf v.dataType, v.valueRank = some 1)

def UAVariable.Conforms (v : UAVariable) (variant : Variant (Value P)) : Prop :=
  variant.shape P = v.shape

theorem testVariables_nodup : (testVariables.map UAVariable.id).Nodup := by
  decide

theorem id_of_nodeId {id id' ns ns' : ℕ} (h : nodeId id ns = nodeId id' ns') : id = id' := by
  simpa [nodeId] using congrArg NodeId.identifier h

/-- What a client puts into one of the nodes. -/
def stored {ι : Type} (nodes : List NodeId) : LifeEvent P ι → Option (Answer P) →
    Option (DataValue (Value P))
  | .event (.writeValue n dataValue), some (.written .success) =>
      if n ∈ nodes then some dataValue else none
  | _, _ => none

/-- The last value a client has put into one of the nodes. -/
def lastStored {ι : Type} (nodes : List NodeId) (es : List (LifeEvent P ι))
    (answers : List (Option (Answer P))) : Option (DataValue (Value P)) :=
  (Runs.puts (stored nodes) es answers).getLast?

/-- A step, seen as what is behind a node before and after it: a client has put something into one
of the nodes, or it is as before, or it has just come up with the initial shape. -/
structure ShapeStep {ι : Type} (nodes : List NodeId) (initial : Shape) (e : LifeEvent P ι)
    (answer : Option (Answer P)) (before after : Option Shape) : Prop where
  put : ∀ w, stored nodes e answer = some w → after = some (w.variant.shape P)
  keep : stored nodes e answer = none → after = before ∨ before = none ∧ after = some initial

section ShapeStep
variable {ι : Type} {nodes : List NodeId} {initial : Shape} {before after : Option Shape}

theorem ShapeStep.write {n : NodeId} {d : DataValue (Value P)} {statusCode : StatusCode}
    (hput : statusCode = .success → n ∈ nodes → after = some (d.variant.shape P))
    (hkeep : ¬ (statusCode = .success ∧ n ∈ nodes) → after = before) :
    ShapeStep (ι := ι) nodes initial (.event (.writeValue n d)) (some (.written statusCode)) before
      after := by
  by_cases hs : statusCode = .success
  · subst hs
    by_cases hn : n ∈ nodes
    · have hstored : stored (ι := ι) nodes (.event (.writeValue n d))
          (some (.written .success)) = some d := if_pos hn
      constructor
      · intro w hw
        obtain rfl := Option.some.inj (hstored.symm.trans hw)
        exact hput rfl hn
      · intro hnone
        exact nomatch hstored.symm.trans hnone
    · have hstored : stored (ι := ι) nodes (.event (.writeValue n d))
          (some (.written .success)) = none := if_neg hn
      constructor
      · intro w hw
        exact nomatch hstored.symm.trans hw
      · intro _
        exact .inl (hkeep fun h => hn h.2)
  · constructor
    · intro w hw
      cases statusCode <;> first | exact absurd rfl hs | exact nomatch hw
    · intro _
      exact .inl (hkeep fun h => hs h.1)

theorem ShapeStep.quiet {e : LifeEvent P ι} {answer : Option (Answer P)}
    (hstored : stored nodes e answer = none)
    (hkeep : after = before ∨ before = none ∧ after = some initial) :
    ShapeStep nodes initial e answer before after :=
  ⟨fun _ hw => (nomatch hstored.symm.trans hw), fun _ => hkeep⟩

/-- At the end the shape is that of what was put last, or the initial one. -/
theorem shape_run {σ : Type} {step : σ → LifeEvent P ι → σ × Option (Answer P)}
    {seen : σ → Option Shape} {I : σ → Prop} (hI : ∀ s e, I s → I (step s e).1)
    (hstep : ∀ s e, I s → ShapeStep nodes initial e (step s e).2 (seen s) (seen (step s e).1))
    (es : List (LifeEvent P ι)) {s : σ} (hs : I s) (hnone : seen s = none) {shape : Shape}
    (hshape : seen (Runs.run step s es).1 = some shape) :
    shape = ((lastStored nodes es (Runs.run step s es).2).map fun w => w.variant.shape P).getD
      initial := by
  obtain ⟨hput, hkeep⟩ := Runs.run_last (stored nodes) seen (fun w => w.variant.shape P) initial hI
    (fun s e w h hw => (hstep s e h).put w hw) (fun s e h hw => (hstep s e h).keep hw) es hs
  unfold lastStored
  cases hlast : (Runs.puts (stored nodes) es (Runs.run step s es).2).getLast? with
  | some w => exact Option.some.inj (hshape.symm.trans (hput w hlast))
  | none =>
    obtain hsame | ⟨-, hinitial⟩ := hkeep hlast
    · exact nomatch hshape.symm.trans (hsame.trans hnone)
    · exact Option.some.inj (hshape.symm.trans hinitial)

end ShapeStep

end ASNeGDemo
