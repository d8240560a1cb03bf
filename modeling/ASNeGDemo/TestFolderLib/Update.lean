import ASNeGDemo.ValueSimulation

/-!
The value simulation of `TestFolderLib`: what one timer tick makes of one value.
`getValue` and `setValue` copy, so an update is a function of the value, the results of
`rand()` and the clock.
-/
namespace ASNeGDemo.TestFolderLib

variable {P : Platform}

/-- The cases of `updateSingle`; `none` is its default branch. -/
def singleCase (P : Platform) :
    (t : BuildInType) → Option (Value P t → Sim (Value P t))
  | .int .sByte => some fun value => return increment P .sByte value
  | .int .byte => some (walk P .byte 64 0 0 64)
  | .int .int16 => some (walk P .int16 150 (-50) (-50) 100)
  | .int .uint16 => some (walk P .uint16 100 0 0 100)
  | .int .int32 => some (walk P .int32 360 0 0 360)
  | .int .uint32 => some (walk P .uint32 360 0 0 360)
  | .int .int64 => some (walk P .int64 2000 (-1000) 1000 1000)
  | .int .uint64 => some (walk P .uint64 3000 0 0 3000)
  | .float => some (walkSingle P 1000 1000)
  | .double => some (walkDouble P 1000 1000)
  | .boolean => some fun (value : Bool) => return if value then false else true
  | .string => some fun _ => return some (← randomText)
  | .byteString => some fun _ => return some (bytes (← randomText))
  | .localizedText => some fun _ => return ⟨"de", ← randomText⟩
  | .dateTime => some fun _ => universalTime
  | .guid => some fun value => return { value with data1 := value.data1 + 1 }
  | .nodeId => some fun _ => return nodeId ((← rand) % 2 ^ 32) 1
  | .qualifiedName => some fun _ => return ⟨"Name", (← rand) % 2 ^ 16⟩
  | .unknown | .raw _ => none

/-- The cases of `updateArray`, each on the copied vector. -/
def arrayCase (P : Platform) :
    (t : BuildInType) → Option (List (Value P t) → Sim (List (Value P t)))
  | .int t => some fun value => return value.map (increment P t)
  | .float => some fun value =>
      return value.map fun v => P.rounded (P.add (P.widened v) (P.ofDecimal 3.354))
  | .double => some fun value => return value.map fun v => P.add v (P.ofDecimal 33.354)
  | .boolean => some fun value => return value.map not
  | .string => some fun value => value.mapM fun _ => return some (← randomText)
  | .byteString => some fun value => value.mapM fun _ => return some (bytes (← randomText))
  | .localizedText => some fun value => value.mapM fun _ => return ⟨"de", ← randomText⟩
  | .dateTime => some fun value => value.mapM fun _ => universalTime
  | .guid => some fun value => return value.map fun v => { v with data1 := v.data1 + 1 }
  | .nodeId => some fun value => value.mapM fun _ => return nodeId ((← rand) % 2 ^ 32) 1
  | .qualifiedName => some fun value => value.mapM fun _ => return ⟨"Name", (← rand) % 2 ^ 16⟩
  | .unknown | .raw _ => none

/-- `updateSingle` up to the publication: the data value to store and publish, or `none`
where the type is unknown. -/
def updateSingle (dataValue : DataValue (Value P)) : Sim (Option (DataValue (Value P))) :=
  match dataValue.variant with
  | .scalar t v =>
      match singleCase P t with
      | some update => do
          let v ← update v
          let time ← universalTime
          return some ({ dataValue with variant := .scalar t v }.stamped time .success)
      | none => return none
  | _ => return none

/-- `updateArray` up to the publication. -/
def updateArray (dataValue : DataValue (Value P)) : Sim (Option (DataValue (Value P))) :=
  match dataValue.variant with
  | .array t vs =>
      match if vs.isEmpty && !P.emptyArrayTyped then none else arrayCase P t with
      | some update => do
          let vs ← update vs
          let time ← universalTime
          return some ({ dataValue with variant := .array t vs }.stamped time .success)
      | none => return none
  | _ => return none

/-- The choice `timerLoop` makes between the two. -/
def update (dataValue : DataValue (Value P)) : Sim (Option (DataValue (Value P))) :=
  if dataValue.variant.isArray then updateArray dataValue else updateSingle dataValue

theorem singleCase_isSome (t : BuildInType) : (singleCase P t).isSome = handledType t := by
  cases t with
  | int t => cases t <;> rfl
  | _ => rfl

theorem arrayCase_isSome (t : BuildInType) : (arrayCase P t).isSome = handledType t := by
  cases t <;> rfl

/-- The type of the stored value is one of the handled ones. -/
def handled (dataValue : DataValue (Value P)) : Bool :=
  handledType (dataValue.variant.variantType P)

/-- An update leaves values of other types alone and draws nothing; of the rest it makes a new
variant, with a new time and a status code. -/
theorem update_cases (dataValue : DataValue (Value P)) (draws : Env) :
    handled dataValue = false ∧ update dataValue draws = (none, draws) ∨
      handled dataValue = true ∧ ∃ variant time rest, update dataValue draws =
        (some ({ dataValue with variant := variant }.stamped time .success), rest) := by
  obtain ⟨variant, statusCode, sourceTimestamp, serverTimestamp⟩ := dataValue
  cases variant with
  | null => exact .inl ⟨rfl, rfl⟩
  | scalar t v =>
    have hhandled := singleCase_isSome (P := P) t
    cases hc : singleCase P t with
    | none =>
      rw [hc] at hhandled
      left
      constructor
      · exact hhandled.symm
      · simp only [update, updateSingle, Variant.isArray, hc]
        rfl
    | some f =>
      rw [hc] at hhandled
      right
      constructor
      · exact hhandled.symm
      · simp only [update, updateSingle, Variant.isArray, hc]
        exact ⟨.scalar t (f v draws).1, _, _, rfl⟩
  | array t vs =>
    have hhandled := arrayCase_isSome (P := P) t
    by_cases he : (vs.isEmpty && !P.emptyArrayTyped) = true
    · left
      constructor
      · simp only [handled, Variant.variantType, he, if_true]
        rfl
      · simp only [update, updateArray, Variant.isArray, he, if_true]
        rfl
    · cases hc : arrayCase P t with
      | none =>
        rw [hc] at hhandled
        left
        constructor
        · simp only [handled, Variant.variantType, he]
          exact hhandled.symm
        · simp only [update, updateArray, Variant.isArray, he, hc]
          rfl
      | some f =>
        rw [hc] at hhandled
        right
        constructor
        · simp only [handled, Variant.variantType, he]
          exact hhandled.symm
        · simp only [update, updateArray, Variant.isArray, he, hc]
          exact ⟨.array t (f vs draws).1, _, _, rfl⟩

/-- An update has a result exactly where the type is handled. -/
theorem update_isSome (dataValue : DataValue (Value P)) (draws : Env) :
    (update dataValue draws).1.isSome = handled dataValue := by
  rcases update_cases dataValue draws with ⟨hhandled, hnone⟩ | ⟨hhandled, _, _, _, hsome⟩
  · rw [hnone, hhandled]
    rfl
  · rw [hsome, hhandled]
    rfl

end ASNeGDemo.TestFolderLib
