import ASNeGDemo.TestStatusCode.Slots
import ASNeGDemo.ValueSimulation

/-!
The value simulation of `TestStatusCode`. Elements held by pointer are changed in place, so
an update may show in every data value that holds the same object.
-/
namespace ASNeGDemo.TestStatusCode

variable {P : Platform} {t : BuildInType}

/-- The cases of `updateSingle`, as functions of the element; `none` is its default branch. -/
def singleCase (P : Platform) :
    (t : BuildInType) → Option (Value P t → Sim (Value P t))
  | .int .sByte => some fun value => return increment P .sByte value
  | .int .byte => some (walk P .byte 64 0 0 64)
  | .int .int16 => some (walk P .int16 150 (-50) (-50) 100)
  | .int .uint16 => some (walk P .uint16 100 0 0 100)
  | .int .int32 => some (walk P .int32 360 0 0 360)
  | .int .uint32 => some (walk P .uint32 360 0 0 360)
  | .int .int64 => some (walk P .int64 2000 (-1000) 1000 1000)
  | .int .uint64 => some (walk P .uint64 3000 0 0 3000)
  | .float => some (walkSingle P 1000 1000)
  | .double => some (walkDouble P 1000 1000)
  | .boolean => some fun (value : Bool) => return if value then false else true
  | .string => some fun _ => return some (← randomText)
  | .byteString => some fun _ => return some (bytes (← randomText))
  | .localizedText => some fun _ => return ⟨"de", ← randomText⟩
  | .dateTime => some fun _ => universalTime
  | .guid => some fun value => return { value with data1 := value.data1 + 1 }
  | .nodeId => some fun _ => return nodeId ((← rand) % 2 ^ 32) 1
  | .qualifiedName => some fun _ => return ⟨"Name", (← rand) % 2 ^ 16⟩
  | .unknown | .raw _ => none

/-- The cases of `updateArray`, as functions of the element at one position. -/
def arrayCase (P : Platform) :
    (t : BuildInType) → Option (Value P t → Sim (Value P t))
  | .int t => some fun value => return increment P t value
  | .float => some fun value => return P.rounded (P.add (P.widened value) (P.ofDecimal 3.354))
  | .double => some fun value => return P.add value (P.ofDecimal 33.354)
  | .boolean => some fun (value : Bool) => return if value then false else true
  | .string => some fun _ => return some (← randomText)
  | .byteString => some fun _ => return some (bytes (← randomText))
  | .localizedText => some fun _ => return ⟨"de", ← randomText⟩
  | .dateTime => some fun _ => universalTime
  | .guid => some fun value => return { value with data1 := value.data1 + 1 }
  | .nodeId => some fun _ => return nodeId ((← rand) % 2 ^ 32) 1
  | .qualifiedName => some fun _ => return ⟨"Name", (← rand) % 2 ^ 16⟩
  | .unknown | .raw _ => none

theorem singleCase_isSome (t : BuildInType) : (singleCase P t).isSome = handledType t := by
  cases t with
  | int t => cases t <;> rfl
  | _ => rfl

theorem arrayCase_isSome (t : BuildInType) : (arrayCase P t).isSome = handledType t := by
  cases t <;> rfl

/-- `get`, compute, `set` for an element held by value; for an object, `getSPtr`, change in
place, `set` of the same pointer. -/
def updateSlot (f : Value P t → Sim (Value P t)) (h : Heap P) :
    Slot P t → Sim (Slot P t × Heap P)
  | .val v => do return (.val (← f v), h)
  | .ref a => do return (.ref a, h.write t a (← f ((h t).read a)))

/-- The loop over the positions of an array. -/
def updateSlots (f : Value P t → Sim (Value P t)) (h : Heap P) :
    List (Slot P t) → Sim (List (Slot P t) × Heap P)
  | [] => return ([], h)
  | slot :: slots => do
      let first ← updateSlot f h slot
      let rest ← updateSlots f first.2 slots
      return (first.1 :: rest.1, rest.2)

/-- `updateSingle` up to the publication: the data value stored and published and the
objects, or `none` where the type is unknown. -/
def updateSingle (statusCode : StatusCode) (h : Heap P) (dataValue : DataValue (Slot P)) :
    Sim (Option (DataValue (Slot P) × Heap P)) :=
  match dataValue.variant with
  | .scalar t slot =>
      match singleCase P t with
      | some update => do
          let result ← updateSlot update h slot
          let time ← universalTime
          return some
            ({ dataValue with variant := .scalar t result.1 }.stamped time statusCode, result.2)
      | none => return none
  | _ => return none

/-- `updateArray` up to the publication. -/
def updateArray (statusCode : StatusCode) (h : Heap P) (dataValue : DataValue (Slot P)) :
    Sim (Option (DataValue (Slot P) × Heap P)) :=
  match dataValue.variant with
  | .array t slots =>
      match if slots.isEmpty && !P.emptyArrayTyped then none else arrayCase P t with
      | some update => do
          let result ← updateSlots update h slots
          let time ← universalTime
          return some
            ({ dataValue with variant := .array t result.1 }.stamped time statusCode, result.2)
      | none => return none
  | _ => return none

/-- The choice `timerLoop` makes between the two. -/
def update (statusCode : StatusCode) (h : Heap P) (dataValue : DataValue (Slot P)) :
    Sim (Option (DataValue (Slot P) × Heap P)) :=
  if dataValue.variant.isArray then updateArray statusCode h dataValue
  else updateSingle statusCode h dataValue

/-- The type of the stored value is one of the handled ones. -/
def handled {ε : BuildInType → Type} (P : Platform) (dataValue : DataValue ε) : Bool :=
  handledType (dataValue.variant.variantType P)

/-! ### The update of a data value that shares nothing -/

/-- What an update makes of a data value whose elements are its own. -/
def updateValue (statusCode : StatusCode) (dataValue : DataValue (Value P)) :
    Sim (Option (DataValue (Value P))) :=
  match dataValue.variant with
  | .null => return none
  | .scalar t v =>
      match singleCase P t with
      | some update => do
          let v ← update v
          let time ← universalTime
          return some ({ dataValue with variant := .scalar t v }.stamped time statusCode)
      | none => return none
  | .array t vs =>
      match if vs.isEmpty && !P.emptyArrayTyped then none else arrayCase P t with
      | some update => do
          let vs ← vs.mapM update
          let time ← universalTime
          return some ({ dataValue with variant := .array t vs }.stamped time statusCode)
      | none => return none

theorem updateSlot_refs (f : Value P t → Sim (Value P t)) (h : Heap P) (slot : Slot P t)
    (env : Env) :
    (updateSlot f h slot env).1.1.refs = slot.refs ∧
      TypedMemory.Touches slot.refs h (updateSlot f h slot env).1.2 := by
  cases slot with
  | val v => exact ⟨rfl, .refl _ _⟩
  | ref a => exact ⟨rfl, h.touches_write t a _⟩

theorem updateSlot_read (f : Value P t → Sim (Value P t)) (h : Heap P) (slot : Slot P t)
    (env : Env) :
    (updateSlot f h slot env).1.1.read (updateSlot f h slot env).1.2 = (f (slot.read h) env).1 ∧
      (updateSlot f h slot env).2 = (f (slot.read h) env).2 := by
  cases slot with
  | val v => exact ⟨rfl, rfl⟩
  | ref a => exact ⟨h.write_read_self t a _, rfl⟩

theorem updateSlots_refs (f : Value P t → Sim (Value P t)) (h : Heap P) (slots : List (Slot P t))
    (env : Env) :
    (updateSlots f h slots env).1.1.flatMap Slot.refs = slots.flatMap Slot.refs ∧
      (updateSlots f h slots env).1.1.length = slots.length ∧
      TypedMemory.Touches (slots.flatMap Slot.refs) h (updateSlots f h slots env).1.2 := by
  induction slots generalizing h env with
  | nil => exact ⟨rfl, rfl, .refl _ _⟩
  | cons slot slots ih =>
    obtain ⟨hrefs, htouch⟩ := updateSlot_refs f h slot env
    obtain ⟨hrefs', hlen, htouch'⟩ := ih (updateSlot f h slot env).1.2 (updateSlot f h slot env).2
    refine ⟨?_, ?_, htouch.trans htouch'⟩
    · simp only [updateSlots, Sim.bind_apply, Sim.pure_apply, List.flatMap_cons, hrefs, hrefs']
    · simp only [updateSlots, Sim.bind_apply, Sim.pure_apply, List.length_cons, hlen]

/-- Where no object occurs twice, every element is updated once. -/
theorem updateSlots_read (f : Value P t → Sim (Value P t)) (h : Heap P)
    (slots : List (Slot P t)) (hn : (slots.flatMap Slot.refs).Nodup) (env : Env) :
    (updateSlots f h slots env).1.1.map (Slot.read (updateSlots f h slots env).1.2) =
        ((slots.map (Slot.read h)).mapM f env).1 ∧
      (updateSlots f h slots env).2 = ((slots.map (Slot.read h)).mapM f env).2 := by
  induction slots generalizing h env with
  | nil => exact ⟨rfl, rfl⟩
  | cons slot slots ih =>
    rw [List.flatMap_cons, List.nodup_append'] at hn
    obtain ⟨-, hrest, hdisjoint⟩ := hn
    obtain ⟨hrefs, htouch⟩ := updateSlot_refs f h slot env
    obtain ⟨hread, henv⟩ := updateSlot_read f h slot env
    obtain ⟨hreads, henvs⟩ :=
      ih (updateSlot f h slot env).1.2 hrest (updateSlot f h slot env).2
    obtain ⟨-, -, htouch'⟩ :=
      updateSlots_refs f (updateSlot f h slot env).1.2 slots (updateSlot f h slot env).2
    -- the first element stays as it is while the others are updated, and they were untouched
    have hkeep : (updateSlot f h slot env).1.1.read
          (updateSlots f (updateSlot f h slot env).1.2 slots (updateSlot f h slot env).2).1.2 =
        (updateSlot f h slot env).1.1.read (updateSlot f h slot env).1.2 :=
      Slot.read_of_touches htouch' (hrefs ▸ hdisjoint)
    have hold : slots.map (Slot.read (updateSlot f h slot env).1.2) =
        slots.map (Slot.read h) := by
      apply List.map_congr_left
      intro other hother
      apply Slot.read_of_touches htouch
      intro r hr hr'
      exact hdisjoint hr' (List.mem_flatMap.mpr ⟨other, hother, hr⟩)
    rw [hold] at hreads henvs
    simp only [updateSlots, Sim.bind_apply, Sim.pure_apply, List.map_cons, List.mapM_cons]
    rw [hkeep, hread, hreads, henvs, henv]
    exact ⟨rfl, rfl⟩

/-- An update leaves values of other types alone; of the rest it makes a new variant, with a new
time and the status code. -/
theorem update_cases (statusCode : StatusCode) (h : Heap P) (d : DataValue (Slot P)) (env : Env) :
    handled P d = false ∧ (update statusCode h d env).1 = none ∨
      handled P d = true ∧ ∃ variant time heap, (update statusCode h d env).1 =
        some ({ d with variant := variant }.stamped time statusCode, heap) := by
  obtain ⟨variant, _, _, _⟩ := d
  cases variant with
  | null => exact .inl ⟨rfl, rfl⟩
  | scalar t slot =>
    have hhandled := singleCase_isSome (P := P) t
    cases hc : singleCase P t with
    | none =>
      rw [hc] at hhandled
      left
      constructor
      · exact hhandled.symm
      · simp only [update, updateSingle, Variant.isArray, hc]
        rfl
    | some f =>
      rw [hc] at hhandled
      right
      constructor
      · exact hhandled.symm
      · simp only [update, updateSingle, Variant.isArray, hc]
        exact ⟨_, _, _, rfl⟩
  | array t slots =>
    have hhandled := arrayCase_isSome (P := P) t
    by_cases he : (slots.isEmpty && !P.emptyArrayTyped) = true
    · left
      constructor
      · simp only [handled, Variant.variantType, he, if_true]
        rfl
      · simp only [update, updateArray, Variant.isArray, he, if_true]
        rfl
    · cases hc : arrayCase P t with
      | none =>
        rw [hc] at hhandled
        left
        constructor
        · simp only [handled, Variant.variantType, he]
          exact hhandled.symm
        · simp only [update, updateArray, Variant.isArray, he, hc]
          rfl
      | some f =>
        rw [hc] at hhandled
        right
        constructor
        · simp only [handled, Variant.variantType, he]
          exact hhandled.symm
        · simp only [update, updateArray, Variant.isArray, he, hc]
          exact ⟨_, _, _, rfl⟩

theorem update_isSome (statusCode : StatusCode) (h : Heap P) (d : DataValue (Slot P))
    (env : Env) : (update statusCode h d env).1.isSome = handled P d := by
  rcases update_cases statusCode h d env with ⟨hhandled, hnone⟩ | ⟨hhandled, _, _, _, hsome⟩
  · rw [hnone, hhandled]
    rfl
  · rw [hsome, hhandled]
    rfl

/-- An update stores the status code it is given. -/
theorem update_statusCode {statusCode : StatusCode} {h h' : Heap P} {d d' : DataValue (Slot P)}
    {env : Env} (hu : (update statusCode h d env).1 = some (d', h')) :
    d'.statusCode = statusCode := by
  rcases update_cases statusCode h d env with ⟨-, hnone⟩ | ⟨-, variant, time, heap, hsome⟩
  · rw [hnone] at hu
    cases hu
  · rw [hsome] at hu
    rw [← (Prod.mk.inj (Option.some.inj hu)).1]
    rfl

theorem updateValue_isSome (statusCode : StatusCode) (d : DataValue (Value P)) (env : Env) :
    (updateValue statusCode d env).1.isSome = handled P d := by
  obtain ⟨variant, _, _, _⟩ := d
  cases variant with
  | null => rfl
  | scalar t v =>
    have hs := singleCase_isSome (P := P) t
    cases hc : singleCase P t <;> simp [updateValue, handled, Variant.variantType, hc] at hs ⊢ <;>
      exact hs
  | array t vs =>
    have hs := arrayCase_isSome (P := P) t
    by_cases he : (vs.isEmpty && !P.emptyArrayTyped) = true
    · simp [updateValue, handled, Variant.variantType, he, handledType]
    · cases hc : arrayCase P t <;>
        simp [updateValue, handled, Variant.variantType, he, hc] at hs ⊢ <;> exact hs

/-- An update keeps the objects of the data value and its type, and changes no others. -/
theorem update_refs {statusCode : StatusCode} {h h' : Heap P} {d d' : DataValue (Slot P)}
    {env : Env} (hu : (update statusCode h d env).1 = some (d', h')) :
    d'.refs = d.refs ∧ handled P d' = handled P d ∧ TypedMemory.Touches d.refs h h' := by
  obtain ⟨variant, _, _, _⟩ := d
  cases variant with
  | null => simp [update, updateSingle, Variant.isArray] at hu
  | scalar t slot =>
    cases hc : singleCase P t with
    | none => simp [update, updateSingle, Variant.isArray, hc] at hu
    | some f =>
      simp only [update, updateSingle, Variant.isArray, hc] at hu
      obtain ⟨rfl, rfl⟩ := Prod.mk.inj (Option.some.inj hu)
      obtain ⟨hrefs, htouch⟩ := updateSlot_refs f h slot env
      exact ⟨hrefs, rfl, htouch⟩
  | array t slots =>
    by_cases he : (slots.isEmpty && !P.emptyArrayTyped) = true
    · simp [update, updateArray, Variant.isArray, he] at hu
    · cases hc : arrayCase P t with
      | none => simp [update, updateArray, Variant.isArray, he, hc] at hu
      | some f =>
        simp only [update, updateArray, Variant.isArray, he, hc] at hu
        obtain ⟨rfl, rfl⟩ := Prod.mk.inj (Option.some.inj hu)
        obtain ⟨hrefs, hlen, htouch⟩ := updateSlots_refs f h slots env
        refine ⟨hrefs, ?_, htouch⟩
        have hempty : (updateSlots f h slots env).1.1.isEmpty = slots.isEmpty := by
          rw [Bool.eq_iff_iff, List.isEmpty_iff_length_eq_zero, List.isEmpty_iff_length_eq_zero,
            hlen]
        simp only [handled, Variant.variantType, DataValue.stamped_variant, hempty]

/-- The update of a data value in which no object occurs twice is the update of its value. -/
theorem update_load (statusCode : StatusCode) (h : Heap P) {d : DataValue (Slot P)}
    (hn : d.refs.Nodup) (env : Env) :
    (update statusCode h d env).1.map (fun r => r.1.load r.2) =
        (updateValue statusCode (d.load h) env).1 ∧
      (update statusCode h d env).2 = (updateValue statusCode (d.load h) env).2 := by
  obtain ⟨variant, _, _, _⟩ := d
  cases variant with
  | null => exact ⟨rfl, rfl⟩
  | scalar t slot =>
    cases hc : singleCase P t with
    | none =>
      simp [update, updateSingle, updateValue, Variant.isArray, DataValue.load, DataValue.map,
        Variant.map, hc]
    | some f =>
      obtain ⟨hread, henv⟩ := updateSlot_read f h slot env
      simp [update, updateSingle, updateValue, Variant.isArray, DataValue.load, DataValue.map,
        Variant.map, DataValue.stamped, hc, hread, henv]
  | array t slots =>
    by_cases he : (slots.isEmpty && !P.emptyArrayTyped) = true
    · simp [update, updateArray, updateValue, Variant.isArray, DataValue.load, DataValue.map,
        Variant.map, he]
    · cases hc : arrayCase P t with
      | none =>
        simp [update, updateArray, updateValue, Variant.isArray, DataValue.load, DataValue.map,
          Variant.map, he, hc]
      | some f =>
        obtain ⟨hread, henv⟩ := updateSlots_read f h slots hn env
        simp [update, updateArray, updateValue, Variant.isArray, DataValue.load, DataValue.map,
          Variant.map, DataValue.stamped, he, hc, hread, henv]

end ASNeGDemo.TestStatusCode
