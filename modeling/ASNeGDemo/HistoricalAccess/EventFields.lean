import ASNeGDemo.HistoricalAccess.ReadEvents

/-!
What a client gets of the event history. The fields of an event line up with the select
clauses, and the id of an event is the clock reading it was made up at.
-/
namespace ASNeGDemo.HistoricalAccess

variable {P : Platform} (get : EventGet P) (representation : DateTime → Bytes)
  (namespaceIndex : ℕ)

/-- What looking up one clause alone on an event yields; `none` is a null pointer. -/
def lookup (event : BaseEventType P) (clause : SimpleAttributeOperand) :
    Option (Variant (Value P)) :=
  match get event clause.typeId clause.browsePath with
  | (.success, value, _) => value
  | _ => some .null

/-- The environment after some clock readings. -/
def advance (readings : ℕ) (env : Env) : Env := { env with clock := env.clock.drop readings }

theorem advance_advance (m n : ℕ) (env : Env) :
    advance n (advance m env) = advance (m + n) env := by
  simp only [advance, Stream'.drop_drop]

theorem createEvent_env (idx : ℕ) (env : Env) :
    (createEvent P representation namespaceIndex idx env).2 = advance 3 env := rfl

/-- The id that is made of a clock reading. -/
def idOf (P : Platform) (time : DateTime) : Variant (Value P) :=
  .scalar .byteString (some (representation time))

theorem createEvent_eventId (idx : ℕ) (env : Env) :
    (createEvent P representation namespaceIndex idx env).1.eventId =
      idOf representation P env.clock.head := rfl

theorem idOf_inj {time time' : DateTime} :
    idOf representation P time = idOf representation P time' ↔
      representation time = representation time' := by
  constructor
  · intro h
    injection h with _ hbytes
    exact Option.some.inj hbytes
  · intro h
    rw [idOf, h]
    rfl

/-- Steps that take a fixed number of clock readings each, one after the other. -/
theorem mapM_readings {α β : Type} {f : α → Sim β} {c : ℕ} (h : ∀ x env, (f x env).2 = advance c env)
    (l : List α) (env : Env) :
    (l.mapM f env).2 = advance (c * l.length) env ∧ (l.mapM f env).1.length = l.length ∧
      ∀ i : ℕ, (l.mapM f env).1[i]? = l[i]?.map fun x => (f x (advance (c * i) env)).1 := by
  induction l generalizing env with
  | nil => simp [advance]
  | cons x l ih =>
    obtain ⟨henv, hlen, hget⟩ := ih (advance c env)
    rw [List.mapM_cons]
    simp only [Sim.bind_apply, Sim.pure_apply, h]
    refine ⟨?_, by rw [List.length_cons, hlen, List.length_cons], fun i => ?_⟩
    · rw [henv, advance_advance, List.length_cons, Nat.mul_add, Nat.mul_one, Nat.add_comm]
    · cases i with
      | zero => simp [advance]
      | succ i =>
        rw [List.getElem?_cons_succ, List.getElem?_cons_succ, hget, advance_advance, Nat.mul_add,
          Nat.mul_one, Nat.add_comm]

theorem mapM_createEvent (l : List ℕ) (env : Env) :
    (l.mapM (createEvent P representation namespaceIndex) env).2 = advance (3 * l.length) env ∧
      (l.mapM (createEvent P representation namespaceIndex) env).1.length = l.length ∧
      ∀ i : ℕ, (l.mapM (createEvent P representation namespaceIndex) env).1[i]? =
        l[i]?.map fun idx =>
          (createEvent P representation namespaceIndex idx (advance (3 * i) env)).1 :=
  mapM_readings (createEvent_env representation namespaceIndex) l env

theorem events_length (env : Env) :
    (events P representation namespaceIndex env).1.length = numberEvents :=
  (mapM_createEvent representation namespaceIndex _ env).2.1.trans List.length_range

theorem selectField_eq (event : BaseEventType P) (clause : SimpleAttributeOperand) :
    selectField get event clause = ⟨lookup get event clause⟩ := by
  unfold selectField lookup
  rw [browseNameList_eq]
  rcases get event clause.typeId clause.browsePath with ⟨result, value, rest⟩
  cases result with
  | success => rfl
  | other code => rfl

/-- For every filter: each of the events has one field for each select clause, in their order,
and a field is what its clause alone yields on the event. -/
theorem readHEvent_aligned (ctx : ApplicationHReadEventContext P) (env : Env) :
    let made := (events P representation namespaceIndex env).1
    let read := (readHEvent get representation namespaceIndex ctx env).1
    read.filter = ctx.filter ∧ made.length = numberEvents ∧
      ∃ lists, read.eventFieldArray = some lists ∧ lists.values.length = numberEvents ∧
        ∀ (i : ℕ) event, made[i]? = some event → ∃ fields, lists.values[i]? = some fields ∧
          fields.values.length = ctx.filter.selectClauses.length ∧
          ∀ (j : ℕ) clause, ctx.filter.selectClauses[j]? = some clause →
            fields.values[j]? = some ⟨lookup get event clause⟩ := by
  intro made read
  have hlen := events_length (P := P) representation namespaceIndex env
  refine ⟨?_, hlen, ⟨numberEvents, made.map (filterEvent get ctx.filter)⟩, ?_, ?_, ?_⟩
  · exact congrArg (fun r => r.1.filter) (readHEvent_eq get representation namespaceIndex ctx env)
  · exact congrArg (fun r => r.1.eventFieldArray)
      (readHEvent_eq get representation namespaceIndex ctx env)
  · rw [List.length_map, hlen]
  · intro i event hevent
    refine ⟨filterEvent get ctx.filter event, by rw [List.getElem?_map, hevent, Option.map_some],
      ?_, ?_⟩
    · rw [filterEvent_eq, List.length_map]
    · intro j clause hclause
      rw [filterEvent_eq, List.getElem?_map, hclause, Option.map_some, selectField_eq]

/-! ### Event ids over several calls -/

/-- The calls of a run, one after the other. -/
def readHEvents (calls : List (ApplicationHReadEventContext P)) :
    Sim (List (ApplicationHReadEventContext P)) :=
  calls.mapM (readHEvent get representation namespaceIndex)

/-- The field of one event at one position of an answer. -/
def ApplicationHReadEventContext.field (answer : ApplicationHReadEventContext P) (i j : ℕ) :
    Option (EventField P) :=
  (answer.eventFieldArray.bind (·.values[i]?)).bind (·.values[j]?)

/-- The clause selects the event id, whatever the event is. -/
def SelectsEventId (clause : SimpleAttributeOperand) : Prop :=
  ∀ event, lookup get event clause = some event.eventId

/-- The clock reading of which the id of the `i`-th event of the `k`-th call is made. -/
def idReading (env : Env) (k i : ℕ) : DateTime := env.clock.get (15 * k + 3 * i)

/-- An event of an answer: the `i`-th of the `k`-th call, with the position `j` of a clause that
selects its id. -/
structure Returned (calls : List (ApplicationHReadEventContext P)) (k i j : ℕ) : Prop where
  event : i < numberEvents
  clause : ∃ ctx clause, calls[k]? = some ctx ∧ ctx.filter.selectClauses[j]? = some clause ∧
    SelectsEventId get clause

/-- The clock readings that a run takes, by their number. -/
def taken (calls : List (ApplicationHReadEventContext P)) : Set ℕ := Set.Iio (15 * calls.length)

variable {get} in
theorem Returned.mem_taken {calls : List (ApplicationHReadEventContext P)} {k i j : ℕ}
    (h : Returned get calls k i j) : 15 * k + 3 * i ∈ taken calls := by
  have hi : i < 5 := h.event
  obtain ⟨ctx, -, hctx, -⟩ := h.clause
  have hk : k < calls.length := (List.getElem?_eq_some_iff.mp hctx).1
  show 15 * k + 3 * i < 15 * calls.length
  omega

/-- The id at a position of the answers of a run. -/
def idAt (calls : List (ApplicationHReadEventContext P)) (env : Env) (k i j : ℕ) :
    Option (EventField P) :=
  (readHEvents get representation namespaceIndex calls env).1[k]?.bind (·.field i j)

theorem readHEvent_env (ctx : ApplicationHReadEventContext P) (env : Env) :
    (readHEvent get representation namespaceIndex ctx env).2 = advance 15 env := by
  rw [readHEvent_eq]
  exact (mapM_createEvent representation namespaceIndex _ env).1

/-- The ids in the answers of a run are the readings they were made of. -/
theorem idAt_eq {calls : List (ApplicationHReadEventContext P)} {k i j : ℕ}
    (h : Returned get calls k i j) (env : Env) :
    idAt get representation namespaceIndex calls env k i j =
      some ⟨some (idOf representation P (idReading env k i))⟩ := by
  obtain ⟨hi, ctx, clause, hctx, hclause, hselects⟩ := h
  have hanswer := (mapM_readings (readHEvent_env get representation namespaceIndex) calls env).2.2 k
  have hevent := (mapM_createEvent (P := P) representation namespaceIndex (List.range numberEvents)
    (advance (15 * k) env)).2.2 i
  rw [List.getElem?_range hi, Option.map_some, advance_advance] at hevent
  rw [idAt, readHEvents, hanswer, hctx, Option.map_some, Option.bind_some, readHEvent_eq]
  change (((events P representation namespaceIndex (advance (15 * k) env)).1.map
    (filterEvent get ctx.filter))[i]?).bind (·.values[j]?) = _
  rw [List.getElem?_map, events, hevent, Option.map_some, Option.bind_some, filterEvent_eq,
    List.getElem?_map, hclause, Option.map_some, selectField_eq, hselects, createEvent_eventId]
  simp only [advance, Stream'.head_drop, idReading]

/-- An event id looked up by name; nothing else is known. -/
def getEventId : EventGet exactPlatform := fun event _ browsePath =>
  if browsePath = [⟨"EventId", 0⟩] then (.success, some event.eventId, [])
  else (.other 1, none, browsePath)

/-- A call with a filter that selects the event id. -/
def selectingEventId : ApplicationHReadEventContext exactPlatform where
  filter := ⟨[⟨nodeId 2041 0, [⟨"EventId", 0⟩]⟩]⟩
  eventFieldArray := none
  statusCode := .success

/-- The eight bytes of a number, the lowest first. -/
def littleEndian (time : DateTime) : Bytes :=
  (List.range 8).map fun k => UInt8.ofNat (time.toNat / 256 ^ k % 256)

theorem selectingEventId_returned {k i : ℕ} (hk : k < 2) (hi : i < numberEvents) :
    Returned getEventId [selectingEventId, selectingEventId] k i 0 := by
  refine ⟨hi, selectingEventId, ⟨nodeId 2041 0, [⟨"EventId", 0⟩]⟩, ?_, rfl, fun _ => rfl⟩
  interval_cases k <;> rfl

/-- Small clock readings have different bytes. -/
theorem littleEndian_injOn : Set.InjOn littleEndian (Set.Ico (0 : ℤ) 256) := by
  rintro t ⟨ht, ht'⟩ u ⟨hu, hu'⟩ heq
  have hfirst : ∀ time, (littleEndian time).head? = some (UInt8.ofNat (time.toNat % 256)) := by
    intro time
    simp [littleEndian, List.range_succ_eq_map]
  have hbyte := congrArg List.head? heq
  rw [hfirst, hfirst, Option.some.injEq, ← UInt8.toNat_inj] at hbyte
  simp only [UInt8.toNat_ofNat'] at hbyte
  have hsmall : ∀ t u : ℤ, 0 ≤ t → t < 256 → 0 ≤ u → u < 256 →
      t.toNat % 256 % 2 ^ 8 = u.toNat % 256 % 2 ^ 8 → t = u := by omega
  exact hsmall t u ht ht' hu hu' hbyte

/-- On a clock that stands still all ids are the same, and on one that moves the first event
has another id in the second answer. -/
theorem eventId_not_entry :
    let still : Env := ⟨Stream'.const 0, Stream'.const 0⟩
    let moving : Env := ⟨Stream'.const 0, fun k => k⟩
    let idIn := idAt getEventId littleEndian 1 [selectingEventId, selectingEventId]
    idIn still 0 0 0 = idIn still 0 1 0 ∧ idIn moving 0 0 0 ≠ idIn moving 1 0 0 := by
  intro still moving idIn
  constructor
  · change idAt .. = idAt ..
    rw [idAt_eq _ _ _ (selectingEventId_returned (by decide) (by decide)),
      idAt_eq _ _ _ (selectingEventId_returned (by decide) (by decide))]
    rfl
  · intro heq
    change idAt .. = idAt .. at heq
    rw [idAt_eq _ _ _ (selectingEventId_returned (by decide) (by decide)),
      idAt_eq _ _ _ (selectingEventId_returned (by decide) (by decide))] at heq
    simp only [Option.some.injEq, EventField.mk.injEq, idOf_inj] at heq
    revert heq
    decide

/-- The ids of two events, of one answer or of two, are the same exactly if they were made of
the same clock reading; where the clock never stands still, exactly if it is one event. -/
theorem eventId_eq_iff {env : Env} {calls : List (ApplicationHReadEventContext P)}
    (hrepresentation : Set.InjOn representation (env.clock.get '' taken calls))
    {k i j k' i' j' : ℕ} (h : Returned get calls k i j) (h' : Returned get calls k' i' j') :
    (idAt get representation namespaceIndex calls env k i j =
        idAt get representation namespaceIndex calls env k' i' j' ↔
      idReading env k i = idReading env k' i') ∧
    (StrictMonoOn env.clock.get (taken calls) →
      (idAt get representation namespaceIndex calls env k i j =
          idAt get representation namespaceIndex calls env k' i' j' ↔ k = k' ∧ i = i')) := by
  have htaken := Set.mem_image_of_mem env.clock.get h.mem_taken
  have htaken' := Set.mem_image_of_mem env.clock.get h'.mem_taken
  have hreading : idAt get representation namespaceIndex calls env k i j =
      idAt get representation namespaceIndex calls env k' i' j' ↔
        idReading env k i = idReading env k' i' := by
    rw [idAt_eq get representation namespaceIndex h, idAt_eq get representation namespaceIndex h',
      Option.some.injEq, EventField.mk.injEq, Option.some.injEq, idOf_inj]
    exact hrepresentation.eq_iff htaken htaken'
  constructor
  · exact hreading
  · intro hclock
    rw [hreading, idReading, idReading, hclock.injOn.eq_iff h.mem_taken h'.mem_taken]
    have hi : i < 5 := h.event
    have hi' : i' < 5 := h'.event
    omega

theorem eventId_eq_iff_two_calls :
    let env : Env := ⟨Stream'.const 0, fun k => k⟩
    let idIn := idAt getEventId littleEndian 1 [selectingEventId, selectingEventId] env
    (idIn 0 0 0 = idIn 1 0 0 ↔ idReading env 0 0 = idReading env 1 0) ∧
      (idIn 0 0 0 = idIn 1 0 0 ↔ 0 = 1 ∧ 0 = 0) := by
  intro env idIn
  have hreadings : env.clock.get '' taken [selectingEventId, selectingEventId] ⊆
      Set.Ico (0 : ℤ) 256 := by
    rintro _ ⟨k, hk, rfl⟩
    have hlt : k < 30 := hk
    show 0 ≤ (k : ℤ) ∧ (k : ℤ) < 256
    omega
  have hclock : StrictMonoOn env.clock.get (taken [selectingEventId, selectingEventId]) :=
    fun k _ l _ hlt => Int.ofNat_lt.mpr hlt
  have hfirst := selectingEventId_returned (k := 0) (i := 0) (by decide) (by decide)
  have hsecond := selectingEventId_returned (k := 1) (i := 0) (by decide) (by decide)
  have hids := eventId_eq_iff getEventId littleEndian 1 (littleEndian_injOn.mono hreadings)
    hfirst hsecond
  exact ⟨hids.1, hids.2 hclock⟩

end ASNeGDemo.HistoricalAccess
