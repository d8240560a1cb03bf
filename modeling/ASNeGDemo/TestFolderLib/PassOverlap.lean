import ASNeGDemo.General.OneCell
import ASNeGDemo.TestFolderLib.Overlap

/-!
A whole pass of the timer beside any number of client writes to any nodes. The pass visits one
node after the other, and what becomes of a node depends on how many of the writes to it fall
before the timer has read it, stored it, stamped it and published it.
-/
namespace ASNeGDemo.TestFolderLib
open SharedCells

variable {P : Platform}

/-- The data value holds a value of the type, as a scalar or as an array. -/
structure OfKind (t : BuildInType) (array : Bool) (dataValue : DataValue (Value P)) : Prop where
  type : dataValue.variant.variantType P = t
  array : dataValue.variant.isArray = array

/-- The access that stores the updated value, counted from zero: before it come the array test,
the type test and, where the case has one, `getValue`. -/
def storeAccess (t : BuildInType) (array : Bool) : ℕ := if array || readsValue t then 3 else 2

/-- The data value a case is on the way to, when it has read another one. -/
def caseResult (locals : Locals P) (array : Bool) (t : BuildInType)
    (dataValue : DataValue (Value P)) (env : Env) : Option (DataValue (Value P)) :=
  if array then
    (arrayCase P t).map fun update =>
      let result := update (getArray locals t dataValue.variant) env
      let time := (universalTime result.2).1
      ⟨.array t result.1, .success, time, time⟩
  else
    (singleCase P t).map fun update =>
      let value := if readsValue t then getScalar locals t dataValue.variant
        else locals.uninitialised t
      let result := update value env
      let time := (universalTime result.2).1
      ⟨.scalar t result.1, .success, time, time⟩

section Visit

/-- A content of a node after `i` of the writes to it. The accesses that set a field of `new` came
after `before 0`, `before 1`, `before 2` and `before 3` of them; a write behind one replaces the
field again. -/
structure Mixed (v : DataValue (Value P)) (ws : List (DataValue (Value P)))
    (new : DataValue (Value P)) (before : ℕ → ℕ) (i : ℕ) (d : DataValue (Value P)) : Prop where
  variant : Since DataValue.variant v ws new.variant (before 0) i d
  serverTimestamp : Since DataValue.serverTimestamp v ws new.serverTimestamp (before 1) i d
  sourceTimestamp : Since DataValue.sourceTimestamp v ws new.sourceTimestamp (before 2) i d
  statusCode : Since DataValue.statusCode v ws new.statusCode (before 3) i d

variable (n : NodeId) (reference : NodeRef)

/-- What becomes of a node, and what is published for it: the access that publishes it comes after
`before 4` of the writes. -/
structure Fate (c' : Cells Unit fun _ => DataValue (Value P)) (v : DataValue (Value P))
    (ws : List (DataValue (Value P))) (out : List (Publication P)) (new : DataValue (Value P))
    (before : ℕ → ℕ) : Prop where
  stored : Mixed v ws new before ws.length (c'.value ())
  published : ∃ d, out = [⟨n, reference, d⟩] ∧ Mixed v ws new before (before 4) d

/-- The same for a visit that may store nothing. Then the node is left to its writes. -/
def Outcome (c' : Cells Unit fun _ => DataValue (Value P)) (v : DataValue (Value P))
    (ws : List (DataValue (Value P))) (out : List (Publication P))
    (new : Option (DataValue (Value P))) (before : ℕ → ℕ) : Prop :=
  match new with
  | none => c'.value () = held v ws ws.length ∧ out = []
  | some new => Fate n reference c' v ws out new before

variable {n reference} {c' : Cells Unit fun _ => DataValue (Value P)} {v : DataValue (Value P)}
  {ws : List (DataValue (Value P))} {log : Log Unit (fun _ => DataValue (Value P)) (Publication P)}
  {k : ℕ}

theorem Mixed.carry {new : DataValue (Value P)} {before : ℕ → ℕ} {d : DataValue (Value P)}
    (h : Mixed v ws new before k d) (hbefore : ∀ j < 4, before j ≤ k) {i : ℕ} (hki : k ≤ i)
    (hi : i ≤ ws.length) : Mixed v ws new before i (carried d ws k i) where
  variant := h.variant.carry (hbefore 0 (by norm_num)) hki hi
  serverTimestamp := h.serverTimestamp.carry (hbefore 1 (by norm_num)) hki hi
  sourceTimestamp := h.sourceTimestamp.carry (hbefore 2 (by norm_num)) hki hi
  statusCode := h.statusCode.carry (hbefore 3 (by norm_num)) hki hi

/-- `setValue`, the three stamps and the publication, from the content after `k` writes on. -/
theorem Fate.of_store (v : DataValue (Value P)) {w : DataValue (Value P)}
    {variant : Variant (Value P)} {env : Env}
    (h : Beside c' w (.update () (fun d => { d with variant := variant }) fun _ =>
      publish n reference env) (ws.drop k) log) (hk : k ≤ ws.length) :
    let time := (universalTime env).1
    Fate n reference c' v ws (outputs log) ⟨variant, .success, time, time⟩
      fun j => k + turnsBefore j log := by
  intro time
  obtain ⟨i0, log0, hturn0, h0, hout0⟩ := h.update hk
  generalize hd0 : ({ carried w ws k i0 with variant := variant } : DataValue (Value P)) = d0 at h0
  obtain ⟨i1, log1, hturn1, h1, hout1⟩ := h0.update hturn0.le_length
  generalize hd1 : ({ carried d0 ws i0 i1 with serverTimestamp := time } : DataValue (Value P)) = d1
    at h1
  obtain ⟨i2, log2, hturn2, h2, hout2⟩ := h1.update hturn1.le_length
  generalize hd2 : ({ carried d1 ws i1 i2 with sourceTimestamp := time } : DataValue (Value P)) = d2
    at h2
  obtain ⟨i3, log3, hturn3, h3, hout3⟩ := h2.update hturn2.le_length
  generalize hd3 : ({ carried d2 ws i2 i3 with statusCode := .success } : DataValue (Value P)) = d3
    at h3
  obtain ⟨i4, log4, hturn4, h4, hout4⟩ := h3.read hturn3.le_length
  obtain ⟨i5, log5, hturn5, h5, hout5⟩ := h4.emit hturn4.le_length
  obtain ⟨hvalue, hout6⟩ := h5.done
  generalize hbefore : (fun j => k + turnsBefore j log) = before
  have hbefore0 : before 0 = i0 := by
    rw [← hbefore, ← hturn0.first]
  have hbefore1 : before 1 = i1 := by
    rw [← hbefore, ← hturn1.first]
    exact hturn0.turns 0
  have hbefore2 : before 2 = i2 := by
    rw [← hbefore, ← hturn2.first]
    exact (hturn0.turns 1).trans (hturn1.turns 0)
  have hbefore3 : before 3 = i3 := by
    rw [← hbefore, ← hturn3.first]
    exact (hturn0.turns 2).trans ((hturn1.turns 1).trans (hturn2.turns 0))
  have hbefore4 : before 4 = i4 := by
    rw [← hbefore, ← hturn4.first]
    exact (hturn0.turns 3).trans ((hturn1.turns 2).trans ((hturn2.turns 1).trans (hturn3.turns 0)))
  -- each access sets one field and keeps the others
  have hvariant : Since DataValue.variant v ws variant i0 i2 d2 := by
    have hset : Since DataValue.variant v ws variant i0 i0 d0 := Since.now (by rw [← hd0])
    have hkept : Since DataValue.variant v ws variant i0 i1 d1 :=
      (hset.carry le_rfl hturn1.le hturn1.le_length).keep (by rw [← hd1])
    exact (hkept.carry hturn1.le hturn2.le hturn2.le_length).keep (by rw [← hd2])
  have hserver : Since DataValue.serverTimestamp v ws time i1 i2 d2 := by
    have hset : Since DataValue.serverTimestamp v ws time i1 i1 d1 := Since.now (by rw [← hd1])
    exact (hset.carry le_rfl hturn2.le hturn2.le_length).keep (by rw [← hd2])
  have hsource : Since DataValue.sourceTimestamp v ws time i2 i2 d2 := Since.now (by rw [← hd2])
  have hstamped : Mixed v ws ⟨variant, .success, time, time⟩ before i3 d3 := by
    constructor
    · rw [hbefore0]
      exact (hvariant.carry (hturn1.le.trans hturn2.le) hturn3.le hturn3.le_length).keep
        (by rw [← hd3])
    · rw [hbefore1]
      exact (hserver.carry hturn2.le hturn3.le hturn3.le_length).keep (by rw [← hd3])
    · rw [hbefore2]
      exact (hsource.carry le_rfl hturn3.le hturn3.le_length).keep (by rw [← hd3])
    · rw [hbefore3]
      exact Since.now (by rw [← hd3])
  have hearlier : ∀ j < 4, before j ≤ i3 := by
    have hle1 := hturn1.le
    have hle2 := hturn2.le
    have hle3 := hturn3.le
    intro j hj
    interval_cases j <;> omega
  have hpublished := hstamped.carry hearlier hturn4.le hturn4.le_length
  have hlater : ∀ j < 4, before j ≤ i4 := fun j hj => (hearlier j hj).trans hturn4.le
  constructor
  · rw [hvalue]
    have hfired := hpublished.carry hlater hturn5.le hturn5.le_length
    exact hfired.carry (fun j hj => (hlater j hj).trans hturn5.le) hturn5.le_length le_rfl
  · refine ⟨carried d3 ws i3 i4, ?_, hbefore4 ▸ hpublished⟩
    rw [hout0, hout1, hout2, hout3, hout4, hout5, hout6]

variable (locals : Locals P)

/-- The rest of a visit after the two tests, from the content after `k` writes on. -/
theorem Outcome.of_case {t : BuildInType} {array : Bool} {env : Env} (hk : k ≤ ws.length)
    (h : Beside c' (held v ws k) (if array then arrayCaseSteps locals n reference t env
      else singleCaseSteps locals n reference t env) (ws.drop k) log) :
    Outcome n reference c' v ws (outputs log)
      (caseResult locals array t (held v ws (k + turnsBefore 0 log)) env)
      fun j => k + turnsBefore (storeAccess t array - 2 + j) log := by
  have hidle {a : Unit} (h : Beside c' (held v ws k) (.pure a) (ws.drop k) log) :
      c'.value () = held v ws ws.length ∧ outputs log = [] := by
    obtain ⟨hvalue, hout⟩ := h.done
    rw [carried_held _ _ hk] at hvalue
    exact ⟨hvalue, hout⟩
  cases array with
  | true =>
    rw [if_pos rfl] at h
    unfold arrayCaseSteps at h
    unfold caseResult
    rw [if_pos rfl]
    cases hu : arrayCase P t with
    | none =>
      rw [hu] at h
      exact hidle h
    | some u =>
      rw [hu] at h
      obtain ⟨i, rest, hturn, hread, hout⟩ := Beside.read h hk
      rw [carried_held _ _ hturn.le] at hread
      have hfate := Fate.of_store v hread hturn.le_length
      rw [hout, hturn.first, show storeAccess t true - 2 = 0 + 1 from rfl, hturn.shift]
      simp only [Nat.zero_add]
      exact hfate
  | false =>
    rw [if_neg Bool.false_ne_true] at h
    unfold caseResult
    rw [if_neg Bool.false_ne_true]
    cases hu : singleCase P t with
    | none =>
      unfold singleCaseSteps at h
      rw [hu] at h
      exact hidle h
    | some u =>
      by_cases hr : readsValue t = true
      · rw [singleCaseSteps_of_readsValue locals n reference hu hr] at h
        obtain ⟨i, rest, hturn, hread, hout⟩ := Beside.read h hk
        rw [carried_held _ _ hturn.le] at hread
        have hfate := Fate.of_store v hread hturn.le_length
        have haccess : storeAccess t false - 2 = 0 + 1 := by simp [storeAccess, hr]
        rw [hout, hturn.first, haccess, hturn.shift, if_pos hr]
        simp only [Nat.zero_add]
        exact hfate
      · have hstore : Beside c' (held v ws k) (.update ()
            (fun d => { d with variant := .scalar t (u (locals.uninitialised t) env).1 }) fun _ =>
              publish n reference (u (locals.uninitialised t) env).2) (ws.drop k) log := by
          simpa [singleCaseSteps, hu, readScalar, hr] using h
        have hfate := Fate.of_store v hstore hk
        have haccess : storeAccess t false - 2 = 0 := by simp [storeAccess, hr]
        rw [haccess, if_neg hr]
        simp only [Nat.zero_add]
        exact hfate

/-- One visit beside any writes. The array test, the type test and `getValue` can each see
another content. -/
theorem Outcome.of_visit {env : Env}
    (h : Beside c' v (visitSteps locals n reference env) ws log) :
    let seen (i : ℕ) := held v ws (turnsBefore i log)
    let array := (seen 0).variant.isArray
    let t := (seen 1).variant.variantType P
    Outcome n reference c' v ws (outputs log) (caseResult locals array t (seen 2) env)
      fun j => turnsBefore (storeAccess t array + j) log := by
  have hstart : Beside c' (held v ws 0) (visitSteps locals n reference env) (ws.drop 0) log := by
    rw [held_zero]
    exact h
  obtain ⟨i, log1, hturn1, htested, hout1⟩ := Beside.read hstart (Nat.zero_le _)
  rw [carried_held _ _ hturn1.le] at htested
  intro seen array t
  have hi : turnsBefore 0 log = i := (Nat.zero_add _).symm.trans hturn1.first
  have harray : array = (held v ws i).variant.isArray := by
    unfold array seen
    rw [hi]
  have hdispatch : Beside c' (held v ws i) (.read () fun d =>
      if array then arrayCaseSteps locals n reference (d.variant.variantType P) env
      else singleCaseSteps locals n reference (d.variant.variantType P) env)
      (ws.drop i) log1 := by
    change Beside c' _ (if (held v ws i).variant.isArray = true then
      updateArraySteps locals n reference env else updateSingleSteps locals n reference env) _ _
      at htested
    rw [← harray] at htested
    clear_value array
    cases array <;> exact htested
  obtain ⟨j, log2, hturn2, htyped, hout2⟩ := hdispatch.read hturn1.le_length
  rw [carried_held _ _ hturn2.le] at htyped
  have hturns (a : ℕ) : turnsBefore (a + 2) log = j + turnsBefore a log2 := by
    rw [← hturn2.turns, ← hturn1.turns, Nat.zero_add]
  have hj : turnsBefore 1 log = j := by
    rw [← hturn2.first, ← hturn1.turns, Nat.zero_add]
  have ht : (held v ws j).variant.variantType P = t := by
    unfold t seen
    rw [hj]
  rw [ht] at htyped
  have houtcome := Outcome.of_case locals hturn2.le_length htyped
  rw [hout1, hout2, show seen 2 = held v ws (j + turnsBefore 0 log2) by rw [← hturns]]
  have haccess (b : ℕ) : storeAccess t array + b = storeAccess t array - 2 + b + 2 := by
    unfold storeAccess
    split_ifs <;> omega
  simp only [haccess, hturns]
  exact houtcome

/-! ### Writes of the kind the node holds -/

variable {t : BuildInType} {array : Bool}

/-- What an update makes of a content of a handled kind. -/
theorem OfKind.cases (ht : handledType t = true) {d : DataValue (Value P)}
    (hd : OfKind t array d) :
    (array = false ∧ ∃ x, d.variant = .scalar t x) ∨
      array = true ∧ ∃ xs, d.variant = .array t xs ∧
        (xs.isEmpty && !P.emptyArrayTyped) = false := by
  obtain ⟨htype, harray⟩ := hd
  cases hvariant : d.variant with
  | null =>
    rw [hvariant] at htype
    obtain rfl : BuildInType.unknown = t := htype
    cases ht
  | scalar t' x =>
    rw [hvariant] at htype harray
    obtain rfl : t' = t := htype
    exact .inl ⟨harray.symm, x, rfl⟩
  | array t' xs =>
    rw [hvariant] at htype harray
    by_cases hempty : (xs.isEmpty && !P.emptyArrayTyped) = true
    · rw [Variant.variantType, if_pos hempty] at htype
      subst htype
      cases ht
    · rw [Variant.variantType, if_neg hempty] at htype
      subst htype
      exact .inr ⟨harray.symm, xs, rfl, by simpa using hempty⟩

theorem OfKind.held {d : DataValue (Value P)} (hd : OfKind t array d)
    (hws : ∀ w ∈ ws, OfKind t array w) (i : ℕ) : OfKind t array (held d ws i) := by
  obtain hfirst | hmem := held_mem d ws i
  · rwa [hfirst]
  · exact hws _ hmem

/-- Between contents of one handled kind a case makes the update of the one it has read. -/
theorem OfKind.caseResult (ht : handledType t = true) {d : DataValue (Value P)}
    (hd : OfKind t array d) (env : Env) :
    TestFolderLib.caseResult locals array t d env = some (updated d env) := by
  unfold TestFolderLib.caseResult
  obtain ⟨rfl, x, hx⟩ | ⟨rfl, xs, hxs, hempty⟩ := hd.cases ht
  · obtain ⟨u, hu⟩ : ∃ u, singleCase P t = some u := by
      rw [← Option.isSome_iff_exists, singleCase_isSome, ht]
    have hread : u (if readsValue t then getScalar locals t d.variant else locals.uninitialised t) =
        u x := by
      split_ifs with hr
      · rw [hx, getScalar_scalar]
      · exact singleCase_of_not_readsValue hu hr _ _
    simp only [Bool.false_eq_true, if_false, hu, Option.map_some, hread]
    simp [updated, update, updateSingle, Variant.isArray, hx, hu, DataValue.stamped]
  · obtain ⟨u, hu⟩ : ∃ u, arrayCase P t = some u := by
      rw [← Option.isSome_iff_exists, arrayCase_isSome, ht]
    simp [updated, update, updateArray, Variant.isArray, hxs, hempty, hu, DataValue.stamped]

end Visit

/-! ### The pass -/

/-- A node the pass comes by with a live reference, and the draws of its visit, whatever the
visits before it have left of the stream. -/
structure Stop where
  nodeId : NodeId
  reference : NodeRef
  env : Env

section Pass
variable (locals : Locals P)

def visits (stops : List Stop) :
    List (Σ _ : NodeId, CellProgram P Unit) :=
  stops.map fun stop => ⟨stop.nodeId, visitSteps locals stop.nodeId stop.reference stop.env⟩

def passSteps (stops : List Stop) :
    Program NodeId (fun _ => DataValue (Value P)) (Publication P) Unit :=
  Program.sequence (visits locals stops)

/-- The pass of the timer (left) and the writes of clients (right), in the order of the
schedule. -/
def passOverlap (stops : List Stop) (contents : NodeId → DataValue (Value P))
    (writes : List (Σ _ : NodeId, DataValue (Value P))) (schedule : List Party) :
    Cells NodeId (fun _ => DataValue (Value P)) ×
      Log NodeId (fun _ => DataValue (Value P)) (Publication P) :=
  interleave schedule (Cells.fresh contents) (passSteps locals stops)
    (Program.writes writes)

theorem visits_nodup {stops : List Stop} (h : (stops.map Stop.nodeId).Nodup) :
    ((visits locals stops).map Sigma.fst).Nodup := by
  unfold visits
  rwa [List.map_map]

theorem visitSteps_emits (n : NodeId) (reference : NodeRef) (env : Env) :
    (visitSteps locals n reference env).Emits fun p => p.nodeId = n := by
  have hpublish (env : Env) : (publish n reference env : CellProgram P Unit).Emits
      fun p => p.nodeId = n := fun _ _ _ _ => ⟨rfl, trivial⟩
  have hsingle (t : BuildInType) : (singleCaseSteps locals n reference t env).Emits
      fun p => p.nodeId = n := by
    unfold singleCaseSteps
    cases singleCase P t with
    | none => trivial
    | some u =>
      refine Program.Emits.bind ?_ fun value _ => hpublish _
      unfold readScalar
      split_ifs
      · exact fun _ => trivial
      · trivial
  have harray (t : BuildInType) : (arrayCaseSteps locals n reference t env : CellProgram P Unit).Emits
      fun p => p.nodeId = n := by
    unfold arrayCaseSteps
    cases arrayCase P t with
    | none => trivial
    | some u => exact fun _ _ => hpublish _
  intro d
  change (if d.variant.isArray = true then updateArraySteps locals n reference env
    else updateSingleSteps locals n reference env).Emits _
  split_ifs
  · exact fun d => harray _
  · exact fun d => hsingle _

theorem visits_emits (stops : List Stop) :
    ∀ e ∈ visits locals (P := P) stops, e.2.Emits fun p => p.nodeId = e.1 := by
  intro e he
  obtain ⟨stop, -, rfl⟩ := List.mem_map.mp he
  exact visitSteps_emits locals stop.nodeId stop.reference stop.env

theorem programAt_visits_of_mem {stops : List Stop} (h : (stops.map Stop.nodeId).Nodup)
    {stop : Stop} (hstop : stop ∈ stops) :
    programAt stop.nodeId (visits locals stops) =
      visitSteps locals stop.nodeId stop.reference stop.env :=
  programAt_of_mem (visits_nodup locals h) (List.mem_map_of_mem hstop)

theorem programAt_visits_of_not_mem {stops : List Stop} {n : NodeId}
    (h : n ∉ stops.map Stop.nodeId) : programAt n (visits locals (P := P) stops) =
      .pure () := by
  apply programAt_of_not_mem
  unfold visits
  rwa [List.map_map]

/-! ### The pass without company -/

/-- The nodes of the object that the pass comes by, in the order of the value map. -/
def stopsOf (s : State P) (live : NodeRef → Bool) (draws : NodeId → Env) : List Stop :=
  s.valueMap.keys.filterMap fun n =>
    (liveReference s.baseNodeClassWMap live n).map fun reference => ⟨n, reference, draws n⟩

/-- The data values behind the nodes. -/
def contentsOf (s : State P) (n : NodeId) : DataValue (Value P) :=
  (s.value n).getD (noDataValue P)

theorem mem_stopsOf {s : State P} {live : NodeRef → Bool} {draws : NodeId → Env} {stop : Stop} :
    stop ∈ stopsOf s live draws ↔ stop.nodeId ∈ s.valueMap.keys ∧
      liveReference s.baseNodeClassWMap live stop.nodeId = some stop.reference ∧
      stop.env = draws stop.nodeId := by
  obtain ⟨n, reference, env⟩ := stop
  unfold stopsOf
  rw [List.mem_filterMap]
  constructor
  · rintro ⟨m, hm, hstop⟩
    obtain ⟨r, hr, heq⟩ := Option.map_eq_some_iff.mp hstop
    cases heq
    exact ⟨hm, hr, rfl⟩
  · rintro ⟨hn, hr, henv⟩
    change env = draws n at henv
    subst henv
    exact ⟨n, hn, Option.map_eq_some_iff.mpr ⟨reference, hr, rfl⟩⟩

theorem stopsOf_nodup (s : State P) (live : NodeRef → Bool) (draws : NodeId → Env) :
    ((stopsOf s live draws).map Stop.nodeId).Nodup := by
  have hsub : ((stopsOf s live draws).map Stop.nodeId).Sublist s.valueMap.keys := by
    unfold stopsOf
    induction s.valueMap.keys with
    | nil => exact List.Sublist.slnil
    | cons n keys ih =>
      cases hr : liveReference s.baseNodeClassWMap live n with
      | none =>
        rw [List.filterMap_cons_none (by rw [hr]; rfl)]
        exact ih.cons n
      | some reference =>
        rw [List.filterMap_cons_some (by rw [hr]; rfl), List.map_cons]
        exact ih.cons_cons n
  exact hsub.nodup s.valueMap.keys_nodup

/-- Run alone, the pass is the timer loop. -/
theorem passSteps_run {s : State P} (h : s.Separated) (live : NodeRef → Bool) (env : Env) :
    ∃ draws : NodeId → Env,
      let r := (passSteps locals (stopsOf s live draws)).run (contentsOf s)
      ∀ n, (s.value n).isSome = true →
        (timerLoop s live env).1.1.value n = some (r.2.1 n) ∧
        (timerLoop s live env).1.2.filter (·.nodeId = n) = r.2.2.filter (·.nodeId = n) := by
  obtain ⟨draws, hvalue, hpublished⟩ := timerLoop_value h live env
  refine ⟨draws, ?_⟩
  intro r n hn
  obtain ⟨d, hd⟩ := Option.isSome_iff_exists.mp hn
  have hcontents : contentsOf s n = d := by
    unfold contentsOf
    rw [hd, Option.getD_some]
  obtain ⟨hcell, hout⟩ := sequence_run (visits_nodup locals (stopsOf_nodup s live draws))
    (visits_emits locals _) (contentsOf s) n
  rw [hvalue, hpublished, hd]
  change some (visited s.baseNodeClassWMap live n d (draws n)) = some (r.2.1 n) ∧
    published s.baseNodeClassWMap live n d (draws n) = _
  rw [show r.2.1 n = _ from hcell, show r.2.2.filter (·.nodeId = n) = _ from hout, hcontents,
    visited_eq, published_eq]
  cases hr : liveReference s.baseNodeClassWMap live n with
  | none =>
    have hnot : n ∉ (stopsOf s live draws).map Stop.nodeId := by
      intro hmem
      obtain ⟨stop, hstop, rfl⟩ := List.mem_map.mp hmem
      rw [(mem_stopsOf.mp hstop).2.1] at hr
      cases hr
    rw [programAt_visits_of_not_mem locals hnot]
    exact ⟨rfl, rfl⟩
  | some reference =>
    have hkey : n ∈ s.valueMap.keys := by
      rw [s.valueMap.mem_keys_iff]
      unfold State.value at hd
      cases hf : s.valueMap.find n with
      | none =>
        rw [hf] at hd
        cases hd
      | some _ => rfl
    have hstop : (⟨n, reference, draws n⟩ : Stop) ∈ stopsOf s live draws :=
      mem_stopsOf.mpr ⟨hkey, hr, rfl⟩
    have hprogram := programAt_visits_of_mem locals (stopsOf_nodup s live draws) hstop
    rw [hprogram]
    change _ = some (((visitSteps locals n reference (draws n)).run (cell d)).2.1 ()) ∧
      _ = ((visitSteps locals n reference (draws n)).run (cell d)).2.2
    rw [visitSteps_run]
    by_cases hh : handled d = true
    · rw [update_of_handled hh]
      simp [hh]
    · rw [update_of_not_handled hh]
      simp [hh]

/-! ### The pass beside the writes -/

/-- Beside any writes to any nodes, in any order of the steps. A node the pass does not come by
is left to its writes. A node it comes by is tested, read, stored, stamped and published at most
once, and each field of what it holds, or of what is published for it, is that of the last write if
one falls behind the access that sets the field, else what the timer has made of the content it
read: a write between the two is lost, and one between the stamps and the publication is published
with its own status code. -/
theorem pass_overlap {stops : List Stop} (hstops : (stops.map Stop.nodeId).Nodup)
    (contents : NodeId → DataValue (Value P)) (writes : List (Σ _ : NodeId, DataValue (Value P)))
    (schedule : List Party) :
    let r := passOverlap locals stops contents writes schedule
    (∀ n ∉ stops.map Stop.nodeId,
      r.1.value n = held (contents n) (writesTo n writes) (writesTo n writes).length ∧
        (outputs r.2).filter (·.nodeId = n) = []) ∧
    ∀ stop ∈ stops,
      let log := project Publication.nodeId stop.nodeId r.2
      let own := writesTo stop.nodeId writes
      let seen (i : ℕ) := held (contents stop.nodeId) own (turnsBefore i log)
      let array := (seen 0).variant.isArray
      let t := (seen 1).variant.variantType P
      let new := caseResult locals array t (seen 2) stop.env
      Outcome stop.nodeId stop.reference (r.1.onCell stop.nodeId) (contents stop.nodeId) own
        ((outputs r.2).filter (·.nodeId = stop.nodeId)) new
        (fun j => turnsBefore (storeAccess t array + j) log) ∧
      ∀ t' array', handledType t' = true → OfKind t' array' (contents stop.nodeId) →
        (∀ w ∈ own, OfKind t' array' w) →
        t = t' ∧ array = array' ∧ new = some (updated (seen 2) stop.env) := by
  intro r
  have hbeside := interleave_beside (visits_nodup locals hstops)
    (visits_emits locals stops) contents writes schedule
  constructor
  · intro n hn
    have hidle := hbeside n
    rw [programAt_visits_of_not_mem locals hn] at hidle
    obtain ⟨hvalue, hout⟩ := hidle.pure
    rw [outputs_project] at hout
    exact ⟨hvalue, hout⟩
  · intro stop hstop log own seen array t new
    have hnode := hbeside stop.nodeId
    rw [programAt_visits_of_mem locals hstops hstop] at hnode
    have houtcome := Outcome.of_visit locals hnode
    rw [outputs_project] at houtcome
    refine ⟨houtcome, ?_⟩
    intro t' array' ht hcontents hwrites
    have hkind (i : ℕ) : OfKind t' array' (seen i) := hcontents.held hwrites _
    obtain rfl : t = t' := (hkind 1).type
    obtain rfl : array = array' := (hkind 0).array
    exact ⟨rfl, rfl, (hkind 2).caseResult locals ht stop.env⟩

end Pass

/-- The timer has read 5 when a client writes 20 and then, to another node, 7: the 20 is lost. -/
theorem pass_overlap_lostWrite :
    let r := passOverlap zeroLocals [⟨nodeId 200 2, 0, noEnv⟩] (fun _ => sByteValue 5)
      [⟨nodeId 200 2, sByteValue 20⟩, ⟨nodeId 202 2, sByteValue 7⟩]
      [.left, .left, .left, .right, .right]
    (r.1.value (nodeId 200 2)).variant = (updated (sByteValue 5) noEnv).variant ∧
      r.1.value (nodeId 202 2) = sByteValue 7 := by
  intro r
  have honce : ([⟨nodeId 200 2, 0, noEnv⟩].map Stop.nodeId).Nodup := List.nodup_singleton _
  obtain ⟨hothers, hstops⟩ := pass_overlap zeroLocals honce (fun _ => sByteValue 5)
    [⟨nodeId 200 2, sByteValue 20⟩, ⟨nodeId 202 2, sByteValue 7⟩]
    [.left, .left, .left, .right, .right]
  obtain ⟨houtcome, hkinds⟩ := hstops _ List.mem_cons_self
  obtain ⟨ht, harray, hnew⟩ := hkinds (.int .sByte) false rfl ⟨rfl, rfl⟩
    (List.forall_mem_singleton.mpr ⟨rfl, rfl⟩)
  constructor
  · rw [hnew] at houtcome
    exact houtcome.stored.variant
  · exact (hothers (nodeId 202 2) (by decide)).1

end ASNeGDemo.TestFolderLib
