import ASNeGDemo.Lifecycle.Restart

/-!
The whole life of a `TestFolderLib`: startups and shutdowns whatever the service answers, and
between them all its callbacks and its timer. Seen from outside it is still a map; a startup adds
the nodes of the namespace it finds, and leaves the values of the nodes that are there.
-/
namespace ASNeGDemo.TestFolderLib

variable {P : Platform}

/-- The answer is that of the callback or the tick. -/
def proceed (s : State P) : LifeEvent P DateTime → State P × Option (Answer P)
  | .call c => (((module P).call s c).1, none)
  | .event e => ((step s e).1, some (step s e).2)
  | .writeLoopTimeValue dataValue => (invoke s (.writeLoopTimeValue dataValue), none)

/-- What the object is seen as. -/
structure Life (P : Platform) where
  namespaceIndex : ℕ
  references : OrderedMap NodeId NodeRef
  value : NodeId → Option (DataValue (Value P))

def State.life (s : State P) : Life P := ⟨s.namespaceIndex, s.baseNodeClassWMap, s.value⟩

/-- An event of a life; a startup comes with the references that are there after it. -/
inductive Entry (P : Platform) where
  | startup (b : ServiceBehaviour) (now : DateTime) (references : OrderedMap NodeId NodeRef)
  | shutdown
  | occurrence (o : Occurrence P)
  | writeLoopTimeValue (dataValue : DataValue (Value P))

namespace Entry

def event : Entry P → LifeEvent P DateTime
  | startup b now _ => .call (.startup b now)
  | shutdown => .call .shutdown
  | occurrence o => .event o.event
  | writeLoopTimeValue dataValue => .writeLoopTimeValue dataValue

def answer : Entry P → Option (Answer P)
  | occurrence o => some o.answer
  | _ => none

end Entry

namespace Life

/-- What an entry does to the map. A startup that gets a namespace table keeps every value and
gives the other nodes of the namespace their initial ones. -/
def effect (l : Life P) : Entry P → Life P
  | .startup b now references =>
      if b.namespaceInfo.statusCode = .success then
        let ns := namespaceIndexOf uri b.namespaceInfo.index2NamespaceMap l.namespaceIndex
        { namespaceIndex := ns
          references := references
          value := fun n => (l.value n).or (initialValue P now ns n) }
      else l
  | .occurrence o =>
      { l with value := fun n => (l.value n).map fun d =>
          TestFolderLib.effect l.references n d o }
  | _ => l

theorem effect_startup (l : Life P) {b : ServiceBehaviour}
    (h : b.namespaceInfo.statusCode = .success) (now : DateTime)
    (references : OrderedMap NodeId NodeRef) :
    l.effect (.startup b now references) =
      { namespaceIndex :=
          namespaceIndexOf uri b.namespaceInfo.index2NamespaceMap l.namespaceIndex
        references := references
        value := fun n => (l.value n).or (initialValue P now
          (namespaceIndexOf uri b.namespaceInfo.index2NamespaceMap l.namespaceIndex) n) } :=
  if_pos h

/-- The references a startup leaves are those that were there and some that came back with a good
status; callbacks and ticks are answered as those of a map. -/
def Answered (l : Life P) : Entry P → Prop
  | .startup b _ references =>
      (∀ n r, l.references.find n = some r → references.find n = some r) ∧
        ∀ n r, references.find n = some r →
          l.references.find n = some r ∨ (.success, r) ∈ b.nodeReferences.results
  | .occurrence o => TestFolderLib.Answered l.references l.value o
  | _ => True

end Life

/-! ### A startup -/

/-- The loop over the references inserts, and only what came back with a good status. -/
theorem saveReferences_find (nodes : List NodeId) (statuses : List StatusCode)
    (references : List NodeRef) (map : OrderedMap NodeId NodeRef) :
    let saved := (saveReferences nodes statuses references map).1
    (∀ n r, map.find n = some r → saved.find n = some r) ∧
      ∀ n r, saved.find n = some r →
        map.find n = some r ∨ (.success, r) ∈ statuses.zip references := by
  induction references generalizing nodes statuses map with
  | nil => cases statuses <;> cases nodes <;> exact ⟨fun _ _ h => h, fun _ _ h => .inl h⟩
  | cons reference references ih =>
    cases statuses with
    | nil => cases nodes <;> exact ⟨fun _ _ h => h, fun _ _ h => .inl h⟩
    | cons status statuses =>
      by_cases hs : status = .success
      · subst hs
        cases nodes with
        | nil => exact ⟨fun _ _ h => h, fun _ _ h => .inl h⟩
        | cons node nodes =>
          obtain ⟨hkept, hnew⟩ := ih nodes statuses (map.insert node reference)
          constructor
          · intro n r h
            apply hkept
            rw [OrderedMap.find_insert]
            split_ifs with hn
            · subst hn
              rw [h]
              rfl
            · exact h
          · intro n r h
            obtain hfind | hmem := hnew n r h
            · rw [OrderedMap.find_insert] at hfind
              split_ifs at hfind with hn
              · subst hn
                cases hold : map.find n with
                | some old =>
                  rw [hold] at hfind
                  exact .inl hfind
                | none =>
                  rw [hold] at hfind
                  obtain rfl := Option.some.inj hfind
                  exact .inr List.mem_cons_self
              · exact .inl hfind
            · exact .inr (List.mem_cons_of_mem _ hmem)
      · cases nodes <;> simp [saveReferences, hs] <;> tauto

theorem fill_life (b : ServiceBehaviour) (now : DateTime) {s : State P} (h : s.Separated) :
    (fill b now s).Separated ∧ ∀ n, (fill b now s).value n = (s.value n).or (initialValue P now
      (namespaceIndexOf uri b.namespaceInfo.index2NamespaceMap s.namespaceIndex) n) := by
  let ns := namespaceIndexOf uri b.namespaceInfo.index2NamespaceMap s.namespaceIndex
  have hseparated : ({ s with namespaceIndex := ns } : State P).Separated :=
    ⟨h.allocated, h.injective⟩
  obtain ⟨hfilled, hvalue⟩ := foldl_insertValue (initialValues P now) now hseparated
  exact ⟨⟨hfilled.allocated, hfilled.injective⟩, hvalue⟩

/-- The stages of a startup that follow the value map. -/
def requests (b : ServiceBehaviour) : List (Stage (State P)) :=
  [ registerCallbacks b.registerValues,
    registerLoopTimeCallbacks b.uninitialised b.registerLoopTime,
    createNodeReferences b.nodeReferences,
    startTimerLoop ]

theorem startup_eq {b : ServiceBehaviour} (h : b.namespaceInfo.statusCode = .success)
    (now : DateTime) (s : State P) :
    startup b now s = Stage.chain (requests b) (fill b now s) := by
  have hname : getNamespaceInfo b.namespaceInfo s = ({ s with
      namespaceIndex := namespaceIndexOf uri b.namespaceInfo.index2NamespaceMap s.namespaceIndex },
      some true) := if_pos h
  rw [startup, Stage.chain_cons_of_true (by rw [hname]), hname, Stage.chain_cons_of_true rfl]
  rfl

/-- What the requests leave alone, and what becomes of the references. -/
theorem requests_frame (b : ServiceBehaviour) (s : State P) :
    let s' := (Stage.chain (requests b) s).1
    (s'.namespaceIndex = s.namespaceIndex ∧ s'.valueMap = s.valueMap ∧ s'.cells = s.cells) ∧
      (∀ n r, s.baseNodeClassWMap.find n = some r → s'.baseNodeClassWMap.find n = some r) ∧
      ∀ n r, s'.baseNodeClassWMap.find n = some r →
        s.baseNodeClassWMap.find n = some r ∨ (.success, r) ∈ b.nodeReferences.results := by
  refine Stage.chain_preserves (I := fun s' : State P =>
    (s'.namespaceIndex = s.namespaceIndex ∧ s'.valueMap = s.valueMap ∧ s'.cells = s.cells) ∧
      (∀ n r, s.baseNodeClassWMap.find n = some r → s'.baseNodeClassWMap.find n = some r) ∧
      ∀ n r, s'.baseNodeClassWMap.find n = some r →
        s.baseNodeClassWMap.find n = some r ∨ (.success, r) ∈ b.nodeReferences.results) ?_
    ⟨⟨rfl, rfl, rfl⟩, fun _ _ h => h, fun _ _ h => .inl h⟩
  intro f hf s' hs'
  obtain rfl | rfl | rfl | rfl : f = _ ∨ f = _ ∨ f = _ ∨ f = _ := by simpa [requests] using hf
  · exact hs'
  · exact hs'
  · unfold createNodeReferences
    split_ifs
    · obtain ⟨hsame, hkept, hnew⟩ := hs'
      obtain ⟨hkeeps, hnews⟩ := saveReferences_find s'.valueVec b.nodeReferences.statuses
        b.nodeReferences.nodeReferences s'.baseNodeClassWMap
      exact ⟨hsame, fun n r h => hkeeps n r (hkept n r h),
        fun n r h => (hnews n r h).elim (hnew n r) .inr⟩
    · exact hs'
  · exact hs'

theorem startup_life (b : ServiceBehaviour) (now : DateTime) {s : State P} (h : s.Separated) :
    let s' := (startup b now s).1
    s'.Separated ∧ s'.life = s.life.effect (.startup b now s'.baseNodeClassWMap) ∧
      s.life.Answered (.startup b now s'.baseNodeClassWMap) := by
  intro s'
  by_cases hstatus : b.namespaceInfo.statusCode = .success
  · obtain ⟨hseparated, hvalue⟩ := fill_life b now h
    obtain ⟨hindex, hrefs, -⟩ := fill_others b now s
    have hs' : s' = (Stage.chain (requests b) (fill b now s)).1 :=
      congrArg Prod.fst (startup_eq hstatus now s)
    obtain ⟨⟨hns, hmap, hcells⟩, hkept, hnew⟩ := requests_frame b (fill b now s)
    rw [← hs'] at hns hmap hcells hkept hnew
    rw [hrefs] at hkept hnew
    refine ⟨⟨?_, ?_⟩, ?_, hkept, hnew⟩
    · rw [hmap, hcells]
      exact hseparated.allocated
    · rw [hmap]
      exact hseparated.injective
    · have hvalues : s'.value = (fill b now s).value := by
        funext n
        unfold State.value
        rw [hmap, hcells]
      rw [Life.effect_startup _ hstatus]
      unfold State.life
      rw [hns, hindex, hvalues, funext hvalue]
  · have hs' : s' = s :=
      congrArg Prod.fst ((module P).startup_refused b now s hstatus)
    rw [hs']
    refine ⟨h, ?_, fun _ _ h => h, fun _ _ h => .inl h⟩
    exact (if_neg hstatus).symm

theorem step_namespaceIndex (s : State P) (e : Event P) :
    (step s e).1.namespaceIndex = s.namespaceIndex := by
  cases e with
  | readValue n => rfl
  | writeValue n dataValue => cases h : s.valueMap.find n <;> simp [step, writeValue, h]
  | timerLoop live env => rfl

/-- One step of the object is one entry of the life of a map. -/
theorem proceed_refines {s : State P} (h : s.Separated) (e : LifeEvent P DateTime) :
    (proceed s e).1.Separated ∧ ∃ o : Entry P, o.event = e ∧ o.answer = (proceed s e).2 ∧
      (proceed s e).1.life = s.life.effect o ∧ s.life.Answered o := by
  cases e with
  | call c =>
    cases c with
    | startup b now =>
      obtain ⟨hseparated, heffect, hanswered⟩ := startup_life b now h
      exact ⟨hseparated, .startup b now _, rfl, rfl, heffect, hanswered⟩
    | shutdown => exact ⟨h, .shutdown, rfl, rfl, rfl, trivial⟩
  | event e =>
    obtain ⟨hseparated, hrefs, o, rfl, ho, hvalue, hanswered⟩ := step_refines h e
    refine ⟨hseparated, .occurrence o, rfl, congrArg some ho, ?_, hanswered⟩
    change (⟨(step s o.event).1.namespaceIndex, (step s o.event).1.baseNodeClassWMap,
      (step s o.event).1.value⟩ : Life P) = _
    rw [step_namespaceIndex, hrefs, funext hvalue]
    rfl
  | writeLoopTimeValue dataValue =>
    exact ⟨⟨h.allocated, h.injective⟩, .writeLoopTimeValue dataValue, rfl, rfl, rfl, trivial⟩

/-! ### Lives -/

/-- What the constructor leaves behind is an empty map. -/
def Life.empty (P : Platform) : Life P := ⟨0, .empty, fun _ => none⟩

theorem construct_separated_life (P : Platform) (env : Env) :
    (construct P env).1.Separated ∧ (construct P env).1.life = Life.empty P := by
  refine ⟨⟨?_, ?_⟩, rfl⟩
  · intro n cell h
    cases h
  · intro m n cell h
    cases h

/-- Entries that are neither writes nor ticks keep what is there. -/
theorem Life.effect_value_of_some (l : Life P) {n : NodeId} {d : DataValue (Value P)}
    (hd : l.value n = some d) {e : Entry P} (he : ∀ o, e ≠ .occurrence o) :
    (l.effect e).value n = some d := by
  cases e with
  | startup b now references =>
    by_cases hstatus : b.namespaceInfo.statusCode = .success
    · rw [Life.effect_startup l hstatus]
      dsimp only
      rw [hd, Option.some_or]
    · rw [show l.effect (.startup b now references) = l from if_neg hstatus, hd]
  | shutdown => exact hd
  | occurrence o => exact absurd rfl (he o)
  | writeLoopTimeValue dataValue => exact hd

theorem run_separated (env : Env) (es : List (LifeEvent P DateTime)) :
    (Runs.run proceed (construct P env).1 es).1.Separated :=
  Runs.run_invariant (I := State.Separated) (fun _ e h => (proceed_refines h e).1) es
    (construct_separated_life P env).1

/-- What is neither a write nor a tick leaves every value that is there. -/
theorem run_value_of_some {s : State P} (h : s.Separated) {n : NodeId} {d : DataValue (Value P)}
    (hd : s.value n = some d) {fs : List (LifeEvent P DateTime)} (hfs : ∀ e, .event e ∉ fs) :
    (Runs.run proceed s fs).1.value n = some d := by
  induction fs generalizing s with
  | nil => exact hd
  | cons f fs ih =>
    obtain ⟨hseparated, o, rfl, -, heffect, -⟩ := proceed_refines h f
    have ho : ∀ o', o ≠ .occurrence o' := by
      rintro o' rfl
      exact hfs o'.event List.mem_cons_self
    have hvalue : (proceed s o.event).1.life.value n = some d := by
      rw [heffect]
      exact s.life.effect_value_of_some hd ho
    exact ih hseparated hvalue fun e he => hfs e (List.mem_cons_of_mem _ he)

/-- Over its whole life the object answers and publishes as a map from node ids to data values
does. A startup adds the nodes of the namespace it finds with their initial values and keeps all
other values and references; so no reload sets a value back. -/
theorem lives_as_map (env : Env) (es : List (LifeEvent P DateTime)) :
    let run := Runs.run proceed (construct P env).1 es
    (∃ history : List (Entry P),
      history.map Entry.event = es ∧ history.map Entry.answer = run.2 ∧
      run.1.life = history.foldl Life.effect (Life.empty P) ∧
      ∀ before o after, history = before ++ o :: after →
        (before.foldl Life.effect (Life.empty P)).Answered o) ∧
    ∀ n d, run.1.value n = some d → ∀ fs : List (LifeEvent P DateTime), (∀ e, .event e ∉ fs) →
      (Runs.run proceed run.1 fs).1.value n = some d := by
  intro run
  constructor
  · obtain ⟨hseparated, hlife⟩ := construct_separated_life P env
    have hhistory := Runs.run_history State.life Life.effect Entry.event Entry.answer Life.Answered
      (I := State.Separated) (fun _ e h => proceed_refines h e) es hseparated
    rwa [hlife] at hhistory
  · intro n d hd fs hfs
    exact run_value_of_some (run_separated env es) hd hfs

end ASNeGDemo.TestFolderLib
