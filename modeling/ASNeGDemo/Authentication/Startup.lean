import ASNeGDemo.Authentication.AuthNodeSet
import ASNeGDemo.Stack.Answers

/-!
The startup of `Authentication`. The callbacks are registered first, then the five variables get
their values, and the user profiles are made last.
-/
namespace ASNeGDemo.Authentication

/-- The object. `written` is what it has stored in the nodes behind its references, in order. -/
structure State (P : Platform) where
  namespaceIndex : ℕ
  /-- `value01_` to `value05_`. -/
  value : ℕ → Option NodeRef
  userProfileMap : UserProfileMap
  written : List (NodeRef × DataValue (Value P))

variable {P : Platform}

/-- The object the constructor leaves behind. -/
def construct (P : Platform) : State P := ⟨0, fun _ => none, .empty, []⟩

/-- How the service answers the requests of a startup, which references can be locked then, and
the clock reading of `setValuesToDefault`. -/
structure AuthenticationServiceBehaviour where
  namespaceInfo : NamespaceInfoResponse
  registerAuthentication : RegisterForwardResponse
  nodeReferences : GetNodeReferenceResponse
  live : NodeRef → Bool
  time : DateTime

def uri : String := "http://ASNeG-Demo.de/Auth/"

def getNamespaceInfo : NamespaceInfoResponse → Stage (State P) :=
  findNamespace (fun namespaceIndex s => { s with namespaceIndex := namespaceIndex }) uri

def registerAuthenticationCallback (res : RegisterForwardResponse) : Stage (State P) := fun s =>
  (s, some res.accepted)

/-- The value `setValuesToDefault` stores in the variable at the position. -/
def defaultValue (P : Platform) (time : DateTime) (idx : ℕ) : DataValue (Value P) :=
  ⟨.scalar .double (P.ofInt (idx + 1)), .success, time, time⟩

def setDefault (live : NodeRef → Bool) (time : DateTime) (idx : ℕ) : Stage (State P) := fun s =>
  match (s.value idx).filter live with
  | none => (s, some false)
  | some reference =>
      ({ s with written := s.written ++ [(reference, defaultValue P time idx)] }, some true)

/-- All references are read from the response before the first value is set. -/
def setValuesToDefault (res : GetNodeReferenceResponse) (live : NodeRef → Bool)
    (time : DateTime) : Stage (State P) :=
  Stage.chain
    [ Stage.within State.value (fun s value => { s with value := value }) (readResponse res 5),
      Stage.chain ((List.range 5).map (setDefault live time)) ]

/-- `startup`; the last stage is `createUserProfiles`. -/
def startup (b : AuthenticationServiceBehaviour) : Stage (State P) :=
  Stage.chain
    [ getNamespaceInfo b.namespaceInfo,
      registerAuthenticationCallback b.registerAuthentication,
      setValuesToDefault b.nodeReferences b.live b.time,
      fun s => ({ s with
        userProfileMap := createUserProfiles s.namespaceIndex s.userProfileMap }, some true) ]

/-! ### A startup that returns true -/

/-- The answers name the namespace, acknowledge the registration and give a live reference for
each of the five variables. -/
structure Complete (b : AuthenticationServiceBehaviour) (namespaceIndex : ℕ)
    (references : List NodeRef) : Prop where
  namespaceFound : firstNamespaceIndex uri b.namespaceInfo = some namespaceIndex
  accepted : b.registerAuthentication.accepted = true
  nodeReferences : b.nodeReferences.Complete 5 references
  live : ∀ reference ∈ references, b.live reference = true

/-- What the five writes of `setValuesToDefault` store. -/
def defaults (P : Platform) (time : DateTime) (references : List NodeRef) :
    List (NodeRef × DataValue (Value P)) :=
  references.zipIdx.map fun e => (e.1, defaultValue P time e.2)

section Defaults
variable {live : NodeRef → Bool} {references : List NodeRef} (time : DateTime)

/-- The members hold the references of the list. -/
def Holds (references : List NodeRef) (s : State P) : Prop :=
  ∀ idx < references.length, s.value idx = references[idx]?

theorem setDefault_of_live {s : State P} {idx : ℕ} (hs : Holds references s)
    (hidx : idx < references.length) (hlive : live references[idx] = true) :
    setDefault live time idx s =
      ({ s with written := s.written ++ [(references[idx], defaultValue P time idx)] },
        some true) := by
  have hvalue : (s.value idx).filter live = some references[idx] := by
    rw [hs idx hidx, List.getElem?_eq_getElem hidx]
    simp [hlive]
  simp only [setDefault, hvalue]

/-- The defaults are set to the end exactly if all references can be locked. -/
theorem setDefaults_true_iff {s : State P} (hs : Holds references s) :
    (Stage.chain ((List.range references.length).map (setDefault live time)) s).2 = some true ↔
      ∀ reference ∈ references, live reference = true := by
  have hkeep : ∀ idx (s' : State P), s'.value = s.value →
      (setDefault live time idx s').1.value = s.value := by
    intro idx s' hs'
    unfold setDefault
    cases (s'.value idx).filter live <;> exact hs'
  have hstep : ∀ idx (s' : State P), s'.value = s.value →
      ((setDefault live time idx s').2 = some true ↔
        ((s.value idx).filter live).isSome = true) := by
    intro idx s' hs'
    rw [← hs']
    unfold setDefault
    cases (s'.value idx).filter live <;> simp
  rw [Stage.chain_map_true_iff hkeep hstep _ rfl]
  constructor
  · intro h reference hmem
    obtain ⟨idx, hidx, rfl⟩ := List.mem_iff_getElem.mp hmem
    have hlocked := h idx (List.mem_range.mpr hidx)
    rw [hs idx hidx, List.getElem?_eq_getElem hidx] at hlocked
    simpa using hlocked
  · intro h idx hidx
    have hlt := List.mem_range.mp hidx
    rw [hs idx hlt, List.getElem?_eq_getElem hlt]
    simpa using h _ (List.getElem_mem hlt)

theorem setDefaults_state {s : State P} (hs : Holds references s)
    (hlive : ∀ reference ∈ references, live reference = true) :
    (Stage.chain ((List.range references.length).map (setDefault live time)) s).1 =
      { s with written := s.written ++ defaults P time references } := by
  rw [Stage.chain_map_state ((setDefaults_true_iff time hs).mpr hlive)]
  have hfirst : ∀ count ≤ references.length,
      (List.range count).foldl (fun s idx => (setDefault live time idx s).1) s =
        { s with written := s.written ++ (defaults P time references).take count } := by
    intro count
    induction count with
    | zero =>
      intro _
      rw [List.take_zero, List.append_nil]
      rfl
    | succ count ih =>
      intro hcount
      have hlocked := hlive _ (List.getElem_mem hcount)
      have hdefault : (defaults P time references)[count]? =
          some (references[count], defaultValue P time count) := by
        simp [defaults, show count < references.length from hcount]
      rw [List.range_succ, List.foldl_append, ih (by omega), List.foldl_cons, List.foldl_nil,
        setDefault_of_live time (by exact hs) hcount hlocked, List.take_add_one, hdefault,
        List.append_assoc]
      rfl
  have hall : (defaults P time references).length ≤ references.length := by
    simp [defaults]
  rw [hfirst _ le_rfl, List.take_of_length_le hall]

end Defaults

section Stages
variable {res : GetNodeReferenceResponse} {references : List NodeRef}

theorem readResponse_holds (h : res.Complete 5 references) (s : State P) :
    Holds references { s with value := (readResponse res 5 s.value).1 } := by
  intro idx hidx
  rw [h.length] at hidx
  exact readResponse_complete h s.value idx hidx

/-- All references must be there and must be live. -/
theorem setValuesToDefault_true_iff (live : NodeRef → Bool) (time : DateTime) (s : State P) :
    (setValuesToDefault res live time s).2 = some true ↔
      ∃ references, res.Complete 5 references ∧
        ∀ reference ∈ references, live reference = true := by
  have hset {references : List NodeRef} (h : res.Complete 5 references) :
      (Stage.chain ((List.range references.length).map (setDefault live time)) _).2 = some true ↔
        ∀ reference ∈ references, live reference = true :=
    setDefaults_true_iff time (readResponse_holds h s)
  unfold setValuesToDefault
  rw [Stage.chain_cons_true_iff, Stage.chain_cons_true_iff]
  change (readResponse res 5 s.value).2 = some true ∧ _ ∧ _ ↔ _
  rw [readResponse_true_iff]
  constructor
  · rintro ⟨⟨references, hcomplete⟩, hrest, -⟩
    have hiff := hset hcomplete
    rw [hcomplete.length] at hiff
    exact ⟨references, hcomplete, hiff.mp hrest⟩
  · rintro ⟨references, hcomplete, hlive⟩
    have hiff := hset hcomplete
    rw [hcomplete.length] at hiff
    exact ⟨⟨references, hcomplete⟩, hiff.mpr hlive, rfl⟩

theorem setValuesToDefault_of_complete {live : NodeRef → Bool} (h : res.Complete 5 references)
    (hlive : ∀ reference ∈ references, live reference = true) (time : DateTime) (s : State P) :
    (setValuesToDefault res live time s).1 =
      { s with
        value := (readResponse res 5 s.value).1
        written := s.written ++ defaults P time references } := by
  have hread : (Stage.within State.value (fun s value => { s with value := value })
      (readResponse res 5) s).2 = some true := (readResponse_true_iff ..).mpr ⟨references, h⟩
  have hset := setDefaults_state time (readResponse_holds h s) hlive
  rw [h.length] at hset
  unfold setValuesToDefault
  rw [Stage.chain_cons_of_true hread, Stage.chain_cons_chain, List.append_nil]
  exact hset

end Stages

/-- The object after a startup with complete answers. -/
theorem startup_of_complete {b : AuthenticationServiceBehaviour} {namespaceIndex : ℕ}
    {references : List NodeRef} (h : Complete b namespaceIndex references) (s : State P) :
    startup b s =
      ({ namespaceIndex := namespaceIndex
         value := (readResponse b.nodeReferences 5 s.value).1
         userProfileMap := createUserProfiles namespaceIndex s.userProfileMap
         written := s.written ++ defaults P b.time references }, some true) := by
  have hinfo : getNamespaceInfo b.namespaceInfo s =
      ({ s with namespaceIndex := namespaceIndex }, some true) :=
    findNamespace_of_eq_some _ h.namespaceFound s
  have hregister (s : State P) : registerAuthenticationCallback b.registerAuthentication s =
      (s, some true) := congrArg (fun accepted => (s, some accepted)) h.accepted
  have hset := (setValuesToDefault_true_iff b.live b.time
    { s with namespaceIndex := namespaceIndex }).mpr ⟨references, h.nodeReferences, h.live⟩
  unfold startup
  rw [Stage.chain_cons_of_true (by rw [hinfo]), hinfo,
    Stage.chain_cons_of_true (by rw [hregister]), hregister, Stage.chain_cons_of_true hset,
    setValuesToDefault_of_complete h.nodeReferences h.live]
  rfl

theorem complete_of_startup {b : AuthenticationServiceBehaviour} {s : State P}
    (h : (startup b s).2 = some true) :
    ∃ namespaceIndex references, Complete b namespaceIndex references := by
  unfold startup at h
  obtain ⟨hinfo, h⟩ := (Stage.chain_cons_true_iff ..).mp h
  obtain ⟨hregister, h⟩ := (Stage.chain_cons_true_iff ..).mp h
  obtain ⟨hset, -⟩ := (Stage.chain_cons_true_iff ..).mp h
  obtain ⟨references, hreferences, hlive⟩ := (setValuesToDefault_true_iff ..).mp hset
  obtain ⟨namespaceIndex, hfound⟩ := (findNamespace_true_iff _ _ s).mp hinfo
  exact ⟨namespaceIndex, references, hfound, Option.some.inj hregister, hreferences, hlive⟩

/-- A startup returns true exactly if the answers are complete. It has then stored the five
defaults, each behind the reference of its own variable, and made the profiles that were not
there yet. -/
theorem authentication_startup_iff (b : AuthenticationServiceBehaviour) (s : State P) :
    ((startup b s).2 = some true ↔ ∃ namespaceIndex references,
      Complete b namespaceIndex references) ∧
    ∀ namespaceIndex references, Complete b namespaceIndex references →
      Holds references (startup b s).1 ∧
      (startup b s).1.namespaceIndex = namespaceIndex ∧
      (startup b s).1.written = s.written ++ defaults P b.time references ∧
      (startup b s).1.userProfileMap = createUserProfiles namespaceIndex s.userProfileMap := by
  refine ⟨⟨complete_of_startup, ?_⟩, ?_⟩
  · rintro ⟨namespaceIndex, references, h⟩
    rw [startup_of_complete h]
  · intro namespaceIndex references h
    rw [startup_of_complete h]
    exact ⟨readResponse_holds h.nodeReferences s, rfl, rfl, rfl⟩

end ASNeGDemo.Authentication
