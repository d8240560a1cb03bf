import ASNeGDemo.Authentication.Startup

/-!
Sessions while the application is started again and again. The map of the users is filled once:
`insert` leaves the profiles of an earlier startup as they are.
-/
namespace ASNeGDemo.Authentication

/-- The object and the contexts the stack keeps for its sessions. -/
structure System (P : Platform) where
  object : State P
  contexts : ℕ → Option UserProfile

/-- What happens to it: startups whatever the service answers, and requests in the sessions. A
shutdown does nothing. -/
inductive Occurrence where
  | startup (b : AuthenticationServiceBehaviour)
  | shutdown
  | request (session : ℕ) (request : Request)

section Runs
variable {P : Platform} (handed : Option UserProfile → Option UserProfile)

def step (s : System P) : Occurrence → System P
  | .startup b => { s with object := (startup b s.object).1 }
  | .shutdown => s
  | .request session request =>
      let served := serve s.object.userProfileMap handed (s.contexts session) request
      { s with contexts := Function.update s.contexts session served.1 }

/-- The state after a run that begins with the object as constructed. -/
def run (P : Platform) (es : List Occurrence) : System P :=
  es.foldl (step handed) ⟨construct P, fun _ => none⟩

/-- The namespace index of a startup that returns true. -/
def completed (P : Platform) : Occurrence → Option ℕ
  | .startup b =>
      let started := startup b (construct P)
      if started.2 = some true then some started.1.namespaceIndex else none
  | _ => none

theorem completed_startup_eq_some {b : AuthenticationServiceBehaviour} {namespaceIndex : ℕ} :
    completed P (.startup b) = some namespaceIndex ↔
      ∃ references, Complete b namespaceIndex references := by
  unfold completed
  dsimp only
  by_cases h : (startup b (construct P)).2 = some true
  · obtain ⟨found, references, hcomplete⟩ := complete_of_startup h
    rw [if_pos h, startup_of_complete hcomplete, Option.some.injEq]
    constructor
    · rintro rfl
      exact ⟨references, hcomplete⟩
    · rintro ⟨_, hother⟩
      exact Option.some.inj (hcomplete.namespaceFound.symm.trans hother.namespaceFound)
  · rw [if_neg h]
    refine iff_of_false (by simp) ?_
    rintro ⟨references, hcomplete⟩
    exact h (congrArg Prod.snd (startup_of_complete hcomplete _))

/-- A startup that gives up leaves the profiles alone: the last stage makes them. -/
theorem startup_userProfileMap_of_not {b : AuthenticationServiceBehaviour} {s : State P}
    (h : (startup b s).2 ≠ some true) :
    (startup b s).1.userProfileMap = s.userProfileMap := by
  let Same (s' : State P) : Prop := s'.userProfileMap = s.userProfileMap
  have hdefault (idx : ℕ) (s' : State P) (hs' : Same s') :
      Same (setDefault b.live b.time idx s').1 := by
    unfold setDefault
    cases (s'.value idx).filter b.live <;> exact hs'
  have hdefaults (s' : State P) (hs' : Same s') :
      Same (setValuesToDefault b.nodeReferences b.live b.time s').1 := by
    refine Stage.chain_preserves (I := Same) ?_ hs'
    intro f hf s' hs'
    obtain rfl | rfl : f = _ ∨ f = _ := by simpa using hf
    · exact hs'
    · refine Stage.chain_preserves (I := Same) ?_ hs'
      exact List.forall_mem_map.mpr fun idx _ => hdefault idx
  have hchain : startup b s = Stage.chain
      [ getNamespaceInfo b.namespaceInfo,
        registerAuthenticationCallback b.registerAuthentication,
        setValuesToDefault b.nodeReferences b.live b.time ] s :=
    Stage.chain_concat_of_not [_, _, _] _ h
  rw [hchain]
  refine Stage.chain_preserves (I := Same) ?_ rfl
  intro f hf s' hs'
  obtain rfl | rfl | rfl : f = _ ∨ f = _ ∨ f = _ := by simpa using hf
  · unfold getNamespaceInfo findNamespace
    cases firstNamespaceIndex uri b.namespaceInfo <;> exact hs'
  · exact hs'
  · exact hdefaults s' hs'

/-! ### The profiles -/

theorem createUserProfiles_find_of_find (namespaceIndex : ℕ) {userProfileMap : UserProfileMap}
    {name : Bytes} {userProfile : UserProfile} (h : userProfileMap.find name = some userProfile) :
    (createUserProfiles namespaceIndex userProfileMap).find name = some userProfile := by
  rw [createUserProfiles, OrderedMap.find_insertAll, h, Option.some_or]

/-- The second startup makes profiles for the same names, and none of them is kept. -/
theorem createUserProfiles_again (first again : ℕ) :
    createUserProfiles again (createUserProfiles first .empty) =
      createUserProfiles first .empty := by
  apply OrderedMap.insertAll_of_mem_keys
  intro e he
  rw [createUserProfiles, OrderedMap.mem_keys_insertAll]
  have hname := List.mem_map_of_mem (f := Prod.fst) he
  exact .inr hname

/-- A session's new context is its old one, or the profile of a user of the table. -/
theorem serve_context (hhanded : ∀ context, handed context = context ∨ handed context = none)
    {userProfileMap : UserProfileMap} {session : Option UserProfile} {request : Request}
    {userProfile : UserProfile}
    (h : (serve userProfileMap handed session request).1 = some userProfile) :
    session = some userProfile ∨ ∃ name, userProfileMap.find name = some userProfile := by
  have hcontext (h : handed session = some userProfile) : session = some userProfile := by
    obtain hsame | hnone := hhanded session
    · exact hsame.symm.trans h
    · cases hnone.symm.trans h
  cases request with
  | authorize operation n attributeId => exact .inl h
  | authenticate authenticationType =>
    cases authenticationType with
    | anonymous => exact .inl (hcontext h)
    | x509 => exact .inl (hcontext h)
    | other typeId => exact .inl h
    | userName token =>
      by_cases hany : ∃ other, Matches userProfileMap token other
      · obtain ⟨other, hother⟩ := hany
        rw [serve_of_matches hother] at h
        obtain rfl := Option.some.inj h
        exact .inr ⟨token.userName, hother.1⟩
      · rw [serve_of_not_matches (not_exists.mp hany)] at h
        exact .inl h

/-- The table holds the profiles of the first startup that returned true, and the sessions carry
profiles of the table. -/
structure Settled (first : Option ℕ) (s : System P) : Prop where
  table : s.object.userProfileMap = first.elim .empty (createUserProfiles · .empty)
  contexts : ∀ i userProfile, s.contexts i = some userProfile →
    ∃ name, s.object.userProfileMap.find name = some userProfile

variable {handed}

theorem Settled.step {first : Option ℕ} {s : System P} (h : Settled first s)
    (hhanded : ∀ context, handed context = context ∨ handed context = none) (e : Occurrence) :
    Settled (first.or (completed P e)) (step handed s e) := by
  cases e with
  | shutdown =>
    change Settled (first.or none) s
    rwa [Option.or_none]
  | request session request =>
    change Settled (first.or none) _
    rw [Option.or_none]
    refine ⟨h.table, ?_⟩
    intro i userProfile hi
    change Function.update s.contexts session _ i = some userProfile at hi
    by_cases hsession : i = session
    · subst hsession
      rw [Function.update_self] at hi
      exact (serve_context handed hhanded hi).elim (h.contexts i userProfile) id
    · rw [Function.update_of_ne hsession] at hi
      exact h.contexts i userProfile hi
  | startup b =>
    by_cases hstarted : (startup b s.object).2 = some true
    · obtain ⟨namespaceIndex, references, hcomplete⟩ := complete_of_startup hstarted
      have hfirst : completed P (.startup b) = some namespaceIndex :=
        completed_startup_eq_some.mpr ⟨references, hcomplete⟩
      have htable : (Authentication.step handed s (.startup b)).object.userProfileMap =
          createUserProfiles namespaceIndex s.object.userProfileMap :=
        congrArg (·.1.userProfileMap) (startup_of_complete hcomplete s.object)
      constructor
      · rw [htable, h.table, hfirst]
        cases first with
        | none => rfl
        | some index => exact createUserProfiles_again index namespaceIndex
      · intro i userProfile hi
        obtain ⟨name, hname⟩ := h.contexts i userProfile hi
        rw [htable]
        exact ⟨name, createUserProfiles_find_of_find namespaceIndex hname⟩
    · have hfirst : completed P (.startup b) = none := by
        rw [Option.eq_none_iff_forall_ne_some]
        intro namespaceIndex hsome
        obtain ⟨references, hcomplete⟩ := completed_startup_eq_some.mp hsome
        exact hstarted (congrArg Prod.snd (startup_of_complete hcomplete s.object))
      have htable : (Authentication.step handed s (.startup b)).object.userProfileMap =
          s.object.userProfileMap := startup_userProfileMap_of_not hstarted
      rw [hfirst, Option.or_none]
      refine ⟨htable.trans h.table, ?_⟩
      rw [htable]
      exact h.contexts

theorem run_settled (hhanded : ∀ context, handed context = context ∨ handed context = none)
    (es : List Occurrence) : Settled (es.findSome? (completed P)) (run handed P es) := by
  induction es using List.reverseRecOn with
  | nil => exact ⟨rfl, fun _ _ h => nomatch h⟩
  | append_singleton es e ih =>
    unfold run
    rw [List.foldl_append, List.findSome?_append, List.findSome?_singleton]
    exact ih.step hhanded e

/-- The ids of the profiles carry the index they were made with. -/
theorem published_mem_demoNodes_iff {user : BarredUser} (hu : user ∈ barredUsers) {node : UANode}
    (hnode : node ∈ authChildren) (hclass : node.nodeClass = user.nodeClass)
    (namespaceIndex first : ℕ) :
    node.published namespaceIndex ∈ demoNodes (barredStem user) first ↔
      user.name ≠ "user4" ∧ namespaceIndex = first := by
  have hindex : ∀ n ∈ demoNodes (barredStem user) first, n.namespaceIndex = first := by
    simp only [demoNodes, Finset.mem_insert, Finset.mem_singleton]
    rintro n (rfl | rfl | rfl | rfl | rfl) <;> rfl
  have hpublished : (node.published namespaceIndex).namespaceIndex = namespaceIndex := by
    obtain ⟨name, -, rfl⟩ | ⟨name, -, rfl⟩ := mem_authChildren.mp hnode <;> rfl
  constructor
  · intro hmem
    obtain rfl : namespaceIndex = first := hpublished.symm.trans (hindex _ hmem)
    exact ⟨(child_mem_demoNodes hu hnode hclass _).mp hmem, rfl⟩
  · rintro ⟨hname, rfl⟩
    exact (child_mem_demoNodes hu hnode hclass _).mpr hname

/-- After any startups, shutdowns and requests. Before the first startup that returns true nobody
logs in with a name. After it the profiles stay those that this startup made, and every context is
one of them; a user is kept from the nodes published under the object's present index exactly if
it is still the first one, and `user4` not even then. -/
theorem reloaded_policy (hhanded : ∀ context, handed context = context ∨ handed context = none)
    (es : List Occurrence) (i : ℕ) :
    let s := run handed P es
    (es.findSome? (completed P) = none → s.contexts i = none ∧ ∀ token,
      serve s.object.userProfileMap handed none (.authenticate (.userName token)) =
        (none, .badUserAccessDenied)) ∧
    ∀ first, es.findSome? (completed P) = some first →
      s.object.userProfileMap = createUserProfiles first .empty ∧
      (∀ userProfile, s.contexts i = some userProfile →
        ∃ name, (createUserProfiles first .empty).find name = some userProfile) ∧
      ∀ user ∈ barredUsers, LoggedIn s.object.userProfileMap (s.contexts i) user.name →
        ∀ node ∈ authChildren, node.nodeClass = user.nodeClass →
        ∀ attributeId, (user.operation = .read → attributeId = attributeIdValue) →
          ((serve s.object.userProfileMap handed (s.contexts i) (.authorize user.operation
              (node.published s.object.namespaceIndex) attributeId)).2 = .badUserAccessDenied ↔
            user.name ≠ "user4" ∧ s.object.namespaceIndex = first) := by
  intro s
  have hsettled : Settled (es.findSome? (completed P)) s := run_settled hhanded es
  constructor
  · intro hnone
    have htable : s.object.userProfileMap = .empty := by
      rw [hsettled.table, hnone]
      rfl
    constructor
    · cases hi : s.contexts i with
      | none => rfl
      | some userProfile =>
        obtain ⟨name, hname⟩ := hsettled.contexts i userProfile hi
        rw [htable] at hname
        cases hname
    · intro token
      apply serve_of_not_matches
      rintro userProfile ⟨hfind, -⟩
      rw [htable] at hfind
      cases hfind
  · intro first hfirst
    have htable : s.object.userProfileMap = createUserProfiles first .empty := by
      rw [hsettled.table, hfirst]
      rfl
    refine ⟨htable, ?_, ?_⟩
    · intro userProfile hi
      rw [← htable]
      exact hsettled.contexts i userProfile hi
    · intro user hu hlogin node hnode hclass attributeId hattribute
      rw [htable] at hlogin
      obtain ⟨userProfile, hfind, hcontext⟩ := hlogin
      obtain ⟨userProfile', hfind', hnotAllowed⟩ := createUserProfiles_find first hu
      obtain rfl : userProfile = userProfile' := Option.some.inj (hfind.symm.trans hfind')
      rw [← published_mem_demoNodes_iff hu hnode hclass, ← hnotAllowed]
      simp only [serve]
      rw [(autorizationCallback_statusCode _).1, hcontext]
      constructor
      · rintro ⟨other, hother, hmem, -⟩
        obtain rfl := Option.some.inj hother
        exact hmem
      · intro hmem
        exact ⟨userProfile, rfl, hmem, hattribute⟩

end Runs

/-- A service that answers in full. -/
def answering (namespaceIndex : ℕ) : AuthenticationServiceBehaviour where
  namespaceInfo := ⟨.success, OrderedMap.empty.insert namespaceIndex uri⟩
  registerAuthentication := ⟨.success, .success⟩
  nodeReferences := ⟨.success, some (good [0, 1, 2, 3, 4])⟩
  live := fun _ => true
  time := 0

/-- The first user logs in, and then the namespace moves from index 2 to index 3. -/
def moved : List Occurrence :=
  [ .startup (answering 2),
    .request 7 (.authenticate (.userName ⟨bytes "user1", some (bytes "password1")⟩)),
    .startup (answering 3) ]

/-- The first user now reads the first value. -/
theorem reloaded_policy_moved :
    (serve (run id exactPlatform moved).object.userProfileMap id
        ((run id exactPlatform moved).contexts 7)
        (.authorize .read (nodeIdString "Auth.Value01" 3) attributeIdValue)).2 ≠
      .badUserAccessDenied := by
  have hfirst : moved.findSome? (completed exactPlatform) = some 2 := rfl
  have hlogin : LoggedIn (run id exactPlatform moved).object.userProfileMap
      ((run id exactPlatform moved).contexts 7) "user1" := ⟨_, rfl, rfl⟩
  have hnode : component .variable 63 "Value01" ∈ authChildren :=
    mem_authChildren.mpr (.inr ⟨"Value01", by decide, rfl⟩)
  have hu : (⟨"user1", .read, .variable⟩ : BarredUser) ∈ barredUsers := List.mem_cons_self
  have hhanded (context : Option UserProfile) : id context = context ∨ id context = none :=
    .inl rfl
  obtain ⟨-, -, hpolicy⟩ := (reloaded_policy (P := exactPlatform) hhanded moved 7).2 2 hfirst
  intro hrefused
  have hmoved := (hpolicy _ hu hlogin _ hnode rfl attributeIdValue fun _ => rfl).mp hrefused
  exact absurd hmoved.2 (by decide)

end ASNeGDemo.Authentication
