import ASNeGDemo.Authentication.Sessions

/-!
The nodes that the node set file `Opc.Ua.NodeSet.Auth.xml` publishes, and what the users of the
demo are barred from among them.
-/
namespace ASNeGDemo.Authentication

inductive NodeClass where
  | object | variable
  deriving DecidableEq

structure Reference where
  referenceType : String
  isForward : Bool
  target : NodeId
  deriving DecidableEq

/-- A `UAObject` or a `UAVariable` of the file, with the namespace indices of the file. -/
structure UANode where
  nodeClass : NodeClass
  nodeId : NodeId
  browseName : QualifiedName
  references : List Reference

/-- The file has one namespace of its own, `http://ASNeG-Demo.de/Auth/`, with the index 1. -/
def authId (name : String) : NodeId := nodeIdString ("Auth." ++ name) 1

def authFolderId : NodeId := nodeIdString "Auth" 1

def component (nodeClass : NodeClass) (typeDefinition : ℕ) (name : String) : UANode where
  nodeClass := nodeClass
  nodeId := authId name
  browseName := ⟨name, 1⟩
  references :=
    [ ⟨"HasTypeDefinition", true, nodeId typeDefinition 0⟩,
      ⟨"HasComponent", false, authFolderId⟩ ]

def objectNames : List String := ["Object01", "Object02", "Object03", "Object04", "Object05"]

def valueNames : List String := ["Value01", "Value02", "Value03", "Value04", "Value05"]

def authFolder : UANode where
  nodeClass := .object
  nodeId := authFolderId
  browseName := ⟨"Auth", 1⟩
  references :=
    [ ⟨"Organizes", false, nodeId 85 0⟩, ⟨"HasTypeDefinition", true, nodeId 61 0⟩ ] ++
      (objectNames ++ valueNames).map fun name => ⟨"HasComponent", true, authId name⟩

def authNodeSet : List UANode :=
  authFolder :: (objectNames.map (component .object 58) ++ valueNames.map (component .variable 63))

/-- The nodes that name the Auth folder as the one they are a component of. -/
def authChildren : List UANode :=
  authNodeSet.filter fun node => ⟨"HasComponent", false, authFolderId⟩ ∈ node.references

/-- The node id in the server, where the namespace of the file has the given index. -/
def UANode.published (node : UANode) (namespaceIndex : ℕ) : NodeId :=
  if node.nodeId.namespaceIndex = 1 then { node.nodeId with namespaceIndex := namespaceIndex }
  else node.nodeId

/-- A user of the demo, the operation the user is barred from, and the nodes it is for. -/
structure BarredUser where
  name : String
  operation : ServiceOperation
  nodeClass : NodeClass

def barredUsers : List BarredUser :=
  [ ⟨"user1", .read, .variable⟩, ⟨"user2", .write, .variable⟩,
    ⟨"user3", .monitoredItem, .variable⟩, ⟨"user4", .eventItem, .object⟩,
    ⟨"user5", .hRead, .variable⟩, ⟨"user6", .hWrite, .variable⟩ ]

/-- The session carries the profile of the user. -/
def LoggedIn (userProfileMap : UserProfileMap) (session : Option UserProfile) (name : String) :
    Prop :=
  ∃ userProfile, userProfileMap.find (bytes name) = some userProfile ∧ session = some userProfile

/-- What the profile of a user of the demo bars the user from. -/
def barredStem (user : BarredUser) : String :=
  if user.name = "user4" then "AuthObject" else "Auth.Value"

theorem mem_demoNodes (stem id : String) (ns : ℕ) :
    nodeIdString id ns ∈ demoNodes stem ns ↔
      id ∈ [stem ++ "01", stem ++ "02", stem ++ "03", stem ++ "04", stem ++ "05"] := by
  simp only [demoNodes, Finset.mem_insert, Finset.mem_singleton, nodeIdString_inj, List.mem_cons,
    List.not_mem_nil, or_false]

theorem createUserProfiles_find (ns : ℕ) {user : BarredUser} (hu : user ∈ barredUsers) :
    ∃ userProfile, (createUserProfiles ns .empty).find (bytes user.name) = some userProfile ∧
      userProfile.notAllowed user.operation = demoNodes (barredStem user) ns := by
  simp only [barredUsers, List.mem_cons, List.not_mem_nil, or_false] at hu
  rcases hu with rfl | rfl | rfl | rfl | rfl | rfl <;> exact ⟨_, rfl, rfl⟩

/-- The folder itself names no parent of that kind; its children are the nodes of the lists. -/
theorem mem_authChildren {node : UANode} :
    node ∈ authChildren ↔
      (∃ name ∈ objectNames, node = component .object 58 name) ∨
        ∃ name ∈ valueNames, node = component .variable 63 name := by
  have hfolder : ⟨"HasComponent", false, authFolderId⟩ ∉ authFolder.references := by decide
  have hcomponent : ∀ nodeClass typeDefinition name, ⟨"HasComponent", false, authFolderId⟩ ∈
      (component nodeClass typeDefinition name).references := by
    intro nodeClass typeDefinition name
    exact List.mem_cons_of_mem _ List.mem_cons_self
  unfold authChildren authNodeSet
  rw [List.mem_filter, List.mem_cons, List.mem_append, List.mem_map, List.mem_map, decide_eq_true_eq]
  constructor
  · rintro ⟨rfl | ⟨name, hname, rfl⟩ | ⟨name, hname, rfl⟩, href⟩
    · exact absurd href hfolder
    · exact .inl ⟨name, hname, rfl⟩
    · exact .inr ⟨name, hname, rfl⟩
  · rintro (⟨name, hname, rfl⟩ | ⟨name, hname, rfl⟩)
    · exact ⟨.inr (.inl ⟨name, hname, rfl⟩), hcomponent _ _ _⟩
    · exact ⟨.inr (.inr ⟨name, hname, rfl⟩), hcomponent _ _ _⟩

theorem component_published (nodeClass : NodeClass) (typeDefinition : ℕ) (name : String) (ns : ℕ) :
    (component nodeClass typeDefinition name).published ns = nodeIdString ("Auth." ++ name) ns :=
  rfl

/-- The value ids of the profiles are those of the file. -/
theorem value_mem_demoNodes {name : String} (hname : name ∈ valueNames) (ns : ℕ) :
    (component .variable 63 name).published ns ∈ demoNodes "Auth.Value" ns := by
  rw [component_published, mem_demoNodes]
  revert name
  decide

/-- The object ids of the profiles lack the dot that the file puts after the folder's name. -/
theorem object_not_mem_demoNodes {name : String} (hname : name ∈ objectNames) (ns : ℕ) :
    (component .object 58 name).published ns ∉ demoNodes "AuthObject" ns := by
  rw [component_published, mem_demoNodes]
  revert name
  decide

theorem child_mem_demoNodes {user : BarredUser} (hu : user ∈ barredUsers) {node : UANode}
    (hnode : node ∈ authChildren) (hclass : node.nodeClass = user.nodeClass) (ns : ℕ) :
    node.published ns ∈ demoNodes (barredStem user) ns ↔ user.name ≠ "user4" := by
  have hfour : ∀ user ∈ barredUsers, user.name = "user4" ↔ user.nodeClass = .object := by decide
  obtain ⟨name, hname, rfl⟩ | ⟨name, hname, rfl⟩ := mem_authChildren.mp hnode
  · have hname4 : user.name = "user4" := (hfour user hu).mpr hclass.symm
    rw [barredStem, if_pos hname4]
    exact iff_of_false (object_not_mem_demoNodes hname ns) (not_not.mpr hname4)
  · have hname4 : user.name ≠ "user4" := by
      intro h
      cases hclass.trans ((hfour user hu).mp h)
    rw [barredStem, if_neg hname4]
    exact iff_of_true (value_mem_demoNodes hname ns) hname4

section Sessions
variable (handed : Option UserProfile → Option UserProfile) (es : List (ℕ × Request)) (i : ℕ)

/-- A session whose last attempt to log in was the user's and had the user's password. -/
theorem sessions_loggedIn {userProfileMap : UserProfileMap} {name : String} {password : Bytes}
    {userProfile : UserProfile}
    (hmatches : Matches userProfileMap ⟨bytes name, some password⟩ userProfile)
    {before after : List Request} (hafter : ∀ request ∈ after, ∃ operation n attributeId,
      request = .authorize operation n attributeId)
    (hown : Runs.own i es =
      before ++ .authenticate (.userName ⟨bytes name, some password⟩) :: after) :
    LoggedIn userProfileMap (sessions userProfileMap handed es i) name := by
  refine ⟨userProfile, hmatches.1, ?_⟩
  unfold sessions
  rw [(Runs.run_keyed _ _ i es).1, hown, Runs.run_append, Runs.run_cons, serve_of_matches hmatches]
  clear hown
  induction after with
  | nil => rfl
  | cons request after ih =>
    obtain ⟨operation, n, attributeId, rfl⟩ := hafter request List.mem_cons_self
    exact ih fun request hmem => hafter request (List.mem_cons_of_mem _ hmem)

/-- The profiles keep a user from the published nodes the user is barred from, except `user4`:
the profile of that user names nodes that are not published. -/
theorem policy_covers_iff (ns : ℕ) {user : BarredUser} (hu : user ∈ barredUsers)
    (hlogin : LoggedIn (createUserProfiles ns .empty)
      (sessions (createUserProfiles ns .empty) handed es i) user.name)
    {node : UANode} (hnode : node ∈ authChildren) (hclass : node.nodeClass = user.nodeClass)
    {attributeId : ℕ} (hattribute : user.operation = .read → attributeId = attributeIdValue) :
    (serve (createUserProfiles ns .empty) handed (sessions (createUserProfiles ns .empty) handed es i)
        (.authorize user.operation (node.published ns) attributeId)).2 = .badUserAccessDenied ↔
      user.name ≠ "user4" := by
  obtain ⟨userProfile, hfind, hsession⟩ := hlogin
  obtain ⟨userProfile', hfind', hnotAllowed⟩ := createUserProfiles_find ns hu
  obtain rfl : userProfile = userProfile' := Option.some.inj (hfind.symm.trans hfind')
  rw [← child_mem_demoNodes hu hnode hclass ns, ← hnotAllowed]
  simp only [serve]
  rw [(autorizationCallback_statusCode _).1, hsession]
  constructor
  · rintro ⟨other, hother, hmem, -⟩
    obtain rfl := Option.some.inj hother
    exact hmem
  · intro hmem
    exact ⟨userProfile, rfl, hmem, hattribute⟩

end Sessions

/-- A session in which the user has just logged in, with namespace index 2. -/
def loginRun (name password : String) : List (ℕ × Request) :=
  [(7, .authenticate (.userName ⟨bytes name, some (bytes password)⟩))]

theorem loginRun_loggedIn {name password : String} {userProfile : UserProfile}
    (h : Matches (createUserProfiles 2 .empty) ⟨bytes name, some (bytes password)⟩ userProfile) :
    LoggedIn (createUserProfiles 2 .empty)
      (sessions (createUserProfiles 2 .empty) id (loginRun name password) 7) name :=
  sessions_loggedIn id _ 7 h (fun _ hmem => absurd hmem List.not_mem_nil) (List.nil_append _).symm

/-- The first user reads the first value. -/
theorem policy_covers_iff_user1 :
    (serve (createUserProfiles 2 .empty) id
        (sessions (createUserProfiles 2 .empty) id (loginRun "user1" "password1") 7)
        (.authorize .read (nodeIdString "Auth.Value01" 2) attributeIdValue)).2 =
      .badUserAccessDenied := by
  have hfind : (createUserProfiles 2 .empty).find (bytes "user1") = some _ := rfl
  have hlogin := loginRun_loggedIn (createUserProfiles_matches 2 hfind).2
  have hnode : component .variable 63 "Value01" ∈ authChildren :=
    mem_authChildren.mpr (.inr ⟨"Value01", by decide, rfl⟩)
  have hu : (⟨"user1", .read, .variable⟩ : BarredUser) ∈ barredUsers := List.mem_cons_self
  exact (policy_covers_iff id _ 7 2 hu hlogin hnode rfl fun _ => rfl).mpr (by decide)

/-- The fourth user is let to the events of the first object. -/
theorem policy_misses_objects :
    (⟨"user4", .eventItem, .object⟩ : BarredUser) ∈ barredUsers ∧
      component .object 58 "Object01" ∈ authChildren ∧
      LoggedIn (createUserProfiles 2 .empty)
        (sessions (createUserProfiles 2 .empty) id (loginRun "user4" "password4") 7) "user4" ∧
      (serve (createUserProfiles 2 .empty) id
        (sessions (createUserProfiles 2 .empty) id (loginRun "user4" "password4") 7)
        (.authorize .eventItem ((component .object 58 "Object01").published 2) attributeIdValue)).2 =
        .success := by
  have hfind : (createUserProfiles 2 .empty).find (bytes "user4") = some _ := rfl
  refine ⟨by simp [barredUsers], mem_authChildren.mpr (.inl ⟨"Object01", by decide, rfl⟩), ?_, ?_⟩
  · exact loginRun_loggedIn (createUserProfiles_matches 2 hfind).2
  · decide +kernel

end ASNeGDemo.Authentication
