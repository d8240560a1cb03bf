import Mathlib.Data.Finset.Insert
import ASNeGDemo.Stack.BuildInTypes

/-! The class `Authentication`: its user profiles and the two callbacks that decide on access. -/
namespace ASNeGDemo.Authentication

structure UserProfile where
  username : Bytes := []
  password : Bytes := []
  readNotAllowed : Finset NodeId := ∅
  writeNotAllowed : Finset NodeId := ∅
  historicalReadNotAllowed : Finset NodeId := ∅
  historicalWriteNotAllowed : Finset NodeId := ∅
  monitoredItemNotAllowed : Finset NodeId := ∅
  eventItemNotAllowed : Finset NodeId := ∅

/-- `userProfileMap_`. -/
abbrev UserProfileMap := OrderedMap Bytes UserProfile

/-! ### Authentication -/

/-- The password is a byte string of the stack and can be null. -/
structure UserNameIdentityToken where
  userName : Bytes
  password : Option Bytes

/-- `authenticationType_`, with the parameter that belongs to it. -/
inductive AuthenticationType where
  | anonymous
  | userName (token : UserNameIdentityToken)
  | x509
  | other (typeId : ℕ)

structure AuthenticationContext where
  authenticationType : AuthenticationType
  userContext : Option UserProfile
  statusCode : StatusCode

/-- The length `token->password(&buf, &bufLen)` reports. -/
def bufLen : Option Bytes → ℤ
  | none => -1
  | some buf => buf.length

def authenticationCallback (userProfileMap : UserProfileMap) (context : AuthenticationContext) :
    AuthenticationContext :=
  match context.authenticationType with
  | .anonymous => { context with statusCode := .success }
  | .userName token =>
      match userProfileMap.find token.userName with
      | none => { context with statusCode := .badUserAccessDenied }
      | some userProfile =>
          if bufLen token.password ≤ 0 then { context with statusCode := .badUserAccessDenied }
          else if token.password.getD [] ≠ userProfile.password then
            { context with statusCode := .badUserAccessDenied }
          else { context with userContext := some userProfile, statusCode := .success }
  | .x509 => { context with statusCode := .success }
  | .other _ => { context with statusCode := .badIdentityTokenInvalid }

/-! ### Autorization -/

inductive ServiceOperation where
  | read | write | hRead | hWrite | monitoredItem | eventItem | method
  | other (code : ℕ)
  deriving DecidableEq

def attributeIdValue : ℕ := 13

structure AutorizationContext where
  userContext : Option UserProfile
  serviceOperation : ServiceOperation
  nodeId : NodeId
  attributeId : ℕ
  statusCode : StatusCode

def autorizationCallback (context : AutorizationContext) : AutorizationContext :=
  match context.userContext with
  | none => { context with statusCode := .success }
  | some userProfile =>
      let notAllowed : Bool :=
        match context.serviceOperation with
        | .read =>
            if context.attributeId ≠ attributeIdValue then false
            else context.nodeId ∈ userProfile.readNotAllowed
        | .write => context.nodeId ∈ userProfile.writeNotAllowed
        | .hRead => context.nodeId ∈ userProfile.historicalReadNotAllowed
        | .hWrite => context.nodeId ∈ userProfile.historicalWriteNotAllowed
        | .monitoredItem => context.nodeId ∈ userProfile.monitoredItemNotAllowed
        | .eventItem => context.nodeId ∈ userProfile.eventItemNotAllowed
        | .method => false
        | .other _ => false
      { context with statusCode := if notAllowed then .badUserAccessDenied else .success }

/-! ### The users of the demo -/

/-- The five nodes a demo user is shut out from. -/
def demoNodes (stem : String) (namespaceIndex : ℕ) : Finset NodeId :=
  {nodeIdString (stem ++ "01") namespaceIndex, nodeIdString (stem ++ "02") namespaceIndex,
    nodeIdString (stem ++ "03") namespaceIndex, nodeIdString (stem ++ "04") namespaceIndex,
    nodeIdString (stem ++ "05") namespaceIndex}

def createUserProfiles (namespaceIndex : ℕ) (userProfileMap : UserProfileMap) : UserProfileMap :=
  let values := demoNodes "Auth.Value" namespaceIndex
  let objects := demoNodes "AuthObject" namespaceIndex
  userProfileMap.insertAll
    [ (bytes "user1", { username := bytes "user1", password := bytes "password1",
                        readNotAllowed := values }),
      (bytes "user2", { username := bytes "user2", password := bytes "password2",
                        writeNotAllowed := values }),
      (bytes "user3", { username := bytes "user3", password := bytes "password3",
                        monitoredItemNotAllowed := values }),
      (bytes "user4", { username := bytes "user4", password := bytes "password4",
                        eventItemNotAllowed := objects }),
      (bytes "user5", { username := bytes "user5", password := bytes "password5",
                        historicalReadNotAllowed := values }),
      (bytes "user6", { username := bytes "user6", password := bytes "password6",
                        historicalWriteNotAllowed := values }) ]

/-! ### What the callbacks decide -/

/-- The token names a user of the table and carries the user's password, which is not empty. -/
def Matches (userProfileMap : UserProfileMap) (token : UserNameIdentityToken)
    (userProfile : UserProfile) : Prop :=
  userProfileMap.find token.userName = some userProfile ∧
    token.password = some userProfile.password ∧ userProfile.password ≠ []

/-- The nodes an operation is denied for. -/
def UserProfile.notAllowed (userProfile : UserProfile) : ServiceOperation → Finset NodeId
  | .read => userProfile.readNotAllowed
  | .write => userProfile.writeNotAllowed
  | .hRead => userProfile.historicalReadNotAllowed
  | .hWrite => userProfile.historicalWriteNotAllowed
  | .monitoredItem => userProfile.monitoredItemNotAllowed
  | .eventItem => userProfile.eventItemNotAllowed
  | .method | .other _ => ∅

/-- The user of a session is denied an operation on an attribute of a node. -/
def Denied (userContext : Option UserProfile) (operation : ServiceOperation) (n : NodeId)
    (attributeId : ℕ) : Prop :=
  ∃ userProfile, userContext = some userProfile ∧ n ∈ userProfile.notAllowed operation ∧
    (operation = .read → attributeId = attributeIdValue)

section Callbacks
variable {userProfileMap : UserProfileMap} {context : AuthenticationContext}
  {token : UserNameIdentityToken}

theorem authenticationCallback_of_matches (htype : context.authenticationType = .userName token)
    {userProfile : UserProfile} (h : Matches userProfileMap token userProfile) :
    authenticationCallback userProfileMap context =
      { context with userContext := some userProfile, statusCode := .success } := by
  obtain ⟨hfind, hpassword, hne⟩ := h
  have hlen : ¬ bufLen (some userProfile.password) ≤ 0 := by
    simpa [bufLen] using hne
  simp [authenticationCallback, htype, hfind, hpassword, hlen]

theorem authenticationCallback_of_not_matches
    (htype : context.authenticationType = .userName token)
    (h : ∀ userProfile, ¬ Matches userProfileMap token userProfile) :
    authenticationCallback userProfileMap context =
      { context with statusCode := .badUserAccessDenied } := by
  simp only [authenticationCallback, htype]
  cases hfind : userProfileMap.find token.userName with
  | none => rfl
  | some userProfile =>
    simp only
    split_ifs with hlen hpassword
    · rfl
    · rfl
    · refine absurd ⟨hfind, ?_, ?_⟩ (h userProfile)
      · cases hp : token.password with
        | none => simp [hp, bufLen] at hlen
        | some buf => simpa [hp] using hpassword
      · rintro hnil
        rw [not_not, hnil] at hpassword
        cases hp : token.password with
        | none => simp [hp, bufLen] at hlen
        | some buf =>
          simp only [hp, Option.getD_some] at hpassword
          simp [hp, bufLen, hpassword] at hlen

/-- Every request is refused or granted, and refused exactly where the user is denied it. -/
theorem autorizationCallback_statusCode (context : AutorizationContext) :
    ((autorizationCallback context).statusCode = .badUserAccessDenied ↔
        Denied context.userContext context.serviceOperation context.nodeId context.attributeId) ∧
      ((autorizationCallback context).statusCode = .badUserAccessDenied ∨
        (autorizationCallback context).statusCode = .success) := by
  obtain ⟨userContext, operation, n, attributeId, _⟩ := context
  cases userContext with
  | none => simp [autorizationCallback, Denied]
  | some userProfile =>
    cases operation <;> simp [autorizationCallback, Denied, UserProfile.notAllowed] <;> tauto

/-- Every user of the demo can log in with the password of the profile. -/
theorem createUserProfiles_matches (namespaceIndex : ℕ) {name : Bytes} {userProfile : UserProfile}
    (h : (createUserProfiles namespaceIndex .empty).find name = some userProfile) :
    userProfile.username = name ∧
      Matches (createUserProfiles namespaceIndex .empty) ⟨name, some userProfile.password⟩
        userProfile := by
  have hmem := h
  rw [createUserProfiles, OrderedMap.find_insertAll, OrderedMap.find_empty, Option.none_or] at hmem
  have hentry := OrderedMap.mem_of_lookup hmem
  simp only [List.mem_cons, Prod.mk.injEq, List.not_mem_nil, or_false] at hentry
  refine ⟨?_, h, rfl, ?_⟩
  · rcases hentry with ⟨rfl, rfl⟩ | ⟨rfl, rfl⟩ | ⟨rfl, rfl⟩ | ⟨rfl, rfl⟩ | ⟨rfl, rfl⟩ | ⟨rfl, rfl⟩ <;>
      rfl
  · rcases hentry with ⟨rfl, rfl⟩ | ⟨rfl, rfl⟩ | ⟨rfl, rfl⟩ | ⟨rfl, rfl⟩ | ⟨rfl, rfl⟩ | ⟨rfl, rfl⟩ <;>
      exact List.cons_ne_nil _ _

end Callbacks

end ASNeGDemo.Authentication
