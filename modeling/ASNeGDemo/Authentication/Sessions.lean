import ASNeGDemo.Authentication.Callbacks
import ASNeGDemo.General.Runs

/-!
Any number of sessions over one table of users. The stack keeps a context for each session; a
successful attempt replaces it by the one the callback leaves behind.
-/
namespace ASNeGDemo.Authentication

/-- What a client asks for in its session. -/
inductive Request where
  | authenticate (authenticationType : AuthenticationType)
  | authorize (serviceOperation : ServiceOperation) (nodeId : NodeId) (attributeId : ℕ)

section Sessions
variable (userProfileMap : UserProfileMap) (handed : Option UserProfile → Option UserProfile)

/-- One request in a session with the given context. `handed` is the context the stack puts
into the attempt's record, which may be that of the session or an empty one. -/
def serve (session : Option UserProfile) : Request → Option UserProfile × StatusCode
  | .authenticate authenticationType =>
      let context := authenticationCallback userProfileMap
        ⟨authenticationType, handed session, .success⟩
      (if context.statusCode = .success then context.userContext else session,
        context.statusCode)
  | .authorize serviceOperation n attributeId =>
      (session, (autorizationCallback ⟨session, serviceOperation, n, attributeId, .success⟩).statusCode)

/-- All sessions, each starting without a context. -/
def sessions (es : List (ℕ × Request)) : ℕ → Option UserProfile :=
  (Runs.run (Runs.keyed (serve userProfileMap handed)) (fun _ => none) es).1

/-- The answers to the requests of one session. -/
def answersTo (session : ℕ) (es : List (ℕ × Request)) : List StatusCode :=
  Runs.answersTo (serve userProfileMap handed) (fun _ => none) session es

/-- The context a session carries after its own requests: the one of its last successful
attempt. -/
inductive Carries : List Request → Option UserProfile → Prop where
  | start : Carries [] none
  | userName {rs c token userProfile} (h : Matches userProfileMap token userProfile) :
      Carries rs c → Carries (rs ++ [.authenticate (.userName token)]) (some userProfile)
  | refused {rs c token} (h : ∀ userProfile, ¬ Matches userProfileMap token userProfile) :
      Carries rs c → Carries (rs ++ [.authenticate (.userName token)]) c
  | anonymous {rs c} : Carries rs c → Carries (rs ++ [.authenticate .anonymous]) (handed c)
  | x509 {rs c} : Carries rs c → Carries (rs ++ [.authenticate .x509]) (handed c)
  | other {rs c typeId} : Carries rs c → Carries (rs ++ [.authenticate (.other typeId)]) c
  | authorize {rs c operation n attributeId} : Carries rs c →
      Carries (rs ++ [.authorize operation n attributeId]) c

variable {userProfileMap handed} {session : Option UserProfile} {token : UserNameIdentityToken}

theorem serve_of_matches {userProfile : UserProfile}
    (h : Matches userProfileMap token userProfile) :
    serve userProfileMap handed session (.authenticate (.userName token)) =
      (some userProfile, .success) := by
  simp only [serve]
  rw [authenticationCallback_of_matches rfl h, if_pos rfl]

theorem serve_of_not_matches (h : ∀ userProfile, ¬ Matches userProfileMap token userProfile) :
    serve userProfileMap handed session (.authenticate (.userName token)) =
      (session, .badUserAccessDenied) := by
  simp only [serve]
  rw [authenticationCallback_of_not_matches rfl h, if_neg (by simp)]

/-- A name and a password are accepted exactly if they match, and the user becomes the context. -/
theorem serve_userName_iff (userProfile : UserProfile) :
    serve userProfileMap handed session (.authenticate (.userName token)) =
      (some userProfile, .success) ↔ Matches userProfileMap token userProfile := by
  constructor
  · intro hserve
    by_contra hno
    by_cases hany : ∃ other, Matches userProfileMap token other
    · obtain ⟨other, hother⟩ := hany
      rw [serve_of_matches hother] at hserve
      obtain rfl : other = userProfile := by simpa using hserve
      exact hno hother
    · rw [serve_of_not_matches (not_exists.mp hany)] at hserve
      simp at hserve
  · exact serve_of_matches

theorem serve_carries (rs : List Request) (request : Request)
    (h : Carries userProfileMap handed rs session) :
    Carries userProfileMap handed (rs ++ [request])
      (serve userProfileMap handed session request).1 := by
  cases request with
  | authorize operation n attributeId => exact h.authorize
  | authenticate authenticationType =>
    cases authenticationType with
    | anonymous => exact h.anonymous
    | x509 => exact h.x509
    | other typeId => exact h.other
    | userName token =>
      by_cases hany : ∃ userProfile, Matches userProfileMap token userProfile
      · obtain ⟨userProfile, hmatches⟩ := hany
        rw [serve_of_matches hmatches]
        exact h.userName hmatches
      · rw [serve_of_not_matches (not_exists.mp hany)]
        exact h.refused (not_exists.mp hany)

theorem run_carries (rs : List Request) :
    Carries userProfileMap handed rs (Runs.run (serve userProfileMap handed) none rs).1 := by
  induction rs using List.reverseRecOn with
  | nil => exact .start
  | append_singleton rs request ih =>
    rw [Runs.run_append]
    exact serve_carries rs request ih

/-- A request looks up the name it carries and nothing else. -/
theorem serve_congr {userProfileMap' : UserProfileMap} {request : Request}
    (h : ∀ token, request = .authenticate (.userName token) →
      userProfileMap'.find token.userName = userProfileMap.find token.userName) :
    serve userProfileMap' handed session request = serve userProfileMap handed session request := by
  cases request with
  | authorize operation n attributeId => rfl
  | authenticate authenticationType =>
    cases authenticationType with
    | userName token => simp only [serve, authenticationCallback, h token rfl]
    | _ => rfl

/-- A session depends on its own requests and on the profiles of the names in them. -/
theorem sessions_noninterference {userProfileMap' : UserProfileMap} {es es' : List (ℕ × Request)}
    {i : ℕ} (hown : Runs.own i es = Runs.own i es')
    (hfind : ∀ token, Request.authenticate (.userName token) ∈ Runs.own i es →
      userProfileMap'.find token.userName = userProfileMap.find token.userName) :
    sessions userProfileMap' handed es' i = sessions userProfileMap handed es i ∧
      answersTo userProfileMap' handed i es' = answersTo userProfileMap handed i es := by
  have hrun : Runs.run (serve userProfileMap' handed) none (Runs.own i es) =
      Runs.run (serve userProfileMap handed) none (Runs.own i es) := by
    apply Runs.run_congr
    intro request hmem session
    exact serve_congr fun token htoken => hfind token (htoken ▸ hmem)
  unfold sessions answersTo
  rw [(Runs.run_keyed _ _ i es).1, (Runs.run_keyed _ _ i es).2, (Runs.run_keyed _ _ i es').1,
    (Runs.run_keyed _ _ i es').2, ← hown, hrun]
  exact ⟨rfl, rfl⟩

variable (userProfileMap handed)

/-- After any requests in any sessions: a session carries the context of its own last
successful attempt, a name and a password are accepted exactly if they match, a refused attempt
leaves the record's context as well as the session's, an operation is refused exactly if the
context denies it, and none of this depends on what other sessions do or on the profiles of names
the session did not give. -/
theorem access_decisions (es : List (ℕ × Request)) (i : ℕ) :
    Carries userProfileMap handed (Runs.own i es) (sessions userProfileMap handed es i) ∧
    (∀ token userProfile,
      serve userProfileMap handed (sessions userProfileMap handed es i)
          (.authenticate (.userName token)) = (some userProfile, .success) ↔
        Matches userProfileMap token userProfile) ∧
    (∀ token, (∀ userProfile, ¬ Matches userProfileMap token userProfile) →
      serve userProfileMap handed (sessions userProfileMap handed es i)
          (.authenticate (.userName token)) =
        (sessions userProfileMap handed es i, .badUserAccessDenied) ∧
      ∀ context : AuthenticationContext, context.authenticationType = .userName token →
        authenticationCallback userProfileMap context =
          { context with statusCode := .badUserAccessDenied }) ∧
    (∀ operation n attributeId,
      let served := serve userProfileMap handed (sessions userProfileMap handed es i)
        (.authorize operation n attributeId)
      served.1 = sessions userProfileMap handed es i ∧
        (served.2 = .badUserAccessDenied ↔
          Denied (sessions userProfileMap handed es i) operation n attributeId) ∧
        (served.2 = .badUserAccessDenied ∨ served.2 = .success)) ∧
    ∀ userProfileMap' es', Runs.own i es = Runs.own i es' →
      (∀ token, Request.authenticate (.userName token) ∈ Runs.own i es →
        userProfileMap'.find token.userName = userProfileMap.find token.userName) →
      sessions userProfileMap' handed es' i = sessions userProfileMap handed es i ∧
        answersTo userProfileMap' handed i es' = answersTo userProfileMap handed i es := by
  refine ⟨?_, fun token => serve_userName_iff, ?_, ?_, ?_⟩
  · rw [sessions, (Runs.run_keyed _ _ i es).1]
    exact run_carries _
  · intro token hno
    exact ⟨serve_of_not_matches hno, fun context htype =>
      authenticationCallback_of_not_matches htype hno⟩
  · intro operation n attributeId
    exact ⟨rfl, autorizationCallback_statusCode _⟩
  · intro userProfileMap' es' hown hfind
    exact sessions_noninterference hown hfind

end Sessions

end ASNeGDemo.Authentication
