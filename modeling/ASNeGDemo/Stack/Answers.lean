import ASNeGDemo.Stack.Service

/-!
Answers of the application service that several classes read in the same way: the first index
of a namespace, a registration that is acknowledged as a whole, and references that may be
missing altogether.
-/
namespace ASNeGDemo

/-- The loop over the namespace table that stops at the first index of the name. -/
def firstNamespaceIndex (uri : String) (res : NamespaceInfoResponse) : Option ℕ :=
  if res.statusCode = .success then
    (res.index2NamespaceMap.entries.find? (·.2 = uri)).map Prod.fst
  else none

section Namespace
variable {σ : Type} (store : ℕ → σ → σ) (uri : String) {res : NamespaceInfoResponse}

/-- `getNamespaceInfo` of a class that stops at the first index and stores it. -/
def findNamespace (res : NamespaceInfoResponse) : Stage σ := fun s =>
  match firstNamespaceIndex uri res with
  | some namespaceIndex => (store namespaceIndex s, some true)
  | none => (s, some false)

theorem findNamespace_of_eq_some {uri : String} {namespaceIndex : ℕ}
    (h : firstNamespaceIndex uri res = some namespaceIndex) (s : σ) :
    findNamespace store uri res s = (store namespaceIndex s, some true) := by
  simp only [findNamespace, h]

theorem findNamespace_of_eq_none {uri : String} (h : firstNamespaceIndex uri res = none) (s : σ) :
    findNamespace store uri res s = (s, some false) := by
  simp only [findNamespace, h]

theorem findNamespace_true_iff (s : σ) :
    (findNamespace store uri res s).2 = some true ↔
      ∃ namespaceIndex, firstNamespaceIndex uri res = some namespaceIndex := by
  cases h : firstNamespaceIndex uri res with
  | none => simp [findNamespace_of_eq_none store h]
  | some namespaceIndex => simp [findNamespace_of_eq_some store h]

theorem findNamespace_ne_none (s : σ) : (findNamespace store uri res s).2 ≠ none := by
  cases h : firstNamespaceIndex uri res with
  | none => simp [findNamespace_of_eq_none store h]
  | some namespaceIndex => simp [findNamespace_of_eq_some store h]

end Namespace

/-- The answer to a registration: the status of the transaction and that of the response. -/
structure RegisterForwardResponse where
  transactionStatusCode : StatusCode
  statusCode : StatusCode

def RegisterForwardResponse.accepted (res : RegisterForwardResponse) : Bool :=
  res.transactionStatusCode = .success && res.statusCode = .success

/-- One result of a request that names several nodes. -/
structure Result (α : Type) where
  statusCode : StatusCode
  value : α

/-- The node a reference request found. -/
abbrev NodeReference := Result NodeRef

/-- The node id a browse path leads to. -/
abbrev NodeIdResult := Result NodeId

/-- The answer to a request that names several nodes; the array may be a null pointer. -/
structure ResultsResponse (α : Type) where
  transactionStatusCode : StatusCode
  results : Option (List (Result α))

abbrev GetNodeReferenceResponse := ResultsResponse NodeRef

abbrev BrowsePathToNodeIdResponse := ResultsResponse NodeId

section Results
variable {α : Type}

/-- `getRefFromResponse` and `getNodeIdFromResponse`; `none` where they return false. -/
def getFromResponse (res : List (Result α)) (idx : ℕ) : Option α :=
  match res[idx]? with
  | none => none
  | some result => if result.statusCode ≠ .success then none else some result.value

theorem getFromResponse_eq_some {res : List (Result α)} {idx : ℕ} {value : α} :
    getFromResponse res idx = some value ↔ res[idx]? = some ⟨.success, value⟩ := by
  unfold getFromResponse
  cases h : res[idx]? with
  | none => simp
  | some result =>
    obtain ⟨statusCode, found⟩ := result
    by_cases hs : statusCode = .success <;> simp [hs]

/-- The member at the position is set to the result at the position, if that is good. -/
def readMember (res : List (Result α)) (idx : ℕ) : Stage (ℕ → Option α) := fun members =>
  match getFromResponse res idx with
  | none => (members, some false)
  | some value => (Function.update members idx (some value), some true)

/-- One member after the other, up to the first result that is not good. -/
def readMembers (res : List (Result α)) (count : ℕ) : Stage (ℕ → Option α) :=
  Stage.chain ((List.range count).map (readMember res))

/-- The results are those of a request that succeeded for every node. -/
def good (values : List α) : List (Result α) := values.map (⟨.success, ·⟩)

theorem good_getElem? (values : List α) (idx : ℕ) :
    (good values)[idx]? = values[idx]?.map (⟨.success, ·⟩) :=
  List.getElem?_map ..

theorem readMember_true_iff (res : List (Result α)) (idx : ℕ) (members : ℕ → Option α) :
    (readMember res idx members).2 = some true ↔ ∃ value, res[idx]? = some ⟨.success, value⟩ := by
  unfold readMember
  cases h : getFromResponse res idx with
  | none =>
    refine iff_of_false (by simp) ?_
    rintro ⟨value, hvalue⟩
    rw [getFromResponse_eq_some.mpr hvalue] at h
    cases h
  | some value => exact iff_of_true rfl ⟨value, getFromResponse_eq_some.mp h⟩

/-- An array is read to its end exactly if all its results are good. -/
theorem readMembers_true_iff (res : List (Result α)) (members : ℕ → Option α) :
    (readMembers res res.length members).2 = some true ↔ ∃ values, res = good values := by
  unfold readMembers
  rw [Stage.chain_map_true_iff (I := fun _ => True) (fun _ _ _ => trivial)
    (fun idx members _ => readMember_true_iff res idx members) _ trivial]
  constructor
  · intro h
    refine ⟨res.map Result.value, ?_⟩
    apply List.ext_getElem?
    intro idx
    rw [good_getElem?, List.getElem?_map]
    cases hres : res[idx]? with
    | none => rfl
    | some result =>
      obtain ⟨value, hvalue⟩ := h idx (List.mem_range.mpr (List.getElem?_eq_some_iff.mp hres).1)
      rw [hres] at hvalue
      rw [Option.some.inj hvalue]
      rfl
  · rintro ⟨values, rfl⟩ idx hidx
    rw [List.mem_range, good, List.length_map] at hidx
    exact ⟨values[idx], by simp [good_getElem?, hidx]⟩

/-- Every member then holds the result of its own position. -/
theorem readMembers_good (values : List α) (members : ℕ → Option α) :
    ∀ idx < values.length,
      (readMembers (good values) values.length members).1 idx = values[idx]? := by
  have hlength : (good values).length = values.length := List.length_map ..
  have htrue := (readMembers_true_iff (good values) members).mpr ⟨values, rfl⟩
  rw [hlength] at htrue
  have hfirst : ∀ count ≤ values.length, ∀ idx < count,
      (List.range count).foldl (fun m idx => (readMember (good values) idx m).1) members idx =
        values[idx]? := by
    intro count
    induction count with
    | zero => exact fun _ idx hidx => absurd hidx (Nat.not_lt_zero idx)
    | succ count ih =>
      intro hcount idx hidx
      have hvalue : getFromResponse (good values) count = some values[count] :=
        getFromResponse_eq_some.mpr (by simp [good_getElem?, show count < values.length from hcount])
      rw [List.range_succ, List.foldl_append, List.foldl_cons, List.foldl_nil]
      generalize hbefore : (List.range count).foldl _ members = before
      have hset : (readMember (good values) count before).1 =
          Function.update before count (some values[count]) := by
        simp only [readMember, hvalue]
      rw [hset]
      by_cases heq : idx = count
      · subst heq
        simp [show idx < values.length from hcount]
      · rw [Function.update_of_ne heq, ← hbefore]
        exact ih (by omega) idx (by omega)
  unfold readMembers at htrue ⊢
  rw [Stage.chain_map_state htrue]
  exact hfirst values.length le_rfl

/-- The answer to a request for `count` nodes: it must have come through, with one result for
each node, before the results are read. -/
def readResponse (res : ResultsResponse α) (count : ℕ) : Stage (ℕ → Option α) := fun members =>
  if res.transactionStatusCode = .success then
    match res.results with
    | none => (members, some false)
    | some results =>
        if results.length ≠ count then (members, some false) else readMembers results count members
  else (members, some false)

/-- The request came through and succeeded for every node. -/
structure ResultsResponse.Complete (res : ResultsResponse α) (count : ℕ) (values : List α) :
    Prop where
  transaction : res.transactionStatusCode = .success
  results : res.results = some (good values)
  length : values.length = count

theorem readResponse_true_iff (res : ResultsResponse α) (count : ℕ) (members : ℕ → Option α) :
    (readResponse res count members).2 = some true ↔ ∃ values, res.Complete count values := by
  unfold readResponse
  by_cases htransaction : res.transactionStatusCode = .success
  · rw [if_pos htransaction]
    cases hresults : res.results with
    | none =>
      refine iff_of_false (by simp) ?_
      rintro ⟨values, hcomplete⟩
      exact absurd (hresults.symm.trans hcomplete.results) (by simp)
    | some results =>
      dsimp only
      by_cases hlength : results.length = count
      · subst hlength
        rw [if_neg (not_not.mpr rfl), readMembers_true_iff]
        constructor
        · rintro ⟨values, rfl⟩
          exact ⟨values, htransaction, hresults, (List.length_map ..).symm⟩
        · rintro ⟨values, hcomplete⟩
          exact ⟨values, Option.some.inj (hresults.symm.trans hcomplete.results)⟩
      · rw [if_pos hlength]
        refine iff_of_false (by simp) ?_
        rintro ⟨values, hcomplete⟩
        have hgood := Option.some.inj (hresults.symm.trans hcomplete.results)
        rw [hgood, good, List.length_map] at hlength
        exact hlength hcomplete.length
  · rw [if_neg htransaction]
    refine iff_of_false (by simp) ?_
    rintro ⟨values, hcomplete⟩
    exact htransaction hcomplete.transaction

theorem readResponse_complete {res : ResultsResponse α} {count : ℕ} {values : List α}
    (h : res.Complete count values) (members : ℕ → Option α) :
    ∀ idx < count, (readResponse res count members).1 idx = values[idx]? := by
  have hlength : (good values).length = count := (List.length_map ..).trans h.length
  unfold readResponse
  rw [if_pos h.transaction, h.results]
  dsimp only
  rw [if_neg (not_not.mpr hlength), ← h.length]
  exact readMembers_good values members

theorem readResponse_ne_none (res : ResultsResponse α) (count : ℕ) (members : ℕ → Option α) :
    (readResponse res count members).2 ≠ none := by
  have hmember (results : List (Result α)) (i : ℕ) (m : ℕ → Option α) :
      (readMember results i m).2 ≠ none := by
    unfold readMember
    cases getFromResponse results i <;> exact Option.some_ne_none _
  unfold readResponse
  split_ifs
  · cases res.results with
    | none => exact Option.some_ne_none _
    | some results =>
      dsimp only
      split_ifs
      · exact Option.some_ne_none _
      · exact Stage.chain_ne_none (List.forall_mem_map.mpr fun i _ => hmember results i) _
  · exact Option.some_ne_none _

end Results

end ASNeGDemo
