import ASNeGDemo.Lifecycle.Instances

/-!
What a successful startup has made sure of. The loops over the answers of the service run as
far as the answers go, so a short answer is taken for a complete one.
-/
namespace ASNeGDemo

variable {P : Platform}

/-! ### The namespace table -/

theorem foldl_index_of_notMem {uri : String} {es : List (ℕ × String)}
    (h : uri ∉ es.map Prod.snd) (namespaceIndex : ℕ) :
    es.foldl (fun index e => if e.2 = uri then e.1 else index) namespaceIndex =
      namespaceIndex := by
  induction es generalizing namespaceIndex with
  | nil => rfl
  | cons e es ih =>
    obtain ⟨he, hes⟩ := not_or.mp (mt List.mem_cons.mpr h)
    rw [List.foldl_cons, if_neg (Ne.symm he)]
    exact ih hes namespaceIndex

theorem foldl_index_mem {uri : String} {es : List (ℕ × String)} (h : uri ∈ es.map Prod.snd)
    (namespaceIndex : ℕ) :
    (es.foldl (fun index e => if e.2 = uri then e.1 else index) namespaceIndex, uri) ∈ es := by
  induction es generalizing namespaceIndex with
  | nil => simp at h
  | cons e es ih =>
    rw [List.foldl_cons]
    by_cases hes : uri ∈ es.map Prod.snd
    · exact List.mem_cons_of_mem e (ih hes _)
    · have he : e.2 = uri := by
        rcases List.mem_cons.mp h with he | he
        · exact he.symm
        · exact absurd he hes
      rw [if_pos he, foldl_index_of_notMem hes, ← he]
      exact List.mem_cons_self

/-- The index found is one of the name, if the table has the name. -/
theorem namespaceIndexOf_mem {uri : String} {table : OrderedMap ℕ String}
    (h : uri ∈ table.entries.map Prod.snd) (namespaceIndex : ℕ) :
    (namespaceIndexOf uri table namespaceIndex, uri) ∈ table.entries :=
  foldl_index_mem h namespaceIndex

/-! ### Complete startups -/

/-- What a successful startup should have: the index of its namespace, each node registered,
the loop time node registered, and for each node the reference that came back for it. -/
structure Complete (uri : String) (b : ServiceBehaviour) (c : Client P) : Prop where
  namespace_known : (c.namespaceIndex, uri) ∈ b.namespaceInfo.index2NamespaceMap.entries
  values_registered : ∀ (i : ℕ) (n : NodeId), c.valueMap.keys[i]? = some n →
    b.registerValues.statusCodeArray[i]? = some StatusCode.success
  loopTime_registered : b.registerLoopTime.statusCodeArray[0]? = some StatusCode.success
  references_saved : ∀ n ∈ c.valueMap.keys, ∃ (i : ℕ) (r : NodeRef),
    c.requested[i]? = some n ∧ b.nodeReferences.results[i]? = some (StatusCode.success, r) ∧
      c.baseNodeClassWMap.find n = some r

/-- The name is in the table and no answer is too short. -/
structure NothingMissing (uri : String) (b : ServiceBehaviour) : Prop where
  uri_known : uri ∈ b.namespaceInfo.index2NamespaceMap.entries.map Prod.snd
  values : 36 ≤ b.registerValues.statusCodeArray.length
  loopTime : b.registerLoopTime.statusCodeArray ≠ []
  references : 36 ≤ b.nodeReferences.results.length

namespace Module

variable {σ ι : Type} (M : Module P σ ι)

theorem mem_keys_fill (b : ServiceBehaviour) (i : ι) (s : σ) (n : NodeId) :
    n ∈ (M.client (M.fill b i s)).valueMap.keys ↔ n ∈ (M.client s).valueMap.keys ∨
      n ∈ (List.range' 200 36).map (nodeId · (M.client (M.fill b i s)).namespaceIndex) := by
  obtain ⟨es, hes, hmap⟩ := M.fill_valueMap b i s
  rw [hmap, OrderedMap.mem_keys_insertAll, hes]

theorem nodeIds_nodup (ns : ℕ) : ((List.range' 200 36).map (nodeId · ns)).Nodup :=
  (List.nodup_range').map fun _ _ h => nodeId_inj.mp h

/-- The first startup of an object knows 36 nodes. -/
theorem length_keys_construct (b : ServiceBehaviour) (i : ι) (env : Env) :
    (M.client (M.fill b i (M.construct env).1)).valueMap.keys.length = 36 := by
  have hperm : (M.client (M.fill b i (M.construct env).1)).valueMap.keys.Perm
      ((List.range' 200 36).map
        (nodeId · (M.client (M.fill b i (M.construct env).1)).namespaceIndex)) := by
    rw [List.perm_ext_iff_of_nodup (OrderedMap.keys_nodup _) (nodeIds_nodup _)]
    intro n
    rw [M.mem_keys_fill, (M.construct_empty env).1]
    exact or_iff_right List.not_mem_nil
  rw [hperm.length_eq, List.length_map, List.length_range']

/-- What a startup that returns true has been told and has made of it. -/
theorem startup_of_true {b : ServiceBehaviour} {i : ι} {s : σ}
    (h : (M.startup b i s).2 = some true) :
    Connected b (M.read b.nodeReferences) (M.client (M.fill b i s))
      (M.client (M.startup b i s).1) := by
  have hname : b.namespaceInfo.statusCode = .success := by
    by_contra hno
    rw [M.startup_refused b i s hno] at h
    simp at h
  have hconnect := M.startup_connect b i s hname
  have htrue : (connect b (M.read b.nodeReferences) (M.client (M.fill b i s))).2 = some true := by
    rw [hconnect]
    exact h
  have hconnected := connect_of_true htrue
  rw [hconnect] at hconnected
  exact hconnected

/-- A first startup that returns true is complete exactly if nothing was missing. -/
theorem complete_iff {b : ServiceBehaviour} {i : ι} {env : Env}
    (h : (M.startup b i (M.construct env).1).2 = some true) :
    Complete M.uri b (M.client (M.startup b i (M.construct env).1).1) ↔
      NothingMissing M.uri b := by
  obtain ⟨hvalues, hloop, hlen, hsuccess, hclient⟩ := M.startup_of_true h
  have hkeys := M.length_keys_construct b i env
  have hrequested := M.requested_construct b i env
  have hnone : ∀ n, (M.client (M.fill b i (M.construct env).1)).baseNodeClassWMap.find n = none := by
    intro n
    rw [(M.fill_others b i _).1, (M.construct_empty env).2.1]
    rfl
  have hindex := M.fill_namespaceIndex b i (M.construct env).1
  rw [hclient]
  generalize M.client (M.fill b i (M.construct env).1) = c at hlen hkeys hrequested hnone hindex ⊢
  rw [M.read_results] at hlen hsuccess
  rw [hrequested] at hlen
  have hnodup := c.valueMap.keys_nodup
  obtain ⟨last, hlast⟩ : ∃ n, c.valueMap.keys[35]? = some n :=
    ⟨_, List.getElem?_eq_getElem (by omega)⟩
  constructor
  · rintro ⟨hname, hregistered, hloopTime, hsaved⟩
    refine ⟨List.mem_map_of_mem hname, ?_, ?_, ?_⟩
    · have h35 := (List.getElem?_eq_some_iff.mp (hregistered 35 last hlast)).1
      omega
    · rintro hnil
      simp [hnil] at hloopTime
    · obtain ⟨j, r, hj, hr, -⟩ := hsaved last (List.mem_of_getElem? hlast)
      change c.requested[j]? = some last at hj
      rw [hrequested] at hj
      have h35 : j = 35 := by
        obtain ⟨hjlt, hjeq⟩ := List.getElem?_eq_some_iff.mp hj
        obtain ⟨hlt, heq⟩ := List.getElem?_eq_some_iff.mp hlast
        exact (hnodup.getElem_inj_iff).mp (hjeq.trans heq.symm)
      have hlt := (List.getElem?_eq_some_iff.mp hr).1
      omega
  · rintro ⟨huri, hcodes, hcode, hresults⟩
    refine ⟨?_, ?_, ?_, ?_⟩
    · change (c.namespaceIndex, M.uri) ∈ _
      rw [hindex]
      exact namespaceIndexOf_mem huri _
    · intro j n hj
      have hlt : j < b.registerValues.statusCodeArray.length :=
        ((List.getElem?_eq_some_iff.mp hj).1.trans_eq hkeys).trans_le hcodes
      simp only [allRegistered, Bool.and_eq_true, List.all_eq_true, decide_eq_true_eq] at hvalues
      rw [List.getElem?_eq_getElem hlt, hvalues.2 _ (List.getElem_mem hlt)]
    · obtain ⟨code, codes, hcons⟩ := List.exists_cons_of_ne_nil hcode
      simp only [firstRegistered, hcons, List.head?_cons, Option.getD_some, Bool.and_eq_true,
        decide_eq_true_eq] at hloop
      rw [hcons, List.getElem?_cons_zero, hloop.2]
    · intro n hn
      obtain ⟨j, hj⟩ := List.mem_iff_getElem?.mp hn
      change c.valueMap.keys[j]? = some n at hj
      have hlt : j < b.nodeReferences.results.length :=
        ((List.getElem?_eq_some_iff.mp hj).1.trans_eq hkeys).trans_le hresults
      have hget := List.getElem?_eq_getElem hlt
      have hgood := hsuccess _ (List.getElem_mem hlt)
      refine ⟨j, b.nodeReferences.results[j].2, ?_, ?_, ?_⟩
      · exact (congrArg (·[j]?) hrequested).trans hj
      · rw [hget, ← hgood]
      · change (c.baseNodeClassWMap.insertAll _).find n = _
        rw [OrderedMap.find_insertAll, hnone, Option.none_or, returned, hrequested, M.read_results]
        exact OrderedMap.lookup_zip hnodup hj (by rw [List.getElem?_map, hget, Option.map_some])

end Module

/-- For both classes: a startup that returns true is complete exactly if the namespace was in
the table and none of the answers was shorter than its request. -/
theorem startup_complete_iff (b : ServiceBehaviour) (env : Env) (now : DateTime) (draws : Env) :
    ((TestFolderLib.startup b now (TestFolderLib.construct P env).1).2 = some true →
      (Complete TestFolderLib.uri b
          (TestFolderLib.client (TestFolderLib.startup b now (TestFolderLib.construct P env).1).1) ↔
        NothingMissing TestFolderLib.uri b)) ∧
    ((TestStatusCode.startup b draws (TestStatusCode.construct P env).1).2 = some true →
      (Complete TestStatusCode.uri b
          (TestStatusCode.client
            (TestStatusCode.startup b draws (TestStatusCode.construct P env).1).1) ↔
        NothingMissing TestStatusCode.uri b)) :=
  ⟨(TestFolderLib.module P).complete_iff, (TestStatusCode.module P).complete_iff⟩

/-- A service with the standard namespaces only; it accepts all it is asked for. -/
def standardNamespaces : ServiceBehaviour where
  namespaceInfo := ⟨.success, OrderedMap.empty.insertAll
    [(0, "http://opcfoundation.org/UA/"), (1, "urn:ASNeG-Demo")]⟩
  registerValues := ⟨.success, List.replicate 36 .success⟩
  registerLoopTime := ⟨.success, [.success]⟩
  nodeReferences := ⟨.success, List.replicate 36 .success, List.range 36⟩
  uninitialised := .badInternalError

/-- Both startups return true although their namespace does not exist. -/
theorem startup_without_namespace :
    let env : Env := ⟨Stream'.const 0, Stream'.const 0⟩
    let folder := TestFolderLib.startup standardNamespaces 0
      (TestFolderLib.construct exactPlatform env).1
    let status := TestStatusCode.startup standardNamespaces env
      (TestStatusCode.construct exactPlatform env).1
    (folder.2 = some true ∧
      ¬ Complete TestFolderLib.uri standardNamespaces (TestFolderLib.client folder.1)) ∧
    (status.2 = some true ∧
      ¬ Complete TestStatusCode.uri standardNamespaces (TestStatusCode.client status.1)) := by
  refine ⟨⟨by decide +kernel, fun h => ?_⟩, by decide +kernel, fun h => ?_⟩
  · have hknown := List.mem_map_of_mem (f := Prod.snd) h.namespace_known
    exact absurd hknown (by decide)
  · have hknown := List.mem_map_of_mem (f := Prod.snd) h.namespace_known
    exact absurd hknown (by decide)

end ASNeGDemo
