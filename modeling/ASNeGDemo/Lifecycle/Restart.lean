import ASNeGDemo.General.Runs
import ASNeGDemo.Lifecycle.Inertness

/-!
Startups and shutdowns of one object. Nodes and references are only ever added, timer elements
only ever started, so what an earlier startup left is still there in the next one.
-/
namespace ASNeGDemo

variable {P : Platform}

inductive Call (ι : Type) where
  | startup (b : ServiceBehaviour) (i : ι)
  | shutdown

/-- What can happen to an object of either class; that the loop time is read changes nothing and is
left out. -/
inductive LifeEvent (P : Platform) (ι : Type) where
  | call (c : Call ι)
  | event (e : Event P)
  | writeLoopTimeValue (dataValue : DataValue (Value P))

/-- After a startup that returned true: the timer walks over the nodes of the current namespace,
finds for each the reference that came back in this startup, and runs once. -/
structure Renewed (b : ServiceBehaviour) (c : Client P) : Prop where
  nodes : ∀ n, n ∈ c.valueMap.keys ↔ n ∈ (List.range' 200 36).map (nodeId · c.namespaceIndex)
  references : ∀ n ∈ c.valueMap.keys, ∃ r : NodeRef,
    (returned b.nodeReferences c.requested).lookup n = some r ∧ c.baseNodeClassWMap.find n = some r
  one_timer : c.loop.slotTimer.running = 1

theorem not_renewed_of_running {b : ServiceBehaviour} {c : Client P}
    (h : c.loop.slotTimer.running ≠ 1) : ¬ Renewed b c := fun hrenewed => h hrenewed.one_timer

/-- The 36 nodes of the namespace a startup finds. -/
def foundNodes (uri : String) (b : ServiceBehaviour) (c : Client P) : List NodeId :=
  (List.range' 200 36).map
    (nodeId · (namespaceIndexOf uri b.namespaceInfo.index2NamespaceMap c.namespaceIndex))

/-- The nodes of the value map once a startup has filled it, in the order of the map. -/
def filledNodes (uri : String) (b : ServiceBehaviour) (c : Client P) : List NodeId :=
  (c.valueMap.insertAll ((foundNodes uri b c).map (·, 0))).keys

/-- A reference comes back for every node, and what earlier calls left is what this startup would
make. `earlier` tells which of them were startups that returned true, `c` is the object before
this one, and `requested` the nodes of its reference request. -/
structure Fresh (uri : String) (b : ServiceBehaviour) (earlier : List Bool) (c : Client P)
    (requested : List NodeId) : Prop where
  not_started : true ∉ earlier
  same_nodes : ∀ n ∈ c.valueMap.keys, n ∈ foundNodes uri b c
  references_returned : ∀ n ∈ foundNodes uri b c,
    ∃ r, (returned b.nodeReferences requested).lookup n = some r
  same_references : ∀ n ∈ foundNodes uri b c, ∀ r, c.baseNodeClassWMap.find n = some r →
    (returned b.nodeReferences requested).lookup n = some r

namespace Module

variable {σ ι : Type} (M : Module P σ ι)

/-- A call, and whether it was a startup that returned true. -/
def call (s : σ) : Call ι → σ × Bool
  | .startup b i => ((M.startup b i s).1, (M.startup b i s).2 = some true)
  | .shutdown => ((M.shutdown s).1, false)

/-- Every startup that returns true leaves one more element running, and nothing stops one. -/
theorem call_running (s : σ) (e : Call ι) :
    (M.client (M.call s e).1).loop.slotTimer.running =
      (M.client s).loop.slotTimer.running + if (M.call s e).2 then 1 else 0 := by
  cases e with
  | shutdown => simp [call, M.shutdown_eq]
  | startup b i =>
    by_cases h : (M.startup b i s).2 = some true
    · have hclient := (M.startup_of_true h).client_eq
      simp only [call, h, decide_true, if_true]
      rw [hclient, LoopTimer.startTimerLoop_running, (M.fill_others b i s).2]
    · simp only [call, h, decide_false, Bool.false_eq_true, if_false, Nat.add_zero]
      rw [M.startup_loop_of_not h]

theorem run_running (s : σ) (calls : List (Call ι)) :
    (M.client (Runs.run M.call s calls).1).loop.slotTimer.running =
      (M.client s).loop.slotTimer.running + (Runs.run M.call s calls).2.count true := by
  induction calls generalizing s with
  | nil => rfl
  | cons e calls ih =>
    rw [Runs.run_cons, ih, M.call_running, List.count_cons]
    cases (M.call s e).2 with
    | true =>
      simp only [if_true, beq_self_eq_true]
      omega
    | false => simp

/-- After a run of a constructed object there are as many elements running as startups that
returned true. -/
theorem run_construct_running (env : Env) (calls : List (Call ι)) :
    (M.client (Runs.run M.call (M.construct env).1 calls).1).loop.slotTimer.running =
      (Runs.run M.call (M.construct env).1 calls).2.count true := by
  have hnone : (M.client (M.construct env).1).loop.slotTimer.running = 0 := by
    rw [SlotTimer.running, (M.construct_empty env).2.2]
    rfl
  rw [run_running, hnone, Nat.zero_add]

theorem keys_fill (b : ServiceBehaviour) (i : ι) (s : σ) :
    (M.client (M.fill b i s)).valueMap.keys = filledNodes M.uri b (M.client s) := by
  apply OrderedMap.keys_ext
  intro n
  rw [M.mem_keys_fill, OrderedMap.mem_keys_insertAll, List.map_map, M.fill_namespaceIndex]
  exact or_congr_right (by simp [foundNodes])

/-- A startup that returns true renews what it finds exactly if it is a fresh start. -/
theorem renewed_iff {b : ServiceBehaviour} {i : ι} {s : σ} {earlier : List Bool}
    (hearlier : (M.client s).loop.slotTimer.running = earlier.count true)
    (h : (M.startup b i s).2 = some true) :
    Renewed b (M.client (M.startup b i s).1) ↔
      Fresh M.uri b earlier (M.client s) (M.client (M.fill b i s)).requested := by
  have hclient := (M.startup_of_true h).client_eq
  have hkeys := M.mem_keys_fill b i s
  have hindex := M.fill_namespaceIndex b i s
  obtain ⟨hrefs, hloop⟩ := M.fill_others b i s
  rw [hclient]
  generalize M.client (M.fill b i s) = c at hkeys hindex hrefs hloop
  have hfind : ∀ n, (c.baseNodeClassWMap.insertAll
      (returned (M.read b.nodeReferences) c.requested)).find n =
        ((M.client s).baseNodeClassWMap.find n).or
          ((returned b.nodeReferences c.requested).lookup n) := by
    intro n
    rw [OrderedMap.find_insertAll, hrefs, returned, M.read_results]
    rfl
  have hrunning : c.loop.startTimerLoop.slotTimer.running =
      earlier.count true + 1 := by
    rw [LoopTimer.startTimerLoop_running, hloop, hearlier]
  constructor
  · rintro ⟨hnodes, hreferences, htimer⟩
    change ∀ n, n ∈ c.valueMap.keys ↔ n ∈ (List.range' 200 36).map (nodeId · c.namespaceIndex)
      at hnodes
    have hnever : earlier.count true = 0 := Nat.succ_injective (hrunning.symm.trans htimer)
    refine ⟨List.count_eq_zero.mp hnever, ?_, ?_, ?_⟩ <;> rw [foundNodes, ← hindex]
    · intro n hn
      exact (hnodes n).mp ((hkeys n).mpr (Or.inl hn))
    · intro n hn
      obtain ⟨r, hreturned, -⟩ := hreferences n ((hnodes n).mpr hn)
      exact ⟨r, hreturned⟩
    · intro n hn r hr
      obtain ⟨r', hreturned, hused⟩ := hreferences n ((hnodes n).mpr hn)
      rw [hfind, hr, Option.some_or] at hused
      rw [hreturned, hused]
  · rintro ⟨hnever, hnodes, hreturned, hreferences⟩
    rw [foundNodes, ← hindex] at hnodes hreturned hreferences
    have hall : ∀ n, n ∈ c.valueMap.keys ↔
        n ∈ (List.range' 200 36).map (nodeId · c.namespaceIndex) := by
      intro n
      rw [hkeys]
      exact ⟨fun h => h.elim (hnodes n) id, Or.inr⟩
    refine ⟨hall, ?_, ?_⟩
    · intro n hn
      obtain ⟨r, hr⟩ := hreturned n ((hall n).mp hn)
      refine ⟨r, hr, ?_⟩
      rw [hfind]
      cases hold : (M.client s).baseNodeClassWMap.find n with
      | none => rw [Option.none_or, hr]
      | some r' => rw [Option.some_or, ← hreferences n ((hall n).mp hn) r' hold, hr]
    · rw [hrunning, List.count_eq_zero.mpr hnever]

/-- The first startup of an object is a fresh start if 36 references come back. -/
theorem fresh_construct_iff (b : ServiceBehaviour) (env : Env) :
    Fresh M.uri b [] (M.client (M.construct env).1)
        (filledNodes M.uri b (M.client (M.construct env).1)) ↔
      36 ≤ b.nodeReferences.results.length := by
  obtain ⟨hvalueMap, hreferences, -⟩ := M.construct_empty env
  generalize M.client (M.construct env).1 = c at hvalueMap hreferences ⊢
  have hmem : ∀ n, n ∈ foundNodes M.uri b c ↔ n ∈ filledNodes M.uri b c := by
    intro n
    rw [filledNodes, OrderedMap.mem_keys_insertAll, hvalueMap, List.map_map]
    simp [OrderedMap.keys, OrderedMap.empty]
  have hnodup : (filledNodes M.uri b c).Nodup := OrderedMap.keys_nodup _
  have hlength : (filledNodes M.uri b c).length = 36 := by
    rw [← ((List.perm_ext_iff_of_nodup (nodeIds_nodup _) hnodup).mpr hmem).length_eq,
      List.length_map, List.length_range']
  constructor
  · intro h
    have hreturned : filledNodes M.uri b c ⊆
        (returned b.nodeReferences (filledNodes M.uri b c)).map Prod.fst := by
      intro n hn
      obtain ⟨r, hr⟩ := h.references_returned n ((hmem n).mpr hn)
      exact List.mem_map_of_mem (OrderedMap.mem_of_lookup hr)
    have hle := (hnodup.subperm hreturned).length_le
    rw [List.length_map, returned, List.length_zip, List.length_map] at hle
    omega
  · intro h
    refine ⟨List.not_mem_nil, ?_, ?_, ?_⟩
    · intro n hn
      rw [hvalueMap] at hn
      exact absurd hn List.not_mem_nil
    · intro n hn
      obtain ⟨j, hj⟩ := List.mem_iff_getElem?.mp ((hmem n).mp hn)
      have hlt : j < b.nodeReferences.results.length :=
        ((List.getElem?_eq_some_iff.mp hj).1.trans_eq hlength).trans_le h
      refine ⟨b.nodeReferences.results[j].2, OrderedMap.lookup_zip hnodup hj ?_⟩
      rw [List.getElem?_map, List.getElem?_eq_getElem hlt, Option.map_some]
    · intro n _ r hr
      rw [hreferences] at hr
      cases hr

end Module

/-- `TestFolderLib` asks once more for what it has asked for in earlier startups. -/
theorem TestFolderLib.requested_fill (b : ServiceBehaviour) (now : DateTime)
    (s : TestFolderLib.State P) :
    (TestFolderLib.client (TestFolderLib.fill b now s)).requested =
      s.valueVec ++ filledNodes TestFolderLib.uri b (TestFolderLib.client s) := by
  have hkeys := (TestFolderLib.module P).keys_fill b now s
  simp only [TestFolderLib.module, TestFolderLib.client_toMembers] at hkeys
  rw [TestFolderLib.client, (TestFolderLib.fill_others b now s).2.2.2, hkeys]

theorem TestStatusCode.requested_fill (b : ServiceBehaviour) (env : Env)
    (s : TestStatusCode.State P) :
    (TestStatusCode.client (TestStatusCode.fill b env s)).requested =
      filledNodes TestStatusCode.uri b (TestStatusCode.client s) := by
  have hkeys := (TestStatusCode.module P).keys_fill b env s
  simp only [TestStatusCode.module, TestStatusCode.client_toMembers] at hkeys
  rw [TestStatusCode.client, hkeys]

/-- For both classes, after any startups and shutdowns: the next startup that returns true
renews nodes, references and timer exactly if it is a fresh start. -/
theorem restart_renewed_iff (env : Env) (b : ServiceBehaviour) :
    (∀ (calls : List (Call DateTime)) (now : DateTime),
      let run := Runs.run (TestFolderLib.module P).call (TestFolderLib.construct P env).1 calls
      (TestFolderLib.startup b now run.1).2 = some true →
        (Renewed b (TestFolderLib.client (TestFolderLib.startup b now run.1).1) ↔
          Fresh TestFolderLib.uri b run.2 (TestFolderLib.client run.1)
            (run.1.valueVec ++
              filledNodes TestFolderLib.uri b (TestFolderLib.client run.1)))) ∧
    ∀ (calls : List (Call Env)) (draws : Env),
      let run := Runs.run (TestStatusCode.module P).call (TestStatusCode.construct P env).1 calls
      (TestStatusCode.startup b draws run.1).2 = some true →
        (Renewed b (TestStatusCode.client (TestStatusCode.startup b draws run.1).1) ↔
          Fresh TestStatusCode.uri b run.2 (TestStatusCode.client run.1)
            (filledNodes TestStatusCode.uri b (TestStatusCode.client run.1))) := by
  constructor
  · intro calls now run
    have hrunning : ((TestFolderLib.module P).client run.1).loop.slotTimer.running =
        run.2.count true := (TestFolderLib.module P).run_construct_running env calls
    clear_value run
    have h := (TestFolderLib.module P).renewed_iff (b := b) (i := now) hrunning
    simpa only [TestFolderLib.module, TestFolderLib.requested_fill] using h
  · intro calls draws run
    have hrunning : ((TestStatusCode.module P).client run.1).loop.slotTimer.running =
        run.2.count true := (TestStatusCode.module P).run_construct_running env calls
    clear_value run
    have h := (TestStatusCode.module P).renewed_iff (b := b) (i := draws) hrunning
    simpa only [TestStatusCode.module, TestStatusCode.requested_fill] using h

/-- A service that knows both namespaces and gives out references from `first` on. -/
def givingOut (first count : ℕ) : ServiceBehaviour where
  namespaceInfo := ⟨.success, OrderedMap.empty.insertAll
    [(0, "http://opcfoundation.org/UA/"), (2, TestFolderLib.uri), (3, TestStatusCode.uri)]⟩
  registerValues := ⟨.success, List.replicate 36 .success⟩
  registerLoopTime := ⟨.success, [.success]⟩
  nodeReferences := ⟨.success, List.replicate count .success, List.range' first count⟩
  uninitialised := .badInternalError

/-- The first startup of either class, with 36 references, renews all. -/
theorem first_startup_renewed :
    let env : Env := ⟨Stream'.const 0, Stream'.const 0⟩
    Renewed (givingOut 0 36) (TestFolderLib.client (TestFolderLib.startup (givingOut 0 36) 0
        (TestFolderLib.construct exactPlatform env).1).1) ∧
      Renewed (givingOut 0 36) (TestStatusCode.client (TestStatusCode.startup (givingOut 0 36) env
        (TestStatusCode.construct exactPlatform env).1).1) := by
  intro env
  obtain ⟨hfolder, hstatus⟩ := restart_renewed_iff (P := exactPlatform) env (givingOut 0 36)
  constructor
  · have hfresh := ((TestFolderLib.module exactPlatform).fresh_construct_iff (givingOut 0 36)
      env).mpr (by decide)
    have hnone : (TestFolderLib.construct exactPlatform env).1.valueVec = [] := rfl
    have hfirst := hfolder [] 0
    simp only [Runs.run_nil, hnone, List.nil_append] at hfirst
    exact (hfirst (by decide +kernel)).mpr hfresh
  · have hfresh := ((TestStatusCode.module exactPlatform).fresh_construct_iff (givingOut 0 36)
      env).mpr (by decide)
    have hfirst := hstatus [] env
    simp only [Runs.run_nil] at hfirst
    exact (hfirst (by decide +kernel)).mpr hfresh

/-- Started, shut down and started again with new references, both classes use the old ones
and have two elements running. -/
theorem restart_keeps_references :
    let env : Env := ⟨Stream'.const 0, Stream'.const 0⟩
    let folder := (Runs.run (TestFolderLib.module exactPlatform).call
      (TestFolderLib.construct exactPlatform env).1 [.startup (givingOut 0 36) 0, .shutdown]).1
    let folderAgain := TestFolderLib.startup (givingOut 100 72) 0 folder
    let status := (Runs.run (TestStatusCode.module exactPlatform).call
      (TestStatusCode.construct exactPlatform env).1 [.startup (givingOut 0 36) env, .shutdown]).1
    let statusAgain := TestStatusCode.startup (givingOut 100 36) env status
    ((folderAgain.2 = some true ∧ folderAgain.1.loop.slotTimer.running = 2 ∧
      folderAgain.1.baseNodeClassWMap.find (nodeId 200 2) = some 0 ∧
      (returned (givingOut 100 72).nodeReferences folderAgain.1.valueVec).lookup (nodeId 200 2) =
        some 100) ∧
      ¬ Renewed (givingOut 100 72) (TestFolderLib.client folderAgain.1)) ∧
    (statusAgain.2 = some true ∧ statusAgain.1.loop.slotTimer.running = 2 ∧
      statusAgain.1.baseNodeClassWMap.find (nodeId 200 3) = some 0 ∧
      (returned (givingOut 100 36).nodeReferences statusAgain.1.valueMap.keys).lookup
        (nodeId 200 3) = some 100) ∧
      ¬ Renewed (givingOut 100 36) (TestStatusCode.client statusAgain.1) := by
  refine ⟨⟨?_, ?_⟩, ?_, ?_⟩
  · decide +kernel
  · exact not_renewed_of_running (by decide +kernel)
  · decide +kernel
  · exact not_renewed_of_running (by decide +kernel)

end ASNeGDemo
