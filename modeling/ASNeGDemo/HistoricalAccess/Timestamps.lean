import ASNeGDemo.HistoricalAccess.Paging

/-!
Source timestamps over a paged read. An entry is made when its page is, so its timestamp
moves with the clock of the call that returns it.
-/
namespace ASNeGDemo.HistoricalAccess

variable {P : Platform} {lexicalCast : String → Option UInt32}

/-- The values and source timestamps that the calls of a read hand to the client. -/
def history (calls : List (ApplicationHReadContext P × ApplicationHReadContext P)) :
    List (Variant (Value P) × DateTime) :=
  (calls.flatMap (·.2.page)).map fun d => (d.variant, d.sourceTimestamp)

/-- The clock reading of the `k`-th request. -/
def readingAt (rs : List PageRequest) (k : ℕ) : DateTime := (rs.map PageRequest.time).getD k 0

/-- The clock readings of the calls that the read makes of the requests. -/
def readings (rs : List PageRequest)
    (calls : List (ApplicationHReadContext P × ApplicationHReadContext P)) : List DateTime :=
  (List.range calls.length).map (readingAt rs)

@[simp] theorem readingAt_cons_zero (r : PageRequest) (rs : List PageRequest) :
    readingAt (r :: rs) 0 = r.time := rfl

@[simp] theorem readingAt_cons_succ (r : PageRequest) (rs : List PageRequest) (k : ℕ) :
    readingAt (r :: rs) (k + 1) = readingAt rs k := rfl

/-- The pages of a read with one page size, from the index `s` on: the entries are in order,
and each is as old as the call that made its page. The induction is on the requests. -/
theorem pagedRead_pages (h : ReadsBack lexicalCast) {n : UInt32} (hn : n ≠ 0)
    (rs : List PageRequest) :
    ∀ (point : String) (s : UInt32), startIndex lexicalCast point = s → s < numberEntries →
      s.toNat + n.toNat < 2 ^ 32 → (∀ r ∈ rs, r.numValuesPerNode = n) →
      Finished (pagedRead lexicalCast P point rs) →
      (pagedRead lexicalCast P point rs).flatMap (·.2.page) =
          (List.range' s.toNat (numberEntries.toNat - s.toNat)).map (fun i =>
            entry P (readingAt rs ((i - s.toNat) / n.toNat)) i) ∧
        (pagedRead lexicalCast P point rs).length =
          (numberEntries.toNat - 1 - s.toNat) / n.toNat + 1 := by
  have hpos : 0 < n.toNat := Nat.pos_of_ne_zero fun h0 => hn (UInt32.toNat_inj.mp h0)
  induction rs with
  | nil =>
    intro point s _ _ _ _ hfin
    simp [pagedRead, Finished] at hfin
  | cons r rs ih =>
    intro point s hp hs hfit hsize hfin
    have hs' := UInt32.lt_iff_toNat_lt.mp hs
    obtain rfl : r.numValuesPerNode = n := hsize r (by simp)
    have hpage := readHValue_page (P := P) lexicalCast r point
    rw [hp] at hpage
    by_cases hlast : numberEntries.toNat ≤ s.toNat + r.numValuesPerNode.toNat
    · have hend := endIndex_of_le hfit (Or.inr hlast)
      obtain ⟨-, hcalls⟩ := pagedRead_last (P := P) hp r rs hend
      rw [hend] at hpage
      rw [hcalls]
      constructor
      · simp only [List.flatMap_cons, List.flatMap_nil, List.append_nil, hpage, indices]
        apply List.map_congr_left
        intro i hi
        have hlt : i - s.toNat < r.numValuesPerNode.toNat := by
          have := List.mem_range'_1.mp hi
          omega
        rw [Nat.div_eq_of_lt hlt, readingAt_cons_zero]
      · have hlt : numberEntries.toNat - 1 - s.toNat < r.numValuesPerNode.toNat := by omega
        rw [List.length_singleton, Nat.div_eq_of_lt hlt]
    · have hlt := not_le.mp hlast
      have hend := endIndex_of_lt hn hlt
      generalize hedef : endIndex s r.numValuesPerNode = e at *
      have hne : e ≠ numberEntries := fun h0 => by rw [h0] at hend; omega
      obtain ⟨hpoint, hcalls⟩ := pagedRead_next (P := P) hp r rs hedef hne
      have helt : e < numberEntries := by rw [UInt32.lt_iff_toNat_lt, hend]; exact hlt
      have hfit' : e.toNat + r.numValuesPerNode.toNat < 2 ^ 32 := by
        rw [numberEntries_toNat] at hlt
        omega
      have hfin' : Finished (pagedRead lexicalCast P (toString e) rs) := by
        simpa [Finished, hcalls, hpoint, toString_ne_empty] using hfin
      obtain ⟨ihp, ihl⟩ := ih (toString e) e (startIndex_toString h e) helt hfit'
        (fun r' hr' => hsize r' (by simp [hr'])) hfin'
      rw [hcalls]
      constructor
      · rw [List.flatMap_cons, ihp, hpage, indices]
        have hsplit : numberEntries.toNat - s.toNat =
            (e.toNat - s.toNat) + (numberEntries.toNat - e.toNat) := by omega
        have hstart : e.toNat = s.toNat + (e.toNat - s.toNat) := by omega
        rw [hsplit, ← List.range'_append_1, ← hstart, List.map_append]
        congr 1
        · apply List.map_congr_left
          intro i hi
          have hlt' : i - s.toNat < r.numValuesPerNode.toNat := by
            have := List.mem_range'_1.mp hi
            omega
          rw [Nat.div_eq_of_lt hlt', readingAt_cons_zero]
        · apply List.map_congr_left
          intro i hi
          have hge := (List.mem_range'_1.mp hi).1
          have hnext : i - s.toNat = (i - e.toNat) + r.numValuesPerNode.toNat := by omega
          rw [hnext, Nat.add_div_right _ hpos, readingAt_cons_succ]
      · have hnext : numberEntries.toNat - 1 - s.toNat =
            (numberEntries.toNat - 1 - e.toNat) + r.numValuesPerNode.toNat := by omega
        rw [List.length_cons, ihl, hnext, Nat.add_div_right _ hpos]

theorem history_entries (time : ℕ → DateTime) (l : List ℕ) :
    (l.map fun i => entry P (time i) i).map (fun d => (d.variant, d.sourceTimestamp)) =
      l.map fun i : ℕ => (.scalar .double (P.ofInt i), time i - seconds (10 + i)) := by
  rw [List.map_map]
  rfl

/-- A call without a page size returns the whole history. -/
theorem history_at_once (r : PageRequest) (hr : r.numValuesPerNode = 0) :
    history (pagedRead lexicalCast P "" [r]) = (List.range numberEntries.toNat).map fun i : ℕ =>
      (.scalar .double (P.ofInt i), r.time - seconds (10 + i)) := by
  have hend : endIndex 0 r.numValuesPerNode = numberEntries := by simp [endIndex, hr]
  have hstart : startIndex lexicalCast "" = 0 := startIndex_empty
  obtain ⟨-, hcalls⟩ := pagedRead_last (P := P) hstart r [] hend
  have hpage := readHValue_page (P := P) lexicalCast r ""
  rw [hstart, hend] at hpage
  rw [hcalls, history, List.flatMap_cons, List.flatMap_nil, List.append_nil, hpage, indices,
    List.range_eq_range']
  exact history_entries (fun _ => r.time) _

/-- Something holds of the pages of all indices exactly if it holds of all pages. -/
theorem forall_page_iff {n : ℕ} (hn : 0 < n) (m : ℕ) (Q : ℕ → Prop) :
    (∀ i < m + 1, Q (i / n)) ↔ ∀ k < m / n + 1, Q k := by
  constructor
  · intro h k hk
    have hle : k * n ≤ m := (Nat.le_div_iff_mul_le hn).mp (Nat.lt_succ_iff.mp hk)
    have hq := h (k * n) (Nat.lt_succ_of_le hle)
    rwa [Nat.mul_div_cancel k hn] at hq
  · intro h i hi
    exact h (i / n) (Nat.lt_succ_of_le (Nat.div_le_div_right (Nat.lt_succ_iff.mp hi)))

/-- Timestamps that fall by a second within a page fall from page to page exactly if the clock
moves by less than a second. -/
theorem decreasing_iff {n : ℕ} (hn : 0 < n) (m : ℕ) (time : ℕ → ℤ) :
    (∀ i < m, time ((i + 1) / n) - seconds (10 + (i + 1 : ℕ)) < time (i / n) - seconds (10 + i)) ↔
      ∀ k < m / n, time (k + 1) < time k + seconds 1 := by
  constructor
  · intro h k hk
    have hle : (k + 1) * n ≤ m := (Nat.le_div_iff_mul_le hn).mp hk
    obtain ⟨i, hi⟩ : ∃ i, (k + 1) * n = i + 1 :=
      Nat.exists_eq_succ_of_ne_zero (Nat.mul_pos k.succ_pos hn).ne'
    have hnext : (i + 1) / n = k + 1 := by rw [← hi, Nat.mul_div_cancel _ hn]
    have hthis : i / n = k := by
      rw [Nat.add_mul, Nat.one_mul] at hi
      apply Nat.div_eq_of_lt_le
      · omega
      · rw [Nat.add_mul, Nat.one_mul]
        omega
    have hfall := h i (by omega)
    rw [hnext, hthis] at hfall
    unfold seconds at *
    omega
  · intro h i hi
    rw [Nat.succ_div]
    split_ifs with hseam
    · have hk : i / n < m / n := by
        have hle := Nat.div_le_div_right (c := n) (show i + 1 ≤ m from hi)
        rw [Nat.succ_div, if_pos hseam] at hle
        exact hle
      have hmove := h (i / n) hk
      unfold seconds at *
      omega
    · unfold seconds
      rw [Nat.add_zero]
      omega

/-- A second passes between the pages: the last entry of the first page and the first one of
the second page have one timestamp. -/
theorem paged_history_moves :
    let rs : List PageRequest := [⟨nodeIdString "DoubleValue" 1, 5, 0⟩,
      ⟨nodeIdString "DoubleValue" 1, 5, seconds 1⟩]
    history (pagedRead lexicalCastUInt32 exactPlatform "" rs) ≠
        history (pagedRead lexicalCastUInt32 exactPlatform ""
          [⟨nodeIdString "DoubleValue" 1, 0, 0⟩]) ∧
      ¬ ((history (pagedRead lexicalCastUInt32 exactPlatform "" rs)).map Prod.snd).Pairwise
        (· > ·) := by
  intro rs
  constructor
  · intro heq
    have hstamps := congrArg (List.map Prod.snd) heq
    revert hstamps
    decide +kernel
  · decide +kernel

/-- A finished read with one page size: the values are those of a single read, each with the
timestamp of the call that returned it; the two histories are the same exactly if the clock
stood still, and the timestamps decrease exactly if no two successive calls are a second apart. -/
theorem paged_history (h : ReadsBack lexicalCast) {n : UInt32} (hn : n ≠ 0)
    {rs : List PageRequest} (hsize : ∀ r ∈ rs, r.numValuesPerNode = n)
    (hfin : Finished (pagedRead lexicalCast P "" rs)) (node : NodeId) :
    let calls := pagedRead lexicalCast P "" rs
    history calls = (List.range numberEntries.toNat).map (fun i : ℕ =>
        (.scalar .double (P.ofInt i), readingAt rs (i / n.toNat) - seconds (10 + i))) ∧
      (history calls = history (pagedRead lexicalCast P "" [⟨node, 0, readingAt rs 0⟩]) ↔
        ∀ t ∈ readings rs calls, t = readingAt rs 0) ∧
      (((history calls).map Prod.snd).Pairwise (· > ·) ↔
        (readings rs calls).IsChain fun t t' => t' < t + seconds 1) := by
  intro calls
  have hpos : 0 < n.toNat := Nat.pos_of_ne_zero fun h0 => hn (UInt32.toNat_inj.mp h0)
  obtain ⟨hpages, hlen⟩ := pagedRead_pages (P := P) h hn rs "" 0 startIndex_empty (by decide)
    (by simpa using n.toNat_lt) hsize hfin
  change calls.flatMap (·.2.page) = _ at hpages
  have hlen : calls.length = 9 / n.toNat + 1 := by
    simpa only [numberEntries_toNat, UInt32.toNat_zero, Nat.sub_zero] using hlen
  clear_value calls
  have hhistory : history calls = (List.range numberEntries.toNat).map (fun i : ℕ =>
      (.scalar .double (P.ofInt i), readingAt rs (i / n.toNat) - seconds (10 + i))) := by
    rw [history, hpages, List.range_eq_range']
    exact history_entries (fun i => readingAt rs (i / n.toNat)) _
  have hreadings : readings rs calls = (List.range (9 / n.toNat + 1)).map (readingAt rs) := by
    rw [readings, hlen]
  refine ⟨hhistory, ?_, ?_⟩
  · rw [hhistory, history_at_once ⟨node, 0, readingAt rs 0⟩ rfl, hreadings, List.map_inj_left]
    simp only [numberEntries_toNat, List.mem_range, Prod.mk.injEq, true_and, sub_left_inj, List.mem_map,
      forall_exists_index, and_imp, forall_apply_eq_imp_iff₂]
    exact forall_page_iff hpos 9 fun k => readingAt rs k = readingAt rs 0
  · have hstamps : (history calls).map Prod.snd = (List.range (9 + 1)).map fun i : ℕ =>
        readingAt rs (i / n.toNat) - seconds (10 + i) := by
      rw [hhistory, List.map_map]
      rfl
    rw [hstamps, hreadings, ← List.isChain_iff_pairwise, List.isChain_map, List.isChain_map,
      List.isChain_range_succ, List.isChain_range_succ]
    exact decreasing_iff hpos 9 (readingAt rs)

theorem paged_history_two_pages :
    let rs : List PageRequest := [⟨nodeIdString "DoubleValue" 1, 5, 0⟩,
      ⟨nodeIdString "DoubleValue" 1, 5, 3⟩]
    let calls := pagedRead lexicalCastUInt32 exactPlatform "" rs
    (((history calls).map Prod.snd).Pairwise (· > ·) ↔
      (readings rs calls).IsChain fun t t' => t' < t + seconds 1) :=
  (paged_history lexicalCastUInt32_readsBack (n := 5) (by decide) (by decide)
    (by unfold Finished; decide +kernel) (nodeIdString "DoubleValue" 1)).2.2

end ASNeGDemo.HistoricalAccess
