import ASNeGDemo.HistoricalAccess.ReadValues

/-!
Reading the history page by page. The server keeps nothing between two calls; the
continuation point a client echoes is all there is. A run is exact as long as no page
size makes the 32 bit sum of the end index wrap.
-/
namespace ASNeGDemo.HistoricalAccess

variable {P : Platform} (lexicalCast : String → Option UInt32)

/-- The text an output stream writes for a number is read back as this number. -/
def ReadsBack : Prop := ∀ n : UInt32, lexicalCast (toString n) = some n

theorem lexicalCastUInt32_readsBack : ReadsBack lexicalCastUInt32 := by
  intro n
  have hlist : (toString n).toList = Nat.toDigits 10 n.toNat := Nat.toList_repr
  have hdigit : ∀ c ∈ Nat.toDigits 10 n.toNat, c.isDigit := fun c hc =>
    Nat.isDigit_of_mem_toDigits (by decide) (by decide) hc
  have hnumeral : numeral (Nat.toDigits 10 n.toNat) = some n := by
    have hne : Nat.toDigits 10 n.toNat ≠ [] := Nat.toDigits_ne_nil
    simp [numeral, hne, Nat.ofDigitChars_ten_toDigits, n.toNat_lt]
    exact hdigit
  rw [lexicalCastUInt32, hlist]
  generalize hds : Nat.toDigits 10 n.toNat = ds at *
  cases ds with
  | nil => exact hnumeral
  | cons d ds =>
    have hd : d ≠ '-' := by
      rintro rfl
      exact absurd (hdigit '-' (by simp)) (by decide)
    simpa [hd] using hnumeral

/-- What a client chooses for a call, and the clock reading the server takes in it. -/
structure PageRequest where
  nodeId : NodeId
  numValuesPerNode : UInt32
  time : DateTime

def PageRequest.context (r : PageRequest) (continousPoint : String) :
    ApplicationHReadContext P :=
  { nodeId := r.nodeId
    numValuesPerNode := r.numValuesPerNode
    continousPoint := continousPoint
    releaseContinuationPoints := false
    dataValueArray := none
    statusCode := .success }

/-- The calls of a paged read, each as its context before and after. Every call passes the
continuation point of the call before; the read is over once that is empty. -/
def pagedRead (P : Platform) (continousPoint : String) :
    List PageRequest → List (ApplicationHReadContext P × ApplicationHReadContext P)
  | [] => []
  | r :: rs =>
      let before := r.context continousPoint
      let after := readHValue lexicalCast r.time before
      (before, after) ::
        if after.continousPoint = "" then [] else pagedRead P after.continousPoint rs

variable {lexicalCast}

/-- A call that leaves an empty continuation point ends the read. -/
def Finished (calls : List (ApplicationHReadContext P × ApplicationHReadContext P)) : Prop :=
  ∃ c ∈ calls, c.2.continousPoint = ""

variable (lexicalCast) in
/-- Nothing is lost or duplicated by the calls of a paged read with these requests. -/
structure PagedExactly (P : Platform) (rs : List PageRequest) : Prop where
  page_le : ∀ c ∈ pagedRead lexicalCast P "" rs, c.1.numValuesPerNode ≠ 0 →
    c.2.page.length ≤ c.1.numValuesPerNode.toNat
  point_gt : ∀ c ∈ pagedRead lexicalCast P "" rs, c.2.continousPoint ≠ "" →
    ∃ e, lexicalCast c.2.continousPoint = some e ∧
      startIndex lexicalCast c.1.continousPoint < e
  calls_le : (pagedRead lexicalCast P "" rs).length ≤ numberEntries.toNat
  finishes : numberEntries.toNat ≤ rs.length → Finished (pagedRead lexicalCast P "" rs)
  exact : Finished (pagedRead lexicalCast P "" rs) →
    ((pagedRead lexicalCast P "" rs).flatMap (·.2.page)).map DataValue.variant =
      (List.range numberEntries.toNat).map fun i => .scalar .double (P.ofInt i)

/-- While the read goes on, the values already delivered and the next page size add up to a
32 bit number. -/
def SumsFit : ℕ → List PageRequest → Prop
  | _, [] => True
  | delivered, r :: rs =>
      delivered + r.numValuesPerNode.toNat < 2 ^ 32 ∧
        (r.numValuesPerNode = 0 ∨ numberEntries.toNat ≤ delivered + r.numValuesPerNode.toNat ∨
          SumsFit (delivered + r.numValuesPerNode.toNat) rs)

@[simp] theorem numberEntries_toNat : numberEntries.toNat = 10 := rfl

theorem toString_ne_empty (n : UInt32) : toString n ≠ "" := Nat.repr_ne_empty

theorem startIndex_toString (h : ReadsBack lexicalCast) (n : UInt32) :
    startIndex lexicalCast (toString n) = n := by
  simp [startIndex, toString_ne_empty, h n]

/-- A sum that fits and stays below the number of entries is the end index. -/
theorem endIndex_of_lt {s n : UInt32} (hn : n ≠ 0)
    (h : s.toNat + n.toNat < numberEntries.toNat) :
    (endIndex s n).toNat = s.toNat + n.toNat := by
  rw [numberEntries_toNat] at h
  have hs : (s + n).toNat = s.toNat + n.toNat := by
    rw [UInt32.toNat_add]
    omega
  have hlt : s + n < numberEntries := by
    rw [UInt32.lt_iff_toNat_lt, hs, numberEntries_toNat]
    exact h
  rw [endIndex, if_pos ⟨hn, hlt⟩, hs]

/-- The last page: everything that is left was asked for. -/
theorem endIndex_of_le {s n : UInt32} (hfit : s.toNat + n.toNat < 2 ^ 32)
    (h : n = 0 ∨ numberEntries.toNat ≤ s.toNat + n.toNat) : endIndex s n = numberEntries := by
  rw [endIndex, if_neg]
  rintro ⟨hn, hlt⟩
  rw [UInt32.lt_iff_toNat_lt, UInt32.toNat_add, Nat.mod_eq_of_lt hfit] at hlt
  exact h.elim hn (not_le.mpr hlt)

/-- A sum that wraps: the page ends before its own start. -/
theorem endIndex_wraps {s n : UInt32} (h : 2 ^ 32 ≤ s.toNat + n.toNat) : endIndex s n < s := by
  have hs := s.toNat_lt
  have hn := n.toNat_lt
  have hsum : (s + n).toNat = s.toNat + n.toNat - 2 ^ 32 := by
    rw [UInt32.toNat_add]
    omega
  have hlt : s + n < s := by
    rw [UInt32.lt_iff_toNat_lt, hsum]
    omega
  have hn0 : n ≠ 0 := by
    rintro rfl
    simp at h
    omega
  unfold endIndex
  split_ifs with hend
  · exact hlt
  · have hle : numberEntries ≤ s + n := UInt32.not_lt.mp fun hlt' => hend ⟨hn0, hlt'⟩
    exact UInt32.lt_of_le_of_lt hle hlt

section Call
variable (lexicalCast : String → Option UInt32) (r : PageRequest) (point : String)

theorem readHValue_page :
    (readHValue lexicalCast r.time (r.context (P := P) point)).page =
      (indices (startIndex lexicalCast point)
        (endIndex (startIndex lexicalCast point) r.numValuesPerNode)).map (entry P r.time) := by
  simp [readHValue, PageRequest.context, ApplicationHReadContext.page]

theorem readHValue_point :
    (readHValue lexicalCast r.time (r.context (P := P) point)).continousPoint =
      if endIndex (startIndex lexicalCast point) r.numValuesPerNode = numberEntries then ""
      else toString (endIndex (startIndex lexicalCast point) r.numValuesPerNode) := by
  simp [readHValue, PageRequest.context]

end Call

section Step
variable {point : String} {s : UInt32} (hp : startIndex lexicalCast point = s) (r : PageRequest)
  (rs : List PageRequest)
include hp

/-- A page that reaches the end is the last one. -/
theorem pagedRead_last (hend : endIndex s r.numValuesPerNode = numberEntries) :
    (readHValue lexicalCast r.time (r.context (P := P) point)).continousPoint = "" ∧
      pagedRead lexicalCast P point (r :: rs) =
        [(r.context point, readHValue lexicalCast r.time (r.context point))] := by
  have hpoint := readHValue_point (P := P) lexicalCast r point
  rw [hp, if_pos hend] at hpoint
  refine ⟨hpoint, ?_⟩
  simp only [pagedRead, hpoint, if_true]

/-- Any other page is followed by those from its end on. -/
theorem pagedRead_next {e : UInt32} (hend : endIndex s r.numValuesPerNode = e)
    (hne : e ≠ numberEntries) :
    (readHValue lexicalCast r.time (r.context (P := P) point)).continousPoint = toString e ∧
      pagedRead lexicalCast P point (r :: rs) =
        (r.context point, readHValue lexicalCast r.time (r.context point)) ::
          pagedRead lexicalCast P (toString e) rs := by
  have hpoint := readHValue_point (P := P) lexicalCast r point
  rw [hp, hend, if_neg hne] at hpoint
  refine ⟨hpoint, ?_⟩
  simp only [pagedRead, hpoint]
  rw [if_neg (toString_ne_empty e)]

end Step

@[simp] theorem entry_variant (time : DateTime) (i : ℕ) :
    (entry P time i).variant = .scalar .double (P.ofInt i) := rfl

theorem map_entry_variant (time : DateTime) (l : List ℕ) :
    (l.map (entry P time)).map DataValue.variant =
      l.map fun i : ℕ => .scalar .double (P.ofInt i) := by
  simp [List.map_map, Function.comp_def]

/-- From a continuation point that denotes `s`, and with sums that fit, the pages tile the
entries from `s` on. The induction is on the requests; each call moves `s` forward. -/
theorem pagedRead_tiles (h : ReadsBack lexicalCast) (rs : List PageRequest) :
    ∀ (point : String) (s : UInt32), startIndex lexicalCast point = s → s < numberEntries →
      SumsFit s.toNat rs →
      (∀ c ∈ pagedRead lexicalCast P point rs,
        (c.1.numValuesPerNode ≠ 0 → c.2.page.length ≤ c.1.numValuesPerNode.toNat) ∧
        (c.2.continousPoint ≠ "" → ∃ e, lexicalCast c.2.continousPoint = some e ∧
          startIndex lexicalCast c.1.continousPoint < e)) ∧
      (pagedRead lexicalCast P point rs).length ≤ numberEntries.toNat - s.toNat ∧
      (numberEntries.toNat - s.toNat ≤ rs.length → Finished (pagedRead lexicalCast P point rs)) ∧
      (Finished (pagedRead lexicalCast P point rs) →
        ((pagedRead lexicalCast P point rs).flatMap (·.2.page)).map DataValue.variant =
          (List.range' s.toNat (numberEntries.toNat - s.toNat)).map
            fun i : ℕ => .scalar .double (P.ofInt i)) := by
  induction rs with
  | nil =>
    intro point s _ hs _
    have hs' := UInt32.lt_iff_toNat_lt.mp hs
    refine ⟨by simp [pagedRead], by simp [pagedRead], ?_, by simp [pagedRead, Finished]⟩
    intro hle
    rw [List.length_nil] at hle
    omega
  | cons r rs ih =>
    intro point s hp hs hfit
    obtain ⟨hsum, hrest⟩ := hfit
    have hs' := UInt32.lt_iff_toNat_lt.mp hs
    have hpage := readHValue_page (P := P) lexicalCast r point
    rw [hp] at hpage
    by_cases hlast : r.numValuesPerNode = 0 ∨
        numberEntries.toNat ≤ s.toNat + r.numValuesPerNode.toNat
    · -- this page is the last one
      have hend := endIndex_of_le hsum hlast
      obtain ⟨hpoint, hcalls⟩ := pagedRead_last (P := P) hp r rs hend
      rw [hend] at hpage
      rw [hcalls]
      refine ⟨?_, by rw [List.length_singleton]; omega,
        fun _ => ⟨_, List.mem_singleton_self _, hpoint⟩, ?_⟩
      · intro c hc
        rw [List.mem_singleton.mp hc]
        refine ⟨fun hn => ?_, fun hne => absurd hpoint hne⟩
        have hle : numberEntries.toNat ≤ s.toNat + r.numValuesPerNode.toNat :=
          hlast.resolve_left hn
        simp only [hpage, List.length_map, indices, List.length_range']
        exact Nat.sub_le_iff_le_add'.mpr hle
      · intro _
        simp only [List.flatMap_cons, List.flatMap_nil, List.append_nil, hpage,
          map_entry_variant]
        rfl
    · -- the read goes on behind this page
      push Not at hlast
      obtain ⟨hn, hlt⟩ := hlast
      have hend := endIndex_of_lt hn hlt
      have hpos : 0 < r.numValuesPerNode.toNat :=
        Nat.pos_of_ne_zero fun h0 => hn (UInt32.toNat_inj.mp h0)
      generalize hedef : endIndex s r.numValuesPerNode = e at *
      have hne : e ≠ numberEntries := fun h0 => by rw [h0] at hend; omega
      obtain ⟨hpoint, hcalls⟩ := pagedRead_next (P := P) hp r rs hedef hne
      have hgt : s < e := by rw [UInt32.lt_iff_toNat_lt, hend]; omega
      have helt : e < numberEntries := by rw [UInt32.lt_iff_toNat_lt, hend]; exact hlt
      have hfit' : SumsFit e.toNat rs := by
        rw [hend]
        exact (hrest.resolve_left hn).resolve_left (not_le.mpr hlt)
      obtain ⟨ihc, ihl, ihf, ihe⟩ := ih (toString e) e (startIndex_toString h e) helt hfit'
      have hfin : Finished (pagedRead lexicalCast P point (r :: rs)) ↔
          Finished (pagedRead lexicalCast P (toString e) rs) := by
        simp [Finished, hcalls, hpoint, toString_ne_empty]
      rw [hfin, hcalls]
      refine ⟨?_, ?_, fun hlen => ihf ?_, fun hf => ?_⟩
      · intro c hc
        rcases List.mem_cons.mp hc with rfl | hc
        · refine ⟨fun _ => ?_, fun _ => ⟨e, ?_, ?_⟩⟩
          · simp only [hpage, List.length_map, indices, List.length_range', hend]
            simp [PageRequest.context]
          · rw [hpoint, h e]
          · simpa [PageRequest.context, hp] using hgt
        · exact ihc c hc
      · rw [List.length_cons, hend] at *
        omega
      · rw [List.length_cons] at hlen
        omega
      · rw [List.flatMap_cons, List.map_append, ihe hf, hpage, map_entry_variant,
          ← List.map_append]
        congr 1
        have h1 : e.toNat = s.toNat + (e.toNat - s.toNat) := by omega
        have h2 : numberEntries.toNat - s.toNat =
            (e.toNat - s.toNat) + (numberEntries.toNat - e.toNat) := by omega
        rw [indices, h2, ← List.range'_append_1]
        congr 2

/-- A read in which every continuation point denotes a later index has sums that fit. -/
theorem sumsFit_of_point_gt (h : ReadsBack lexicalCast) (rs : List PageRequest) :
    ∀ (point : String) (s : UInt32), startIndex lexicalCast point = s → s < numberEntries →
      (∀ c ∈ pagedRead lexicalCast P point rs, c.2.continousPoint ≠ "" →
        ∃ e, lexicalCast c.2.continousPoint = some e ∧
          startIndex lexicalCast c.1.continousPoint < e) →
      SumsFit s.toNat rs := by
  induction rs with
  | nil => intro point s _ _ _; trivial
  | cons r rs ih =>
    intro point s hp hs hgt
    have hfits : s.toNat + r.numValuesPerNode.toNat < 2 ^ 32 := by
      by_contra hwrap
      have hlt := endIndex_wraps (not_lt.mp hwrap)
      obtain ⟨hpoint, -⟩ := pagedRead_next (P := P) hp r rs rfl
        (UInt32.ne_of_lt (UInt32.lt_trans hlt hs))
      obtain ⟨e, he, hse⟩ := hgt _ (by rw [pagedRead]; exact List.mem_cons_self)
        (by rw [hpoint]; exact toString_ne_empty _)
      rw [hpoint, h] at he
      obtain rfl := Option.some.inj he
      simp only [PageRequest.context, hp] at hse
      exact UInt32.lt_asymm hlt hse
    refine ⟨hfits, ?_⟩
    by_cases hlast : r.numValuesPerNode = 0 ∨
        numberEntries.toNat ≤ s.toNat + r.numValuesPerNode.toNat
    · exact hlast.imp_right Or.inl
    · push Not at hlast
      obtain ⟨hn, hlt⟩ := hlast
      have hend := endIndex_of_lt hn hlt
      have hne : endIndex s r.numValuesPerNode ≠ numberEntries := fun h0 => by
        rw [h0] at hend; omega
      obtain ⟨-, hcalls⟩ := pagedRead_next (P := P) hp r rs rfl hne
      refine Or.inr (Or.inr ?_)
      rw [← hend]
      apply ih _ _ (startIndex_toString h _)
      · rw [UInt32.lt_iff_toNat_lt, hend]
        exact hlt
      · intro c hc
        apply hgt c
        rw [hcalls]
        exact List.mem_cons_of_mem _ hc

@[simp] theorem startIndex_empty : startIndex lexicalCast "" = 0 := rfl

/-- Five entries, then a page size of `2 ^ 32 - 3`: the second continuation point is `2`. -/
theorem pagedRead_goes_back :
    ¬ PagedExactly lexicalCastUInt32 exactPlatform
      [⟨nodeIdString "DoubleValue" 1, 5, 0⟩, ⟨nodeIdString "DoubleValue" 1, 4294967293, 0⟩] := by
  intro h
  have hfit := sumsFit_of_point_gt lexicalCastUInt32_readsBack _ "" 0 rfl (by decide) h.point_gt
  revert hfit
  simp [SumsFit]

/-- A paged read is exact if and only if none of its sums wraps. -/
theorem pagedExactly_iff (h : ReadsBack lexicalCast) (rs : List PageRequest) :
    PagedExactly lexicalCast P rs ↔ SumsFit 0 rs := by
  constructor
  · intro hex
    exact sumsFit_of_point_gt (P := P) h rs "" 0 startIndex_empty (by decide) hex.point_gt
  · intro hfit
    obtain ⟨hcalls, hlen, hfin, hexact⟩ :=
      pagedRead_tiles (P := P) h rs "" 0 startIndex_empty (by decide) hfit
    exact
      { page_le := fun c hc => (hcalls c hc).1
        point_gt := fun c hc => (hcalls c hc).2
        calls_le := hlen
        finishes := hfin
        exact := fun hf => by rw [hexact hf, List.range_eq_range']; rfl }

theorem pagedExactly_iff_four_pages :
    PagedExactly lexicalCastUInt32 exactPlatform
        (List.replicate 4 ⟨nodeIdString "DoubleValue" 1, 3, 0⟩) ↔
      SumsFit 0 (List.replicate 4 ⟨nodeIdString "DoubleValue" 1, 3, 0⟩) :=
  pagedExactly_iff lexicalCastUInt32_readsBack _

end ASNeGDemo.HistoricalAccess
