import ASNeGDemo.HistoricalAccess.ContinuationPoints

/-!
Releasing a read. A client that stops early calls once more, with the continuation point it
holds and the release flag set.
-/
namespace ASNeGDemo.HistoricalAccess

variable {P : Platform} (lexicalCast : String → Option UInt32)

/-- The call that releases a continuation point. -/
def PageRequest.release (r : PageRequest) (continousPoint : String) :
    ApplicationHReadContext P :=
  { r.context continousPoint with releaseContinuationPoints := true }

/-- The continuation point the client holds after the calls of a read. -/
def currentPoint (calls : List (ApplicationHReadContext P × ApplicationHReadContext P)) :
    String :=
  (calls.getLast?.map (·.2.continousPoint)).getD ""

/-- The calls of a paged read, and the call that releases it behind them. -/
def releasedRead (P : Platform) (rs : List PageRequest) (r : PageRequest) :
    List (ApplicationHReadContext P × ApplicationHReadContext P) :=
  let calls := pagedRead lexicalCast P "" rs
  let before := r.release (currentPoint calls)
  calls ++ [(before, readHValue lexicalCast r.time before)]

/-- The answer to a release as a client expects it. -/
structure ReleasesCleanly (after : ApplicationHReadContext P) : Prop where
  statusCode : after.statusCode = .success
  page : after.page = []
  continousPoint : after.continousPoint = ""

/-- The point is empty, or the page that starts at it ends before its start. -/
def NothingLeft (continousPoint : String) (numValuesPerNode : UInt32) : Prop :=
  continousPoint = "" ∨ ∃ s, lexicalCast continousPoint = some s ∧
    (numberEntries ≤ s ∨ 2 ^ 32 ≤ s.toNat + numValuesPerNode.toNat)

/-! ### One release -/

section Call
variable (r : PageRequest) (point : String)

/-- Without a point a release hands out nothing, with one it hands out the page of the point. -/
theorem readHValue_release_page :
    (readHValue lexicalCast r.time (r.release (P := P) point)).page =
      if point = "" then [] else (indices (startIndex lexicalCast point)
        (endIndex (startIndex lexicalCast point) r.numValuesPerNode)).map (entry P r.time) := by
  by_cases hempty : point = ""
  · simp [readHValue, PageRequest.release, PageRequest.context, ApplicationHReadContext.page, hempty]
  · simp [readHValue, PageRequest.release, PageRequest.context, ApplicationHReadContext.page, hempty]

theorem readHValue_release_point :
    (readHValue lexicalCast r.time (r.release (P := P) point)).continousPoint = "" ∧
      (readHValue lexicalCast r.time (r.release (P := P) point)).statusCode = .success := by
  by_cases hempty : point = ""
  · simp [readHValue, PageRequest.release, PageRequest.context, hempty]
  · simp [readHValue, PageRequest.release, PageRequest.context, hempty]

end Call

/-- A page is empty exactly if it starts behind the last entry or its sum wraps. -/
theorem indices_eq_nil_iff (s n : UInt32) :
    indices s (endIndex s n) = [] ↔ numberEntries ≤ s ∨ 2 ^ 32 ≤ s.toNat + n.toNat := by
  have hnil : indices s (endIndex s n) = [] ↔ (endIndex s n).toNat ≤ s.toNat := by
    rw [indices, List.range'_eq_nil_iff, Nat.sub_eq_zero_iff_le]
  rw [hnil, UInt32.le_iff_toNat_le]
  constructor
  · intro hle
    by_contra hopen
    push Not at hopen
    obtain ⟨hs, hfit⟩ := hopen
    by_cases hlast : n = 0 ∨ numberEntries.toNat ≤ s.toNat + n.toNat
    · rw [endIndex_of_le hfit hlast] at hle
      omega
    · push Not at hlast
      rw [endIndex_of_lt hlast.1 hlast.2] at hle
      exact hlast.1 (UInt32.toNat_inj.mp (by rw [UInt32.toNat_zero]; omega))
  · rintro (hs | hwrap)
    · exact (UInt32.le_iff_toNat_le.mp (endIndex_le s n)).trans hs
    · exact (UInt32.lt_iff_toNat_lt.mp (endIndex_wraps hwrap)).le

/-- An unreadable text stands for the first entry, so there is something left behind it. -/
theorem nothingLeft_iff (point : String) (n : UInt32) :
    NothingLeft lexicalCast point n ↔
      point = "" ∨ indices (startIndex lexicalCast point)
        (endIndex (startIndex lexicalCast point) n) = [] := by
  rw [indices_eq_nil_iff, NothingLeft]
  apply or_congr_right'
  intro hne
  cases hcast : lexicalCast point with
  | none =>
    have hn := n.toNat_lt
    have hstart : startIndex lexicalCast point = 0 := by simp [startIndex, hcast]
    rw [hstart, UInt32.toNat_zero]
    exact iff_of_false (by simp) (not_or.mpr ⟨by decide, by omega⟩)
  | some s =>
    have hstart : startIndex lexicalCast point = s := by simp [startIndex, hne, hcast]
    simp [hstart]

theorem releasesCleanly_iff (r : PageRequest) (point : String) :
    ReleasesCleanly (readHValue lexicalCast r.time (r.release (P := P) point)) ↔
      NothingLeft lexicalCast point r.numValuesPerNode := by
  obtain ⟨hpoint, hstatus⟩ := readHValue_release_point (P := P) lexicalCast r point
  have hpage := readHValue_release_page (P := P) lexicalCast r point
  rw [nothingLeft_iff]
  constructor
  · intro h
    rw [h.page] at hpage
    by_cases hempty : point = ""
    · exact .inl hempty
    · rw [if_neg hempty] at hpage
      exact .inr (List.map_eq_nil_iff.mp hpage.symm)
  · intro h
    refine ⟨hstatus, ?_, hpoint⟩
    rw [hpage]
    split_ifs with hempty
    · rfl
    · rw [h.resolve_left hempty, List.map_nil]

/-! ### Runs -/

theorem releasedRead_values_iff (rs : List PageRequest) (r : PageRequest) :
    (releasedRead lexicalCast P rs r).flatMap (·.2.page) =
        (pagedRead lexicalCast P "" rs).flatMap (·.2.page) ↔
      ReleasesCleanly (readHValue lexicalCast r.time
        (r.release (P := P) (currentPoint (pagedRead lexicalCast P "" rs)))) := by
  obtain ⟨hpoint, hstatus⟩ := readHValue_release_point (P := P) lexicalCast r
    (currentPoint (pagedRead lexicalCast P "" rs))
  unfold releasedRead
  rw [List.flatMap_append, List.flatMap_singleton, List.append_right_eq_self]
  constructor
  · intro hpage
    exact ⟨hstatus, hpage, hpoint⟩
  · intro h
    exact h.page

/-- Three entries are read, then the read is released: the release hands out three more. -/
theorem release_hands_out_page :
    let r : PageRequest := ⟨nodeIdString "DoubleValue" 1, 3, 0⟩
    let calls := pagedRead lexicalCastUInt32 exactPlatform "" [r]
    ¬ ReleasesCleanly (readHValue lexicalCastUInt32 r.time
        (r.release (P := exactPlatform) (currentPoint calls))) ∧
      (releasedRead lexicalCastUInt32 exactPlatform [r] r).flatMap (·.2.page) ≠
        calls.flatMap (·.2.page) := by
  intro r calls
  have hend : endIndex 0 r.numValuesPerNode = 3 := rfl
  have hstart : startIndex lexicalCastUInt32 "" = 0 := startIndex_empty
  obtain ⟨hpoint, hcalls⟩ := pagedRead_next (P := exactPlatform) hstart r [] hend (by decide)
  have hcurrent : currentPoint calls = toString (3 : UInt32) := by
    rw [← hpoint]
    exact congrArg currentPoint hcalls
  have hno : ¬ NothingLeft lexicalCastUInt32 (currentPoint calls) r.numValuesPerNode := by
    rw [hcurrent]
    rintro (hempty | ⟨s, hs, hleft⟩)
    · exact toString_ne_empty _ hempty
    · rw [lexicalCastUInt32_readsBack] at hs
      obtain rfl := Option.some.inj hs
      exact absurd hleft (by decide)
  have hunclean := mt (releasesCleanly_iff (P := exactPlatform) lexicalCastUInt32 r _).mp hno
  exact ⟨hunclean, mt (releasedRead_values_iff lexicalCastUInt32 [r] r).mp hunclean⟩

/-- For every text a release is clean, and after every paged read the values of the released
read are those of its pages, exactly if nothing is left at the point that is released. -/
theorem release_iff (r : PageRequest) :
    (∀ point, ReleasesCleanly (readHValue lexicalCast r.time (r.release (P := P) point)) ↔
      NothingLeft lexicalCast point r.numValuesPerNode) ∧
    ∀ rs, (releasedRead lexicalCast P rs r).flatMap (·.2.page) =
        (pagedRead lexicalCast P "" rs).flatMap (·.2.page) ↔
      NothingLeft lexicalCast (currentPoint (pagedRead lexicalCast P "" rs))
        r.numValuesPerNode := by
  constructor
  · intro point
    exact releasesCleanly_iff lexicalCast r point
  · intro rs
    rw [releasedRead_values_iff]
    exact releasesCleanly_iff lexicalCast r _

/-- The point a paged read leaves behind is empty or denotes one of the entries. -/
theorem currentPoint_pagedRead (rs : List PageRequest) (point : String) :
    currentPoint (pagedRead lexicalCast P point rs) = "" ∨
      ∃ e < numberEntries, currentPoint (pagedRead lexicalCast P point rs) = toString e := by
  induction rs generalizing point with
  | nil => exact .inl rfl
  | cons r rs ih =>
    obtain ⟨e, hend⟩ : ∃ e, endIndex (startIndex lexicalCast point) r.numValuesPerNode = e :=
      ⟨_, rfl⟩
    by_cases hlast : e = numberEntries
    · obtain ⟨hpoint, hcalls⟩ := pagedRead_last (P := P) rfl r rs (hend.trans hlast)
      rw [hcalls]
      exact .inl hpoint
    · obtain ⟨hpoint, hcalls⟩ := pagedRead_next (P := P) rfl r rs hend hlast
      rw [hcalls]
      cases hrest : pagedRead lexicalCast P (toString e) rs with
      | nil =>
        have hle := endIndex_le (startIndex lexicalCast point) r.numValuesPerNode
        rw [hend] at hle
        exact .inr ⟨e, UInt32.lt_of_le_of_ne hle hlast, hpoint⟩
      | cons call calls =>
        have hrestPoint := ih (toString e)
        rw [hrest] at hrestPoint
        exact hrestPoint

/-- Over a paged read: nothing is left exactly if the read is over or has not begun, or the sum
of the release wraps. -/
theorem nothingLeft_currentPoint_iff (h : ReadsBack lexicalCast) (rs : List PageRequest)
    (n : UInt32) :
    NothingLeft lexicalCast (currentPoint (pagedRead lexicalCast P "" rs)) n ↔
      currentPoint (pagedRead lexicalCast P "" rs) = "" ∨
        ∃ e : UInt32, currentPoint (pagedRead lexicalCast P "" rs) = toString e ∧
          2 ^ 32 ≤ e.toNat + n.toNat := by
  unfold NothingLeft
  apply or_congr_right'
  intro hne
  obtain ⟨e, he, hpoint⟩ := (currentPoint_pagedRead (P := P) lexicalCast rs "").resolve_left hne
  rw [hpoint, h e]
  constructor
  · rintro ⟨s, hs, hleft⟩
    obtain rfl := Option.some.inj hs
    exact ⟨e, rfl, hleft.resolve_left (UInt32.not_le.mpr he)⟩
  · rintro ⟨s, hs, hwrap⟩
    have hes : some e = some s := by rw [← h e, hs, h s]
    obtain rfl := Option.some.inj hes
    exact ⟨e, rfl, .inr hwrap⟩

end ASNeGDemo.HistoricalAccess
