import ASNeGDemo.HistoricalAccess.Paging

/-!
Continuation points a client makes up. The start index is whatever number the text denotes;
it is never compared with the number of entries.
-/
namespace ASNeGDemo.HistoricalAccess

variable {P : Platform} (lexicalCast : String → Option UInt32)
  (time : DateTime) (ctx : ApplicationHReadContext P)

/-- The call gets as far as the allocation of the result array. -/
def Allocates : Prop := ¬ (ctx.continousPoint = "" ∧ ctx.releaseContinuationPoints = true)

/-- The size that is asked for is that of the page, and no more than there is and was wanted. -/
structure Bounded : Prop where
  start_le : startIndex lexicalCast ctx.continousPoint ≤
    endIndex (startIndex lexicalCast ctx.continousPoint) ctx.numValuesPerNode
  end_le : endIndex (startIndex lexicalCast ctx.continousPoint) ctx.numValuesPerNode ≤
    numberEntries
  allocated : ∃ array, (readHValue lexicalCast time ctx).dataValueArray = some array ∧
    array.capacity ≤ numberEntries ∧
    (ctx.numValuesPerNode ≠ 0 → array.capacity ≤ ctx.numValuesPerNode) ∧
    array.capacity.toNat = array.values.length

/-- The text denotes no number, or one that is an index and whose sum with the page size is a
32 bit number. -/
def WithinEntries (continousPoint : String) (numValuesPerNode : UInt32) : Prop :=
  continousPoint = "" ∨ ∀ s, lexicalCast continousPoint = some s →
    s ≤ numberEntries ∧ s.toNat + numValuesPerNode.toNat < 2 ^ 32

theorem endIndex_le (s n : UInt32) : endIndex s n ≤ numberEntries := by
  unfold endIndex
  split_ifs with h
  · exact UInt32.le_of_lt h.2
  · exact UInt32.le_refl _

theorem sub_toNat {s e : UInt32} (h : s ≤ e) : (e - s).toNat = e.toNat - s.toNat :=
  UInt32.toNat_sub_of_le e s h

/-- The end lies behind the start exactly if the start is an index and the sum does not wrap. -/
theorem le_endIndex_iff (s n : UInt32) :
    s ≤ endIndex s n ↔ s ≤ numberEntries ∧ s.toNat + n.toNat < 2 ^ 32 := by
  constructor
  · intro hle
    refine ⟨UInt32.le_trans hle (endIndex_le s n), ?_⟩
    by_contra hwrap
    exact UInt32.not_lt.mpr hle (endIndex_wraps (not_lt.mp hwrap))
  · rintro ⟨hs, hfit⟩
    unfold endIndex
    split_ifs
    · rw [UInt32.le_iff_toNat_le, UInt32.toNat_add, Nat.mod_eq_of_lt hfit]
      exact Nat.le_add_right ..
    · exact hs

/-- No page is longer than what was asked for. -/
theorem endIndex_sub_le {s n : UInt32} (hn : n ≠ 0) (hfit : s.toNat + n.toNat < 2 ^ 32) :
    (endIndex s n).toNat - s.toNat ≤ n.toNat := by
  have hsum : (s + n).toNat = s.toNat + n.toNat := by
    rw [UInt32.toNat_add, Nat.mod_eq_of_lt hfit]
  unfold endIndex
  split_ifs with hend
  · rw [hsum, Nat.add_sub_cancel_left]
  · have hle : numberEntries ≤ s + n := UInt32.not_lt.mp fun hlt => hend ⟨hn, hlt⟩
    rw [UInt32.le_iff_toNat_le, hsum] at hle
    exact Nat.sub_le_iff_le_add'.mpr hle

theorem startIndex_within_iff (continousPoint : String) (n : UInt32) :
    startIndex lexicalCast continousPoint ≤ numberEntries ∧
        (startIndex lexicalCast continousPoint).toNat + n.toNat < 2 ^ 32 ↔
      WithinEntries lexicalCast continousPoint n := by
  have hzero : (0 : UInt32) ≤ numberEntries ∧ (0 : UInt32).toNat + n.toNat < 2 ^ 32 :=
    ⟨by decide, by simpa using n.toNat_lt⟩
  unfold startIndex WithinEntries
  by_cases hempty : continousPoint = ""
  · simpa [hempty] using hzero
  · cases hcast : lexicalCast continousPoint with
    | none => simpa [hempty, hcast] using hzero
    | some s => simp [hempty]

variable {lexicalCast ctx}

/-- What is allocated, and what is pushed then. -/
theorem readHValue_array (h : Allocates ctx) :
    (readHValue lexicalCast time ctx).dataValueArray = some
      { capacity := endIndex (startIndex lexicalCast ctx.continousPoint) ctx.numValuesPerNode -
          startIndex lexicalCast ctx.continousPoint
        values := (indices (startIndex lexicalCast ctx.continousPoint)
          (endIndex (startIndex lexicalCast ctx.continousPoint) ctx.numValuesPerNode)).map
            (entry P time) } := by
  unfold readHValue
  rw [if_neg h]

theorem bounded_of_within (h : Allocates ctx)
    (hd : WithinEntries lexicalCast ctx.continousPoint ctx.numValuesPerNode) :
    Bounded lexicalCast time ctx := by
  obtain ⟨hs, hfit⟩ := (startIndex_within_iff lexicalCast _ _).mpr hd
  have hstart := (le_endIndex_iff _ _).mpr ⟨hs, hfit⟩
  have hend := endIndex_le (startIndex lexicalCast ctx.continousPoint) ctx.numValuesPerNode
  refine ⟨hstart, hend, _, readHValue_array time h, ?_, fun hn => ?_, ?_⟩
  · rw [UInt32.le_iff_toNat_le, sub_toNat hstart]
    exact (Nat.sub_le ..).trans (UInt32.le_iff_toNat_le.mp hend)
  · rw [UInt32.le_iff_toNat_le, sub_toNat hstart]
    exact endIndex_sub_le hn hfit
  · rw [sub_toNat hstart, List.length_map, indices, List.length_range']

variable (lexicalCast ctx)

/-- A point that denotes the number behind the last index: the size that is asked for is
`2 ^ 32 - 1`. -/
theorem readHValue_underflow :
    let ctx : ApplicationHReadContext exactPlatform :=
      { nodeId := nodeIdString "DoubleValue" 1
        numValuesPerNode := 0
        continousPoint := "11"
        releaseContinuationPoints := false
        dataValueArray := none
        statusCode := .success }
    Allocates ctx ∧ ¬ Bounded lexicalCastUInt32 0 ctx ∧
      (readHValue lexicalCastUInt32 0 ctx).dataValueArray.map (fun array =>
        (array.capacity, array.values.length)) = some (4294967295, 0) := by
  intro ctx
  refine ⟨by simp [Allocates, ctx], fun h => ?_, by decide +kernel⟩
  have hle := h.start_le
  revert hle
  decide +kernel

/-- For every text, page size and release flag: where the result array is allocated, it is
bounded exactly if the text denotes no number or an index that the page size does not carry
beyond `2 ^ 32`. -/
theorem readHValue_bounded_iff :
    (Allocates ctx → Bounded lexicalCast time ctx) ↔
      (Allocates ctx → WithinEntries lexicalCast ctx.continousPoint ctx.numValuesPerNode) := by
  constructor
  · intro hbounded h
    exact (startIndex_within_iff lexicalCast _ _).mp
      ((le_endIndex_iff _ _).mp (hbounded h).start_le)
  · intro hd h
    exact bounded_of_within time h (hd h)

end ASNeGDemo.HistoricalAccess
