import Mathlib.Data.List.Sort
import Mathlib.Order.Basic

/-! Finite maps kept as strictly increasing association lists, with the two
operations of a C++ `std::map` that matter here: `find`, and an `insert` that
leaves an entry alone when its key is already present. -/
namespace OrderedMap

variable {κ : Type*} {α β : Type*} [LinearOrder κ]

/-- Insert at the place the order asks for; a present key keeps its value. -/
def insertEntry (k : κ) (v : α) : List (κ × α) → List (κ × α)
  | [] => [(k, v)]
  | e :: es =>
      if k < e.1 then (k, v) :: e :: es
      else if k = e.1 then e :: es
      else e :: insertEntry k v es

theorem mem_insertEntry {k : κ} {v : α} {es : List (κ × α)} {e : κ × α}
    (h : e ∈ insertEntry k v es) : e = (k, v) ∨ e ∈ es := by
  induction es with
  | nil => simpa [insertEntry] using h
  | cons a es ih =>
    simp only [insertEntry] at h
    split_ifs at h with hlt heq
    · simpa using h
    · exact Or.inr h
    · rcases List.mem_cons.mp h with rfl | h
      · exact Or.inr (by simp)
      · exact (ih h).imp_right (List.mem_cons_of_mem a)

theorem insertEntry_sorted {k : κ} {v : α} {es : List (κ × α)}
    (h : es.Pairwise (fun a b => a.1 < b.1)) :
    (insertEntry k v es).Pairwise (fun a b => a.1 < b.1) := by
  induction es with
  | nil => simp [insertEntry]
  | cons a es ih =>
    obtain ⟨ha, hes⟩ := List.pairwise_cons.mp h
    simp only [insertEntry]
    split_ifs with hlt heq
    · refine List.pairwise_cons.mpr ⟨?_, h⟩
      intro b hb
      rcases List.mem_cons.mp hb with rfl | hb
      · exact hlt
      · exact hlt.trans (ha b hb)
    · exact h
    · refine List.pairwise_cons.mpr ⟨?_, ih hes⟩
      intro b hb
      rcases mem_insertEntry hb with rfl | hb
      · exact lt_of_le_of_ne (not_lt.mp hlt) (Ne.symm heq)
      · exact ha b hb

end OrderedMap

/-- A finite map; the order of its keys is part of the type. -/
@[ext] structure OrderedMap (κ : Type*) (α : Type*) [LinearOrder κ] where
  entries : List (κ × α)
  sorted : entries.Pairwise (fun a b => a.1 < b.1)

namespace OrderedMap

variable {κ : Type*} {α β : Type*} [LinearOrder κ]

def empty : OrderedMap κ α := ⟨[], List.Pairwise.nil⟩

def keys (m : OrderedMap κ α) : List κ := m.entries.map Prod.fst

def find (m : OrderedMap κ α) (k : κ) : Option α := m.entries.lookup k

def insert (m : OrderedMap κ α) (k : κ) (v : α) : OrderedMap κ α :=
  ⟨insertEntry k v m.entries, insertEntry_sorted m.sorted⟩

/-- One `insert` after the other, in list order. -/
def insertAll (m : OrderedMap κ α) (es : List (κ × α)) : OrderedMap κ α :=
  es.foldl (fun m e => m.insert e.1 e.2) m

@[simp] theorem insertAll_nil (m : OrderedMap κ α) : m.insertAll [] = m := rfl

@[simp] theorem insertAll_cons (m : OrderedMap κ α) (e : κ × α) (es : List (κ × α)) :
    m.insertAll (e :: es) = (m.insert e.1 e.2).insertAll es := rfl

theorem insertAll_append (m : OrderedMap κ α) (es fs : List (κ × α)) :
    m.insertAll (es ++ fs) = (m.insertAll es).insertAll fs :=
  List.foldl_append

@[simp] theorem find_empty (k : κ) : (empty : OrderedMap κ α).find k = none := rfl

theorem keys_sorted (m : OrderedMap κ α) : m.keys.Pairwise (· < ·) :=
  List.pairwise_map.mpr m.sorted

theorem keys_nodup (m : OrderedMap κ α) : m.keys.Nodup :=
  m.keys_sorted.imp ne_of_lt

/-- Which keys there are says in which order. -/
theorem keys_ext {m : OrderedMap κ α} {m' : OrderedMap κ β} (h : ∀ k, k ∈ m.keys ↔ k ∈ m'.keys) :
    m.keys = m'.keys :=
  ((List.perm_ext_iff_of_nodup m.keys_nodup m'.keys_nodup).mpr h).eq_of_pairwise
    (fun _ _ _ _ hlt hgt => absurd hlt hgt.asymm) m.keys_sorted m'.keys_sorted

theorem lookup_of_mem {es : List (κ × α)} (hs : es.Pairwise (fun a b => a.1 < b.1))
    {k : κ} {v : α} (h : (k, v) ∈ es) : es.lookup k = some v := by
  induction es with
  | nil => simp at h
  | cons e es ih =>
    obtain ⟨he, hes⟩ := List.pairwise_cons.mp hs
    rcases List.mem_cons.mp h with rfl | h
    · simp
    · have hne : (k == e.1) = false := by simpa using (he _ h).ne'
      rw [List.lookup_cons, hne]
      exact ih hes h

theorem mem_of_lookup {es : List (κ × α)} {k : κ} {v : α} (h : es.lookup k = some v) :
    (k, v) ∈ es := by
  induction es with
  | nil => simp at h
  | cons e es ih =>
    obtain ⟨k', v'⟩ := e
    by_cases hk : k = k'
    · subst hk
      simp only [List.lookup_cons, beq_self_eq_true, Option.some.injEq] at h
      simp [h]
    · have hne : (k == k') = false := by simpa using hk
      rw [List.lookup_cons, hne] at h
      exact List.mem_cons_of_mem _ (ih h)

theorem mem_entries_iff (m : OrderedMap κ α) (k : κ) (v : α) :
    (k, v) ∈ m.entries ↔ m.find k = some v :=
  ⟨lookup_of_mem m.sorted, mem_of_lookup⟩

theorem lookup_insertEntry_self (k : κ) (v : α) {es : List (κ × α)}
    (hs : es.Pairwise (fun a b => a.1 < b.1)) :
    (insertEntry k v es).lookup k = some ((es.lookup k).getD v) := by
  induction es with
  | nil => simp [insertEntry]
  | cons e es ih =>
    obtain ⟨he, hes⟩ := List.pairwise_cons.mp hs
    rw [insertEntry]
    split_ifs with hlt heq
    · have hnone : (e :: es).lookup k = none := by
        rw [List.lookup_eq_none_iff]
        intro b hb
        rcases List.mem_cons.mp hb with rfl | hb
        · simpa using hlt.ne
        · simpa using (hlt.trans (he b hb)).ne
      rw [hnone]
      simp
    · obtain ⟨k', v'⟩ := e
      obtain rfl : k = k' := heq
      rw [List.lookup_cons, beq_self_eq_true]
      rfl
    · have hne : (k == e.1) = false := by simpa using heq
      rw [List.lookup_cons, List.lookup_cons, hne]
      exact ih hes

theorem lookup_insertEntry_ne {k k' : κ} (hk : k' ≠ k) (v : α) (es : List (κ × α)) :
    (insertEntry k v es).lookup k' = es.lookup k' := by
  have hne : (k' == k) = false := by simpa using hk
  induction es with
  | nil => simp [insertEntry, List.lookup_cons, hne]
  | cons e es ih =>
    simp only [insertEntry]
    split_ifs
    · rw [List.lookup_cons, hne]
    · rfl
    · rw [List.lookup_cons, List.lookup_cons, ih]

/-- The C++ rule: a present key keeps its value. -/
theorem find_insert_self (m : OrderedMap κ α) (k : κ) (v : α) :
    (m.insert k v).find k = some ((m.find k).getD v) :=
  lookup_insertEntry_self k v m.sorted

theorem find_insert_ne (m : OrderedMap κ α) {k k' : κ} (hk : k' ≠ k) (v : α) :
    (m.insert k v).find k' = m.find k' :=
  lookup_insertEntry_ne hk v m.entries

theorem find_insert (m : OrderedMap κ α) (k k' : κ) (v : α) :
    (m.insert k v).find k' = if k' = k then some ((m.find k).getD v) else m.find k' := by
  split_ifs with h
  · subst h
    exact m.find_insert_self k' v
  · exact m.find_insert_ne h v

/-- After any sequence of inserts a key has its old value, else the first one inserted. -/
theorem find_insertAll (m : OrderedMap κ α) (es : List (κ × α)) (k : κ) :
    (m.insertAll es).find k = (m.find k).or (es.lookup k) := by
  induction es generalizing m with
  | nil => simp
  | cons e es ih =>
    rw [insertAll_cons, ih, find_insert, List.lookup_cons]
    by_cases hk : k = e.1
    · subst hk
      cases m.find e.1 <;> simp
    · have hne : (k == e.1) = false := by simpa using hk
      simp [hk, hne]

theorem lookup_isSome_iff (es : List (κ × α)) (k : κ) :
    (es.lookup k).isSome ↔ k ∈ es.map Prod.fst := by
  induction es with
  | nil => simp
  | cons e es ih =>
    by_cases hk : k = e.1
    · simp [hk]
    · have hne : (k == e.1) = false := by simpa using hk
      rw [List.lookup_cons, hne, ih]
      simp [hk]

theorem mem_keys_iff (m : OrderedMap κ α) (k : κ) : k ∈ m.keys ↔ (m.find k).isSome :=
  (lookup_isSome_iff m.entries k).symm

theorem mem_keys_insertAll (m : OrderedMap κ α) (es : List (κ × α)) (k : κ) :
    k ∈ (m.insertAll es).keys ↔ k ∈ m.keys ∨ k ∈ es.map Prod.fst := by
  rw [mem_keys_iff, mem_keys_iff, find_insertAll, ← lookup_isSome_iff, Option.isSome_or,
    Bool.or_eq_true]

/-- A present key is not inserted again. -/
theorem insertEntry_of_isSome {k : κ} {es : List (κ × α)}
    (hs : es.Pairwise (fun a b => a.1 < b.1)) (h : (es.lookup k).isSome) (v : α) :
    insertEntry k v es = es := by
  induction es with
  | nil => cases h
  | cons e es ih =>
    obtain ⟨he, hes⟩ := List.pairwise_cons.mp hs
    unfold insertEntry
    by_cases hk : k = e.1
    · rw [if_neg (by rw [hk]; exact lt_irrefl _), if_pos hk]
    · have hne : (k == e.1) = false := by simpa using hk
      rw [List.lookup_cons, hne] at h
      obtain ⟨v', hv⟩ := Option.isSome_iff_exists.mp h
      have hlt : e.1 < k := he _ (mem_of_lookup hv)
      rw [if_neg hlt.not_gt, if_neg hk, ih hes h]

theorem insert_of_isSome {m : OrderedMap κ α} {k : κ} (h : (m.find k).isSome) (v : α) :
    m.insert k v = m :=
  OrderedMap.ext (insertEntry_of_isSome m.sorted h v)

/-- Entries whose keys are all there change nothing. -/
theorem insertAll_of_mem_keys {m : OrderedMap κ α} {es : List (κ × α)}
    (h : ∀ e ∈ es, e.1 ∈ m.keys) : m.insertAll es = m := by
  induction es with
  | nil => rfl
  | cons e es ih =>
    have hkey : (m.find e.1).isSome := (m.mem_keys_iff e.1).mp (h e List.mem_cons_self)
    rw [insertAll_cons, insert_of_isSome hkey]
    exact ih fun e' he' => h e' (List.mem_cons_of_mem e he')

theorem split_of_mem {es : List (κ × α)} (hs : es.Pairwise (fun a b => a.1 < b.1)) {k : κ}
    {v : α} (h : (k, v) ∈ es) :
    ∃ rest, es = es.takeWhile (fun e => e.1 ≠ k) ++ (k, v) :: rest ∧
      ∀ e ∈ es.takeWhile (fun e => e.1 ≠ k) ++ rest, e.1 ≠ k := by
  induction es with
  | nil => simp at h
  | cons e es ih =>
    obtain ⟨he, hes⟩ := List.pairwise_cons.mp hs
    rcases List.mem_cons.mp h with rfl | h
    · refine ⟨es, by simp, ?_⟩
      intro f hf
      exact (he f (by simpa using hf)).ne'
    · have hne : e.1 ≠ k := (he _ h).ne
      obtain ⟨rest, heq, hall⟩ := ih hes h
      rw [List.takeWhile_cons_of_pos (by simpa using hne)]
      refine ⟨rest, congrArg (e :: ·) heq, ?_⟩
      intro f hf
      rcases List.mem_cons.mp hf with rfl | hf
      · exact hne
      · exact hall f hf

/-- The walk over the entries up to a key, the entry of the key, and what comes after. -/
theorem entries_split (m : OrderedMap κ α) {k : κ} {v : α} (h : m.find k = some v) :
    ∃ rest, m.entries = m.entries.takeWhile (fun e => e.1 ≠ k) ++ (k, v) :: rest ∧
      ∀ e ∈ m.entries.takeWhile (fun e => e.1 ≠ k) ++ rest, e.1 ≠ k :=
  split_of_mem m.sorted ((m.mem_entries_iff k v).mpr h)

theorem lookup_zip {ks : List κ} (hn : ks.Nodup) {vs : List α} {i : ℕ} {k : κ} {v : α}
    (hk : ks[i]? = some k) (hv : vs[i]? = some v) : (ks.zip vs).lookup k = some v := by
  induction ks generalizing vs i with
  | nil => simp at hk
  | cons a ks ih =>
    obtain ⟨ha, hn⟩ := List.nodup_cons.mp hn
    cases vs with
    | nil => simp at hv
    | cons b vs =>
      cases i with
      | zero =>
        obtain rfl : a = k := by simpa using hk
        obtain rfl : b = v := by simpa using hv
        simp
      | succ i =>
        rw [List.getElem?_cons_succ] at hk hv
        have hne : (k == a) = false := by
          have : k ≠ a := fun heq => ha (heq ▸ List.mem_of_getElem? hk)
          simpa using this
        rw [List.zip_cons_cons, List.lookup_cons, hne]
        exact ih hn hk hv

end OrderedMap
