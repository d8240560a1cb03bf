import ASNeGDemo.General.Memory
import ASNeGDemo.Stack.Variant

/-!
Data values with shared elements. `TestStatusCode` hands string, text, guid and node id
objects around by pointer, so a variant holds the address of such an element. Elements of
the other types are held by value.
-/
namespace ASNeGDemo

/-- The types whose elements a variant holds by pointer. -/
def byReference : BuildInType → Bool
  | .string | .byteString | .localizedText | .guid | .nodeId | .qualifiedName => true
  | _ => false

/-- An element of a variant. -/
inductive Slot (P : Platform) (t : BuildInType) where
  | val (v : Value P t)
  | ref (a : ℕ)

/-- The element objects, by type. -/
abbrev Heap (P : Platform) := TypedMemory (Value P)

variable {P : Platform} {t : BuildInType}

namespace Slot

def read (h : Heap P) : Slot P t → Value P t
  | .val v => v
  | .ref a => (h t).read a

/-- The objects behind an element. -/
def refs : Slot P t → List (BuildInType × ℕ)
  | .val _ => []
  | .ref a => [(t, a)]

theorem read_of_touches {h h' : Heap P} {refs : List (BuildInType × ℕ)}
    (ht : TypedMemory.Touches refs h h') {slot : Slot P t} (hd : slot.refs.Disjoint refs) :
    slot.read h' = slot.read h := by
  cases slot with
  | val v => rfl
  | ref a => exact ht.read_eq fun ha => hd (List.mem_singleton_self _) ha

theorem read_of_extends {h h' : Heap P} (he : TypedMemory.Extends h h') {slot : Slot P t}
    (ha : ∀ r ∈ slot.refs, r.2 < (h r.1).next) : slot.read h' = slot.read h := by
  cases slot with
  | val v => rfl
  | ref a => exact he.read_eq (ha (t, a) (List.mem_singleton_self _))

/-- A new element with the given value. -/
def create (h : Heap P) (v : Value P t) : Slot P t × Heap P :=
  if byReference t then (.ref (h t).next, h.alloc t v) else (.val v, h)

/-- New elements, one after the other. -/
def createAll (h : Heap P) : List (Value P t) → List (Slot P t) × Heap P
  | [] => ([], h)
  | v :: vs =>
      let first := create h v
      let rest := createAll first.2 vs
      (first.1 :: rest.1, rest.2)

end Slot

namespace DataValue

/-- The data value that `copyTo` makes of a stored one. -/
def load (h : Heap P) (d : DataValue (Slot P)) : DataValue (Value P) := d.map fun _ => Slot.read h

/-- The objects behind a stored data value. -/
def refs (d : DataValue (Slot P)) : List (BuildInType × ℕ) :=
  match d.variant with
  | .null => []
  | .scalar _ slot => slot.refs
  | .array _ slots => slots.flatMap Slot.refs

/-- The stored data value that `copyTo` makes of one from outside, element by element. -/
def store (h : Heap P) (d : DataValue (Value P)) : DataValue (Slot P) × Heap P :=
  match d.variant with
  | .null => (⟨.null, d.statusCode, d.sourceTimestamp, d.serverTimestamp⟩, h)
  | .scalar t v =>
      let slot := Slot.create h v
      (⟨.scalar t slot.1, d.statusCode, d.sourceTimestamp, d.serverTimestamp⟩, slot.2)
  | .array t vs =>
      let slots := Slot.createAll h vs
      (⟨.array t slots.1, d.statusCode, d.sourceTimestamp, d.serverTimestamp⟩, slots.2)

theorem load_eq_of_read {h h' : Heap P} {d : DataValue (Slot P)}
    (hr : ∀ r ∈ d.refs, (h' r.1).read r.2 = (h r.1).read r.2) : d.load h' = d.load h := by
  have hslot : ∀ {t : BuildInType} {slot : Slot P t},
      (∀ r ∈ slot.refs, (h' r.1).read r.2 = (h r.1).read r.2) → slot.read h' = slot.read h := by
    intro t slot hs
    cases slot with
    | val v => rfl
    | ref a => exact hs (t, a) (List.mem_singleton_self _)
  obtain ⟨variant, _, _, _⟩ := d
  cases variant with
  | null => rfl
  | scalar t slot => simp only [load, map, Variant.map, hslot hr]
  | array t slots =>
    have hmap : slots.map (Slot.read h') = slots.map (Slot.read h) :=
      List.map_congr_left fun slot hs => hslot fun r hrs => hr r (List.mem_flatMap.mpr ⟨slot, hs, hrs⟩)
    simp only [load, map, Variant.map, hmap]

theorem load_of_touches {h h' : Heap P} {refs : List (BuildInType × ℕ)}
    (ht : TypedMemory.Touches refs h h') {d : DataValue (Slot P)} (hd : d.refs.Disjoint refs) :
    d.load h' = d.load h :=
  load_eq_of_read fun _ hr => ht.read_eq (hd hr)

theorem load_of_extends {h h' : Heap P} (he : TypedMemory.Extends h h') {d : DataValue (Slot P)}
    (ha : ∀ r ∈ d.refs, r.2 < (h r.1).next) : d.load h' = d.load h :=
  load_eq_of_read fun r hr => he.read_eq (ha r hr)

end DataValue

/-! ### New elements -/

/-- Objects made between two heaps, no two of them the same. -/
structure Made (h h' : Heap P) (refs : List (BuildInType × ℕ)) : Prop where
  grows : TypedMemory.Extends h h'
  fresh : ∀ r ∈ refs, (h r.1).next ≤ r.2 ∧ r.2 < (h' r.1).next
  nodup : refs.Nodup

theorem made_nil (h : Heap P) : Made h h [] := ⟨.refl h, by simp, List.nodup_nil⟩

theorem Made.append {h h' h'' : Heap P} {refs refs' : List (BuildInType × ℕ)}
    (hm : Made h h' refs) (hm' : Made h' h'' refs') : Made h h'' (refs ++ refs') := by
  refine ⟨hm.grows.trans hm'.grows, ?_, ?_⟩
  · intro r hr
    rcases List.mem_append.mp hr with hr | hr
    · exact ⟨(hm.fresh r hr).1, (hm.fresh r hr).2.trans_le (hm'.grows.next_le r.1)⟩
    · exact ⟨(hm.grows.next_le r.1).trans (hm'.fresh r hr).1, (hm'.fresh r hr).2⟩
  · refine hm.nodup.append hm'.nodup fun r hr hr' => ?_
    exact absurd (hm.fresh r hr).2 (not_lt.mpr (hm'.fresh r hr').1)

theorem Slot.create_made (h : Heap P) (v : Value P t) :
    Made h (create h v).2 (create h v).1.refs ∧ (create h v).1.read (create h v).2 = v := by
  by_cases hr : byReference t = true
  · simp only [create, hr, if_true, refs, read, TypedMemory.alloc_read_next, and_true]
    refine ⟨h.extends_alloc t v, ?_, List.nodup_singleton _⟩
    intro r hmem
    obtain rfl := List.mem_singleton.mp hmem
    exact ⟨le_rfl, by simp⟩
  · simp only [create, hr, refs, read]
    exact ⟨made_nil h, rfl⟩

theorem Slot.createAll_made (h : Heap P) (vs : List (Value P t)) :
    Made h (createAll h vs).2 ((createAll h vs).1.flatMap refs) ∧
      (createAll h vs).1.map (read (createAll h vs).2) = vs := by
  induction vs generalizing h with
  | nil => exact ⟨made_nil h, rfl⟩
  | cons v vs ih =>
    obtain ⟨hfirst, hread⟩ := create_made h v
    obtain ⟨hrest, hreads⟩ := ih (create h v).2
    refine ⟨hfirst.append hrest, ?_⟩
    have hkeep : (create h v).1.read (createAll (create h v).2 vs).2 = v :=
      (read_of_extends hrest.grows fun r hr => (hfirst.fresh r hr).2).trans hread
    simp only [createAll, List.map_cons, hkeep, hreads]

/-- A stored data value has new objects and reads back. -/
theorem DataValue.store_made (h : Heap P) (d : DataValue (Value P)) :
    Made h (store h d).2 (store h d).1.refs ∧ (store h d).1.load (store h d).2 = d := by
  obtain ⟨variant, _, _, _⟩ := d
  cases variant with
  | null => exact ⟨made_nil h, rfl⟩
  | scalar t v =>
    obtain ⟨hmade, hread⟩ := Slot.create_made h v
    refine ⟨hmade, ?_⟩
    simp only [store, load, map, Variant.map, hread]
  | array t vs =>
    obtain ⟨hmade, hread⟩ := Slot.createAll_made h vs
    refine ⟨hmade, ?_⟩
    simp only [store, load, map, Variant.map, hread]

end ASNeGDemo
