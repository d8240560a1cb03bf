import Mathlib
import ASNeGDemo.TestStatusCode.InitialValues

/-!
What sharing does in `TestStatusCode`. Where two nodes share a data value or a text object, the
visit of the one shows in the other as soon as the clock and the random numbers do not repeat, and
the text object that node 227 holds three times has one text afterwards where three were drawn.
So a tick updates a node once exactly if the node is not disturbed.
-/
namespace ASNeGDemo

/-! ### Draws that do not repeat -/

/-- The items of the stream have images of their own, and none has the image `v`. -/
structure Unseen {α β : Type*} (f : α → β) (v : β) (s : Stream' α) : Prop where
  injective : Function.Injective fun i => f (s.get i)
  ne : ∀ i, f (s.get i) ≠ v

namespace Unseen
variable {α β : Type*} {f : α → β} {v : β} {s : Stream' α}

theorem tail (h : Unseen f v s) : Unseen f v s.tail where
  injective _ _ hij := Nat.succ_injective (h.injective hij)
  ne i := h.ne (i + 1)

/-- Once an item is drawn, its image is not seen again. -/
theorem drawn (h : Unseen f v s) : Unseen f (f s.head) s.tail where
  injective := h.tail.injective
  ne i heq := absurd (h.injective heq) (Nat.succ_ne_zero i)

theorem head_ne (h : Unseen f v s) : f s.head ≠ v := h.ne 0

/-- Any sequence without repetitions comes to the image `v` at most once. -/
theorem exists_stream {g : ℕ → α} (hg : Function.Injective fun i => f (g i)) (v : β) :
    ∃ s, Unseen f v s := by
  by_cases hv : ∃ k, f (g k) = v
  · obtain ⟨k, hk⟩ := hv
    refine ⟨fun i => g (k + 1 + i), fun i j hij => Nat.add_left_cancel (hg hij), ?_⟩
    intro i hi
    have hsame : k + 1 + i = k := hg (hi.trans hk.symm)
    omega
  · exact ⟨g, hg, fun i hi => hv ⟨i, hi⟩⟩

end Unseen

/-- Draws leave the property of what there is still to draw. -/
structure Env.Inherited (I : Env → Prop) : Prop where
  rand : ∀ env, I env → I (ASNeGDemo.rand env).2
  universalTime : ∀ env, I env → I (ASNeGDemo.universalTime env).2

theorem Unseen.inherited_clock {β : Type*} (f : DateTime → β) (v : β) :
    Env.Inherited fun env => Unseen f v env.clock where
  rand _ h := h
  universalTime _ h := h.tail

theorem Unseen.inherited_rands {β : Type*} (f : ℕ → β) (v : β) :
    Env.Inherited fun env => Unseen f v env.rands where
  rand _ h := h.tail
  universalTime _ h := h

namespace TestStatusCode

variable {P : Platform} {I : Env → Prop}

section Inherited
variable (hI : Env.Inherited I)
include hI

theorem signedStep_inherited (span : ℤ) {env : Env} (h : I env) : I (signedStep P span env).2 := by
  have hsign : ∀ env, I env → I (mySign env).2 := by
    intro env h
    unfold mySign
    simp only [Sim.bind_apply]
    split_ifs <;> exact hI.rand env h
  have hpercent : ∀ env, I env → I (myPercent P env).2 := fun env h => hI.rand env h
  unfold signedStep
  split_ifs
  · exact hpercent _ (hsign env h)
  · exact hsign _ (hpercent env h)

theorem singleCase_inherited {t : BuildInType} {f : Value P t → Sim (Value P t)}
    (hf : singleCase P t = some f) (v : Value P t) {env : Env} (h : I env) : I (f v env).2 := by
  have hstep := fun span => signedStep_inherited (P := P) hI span h
  cases t with
  | unknown | raw => cases hf
  | boolean | guid => cases hf; exact h
  | float | double => cases hf; exact hstep _
  | int t => cases t <;> cases hf <;> first | exact h | exact hstep _
  | dateTime => cases hf; exact hI.universalTime env h
  | string | byteString | localizedText | nodeId | qualifiedName =>
    cases hf
    exact hI.rand env h

theorem arrayCase_inherited {t : BuildInType} {f : Value P t → Sim (Value P t)}
    (hf : arrayCase P t = some f) (v : Value P t) {env : Env} (h : I env) : I (f v env).2 := by
  cases t with
  | unknown | raw => cases hf
  | boolean | guid | float | double | int t => cases hf; exact h
  | dateTime => cases hf; exact hI.universalTime env h
  | string | byteString | localizedText | nodeId | qualifiedName =>
    cases hf
    exact hI.rand env h

end Inherited

theorem updateSlots_inherited {t : BuildInType} {f : Value P t → Sim (Value P t)}
    (hf : ∀ v env, I env → I (f v env).2) (heap : Heap P) (slots : List (Slot P t)) {env : Env}
    (h : I env) : I (updateSlots f heap slots env).2 := by
  induction slots generalizing heap env with
  | nil => exact h
  | cons slot slots ih =>
    have hslot : I (updateSlot f heap slot env).2 := by
      cases slot with
      | val v => exact hf v env h
      | ref a => exact hf _ env h
    exact ih _ hslot

/-- An update draws nothing, or reads the clock last and stamps the data value with the time. -/
theorem update_time (hI : Env.Inherited I) (statusCode : StatusCode) (heap : Heap P)
    (d : DataValue (Slot P)) {env : Env} (h : I env) :
    update statusCode heap d env = (none, env) ∨
      ∃ d' heap' env', update statusCode heap d env = (some (d', heap'), (universalTime env').2) ∧
        I env' ∧ d'.sourceTimestamp = env'.clock.head := by
  obtain ⟨variant, _, _, _⟩ := d
  cases variant with
  | null => exact .inl rfl
  | scalar t slot =>
    cases hc : singleCase P t with
    | none =>
      left
      simp only [update, updateSingle, Variant.isArray, hc]
      rfl
    | some f =>
      right
      simp only [update, updateSingle, Variant.isArray, hc]
      refine ⟨_, _, (updateSlot f heap slot env).2, rfl, ?_, rfl⟩
      cases slot with
      | val v => exact singleCase_inherited hI hc v h
      | ref a => exact singleCase_inherited hI hc _ h
  | array t slots =>
    by_cases he : (slots.isEmpty && !P.emptyArrayTyped) = true
    · left
      simp only [update, updateArray, Variant.isArray, he, if_true]
      rfl
    · cases hc : arrayCase P t with
      | none =>
        left
        simp only [update, updateArray, Variant.isArray, he, hc]
        rfl
      | some f =>
        right
        simp only [update, updateArray, Variant.isArray, he, hc]
        exact ⟨_, _, (updateSlots f heap slots env).2, rfl,
          updateSlots_inherited (fun v _ => arrayCase_inherited hI hc v) heap slots h, rfl⟩

/-! ### Text objects -/

/-- The text object an update writes, for a result of `rand()`. -/
def drawnText (r : ℕ) : LocalizedText := ⟨"de", "String" ++ toString r⟩

theorem drawnText_injective : Function.Injective drawnText := by
  intro r r' h
  have htext := congrArg LocalizedText.text h
  exact Nat.repr_inj.mp ((String.append_right_inj "String").mp htext)

section Texts
variable {f : Value P .localizedText → Sim (Value P .localizedText)}
  (hf : ∀ v env, f v env = (drawnText env.rands.head, (rand env).2)) (heap : Heap P) (a : ℕ)
  {old : LocalizedText}
include hf

theorem updateSlot_text (slot : Slot P .localizedText) {env : Env}
    (hold : Unseen drawnText old env.rands)
    (h : Unseen drawnText ((heap .localizedText).read a) env.rands) :
    let r := updateSlot f heap slot env
    Unseen drawnText old r.2.rands ∧
      Unseen drawnText ((r.1.2 .localizedText).read a) r.2.rands ∧
      ((BuildInType.localizedText, a) ∈ slot.refs ∨ (heap .localizedText).read a ≠ old →
        (r.1.2 .localizedText).read a ≠ old) := by
  intro r
  cases slot with
  | val v =>
    have hr : r = ((.val (f v env).1, heap), (f v env).2) := rfl
    rw [hr, hf]
    refine ⟨hold.tail, h.tail, ?_⟩
    rintro (hmem | hne)
    · exact absurd hmem List.not_mem_nil
    · exact hne
  | ref b =>
    have hr : r = ((.ref b, heap.write .localizedText b (f ((heap .localizedText).read b) env).1),
      (f ((heap .localizedText).read b) env).2) := rfl
    rw [hr, hf]
    by_cases hb : b = a
    · subst hb
      have hread := heap.write_read_self .localizedText b (drawnText env.rands.head)
      simp only [hread]
      exact ⟨hold.tail, h.drawn, fun _ => hold.head_ne⟩
    · have hother : (BuildInType.localizedText, a) ≠ (.localizedText, b) := by
        simpa using Ne.symm hb
      have hread := heap.write_read_of_ne hother (drawnText env.rands.head)
      simp only [hread]
      refine ⟨hold.tail, h.tail, ?_⟩
      rintro (hmem | hne)
      · exact absurd (Prod.mk.inj (List.mem_singleton.mp hmem)).2.symm hb
      · exact hne

/-- A loop over texts writes to each object of it a text that was not there before. -/
theorem updateSlots_text (slots : List (Slot P .localizedText)) {env : Env}
    (hold : Unseen drawnText old env.rands)
    (h : Unseen drawnText ((heap .localizedText).read a) env.rands) :
    let r := updateSlots f heap slots env
    Unseen drawnText ((r.1.2 .localizedText).read a) r.2.rands ∧
      ((BuildInType.localizedText, a) ∈ slots.flatMap Slot.refs ∨
          (heap .localizedText).read a ≠ old →
        (r.1.2 .localizedText).read a ≠ old) := by
  induction slots generalizing heap env with
  | nil => exact ⟨h, fun hne => hne.resolve_left List.not_mem_nil⟩
  | cons slot slots ih =>
    obtain ⟨hold', hfirst, hne⟩ := updateSlot_text hf heap a slot hold h
    obtain ⟨hrest, hne'⟩ := ih (updateSlot f heap slot env).1.2 hold' hfirst
    refine ⟨hrest, ?_⟩
    rintro (hmem | hcur)
    · rw [List.flatMap_cons, List.mem_append] at hmem
      rcases hmem with hmem | hmem
      · exact hne' (.inr (hne (.inl hmem)))
      · exact hne' (.inl hmem)
    · exact hne' (.inr (hne (.inr hcur)))

end Texts

theorem type_eq_of_mem_refs {t t' : BuildInType} {slot : Slot P t} {a : ℕ}
    (h : (t', a) ∈ slot.refs) : t' = t := by
  cases slot with
  | val v => exact absurd h List.not_mem_nil
  | ref b => exact (Prod.mk.inj (List.mem_singleton.mp h)).1

/-- An update of a data value with the text object writes a new text to it; any other leaves it. -/
theorem update_text {statusCode : StatusCode} {heap heap' : Heap P} {d d' : DataValue (Slot P)}
    {env : Env} (a : ℕ) (h : Unseen drawnText ((heap .localizedText).read a) env.rands)
    (hu : (update statusCode heap d env).1 = some (d', heap')) :
    Unseen drawnText ((heap' .localizedText).read a) (update statusCode heap d env).2.rands ∧
      ((BuildInType.localizedText, a) ∈ d.refs →
        (heap' .localizedText).read a ≠ (heap .localizedText).read a) := by
  by_cases hmem : (BuildInType.localizedText, a) ∈ d.refs
  · obtain ⟨variant, _, _, _⟩ := d
    cases variant with
    | null => exact absurd hmem List.not_mem_nil
    | scalar t slot =>
      obtain rfl := type_eq_of_mem_refs hmem
      obtain ⟨-, hunseen, hne⟩ := updateSlot_text (fun _ _ => rfl) heap a slot h h
      simp only [update, updateSingle, Variant.isArray, singleCase] at hu ⊢
      obtain ⟨rfl, rfl⟩ := Prod.mk.inj (Option.some.inj hu)
      exact ⟨hunseen, fun _ => hne (.inl hmem)⟩
    | array t slots =>
      obtain ⟨slot, hslot, hmem'⟩ := List.mem_flatMap.mp hmem
      obtain rfl := type_eq_of_mem_refs hmem'
      have he : (slots.isEmpty && !P.emptyArrayTyped) = false := by
        rw [List.isEmpty_eq_false_iff.mpr (List.ne_nil_of_mem hslot)]
        rfl
      obtain ⟨hunseen, hne⟩ := updateSlots_text (fun _ _ => rfl) heap a slots h h
      simp only [update, updateArray, Variant.isArray, he, arrayCase] at hu ⊢
      obtain ⟨rfl, rfl⟩ := Prod.mk.inj (Option.some.inj hu)
      exact ⟨hunseen, fun _ => hne (.inl hmem)⟩
  · obtain ⟨-, -, htouch⟩ := update_refs hu
    rw [htouch.read_eq hmem]
    refine ⟨?_, fun hmem' => absurd hmem' hmem⟩
    rcases update_time (Unseen.inherited_rands drawnText _) statusCode heap d h with
      hnone | ⟨_, _, env', hsome, hunseen, -⟩
    · rw [hnone] at hu
      cases hu
    · rw [hsome]
      exact hunseen

/-! ### Visits -/

theorem update_inherited (hI : Env.Inherited I) (statusCode : StatusCode) (heap : Heap P)
    (d : DataValue (Slot P)) {env : Env} (h : I env) : I (update statusCode heap d env).2 := by
  rcases update_time hI statusCode heap d h with hnone | ⟨_, _, env', hsome, h', -⟩
  · rw [hnone]
    exact h
  · rw [hsome]
    exact hI.universalTime env' h'

section Visits
variable (statusCode : StatusCode) (references : OrderedMap NodeId NodeRef) (live : NodeRef → Bool)

/-- What a visit draws is what its update draws. -/
theorem visit_rest (pass : Pass P) (entry : NodeId × ℕ) (env : Env) :
    (visit statusCode references live pass entry env).2 =
      if (liveReference references live entry.1).isSome then
        (update statusCode pass.heap (pass.cells.read entry.2) env).2
      else env := by
  unfold visit
  cases liveReference references live entry.1 with
  | none => rfl
  | some reference =>
    simp only [Sim.bind_apply]
    cases (update statusCode pass.heap (pass.cells.read entry.2) env).1 <;> rfl

theorem visit_inherited (hI : Env.Inherited I) (pass : Pass P) (entry : NodeId × ℕ) {env : Env}
    (h : I env) : I (visit statusCode references live pass entry env).2 := by
  rw [visit_rest]
  split_ifs
  · exact update_inherited hI statusCode pass.heap _ h
  · exact h

/-- Where the clock does not repeat, the visit of a node stamps its cell with a time it did not
have. -/
theorem visit_stamp (pass : Pass P) (entry : NodeId × ℕ) (cell : ℕ) {env : Env}
    (h : Unseen id (pass.cells.read cell).sourceTimestamp env.clock) :
    let r := visit statusCode references live pass entry env
    Unseen id (r.1.cells.read cell).sourceTimestamp r.2.clock ∧
      ((liveReference references live entry.1).isSome → pass.handled entry.2 = true →
        entry.2 = cell → (r.1.cells.read cell).sourceTimestamp ≠
          (pass.cells.read cell).sourceTimestamp) := by
  intro r
  have hinherited := Unseen.inherited_clock id (pass.cells.read cell).sourceTimestamp
  have hrest : Unseen id (pass.cells.read cell).sourceTimestamp r.2.clock :=
    visit_inherited statusCode references live hinherited pass entry h
  rcases visit_cases statusCode references live pass entry env with
    ⟨heq, hno⟩ | ⟨reference, d, heap, hr, hhandled, hu, heq⟩
  · rw [show r.1 = pass from heq]
    exact ⟨hrest, fun hlive hhandled => absurd ⟨hlive, hhandled⟩ hno⟩
  · rw [show r.1 = _ from heq]
    by_cases hc : entry.2 = cell
    · subst hc
      rw [pass.cells.write_read_self]
      rcases update_time hinherited statusCode pass.heap (pass.cells.read entry.2) h with
        hnone | ⟨d', heap', env', hsome, hunseen, htime⟩
      · rw [hnone] at hu
        cases hu
      · rw [hsome] at hu
        cases hu
        have hclock : r.2 = (universalTime env').2 := by
          rw [show r.2 = _ from visit_rest .., hr, hsome]
          rfl
        rw [htime, hclock]
        exact ⟨hunseen.drawn, fun _ _ _ => hunseen.head_ne⟩
    · rw [pass.cells.write_read_of_ne (Ne.symm hc)]
      exact ⟨hrest, fun _ _ hc' => absurd hc' hc⟩

/-- Where the random numbers do not repeat, the visit of a node with the text object writes a new
text to it. -/
theorem visit_text (pass : Pass P) (entry : NodeId × ℕ) (a : ℕ) {env : Env}
    (h : Unseen drawnText ((pass.heap .localizedText).read a) env.rands) :
    let r := visit statusCode references live pass entry env
    Unseen drawnText ((r.1.heap .localizedText).read a) r.2.rands ∧
      ((liveReference references live entry.1).isSome → pass.handled entry.2 = true →
        (BuildInType.localizedText, a) ∈ pass.refs entry.2 →
          (r.1.heap .localizedText).read a ≠ (pass.heap .localizedText).read a) := by
  intro r
  rcases visit_cases statusCode references live pass entry env with
    ⟨heq, hno⟩ | ⟨reference, d, heap, hr, hhandled, hu, heq⟩
  · have hrest := visit_inherited statusCode references live
      (Unseen.inherited_rands drawnText ((pass.heap .localizedText).read a)) pass entry h
    rw [show r.1 = pass from heq]
    exact ⟨hrest, fun hlive hhandled => absurd ⟨hlive, hhandled⟩ hno⟩
  · obtain ⟨hunseen, hne⟩ := update_text a h hu
    have hrest : r.2 = _ := visit_rest statusCode references live pass entry env
    rw [hr, Option.isSome_some, if_pos rfl] at hrest
    rw [show r.1 = _ from heq, hrest]
    exact ⟨hunseen, fun _ _ => hne⟩

end Visits

/-! ### Ticks -/

section Ticks
variable {s : State P} {live : NodeRef → Bool}

theorem switchStatus_inherited (hI : Env.Inherited I) {env : Env} (h : I env) :
    I (switchStatus s env).2 := by
  unfold switchStatus
  simp only [Sim.bind_apply]
  split_ifs
  · exact hI.universalTime _ (hI.universalTime env h)
  · exact hI.universalTime env h

theorem passOver_inherited (hI : Env.Inherited I) (entries : List (NodeId × ℕ)) {env : Env}
    (h : I env) : I (passOver s live entries env).2 :=
  passOver_preserves (fun _ => I) (fun pass entry _ => visit_inherited _ _ live hI pass entry)
    (switchStatus_inherited hI h)

/-- Two nodes with one cell: the visit of the one stamps the data value of the other. -/
theorem not_oneUpdate_of_cell {m n : NodeId} {cell : ℕ} (hne : m ≠ n)
    (hm : s.valueMap.find m = some cell) (hn : s.valueMap.find n = some cell)
    (hhandled : handled P (s.cells.read cell) = true)
    (hlive : (liveReference s.baseNodeClassWMap live m).isSome) : ¬ OneUpdate s live n := by
  intro h
  obtain ⟨clock, hclock⟩ := Unseen.exists_stream (f := (id : DateTime → DateTime))
    (g := fun i : ℕ => (i : ℤ)) Nat.cast_injective (s.cells.read cell).sourceTimestamp
  let env : Env := ⟨Stream'.const 0, clock⟩
  have hstart : Unseen id (s.cells.read cell).sourceTimestamp env.clock := hclock
  obtain ⟨rest, hsplit, -⟩ := s.valueMap.entries_split hm
  generalize s.valueMap.entries.takeWhile (fun e => e.1 ≠ m) = walked at hsplit
  have hunseen : Unseen id ((passOver s live walked env).1.cells.read cell).sourceTimestamp
      (passOver s live walked env).2.clock := by
    refine passOver_preserves
      (fun pass env => Unseen id (pass.cells.read cell).sourceTimestamp env.clock) ?_ ?_
    · exact fun pass entry _ h => (visit_stamp _ _ live pass entry cell h).1
    · exact switchStatus_inherited (Unseen.inherited_clock id _) hstart
  have hstill : (passOver s live walked env).1.handled cell = true :=
    ((passOver_sameLayout s live walked env).handled_eq cell).trans hhandled
  have hsame := h.own_visit env walked (m, cell) rest hsplit hne cell hn
  rw [passOver_concat] at hsame
  have hstamp := (visit_stamp (switchStatus s env).1.statusCode s.baseNodeClassWMap live
    (passOver s live walked env).1 (m, cell) cell hunseen).2 hlive hstill rfl
  have htime := congrArg DataValue.sourceTimestamp hsame
  exact hstamp htime

/-- A data value shows every object it holds. -/
theorem read_eq_of_load_eq {heap heap' : Heap P} {d : DataValue (Slot P)}
    (h : d.load heap = d.load heap') {t : BuildInType} {a : ℕ} (ha : (t, a) ∈ d.refs) :
    (heap t).read a = (heap' t).read a := by
  obtain ⟨variant, _, _, _⟩ := d
  have hvariant := congrArg DataValue.variant h
  cases variant with
  | null => exact absurd ha List.not_mem_nil
  | scalar t' slot =>
    obtain rfl := type_eq_of_mem_refs ha
    cases slot with
    | val v => exact absurd ha List.not_mem_nil
    | ref b =>
      obtain rfl := (Prod.mk.inj (List.mem_singleton.mp ha)).2
      exact eq_of_heq (Variant.scalar.inj hvariant).2
  | array t' slots =>
    obtain ⟨slot, hslot, ha⟩ := List.mem_flatMap.mp ha
    obtain rfl := type_eq_of_mem_refs ha
    cases slot with
    | val v => exact absurd ha List.not_mem_nil
    | ref b =>
      obtain rfl := (Prod.mk.inj (List.mem_singleton.mp ha)).2
      have hmap := eq_of_heq (Variant.array.inj hvariant).2
      exact List.map_inj_left.mp hmap _ hslot

theorem handled_of_mem_refs {d : DataValue (Slot P)} {a : ℕ}
    (ha : (BuildInType.localizedText, a) ∈ d.refs) : handled P d = true := by
  obtain ⟨variant, _, _, _⟩ := d
  cases variant with
  | null => exact absurd ha List.not_mem_nil
  | scalar t slot =>
    obtain rfl := type_eq_of_mem_refs ha
    rfl
  | array t slots =>
    obtain ⟨slot, hslot, ha⟩ := List.mem_flatMap.mp ha
    obtain rfl := type_eq_of_mem_refs ha
    have he : slots.isEmpty = false := List.isEmpty_eq_false_iff.mpr (List.ne_nil_of_mem hslot)
    simp only [handled, Variant.variantType, he]
    rfl

/-- Two cells with one text object: the visit of the one writes the text the other shows. -/
theorem not_oneUpdate_of_object {m n : NodeId} {cell cell' a : ℕ} (hne : cell ≠ cell')
    (hm : s.valueMap.find m = some cell) (hn : s.valueMap.find n = some cell')
    (ha : (BuildInType.localizedText, a) ∈ s.refs cell)
    (ha' : (BuildInType.localizedText, a) ∈ s.refs cell')
    (hlive : (liveReference s.baseNodeClassWMap live m).isSome) : ¬ OneUpdate s live n := by
  intro h
  have hnodes : m ≠ n := by
    rintro rfl
    exact hne (Option.some.inj (hm.symm.trans hn))
  obtain ⟨rands, hrands⟩ := Unseen.exists_stream (f := drawnText) (g := id) drawnText_injective
    ((s.heap .localizedText).read a)
  let env : Env := ⟨rands, Stream'.const 0⟩
  have hstart : Unseen drawnText ((s.heap .localizedText).read a) env.rands := hrands
  obtain ⟨rest, hsplit, -⟩ := s.valueMap.entries_split hm
  generalize s.valueMap.entries.takeWhile (fun e => e.1 ≠ m) = walked at hsplit
  have hunseen : Unseen drawnText (((passOver s live walked env).1.heap .localizedText).read a)
      (passOver s live walked env).2.rands := by
    refine passOver_preserves
      (fun pass env => Unseen drawnText ((pass.heap .localizedText).read a) env.rands) ?_ ?_
    · exact fun pass entry _ h => (visit_text _ _ live pass entry a h).1
    · exact switchStatus_inherited (Unseen.inherited_rands drawnText _) hstart
  have hlayout := passOver_sameLayout s live walked env
  have hsame := h.own_visit env walked (m, cell) rest hsplit hnodes cell' hn
  rw [passOver_concat] at hsame
  generalize passOver s live walked env = walked' at hunseen hlayout hsame
  have hrefs : (BuildInType.localizedText, a) ∈ walked'.1.refs cell := by
    rw [hlayout.refs_eq]
    exact ha
  have hrefs' : (BuildInType.localizedText, a) ∈ walked'.1.refs cell' := by
    rw [hlayout.refs_eq]
    exact ha'
  have htext := (visit_text (switchStatus s env).1.statusCode s.baseNodeClassWMap live walked'.1
    (m, cell) a hunseen).2 hlive (handled_of_mem_refs hrefs) hrefs
  have hcell : (visit (switchStatus s env).1.statusCode s.baseNodeClassWMap live walked'.1
      (m, cell) walked'.2).1.cells.read cell' = walked'.1.cells.read cell' := by
    rcases visit_cases (switchStatus s env).1.statusCode s.baseNodeClassWMap live walked'.1
      (m, cell) walked'.2 with ⟨heq, -⟩ | ⟨_, _, _, -, -, -, heq⟩
    · rw [heq]
    · rw [heq]
      exact walked'.1.cells.write_read_of_ne hne.symm _
  unfold Pass.value at hsame
  rw [hcell] at hsame
  exact htext (read_eq_of_load_eq hsame hrefs')

end Ticks

/-! ### The pointers behind a node -/

/-- The variant behind a node, with its pointers. -/
def State.stored (s : State P) (n : NodeId) : Option (Variant (Slot P)) :=
  (s.valueMap.find n).map fun cell => (s.cells.read cell).variant

/-- All elements are held by pointer. -/
def Pointers : Variant (Slot P) → Prop
  | .null => True
  | .scalar _ slot => ∃ a, slot = .ref a
  | .array _ slots => ∀ slot ∈ slots, ∃ a, slot = .ref a

theorem updateSlots_pointers {t : BuildInType} (f : Value P t → Sim (Value P t)) (heap : Heap P)
    {slots : List (Slot P t)} (h : ∀ slot ∈ slots, ∃ a, slot = .ref a) (env : Env) :
    (updateSlots f heap slots env).1.1 = slots := by
  induction slots generalizing heap env with
  | nil => rfl
  | cons slot slots ih =>
    obtain ⟨a, rfl⟩ := h _ List.mem_cons_self
    have hslots : ∀ slot ∈ slots, ∃ a, slot = .ref a := fun slot hslot =>
      h slot (List.mem_cons_of_mem _ hslot)
    exact congrArg (Slot.ref a :: ·) (ih _ hslots _)

/-- An update of pointers keeps the pointers. -/
theorem update_pointers {statusCode : StatusCode} {heap heap' : Heap P} {d d' : DataValue (Slot P)}
    {env : Env} (h : Pointers d.variant)
    (hu : (update statusCode heap d env).1 = some (d', heap')) : d'.variant = d.variant := by
  obtain ⟨variant, _, _, _⟩ := d
  cases variant with
  | null => cases hu
  | scalar t slot =>
    obtain ⟨a, rfl⟩ := h
    cases hc : singleCase P t with
    | none =>
      simp only [update, updateSingle, Variant.isArray, hc] at hu
      cases hu
    | some f =>
      simp only [update, updateSingle, Variant.isArray, hc] at hu
      obtain ⟨rfl, -⟩ := Prod.mk.inj (Option.some.inj hu)
      rfl
  | array t slots =>
    by_cases he : (slots.isEmpty && !P.emptyArrayTyped) = true
    · simp only [update, updateArray, Variant.isArray, he, if_true] at hu
      cases hu
    · cases hc : arrayCase P t with
      | none =>
        simp only [update, updateArray, Variant.isArray, he, hc] at hu
        cases hu
      | some f =>
        simp only [update, updateArray, Variant.isArray, he, hc] at hu
        obtain ⟨rfl, -⟩ := Prod.mk.inj (Option.some.inj hu)
        exact congrArg (Variant.array t) (updateSlots_pointers f heap h env)

theorem visit_pointers (statusCode : StatusCode) (references : OrderedMap NodeId NodeRef)
    (live : NodeRef → Bool) (pass : Pass P) (entry : NodeId × ℕ) (env : Env) {cell : ℕ}
    (h : Pointers (pass.cells.read cell).variant) :
    ((visit statusCode references live pass entry env).1.cells.read cell).variant =
      (pass.cells.read cell).variant := by
  rcases visit_cases statusCode references live pass entry env with
    ⟨heq, -⟩ | ⟨_, d, heap, -, -, hu, heq⟩
  · rw [heq]
  · rw [heq]
    by_cases hc : entry.2 = cell
    · subst hc
      exact (congrArg DataValue.variant (pass.cells.write_read_self _ d)).trans
        (update_pointers h hu)
    · exact congrArg DataValue.variant (pass.cells.write_read_of_ne (Ne.symm hc) d)

section Stored
variable {s : State P}

theorem timerLoop_stored (live : NodeRef → Bool) (env : Env) {n : NodeId} {v : Variant (Slot P)}
    (h : s.stored n = some v) (hv : Pointers v) : (timerLoop s live env).1.1.stored n = some v := by
  obtain ⟨cell, hn, hcell⟩ := Option.map_eq_some_iff.mp h
  obtain ⟨hmap, -, hcells, -⟩ := timerLoop_apply s live env
  have hwalked : ((passOver s live s.valueMap.entries env).1.cells.read cell).variant = v := by
    refine passOver_preserves (fun pass _ => (pass.cells.read cell).variant = v) ?_ hcell
    intro pass entry env hpass
    exact (visit_pointers _ _ live pass entry env (hpass.symm ▸ hv)).trans hpass
  unfold State.stored
  rw [hmap, hn, hcells, Option.map_some, hwalked]

theorem writeValue_stored {m n : NodeId} (hne : s.valueMap.find m ≠ s.valueMap.find n)
    (dataValue : DataValue (Value P)) : (writeValue s m dataValue).1.stored n = s.stored n := by
  unfold writeValue
  cases hm : s.valueMap.find m with
  | none => rfl
  | some cell =>
    cases hn : s.valueMap.find n with
    | none => simp only [State.stored, hn, Option.map_none]
    | some cell' =>
      have hc : cell' ≠ cell := fun hc => hne (by rw [hm, hn, hc])
      simp only [State.stored, hn, Option.map_some, Memory.write_read_of_ne _ hc]

theorem Holds.stored {n : NodeId} {cell : ℕ} {d : DataValue (Slot P)} (h : Holds s n cell d) :
    s.stored n = some d.variant := by
  unfold State.stored
  rw [h.find, Option.map_some, h.read]

/-- After `createValueMap` node 226 has a text object, and node 227 has it three times. -/
theorem createValueMap_texts (hempty : s.valueMap = .empty) (env : Env) :
    ∃ a, (createValueMap s env).1.stored (nodeId 226 s.namespaceIndex) =
        some (.scalar .localizedText (.ref a)) ∧
      (createValueMap s env).1.stored (nodeId 227 s.namespaceIndex) =
        some (.array .localizedText [.ref a, .ref a, .ref a]) := by
  let Texts : State P → Prop := fun s' => ∃ a cell cell' d d',
    (d.variant = .scalar .localizedText (.ref a) ∧
      Holds s' (nodeId 226 s.namespaceIndex) cell d) ∧
    d'.variant = .array .localizedText [.ref a, .ref a, .ref a] ∧
      Holds s' (nodeId 227 s.namespaceIndex) cell' d'
  have htexts : Texts (createValueMap s env).1 := by
    unfold createValueMap
    apply Sim.bind_spec (Filled (List.range' 200 21) s) (insertValues_filled (valuesTo220 P) s env)
    intro s₁ env h₁
    apply Sim.bind_spec (Filled (List.range' 200 22) s) (h₁.append (insertNew_filled s₁ 221 _ _))
    intro s₂ env h₂
    have h₃ := h₂.append (insertString_filled s₁.cells.next s₂)
    apply Sim.bind_spec (Filled (List.range' 200 26) s)
      (h₃.append (insertValues_filled (values223To225 P) _ _))
    intro s₄ env h₄
    let ltext := (s₄.heap .localizedText).next
    apply Sim.bind_spec fun s₅ => Filled (List.range' 200 27) s s₅ ∧ ∃ d,
      d.variant = .scalar .localizedText (.ref ltext) ∧
        Holds s₅ (nodeId 226 s.namespaceIndex) s₄.cells.next d
    · have hnone : s₄.valueMap.find (nodeId 226 s₄.namespaceIndex) = none :=
        h₄.find_of_empty hempty (by decide)
      have hfind := insertNew_find hnone (return .scalar .localizedText ⟨"de", "text"⟩) env
      rw [h₄.namespaceIndex] at hfind
      exact ⟨h₄.append (insertNew_filled s₄ 226 _ env), _, rfl, hfind, Nat.lt_succ_self _,
        s₄.cells.alloc_read_next _⟩
    rintro s₅ env ⟨h₅, d, hd, hholds⟩
    apply Sim.bind_spec fun s₆ => Texts s₆
    · have hnone : s₅.valueMap.find (nodeId 227 s₅.namespaceIndex) = none :=
        h₅.find_of_empty hempty (by decide)
      refine ⟨ltext, s₄.cells.next, s₅.cells.next, d, _, ⟨hd, hholds.insertTextArray ltext env⟩,
        rfl, ?_, Nat.lt_succ_self _, s₅.cells.alloc_read_next _⟩
      refine (find_insertCell _ 227 _ _).trans ?_
      rw [if_pos (by rw [h₅.namespaceIndex])]
      exact congrArg (fun o => some (Option.getD o s₅.cells.next)) hnone
    rintro s₆ env ⟨a, cell, cell', d, d', ⟨hd, hholds⟩, hd', hholds'⟩
    apply Sim.bind_spec fun s₇ => Texts s₇
    · exact ⟨a, cell, cell', d, d', ⟨hd, hholds.insertDateTimes env⟩, hd',
        hholds'.insertDateTimes env⟩
    rintro s₇ env ⟨a, cell, cell', d, d', ⟨hd, hholds⟩, hd', hholds'⟩
    exact ⟨a, cell, cell', d, d', ⟨hd, hholds.insertValues (valuesFrom230 P) env⟩, hd',
      hholds'.insertValues (valuesFrom230 P) env⟩
  obtain ⟨a, cell, cell', d, d', ⟨hd, hholds⟩, hd', hholds'⟩ := htexts
  refine ⟨a, ?_, ?_⟩
  · rw [hholds.stored, hd]
  · rw [hholds'.stored, hd']

end Stored

/-! ### Runs -/

section Runs
variable (env : Env) (ns : ℕ) (references : OrderedMap NodeId NodeRef)

theorem created_texts : ∃ a, (created P env ns references).stored (nodeId 226 ns) =
      some (.scalar .localizedText (.ref a)) ∧
    (created P env ns references).stored (nodeId 227 ns) =
      some (.array .localizedText [.ref a, .ref a, .ref a]) := by
  have htexts := createValueMap_texts (named_valueMap (P := P) env ns) (construct P env).2
  rw [named_namespaceIndex] at htexts
  unfold created
  generalize (createValueMap (named P env ns) (construct P env).2).1 = s at htexts ⊢
  exact htexts

/-- Ticks and writes to other cells leave the pointers behind a node. -/
theorem reached_stored {es : List (Event P)} {n : NodeId} {v : Variant (Slot P)}
    (h : (created P env ns references).stored n = some v) (hv : Pointers v)
    (hpair : ∀ m, ¬ Pair 221 222 ns m n) (hes : Untouched es n) :
    (reached P env ns references es).stored n = some v := by
  induction es using List.reverseRecOn with
  | nil =>
    rw [reached, Runs.run_nil]
    exact h
  | append_singleton es e ih =>
    have hbefore := ih fun d hd => hes d (List.mem_append_left _ hd)
    rw [reached_append]
    cases e with
    | readValue m => exact hbefore
    | timerLoop live env' => exact timerLoop_stored live env' hbefore hv
    | writeValue m d =>
      refine (writeValue_stored ?_ d).trans hbefore
      intro heq
      obtain ⟨cell, hn, -⟩ := Option.map_eq_some_iff.mp hbefore
      rcases (reached_layout env ns references es).injective (heq.trans hn) hn with rfl | hshared
      · exact hes d (List.mem_append_right _ (List.mem_singleton_self _))
      · exact hpair m hshared

/-- Three elements that are one object are read as one text. -/
theorem value_of_stored {s : State P} {n : NodeId} {a : ℕ}
    (h : s.stored n = some (.array .localizedText [.ref a, .ref a, .ref a])) :
    ∃ d, s.value n = some d ∧ ∃ text, d.variant = .array .localizedText [text, text, text] := by
  obtain ⟨cell, hn, hcell⟩ := Option.map_eq_some_iff.mp h
  refine ⟨(s.cells.read cell).load s.heap, ?_, (s.heap .localizedText).read a, ?_⟩
  · rw [State.value, hn, Option.map_some]
  · rw [DataValue.load, DataValue.map_variant, hcell]
    rfl

/-- Three texts are drawn for the object that three elements share. -/
theorem not_oneUpdate_of_repeated {s : State P} {live : NodeRef → Bool} {n : NodeId} {a : ℕ}
    (h : s.stored n = some (.array .localizedText [.ref a, .ref a, .ref a]))
    (hlive : (liveReference s.baseNodeClassWMap live n).isSome) : ¬ OneUpdate s live n := by
  intro hone
  obtain ⟨rands, hrands⟩ := Unseen.exists_stream (f := drawnText) (g := id) drawnText_injective
    ⟨"", ""⟩
  let draws : Env := ⟨rands, Stream'.const 0⟩
  have hstart : Unseen drawnText ⟨"", ""⟩ draws.rands := hrands
  have hunseen : Unseen drawnText ⟨"", ""⟩ (drawsFor s live n draws).rands :=
    passOver_inherited (Unseen.inherited_rands drawnText _) _ hstart
  obtain ⟨d, hd, text, htexts⟩ := value_of_stored h
  obtain ⟨d', hd', text', htexts'⟩ := value_of_stored (timerLoop_stored live draws h
    (by simp [Pointers]))
  have hvalue := hone.updated draws
  rw [hd', hd, Option.map_some, visited, if_pos hlive] at hvalue
  generalize drawsFor s live n draws = left at hunseen hvalue
  generalize (switchStatus s draws).1.statusCode = statusCode at hvalue
  obtain ⟨variant, _, _, _⟩ := d
  obtain rfl : variant = _ := htexts
  have hvariant := congrArg DataValue.variant (Option.some.inj hvalue)
  have hdrawn : d'.variant = .array .localizedText [drawnText left.rands.head,
      drawnText left.rands.tail.head, drawnText left.rands.tail.tail.head] := hvariant
  rw [htexts'] at hdrawn
  have hlist := eq_of_heq (Variant.array.inj hdrawn).2
  obtain ⟨hfirst, hothers⟩ := List.cons.inj hlist
  have hsecond := (List.cons.inj hothers).1
  exact hunseen.drawn.head_ne (hsecond.symm.trans hfirst)

/-- Nodes that are written a text object in common, as different variants, disturb each other. -/
theorem not_oneUpdate_of_stored {s : State P} {live : NodeRef → Bool} {m n : NodeId} {a : ℕ}
    {v v' : Variant (Slot P)} (hm : s.stored m = some v) (hn : s.stored n = some v') (hne : v ≠ v')
    (ha : (BuildInType.localizedText, a) ∈ (⟨v, .success, 0, 0⟩ : DataValue (Slot P)).refs)
    (ha' : (BuildInType.localizedText, a) ∈ (⟨v', .success, 0, 0⟩ : DataValue (Slot P)).refs)
    (hlive : (liveReference s.baseNodeClassWMap live m).isSome) : ¬ OneUpdate s live n := by
  obtain ⟨cell, hcell, rfl⟩ := Option.map_eq_some_iff.mp hm
  obtain ⟨cell', hcell', rfl⟩ := Option.map_eq_some_iff.mp hn
  have hcells : cell ≠ cell' := fun hc => hne (by rw [hc])
  exact not_oneUpdate_of_object hcells hcell hcell' ha ha' hlive

/-- Whatever disturbs a node shows in it for some draws. -/
theorem not_oneUpdate_of_disturbed {es : List (Event P)} {live : NodeRef → Bool} {n : NodeId}
    (h : Disturbed ns es (reached P env ns references es) live n) :
    ¬ OneUpdate (reached P env ns references es) live n := by
  obtain ⟨hmap, -⟩ := reached_maps env ns references es
  obtain ⟨a, h226, h227⟩ := created_texts (P := P) env ns references
  have hapart : ∀ {i}, 222 < i → ∀ m, ¬ Pair 221 222 ns m (nodeId i ns) := by
    rintro i hi m (⟨-, heq⟩ | ⟨-, heq⟩) <;> rw [nodeId_inj] at heq <;> omega
  have htext : Untouched es (nodeId 226 ns) → (reached P env ns references es).stored
      (nodeId 226 ns) = some (.scalar .localizedText (.ref a)) := fun hes =>
    reached_stored env ns references h226 ⟨a, rfl⟩ (hapart (by norm_num)) hes
  have htexts : Untouched es (nodeId 227 ns) → (reached P env ns references es).stored
      (nodeId 227 ns) = some (.array .localizedText [.ref a, .ref a, .ref a]) := fun hes =>
    reached_stored env ns references h227 (by simp [Pointers]) (hapart (by norm_num)) hes
  rcases h with ⟨m, d, hpair, hd, hhandled, hlive⟩ | ⟨m, hpair, hm, hn, hlive⟩ | ⟨rfl, hn, hlive⟩
  · have hsame : (reached P env ns references es).valueMap.find m =
        (reached P env ns references es).valueMap.find n := by
      rw [hmap]
      have htwins := (created_layout (P := P) env ns references).same_cell
      rcases hpair with ⟨rfl, rfl⟩ | ⟨rfl, rfl⟩
      · exact htwins
      · exact htwins.symm
    have hne : m ≠ n := by
      rcases hpair with ⟨rfl, rfl⟩ | ⟨rfl, rfl⟩ <;> rw [Ne, nodeId_inj] <;> decide
    obtain ⟨cell, hn, rfl⟩ := Option.map_eq_some_iff.mp hd
    have hcell : handled P ((reached P env ns references es).cells.read cell) = true := by
      rw [← hhandled]
      simp only [handled, DataValue.load, DataValue.map_variant, Variant.map_variantType]
    exact not_oneUpdate_of_cell hne (hsame.trans hn) hn hcell hlive
  · rcases hpair with ⟨rfl, rfl⟩ | ⟨rfl, rfl⟩
    · exact not_oneUpdate_of_stored (htext hm) (htexts hn) (by simp) (List.mem_singleton_self _)
        List.mem_cons_self hlive
    · exact not_oneUpdate_of_stored (htexts hm) (htext hn) (by simp) List.mem_cons_self
        (List.mem_singleton_self _) hlive
  · exact not_oneUpdate_of_repeated (htexts hn) hlive

/-- In every state of every run: the nodes are those of `createValueMap`, a write shows in
another node exactly if the two are the nodes 221 and 222, and a tick updates a node once, whatever
it draws, exactly if the node is not disturbed. -/
theorem distinct_values (es : List (Event P)) :
    (∀ n, n ∈ (reached P env ns references es).valueMap.keys ↔
      n ∈ (List.range' 200 36).map (nodeId · ns)) ∧
    (∀ m n, m ∈ (reached P env ns references es).valueMap.keys → m ≠ n →
      (WriteIsolated (reached P env ns references es) m n ↔ ¬ Pair 221 222 ns m n)) ∧
    ∀ live n, OneUpdate (reached P env ns references es) live n ↔
      ¬ Disturbed ns es (reached P env ns references es) live n := by
  have hlayout := reached_layout env ns references es
  obtain ⟨hmap, -⟩ := reached_maps env ns references es
  refine ⟨?_, ?_, ?_⟩
  · intro n
    rw [hmap]
    exact mem_keys_created env ns references n
  · intro m n hm hne
    rw [writeIsolated_iff hlayout hm, not_iff_not]
    constructor
    · intro heq
      obtain ⟨cell, hc⟩ := Option.isSome_iff_exists.mp
        ((OrderedMap.mem_keys_iff _ m).mp hm)
      exact (hlayout.injective hc (heq ▸ hc)).resolve_left hne
    · have hsame := (created_layout (P := P) env ns references).same_cell
      rw [← hmap] at hsame
      rintro (⟨rfl, rfl⟩ | ⟨rfl, rfl⟩)
      · exact hsame
      · exact hsame.symm
  · intro live n
    refine ⟨fun hone hdisturbed => not_oneUpdate_of_disturbed env ns references hdisturbed hone, ?_⟩
    intro hno
    have hdead : ∀ o : Option NodeRef, ¬ o.isSome → o = none := by simp
    apply hlayout.oneUpdate
    · intro m d hpair hvalue hhandled
      exact hdead _ fun hlive => hno (Or.inl ⟨m, d, hpair, hvalue, hhandled, hlive⟩)
    · intro m hpair
      exact hdead _ fun hlive => hno (Or.inr (Or.inl ⟨m, hpair.1, hpair.2.1, hpair.2.2, hlive⟩))
    · intro hself
      exact hdead _ fun hlive => hno (Or.inr (Or.inr ⟨hself.1, hself.2, hlive⟩))

/-- The string of node 222 went into the data value of node 221: a write to the one is read at the
other, and so is a tick at the one, although the other has no reference. -/
theorem write_reaches_string_node :
    let references : OrderedMap NodeId NodeRef := OrderedMap.empty.insert (nodeId 221 2) 0
    let s := reached exactPlatform ⟨Stream'.const 0, Stream'.const 0⟩ 2 references []
    let written := (writeValue s (nodeId 221 2) ⟨.scalar .boolean true, .badNotConnected, 0, 0⟩).1
    let ticked := (timerLoop s (fun _ => true) ⟨Stream'.const 0, Stream'.const 7⟩).1.1
    (nodeId 221 2 ∈ s.valueMap.keys ∧ nodeId 222 2 ∈ s.valueMap.keys) ∧
      (readValue s (nodeId 222 2)).2.map (fun d => d.statusCode) = some .success ∧
      (readValue written (nodeId 222 2)).2.map (fun d => d.statusCode) = some .badNotConnected ∧
      liveReference s.baseNodeClassWMap (fun _ => true) (nodeId 222 2) = none ∧
      (readValue s (nodeId 222 2)).2.map (fun d => d.sourceTimestamp) = some 0 ∧
      (readValue ticked (nodeId 222 2)).2.map (fun d => d.sourceTimestamp) = some 7 := by
  decide +kernel

end Runs

end TestStatusCode

end ASNeGDemo
