import Mathlib.Data.List.Forall2
import Mathlib.Logic.Basic

/-!
Sequences of stages with early exit. A stage changes a state and answers `some true` (go
on), `some false` (give up), or `none` where its behaviour is undefined.
-/

abbrev Stage (σ : Type*) := σ → σ × Option Bool

namespace Stage
variable {σ : Type*}

/-- Run the stages in order and stop at the first that does not answer `some true`. -/
def chain : List (Stage σ) → Stage σ
  | [], s => (s, some true)
  | f :: fs, s => if (f s).2 = some true then chain fs (f s).1 else f s

@[simp] theorem chain_nil (s : σ) : chain [] s = (s, some true) := rfl

theorem chain_cons_of_true {f : Stage σ} {s : σ} (h : (f s).2 = some true)
    (fs : List (Stage σ)) : chain (f :: fs) s = chain fs (f s).1 := if_pos h

theorem chain_cons_of_not {f : Stage σ} {s : σ} (h : (f s).2 ≠ some true)
    (fs : List (Stage σ)) : chain (f :: fs) s = f s := if_neg h

/-- A stage that always goes on is a change of the state. -/
theorem chain_cons_always (g : σ → σ) (fs : List (Stage σ)) (s : σ) :
    chain ((fun s => (g s, some true)) :: fs) s = chain fs (g s) := if_pos rfl

theorem chain_singleton (f : Stage σ) (s : σ) : chain [f] s = f s := by
  by_cases h : (f s).2 = some true
  · rw [chain_cons_of_true h, chain_nil, ← h]
  · exact chain_cons_of_not h []

theorem chain_cons_true_iff (f : Stage σ) (fs : List (Stage σ)) (s : σ) :
    (chain (f :: fs) s).2 = some true ↔
      (f s).2 = some true ∧ (chain fs (f s).1).2 = some true := by
  by_cases h : (f s).2 = some true
  · simp [chain_cons_of_true h, h]
  · simp [chain_cons_of_not h, h]

/-- A chain as the first stage of a chain. -/
theorem chain_cons_chain (fs gs : List (Stage σ)) (s : σ) :
    chain (chain fs :: gs) s = chain (fs ++ gs) s := by
  induction fs generalizing s with
  | nil => exact chain_cons_of_true rfl gs
  | cons f fs ih =>
    rw [List.cons_append]
    by_cases h : (f s).2 = some true
    · rw [chain_cons_of_true h, ← ih]
      simp only [chain, h, if_true]
    · rw [chain_cons_of_not h, chain_cons_of_not (by rwa [chain_cons_of_not h]),
        chain_cons_of_not h]

/-- What every stage preserves, the chain preserves, wherever it stops. -/
theorem chain_preserves {I : σ → Prop} {fs : List (Stage σ)}
    (h : ∀ f ∈ fs, ∀ s, I s → I (f s).1) {s : σ} (hs : I s) : I (chain fs s).1 := by
  induction fs generalizing s with
  | nil => exact hs
  | cons f fs ih =>
    have hf : I (f s).1 := h f (by simp) s hs
    by_cases ht : (f s).2 = some true
    · rw [chain_cons_of_true ht]
      exact ih (fun g hg => h g (by simp [hg])) hf
    · rw [chain_cons_of_not ht]
      exact hf

/-- Where every stage is defined, the chain is. -/
theorem chain_ne_none {fs : List (Stage σ)} (h : ∀ f ∈ fs, ∀ s, (f s).2 ≠ none) (s : σ) :
    (chain fs s).2 ≠ none := by
  induction fs generalizing s with
  | nil => exact Option.some_ne_none true
  | cons f fs ih =>
    by_cases hf : (f s).2 = some true
    · rw [chain_cons_of_true hf]
      exact ih (fun g hg => h g (List.mem_cons_of_mem f hg)) _
    · rw [chain_cons_of_not hf]
      exact h f List.mem_cons_self s

/-- A last stage that always goes on is reached only by a chain that comes to its end. -/
theorem chain_concat_of_not (fs : List (Stage σ)) (g : σ → σ) {s : σ}
    (h : (chain (fs ++ [fun s => (g s, some true)]) s).2 ≠ some true) :
    chain (fs ++ [fun s => (g s, some true)]) s = chain fs s := by
  induction fs generalizing s with
  | nil => exact absurd rfl h
  | cons f fs ih =>
    rw [List.cons_append] at h ⊢
    by_cases hf : (f s).2 = some true
    · rw [chain_cons_of_true hf] at h ⊢
      rw [chain_cons_of_true hf, ih h]
    · rw [chain_cons_of_not hf, chain_cons_of_not hf]

/-! ### Stages whose answers are not looked at -/

/-- Go on whatever the stage answers, as long as it is defined. -/
def carryOn (f : Stage σ) : Stage σ := fun s => ((f s).1, (f s).2.map fun _ => true)

theorem carryOn_eq_some_true {f : Stage σ} {s : σ} :
    (f.carryOn s).2 = some true ↔ (f s).2 ≠ none := by
  unfold carryOn
  cases (f s).2 <;> simp

/-- Such a chain never gives up: where it is defined, it has run all its stages. -/
theorem chain_carryOn {fs : List (Stage σ)} {s : σ} (h : (chain (fs.map carryOn) s).2 ≠ none) :
    chain (fs.map carryOn) s = (fs.foldl (fun s f => (f s).1) s, some true) := by
  induction fs generalizing s with
  | nil => rfl
  | cons f fs ih =>
    rw [List.map_cons] at h ⊢
    by_cases hf : (f.carryOn s).2 = some true
    · rw [chain_cons_of_true hf] at h ⊢
      exact ih h
    · rw [chain_cons_of_not hf] at h
      rw [carryOn_eq_some_true, not_not] at hf
      refine absurd ?_ h
      unfold carryOn
      rw [hf]
      rfl

/-- A stage on a part of the state. -/
def within {τ : Type*} (get : σ → τ) (set : σ → τ → σ) (f : Stage τ) : Stage σ := fun s =>
  let part := f (get s)
  (set s part.1, part.2)

section Map
variable {ι : Type*} {f : ι → Stage σ} {I : σ → Prop}

/-- Where an invariant decides which stages go on, it decides whether the chain does. -/
theorem chain_map_true_iff {p : ι → Prop} (hkeep : ∀ i s, I s → I (f i s).1)
    (hf : ∀ i s, I s → ((f i s).2 = some true ↔ p i)) (l : List ι) {s : σ} (hs : I s) :
    (chain (l.map f) s).2 = some true ↔ ∀ i ∈ l, p i := by
  induction l generalizing s with
  | nil => exact iff_of_true rfl (fun i hi => absurd hi List.not_mem_nil)
  | cons i l ih =>
    rw [List.map_cons, chain_cons_true_iff, hf i s hs, ih (hkeep i s hs), List.forall_mem_cons]

/-- A chain that comes to its end has run all its stages. -/
theorem chain_map_state {l : List ι} {s : σ} (h : (chain (l.map f) s).2 = some true) :
    (chain (l.map f) s).1 = l.foldl (fun s i => (f i s).1) s := by
  induction l generalizing s with
  | nil => rfl
  | cons i l ih =>
    obtain ⟨hi, hrest⟩ := (chain_cons_true_iff ..).mp h
    rw [List.map_cons, chain_cons_of_true hi, ih hrest, List.foldl_cons]

end Map

/-- A chain that is simulated stage by stage is simulated as a whole. -/
theorem chain_simulates {τ : Type*} (view : σ → τ) {fs : List (Stage σ)} {gs : List (Stage τ)}
    (h : List.Forall₂ (fun f g => ∀ s, g (view s) = (view (f s).1, (f s).2)) fs gs) (s : σ) :
    chain gs (view s) = (view (chain fs s).1, (chain fs s).2) := by
  induction h generalizing s with
  | nil => rfl
  | cons hfg _ ih =>
    simp only [chain, hfg]
    split_ifs
    · exact ih _
    · rfl

end Stage
