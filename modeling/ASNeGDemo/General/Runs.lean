import Mathlib.Data.List.Basic
import Mathlib.Logic.Function.Basic

/-! Runs of a machine that takes events one after the other and answers each. -/
namespace Runs

variable {σ ε ω : Type*}

/-- The state after all events, and the answers in order. -/
def run (step : σ → ε → σ × ω) : σ → List ε → σ × List ω
  | s, [] => (s, [])
  | s, e :: es =>
      let next := step s e
      let rest := run step next.1 es
      (rest.1, next.2 :: rest.2)

variable (step : σ → ε → σ × ω)

@[simp] theorem run_nil (s : σ) : run step s [] = (s, []) := rfl

theorem run_cons (s : σ) (e : ε) (es : List ε) :
    run step s (e :: es) =
      ((run step (step s e).1 es).1, (step s e).2 :: (run step (step s e).1 es).2) := rfl

theorem run_append (s : σ) (es fs : List ε) :
    run step s (es ++ fs) =
      ((run step (run step s es).1 fs).1, (run step s es).2 ++ (run step (run step s es).1 fs).2) := by
  induction es generalizing s with
  | nil => rfl
  | cons e es ih => rw [List.cons_append, run_cons, ih, run_cons]; rfl

/-- Only what the machine does on the events of a run matters. -/
theorem run_congr {step' : σ → ε → σ × ω} {es : List ε} (h : ∀ e ∈ es, ∀ s, step s e = step' s e)
    (s : σ) : run step s es = run step' s es := by
  induction es generalizing s with
  | nil => rfl
  | cons e es ih =>
    rw [run_cons, run_cons, h e List.mem_cons_self, ih fun f hf => h f (List.mem_cons_of_mem e hf)]

variable {step}

/-- What one step preserves, a run preserves. -/
theorem run_invariant {I : σ → Prop} (h : ∀ s e, I s → I (step s e).1) (es : List ε) {s : σ}
    (hs : I s) : I (run step s es).1 := by
  induction es generalizing s with
  | nil => exact hs
  | cons e es ih => exact ih (h s e hs)

/-! ### Refinement -/

section Refinement
variable {α η : Type*} {step : σ → ε → σ × ω} (view : σ → α) (effect : α → η → α)
  (event : η → ε) (answer : η → ω) (Answered : α → η → Prop) {I : σ → Prop}

/-- Where every step is seen from outside as one entry of a history, a run is a history: it ends
where the effects of the entries lead, and every entry is answered from what the ones before it
made. -/
theorem run_history
    (hstep : ∀ s e, I s → I (step s e).1 ∧ ∃ o, event o = e ∧ answer o = (step s e).2 ∧
      view (step s e).1 = effect (view s) o ∧ Answered (view s) o)
    (es : List ε) {s : σ} (hs : I s) :
    ∃ history : List η,
      history.map event = es ∧ history.map answer = (run step s es).2 ∧
      view (run step s es).1 = history.foldl effect (view s) ∧
      ∀ before o after, history = before ++ o :: after →
        Answered (before.foldl effect (view s)) o := by
  induction es generalizing s with
  | nil => exact ⟨[], rfl, rfl, rfl, by simp⟩
  | cons e es ih =>
    obtain ⟨hnext, o, rfl, ho, hview, hanswered⟩ := hstep s e hs
    obtain ⟨history, hevents, hanswers, hrun, hall⟩ := ih hnext
    rw [hview] at hrun hall
    refine ⟨o :: history, by rw [List.map_cons, hevents], ?_, hrun, ?_⟩
    · rw [List.map_cons, ho, hanswers, run_cons]
    · intro before o' after heq
      cases before with
      | nil =>
        obtain ⟨rfl, rfl⟩ := List.cons.inj heq
        exact hanswered
      | cons b before =>
        obtain ⟨rfl, rfl⟩ := List.cons.inj heq
        exact hall before o' after rfl

end Refinement

/-! ### What was put last -/

section Last
variable {β γ : Type*}

/-- What the events of a run put, in order; whether one does can depend on its answer. -/
def puts (put : ε → ω → Option γ) (es : List ε) (answers : List ω) : List γ :=
  (es.zip answers).filterMap fun e => put e.1 e.2

/-- Where what is put is seen from then on, and where nothing is seen something may come up by
itself, but only this: at the end one sees what was put last, or what was there, or this. -/
theorem run_last {step : σ → ε → σ × ω} (put : ε → ω → Option γ) (seen : σ → Option β)
    (shown : γ → β) (initial : β) {I : σ → Prop} (hI : ∀ s e, I s → I (step s e).1)
    (hput : ∀ s e w, I s → put e (step s e).2 = some w → seen (step s e).1 = some (shown w))
    (hkeep : ∀ s e, I s → put e (step s e).2 = none →
      seen (step s e).1 = seen s ∨ seen s = none ∧ seen (step s e).1 = some initial)
    (es : List ε) {s : σ} (hs : I s) :
    (∀ w, (puts put es (run step s es).2).getLast? = some w →
      seen (run step s es).1 = some (shown w)) ∧
    ((puts put es (run step s es).2).getLast? = none →
      seen (run step s es).1 = seen s ∨
        seen s = none ∧ seen (run step s es).1 = some initial) := by
  induction es generalizing s with
  | nil => exact ⟨fun w hw => (nomatch hw), fun _ => .inl rfl⟩
  | cons e es ih =>
    obtain ⟨hsome, hnone⟩ := ih (hI s e hs)
    rw [run_cons]
    unfold puts at hsome hnone ⊢
    rw [List.zip_cons_cons, List.filterMap_cons]
    dsimp only
    cases hw : put e (step s e).2 with
    | none =>
      refine ⟨hsome, fun hlast => ?_⟩
      obtain hsame | ⟨hno, hinitial⟩ := hkeep s e hs hw
      · rw [← hsame]
        exact hnone hlast
      · obtain hrest | ⟨hno', -⟩ := hnone hlast
        · exact .inr ⟨hno, hrest.trans hinitial⟩
        · exact absurd (hno'.symm.trans hinitial) (by simp)
    | some w =>
      have hseen := hput s e w hs hw
      dsimp only
      rw [List.getLast?_cons]
      refine ⟨?_, fun hlast => (nomatch hlast)⟩
      intro w' hw'
      obtain rfl := Option.some.inj hw'
      cases hrest : ((es.zip (run step (step s e).1 es).2).filterMap
          fun e => put e.1 e.2).getLast? with
      | some w' => exact hsome w' hrest
      | none =>
        obtain hsame | ⟨hno, -⟩ := hnone hrest
        · exact hsame.trans hseen
        · exact absurd (hno.symm.trans hseen) (by simp)

end Last

/-! ### What holds at every step -/

section Always
variable (next : σ → ε → σ)

/-- The property holds of every event of a run and the state it meets. -/
def Always (p : σ → ε → Prop) : σ → List ε → Prop
  | _, [] => True
  | s, e :: es => p s e ∧ Always p (next s e) es

variable {next}

/-- What an invariant implies holds throughout. -/
theorem always_of_invariant {I : σ → Prop} {p : σ → ε → Prop} (hnext : ∀ s e, I s → I (next s e))
    (hp : ∀ s e, I s → p s e) {s : σ} (hs : I s) (es : List ε) : Always next p s es := by
  induction es generalizing s with
  | nil => trivial
  | cons e es ih => exact ⟨hp s e hs, ih (hnext s e hs)⟩

/-- Where an invariant makes two properties the same, they hold in the same runs. -/
theorem always_congr {I : σ → Prop} {p q : σ → ε → Prop} (hnext : ∀ s e, I s → I (next s e))
    (hpq : ∀ s e, I s → (p s e ↔ q s e)) {s : σ} (hs : I s) (es : List ε) :
    Always next p s es ↔ Always next q s es := by
  induction es generalizing s with
  | nil => exact Iff.rfl
  | cons e es ih => exact and_congr (hpq s e hs) (ih (hnext s e hs))

theorem always_imp {c : Prop} {p : σ → ε → Prop} (s : σ) (es : List ε) :
    Always next (fun s e => c → p s e) s es ↔ (c → Always next p s es) := by
  induction es generalizing s with
  | nil => exact iff_of_true trivial fun _ => trivial
  | cons e es ih => exact (and_congr_right fun _ => ih _).trans imp_and.symm

theorem always_append_singleton {p : σ → ε → Prop} {s : σ} {es : List ε} {e : ε}
    (h : Always next p s (es ++ [e])) : p (es.foldl next s) e := by
  induction es generalizing s with
  | nil => exact h.1
  | cons f es ih => exact ih h.2

/-- What holds throughout a run holds up to any point of it and from there on. -/
theorem always_append {step : σ → ε → σ × ω} {p : σ → ε → Prop} {s : σ} {es fs : List ε} :
    Always (fun s e => (step s e).1) p s (es ++ fs) ↔
      Always (fun s e => (step s e).1) p s es ∧
        Always (fun s e => (step s e).1) p (run step s es).1 fs := by
  induction es generalizing s with
  | nil => exact (true_and _).to_iff.symm
  | cons e es ih => exact (and_congr_right fun _ => ih).trans and_assoc.symm

end Always

/-! ### Machines side by side -/

variable {κ : Type*} [DecidableEq κ] (step)

/-- A copy of the machine for each key; an event is for one of them. -/
def keyed (s : κ → σ) (e : κ × ε) : (κ → σ) × ω :=
  (Function.update s e.1 (step (s e.1) e.2).1, (step (s e.1) e.2).2)

/-- The events for one key. -/
def own (k : κ) (es : List (κ × ε)) : List ε := (es.filter (·.1 = k)).map Prod.snd

/-- The answers one key gets. -/
def answersTo (s : κ → σ) (k : κ) (es : List (κ × ε)) : List ω :=
  own k ((es.map Prod.fst).zip (run (keyed step) s es).2)

@[simp] theorem own_cons_self (k : κ) (e : ε) (es : List (κ × ε)) :
    own k ((k, e) :: es) = e :: own k es := by
  simp [own]

theorem own_cons_of_ne {k k' : κ} (h : k' ≠ k) (e : ε) (es : List (κ × ε)) :
    own k ((k', e) :: es) = own k es := by
  simp [own, h]

/-- What becomes of one machine is what its own events make of it. -/
theorem run_keyed (s : κ → σ) (k : κ) (es : List (κ × ε)) :
    (run (keyed step) s es).1 k = (run step (s k) (own k es)).1 ∧
      answersTo step s k es = (run step (s k) (own k es)).2 := by
  induction es generalizing s with
  | nil => exact ⟨rfl, rfl⟩
  | cons e es ih =>
    obtain ⟨k', e⟩ := e
    obtain ⟨hstate, hanswers⟩ := ih (keyed step s (k', e)).1
    have hrest : answersTo step s k ((k', e) :: es) =
        own k ((k', (step (s k') e).2) :: (es.map Prod.fst).zip
          (run (keyed step) (keyed step s (k', e)).1 es).2) := rfl
    by_cases hk : k' = k
    · subst hk
      have hself : (keyed step s (k', e)).1 k' = (step (s k') e).1 := Function.update_self ..
      rw [hself] at hstate hanswers
      rw [run_cons, own_cons_self, run_cons, hrest, own_cons_self]
      exact ⟨hstate, congrArg _ hanswers⟩
    · have hother : (keyed step s (k', e)).1 k = s k := Function.update_of_ne (Ne.symm hk) ..
      rw [hother] at hstate hanswers
      rw [run_cons, own_cons_of_ne hk, hrest, own_cons_of_ne hk]
      exact ⟨hstate, hanswers⟩

end Runs
