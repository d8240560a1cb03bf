import Mathlib.Data.Nat.Notation
import Mathlib.Logic.Function.Basic

/-!
Programs over shared cells. A program touches the cells in atomic steps; two programs
without a lock between them can take their steps in any order. Every cell carries the
party that wrote it last, so that what a read saw can be told apart.
-/
namespace SharedCells

/-- A program that reads and updates cells and emits outputs, one step after the other. -/
inductive Program (κ : Type) (V : κ → Type) (ω : Type) (α : Type) where
  | pure (a : α)
  | read (k : κ) (next : V k → Program κ V ω α)
  | update (k : κ) (f : V k → V k) (next : V k → Program κ V ω α)
  | emit (w : ω) (next : Program κ V ω α)

variable {κ : Type} {V : κ → Type} {ω α β : Type}

namespace Program

def bind : Program κ V ω α → (α → Program κ V ω β) → Program κ V ω β
  | .pure a, f => f a
  | .read k next, f => .read k fun v => (next v).bind f
  | .update k g next, f => .update k g fun v => (next v).bind f
  | .emit w next, f => .emit w (next.bind f)

instance : Monad (Program κ V ω) where
  pure := .pure
  bind := bind

/-- The content of a cell. -/
def get (k : κ) : Program κ V ω (V k) := .read k .pure

/-- Replace the content of a cell. -/
def set (k : κ) (v : V k) : Program κ V ω Unit := .update k (fun _ => v) fun _ => .pure ()

def fire (w : ω) : Program κ V ω Unit := .emit w (.pure ())

@[simp] theorem pure_eq (a : α) : (Pure.pure a : Program κ V ω α) = .pure a := rfl

@[simp] theorem pure_bind (a : α) (f : α → Program κ V ω β) :
    (Program.pure a >>= f) = f a := rfl

@[simp] theorem get_bind (k : κ) (f : V k → Program κ V ω β) : (get k >>= f) = .read k f := rfl

@[simp] theorem read_bind (k : κ) (next : V k → Program κ V ω α) (f : α → Program κ V ω β) :
    (Program.read k next >>= f) = .read k fun v => next v >>= f := rfl

variable [DecidableEq κ]

/-- A run without company: the result, the contents left behind and the outputs. -/
def run : Program κ V ω α → (∀ k, V k) → α × (∀ k, V k) × List ω
  | .pure a, m => (a, m, [])
  | .read k next, m => (next (m k)).run m
  | .update k f next, m => (next (f (m k))).run (Function.update m k (f (m k)))
  | .emit w next, m =>
      let rest := next.run m
      (rest.1, rest.2.1, w :: rest.2.2)

end Program

inductive Party where
  | left | right
  deriving DecidableEq, Repr

/-- A step as it appears in a log. A read shows what it saw and who had written it. -/
inductive Access (κ : Type) (V : κ → Type) (ω : Type) where
  | read (k : κ) (v : V k) (writer : Option Party)
  | write (k : κ) (v : V k)
  | emit (w : ω)

abbrev Log (κ : Type) (V : κ → Type) (ω : Type) := List (Party × Access κ V ω)

/-- The log entries of one party. -/
def ofParty (p : Party) (log : Log κ V ω) : List (Access κ V ω) :=
  (log.filter (·.1 = p)).map Prod.snd

@[simp] theorem ofParty_cons_self (p : Party) (a : Access κ V ω) (log : Log κ V ω) :
    ofParty p ((p, a) :: log) = a :: ofParty p log := by
  simp [ofParty]

theorem ofParty_cons_of_ne {p q : Party} (h : q ≠ p) (a : Access κ V ω) (log : Log κ V ω) :
    ofParty p ((q, a) :: log) = ofParty p log := by
  simp [ofParty, h]

theorem ofParty_append (p : Party) (log log' : Log κ V ω) :
    ofParty p (log ++ log') = ofParty p log ++ ofParty p log' := by
  simp [ofParty]

theorem mem_ofParty {p : Party} {a : Access κ V ω} {log : Log κ V ω} :
    a ∈ ofParty p log ↔ (p, a) ∈ log := by
  simp only [ofParty, List.mem_map, List.mem_filter, decide_eq_true_eq]
  constructor
  · rintro ⟨⟨q, b⟩, ⟨hmem, rfl⟩, rfl⟩
    exact hmem
  · intro h
    exact ⟨(p, a), ⟨h, rfl⟩, rfl⟩

/-- The contents of all cells, and for each the party that wrote it, if one did. -/
structure Cells (κ : Type) (V : κ → Type) where
  value : ∀ k, V k
  writer : κ → Option Party

variable [DecidableEq κ]

def Cells.write (c : Cells κ V) (p : Party) (k : κ) (v : V k) : Cells κ V :=
  { value := Function.update c.value k v, writer := Function.update c.writer k (some p) }

/-- Cells that neither party has written yet. -/
def Cells.fresh (m : ∀ k, V k) : Cells κ V := ⟨m, fun _ => none⟩

namespace Program

/-- The next step of a party, if its program is not finished. -/
def step (p : Party) (c : Cells κ V) :
    Program κ V ω α → Option (Cells κ V × Access κ V ω × Program κ V ω α)
  | .pure _ => none
  | .read k next => some (c, .read k (c.value k) (c.writer k), next (c.value k))
  | .update k f next =>
      some (c.write p k (f (c.value k)), .write k (f (c.value k)), next (f (c.value k)))
  | .emit w next => some (c, .emit w, next)

/-- All remaining steps of one party. -/
def finish (p : Party) : Cells κ V → Program κ V ω α → Cells κ V × Log κ V ω
  | c, .pure _ => (c, [])
  | c, .read k next =>
      let rest := finish p c (next (c.value k))
      (rest.1, (p, .read k (c.value k) (c.writer k)) :: rest.2)
  | c, .update k f next =>
      let rest := finish p (c.write p k (f (c.value k))) (next (f (c.value k)))
      (rest.1, (p, .write k (f (c.value k))) :: rest.2)
  | c, .emit w next =>
      let rest := finish p c next
      (rest.1, (p, .emit w) :: rest.2)

end Program

/-- Run two programs side by side. The schedule says whose step is next; a turn of a finished
party is skipped, and when the schedule ends, what is left of the first program and then of the
second is run. So every interleaving of the steps has a schedule. -/
def interleave : List Party → Cells κ V → Program κ V ω α → Program κ V ω β →
    Cells κ V × Log κ V ω
  | [], c, x, y =>
      let left := x.finish .left c
      let right := y.finish .right left.1
      (right.1, left.2 ++ right.2)
  | .left :: schedule, c, x, y =>
      match x.step .left c with
      | none => interleave schedule c x y
      | some (c, a, x) =>
          let rest := interleave schedule c x y
          (rest.1, (.left, a) :: rest.2)
  | .right :: schedule, c, x, y =>
      match y.step .right c with
      | none => interleave schedule c x y
      | some (c, a, y) =>
          let rest := interleave schedule c x y
          (rest.1, (.right, a) :: rest.2)

/-! ### What each party sees -/

/-- The logs a program can produce when others may change the cells between its steps. -/
def Program.Trace : Program κ V ω α → List (Access κ V ω) → Prop
  | .pure _, as => as = []
  | .read k next, as => ∃ v w rest, as = .read k v w :: rest ∧ (next v).Trace rest
  | .update k f next, as => ∃ v rest, as = .write k (f v) :: rest ∧ (next (f v)).Trace rest
  | .emit w next, as => ∃ rest, as = .emit w :: rest ∧ next.Trace rest

theorem ofParty_finish (p : Party) (x : Program κ V ω α) (c : Cells κ V) :
    x.Trace (ofParty p (x.finish p c).2) := by
  induction x generalizing c with
  | pure a => rfl
  | read k next ih => exact ⟨_, _, _, ofParty_cons_self .., ih _ _⟩
  | update k f next ih => exact ⟨_, _, ofParty_cons_self .., ih _ _⟩
  | emit w next ih => exact ⟨_, ofParty_cons_self .., ih _⟩

theorem ofParty_finish_of_ne {p q : Party} (h : q ≠ p) (x : Program κ V ω α) (c : Cells κ V) :
    ofParty p (x.finish q c).2 = [] := by
  induction x generalizing c with
  | pure a => rfl
  | read k next ih => exact (ofParty_cons_of_ne h ..).trans (ih _ _)
  | update k f next ih => exact (ofParty_cons_of_ne h ..).trans (ih _ _)
  | emit w next ih => exact (ofParty_cons_of_ne h ..).trans (ih _)

theorem trace_of_step {p : Party} {c c' : Cells κ V} {x x' : Program κ V ω α}
    {a : Access κ V ω} (h : x.step p c = some (c', a, x')) {as : List (Access κ V ω)}
    (ht : x'.Trace as) : x.Trace (a :: as) := by
  cases x with
  | pure a => simp [Program.step] at h
  | read k next =>
    simp only [Program.step, Option.some.injEq, Prod.mk.injEq] at h
    obtain ⟨-, rfl, rfl⟩ := h
    exact ⟨_, _, _, rfl, ht⟩
  | update k f next =>
    simp only [Program.step, Option.some.injEq, Prod.mk.injEq] at h
    obtain ⟨-, rfl, rfl⟩ := h
    exact ⟨_, _, rfl, ht⟩
  | emit w next =>
    simp only [Program.step, Option.some.injEq, Prod.mk.injEq] at h
    obtain ⟨-, rfl, rfl⟩ := h
    exact ⟨_, rfl, ht⟩

/-- Whatever the schedule, each party has run its program. -/
theorem interleave_trace (schedule : List Party) (c : Cells κ V) (x : Program κ V ω α)
    (y : Program κ V ω β) :
    x.Trace (ofParty .left (interleave schedule c x y).2) ∧
      y.Trace (ofParty .right (interleave schedule c x y).2) := by
  induction schedule generalizing c x y with
  | nil =>
    simp only [interleave, ofParty_append]
    rw [ofParty_finish_of_ne (p := .left) (q := .right) (by decide),
      ofParty_finish_of_ne (p := .right) (q := .left) (by decide), List.append_nil,
      List.nil_append]
    exact ⟨ofParty_finish .left x c, ofParty_finish .right y _⟩
  | cons p schedule ih =>
    cases p with
    | left =>
      cases h : x.step .left c with
      | none =>
        simp only [interleave, h]
        exact ih c x y
      | some r =>
        simp only [interleave, h, ofParty_cons_self]
        rw [ofParty_cons_of_ne (by decide)]
        obtain ⟨hx, hy⟩ := ih r.1 r.2.2 y
        exact ⟨trace_of_step h hx, hy⟩
    | right =>
      cases h : y.step .right c with
      | none =>
        simp only [interleave, h]
        exact ih c x y
      | some r =>
        simp only [interleave, h, ofParty_cons_self]
        rw [ofParty_cons_of_ne (by decide)]
        obtain ⟨hx, hy⟩ := ih r.1 x r.2.2
        exact ⟨hx, trace_of_step h hy⟩

/-! ### What the cells remember -/

/-- A log as a history of the cells: reads see what the cells hold. -/
def History (c' : Cells κ V) : Cells κ V → Log κ V ω → Prop
  | c, [] => c' = c
  | c, (_, .read k v w) :: log => v = c.value k ∧ w = c.writer k ∧ History c' c log
  | c, (p, .write k v) :: log => History c' (c.write p k v) log
  | c, (_, .emit _) :: log => History c' c log

theorem history_of_step {p : Party} {c c' c'' : Cells κ V} {x x' : Program κ V ω α}
    {a : Access κ V ω} (h : x.step p c = some (c'', a, x')) {log : Log κ V ω}
    (hh : History c' c'' log) : History c' c ((p, a) :: log) := by
  cases x with
  | pure a => simp [Program.step] at h
  | read k next =>
    simp only [Program.step, Option.some.injEq, Prod.mk.injEq] at h
    obtain ⟨rfl, rfl, -⟩ := h
    exact ⟨rfl, rfl, hh⟩
  | update k f next =>
    simp only [Program.step, Option.some.injEq, Prod.mk.injEq] at h
    obtain ⟨rfl, rfl, -⟩ := h
    exact hh
  | emit w next =>
    simp only [Program.step, Option.some.injEq, Prod.mk.injEq] at h
    obtain ⟨rfl, rfl, -⟩ := h
    exact hh

theorem finish_history (p : Party) {c' : Cells κ V} (log : Log κ V ω)
    (x : Program κ V ω α) (c : Cells κ V) (h : History c' (x.finish p c).1 log) :
    History c' c ((x.finish p c).2 ++ log) := by
  induction x generalizing c with
  | pure a => exact h
  | read k next ih => exact ⟨rfl, rfl, ih _ c h⟩
  | update k f next ih => exact ih _ _ h
  | emit w next ih => exact ih c h

theorem interleave_history (schedule : List Party) (c : Cells κ V) (x : Program κ V ω α)
    (y : Program κ V ω β) :
    History (interleave schedule c x y).1 c (interleave schedule c x y).2 := by
  induction schedule generalizing c x y with
  | nil =>
    apply finish_history .left _ x c
    have h := finish_history .right [] y (x.finish .left c).1 rfl
    rwa [List.append_nil] at h
  | cons p schedule ih =>
    cases p with
    | left =>
      cases h : x.step .left c with
      | none =>
        simp only [interleave, h]
        exact ih c x y
      | some r =>
        simp only [interleave, h]
        exact history_of_step h (ih r.1 r.2.2 y)
    | right =>
      cases h : y.step .right c with
      | none =>
        simp only [interleave, h]
        exact ih c x y
      | some r =>
        simp only [interleave, h]
        exact history_of_step h (ih r.1 x r.2.2)

/-- Where every content is determined by its cell and the party that wrote it, this holds
for what is read and for what is left behind. -/
theorem History.determined {c' c : Cells κ V} {log : Log κ V ω}
    (value : ∀ k, Option Party → V k) (h : History c' c log)
    (hc : ∀ k, c.value k = value k (c.writer k))
    (hw : ∀ p k v, (p, Access.write k v) ∈ log → v = value k (some p)) :
    (∀ k, c'.value k = value k (c'.writer k)) ∧
      ∀ p k v w, (p, Access.read k v w) ∈ log → v = value k w := by
  induction log generalizing c with
  | nil =>
    obtain rfl : c' = c := h
    exact ⟨hc, by simp⟩
  | cons e log ih =>
    obtain ⟨p, a⟩ := e
    have hw' : ∀ p k v, (p, Access.write k v) ∈ log → v = value k (some p) :=
      fun p k v hv => hw p k v (List.mem_cons_of_mem _ hv)
    cases a with
    | read k v w =>
      obtain ⟨rfl, rfl, h⟩ := h
      obtain ⟨hvalue, hread⟩ := ih h hc hw'
      refine ⟨hvalue, fun q j u z hq => ?_⟩
      rcases List.mem_cons.mp hq with heq | hq
      · cases heq
        exact hc k
      · exact hread q j u z hq
    | write k v =>
      have hc' : ∀ j, (c.write p k v).value j = value j ((c.write p k v).writer j) := by
        intro j
        by_cases hj : j = k
        · subst hj
          simpa [Cells.write] using hw p j v List.mem_cons_self
        · simpa [Cells.write, Function.update_of_ne hj] using hc j
      obtain ⟨hvalue, hread⟩ := ih h hc' hw'
      exact ⟨hvalue, fun q j u z hq => hread q j u z (by simpa using hq)⟩
    | emit w =>
      obtain ⟨hvalue, hread⟩ := ih h hc hw'
      exact ⟨hvalue, fun q j u z hq => hread q j u z (by simpa using hq)⟩

/-- The writer of a cell has written it. -/
theorem History.writer_wrote {c' c : Cells κ V} {log : Log κ V ω} (h : History c' c log)
    {p : Party} {k : κ} (hp : c'.writer k = some p) :
    c.writer k = some p ∨ ∃ v, (p, Access.write k v) ∈ log := by
  induction log generalizing c with
  | nil =>
    obtain rfl : c' = c := h
    exact Or.inl hp
  | cons e log ih =>
    obtain ⟨q, a⟩ := e
    cases a with
    | read j u w => exact (ih h.2.2).imp_right fun ⟨v, hv⟩ => ⟨v, List.mem_cons_of_mem _ hv⟩
    | write j u =>
      rcases ih h with hw | ⟨v, hv⟩
      · by_cases hj : k = j
        · subst hj
          obtain rfl : q = p := by simpa [Cells.write] using hw
          exact Or.inr ⟨u, List.mem_cons_self⟩
        · exact Or.inl (by simpa [Cells.write, Function.update_of_ne hj] using hw)
      · exact Or.inr ⟨v, List.mem_cons_of_mem _ hv⟩
    | emit w => exact (ih h).imp_right fun ⟨v, hv⟩ => ⟨v, List.mem_cons_of_mem _ hv⟩

/-- A cell that was written has a writer. -/
theorem History.writer_isSome {c' c : Cells κ V} {log : Log κ V ω} (h : History c' c log)
    {k : κ} (hk : (c.writer k).isSome ∨ ∃ p v, (p, Access.write k v) ∈ log) :
    (c'.writer k).isSome := by
  induction log generalizing c with
  | nil =>
    obtain rfl : c' = c := h
    simpa using hk
  | cons e log ih =>
    obtain ⟨q, a⟩ := e
    cases a with
    | read j u w => exact ih h.2.2 (by simpa using hk)
    | write j u =>
      apply ih h
      by_cases hj : k = j
      · subst hj
        simp [Cells.write]
      · rcases hk with hk | ⟨p, v, hv⟩
        · exact Or.inl (by simpa [Cells.write, Function.update_of_ne hj] using hk)
        · rcases List.mem_cons.mp hv with heq | hv
          · simp only [Prod.mk.injEq, Access.write.injEq] at heq
            exact absurd heq.2.1 hj
          · exact Or.inr ⟨p, v, hv⟩
    | emit w => exact ih h (by simpa using hk)

/-! ### The serial order -/

theorem finish_value (p : Party) (x : Program κ V ω α) (c : Cells κ V) :
    (x.finish p c).1.value = (x.run c.value).2.1 := by
  induction x generalizing c with
  | pure a => rfl
  | read k next ih => exact ih _ c
  | update k f next ih => exact ih _ _
  | emit w next ih => exact ih c

/-- The empty schedule runs the first program and then the second. -/
theorem interleave_nil_value (c : Cells κ V) (x : Program κ V ω α) (y : Program κ V ω β) :
    (interleave [] c x y).1.value = (y.run (x.run c.value).2.1).2.1 := by
  simp only [interleave, finish_value]

/-! ### When one party is finished -/

theorem interleave_pure_right (schedule : List Party) (c : Cells κ V) (x : Program κ V ω α)
    (b : β) : interleave schedule c x (.pure b) = x.finish .left c := by
  induction schedule generalizing c x with
  | nil => simp [interleave, Program.finish]
  | cons p schedule ih =>
    cases p with
    | left =>
      cases x with
      | pure a => exact ih c _
      | read k next => simp only [interleave, Program.step, Program.finish, ih]
      | update k f next => simp only [interleave, Program.step, Program.finish, ih]
      | emit w next => simp only [interleave, Program.step, Program.finish, ih]
    | right => exact ih c x

/-- At most so many steps of one party: the cells, the log and what is left of the program. -/
def Program.steps (p : Party) : ℕ → Cells κ V → Program κ V ω α →
    Cells κ V × Log κ V ω × Program κ V ω α
  | 0, c, x => (c, [], x)
  | i + 1, c, x =>
      match x.step p c with
      | none => (c, [], x)
      | some (c, a, x) =>
          let rest := steps p i c x
          (rest.1, (p, a) :: rest.2.1, rest.2.2)

@[simp] theorem steps_pure (p : Party) (i : ℕ) (c : Cells κ V) (a : α) :
    (Program.pure a : Program κ V ω α).steps p i c = (c, [], .pure a) := by
  cases i <;> rfl

theorem exists_steps_finish (p : Party) (x : Program κ V ω α) (c : Cells κ V) :
    ∃ i a, x.steps p i c = ((x.finish p c).1, (x.finish p c).2, .pure a) := by
  induction x generalizing c with
  | pure a => exact ⟨0, a, rfl⟩
  | read k next ih =>
    obtain ⟨i, a, hi⟩ := ih (c.value k) c
    exact ⟨i + 1, a, by simp only [Program.steps, Program.step, Program.finish, hi]⟩
  | update k f next ih =>
    obtain ⟨i, a, hi⟩ := ih (f (c.value k)) (c.write p k (f (c.value k)))
    exact ⟨i + 1, a, by simp only [Program.steps, Program.step, Program.finish, hi]⟩
  | emit w next ih =>
    obtain ⟨i, a, hi⟩ := ih c
    exact ⟨i + 1, a, by simp only [Program.steps, Program.step, Program.finish, hi]⟩

theorem takeWhile_steps (p : Party) (i : ℕ) (c : Cells κ V) (x : Program κ V ω α)
    {e : Party × Access κ V ω} (he : e.1 ≠ p) (log : Log κ V ω) :
    ((x.steps p i c).2.1 ++ e :: log).takeWhile (·.1 = p) = (x.steps p i c).2.1 := by
  induction i generalizing c x with
  | zero => simp [Program.steps, he]
  | succ i ih =>
    cases h : x.step p c with
    | none => simp [Program.steps, h, he]
    | some r => simp [Program.steps, h, ih]

/-- A single write falls after some number of steps of the other party. -/
theorem interleave_set (schedule : List Party) (c : Cells κ V) (x : Program κ V ω α) (k : κ)
    (v : V k) :
    ∃ i, interleave schedule c x (Program.set k v) =
      let before := x.steps .left i c
      let after := before.2.2.finish .left (before.1.write .right k v)
      (after.1, before.2.1 ++ (.right, .write k v) :: after.2) := by
  induction schedule generalizing c x with
  | nil =>
    obtain ⟨i, a, hi⟩ := exists_steps_finish .left x c
    refine ⟨i, ?_⟩
    rw [hi]
    rfl
  | cons p schedule ih =>
    cases p with
    | left =>
      cases h : x.step .left c with
      | none =>
        simp only [interleave, h]
        exact ih c x
      | some r =>
        obtain ⟨i, hi⟩ := ih r.1 r.2.2
        refine ⟨i + 1, ?_⟩
        simp only [interleave, Program.steps, h, hi]
        rfl
    | right =>
      refine ⟨0, ?_⟩
      change ((interleave schedule (c.write .right k v) x (.pure ())).1,
        (.right, .write k v) :: (interleave schedule (c.write .right k v) x (.pure ())).2) = _
      rw [interleave_pure_right]
      rfl

end SharedCells
