import Mathlib.Data.List.Nodup
import ASNeGDemo.General.SharedCells

/-!
One cell out of many. Where a program is a sequence of programs that each keep to a cell of their
own, the part of a log that is about one cell is a log of its program; and beside a program that
keeps to one cell, a row of writes to it is told apart by how many of them fall before each step.
-/
namespace SharedCells

variable {κ : Type} {V : κ → Type} {ω α β : Type}

/-! ### Programs that keep to one cell -/

namespace Program

/-- A program over one cell, put at a cell of many. -/
def onCell (k : κ) : Program Unit (fun _ => V k) ω α → Program κ V ω α
  | .pure a => .pure a
  | .read _ next => .read k fun v => (next v).onCell k
  | .update _ f next => .update k f fun v => (next v).onCell k
  | .emit w next => .emit w (next.onCell k)

/-- All outputs of the program are of this kind. -/
def Emits (p : ω → Prop) : Program κ V ω α → Prop
  | .pure _ => True
  | .read k next => ∀ v : V k, (next v).Emits p
  | .update k _ next => ∀ v : V k, (next v).Emits p
  | .emit w next => p w ∧ next.Emits p

/-- One program after the other, each at its own cell. -/
def sequence : List (Σ k, Program Unit (fun _ => V k) ω Unit) → Program κ V ω Unit
  | [] => .pure ()
  | e :: l => e.2.onCell e.1 >>= fun _ => sequence l

/-- A row of writes. -/
def writes : List (Σ k, V k) → Program κ V ω Unit
  | [] => .pure ()
  | e :: l => .update e.1 (fun _ => e.2) fun _ => writes l

theorem Emits.bind {p : ω → Prop} {x : Program κ V ω α} {f : α → Program κ V ω β}
    (hx : x.Emits p) (hf : ∀ a, (f a).Emits p) : (x >>= f).Emits p := by
  induction x with
  | pure a => exact hf a
  | read k next ih => exact fun v => ih v (hx v)
  | update k g next ih => exact fun v => ih v (hx v)
  | emit w next ih => exact ⟨hx.1, ih hx.2⟩

theorem writes_trace {ws : List (Σ k, V k)} {as : List (Access κ V ω)}
    (h : (writes ws : Program κ V ω Unit).Trace as) : as = ws.map fun e => .write e.1 e.2 := by
  induction ws generalizing as with
  | nil => exact h
  | cons e ws ih =>
    obtain ⟨_, rest, rfl, hrest⟩ := h
    rw [ih hrest, List.map_cons]

end Program

variable [DecidableEq κ]

/-! ### A sequence without company -/

theorem Program.run_bind (x : Program κ V ω α) (f : α → Program κ V ω β) (m : ∀ k, V k) :
    (x >>= f).run m =
      let first := x.run m
      let second := (f first.1).run first.2.1
      (second.1, second.2.1, first.2.2 ++ second.2.2) := by
  induction x generalizing m with
  | pure a => rfl
  | read k next ih => exact ih _ m
  | update k g next ih => exact ih _ _
  | emit w next ih =>
    change (((next >>= f).run m).1, ((next >>= f).run m).2.1, w :: ((next >>= f).run m).2.2) = _
    rw [ih]
    rfl

theorem Program.onCell_run (k : κ) (x : Program Unit (fun _ => V k) ω α) (m : ∀ k, V k) :
    (x.onCell k).run m =
      let own := x.run fun _ => m k
      (own.1, Function.update m k (own.2.1 ()), own.2.2) := by
  induction x generalizing m with
  | pure a =>
    change (a, m, []) = (a, Function.update m k (m k), [])
    rw [Function.update_eq_self]
  | read u next ih => exact ih _ m
  | update u g next ih =>
    have hunit (v : V k) : Function.update (fun _ : Unit => m k) () v = fun _ => v := by
      funext _
      exact Function.update_self ..
    change ((next (g (m k))).onCell k).run (Function.update m k (g (m k))) = _
    rw [ih]
    simp only [Function.update_self, Function.update_idem, Program.run, hunit]
  | emit w next ih =>
    change (((next.onCell k).run m).1, ((next.onCell k).run m).2.1,
      w :: ((next.onCell k).run m).2.2) = _
    rw [ih]
    rfl

theorem Program.Emits.run {p : ω → Prop} {x : Program κ V ω α} (h : x.Emits p) (m : ∀ k, V k) :
    ∀ w ∈ (x.run m).2.2, p w := by
  induction x generalizing m with
  | pure a => exact fun w hw => nomatch hw
  | read k next ih => exact ih _ (h _) m
  | update k g next ih => exact ih _ (h _) _
  | emit w next ih => exact List.forall_mem_cons.mpr ⟨h.1, ih h.2 m⟩

/-! ### A program among the writes of the other party -/

/-- The log of a program that runs to its end while the other party writes. -/
def Follows (c' : Cells κ V) : Program κ V ω α → Cells κ V → Log κ V ω → Prop
  | x, c, [] => x.step .left c = none ∧ c' = c
  | x, c, (.left, a) :: log => ∃ d x', x.step .left c = some (d, a, x') ∧ Follows c' x' d log
  | x, c, (.right, .write k v) :: log => Follows c' x (c.write .right k v) log
  | x, c, (.right, .read _ _ _) :: log => Follows c' x c log
  | x, c, (.right, .emit _) :: log => Follows c' x c log

theorem follows_of_right_step {c c' d : Cells κ V} {y y' : Program κ V ω β} {a : Access κ V ω}
    (h : y.step .right c = some (d, a, y')) {x : Program κ V ω α} {log : Log κ V ω}
    (hrest : Follows c' x d log) : Follows c' x c ((.right, a) :: log) := by
  cases y with
  | pure b => cases h
  | read k next =>
    obtain ⟨rfl, rfl, -⟩ : c = d ∧ _ = a ∧ _ := by simpa [Program.step] using h
    exact hrest
  | update k f next =>
    obtain ⟨rfl, rfl, -⟩ : _ = d ∧ _ = a ∧ _ := by simpa [Program.step] using h
    exact hrest
  | emit w next =>
    obtain ⟨rfl, rfl, -⟩ : c = d ∧ _ = a ∧ _ := by simpa [Program.step] using h
    exact hrest

theorem finish_right_follows (a : α) (y : Program κ V ω β) (c : Cells κ V) :
    Follows (y.finish .right c).1 (.pure a) c (y.finish .right c).2 := by
  induction y generalizing c with
  | pure b => exact ⟨rfl, rfl⟩
  | read k next ih => exact ih _ c
  | update k f next ih => exact ih _ _
  | emit w next ih => exact ih c

theorem finish_left_follows {c' : Cells κ V} {log : Log κ V ω} (x : Program κ V ω α)
    (c : Cells κ V) (h : ∀ a : α, Follows c' (.pure a) (x.finish .left c).1 log) :
    Follows c' x c ((x.finish .left c).2 ++ log) := by
  induction x generalizing c with
  | pure a => exact h a
  | read k next ih => exact ⟨_, _, rfl, ih _ c h⟩
  | update k f next ih => exact ⟨_, _, rfl, ih _ _ h⟩
  | emit w next ih => exact ⟨_, _, rfl, ih c h⟩

/-- Whatever the schedule, the first program runs to its end while the second one writes. -/
theorem interleave_follows (schedule : List Party) (c : Cells κ V) (x : Program κ V ω α)
    (y : Program κ V ω β) :
    Follows (interleave schedule c x y).1 x c (interleave schedule c x y).2 := by
  induction schedule generalizing c x y with
  | nil => exact finish_left_follows x c fun a => finish_right_follows a y _
  | cons p schedule ih =>
    cases p with
    | left =>
      cases h : x.step .left c with
      | none =>
        simp only [interleave, h]
        exact ih c x y
      | some r =>
        simp only [interleave, h]
        exact ⟨r.1, r.2.2, h, ih r.1 r.2.2 y⟩
    | right =>
      cases h : y.step .right c with
      | none =>
        simp only [interleave, h]
        exact ih c x y
      | some r =>
        simp only [interleave, h]
        exact follows_of_right_step h (ih r.1 x r.2.2)

/-! ### The part of a log that is about one cell -/

section Projection
variable (place : ω → κ)

/-- An access as one of the cell, if it is about it; `place` says which cell an output is
about. -/
def Access.onCell (k : κ) : Access κ V ω → Option (Access Unit (fun _ => V k) ω)
  | .read j v w => if h : j = k then some (.read () (h ▸ v) w) else none
  | .write j v => if h : j = k then some (.write () (h ▸ v)) else none
  | .emit w => if place w = k then some (.emit w) else none

@[simp] theorem Access.onCell_read_self (k : κ) (v : V k) (w : Option Party) :
    (Access.read k v w : Access κ V ω).onCell place k = some (.read () v w) :=
  dif_pos rfl

@[simp] theorem Access.onCell_write_self (k : κ) (v : V k) :
    (Access.write k v : Access κ V ω).onCell place k = some (.write () v) :=
  dif_pos rfl

theorem Access.onCell_read_of_ne {j k : κ} (h : j ≠ k) (v : V j) (w : Option Party) :
    (Access.read j v w : Access κ V ω).onCell place k = none :=
  dif_neg h

theorem Access.onCell_write_of_ne {j k : κ} (h : j ≠ k) (v : V j) :
    (Access.write j v : Access κ V ω).onCell place k = none :=
  dif_neg h

theorem Access.onCell_emit_of_eq {w : ω} {k : κ} (h : place w = k) :
    (Access.emit w : Access κ V ω).onCell place k = some (.emit w) :=
  if_pos h

theorem Access.onCell_emit_of_ne {w : ω} {k : κ} (h : place w ≠ k) :
    (Access.emit w : Access κ V ω).onCell place k = none :=
  if_neg h

def project (k : κ) (log : Log κ V ω) : Log Unit (fun _ => V k) ω :=
  log.filterMap fun e => (e.2.onCell place k).map (e.1, ·)

def Cells.onCell (c : Cells κ V) (k : κ) : Cells Unit (fun _ => V k) :=
  ⟨fun _ => c.value k, fun _ => c.writer k⟩

theorem Cells.onCell_write_self (c : Cells κ V) (p : Party) (k : κ) (v : V k) :
    (c.write p k v).onCell k = (c.onCell k).write p () v := by
  simp only [Cells.onCell, Cells.write, Function.update_self]
  congr 1

theorem Cells.onCell_write_of_ne (c : Cells κ V) (p : Party) {j k : κ} (h : j ≠ k) (v : V j) :
    (c.write p j v).onCell k = c.onCell k := by
  simp only [Cells.onCell, Cells.write, Function.update_of_ne h.symm]

theorem project_cons_of_some {k : κ} {a : Access κ V ω} {b : Access Unit (fun _ => V k) ω}
    (h : a.onCell place k = some b) (p : Party) (log : Log κ V ω) :
    project place k ((p, a) :: log) = (p, b) :: project place k log := by
  unfold project
  rw [List.filterMap_cons, h]
  rfl

theorem project_cons_of_none {k : κ} {a : Access κ V ω} (h : a.onCell place k = none) (p : Party)
    (log : Log κ V ω) : project place k ((p, a) :: log) = project place k log := by
  unfold project
  rw [List.filterMap_cons, h]
  rfl

theorem ofParty_project (p : Party) (k : κ) (log : Log κ V ω) :
    ofParty p (project place k log) = (ofParty p log).filterMap (·.onCell place k) := by
  induction log with
  | nil => rfl
  | cons e log ih =>
    obtain ⟨q, a⟩ := e
    cases ha : a.onCell place k with
    | none =>
      rw [project_cons_of_none place ha, ih]
      by_cases hq : q = p
      · subst hq
        rw [ofParty_cons_self, List.filterMap_cons, ha]
      · rw [ofParty_cons_of_ne hq]
    | some b =>
      rw [project_cons_of_some place ha]
      by_cases hq : q = p
      · subst hq
        rw [ofParty_cons_self, ofParty_cons_self, List.filterMap_cons, ha, ih]
      · rw [ofParty_cons_of_ne hq, ofParty_cons_of_ne hq, ih]

/-- The program a sequence has at a cell. -/
def programAt (k : κ) :
    List (Σ k, Program Unit (fun _ => V k) ω Unit) → Program Unit (fun _ => V k) ω Unit
  | [] => .pure ()
  | e :: l => if h : e.1 = k then h ▸ e.2 else programAt k l

theorem programAt_cons_self (k : κ) (x : Program Unit (fun _ => V k) ω Unit)
    (l : List (Σ k, Program Unit (fun _ => V k) ω Unit)) : programAt k (⟨k, x⟩ :: l) = x :=
  dif_pos rfl

theorem programAt_cons_of_ne {j k : κ} (h : j ≠ k) (x : Program Unit (fun _ => V j) ω Unit)
    (l : List (Σ k, Program Unit (fun _ => V k) ω Unit)) :
    programAt k (⟨j, x⟩ :: l) = programAt k l :=
  dif_neg h

theorem programAt_of_not_mem {k : κ} {l : List (Σ k, Program Unit (fun _ => V k) ω Unit)}
    (h : k ∉ l.map Sigma.fst) : programAt k l = .pure () := by
  induction l with
  | nil => rfl
  | cons e l ih =>
    rw [List.map_cons, List.mem_cons, not_or] at h
    rw [programAt, dif_neg (Ne.symm h.1), ih h.2]

theorem programAt_of_mem {l : List (Σ k, Program Unit (fun _ => V k) ω Unit)}
    (hl : (l.map Sigma.fst).Nodup) {k : κ} {x : Program Unit (fun _ => V k) ω Unit}
    (h : ⟨k, x⟩ ∈ l) : programAt k l = x := by
  induction l with
  | nil => cases h
  | cons e l ih =>
    obtain ⟨he, hkeys⟩ := List.nodup_cons.mp hl
    rcases List.mem_cons.mp h with rfl | hmem
    · exact programAt_cons_self k x l
    · have hne : e.1 ≠ k := by
        rintro rfl
        exact he (List.mem_map.mpr ⟨_, hmem, rfl⟩)
      exact (programAt_cons_of_ne hne e.2 l).trans (ih hkeys hmem)

/-- A step of a sequence is a step at one of its cells. -/
structure StepAt (c d : Cells κ V) (a : Access κ V ω)
    (l l' : List (Σ k, Program Unit (fun _ => V k) ω Unit)) (k : κ) : Prop where
  own : ∃ b, a.onCell place k = some b ∧
    (programAt k l).step .left (c.onCell k) = some (d.onCell k, b, programAt k l')
  other : ∀ j ≠ k, a.onCell place j = none ∧ d.onCell j = c.onCell j ∧
    programAt j l' = programAt j l

variable {place}

/-- Run alone, a sequence does at each cell what its program there does. -/
theorem sequence_run {l : List (Σ k, Program Unit (fun _ => V k) ω Unit)}
    (hl : (l.map Sigma.fst).Nodup) (hemits : ∀ e ∈ l, e.2.Emits fun w => place w = e.1)
    (m : ∀ k, V k) (k : κ) :
    ((Program.sequence l).run m).2.1 k = ((programAt k l).run fun _ => m k).2.1 () ∧
      ((Program.sequence l).run m).2.2.filter (place · = k) =
        ((programAt k l).run fun _ => m k).2.2 := by
  induction l generalizing m with
  | nil => exact ⟨rfl, rfl⟩
  | cons e l ih =>
    obtain ⟨j, x⟩ := e
    obtain ⟨hj, hkeys⟩ := List.nodup_cons.mp hl
    obtain ⟨hx, hrest⟩ := List.forall_mem_cons.mp hemits
    obtain ⟨hvalue, hout⟩ :=
      ih hkeys hrest (Function.update m j ((x.run fun _ => m j).2.1 ()))
    have hrun := Program.run_bind (x.onCell j) (fun _ => Program.sequence l) m
    rw [Program.onCell_run] at hrun
    change (Program.sequence (⟨j, x⟩ :: l)).run m = _ at hrun
    rw [hrun]
    by_cases hjk : j = k
    · subst hjk
      rw [programAt_of_not_mem hj] at hvalue hout
      rw [programAt_cons_self]
      constructor
      · exact hvalue.trans (Function.update_self ..)
      · have hown : (x.run fun _ => m j).2.2.filter (place · = j) = (x.run fun _ => m j).2.2 :=
          List.filter_eq_self.mpr fun w hw => by simpa using hx.run _ w hw
        simp only [List.filter_append, hout, hown]
        exact List.append_nil _
    · rw [Function.update_of_ne (Ne.symm hjk)] at hvalue hout
      rw [programAt_cons_of_ne hjk]
      constructor
      · exact hvalue
      · have hnone : (x.run fun _ => m j).2.2.filter (place · = k) = [] :=
          List.filter_eq_nil_iff.mpr fun w hw => by
            simp [show place w = j from hx.run _ w hw, hjk]
        simp only [List.filter_append, hout, hnone]
        exact List.nil_append _

theorem sequence_step {l : List (Σ k, Program Unit (fun _ => V k) ω Unit)}
    (hl : (l.map Sigma.fst).Nodup) (hemits : ∀ e ∈ l, e.2.Emits fun w => place w = e.1)
    {c d : Cells κ V} {a : Access κ V ω} {y : Program κ V ω Unit}
    (h : (Program.sequence l).step .left c = some (d, a, y)) :
    ∃ l' k, y = Program.sequence l' ∧ l'.map Sigma.fst = l.map Sigma.fst ∧
      (∀ e ∈ l', e.2.Emits fun w => place w = e.1) ∧ StepAt place c d a l l' k := by
  induction l with
  | nil => cases h
  | cons e l ih =>
    obtain ⟨k, x⟩ := e
    obtain ⟨hk, hkeys⟩ := List.nodup_cons.mp hl
    obtain ⟨hx, hrest⟩ := List.forall_mem_cons.mp hemits
    cases x with
    | pure u =>
      obtain ⟨l', j, rfl, hsame, hemits', hown, hother⟩ := ih hkeys hrest h
      have hj : k ≠ j := by
        rintro rfl
        obtain ⟨b, -, hstep⟩ := hown
        rw [programAt_of_not_mem hk] at hstep
        cases hstep
      refine ⟨⟨k, .pure u⟩ :: l', j, rfl, congrArg (k :: ·) hsame,
        List.forall_mem_cons.mpr ⟨trivial, hemits'⟩, ?_, ?_⟩
      · rwa [programAt_cons_of_ne hj, programAt_cons_of_ne hj]
      · intro i hi
        obtain ⟨hnone, hcell, hprogram⟩ := hother i hi
        refine ⟨hnone, hcell, ?_⟩
        by_cases hik : k = i
        · subst hik
          rw [programAt_cons_self, programAt_cons_self]
        · rw [programAt_cons_of_ne hik, programAt_cons_of_ne hik, hprogram]
    | read u next =>
      cases h
      refine ⟨⟨k, next (c.value k)⟩ :: l, k, rfl, rfl,
        List.forall_mem_cons.mpr ⟨hx (c.value k), hrest⟩, ?_, ?_⟩
      · refine ⟨.read () (c.value k) (c.writer k), Access.onCell_read_self .., ?_⟩
        rw [programAt_cons_self, programAt_cons_self]
        rfl
      · intro j hj
        refine ⟨Access.onCell_read_of_ne _ (Ne.symm hj) .., rfl, ?_⟩
        rw [programAt_cons_of_ne (Ne.symm hj), programAt_cons_of_ne (Ne.symm hj)]
    | update u f next =>
      cases h
      refine ⟨⟨k, next (f (c.value k))⟩ :: l, k, rfl, rfl,
        List.forall_mem_cons.mpr ⟨hx _, hrest⟩, ?_, ?_⟩
      · refine ⟨.write () (f (c.value k)), Access.onCell_write_self .., ?_⟩
        rw [programAt_cons_self, programAt_cons_self, Cells.onCell_write_self]
        rfl
      · intro j hj
        refine ⟨Access.onCell_write_of_ne _ (Ne.symm hj) _,
          Cells.onCell_write_of_ne c _ (Ne.symm hj) _, ?_⟩
        rw [programAt_cons_of_ne (Ne.symm hj), programAt_cons_of_ne (Ne.symm hj)]
    | emit w next =>
      cases h
      refine ⟨⟨k, next⟩ :: l, k, rfl, rfl, List.forall_mem_cons.mpr ⟨hx.2, hrest⟩, ?_, ?_⟩
      · refine ⟨.emit w, Access.onCell_emit_of_eq _ hx.1, ?_⟩
        rw [programAt_cons_self, programAt_cons_self]
        rfl
      · intro j hj
        refine ⟨Access.onCell_emit_of_ne _ ?_, rfl, ?_⟩
        · rw [show place w = k from hx.1]
          exact Ne.symm hj
        · rw [programAt_cons_of_ne (Ne.symm hj), programAt_cons_of_ne (Ne.symm hj)]

theorem sequence_step_none {l : List (Σ k, Program Unit (fun _ => V k) ω Unit)} {c : Cells κ V}
    (h : (Program.sequence l).step .left c = none) (k : κ) (c' : Cells Unit fun _ => V k) :
    (programAt k l).step .left c' = none := by
  induction l with
  | nil => rfl
  | cons e l ih =>
    obtain ⟨j, x⟩ := e
    cases x with
    | pure u =>
      by_cases hj : j = k
      · subst hj
        rw [programAt_cons_self]
        rfl
      · rw [programAt_cons_of_ne hj]
        exact ih h
    | read u next => cases h
    | update u f next => cases h
    | emit w next => cases h

/-- In a sequence of programs at different cells, the part about a cell is the log of its
program. -/
theorem Follows.project {c' c : Cells κ V} {log : Log κ V ω}
    {l : List (Σ k, Program Unit (fun _ => V k) ω Unit)} (hl : (l.map Sigma.fst).Nodup)
    (hemits : ∀ e ∈ l, e.2.Emits fun w => place w = e.1)
    (h : Follows c' (Program.sequence l) c log) (k : κ) :
    Follows (c'.onCell k) (programAt k l) (c.onCell k) (project place k log) := by
  induction log generalizing l c with
  | nil =>
    obtain ⟨hstep, rfl⟩ := h
    exact ⟨sequence_step_none hstep k _, rfl⟩
  | cons e log ih =>
    obtain ⟨p, a⟩ := e
    cases p with
    | left =>
      obtain ⟨d, y, hstep, hrest⟩ := h
      obtain ⟨l', j, rfl, hkeys, hemits', hown, hother⟩ := sequence_step hl hemits hstep
      have hproject := ih (hkeys ▸ hl) hemits' hrest
      by_cases hj : k = j
      · subst hj
        obtain ⟨b, hb, hbstep⟩ := hown
        rw [project_cons_of_some place hb]
        exact ⟨_, _, hbstep, hproject⟩
      · obtain ⟨hnone, hcell, hprogram⟩ := hother k hj
        rw [project_cons_of_none place hnone]
        rwa [hcell, hprogram] at hproject
    | right =>
      cases a with
      | read j v w =>
        have hproject := ih hl hemits h
        by_cases hj : j = k
        · subst hj
          rwa [project_cons_of_some place (Access.onCell_read_self place j v w)]
        · rwa [project_cons_of_none place (Access.onCell_read_of_ne place hj v w)]
      | write j v =>
        have hproject := ih hl hemits h
        by_cases hj : j = k
        · subst hj
          rw [project_cons_of_some place (Access.onCell_write_self place j v)]
          rwa [Cells.onCell_write_self] at hproject
        · rw [project_cons_of_none place (Access.onCell_write_of_ne place hj v)]
          rwa [Cells.onCell_write_of_ne c _ hj] at hproject
      | emit w =>
        have hproject := ih hl hemits h
        by_cases hw : place w = k
        · rwa [project_cons_of_some place (Access.onCell_emit_of_eq place hw)]
        · rwa [project_cons_of_none place (Access.onCell_emit_of_ne place hw)]

/-- The writes to one cell, in order. -/
def writesTo (k : κ) (ws : List (Σ k, V k)) : List (V k) :=
  ws.filterMap fun e => if h : e.1 = k then some (h ▸ e.2) else none

theorem filterMap_onCell_write (k : κ) (ws : List (Σ k, V k)) :
    (ws.map fun e => (Access.write e.1 e.2 : Access κ V ω)).filterMap (·.onCell place k) =
      (writesTo k ws).map (Access.write ()) := by
  unfold writesTo
  rw [List.filterMap_map, List.map_filterMap]
  apply List.filterMap_congr
  intro e _
  obtain ⟨j, v⟩ := e
  by_cases hj : j = k
  · subst hj
    simp
  · simp [Access.onCell_write_of_ne place hj, hj]

end Projection

/-! ### A program beside a row of writes -/

section Beside
variable {W : Type}

/-- The number of entries of the right party before an entry of the left party. -/
def turnsBefore : ℕ → Log κ V ω → ℕ
  | _, [] => 0
  | 0, (.left, _) :: _ => 0
  | i + 1, (.left, _) :: log => turnsBefore i log
  | i, (.right, _) :: log => turnsBefore i log + 1

/-- What the cell holds after so many of the writes. -/
def held (v : W) (ws : List W) (i : ℕ) : W := (ws.take i).getLast?.getD v

/-- The outputs of a log, in order. -/
def outputs (log : Log κ V ω) : List ω :=
  log.filterMap fun
    | (_, .emit w) => some w
    | _ => none

@[simp] theorem held_zero (v : W) (ws : List W) : held v ws 0 = v := by
  simp [held]

theorem held_cons_succ (v w : W) (ws : List W) (i : ℕ) :
    held v (w :: ws) (i + 1) = held w ws i := by
  unfold held
  rw [List.take_succ_cons, List.getLast?_cons]
  rfl

/-- Writes go on from what the ones before have left. -/
theorem held_held (v : W) (ws : List W) (i j : ℕ) :
    held (held v ws i) (ws.drop i) j = held v ws (i + j) := by
  unfold held
  rw [List.take_add, List.getLast?_append]
  cases ((ws.drop i).take j).getLast? <;> rfl

/-- Where a write follows, what was there before does not matter. -/
theorem held_of_pos (v v' : W) {ws : List W} (hws : ws ≠ []) {i : ℕ} (hi : 0 < i) :
    held v ws i = held v' ws i := by
  cases ws with
  | nil => exact absurd rfl hws
  | cons w ws =>
    obtain ⟨i, rfl⟩ : ∃ j, i = j + 1 := ⟨i - 1, by omega⟩
    rw [held_cons_succ, held_cons_succ]

theorem held_eq_ite (v v' : W) {ws : List W} {i : ℕ} (hi : i ≤ ws.length) :
    held v ws i = if 0 < i then held v' ws i else v := by
  split_ifs with hpos
  · refine held_of_pos v v' ?_ hpos
    rintro rfl
    exact absurd hpos (Nat.not_lt_of_le hi)
  · rw [Nat.eq_zero_of_not_pos hpos, held_zero]

/-- What is held is the first content or one of the writes. -/
theorem held_mem (v : W) (ws : List W) (i : ℕ) : held v ws i = v ∨ held v ws i ∈ ws := by
  unfold held
  cases h : (ws.take i).getLast? with
  | none => exact .inl rfl
  | some w => exact .inr (List.mem_of_mem_take (List.mem_of_getLast? h))

/-- The log of what is left of a program over one cell with the content `v`, beside the writes
that are left. -/
structure Beside (c' : Cells Unit fun _ => W) (v : W) (x : Program Unit (fun _ => W) ω α)
    (ws : List W) (log : Log Unit (fun _ => W) ω) : Prop where
  follows : ∃ c : Cells Unit fun _ => W, c.value () = v ∧ Follows c' x c log
  right : ofParty .right log = ws.map (Access.write ())

variable {c' : Cells Unit fun _ => W} {v : W} {x : Program Unit (fun _ => W) ω α} {ws : List W}
  {log : Log Unit (fun _ => W) ω}

/-- A write of the right party comes first. -/
theorem Beside.cons_right {a : Access Unit (fun _ => W) ω}
    (h : Beside c' v x ws ((.right, a) :: log)) :
    ∃ w ws', ws = w :: ws' ∧ a = .write () w ∧ Beside c' w x ws' log := by
  obtain ⟨⟨c, -, hfollows⟩, hright⟩ := h
  rw [ofParty_cons_self] at hright
  cases ws with
  | nil => cases hright
  | cons w ws =>
    obtain ⟨rfl, hrest⟩ := List.cons.inj hright
    exact ⟨w, ws, rfl, rfl, ⟨c.write .right () w, rfl, hfollows⟩, hrest⟩

/-- After the program the rest of the writes. -/
theorem Beside.pure {a : α} (h : Beside c' v (.pure a) ws log) :
    c'.value () = held v ws ws.length ∧ outputs log = [] := by
  induction log generalizing v ws with
  | nil =>
    obtain ⟨⟨c, rfl, -, rfl⟩, hright⟩ := h
    obtain rfl : ws = [] := List.map_eq_nil_iff.mp hright.symm
    exact ⟨(held_zero ..).symm, rfl⟩
  | cons e log ih =>
    obtain ⟨p, a⟩ := e
    cases p with
    | left =>
      obtain ⟨⟨c, -, d, x', hstep, -⟩, -⟩ := h
      cases hstep
    | right =>
      obtain ⟨w, ws, rfl, rfl, hrest⟩ := h.cons_right
      rw [List.length_cons, held_cons_succ]
      exact ih hrest

/-- The next step of the program comes after some of the writes. -/
theorem Beside.next (h : Beside c' v x ws log) (hx : ∀ a, x ≠ .pure a) :
    ∃ i ≤ ws.length, ∃ (c d : Cells Unit fun _ => W) (a : Access Unit (fun _ => W) ω)
      (x' : Program Unit (fun _ => W) ω α) (log' : Log Unit (fun _ => W) ω),
      c.value () = held v ws i ∧ x.step .left c = some (d, a, x') ∧
      Beside c' (d.value ()) x' (ws.drop i) log' ∧
      outputs log = outputs [(Party.left, a)] ++ outputs log' ∧ turnsBefore 0 log = i ∧
      ∀ j, turnsBefore (j + 1) log = i + turnsBefore j log' := by
  induction log generalizing v ws with
  | nil =>
    obtain ⟨⟨c, -, hstep, -⟩, -⟩ := h
    cases x with
    | pure a => exact absurd rfl (hx a)
    | read k next => cases hstep
    | update k f next => cases hstep
    | emit w next => cases hstep
  | cons e log ih =>
    obtain ⟨p, a⟩ := e
    cases p with
    | left =>
      obtain ⟨⟨c, rfl, d, x', hstep, hrest⟩, hright⟩ := h
      rw [ofParty_cons_of_ne (by decide)] at hright
      refine ⟨0, Nat.zero_le _, c, d, a, x', log, (held_zero ..).symm, hstep,
        ⟨⟨d, rfl, hrest⟩, hright⟩, ?_, rfl, ?_⟩
      · exact List.filterMap_append (l := [(Party.left, a)])
      · intro j
        exact (Nat.zero_add _).symm
    | right =>
      obtain ⟨w, ws, rfl, rfl, hrest⟩ := h.cons_right
      obtain ⟨i, hi, c, d, b, x', log', hc, hstep, hbeside, hout, hfirst, hturns⟩ := ih hrest
      refine ⟨i + 1, Nat.succ_le_succ hi, c, d, b, x', log', ?_, hstep, hbeside, hout,
        congrArg (· + 1) hfirst, ?_⟩
      · rw [hc, held_cons_succ]
      · intro j
        change turnsBefore (j + 1) log + 1 = _
        rw [hturns]
        omega

/-- The first step in a log comes after `i` of the writes, `k` of which were made before the log;
`rest` is the log behind it. -/
structure Turn (ws : List W) (k : ℕ) (log : Log Unit (fun _ => W) ω) (i : ℕ)
    (rest : Log Unit (fun _ => W) ω) : Prop where
  le : k ≤ i
  le_length : i ≤ ws.length
  first : k + turnsBefore 0 log = i
  turns : ∀ j, k + turnsBefore (j + 1) log = i + turnsBefore j rest

theorem Turn.shift {k i : ℕ} {rest : Log Unit (fun _ => W) ω} (h : Turn ws k log i rest) (a : ℕ) :
    (fun j => k + turnsBefore (a + 1 + j) log) = fun j => i + turnsBefore (a + j) rest := by
  funext j
  rw [Nat.add_right_comm, h.turns]

/-- What becomes of a content from the `k`-th to the `i`-th of the writes. -/
def carried (w : W) (ws : List W) (k i : ℕ) : W := held w (ws.drop k) (i - k)

theorem carried_held (v : W) (ws : List W) {k i : ℕ} (h : k ≤ i) :
    carried (held v ws k) ws k i = held v ws i := by
  rw [carried, held_held, Nat.add_sub_of_le h]

variable {k : ℕ} {w : W}

theorem Beside.turn (h : Beside c' w x (ws.drop k) log) (hk : k ≤ ws.length)
    (hx : ∀ a, x ≠ .pure a) :
    ∃ i rest, Turn ws k log i rest ∧ ∃ (c d : Cells Unit fun _ => W)
      (a : Access Unit (fun _ => W) ω) (x' : Program Unit (fun _ => W) ω α),
      c.value () = carried w ws k i ∧ x.step .left c = some (d, a, x') ∧
      Beside c' (d.value ()) x' (ws.drop i) rest ∧
      outputs log = outputs [(Party.left, a)] ++ outputs rest := by
  obtain ⟨i, hi, c, d, a, x', rest, hc, hstep, hbeside, hout, hfirst, hturns⟩ := h.next hx
  rw [List.length_drop] at hi
  rw [List.drop_drop] at hbeside
  refine ⟨k + i, rest, ⟨Nat.le_add_right k i, by omega, by rw [hfirst], ?_⟩, c, d, a, x', ?_,
    hstep, hbeside, hout⟩
  · intro j
    rw [hturns, Nat.add_assoc]
  · rw [carried, Nat.add_sub_cancel_left, hc]

variable {next : W → Program Unit (fun _ => W) ω α}

/-- A read sees what the writes so far have left. -/
theorem Beside.read (h : Beside c' w (.read () next) (ws.drop k) log) (hk : k ≤ ws.length) :
    ∃ i rest, Turn ws k log i rest ∧
      Beside c' (carried w ws k i) (next (carried w ws k i)) (ws.drop i) rest ∧
      outputs log = outputs rest := by
  obtain ⟨i, rest, hturn, c, d, a, x', hc, hstep, hbeside, hout⟩ := h.turn hk fun a => nofun
  cases hstep
  rw [hc] at hbeside
  exact ⟨i, rest, hturn, hbeside, hout⟩

theorem Beside.update {f : W → W} (h : Beside c' w (.update () f next) (ws.drop k) log)
    (hk : k ≤ ws.length) :
    ∃ i rest, Turn ws k log i rest ∧
      Beside c' (f (carried w ws k i)) (next (f (carried w ws k i))) (ws.drop i) rest ∧
      outputs log = outputs rest := by
  obtain ⟨i, rest, hturn, c, d, a, x', hc, hstep, hbeside, hout⟩ := h.turn hk fun a => nofun
  cases hstep
  rw [hc] at hbeside
  exact ⟨i, rest, hturn, hbeside, hout⟩

theorem Beside.emit {output : ω} {after : Program Unit (fun _ => W) ω α}
    (h : Beside c' w (.emit output after) (ws.drop k) log) (hk : k ≤ ws.length) :
    ∃ i rest, Turn ws k log i rest ∧ Beside c' (carried w ws k i) after (ws.drop i) rest ∧
      outputs log = output :: outputs rest := by
  obtain ⟨i, rest, hturn, c, d, a, x', hc, hstep, hbeside, hout⟩ := h.turn hk fun a => nofun
  cases hstep
  rw [hc] at hbeside
  exact ⟨i, rest, hturn, hbeside, hout⟩

/-- Behind the program come the writes that are left. -/
theorem Beside.done {a : α} (h : Beside c' w (.pure a) (ws.drop k) log) :
    c'.value () = carried w ws k ws.length ∧ outputs log = [] := by
  have hpure := h.pure
  rwa [List.length_drop] at hpure

/-! ### A field of the content -/

section Since
variable {X : Type}

/-- A field that was set to `value` after `s` of the writes, in the content after `i` of them. -/
def Since (g : W → X) (v : W) (ws : List W) (value : X) (s i : ℕ) (w : W) : Prop :=
  g w = if s < i then g (held v ws i) else value

variable {g : W → X} {value : X} {s i : ℕ}

/-- It has just been set. -/
theorem Since.now (h : g w = value) : Since g v ws value i i w :=
  h.trans (if_neg (Nat.lt_irrefl i)).symm

/-- The next write replaces it, whatever the writes before it were. -/
theorem Since.carry (h : Since g v ws value s k w) (hs : s ≤ k) (hki : k ≤ i)
    (hi : i ≤ ws.length) : Since g v ws value s i (carried w ws k i) := by
  have hleft : i - k ≤ (ws.drop k).length := by
    rw [List.length_drop]
    omega
  unfold Since carried
  rw [held_eq_ite w (held v ws k) hleft, apply_ite g, held_held, Nat.add_sub_of_le hki]
  by_cases hlater : k < i
  · rw [if_pos (by omega), if_pos (by omega)]
  · obtain rfl : k = i := Nat.le_antisymm hki (Nat.not_lt.mp hlater)
    rw [if_neg (by omega)]
    exact h

/-- A step that does not set it keeps it. -/
theorem Since.keep {w' : W} (h : Since g v ws value s i w) (hkeep : g w' = g w) :
    Since g v ws value s i w' :=
  hkeep.trans h

end Since

end Beside

/-! ### One cell of a sequence beside writes to many cells -/

section Sequence
variable (place : ω → κ)

theorem outputs_project (k : κ) (log : Log κ V ω) :
    outputs (project place k log) = (outputs log).filter (place · = k) := by
  induction log with
  | nil => rfl
  | cons e log ih =>
    obtain ⟨p, a⟩ := e
    cases a with
    | read j v w =>
      by_cases hj : j = k
      · subst hj
        rwa [project_cons_of_some place (Access.onCell_read_self place j v w)]
      · rwa [project_cons_of_none place (Access.onCell_read_of_ne place hj v w)]
    | write j v =>
      by_cases hj : j = k
      · subst hj
        rwa [project_cons_of_some place (Access.onCell_write_self place j v)]
      · rwa [project_cons_of_none place (Access.onCell_write_of_ne place hj v)]
    | emit w =>
      change _ = (w :: outputs log).filter _
      by_cases hw : place w = k
      · rw [project_cons_of_some place (Access.onCell_emit_of_eq place hw),
          List.filter_cons_of_pos (by simpa using hw), ← ih]
        rfl
      · rwa [project_cons_of_none place (Access.onCell_emit_of_ne place hw),
          List.filter_cons_of_neg (by simpa using hw)]

variable {place} {l : List (Σ k, Program Unit (fun _ => V k) ω Unit)}

/-- Whatever the schedule, the program at a cell runs beside the writes to that cell. -/
theorem interleave_beside (hl : (l.map Sigma.fst).Nodup)
    (hemits : ∀ e ∈ l, e.2.Emits fun w => place w = e.1) (m : ∀ k, V k) (ws : List (Σ k, V k))
    (schedule : List Party) (k : κ) :
    let r := interleave schedule (Cells.fresh m) (Program.sequence l)
      (Program.writes ws : Program κ V ω Unit)
    Beside (r.1.onCell k) (m k) (programAt k l) (writesTo k ws) (project place k r.2) := by
  intro r
  refine ⟨⟨(Cells.fresh m).onCell k, rfl, ?_⟩, ?_⟩
  · exact (interleave_follows schedule _ _ _).project hl hemits k
  · rw [ofParty_project, Program.writes_trace (interleave_trace schedule _ _ _).2,
      filterMap_onCell_write]

end Sequence

end SharedCells
