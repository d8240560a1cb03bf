import Mathlib.Data.List.ReduceOption
import ASNeGDemo.TestStatusCode.Isolation

/-!
The status code that `TestStatusCode` publishes. It is switched at the head of a tick, when the
last switch is more than five seconds ago, and is then the same for all nodes of the tick.
-/
namespace ASNeGDemo.TestStatusCode

variable {P : Platform}

/-- The clock readings that the switch of a tick takes. -/
def switchReadings (s : State P) (env : Env) : List DateTime :=
  if s.switchTime + seconds 5 < env.clock.head then [env.clock.head, env.clock.tail.head]
  else [env.clock.head]

/-- A tick seen from outside: the readings it decided on, the status code before and after it,
and what it published. -/
structure TickRecord (P : Platform) where
  readings : List DateTime
  before : StatusCode
  after : StatusCode
  published : List (Publication P)

def tickRecord (s : State P) : Event P → Option (TickRecord P)
  | .timerLoop live env => some
      { readings := switchReadings s env
        before := s.statusCode
        after := (timerLoop s live env).1.1.statusCode
        published := (timerLoop s live env).1.2 }
  | _ => none

/-- The ticks of a run, in order. -/
def ticksFrom (s : State P) (es : List (Event P)) : List (TickRecord P) :=
  (Runs.run (fun s e => ((step s e).1, tickRecord s e)) s es).2.reduceOption

/-- The ticks of a run that change the status code. -/
def switchesFrom (s : State P) (es : List (Event P)) : List (TickRecord P) :=
  (ticksFrom s es).filter fun t => t.before ≠ t.after

/-! ### One tick -/

/-- The readings are those the switch draws from the clock. -/
theorem switchReadings_taken (s : State P) (env : Env) :
    switchReadings s env = env.clock.take (switchReadings s env).length ∧
      (switchStatus s env).2.clock = env.clock.drop (switchReadings s env).length := by
  unfold switchReadings switchStatus
  simp only [Sim.bind_apply]
  by_cases hdue : s.switchTime + seconds 5 < env.clock.head
  · have hdue' : s.switchTime + seconds 5 < (universalTime env).1 := hdue
    rw [if_pos hdue, if_pos hdue']
    exact ⟨rfl, rfl⟩
  · have hdue' : ¬ s.switchTime + seconds 5 < (universalTime env).1 := hdue
    rw [if_neg hdue, if_neg hdue']
    exact ⟨rfl, rfl⟩

/-- A tick switches, or leaves the status code and the time of the last switch alone. -/
theorem timerLoop_switch (s : State P) (live : NodeRef → Bool) (env : Env) :
    (s.switchTime + seconds 5 < env.clock.head ∧
        switchReadings s env = [env.clock.head, env.clock.tail.head] ∧
        (timerLoop s live env).1.1.switchTime = env.clock.tail.head ∧
        (timerLoop s live env).1.1.statusCode = toggled s.statusCode) ∨
      (switchReadings s env = [env.clock.head] ∧
        (timerLoop s live env).1.1.switchTime = s.switchTime ∧
        (timerLoop s live env).1.1.statusCode = s.statusCode) := by
  have htime : (timerLoop s live env).1.1.switchTime = (switchStatus s env).1.switchTime := rfl
  have hcode : (timerLoop s live env).1.1.statusCode = (switchStatus s env).1.statusCode := rfl
  rw [htime, hcode]
  unfold switchReadings switchStatus
  simp only [Sim.bind_apply]
  by_cases hdue : s.switchTime + seconds 5 < env.clock.head
  · have hdue' : s.switchTime + seconds 5 < (universalTime env).1 := hdue
    rw [if_pos hdue, if_pos hdue']
    exact .inl ⟨hdue, rfl, rfl, rfl⟩
  · have hdue' : ¬ s.switchTime + seconds 5 < (universalTime env).1 := hdue
    rw [if_neg hdue, if_neg hdue']
    exact .inr ⟨rfl, rfl, rfl⟩

theorem visit_published (statusCode : StatusCode) (references : OrderedMap NodeId NodeRef)
    (live : NodeRef → Bool) (pass : Pass P) (entry : NodeId × ℕ) (env : Env)
    (hpass : ∀ p ∈ pass.published, p.dataValue.statusCode = statusCode) :
    ∀ p ∈ (visit statusCode references live pass entry env).1.published,
      p.dataValue.statusCode = statusCode := by
  rcases visit_cases statusCode references live pass entry env with
    ⟨heq, -⟩ | ⟨reference, dataValue, heap, -, -, hu, heq⟩
  · rw [heq]
    exact hpass
  · rw [heq]
    intro p hp
    rcases List.mem_append.mp hp with hp | hp
    · exact hpass p hp
    · rw [List.mem_singleton.mp hp]
      exact update_statusCode hu

/-- All that a tick publishes carries the status code the tick ends with. -/
theorem timerLoop_published (s : State P) (live : NodeRef → Bool) (env : Env) :
    ∀ p ∈ (timerLoop s live env).1.2,
      p.dataValue.statusCode = (timerLoop s live env).1.1.statusCode := by
  have hcode : (timerLoop s live env).1.1.statusCode = (switchStatus s env).1.statusCode := rfl
  have hpublished : (timerLoop s live env).1.2 =
      (passOver s live s.valueMap.entries env).1.published := by
    simp only [timerLoop, passOver, Sim.bind_apply, Sim.pure_apply, (switchStatus_frame s env).1]
  rw [hcode, hpublished]
  refine passOver_preserves (fun pass _ => ∀ p ∈ pass.published,
    p.dataValue.statusCode = (switchStatus s env).1.statusCode) ?_ ?_
  · intro pass entry env'
    exact visit_published _ _ live pass entry env'
  · exact fun p hp => absurd hp List.not_mem_nil

theorem writeValue_switch (s : State P) (n : NodeId) (dataValue : DataValue (Value P)) :
    (writeValue s n dataValue).1.switchTime = s.switchTime ∧
      (writeValue s n dataValue).1.statusCode = s.statusCode := by
  unfold writeValue
  cases s.valueMap.find n <;> exact ⟨rfl, rfl⟩

/-! ### Events -/

/-- A switch is due more than five seconds after the last one and notes its own time. -/
structure DueSwitch (s s' : State P) (t : TickRecord P) : Prop where
  due : ∃ now, t.readings = [now, s'.switchTime] ∧ s.switchTime + seconds 5 < now
  toggles : s'.statusCode = toggled s.statusCode

/-- Any other event leaves the status code and the time of the last switch. -/
structure NoSwitch (s s' : State P) : Prop where
  switchTime : s'.switchTime = s.switchTime
  statusCode : s'.statusCode = s.statusCode

/-- What an event does to the status code, and what there is to see of it. -/
theorem step_cases (s : State P) (e : Event P) :
    (tickRecord s e = none ∧ NoSwitch s (step s e).1) ∨
      ∃ t, tickRecord s e = some t ∧ t.before = s.statusCode ∧
        t.after = (step s e).1.statusCode ∧ (∀ p ∈ t.published, p.dataValue.statusCode = t.after) ∧
        (DueSwitch s (step s e).1 t ∨ NoSwitch s (step s e).1) := by
  cases e with
  | readValue n => exact .inl ⟨rfl, rfl, rfl⟩
  | writeValue n dataValue =>
    obtain ⟨htime, hcode⟩ := writeValue_switch s n dataValue
    exact .inl ⟨rfl, htime, hcode⟩
  | timerLoop live env =>
    refine .inr ⟨_, rfl, rfl, rfl, timerLoop_published s live env, ?_⟩
    rcases timerLoop_switch s live env with ⟨hdue, hreadings, htime, hcode⟩ | ⟨-, htime, hcode⟩
    · left
      refine ⟨⟨env.clock.head, ?_, hdue⟩, hcode⟩
      show switchReadings s env = [env.clock.head, (timerLoop s live env).1.1.switchTime]
      rw [hreadings, htime]
    · exact .inr ⟨htime, hcode⟩

/-! ### Runs -/

section Runs
variable {s : State P} {e : Event P} {es : List (Event P)}

theorem ticksFrom_cons_none (h : tickRecord s e = none) :
    ticksFrom s (e :: es) = ticksFrom (step s e).1 es := by
  unfold ticksFrom
  rw [Runs.run_cons, h]
  exact List.reduceOption_cons_of_none _

theorem ticksFrom_cons_some {t : TickRecord P} (h : tickRecord s e = some t) :
    ticksFrom s (e :: es) = t :: ticksFrom (step s e).1 es := by
  unfold ticksFrom
  rw [Runs.run_cons, h]
  exact List.reduceOption_cons_of_some t _

theorem switchesFrom_cons_none (h : tickRecord s e = none) :
    switchesFrom s (e :: es) = switchesFrom (step s e).1 es := by
  rw [switchesFrom, ticksFrom_cons_none h, switchesFrom]

theorem switchesFrom_cons_ne {t : TickRecord P} (h : tickRecord s e = some t)
    (hswitch : t.before ≠ t.after) :
    switchesFrom s (e :: es) = t :: switchesFrom (step s e).1 es := by
  rw [switchesFrom, ticksFrom_cons_some h]
  exact List.filter_cons_of_pos (by simpa using hswitch)

theorem switchesFrom_cons_eq {t : TickRecord P} (h : tickRecord s e = some t)
    (hstays : t.before = t.after) :
    switchesFrom s (e :: es) = switchesFrom (step s e).1 es := by
  rw [switchesFrom, ticksFrom_cons_some h]
  exact List.filter_cons_of_neg (by simpa using hstays)

/-- The readings of a switch lie behind the last one, and not behind the time it notes. -/
theorem DueSwitch.reached {s' : State P} {t : TickRecord P} (hdue : DueSwitch s s' t)
    (hown : t.readings.Pairwise (· ≤ ·)) :
    s.switchTime + seconds 5 < s'.switchTime ∧
      ∀ a ∈ t.readings, s.switchTime + seconds 5 < a ∧ a ≤ s'.switchTime := by
  obtain ⟨now, hreadings, hnow⟩ := hdue.due
  rw [hreadings, List.pairwise_pair] at hown
  have hnoted : s.switchTime + seconds 5 < s'.switchTime := hnow.trans_le hown
  refine ⟨hnoted, ?_⟩
  intro a ha
  rw [hreadings, List.mem_pair] at ha
  rcases ha with rfl | rfl
  · exact ⟨hnow, hown⟩
  · exact ⟨hnoted, le_rfl⟩

/-- The two readings that belong to switches are more than five seconds apart. -/
def Spaced (t u : TickRecord P) : Prop :=
  ∀ a ∈ t.readings, ∀ b ∈ u.readings, a + seconds 5 < b

/-- On a clock that does not go back, the next switch is due more than five seconds after the
last one, and so are the switches of a run. -/
theorem switches_spaced
    (hclock : ((ticksFrom s es).flatMap TickRecord.readings).Pairwise (· ≤ ·)) :
    (∀ u ∈ switchesFrom s es, ∀ b ∈ u.readings, s.switchTime + seconds 5 < b) ∧
      (switchesFrom s es).Pairwise Spaced := by
  induction es generalizing s with
  | nil => exact ⟨fun u hu => absurd hu List.not_mem_nil, List.Pairwise.nil⟩
  | cons e es ih =>
    rcases step_cases s e with ⟨hnone, hsame⟩ | ⟨t, ht, hbefore, hafter, -, hcases⟩
    · rw [ticksFrom_cons_none hnone] at hclock
      rw [switchesFrom_cons_none hnone, ← hsame.switchTime]
      exact ih hclock
    · rw [ticksFrom_cons_some ht, List.flatMap_cons, List.pairwise_append] at hclock
      obtain ⟨hown, hrest, -⟩ := hclock
      obtain ⟨hbound, hpairs⟩ := ih hrest
      rcases hcases with hdue | hsame
      · obtain ⟨hnoted, hreached⟩ := hdue.reached hown
        have hlater : ∀ u ∈ switchesFrom (step s e).1 es, ∀ b ∈ u.readings,
            s.switchTime + seconds 5 < b := by
          intro u hu b hb
          have hlast := hnoted.trans (lt_add_of_pos_right _ (by decide : 0 < seconds 5))
          exact hlast.trans (hbound u hu b hb)
        by_cases hswitch : t.before = t.after
        · rw [switchesFrom_cons_eq ht hswitch]
          exact ⟨hlater, hpairs⟩
        · rw [switchesFrom_cons_ne ht hswitch]
          constructor
          · intro u hu
            rcases List.mem_cons.mp hu with rfl | hu
            · exact fun b hb => (hreached b hb).1
            · exact hlater u hu
          · apply List.Pairwise.cons _ hpairs
            intro u hu a ha b hb
            have hle : a + seconds 5 ≤ (step s e).1.switchTime + seconds 5 :=
              Int.add_le_add_right (hreached a ha).2 (seconds 5)
            exact hle.trans_lt (hbound u hu b hb)
      · have hstays : t.before = t.after := by rw [hbefore, hafter, hsame.statusCode]
        rw [switchesFrom_cons_eq ht hstays, ← hsame.switchTime]
        exact ⟨hbound, hpairs⟩

/-- Every switch toggles what the switch before it left. -/
theorem switches_toggle (s : State P) (es : List (Event P)) :
    (∀ k t, (switchesFrom s es)[k]? = some t →
      t.before = toggled^[k] s.statusCode ∧ t.after = toggled^[k + 1] s.statusCode) ∧
    (Runs.run step s es).1.statusCode = toggled^[(switchesFrom s es).length] s.statusCode := by
  induction es generalizing s with
  | nil =>
    constructor
    · intro k t ht
      exact absurd (List.mem_of_getElem? ht) List.not_mem_nil
    · rfl
  | cons e es ih =>
    obtain ⟨ihswitches, ihlast⟩ := ih (step s e).1
    rw [Runs.run_cons]
    rcases step_cases s e with ⟨hnone, hsame⟩ | ⟨t, ht, hbefore, hafter, -, hcases⟩
    · rw [switchesFrom_cons_none hnone, ← hsame.statusCode]
      exact ⟨ihswitches, ihlast⟩
    · by_cases hswitch : t.before = t.after
      · have hnext : (step s e).1.statusCode = s.statusCode := by
          rw [← hafter, ← hbefore]
          exact hswitch.symm
        rw [switchesFrom_cons_eq ht hswitch, ← hnext]
        exact ⟨ihswitches, ihlast⟩
      · have hnext : (step s e).1.statusCode = toggled s.statusCode := by
          rcases hcases with hdue | hsame
          · exact hdue.toggles
          · exact absurd (by rw [hbefore, hafter, hsame.statusCode]) hswitch
        rw [hnext] at ihswitches ihlast hafter
        rw [switchesFrom_cons_ne ht hswitch]
        constructor
        · intro k u hu
          cases k with
          | zero =>
            obtain rfl : t = u := by simpa using hu
            exact ⟨hbefore, hafter⟩
          | succ k => exact ihswitches k u hu
        · exact ihlast

theorem ticks_uniform (s : State P) (es : List (Event P)) :
    ∀ t ∈ ticksFrom s es, ∀ p ∈ t.published, p.dataValue.statusCode = t.after := by
  induction es generalizing s with
  | nil => exact fun t ht => absurd ht List.not_mem_nil
  | cons e es ih =>
    rcases step_cases s e with ⟨hnone, -⟩ | ⟨t, ht, -, -, huniform, -⟩
    · rw [ticksFrom_cons_none hnone]
      exact ih _
    · rw [ticksFrom_cons_some ht]
      intro u hu
      rcases List.mem_cons.mp hu with rfl | hu
      · exact huniform
      · exact ih _ u hu

end Runs

/-- The status code after a number of switches of a fresh object. -/
def codeAfter (switches : ℕ) : StatusCode :=
  if Even switches then .success else .badNotConnected

theorem iterate_toggled (k : ℕ) : toggled^[k] .success = codeAfter k := by
  induction k with
  | zero => rfl
  | succ k ih =>
    rw [Function.iterate_succ_apply', ih]
    unfold codeAfter
    by_cases hk : Even k
    · rw [if_pos hk, if_neg (by rw [Nat.even_add_one]; exact not_not.mpr hk)]
      rfl
    · rw [if_neg hk, if_pos (Nat.even_add_one.mpr hk)]
      rfl

theorem created_statusCode (env : Env) (ns : ℕ) (references : OrderedMap NodeId NodeRef) :
    (created P env ns references).statusCode = .success := by
  have hfilled := (createValueMap_filled (named P env ns) (construct P env).2).statusCode
  unfold created
  generalize createValueMap (named P env ns) (construct P env).2 = made at hfilled ⊢
  exact hfilled

/-- On a clock that does not go back, in every run from `createValueMap` on: the status code
alternates between its two values, any two switches are more than five seconds apart, and all
that a tick publishes carries the status code the tick ends with. -/
theorem status_switching (env : Env) (ns : ℕ) (references : OrderedMap NodeId NodeRef)
    {es : List (Event P)}
    (hclock : ((ticksFrom (created P env ns references) es).flatMap TickRecord.readings).Pairwise
      (· ≤ ·)) :
    let switches := switchesFrom (created P env ns references) es
    (∀ k t, switches[k]? = some t → t.before = codeAfter k ∧ t.after = codeAfter (k + 1)) ∧
    (reached P env ns references es).statusCode = codeAfter switches.length ∧
    switches.Pairwise Spaced ∧
    ∀ t ∈ ticksFrom (created P env ns references) es, ∀ p ∈ t.published,
      p.dataValue.statusCode = t.after := by
  intro switches
  obtain ⟨htoggle, hlast⟩ := switches_toggle (created P env ns references) es
  rw [created_statusCode] at htoggle hlast
  simp only [iterate_toggled] at htoggle hlast
  exact ⟨htoggle, hlast, (switches_spaced hclock).2, ticks_uniform _ es⟩

/-- Ticks after 6, 7 and 12 seconds, with a write before the second one: two switches. -/
theorem status_switching_two_switches :
    let env : Env := ⟨Stream'.const 0, Stream'.const 0⟩
    let tick (n : ℤ) : Event exactPlatform :=
      .timerLoop (fun _ => true) ⟨Stream'.const 0, Stream'.const (seconds n)⟩
    let references := OrderedMap.empty.insertAll [(nodeId 200 2, 0)]
    let write : Event exactPlatform :=
      .writeValue (nodeId 200 2)
        ⟨.scalar (.int .sByte) (IntType.wrap .sByte 1), .badNotSupported, 0, 0⟩
    let es := [tick 6, write, tick 7, tick 12]
    let switches := switchesFrom (created exactPlatform env 2 references) es
    switches.length = 2 ∧ switches.Pairwise Spaced ∧
      (reached exactPlatform env 2 references es).statusCode = .success ∧
      ∀ t ∈ ticksFrom (created exactPlatform env 2 references) es, ∀ p ∈ t.published,
        p.dataValue.statusCode = t.after := by
  intro env tick references write es switches
  have htwo : switches.length = 2 := by decide +kernel
  have hclock : ((ticksFrom (created exactPlatform env 2 references) es).flatMap
      TickRecord.readings).Pairwise (· ≤ ·) := by
    decide +kernel
  obtain ⟨-, hlast, hspaced, huniform⟩ := status_switching env 2 references hclock
  exact ⟨htwo, hspaced, hlast.trans (congrArg codeAfter htwo), huniform⟩

end ASNeGDemo.TestStatusCode
