import ASNeGDemo.Lifecycle.LoopTime
import ASNeGDemo.Lifecycle.Restart

/-!
The periods of the timer elements that run, over a whole life. Every startup that returns true adds
an element; the object holds the last one only, so that is the only one a loop time can replace.
-/
namespace ASNeGDemo

variable {P : Platform}

/-- The periods of the elements that run, in the order they were started. -/
def SlotTimer.periods (t : SlotTimer) : List ℕ :=
  (t.elements.filter (·.running)).map (·.interval)

theorem SlotTimer.periods_append (t : SlotTimer) (es : List TimerElement) :
    (⟨t.elements ++ es⟩ : SlotTimer).periods = t.periods ++ (⟨es⟩ : SlotTimer).periods := by
  unfold SlotTimer.periods
  rw [List.filter_append, List.map_append]

theorem SlotTimer.periods_start (t : SlotTimer) (interval : ℕ) :
    (t.start interval).periods = t.periods ++ [interval] :=
  t.periods_append [⟨interval, true⟩]

/-- What a callback makes of the periods: a loop time, raised to 100, takes the place of the last
one. -/
def Callback.periods (periods : List ℕ) : Callback P → List ℕ
  | .writeLoopTimeValue dataValue =>
      match LoopTimer.asUInt32 dataValue.variant with
      | some interval => periods.dropLast ++ [max interval 100]
      | none => periods
  | _ => periods

namespace LoopTimer

/-- The object holds the element started last. It runs, and its period is the loop time; before
the first element the loop time is zero. -/
structure HoldsLast (l : LoopTimer P) : Prop where
  element : (l.slotTimerElement = none ∧ l.slotTimer.elements = []) ∨
    ∃ before interval, l.slotTimer.elements = before ++ [⟨interval, true⟩] ∧
      l.slotTimerElement = some before.length
  reported : asUInt32 l.readLoopTimeValue.2.variant = some (l.slotTimer.periods.getLast?.getD 0)

theorem startElement_holdsLast {l : LoopTimer P} {interval : ℕ}
    (hreported : asUInt32 l.loopTime.variant = some interval) :
    (l.startElement interval).HoldsLast where
  element := .inr ⟨l.slotTimer.elements, interval, rfl, rfl⟩
  reported := by
    change asUInt32 l.loopTime.variant =
      some ((l.slotTimer.start interval).periods.getLast?.getD 0)
    rw [SlotTimer.periods_start, List.getLast?_concat, hreported, Option.getD_some]

/-- What is at the end of a row is modified. -/
theorem modify_length_concat (before : List TimerElement) (e : TimerElement)
    (f : TimerElement → TimerElement) :
    (before ++ [e]).modify before.length f = before ++ [f e] := by
  induction before with
  | nil => rfl
  | cons first before ih =>
    rw [List.cons_append, List.length_cons, List.modify_succ_cons, ih, List.cons_append]

/-- The element that is stopped is the last one. -/
theorem HoldsLast.stopElement_periods {l : LoopTimer P} (h : l.HoldsLast) :
    l.stopElement.slotTimer.periods = l.slotTimer.periods.dropLast := by
  unfold stopElement
  obtain ⟨hnone, helements⟩ | ⟨before, interval, helements, hheld⟩ := h.element
  · rw [hnone]
    change l.slotTimer.periods = _
    unfold SlotTimer.periods
    rw [helements]
    rfl
  · rw [hheld]
    change (⟨l.slotTimer.elements.modify before.length _⟩ : SlotTimer).periods = _
    rw [helements, modify_length_concat]
    unfold SlotTimer.periods
    simp [helements]

/-- One callback. -/
theorem HoldsLast.invoke {l : LoopTimer P} (h : l.HoldsLast) (callback : Callback P) :
    (l.invoke callback).HoldsLast ∧
      (l.invoke callback).slotTimer.periods = callback.periods l.slotTimer.periods := by
  cases callback with
  | writeLoopTimeValue dataValue =>
    unfold LoopTimer.invoke Callback.periods
    dsimp only
    cases hn : asUInt32 dataValue.variant with
    | none =>
      have hthrows : l.writeLoopTimeValue dataValue = none := by
        unfold writeLoopTimeValue
        rw [hn]
        rfl
      rw [hthrows]
      exact ⟨h, rfl⟩
    | some interval =>
      obtain ⟨loopTime, hreported, hwritten⟩ := writeLoopTimeValue_eq l hn
      rw [hwritten]
      constructor
      · apply startElement_holdsLast
        rw [stopElement_loopTime]
        exact hreported
      · change ((stopElement { l with loopTime := loopTime }).slotTimer.start _).periods = _
        rw [SlotTimer.periods_start]
        congr 1
        have hstop : (stopElement { l with loopTime := loopTime }).slotTimer =
            l.stopElement.slotTimer := by
          unfold stopElement
          cases l.slotTimerElement <;> rfl
        rw [hstop, h.stopElement_periods]
  | _ => exact ⟨h, rfl⟩

theorem startTimerLoop_holdsLast (l : LoopTimer P) :
    l.startTimerLoop.HoldsLast ∧ l.startTimerLoop.slotTimer.periods = l.slotTimer.periods ++ [1111] :=
  ⟨startElement_holdsLast (asUInt32_uint32Variant (by norm_num)), SlotTimer.periods_start ..⟩

end LoopTimer

/-! ### Whole lives -/

/-- A class whose timer loop leaves its timer alone. -/
structure LiveModule (P : Platform) (σ ι : Type) extends Module P σ ι where
  happen : σ → LoopEvent P → σ
  happen_callback : ∀ s callback, happen s (.callback callback) = invoke s callback
  timerLoop_loop : ∀ s live env, (client (happen s (.timerLoop live env))).loop = (client s).loop

/-- Startups, shutdowns, callbacks and ticks. -/
inductive Happening (P : Platform) (ι : Type) where
  | call (c : Call ι)
  | event (e : LoopEvent P)

/-- What a happening makes of the periods. The Boolean tells whether it was a startup that returned
true. -/
def Happening.periods {ι : Type} (periods : List ℕ) (e : Happening P ι × Bool) : List ℕ :=
  match e.1 with
  | .call _ => if e.2 then periods ++ [1111] else periods
  | .event (.callback callback) => callback.periods periods
  | .event (.timerLoop _ _) => periods

namespace LiveModule

variable {σ ι : Type} (M : LiveModule P σ ι)

def proceed (s : σ) : Happening P ι → σ × Bool
  | .call c => M.call s c
  | .event e => (M.happen s e, false)

theorem proceed_periods {s : σ} (h : (M.client s).loop.HoldsLast) (e : Happening P ι) :
    (M.client (M.proceed s e).1).loop.HoldsLast ∧
      (M.client (M.proceed s e).1).loop.slotTimer.periods =
        Happening.periods (M.client s).loop.slotTimer.periods (e, (M.proceed s e).2) := by
  cases e with
  | call c =>
    cases c with
    | shutdown =>
      have hshutdown : M.proceed s (.call .shutdown) = (s, false) := by
        unfold proceed Module.call
        rw [M.shutdown_eq]
      rw [hshutdown]
      exact ⟨h, rfl⟩
    | startup b i =>
      by_cases htrue : (M.startup b i s).2 = some true
      · have hloop : (M.client (M.startup b i s).1).loop = (M.client s).loop.startTimerLoop := by
          rw [(M.startup_of_true htrue).client_eq, (M.fill_others b i s).2]
        change (M.client (M.startup b i s).1).loop.HoldsLast ∧
          (M.client (M.startup b i s).1).loop.slotTimer.periods =
            if decide ((M.startup b i s).2 = some true) = true then _ else _
        rw [hloop, if_pos (decide_eq_true htrue)]
        exact LoopTimer.startTimerLoop_holdsLast _
      · change (M.client (M.startup b i s).1).loop.HoldsLast ∧
          (M.client (M.startup b i s).1).loop.slotTimer.periods =
            if decide ((M.startup b i s).2 = some true) = true then _ else _
        rw [M.startup_loop_of_not htrue, if_neg (by simpa using htrue)]
        exact ⟨h, rfl⟩
  | event e =>
    cases e with
    | callback callback =>
      change (M.client (M.happen s (.callback callback))).loop.HoldsLast ∧
        (M.client (M.happen s (.callback callback))).loop.slotTimer.periods = callback.periods _
      rw [M.happen_callback, M.invoke_loop]
      exact h.invoke callback
    | timerLoop live env =>
      change (M.client (M.happen s (.timerLoop live env))).loop.HoldsLast ∧
        (M.client (M.happen s (.timerLoop live env))).loop.slotTimer.periods = _
      rw [M.timerLoop_loop]
      exact ⟨h, rfl⟩

end LiveModule

def TestFolderLib.liveModule (P : Platform) :
    LiveModule P (TestFolderLib.State P) DateTime where
  toModule := TestFolderLib.module P
  happen := TestFolderLib.happen
  happen_callback _ _ := rfl
  timerLoop_loop _ _ _ := rfl

def TestStatusCode.liveModule (P : Platform) :
    LiveModule P (TestStatusCode.State P) Env where
  toModule := TestStatusCode.module P
  happen := TestStatusCode.happen
  happen_callback _ _ := rfl
  timerLoop_loop := TestStatusCode.timerLoop_loop

end ASNeGDemo
