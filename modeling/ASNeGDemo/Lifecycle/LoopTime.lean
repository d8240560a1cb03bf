import ASNeGDemo.Lifecycle.Inertness

/-!
The one timer of a module that is up: which element runs, and the loop time it is reported with,
after any writes of clients and any ticks.
-/
namespace ASNeGDemo

variable {P : Platform}

namespace LoopTimer

/-- The module holds an element, no other one is running, and its period is the loop time. -/
structure RunsAt (l : LoopTimer P) (element interval : ℕ) : Prop where
  slotTimerElement : l.slotTimerElement = some element
  started : l.slotTimer.elements[element]? = some ⟨interval, true⟩
  others_stopped : ∀ (other : ℕ) (e : TimerElement), l.slotTimer.elements[other]? = some e →
    e.running = true → other = element
  reported : asUInt32 l.readLoopTimeValue.2.variant = some interval
  lower_bound : 100 ≤ interval

def OneTimer (l : LoopTimer P) : Prop := ∃ element interval, l.RunsAt element interval

def Stopped (l : LoopTimer P) : Prop := ∀ e ∈ l.slotTimer.elements, e.running = false

theorem asUInt32_uint32Variant {n : ℕ} (h : n < 2 ^ 32) :
    asUInt32 (uint32Variant P n) = some n := by
  unfold uint32Variant asUInt32 IntType.wrap
  simp only [IntType.signed, IntType.width, Bool.false_eq_true, if_false]
  congr 1
  omega

/-- Where nothing runs, the element started next is the only one. -/
theorem startElement_runsAt {l : LoopTimer P} (hstopped : l.Stopped) {interval : ℕ}
    (hreported : asUInt32 l.loopTime.variant = some interval) (hlower : 100 ≤ interval) :
    (l.startElement interval).RunsAt l.slotTimer.elements.length interval where
  slotTimerElement := rfl
  started := List.getElem?_concat_length
  others_stopped := by
    intro other e hget hrunning
    simp only [startElement, SlotTimer.start] at hget
    by_cases hlt : other < l.slotTimer.elements.length
    · rw [List.getElem?_append_left hlt] at hget
      have hoff := hstopped e (List.mem_of_getElem? hget)
      simp [hoff] at hrunning
    · have hle := (List.getElem?_eq_some_iff.mp hget).1
      rw [List.length_append, List.length_singleton] at hle
      omega
  reported := hreported
  lower_bound := hlower

/-- Stopping the element that is held stops the only one that runs. -/
theorem stopElement_stopped {l : LoopTimer P} {element : ℕ}
    (hheld : l.slotTimerElement = some element)
    (hothers : ∀ (other : ℕ) (e : TimerElement), l.slotTimer.elements[other]? = some e →
      e.running = true → other = element) : l.stopElement.Stopped := by
  intro e he
  unfold stopElement at he
  rw [hheld] at he
  obtain ⟨other, hget⟩ := List.mem_iff_getElem?.mp he
  simp only [SlotTimer.stop, List.getElem?_modify, Option.map_eq_map, Option.map_eq_some_iff] at hget
  obtain ⟨e', hget', rfl⟩ := hget
  split_ifs with hother
  · rfl
  · by_contra hrunning
    rw [Bool.not_eq_false] at hrunning
    exact hother (hothers other e' hget' hrunning).symm

@[simp] theorem stopElement_loopTime (l : LoopTimer P) : l.stopElement.loopTime = l.loopTime := by
  unfold stopElement
  cases l.slotTimerElement <;> rfl

/-- A write of a loop time: what is asked for is raised to 100, stored and started. -/
theorem writeLoopTimeValue_eq (l : LoopTimer P) {dataValue : DataValue (Value P)} {n : ℕ}
    (hn : asUInt32 dataValue.variant = some n) :
    ∃ loopTime, asUInt32 loopTime.variant = some (max n 100) ∧
      l.writeLoopTimeValue dataValue =
        some ((stopElement { l with loopTime := loopTime }).startElement (max n 100), .success) := by
  unfold writeLoopTimeValue
  rw [hn]
  by_cases hsmall : n < 100
  · refine ⟨{ dataValue with variant := uint32Variant P 100 }, ?_, ?_⟩
    · rw [asUInt32_uint32Variant (by norm_num)]
      congr 1
      omega
    · have hmax : max n 100 = 100 := by omega
      simp [hsmall, hmax]
  · have hmax : max n 100 = n := by omega
    have hpos : n ≠ 0 := by omega
    refine ⟨dataValue, ?_, ?_⟩
    · rw [hmax, hn]
    · simp [hsmall, hmax, hpos]

/-- A callback leaves one timer running; writes that are no loop times change nothing. -/
theorem invoke_oneTimer {l : LoopTimer P} (h : l.OneTimer) (callback : Callback P) :
    (l.invoke callback).OneTimer := by
  cases callback with
  | writeLoopTimeValue dataValue =>
    cases hn : asUInt32 dataValue.variant with
    | none =>
      have hthrows : l.writeLoopTimeValue dataValue = none := by
        unfold writeLoopTimeValue
        rw [hn]
        rfl
      unfold invoke
      simp only [hthrows]
      exact h
    | some n =>
      obtain ⟨element, interval, hruns⟩ := h
      obtain ⟨loopTime, hreported, hwritten⟩ := writeLoopTimeValue_eq l hn
      have hstopped : Stopped (stopElement { l with loopTime := loopTime }) :=
        stopElement_stopped hruns.slotTimerElement hruns.others_stopped
      unfold invoke
      simp only [hwritten]
      refine ⟨_, max n 100, startElement_runsAt hstopped ?_ (le_max_right n 100)⟩
      rw [stopElement_loopTime]
      exact hreported
  | _ => exact h

/-- The timer that a startup leaves behind where none was started before. -/
theorem startTimerLoop_oneTimer {l : LoopTimer P} (h : l.slotTimer.elements = []) :
    l.startTimerLoop.OneTimer := by
  refine ⟨_, 1111, startElement_runsAt ?_ (asUInt32_uint32Variant (by norm_num)) (by norm_num)⟩
  intro e he
  rw [h] at he
  exact absurd he List.not_mem_nil

end LoopTimer

/-- What happens between a startup and the end: callbacks that clients cause, and ticks. -/
inductive LoopEvent (P : Platform) where
  | callback (callback : Callback P)
  | timerLoop (live : NodeRef → Bool) (env : Env)

def TestFolderLib.happen (s : TestFolderLib.State P) : LoopEvent P → TestFolderLib.State P
  | .callback callback => TestFolderLib.invoke s callback
  | .timerLoop live env => (TestFolderLib.timerLoop s live env).1.1

def TestStatusCode.happen (s : TestStatusCode.State P) : LoopEvent P → TestStatusCode.State P
  | .callback callback => TestStatusCode.invoke s callback
  | .timerLoop live env => (TestStatusCode.timerLoop s live env).1.1

theorem TestFolderLib.happen_oneTimer {s : TestFolderLib.State P} (h : s.loop.OneTimer)
    (e : LoopEvent P) : (TestFolderLib.happen s e).loop.OneTimer := by
  cases e with
  | callback callback =>
    have hloop := (TestFolderLib.module P).invoke_loop s callback
    exact hloop ▸ LoopTimer.invoke_oneTimer h callback
  | timerLoop live env => exact h

theorem TestStatusCode.timerLoop_loop (s : TestStatusCode.State P) (live : NodeRef → Bool)
    (env : Env) : (TestStatusCode.timerLoop s live env).1.1.loop = s.loop := by
  unfold TestStatusCode.timerLoop TestStatusCode.switchStatus
  simp only [Sim.bind_apply]
  split_ifs <;> rfl

theorem TestStatusCode.happen_oneTimer {s : TestStatusCode.State P} (h : s.loop.OneTimer)
    (e : LoopEvent P) : (TestStatusCode.happen s e).loop.OneTimer := by
  cases e with
  | callback callback =>
    have hloop := (TestStatusCode.module P).invoke_loop s callback
    exact hloop ▸ LoopTimer.invoke_oneTimer h callback
  | timerLoop live env =>
    unfold TestStatusCode.happen
    rw [TestStatusCode.timerLoop_loop]
    exact h

namespace Module

variable {σ ι : Type} (M : Module P σ ι)

/-- A first startup that returns true leaves one timer behind. -/
theorem startup_oneTimer {b : ServiceBehaviour} {i : ι} {env : Env}
    (h : (M.startup b i (M.construct env).1).2 = some true) :
    (M.client (M.startup b i (M.construct env).1).1).loop.OneTimer := by
  rw [(M.startup_of_true h).client_eq]
  apply LoopTimer.startTimerLoop_oneTimer
  rw [(M.fill_others b i _).2]
  exact (M.construct_empty env).2.2

end Module

/-- For both classes, after a first startup that returned true: whatever clients read and write
and however often the timer ticks, the element the module holds is the only one that runs, its
period is the loop time that is read, and this is at least 100. -/
theorem loop_oneTimer (b : ServiceBehaviour) (env : Env) (now : DateTime) (draws : Env)
    (es : List (LoopEvent P)) :
    ((TestFolderLib.startup b now (TestFolderLib.construct P env).1).2 = some true →
      (es.foldl TestFolderLib.happen
        (TestFolderLib.startup b now (TestFolderLib.construct P env).1).1).loop.OneTimer) ∧
    ((TestStatusCode.startup b draws (TestStatusCode.construct P env).1).2 = some true →
      (es.foldl TestStatusCode.happen
        (TestStatusCode.startup b draws (TestStatusCode.construct P env).1).1).loop.OneTimer) := by
  constructor
  · intro h
    have hone := (TestFolderLib.module P).startup_oneTimer h
    exact List.foldlRecOn (motive := fun s => s.loop.OneTimer) es TestFolderLib.happen hone
      fun s hs e _ => TestFolderLib.happen_oneTimer hs e
  · intro h
    have hone := (TestStatusCode.module P).startup_oneTimer h
    exact List.foldlRecOn (motive := fun s => s.loop.OneTimer) es TestStatusCode.happen hone
      fun s hs e _ => TestStatusCode.happen_oneTimer hs e

/-- Two writes, of 40 and of 5000, with a tick between them. -/
theorem loop_oneTimer_two_writes :
    let env : Env := ⟨Stream'.const 0, Stream'.const 0⟩
    let write (n : ℕ) : LoopEvent exactPlatform :=
      .callback (.writeLoopTimeValue ⟨LoopTimer.uint32Variant exactPlatform n, .success, 0, 0⟩)
    let es := [write 40, .timerLoop (fun _ => true) env, write 5000]
    let folder := (es.foldl TestFolderLib.happen (TestFolderLib.startup standardNamespaces 0
      (TestFolderLib.construct exactPlatform env).1).1).loop
    let status := (es.foldl TestStatusCode.happen (TestStatusCode.startup standardNamespaces env
      (TestStatusCode.construct exactPlatform env).1).1).loop
    (folder.OneTimer ∧ folder.slotTimer = ⟨[⟨1111, false⟩, ⟨100, false⟩, ⟨5000, true⟩]⟩) ∧
      status.OneTimer ∧ status.slotTimer = ⟨[⟨1111, false⟩, ⟨100, false⟩, ⟨5000, true⟩]⟩ := by
  intro env write es folder status
  have hone := loop_oneTimer (P := exactPlatform) standardNamespaces env 0 env es
  have hfolder : (TestFolderLib.startup standardNamespaces 0
      (TestFolderLib.construct exactPlatform env).1).2 = some true ∧
      folder.slotTimer = ⟨[⟨1111, false⟩, ⟨100, false⟩, ⟨5000, true⟩]⟩ := by
    decide +kernel
  have hstatus : (TestStatusCode.startup standardNamespaces env
      (TestStatusCode.construct exactPlatform env).1).2 = some true ∧
      status.slotTimer = ⟨[⟨1111, false⟩, ⟨100, false⟩, ⟨5000, true⟩]⟩ := by
    decide +kernel
  exact ⟨⟨hone.1 hfolder.1, hfolder.2⟩, hone.2 hstatus.1, hstatus.2⟩

end ASNeGDemo
