import OsalRust.FreeRtos.Construction
import OsalRust.FreeRtos.WaitBudget
import OsalRust.Mock.RuntimeInvariant
import OsalRust.Portable.PeriodicTimer

/-!
# What `start` and `reset` answer

The three backends wrap the same timer state. The POSIX and the FreeRTOS service hand the error
of an overflowing deadline on, and have one for a timer that they do not find. The mock drops
both and answers `Ok`.
-/

namespace OsalRust

open OsalRust.Timer OsalRust.Mock
open OsalRust.FreeRtos (SlotState SchedulerState Capabilities)

/-- A timer service as its callers reach it: the slot of its control block, whether there is a
worker, and the registry behind the service's mutex. -/
structure TimerControl where
  slot : SlotState
  worker : Bool
  registry : Registry

namespace PosixTimerService

/-- `with_service`. What the two mutexes answer is the platform's. -/
def withService (control service : Result Unit) (c : TimerControl)
    (f : Registry → Result Unit × Registry) : Result Unit × TimerControl :=
  match control with
  | .error e => (.error e, c)
  | .ok () =>
    match c.slot with
    | .running =>
      match service with
      | .error e => (.error e, c)
      | .ok () => ((f c.registry).1, { c with registry := (f c.registry).2 })
    | .stopped => (.error .notInitialized, c)
    | .stopping => (.error .busy, c)

def start (control service : Result Unit) (c : TimerControl) (id : Nat) (now : Duration) :
    Result Unit × TimerControl :=
  withService control service c fun r => r.start id now

def reset (control service : Result Unit) (c : TimerControl) (id : Nat) (now : Duration) :
    Result Unit × TimerControl :=
  withService control service c fun r => r.reset id now

end PosixTimerService

namespace FreeRtosTimerService

/-- `with_registry`. A mutex that cannot be taken or given back aborts. -/
def withRegistry (c : TimerControl) (f : Registry → Result Unit × Registry) :
    Result Unit × TimerControl :=
  match c.slot with
  | .running => ((f c.registry).1, { c with registry := (f c.registry).2 })
  | .stopped => (.error .notInitialized, c)
  | .stopping => (.error .busy, c)

/-- What `ensure_worker` finds: the scheduler, the capabilities, and the answer of
`internal_task_create`. -/
structure Surroundings where
  scheduler : SchedulerState
  capabilities : Option Capabilities
  width : UsizeWidth
  taskCreated : Bool

def ensureWorker (p : Surroundings) (c : TimerControl) : Result Unit × TimerControl :=
  match c.slot with
  | .stopped => (.error .notInitialized, c)
  | .stopping => (.error .busy, c)
  | .running =>
    match p.scheduler with
    | .notStarted => (.error .notInitialized, c)
    | .suspended => (.error .busy, c)
    | .unknown _ => (.error (.internal "unknown scheduler state"), c)
    | .running =>
      if c.worker then (.ok (), c)
      else
        match p.capabilities with
        | none => (.error .notInitialized, c)
        | some caps =>
          match FreeRtos.stackBytesToWords p.width 4096 caps.stackWordSize
              caps.minimalStackDepthWords caps.maxStackDepthWords with
          | .error e => (.error e, c)
          | .ok _ =>
            if p.taskCreated then (.ok (), { c with worker := true })
            else (.error .outOfMemory, c)

/-- `ensure_worker()?` and then a call on the registry. -/
def withWorker (p : Surroundings) (c : TimerControl) (f : Registry → Result Unit × Registry) :
    Result Unit × TimerControl :=
  match ensureWorker p c with
  | (.error e, c') => (.error e, c')
  | (.ok (), c') => withRegistry c' f

def start (p : Surroundings) (c : TimerControl) (id : Nat) (now : Duration) :
    Result Unit × TimerControl :=
  withWorker p c fun r => r.start id now

def reset (p : Surroundings) (c : TimerControl) (id : Nat) (now : Duration) :
    Result Unit × TimerControl :=
  withWorker p c fun r => r.reset id now

end FreeRtosTimerService

def Mock.timerStart (rt : MockTimeRuntime) (key : MockTimerKey) : Result Unit × MockTimeRuntime :=
  (.ok (), rt.startTimer key)

def Mock.timerReset (rt : MockTimeRuntime) (key : MockTimerKey) : Result Unit × MockTimeRuntime :=
  (.ok (), rt.resetTimer key)

/-- What the answer of `start` or `reset` promises about the timer: after `Ok` it runs to one
period from now, and after an error its deadline is what it was. Its period stays either way. -/
def Truthful (now : Duration) (before after : Option TimerState) : Result Unit → Prop
  | .ok () => ∃ s s' d, before = some s ∧ after = some s' ∧ s'.period = s.period ∧
    s'.deadline = some d ∧ d.nanos = now.nanos + s.period.nanos
  | .error _ =>
    after.map (fun s => (s.deadline, s.period)) = before.map fun s => (s.deadline, s.period)

def Timer.Registry.stateOf (r : Registry) (id : Nat) : Option TimerState :=
  (r.timers.find? (TimerEntry.live id)).map (·.state)

def Mock.MockTimeRuntime.stateOf (rt : MockTimeRuntime) (key : MockTimerKey) : Option TimerState :=
  (rt.timers.find? (MockTimerEntry.live key)).map (·.state)

theorem Timer.Registry.onLive_stateOf {β : Type} (r : Registry) (id : Nat)
    (g : TimerState → Result β × TimerState) :
    let answer := r.onLive id fun e => ((g e.state).1, { e with state := (g e.state).2 })
    (r.stateOf id = none ∧ answer = (.error .notFound, r)) ∨
      ∃ s, r.stateOf id = some s ∧ answer.1 = (g s).1 ∧ answer.2.stateOf id = some (g s).2 := by
  intro answer
  unfold Registry.stateOf
  cases hfind : r.timers.find? (TimerEntry.live id) with
  | none =>
    refine .inl ⟨rfl, ?_⟩
    simp only [answer, Registry.onLive, updateFirst_eq_none hfind]
  | some e =>
    obtain ⟨timers, hu, hfind'⟩ := updateFirst_of_find?
      (f := fun e : TimerEntry => ((g e.state).1, { e with state := (g e.state).2 })) hfind
      (show TimerEntry.live id e = true from List.find?_some hfind)
    refine .inr ⟨e.state, rfl, ?_, ?_⟩
    · simp only [answer, Registry.onLive, hu]
    · simp only [answer, Registry.onLive, hu, hfind', Option.map_some]

theorem Mock.MockTimeRuntime.onLive_stateOf (rt : MockTimeRuntime) (key : MockTimerKey)
    (g : TimerState → TimerState) :
    (rt.onLive key g).stateOf key = (rt.stateOf key).map g := by
  unfold MockTimeRuntime.stateOf MockTimeRuntime.onLive
  cases hfind : rt.timers.find? (MockTimerEntry.live key) with
  | none => simp only [updateFirst_eq_none hfind, hfind, Option.map_none]
  | some e =>
    obtain ⟨timers, hu, hfind'⟩ := updateFirst_of_find?
      (f := fun e : MockTimerEntry => ((), { e with state := g e.state })) hfind
      (show MockTimerEntry.live key e = true from List.find?_some hfind)
    simp only [hu, hfind', Option.map_some]

theorem Truthful.refl (now : Duration) (state : Option TimerState) (e : Error) :
    Truthful now state state (.error e) := rfl

theorem Timer.Registry.start_truthful (r : Registry) (id : Nat) (now : Duration) :
    Truthful now (r.stateOf id) ((r.start id now).2.stateOf id) (r.start id now).1 := by
  have h := r.onLive_stateOf id fun s => s.start now
  rw [Registry.start]
  rcases h with ⟨-, h⟩ | ⟨s, hs, h₁, h₂⟩
  · rw [h]
    exact .refl _ _ _
  · rw [h₁, h₂, hs]
    rcases s.start_spec now with ⟨d, hd, hstart⟩ | ⟨-, hstart⟩
    · rw [hstart]
      exact ⟨s, _, d, rfl, rfl, rfl, rfl, hd⟩
    · rw [hstart]
      exact .refl _ _ _

theorem PosixTimerService.withService_truthful (control service : Result Unit) (c : TimerControl)
    {id : Nat} {now : Duration} {f : Registry → Result Unit × Registry}
    (hf : Truthful now (c.registry.stateOf id) ((f c.registry).2.stateOf id) (f c.registry).1) :
    Truthful now (c.registry.stateOf id) ((withService control service c f).2.registry.stateOf id)
      (withService control service c f).1 := by
  unfold withService
  split
  · exact .refl _ _ _
  · split
    · split
      · exact .refl _ _ _
      · exact hf
    · exact .refl _ _ _
    · exact .refl _ _ _

theorem FreeRtosTimerService.ensureWorker_registry (p : Surroundings) (c : TimerControl) :
    (ensureWorker p c).2.registry = c.registry := by
  unfold ensureWorker
  repeat' split
  all_goals rfl

theorem FreeRtosTimerService.withRegistry_truthful (c : TimerControl) {id : Nat} {now : Duration}
    {f : Registry → Result Unit × Registry}
    (hf : Truthful now (c.registry.stateOf id) ((f c.registry).2.stateOf id) (f c.registry).1) :
    Truthful now (c.registry.stateOf id) ((withRegistry c f).2.registry.stateOf id)
      (withRegistry c f).1 := by
  unfold withRegistry
  split
  · exact hf
  · exact .refl _ _ _
  · exact .refl _ _ _

theorem FreeRtosTimerService.withWorker_truthful (p : Surroundings) (c : TimerControl) {id : Nat}
    {now : Duration} {f : Registry → Result Unit × Registry}
    (hf : Truthful now (c.registry.stateOf id) ((f c.registry).2.stateOf id) (f c.registry).1) :
    Truthful now (c.registry.stateOf id) ((withWorker p c f).2.registry.stateOf id)
      (withWorker p c f).1 := by
  have hkept := ensureWorker_registry p c
  unfold withWorker
  cases hw : ensureWorker p c with
  | mk answer c' =>
    rw [hw] at hkept
    rw [← hkept] at hf ⊢
    cases answer with
    | error e => exact .refl _ _ _
    | ok _ => exact withRegistry_truthful c' hf

theorem Mock.timerStart_truthful (rt : MockTimeRuntime) (key : MockTimerKey) :
    Truthful rt.now (rt.stateOf key) ((timerStart rt key).2.stateOf key) (timerStart rt key).1 ↔
      ∃ s, rt.stateOf key = some s ∧ rt.now.nanos + s.period.nanos ≤ durationMaxNanos := by
  have hafter : (timerStart rt key).2.stateOf key =
      (rt.stateOf key).map fun s => (s.start rt.now).2 := rt.onLive_stateOf key _
  rw [hafter]
  cases hs : rt.stateOf key with
  | none => exact iff_of_false (by rintro ⟨s, s', d, h, -⟩; cases h) (by rintro ⟨s, h, -⟩; cases h)
  | some s =>
    rcases s.start_spec rt.now with ⟨d, hd, hstart⟩ | ⟨hlt, hstart⟩
    · rw [Option.map_some, hstart]
      exact iff_of_true ⟨s, _, d, rfl, rfl, rfl, rfl, hd⟩ ⟨s, rfl, hd ▸ d.le_max⟩
    · rw [Option.map_some, hstart]
      refine iff_of_false ?_ ?_
      · rintro ⟨s', s'', d, hs', -, -, -, hd⟩
        obtain rfl : s = s' := Option.some.inj hs'
        have hmax := d.le_max
        omega
      · rintro ⟨s', hs', hle⟩
        obtain rfl := Option.some.inj hs'
        omega

theorem Mock.timerReset_eq_start (rt : MockTimeRuntime) (key : MockTimerKey) :
    timerReset rt key = timerStart rt key := rfl

/-- The POSIX and the FreeRTOS timers tell the truth about every `start` and `reset`. The mock
timers do so exactly if their entry is there and the deadline does not overflow. -/
theorem start_and_reset_truthful_iff (control service : Result Unit)
    (p : FreeRtosTimerService.Surroundings) (c : TimerControl) (id : Nat) (now : Duration)
    (rt : MockTimeRuntime) (key : MockTimerKey) :
    (Truthful now (c.registry.stateOf id)
        ((PosixTimerService.start control service c id now).2.registry.stateOf id)
        (PosixTimerService.start control service c id now).1 ∧
      Truthful now (c.registry.stateOf id)
        ((PosixTimerService.reset control service c id now).2.registry.stateOf id)
        (PosixTimerService.reset control service c id now).1) ∧
    (Truthful now (c.registry.stateOf id)
        ((FreeRtosTimerService.start p c id now).2.registry.stateOf id)
        (FreeRtosTimerService.start p c id now).1 ∧
      Truthful now (c.registry.stateOf id)
        ((FreeRtosTimerService.reset p c id now).2.registry.stateOf id)
        (FreeRtosTimerService.reset p c id now).1) ∧
    (Truthful rt.now (rt.stateOf key) ((timerStart rt key).2.stateOf key)
          (timerStart rt key).1 ↔
        ∃ s, rt.stateOf key = some s ∧ rt.now.nanos + s.period.nanos ≤ durationMaxNanos) ∧
    (Truthful rt.now (rt.stateOf key) ((timerReset rt key).2.stateOf key)
          (timerReset rt key).1 ↔
        ∃ s, rt.stateOf key = some s ∧ rt.now.nanos + s.period.nanos ≤ durationMaxNanos) := by
  refine ⟨⟨?_, ?_⟩, ⟨?_, ?_⟩, ?_, ?_⟩
  · exact PosixTimerService.withService_truthful _ _ _ (c.registry.start_truthful id now)
  · exact PosixTimerService.withService_truthful _ _ _ (c.registry.start_truthful id now)
  · exact FreeRtosTimerService.withWorker_truthful _ _ (c.registry.start_truthful id now)
  · exact FreeRtosTimerService.withWorker_truthful _ _ (c.registry.start_truthful id now)
  · exact timerStart_truthful rt key
  · rw [timerReset_eq_start]
    exact timerStart_truthful rt key

def atTheEnd : Checked (MockTimerKey × MockTimeRuntime) :=
  (MockTimeRuntime.new.advanceTime ⟨durationMaxNanos, Nat.le_refl _⟩).registerTimer
    (Duration.fromNanos 1) .oneShot ⟨[]⟩

/-- `start` answers `Ok` there, and the timer stays stopped. -/
theorem start_silent_success :
    ∃ key rt, atTheEnd = .ok (key, rt) ∧ (timerStart rt key).1 = .ok () ∧
      ((timerStart rt key).2.stateOf key).map (·.deadline) = some none ∧
      ¬ Truthful rt.now (rt.stateOf key) ((timerStart rt key).2.stateOf key)
        (timerStart rt key).1 := by
  refine ⟨_, _, rfl, rfl, by decide, ?_⟩
  rw [timerStart_truthful]
  rintro ⟨s, hs, hle⟩
  obtain rfl := Option.some.inj hs
  exact absurd hle (by decide)

end OsalRust
