import OsalRust.Framework.LockDiscipline
import OsalRust.Mock.TimeRuntime

/-!
# Mock timers

Threads that use mock timers and move the virtual clock, over the one spin lock around the time
runtime. There is no worker: whoever advances the clock dispatches the expired callbacks, one at
a time and outside the lock, and a callback may itself advance the clock, reset the runtime or
drop timers.

Entries that leave the registry are dropped after the lock. The exception is a callback that
returns to find its timer gone, dropped or reset away while it ran: `restore_callback` consumes
it inside the lock.
-/

namespace OsalRust.MockTimer

open OsalRust OsalRust.Framework OsalRust.Timer OsalRust.Mock

/-- `RUNTIME`. -/
inductive Lock where
  | runtime
  deriving DecidableEq

abbrev Thread := Nat

/-- What the threads share: the time runtime once something has used it, the timer handles, each
with the key it was made for, and how many handles there have been. -/
structure Clock where
  runtime : Option MockTimeRuntime
  handles : Handles
  key : Nat → MockTimerKey
  made : Nat

/-- `get_or_insert_with(MockTimeRuntime::new)`. -/
def Clock.rt (w : Clock) : MockTimeRuntime := w.runtime.getD MockTimeRuntime.new

/-- The pieces of code between two lock operations: application code between its calls; the
closures that `with_runtime` runs; `reset_runtime` and `deregister_timer`; the end of `new`; the
destructors; and `advance_and_dispatch` with the callback it executes. Timers are named by
their handles. -/
inductive Action where
  | application
  | request (q : Request)
  | reset
  | deregister (handle : Nat)
  | adopt (key : MockTimerKey)
  | dropHandle (handle : Nat)
  | dropCallback (callback : Callback)
  | advanceTime (d : Duration)
  | dispatch
  | takeNext
  | callback (key : MockTimerKey) (callback : Callback)
  | restore (key : MockTimerKey) (callback : Callback)

abbrev Code := List (Instr Lock Action)

def withRuntime (a : Action) : Code := [.lock .runtime, .act a]

def intend : Intent → Code
  | .idle => []
  | .request q => withRuntime (.request q)
  | .dropHandle handle => [.act (.dropHandle handle)]
  | .dropCallback callback => [.act (.dropCallback callback)]

def dropAll (callbacks : List Callback) : Code :=
  callbacks.map fun callback => .act (.dropCallback callback)

/-- The end of `restore_callback`: a callback that was not taken back dies in the method, before
the guard. -/
def giveUp : Option Callback → Code
  | none => [.unlock .runtime, .act .dispatch]
  | some callback => [.act (.dropCallback callback), .unlock .runtime, .act .dispatch]

inductive ClockCall : Code → Prop
  | advance (d : Duration) : ClockCall (withRuntime (.advanceTime d))
  | reset : ClockCall (withRuntime .reset)

/-- The actions of the threads. A failed assertion or an overflow aborts: there is no step. -/
inductive Performs : Exec Thread Lock Action Clock
  | application {t : Thread} {w : Clock} {i : Intent} {h : Handles} :
      Handles.Calls [] w.handles i h →
      Performs t w .application { w with handles := h } (intend i ++ [.act .application])
  | clock {t : Thread} {w : Clock} {code : Code} : ClockCall code →
      Performs t w .application w (code ++ [.act .application])
  | register {t : Thread} {w : Clock} {period : Duration} {mode : TimerMode}
      {callback : Callback} {key : MockTimerKey} {rt : MockTimeRuntime} :
      w.rt.registerTimer period mode callback = .ok (key, rt) →
      Performs t w (.request (.register period mode callback)) { w with runtime := some rt }
        [.unlock .runtime, .act (.adopt key)]
  | start {t : Thread} {w : Clock} {handle : Nat} :
      Performs t w (.request (.start handle))
        { w with runtime := some (w.rt.startTimer (w.key handle)) } [.unlock .runtime]
  | stop {t : Thread} {w : Clock} {handle : Nat} :
      Performs t w (.request (.stop handle))
        { w with runtime := some (w.rt.stopTimer (w.key handle)) } [.unlock .runtime]
  | resetTimer {t : Thread} {w : Clock} {handle : Nat} :
      Performs t w (.request (.reset handle))
        { w with runtime := some (w.rt.resetTimer (w.key handle)) } [.unlock .runtime]
  | changePeriod {t : Thread} {w : Clock} {handle : Nat} {newPeriod : Duration} :
      Performs t w (.request (.changePeriod handle newPeriod))
        { w with runtime := some (w.rt.changePeriod (w.key handle) newPeriod) } [.unlock .runtime]
  | reset {t : Thread} {w : Clock} :
      Performs t w .reset { w with runtime := some w.rt.resetAndDetach.2 }
        (.unlock .runtime :: dropAll (w.rt.resetAndDetach.1.filterMap (·.callback)))
  | deregister {t : Thread} {w : Clock} {handle : Nat} {rt : MockTimeRuntime} :
      w.runtime = some rt →
      Performs t w (.deregister handle)
        { w with runtime := some (rt.removeTimer (w.key handle)).2 }
        (.unlock .runtime ::
          dropAll ((rt.removeTimer (w.key handle)).1.bind (·.callback)).toList)
  | deregisterNone {t : Thread} {w : Clock} {handle : Nat} : w.runtime = none →
      Performs t w (.deregister handle) w [.unlock .runtime]
  | adopt {t : Thread} {w : Clock} {key : MockTimerKey} :
      Performs t w (.adopt key)
        { w with handles := w.handles.adopt w.made, key := Function.update w.key w.made key,
                 made := w.made + 1 } []
  | dropClone {t : Thread} {w : Clock} {handle : Nat} : 1 < w.handles.strong handle →
      Performs t w (.dropHandle handle) { w with handles := w.handles.release handle } []
  | dropLast {t : Thread} {w : Clock} {handle : Nat} : w.handles.strong handle = 1 →
      Performs t w (.dropHandle handle) { w with handles := w.handles.release handle }
        (withRuntime (.deregister handle))
  | dropCallback {t : Thread} {w : Clock} {callback : Callback} :
      Performs t w (.dropCallback callback) w
        (callback.captures.map fun handle => .act (.dropHandle handle))
  | advanceTime {t : Thread} {w : Clock} {d : Duration} :
      Performs t w (.advanceTime d) { w with runtime := some (w.rt.advanceTime d) }
        [.unlock .runtime, .act .dispatch]
  | dispatch {t : Thread} {w : Clock} : Performs t w .dispatch w (withRuntime .takeNext)
  | takeNext {t : Thread} {w : Clock} {rt rt' : MockTimeRuntime} {key : MockTimerKey}
      {callback : Callback} : w.runtime = some rt →
      rt.takeNextExpired = .ok (some (key, callback), rt') →
      Performs t w .takeNext { w with runtime := some rt' }
        [.unlock .runtime, .act (.callback key callback)]
  | takeNone {t : Thread} {w : Clock} {rt rt' : MockTimeRuntime} : w.runtime = some rt →
      rt.takeNextExpired = .ok (none, rt') →
      Performs t w .takeNext { w with runtime := some rt' } [.unlock .runtime]
  | takeUnused {t : Thread} {w : Clock} : w.runtime = none →
      Performs t w .takeNext w [.unlock .runtime]
  | callbackCalls {t : Thread} {w : Clock} {key : MockTimerKey} {callback : Callback}
      {i : Intent} {h : Handles} : Handles.Calls callback.captures w.handles i h →
      Performs t w (.callback key callback) { w with handles := h }
        (intend i ++ [.act (.callback key callback)])
  | callbackClock {t : Thread} {w : Clock} {key : MockTimerKey} {callback : Callback}
      {code : Code} : ClockCall code →
      Performs t w (.callback key callback) w (code ++ [.act (.callback key callback)])
  | callbackYields {t : Thread} {w : Clock} {key : MockTimerKey} {captured : Nat}
      {callback : Callback} : captured ∈ callback.captures →
      Performs t w (.callback key callback) { w with handles := w.handles.gain captured }
        [.act (.callback key ⟨callback.captures.erase captured⟩)]
  | callbackCaptures {t : Thread} {w : Clock} {key : MockTimerKey} {captured : Nat}
      {callback : Callback} : 0 < w.handles.owned captured →
      Performs t w (.callback key callback) { w with handles := w.handles.give captured }
        [.act (.callback key ⟨captured :: callback.captures⟩)]
  | callbackReturns {t : Thread} {w : Clock} {key : MockTimerKey} {callback : Callback} :
      Performs t w (.callback key callback) w (withRuntime (.restore key callback))
  | restore {t : Thread} {w : Clock} {key : MockTimerKey} {callback : Callback}
      {rt : MockTimeRuntime} : w.runtime = some rt →
      Performs t w (.restore key callback)
        { w with runtime := some (rt.restoreCallback key callback).2 }
        (giveUp (rt.restoreCallback key callback).1)
  | restoreUnused {t : Thread} {w : Clock} {key : MockTimerKey} {callback : Callback} :
      w.runtime = none →
      Performs t w (.restore key callback) w
        [.unlock .runtime, .act (.dropCallback callback), .act .dispatch]

abbrev State := Threads Thread Lock Action Clock

def start : State where
  shared := { runtime := none, handles := Handles.empty, key := fun _ => ⟨0, 0⟩, made := 0 }
  holder := fun _ => none
  code := fun _ => [.act .application]

def system : Lts State (Thread × Instr Lock Action) := Threads.system Performs (· = start)

/-! ## Where callbacks are dropped -/

def DropsUnlocked (s : State) : Prop :=
  ∀ t callback rest, s.code t = .act (.dropCallback callback) :: rest →
    s.holder .runtime ≠ some t

def NoReentry (s : State) : Prop :=
  ∀ t rest, s.code t = .lock .runtime :: rest → s.holder .runtime ≠ some t

/-- A callback that returns to a timer that is still registered and awaits it; any other
action. -/
def KeepsCallback (w : Clock) : Action → Prop
  | .restore key _ => ∀ rt, w.runtime = some rt → rt.Awaits key
  | _ => True

def kept : Lts State (Thread × Instr Lock Action) :=
  system.restrict (Discipline.AllowedStep KeepsCallback)

/-- The lock is held for single closures, and nothing is held outside. -/
def lockOrder : Discipline Lock Action where
  tracked := fun _ => true
  rank := fun _ => 0
  valid := fun _ => True
  pre := fun
    | .request _ | .reset | .deregister _ | .advanceTime _ | .takeNext | .restore _ _ =>
      [.runtime]
    | _ => []
  weight := fun
    | .request _ | .reset | .deregister _ | .advanceTime _ | .takeNext | .restore _ _ => 2
    | _ => 0
  budget := 2

private theorem typed_withRuntime {a : Action} (hpre : lockOrder.pre a = [.runtime])
    (hw : lockOrder.weight a = 2) : lockOrder.Typed [] (withRuntime a) := by
  rw [withRuntime, Discipline.typed_lock rfl]
  refine ⟨fun _ h => absurd h List.not_mem_nil, fun _ => ?_, trivial, hpre.symm, rfl⟩
  rw [Discipline.cost_act (List.cons_ne_nil _ _), hw]
  rfl

private theorem typed_intend (i : Intent) : lockOrder.Typed [] (intend i) := by
  cases i with
  | request q => exact typed_withRuntime rfl rfl
  | idle => rfl
  | dropHandle handle => exact ⟨trivial, rfl, rfl⟩
  | dropCallback callback => exact ⟨trivial, rfl, rfl⟩

private theorem typed_clockCall {code : Code} (h : ClockCall code) : lockOrder.Typed [] code := by
  cases h with
  | advance d => exact typed_withRuntime rfl rfl
  | reset => exact typed_withRuntime rfl rfl

private theorem typed_release {code : Code} (h : lockOrder.Typed [] code) :
    lockOrder.Typed [.runtime] (.unlock .runtime :: code) :=
  (Discipline.typed_unlock rfl).mpr ⟨[], rfl, h⟩

private theorem giveUp_of_awaits {rt : MockTimeRuntime} {key : MockTimerKey} {callback : Callback}
    (h : rt.Awaits key) :
    giveUp (rt.restoreCallback key callback).1 = [.unlock .runtime, .act .dispatch] := by
  rw [((rt.restoreCallback_fst key callback).1).mpr h]
  rfl

theorem lockOrder_sound : lockOrder.Sound Performs (fun _ => True) KeepsCallback where
  keeps := by
    intro t w a w' code _ hk _ hp
    refine ⟨trivial, ?_⟩
    cases hp with
    | application => exact (typed_intend _).append ⟨trivial, rfl, rfl⟩
    | callbackCalls => exact (typed_intend _).append ⟨trivial, rfl, rfl⟩
    | clock hc => exact (typed_clockCall hc).append ⟨trivial, rfl, rfl⟩
    | callbackClock hc => exact (typed_clockCall hc).append ⟨trivial, rfl, rfl⟩
    | register | advanceTime | takeNext => exact typed_release ⟨trivial, rfl, rfl⟩
    | start | stop | resetTimer | changePeriod | deregisterNone | takeNone | takeUnused =>
      exact typed_release rfl
    | reset | deregister => exact typed_release (Discipline.typed_acts (fun _ => ⟨trivial, rfl⟩) _)
    | adopt | dropClone => rfl
    | dropLast | dispatch | callbackReturns => exact typed_withRuntime rfl rfl
    | dropCallback => exact Discipline.typed_acts (fun _ => ⟨trivial, rfl⟩) _
    | callbackYields | callbackCaptures => exact ⟨trivial, rfl, rfl⟩
    | restore hrt =>
      rw [giveUp_of_awaits (hk _ hrt)]
      exact typed_release ⟨trivial, rfl, rfl⟩
    | restoreUnused => exact typed_release ⟨trivial, rfl, trivial, rfl, rfl⟩
  cheaper := by
    intro t w a w' code _ hk _ hpre hp
    cases hp with
    | register | start | stop | resetTimer | changePeriod | reset | deregister | deregisterNone
    | advanceTime | takeNext | takeNone | takeUnused | restoreUnused =>
      simp [lockOrder, Discipline.cost]
    | restore hrt =>
      rw [giveUp_of_awaits (hk _ hrt)]
      simp [lockOrder, Discipline.cost]
    | application | clock | adopt | dropClone | dropLast | dropCallback | dispatch | callbackCalls
    | callbackClock | callbackYields | callbackCaptures | callbackReturns => exact absurd rfl hpre

theorem lawful_of_kept {s : State} (h : kept.Reachable s) : lockOrder.Lawful s := by
  refine (lockOrder_sound.lawful ?_ h).2
  rintro s rfl
  exact ⟨trivial, fun t => ⟨[], ⟨trivial, rfl, rfl⟩, by simp, List.nodup_nil, by simp [start]⟩⟩

private theorem dropsUnlocked_of_lawful {s : State} (hl : lockOrder.Lawful s) :
    DropsUnlocked s := by
  intro t callback rest hst
  exact hl.holder_ne_of_act hst rfl rfl

private theorem drops_of_not_keepsCallback {t : Thread} {w w' : Clock} {a : Action} {code : Code}
    (hk : ¬ KeepsCallback w a) (hp : Performs t w a w' code) :
    ∃ b tail m, code = .act b :: tail ∧ (∃ callback, b = .dropCallback callback) ∧
      lockOrder.tracked m = true ∧ m ∈ lockOrder.pre a := by
  cases hp with
  | @restore _ _ key callback rt hrt =>
    have hno : ¬ rt.Awaits key := fun h => hk fun rt' hrt' => by
      obtain rfl : rt = rt' := Option.some.inj (hrt.symm.trans hrt')
      exact h
    obtain ⟨hiff, hor⟩ := rt.restoreCallback_fst key callback
    have hleft := hor.resolve_left (mt hiff.mp hno)
    rw [hleft]
    exact ⟨_, _, .runtime, rfl, ⟨callback, rfl⟩, rfl, List.mem_singleton_self _⟩
  | restoreUnused hnone =>
    refine absurd (fun rt hrt => ?_) hk
    rw [hnone] at hrt
    cases hrt
  | _ => exact absurd trivial hk

private theorem allowedStep_iff_dropsUnlocked {s s' : State} {l : Thread × Instr Lock Action}
    (h : kept.Reachable s) (hs : system.step s l s') :
    Discipline.AllowedStep KeepsCallback s l s' ↔ DropsUnlocked s' := by
  have hl := lawful_of_kept h
  constructor
  · intro ha
    exact dropsUnlocked_of_lawful (hl.step lockOrder_sound trivial hs ha).2
  · intro hd
    refine hl.allowedStep_of_unlocked (fun _ => drops_of_not_keepsCallback) hs ?_
    rintro t b rest hst ⟨callback, rfl⟩ m -
    exact hd t callback rest hst

/-- As long as every callback returns to a timer that is still registered and awaits it, no
callback is dropped with the lock held, and no thread takes the lock while it holds it. A step
that breaks the condition drops a callback with the lock held. -/
theorem callbacks_dropped_outside_runtime {tr : List (Thread × Instr Lock Action)} {s : State}
    (h : kept.Run tr s) :
    DropsUnlocked s ∧ NoReentry s ∧
      ∀ l s', system.step s l s' →
        (Discipline.AllowedStep KeepsCallback s l s' ↔ DropsUnlocked s') := by
  have hl := lawful_of_kept h.reachable
  refine ⟨dropsUnlocked_of_lawful hl, ?_, ?_⟩
  · intro t rest hst
    exact hl.holder_ne_of_lock hst rfl
  · intro l s' hs
    exact allowedStep_iff_dropsUnlocked h.reachable hs

/-! ## Runs -/

section Runs

variable {a : Action} {rest code : Code} {w w' : Clock} {inside : Bool}

/-- The process with its first thread at the given code, holding the lock or not, and every other
thread where it starts. -/
def busy (w : Clock) (inside : Bool) (code : Code) : State where
  shared := w
  holder := fun _ => if inside then some 0 else none
  code := Function.update start.code 0 code

private theorem busy_step (hp : Performs 0 w a w' code) :
    system.step (busy w inside (.act a :: rest)) (0, .act a) (busy w' inside (code ++ rest)) := by
  have hst : (busy w inside (.act a :: rest)).code 0 = .act a :: rest := rfl
  have hstep : system.step _ _ _ := .act hst hp
  simpa [busy, Threads.perform] using hstep

private theorem kept_act (h : kept.Reachable (busy w inside (.act a :: rest)))
    (hp : Performs 0 w a w' code) (hk : KeepsCallback w a) :
    kept.Reachable (busy w' inside (code ++ rest)) :=
  h.snoc (M := kept) ⟨busy_step hp, fun _ ha => by cases ha; exact hk⟩

private theorem kept_enter (h : kept.Reachable (busy w false (.lock .runtime :: rest))) :
    kept.Reachable (busy w true rest) := by
  have hst : (busy w false (.lock .runtime :: rest)).code 0 = .lock .runtime :: rest := rfl
  have h₁ := h.snoc (M := kept) ⟨.lock hst rfl, fun _ ha => by cases ha⟩
  convert h₁ using 1
  simp only [Threads.take, busy, Function.update_idem]
  congr 1

private theorem kept_leave (h : kept.Reachable (busy w true (.unlock .runtime :: rest))) :
    kept.Reachable (busy w false rest) := by
  have hst : (busy w true (.unlock .runtime :: rest)).code 0 = .unlock .runtime :: rest := rfl
  have h₁ := h.snoc (M := kept) ⟨.unlock hst, fun _ ha => by cases ha⟩
  convert h₁ using 1
  simp only [Threads.release, busy, Function.update_idem]
  congr 1

private theorem kept_new (moved : List Nat) (period : Duration) (mode : TimerMode)
    {key : MockTimerKey} {rt : MockTimeRuntime}
    (h : kept.Reachable (busy w false [.act .application]))
    (hm : ∀ id, moved.count id ≤ w.handles.owned id) (hp : period ≠ Duration.zero)
    (hr : w.rt.registerTimer period mode ⟨moved⟩ = .ok (key, rt)) :
    kept.Reachable (busy
      { runtime := some rt, handles := (w.handles.capture moved).adopt w.made,
        key := Function.update w.key w.made key, made := w.made + 1 }
      false [.act .application]) := by
  have hc : Handles.Calls [] w.handles (.request (.register period mode ⟨moved⟩))
      (w.handles.capture moved) := .new hm hp
  have h₁ := kept_enter (kept_act h (.application hc) trivial)
  have h₂ := kept_leave (kept_act h₁ (.register hr) trivial)
  exact kept_act h₂ .adopt trivial

def nanosecond : Duration := .fromNanos 1

def entry (id : Nat) (captures : List Nat) : MockTimerEntry where
  key := ⟨1, id⟩
  state := { mode := .oneShot, period := nanosecond, deadline := none, period_ne_zero := by decide }
  callback := some ⟨captures⟩
  creationOrder := id - 1
  deleted := false

def oneTimer : Clock where
  runtime := some { now := Duration.zero, epoch := 1, nextId := 2, nextCreationOrder := 1,
                    timers := [entry 1 []] }
  handles := Handles.empty.adopt 0
  key := Function.update (fun _ => ⟨0, 0⟩) 0 ⟨1, 1⟩
  made := 1

def twoTimers : Clock where
  runtime := some { now := Duration.zero, epoch := 1, nextId := 3, nextCreationOrder := 2,
                    timers := [entry 1 [], entry 2 [0]] }
  handles := (oneTimer.handles.capture [0]).adopt 1
  key := Function.update oneTimer.key 1 ⟨1, 2⟩
  made := 2

private theorem kept_oneTimer : kept.Reachable (busy oneTimer false [.act .application]) := by
  have h : kept.Reachable (busy start.shared false [.act .application]) := by
    refine Lts.Reachable.start (s := busy start.shared false [.act .application]) ?_
    change busy start.shared false [.act .application] = start
    simp [busy, start]
  exact kept_new [] nanosecond .oneShot h (fun _ => Nat.zero_le _) (by decide) rfl

private theorem kept_twoTimers : kept.Reachable (busy twoTimers false [.act .application]) := by
  refine kept_new [0] nanosecond .oneShot kept_oneTimer ?_ (by decide) rfl
  intro id
  by_cases h : id = 0
  · subst h
    decide
  · simp [Ne.symm h]

/-- The second timer is dropped by its own callback, which holds the last handle of the first:
the callback dies inside `restore_callback`, and the thread goes on to take the lock it holds. -/
theorem callbacks_dropped_inside_runtime :
    (∃ tr s, system.Run tr s ∧ ¬ DropsUnlocked s) ∧ ∃ tr s, system.Run tr s ∧ ¬ NoReentry s := by
  have hstart : Handles.Calls [] twoTimers.handles (.request (.start 1)) twoTimers.handles :=
    .start (.inl (by decide))
  have hdrop : Handles.Calls [0] twoTimers.handles (.dropHandle 1) (twoTimers.handles.give 1) :=
    .drop (by decide)
  have h₁ := kept_enter (kept_act kept_twoTimers (.application hstart) trivial)
  have h₂ := kept_leave (kept_act h₁ .start trivial)
  have h₃ := kept_enter (kept_act h₂ (.clock (.advance nanosecond)) trivial)
  have h₄ := kept_leave (kept_act h₃ .advanceTime trivial)
  have h₅ := kept_enter (kept_act h₄ .dispatch trivial)
  have h₆ := kept_leave (kept_act h₅ (.takeNext rfl rfl) trivial)
  have h₇ := kept_act h₆ (.callbackCalls hdrop) trivial
  have h₈ := kept_enter (kept_act h₇ (.dropLast rfl) trivial)
  have h₉ := kept_leave (kept_act h₈ (.deregister rfl) trivial)
  have h₁₀ := kept_enter (kept_act h₉ .callbackReturns trivial)
  have h₁₁ := (Lts.restrict_reachable h₁₀).snoc (busy_step (.restore rfl))
  have h₁₂ := h₁₁.snoc (busy_step .dropCallback)
  have h₁₃ := h₁₂.snoc (busy_step (.dropLast rfl))
  constructor
  · obtain ⟨tr, hr⟩ := h₁₁
    exact ⟨tr, _, hr, fun hd => hd 0 ⟨[0]⟩ _ rfl rfl⟩
  · obtain ⟨tr, hr⟩ := h₁₃
    exact ⟨tr, _, hr, fun hd => hd 0 _ rfl rfl⟩

/-- Dropping the second timer drops its callback, with the last handle of the first, after the
lock. -/
theorem callbacks_dropped_outside_runtime_removed :
    ∃ tr s, kept.Run tr s ∧
      s.code 0 = [.act (.dropCallback ⟨[0]⟩), .act .application] ∧
      DropsUnlocked s ∧ NoReentry s ∧
      ∀ l s', system.step s l s' →
        (Discipline.AllowedStep KeepsCallback s l s' ↔ DropsUnlocked s') := by
  have hdrop : Handles.Calls [] twoTimers.handles (.dropHandle 1) (twoTimers.handles.give 1) :=
    .drop (by decide)
  have h₁ := kept_act kept_twoTimers (.application hdrop) trivial
  have h₂ := kept_enter (kept_act h₁ (.dropLast rfl) trivial)
  obtain ⟨tr, hr⟩ := kept_leave (kept_act h₂ (.deregister rfl) trivial)
  exact ⟨tr, _, hr, rfl, callbacks_dropped_outside_runtime hr⟩

end Runs

end OsalRust.MockTimer
