import OsalRust.Timer.Registry

/-!
# Mock time runtime

The virtual clock and the timer registry of the mock backend, behind one spin lock. Entries are
found by a key of an epoch and an identifier, so that handles from before a reset find nothing;
they leave the registry when their timer is deregistered or the runtime is reset. As in the
other services, what becomes of a callback is part of the results.
-/

namespace OsalRust.Mock

open OsalRust OsalRust.Timer

structure MockTimerKey where
  epoch : Nat
  id : Nat
  deriving DecidableEq

structure MockTimerEntry where
  key : MockTimerKey
  state : TimerState
  callback : Option Callback
  creationOrder : Nat
  deleted : Bool
  deriving DecidableEq

structure MockTimeRuntime where
  now : Duration
  epoch : Nat
  nextId : Nat
  nextCreationOrder : Nat
  timers : List MockTimerEntry
  deriving DecidableEq

def saturatingAdd (a b : Duration) : Duration :=
  (a.checkedAdd b).getD ⟨durationMaxNanos, Nat.le_refl _⟩

def MockTimerEntry.live (key : MockTimerKey) (e : MockTimerEntry) : Bool :=
  e.key == key && !e.deleted

namespace MockTimeRuntime

def new : MockTimeRuntime :=
  { now := Duration.zero, epoch := 1, nextId := 1, nextCreationOrder := 0, timers := [] }

/-- `reset_and_detach`, with the entries that leave the registry. -/
def resetAndDetach (rt : MockTimeRuntime) : List MockTimerEntry × MockTimeRuntime :=
  (rt.timers,
    { now := Duration.zero, epoch := (rt.epoch + 1) % 2 ^ 64, nextId := 1,
      nextCreationOrder := 0, timers := [] })

def advanceTime (rt : MockTimeRuntime) (d : Duration) : MockTimeRuntime :=
  { rt with now := saturatingAdd rt.now d }

/-- `u64` addition with overflow checks. -/
def succU64 (n : Nat) : Checked Nat :=
  if n < u64Max then .ok (n + 1) else .error .arithmeticOverflow

def registerTimer (rt : MockTimeRuntime) (period : Duration) (mode : TimerMode)
    (callback : Callback) : Checked (MockTimerKey × MockTimeRuntime) := do
  let key : MockTimerKey := { epoch := rt.epoch, id := rt.nextId }
  let nextId ← succU64 rt.nextId
  let nextCreationOrder ← succU64 rt.nextCreationOrder
  match TimerState.new period mode with
  | .error _ => .error .assertionFailed
  | .ok state =>
    return (key, { rt with
      nextId, nextCreationOrder
      timers := rt.timers ++ [{ key, state, callback := some callback,
                                creationOrder := rt.nextCreationOrder, deleted := false }] })

/-- The body shared by the operations on a timer found by `find_mut`. -/
def onLive (rt : MockTimeRuntime) (key : MockTimerKey) (f : TimerState → TimerState) :
    MockTimeRuntime :=
  match updateFirst (MockTimerEntry.live key) (fun e => ((), { e with state := f e.state }))
      rt.timers with
  | some (_, timers) => { rt with timers }
  | none => rt

def startTimer (rt : MockTimeRuntime) (key : MockTimerKey) : MockTimeRuntime :=
  rt.onLive key fun state => (state.start rt.now).2

def stopTimer (rt : MockTimeRuntime) (key : MockTimerKey) : MockTimeRuntime :=
  rt.onLive key TimerState.stop

def resetTimer (rt : MockTimeRuntime) (key : MockTimerKey) : MockTimeRuntime :=
  rt.onLive key fun state => (state.reset rt.now).2

def changePeriod (rt : MockTimeRuntime) (key : MockTimerKey) (newPeriod : Duration) :
    MockTimeRuntime :=
  rt.onLive key fun state => (state.changePeriod newPeriod).2

/-- `Vec::swap_remove`: the last element takes the place of the removed one. -/
def swapRemove {α : Type} (xs : List α) (i : Nat) : List α :=
  match xs.getLast? with
  | some last => (xs.set i last).dropLast
  | none => []

/-- `remove_timer`, with the entry that leaves the registry. -/
def removeTimer (rt : MockTimeRuntime) (key : MockTimerKey) :
    Option MockTimerEntry × MockTimeRuntime :=
  match rt.timers.findIdx? (MockTimerEntry.live key) with
  | none => (none, rt)
  | some i => (rt.timers[i]?, { rt with timers := swapRemove rt.timers i })

def candidate (now : Duration) (e : MockTimerEntry) (idx : Nat) : Option Registry.Candidate :=
  if e.deleted || e.callback.isNone then none
  else
    match e.state.deadline with
    | some d => if d ≤ now then some { idx, deadline := d, id := e.creationOrder } else none
    | none => none

/-- `take_next_expired`: the loop keeps a candidate until one with a smaller deadline, or with
the same deadline and an earlier creation, comes. -/
def takeNextExpired (rt : MockTimeRuntime) :
    Checked (Option (MockTimerKey × Callback) × MockTimeRuntime) :=
  match Registry.best (rt.timers.zipIdx.filterMap fun p => candidate rt.now p.1 p.2) with
  | none => .ok (none, rt)
  | some c =>
    match rt.timers[c.idx]? with
    | none => .error .indexOutOfBounds
    | some e =>
      if (e.state.advanceOnExpiry rt.now).1 then
        match e.callback with
        | none => .error .assertionFailed
        | some callback =>
          let taken := { e with state := (e.state.advanceOnExpiry rt.now).2, callback := none }
          .ok (some (e.key, callback), { rt with timers := rt.timers.set c.idx taken })
      else .ok (none, rt)

/-- `restore_callback`: what remains is the callback that no entry took back. -/
def restoreCallback (rt : MockTimeRuntime) (key : MockTimerKey) (callback : Callback) :
    Option Callback × MockTimeRuntime :=
  match updateFirst (MockTimerEntry.live key)
      (fun e =>
        if e.callback.isNone then ((none : Option Callback), { e with callback := some callback })
        else (some callback, e))
      rt.timers with
  | some (rest, timers) => (rest, { rt with timers })
  | none => (some callback, rt)

def Awaits (rt : MockTimeRuntime) (key : MockTimerKey) : Prop :=
  ∃ e, rt.timers.find? (MockTimerEntry.live key) = some e ∧ e.callback = none

/-- A callback is taken back exactly if its timer is still registered and awaits it. -/
theorem restoreCallback_fst (rt : MockTimeRuntime) (key : MockTimerKey) (callback : Callback) :
    ((rt.restoreCallback key callback).1 = none ↔ rt.Awaits key) ∧
      ((rt.restoreCallback key callback).1 = none ∨
        (rt.restoreCallback key callback).1 = some callback) := by
  have hfst := updateFirst_fst (p := MockTimerEntry.live key)
    (f := fun e : MockTimerEntry =>
      if e.callback.isNone then ((none : Option Callback), { e with callback := some callback })
      else (some callback, e)) rt.timers
  unfold restoreCallback Awaits
  cases hfind : rt.timers.find? (MockTimerEntry.live key) with
  | none =>
    rw [hfind, Option.map_none, Option.map_eq_none_iff] at hfst
    rw [hfst]
    simp
  | some e =>
    rw [hfind, Option.map_some, Option.map_eq_some_iff] at hfst
    obtain ⟨⟨rest, timers⟩, hu, hrest⟩ := hfst
    rw [hu]
    cases hc : e.callback with
    | none =>
      have hback : rest = none := by simpa [hc] using hrest
      simp [hback, hc]
    | some held =>
      have hkept : rest = some callback := by simpa [hc] using hrest
      simp [hkept, hc]

end MockTimeRuntime

end OsalRust.Mock
