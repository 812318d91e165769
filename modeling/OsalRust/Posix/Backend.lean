import OsalRust.Timer.BackendLaws

/-!
# POSIX backend

The whole life of the backend: `initialize` and `shutdown` of the runtime, any number of times
and from any thread, the timers with their handles and leases, the service slot behind the
control mutex, and for each successful `initialize` a timer service with its mutex and a worker
thread that `shutdown` joins.

Calls of the runtime lifecycle are atomic, by its linearizability. Calls of pthread on valid
objects succeed, but the first lock of the control mutex may fail to initialize it, and so may
the creation of the service and of its thread. A panic is no step. The worker's local variables
are kept with its service.

The backend refines the machine of the exchanges, so the laws of that machine are its laws.
-/

namespace OsalRust.PosixBackend

open OsalRust OsalRust.Framework OsalRust.Timer
open OsalRust.Runtime (RuntimeState lifecycleTable)

/-- The control mutex, and the mutex of each service. -/
inductive Lock where
  | control
  | service (g : Nat)
  deriving DecidableEq

inductive Thread where
  | application (n : Nat)
  | worker (g : Nat)
  deriving DecidableEq

/-- `ServiceSlot`, with the service by its number; the number is kept while the service is
stopping. -/
inductive ServiceSlot where
  | stopped
  | running (service generation : Nat)
  | stopping (service generation : Nat)
  deriving DecidableEq

/-- The life of a worker thread: it leaves its loop before it drops its reference and ends. -/
inductive Life where
  | unborn
  | ready
  | alive
  | leaving
  | ended
  deriving DecidableEq

/-- `TimerService`, with the count of its references, its worker thread, and the callback that
the worker has taken out. -/
structure TimerService where
  state : Registry
  refs : Nat
  life : Life
  joined : Bool
  hand : Hand

def TimerService.init : TimerService where
  state := Registry.new
  refs := 0
  life := .unborn
  joined := false
  hand := .idle

/-- What the threads share. `runtime` is the state and the lease count of `RUNTIME`,
`controlReady` says that the control mutex has been initialized, `services` counts the services
so far, and `objects` the leases of objects other than timers. -/
structure Backend where
  runtime : RuntimeState × Nat
  controlReady : Bool
  slot : ServiceSlot
  nextGeneration : Nat
  service : Nat → TimerService
  services : Nat
  handles : Handles
  objects : Nat
  now : Duration

namespace Backend

def init (now : Duration) : Backend where
  runtime := (.uninitialized, 0)
  controlReady := false
  slot := .stopped
  nextGeneration := 1
  service := fun _ => TimerService.init
  services := 0
  handles := Handles.empty
  objects := 0
  now := now

def adjust (w : Backend) (g : Nat) (f : TimerService → TimerService) : Backend :=
  { w with service := Function.update w.service g (f (w.service g)) }

end Backend

inductive RuntimeCall where
  | initializeRuntime
  | shutdownRuntime
  | acquireObject
  | dropObject
  deriving DecidableEq

/-- The closures that `with_control` runs: those of `initialize`, of `with_service`, and of the
first and the last phase of `shutdown`. -/
inductive Section where
  | create
  | lookUp (q : Request)
  | stop
  | cleanUp (g generation : Nat)

/-- The pieces of code between two lock operations or atomic accesses. First application code
between its calls and the calls of the runtime; then `with_control` up to the lock and the
closure inside it; the other parts of `initialize` and of `shutdown`; the parts of a timer call,
from the lease that `new` acquires to the return of the call; the destructors; and the worker's
loop with the callback it executes. -/
inductive Action where
  | application
  | runtime (call : RuntimeCall)
  | withControl (s : Section)
  | control (s : Section)
  | commitInitialize
  | rollbackInitialize
  | checkTimers (g generation : Nat)
  | requestStop (g generation : Nat)
  | replaceSlot (g generation : Nat)
  | join (g generation : Nat)
  | commitShutdown
  | rollbackShutdown
  | acquire (period : Duration) (mode : TimerMode) (callback : Callback)
  | serve (g : Nat) (q : Request)
  | returned (g : Nat) (q : Request) (ok : Bool)
  | dropService (g : Nat)
  | dropLease
  | adopt (id : Nat)
  | dropHandle (id : Nat)
  | dropCallback (callback : Callback)
  | dropRemoved (g id : Nat) (callback : Callback)
  | worker (g : Nat)
  | run (g : Nat)
  | checkStop (g : Nat)
  | scan (g : Nat)
  | inspect (g : Nat)
  | wait (g : Nat)
  | select (g : Nat)
  | begin (g id : Nat)
  | callback (g id : Nat)
  | restore (g id : Nat)
  | dropRetired (g id : Nat) (callback : Callback)
  | leave (g : Nat)
  | ended (g : Nat)

abbrev Code := List (Instr Lock Action)

def withService (q : Request) : Code := [.act (.withControl (.lookUp q))]

/-- The calls of `timer_service`. Before `register`, `new` acquires a lease. -/
def api : Request → Code
  | .register period mode callback => [.act (.acquire period mode callback)]
  | q => withService q

def intend : Intent → Code
  | .idle => []
  | .request q => api q
  | .dropHandle id => [.act (.dropHandle id)]
  | .dropCallback callback => [.act (.dropCallback callback)]

/-- The end of a request that no service has served: the closure of `with_service` is dropped,
and a registration's callback with it, then the control mutex is released if it was taken, and
the lease goes, of `new` or of the dropped handle. -/
def turnDown (unlock : Code) : Request → Code
  | .register _ _ callback => .act (.dropCallback callback) :: unlock ++ [.act .dropLease]
  | .deregister _ => unlock ++ [.act .dropLease]
  | _ => unlock

/-- `with_control` fails before it has run its closure; after the worker has been joined this is
a panic. -/
def unavailable : Section → Option Code
  | .create => some [.act .rollbackInitialize]
  | .lookUp q => some (turnDown [] q)
  | .stop => some [.act .rollbackShutdown]
  | .cleanUp _ _ => none

/-- The guards of `with_service` and `with_control` go out of scope. -/
def release (g : Nat) : Code := [.unlock (.service g), .unlock .control]

/-- The end of the drop of a last handle. `e.callback = None` drops the callback in place, before
the guards. -/
def part (g : Nat) : Request → Option Callback → Code
  | .deregister id, some callback => [.act (.dropRemoved g id callback)]
  | .deregister _, none => release g ++ [.act .dropLease]
  | _, _ => release g

/-- The rest of `with_service` and of its caller. The closure of a refused registration still
owns the callback when it returns. -/
def finish (g : Nat) (q : Request) (ok : Bool) : Outcome → Code
  | .done => release g ++ [.act (.returned g q ok)]
  | .registered id => release g ++ [.act (.adopt id)]
  | .refused callback => .act (.dropCallback callback) :: release g ++ [.act .dropLease]
  | .removed callback => part g q callback ++ [.act (.returned g q ok)]

/-- Waiting on the condition variable, which releases the service mutex meanwhile. -/
def pause (g : Nat) : Code :=
  [.unlock (.service g), .act (.wait g), .lock (.service g), .unlock (.service g), .act (.run g)]

/-- One iteration of `run` after the registry has been purged. -/
def iterate (g : Nat) (r : Registry) (now : Duration) : Code :=
  match r.earliest with
  | none => pause g
  | some deadline =>
    if deadline ≤ now then [.unlock (.service g), .lock (.service g), .act (.select g)]
    else pause g

def dispatch (g : Nat) : Registry.Selection → Code
  | .dispatch id _ => [.unlock (.service g), .act (.begin g id)]
  | .none | .rescan => [.unlock (.service g), .act (.run g)]

/-- The worker's local variables after a selection. -/
def handOf (hand : Hand) : Registry.Selection → Hand
  | .dispatch id callback => .taken id callback
  | .none | .rescan => hand

/-- The end of `dispatch_one`: the guard, declared after the callback, is dropped first. -/
def giveUp (g id : Nat) : Option Callback → Code
  | none => [.unlock (.service g), .act (.run g)]
  | some callback => [.unlock (.service g), .act (.dropRetired g id callback)]

def dropAll (callbacks : List Callback) : Code :=
  callbacks.map fun callback => .act (.dropCallback callback)

def dropHandles (callback : Callback) : Code :=
  callback.captures.map fun id => .act (.dropHandle id)

/-- The actions of the application threads and of the workers; `max` is the greatest lease
count. Every reading of the clock is at or after the last one. -/
inductive Performs (max : Nat) : Exec Thread Lock Action Backend
  | application {t : Thread} {w : Backend} {i : Intent} {h : Handles} :
      Handles.Calls [] w.handles i h →
      Performs max t w .application { w with handles := h } (intend i ++ [.act .application])
  | applicationCalls {t : Thread} {w : Backend} (call : RuntimeCall) :
      Performs max t w .application w [.act (.runtime call), .act .application]
  | acquireObject {t : Thread} {w : Backend} {r : RuntimeState × Nat} :
      (lifecycleTable max).apply (.retry .acquire) w.runtime = some (.ok (), r) →
      Performs max t w (.runtime .acquireObject)
        { w with runtime := r, objects := w.objects + 1 } []
  | acquireObjectRefused {t : Thread} {w : Backend} {e : Error} {r : RuntimeState × Nat} :
      (lifecycleTable max).apply (.retry .acquire) w.runtime = some (.error e, r) →
      Performs max t w (.runtime .acquireObject) { w with runtime := r } []
  | dropObject {t : Thread} {w : Backend} {r : RuntimeState × Nat} : 0 < w.objects →
      (lifecycleTable max).apply (.retry .leaseDrop) w.runtime = some (.ok (), r) →
      Performs max t w (.runtime .dropObject)
        { w with runtime := r, objects := w.objects - 1 } []
  | withControl {t : Thread} {w : Backend} (s : Section) :
      Performs max t w (.withControl s) { w with controlReady := true }
        [.lock .control, .act (.control s)]
  | withControlFails {t : Thread} {w : Backend} {s : Section} {code : Code} :
      w.controlReady = false → unavailable s = some code →
      Performs max t w (.withControl s) w code
  | beginInitialize {t : Thread} {w : Backend} {r : RuntimeState × Nat} :
      (lifecycleTable max).apply (.swap .beginInitialize) w.runtime = some (.ok (), r) →
      Performs max t w (.runtime .initializeRuntime) { w with runtime := r }
        [.act (.withControl .create)]
  | initializeRefused {t : Thread} {w : Backend} {e : Error} {r : RuntimeState × Nat} :
      (lifecycleTable max).apply (.swap .beginInitialize) w.runtime = some (.error e, r) →
      Performs max t w (.runtime .initializeRuntime) { w with runtime := r } []
  -- the worker does not look at the slot, and nobody else sees it before the control mutex is
  -- released, so creating the service and its thread and filling the slot are one step
  | create {t : Thread} {w : Backend} : w.slot = .stopped → w.nextGeneration < u64Max →
      Performs max t w (.control .create)
        { w.adjust w.services fun s => { s with refs := 2, life := .ready } with
          slot := .running w.services w.nextGeneration
          nextGeneration := w.nextGeneration + 1
          services := w.services + 1 }
        [.unlock .control, .act .commitInitialize]
  | createFails {t : Thread} {w : Backend} :
      Performs max t w (.control .create) w [.unlock .control, .act .rollbackInitialize]
  | commitInitialize {t : Thread} {w : Backend} {r : RuntimeState × Nat} :
      (lifecycleTable max).apply (.swap .initializeCommit) w.runtime = some (.ok (), r) →
      Performs max t w .commitInitialize { w with runtime := r } []
  | rollbackInitialize {t : Thread} {w : Backend} {r : RuntimeState × Nat} :
      (lifecycleTable max).apply (.swap .initializeDrop) w.runtime = some (.ok (), r) →
      Performs max t w .rollbackInitialize { w with runtime := r } []
  | beginShutdown {t : Thread} {w : Backend} {r : RuntimeState × Nat} :
      (lifecycleTable max).apply (.retry .beginShutdown) w.runtime = some (.ok (), r) →
      Performs max t w (.runtime .shutdownRuntime) { w with runtime := r }
        [.act (.withControl .stop)]
  | shutdownRefused {t : Thread} {w : Backend} {e : Error} {r : RuntimeState × Nat} :
      (lifecycleTable max).apply (.retry .beginShutdown) w.runtime = some (.error e, r) →
      Performs max t w (.runtime .shutdownRuntime) { w with runtime := r } []
  | stopRefused {t : Thread} {w : Backend} :
      (∀ service generation, w.slot ≠ .running service generation) →
      Performs max t w (.control .stop) w [.unlock .control, .act .rollbackShutdown]
  | stopSelf {t : Thread} {w : Backend} {g generation : Nat} : w.slot = .running g generation →
      t = .worker g →
      Performs max t w (.control .stop) (w.adjust g fun s => { s with refs := s.refs + 1 })
        [.act (.dropService g), .unlock .control, .act .rollbackShutdown]
  | stop {t : Thread} {w : Backend} {g generation : Nat} : w.slot = .running g generation →
      t ≠ .worker g →
      Performs max t w (.control .stop) (w.adjust g fun s => { s with refs := s.refs + 1 })
        [.lock (.service g), .act (.checkTimers g generation)]
  | checkTimersBusy {t : Thread} {w : Backend} {g generation : Nat} :
      (w.service g).state.retain.2.timers ≠ [] →
      Performs max t w (.checkTimers g generation)
        (w.adjust g fun s => { s with state := s.state.retain.2 })
        (dropAll (w.service g).state.retain.1 ++
          [.unlock (.service g), .act (.dropService g), .unlock .control,
            .act .rollbackShutdown])
  | checkTimers {t : Thread} {w : Backend} {g generation : Nat} :
      (w.service g).state.retain.2.timers = [] →
      Performs max t w (.checkTimers g generation)
        (w.adjust g fun s => { s with state := s.state.retain.2 })
        (dropAll (w.service g).state.retain.1 ++ [.act (.requestStop g generation)])
  | requestStop {t : Thread} {w : Backend} {g generation : Nat} :
      Performs max t w (.requestStop g generation)
        (w.adjust g fun s => { s with state := { s.state with stopRequested := true } })
        [.unlock (.service g), .act (.replaceSlot g generation)]
  -- the references of the replaced slot and of the closure go before the guard
  | replaceSlot {t : Thread} {w : Backend} {g generation current : Nat} :
      w.slot = .running g current →
      Performs max t w (.replaceSlot g generation) { w with slot := .stopping g generation }
        [.act (.dropService g), .act (.dropService g), .unlock .control,
          .act (.join g generation)]
  | join {t : Thread} {w : Backend} {g generation : Nat} : t ≠ .worker g →
      (w.service g).joined = false → (w.service g).life = .ended →
      Performs max t w (.join g generation) (w.adjust g fun s => { s with joined := true })
        [.act (.withControl (.cleanUp g generation))]
  | cleanUp {t : Thread} {w : Backend} {g generation service : Nat} :
      w.slot = .stopping service generation →
      Performs max t w (.control (.cleanUp g generation)) { w with slot := .stopped }
        [.unlock .control, .act .commitShutdown]
  | commitShutdown {t : Thread} {w : Backend} {r : RuntimeState × Nat} :
      (lifecycleTable max).apply (.swap .shutdownCommit) w.runtime = some (.ok (), r) →
      Performs max t w .commitShutdown { w with runtime := r } []
  | rollbackShutdown {t : Thread} {w : Backend} {r : RuntimeState × Nat} :
      (lifecycleTable max).apply (.swap .shutdownDrop) w.runtime = some (.ok (), r) →
      Performs max t w .rollbackShutdown { w with runtime := r } []
  | acquire {t : Thread} {w : Backend} {r : RuntimeState × Nat} {period : Duration}
      {mode : TimerMode} {callback : Callback} :
      (lifecycleTable max).apply (.retry .acquire) w.runtime = some (.ok (), r) →
      Performs max t w (.acquire period mode callback) { w with runtime := r }
        (withService (.register period mode callback))
  | acquireRefused {t : Thread} {w : Backend} {e : Error} {r : RuntimeState × Nat}
      {period : Duration} {mode : TimerMode} {callback : Callback} :
      (lifecycleTable max).apply (.retry .acquire) w.runtime = some (.error e, r) →
      Performs max t w (.acquire period mode callback) { w with runtime := r }
        [.act (.dropCallback callback)]
  | lookUp {t : Thread} {w : Backend} {q : Request} {g generation : Nat} :
      w.slot = .running g generation →
      Performs max t w (.control (.lookUp q)) w [.lock (.service g), .act (.serve g q)]
  | turnDown {t : Thread} {w : Backend} {q : Request} :
      (∀ service generation, w.slot ≠ .running service generation) →
      Performs max t w (.control (.lookUp q)) w (turnDown [.unlock .control] q)
  | serve {t : Thread} {w : Backend} {g : Nat} {q : Request} {now : Duration} : w.now ≤ now →
      Performs max t w (.serve g q)
        { w.adjust g fun s => { s with state := (s.state.serve now true q).2 } with now }
        (finish g q ((w.service g).state.succeeds now true q)
          ((w.service g).state.serve now true q).1)
  | returned {t : Thread} {w : Backend} {g : Nat} {q : Request} {ok : Bool} :
      Performs max t w (.returned g q ok) w []
  | dropService {t : Thread} {w : Backend} {g : Nat} : (w.service g).refs ≠ 1 →
      Performs max t w (.dropService g) (w.adjust g fun s => { s with refs := s.refs - 1 }) []
  | destroy {t : Thread} {w : Backend} {g : Nat} : (w.service g).refs = 1 →
      Performs max t w (.dropService g)
        (w.adjust g fun s => { s with refs := 0, state := { s.state with timers := [] } })
        (dropAll ((w.service g).state.timers.filterMap (·.callback)))
  | dropLease {t : Thread} {w : Backend} {r : RuntimeState × Nat} :
      (lifecycleTable max).apply (.retry .leaseDrop) w.runtime = some (.ok (), r) →
      Performs max t w .dropLease { w with runtime := r } []
  | adopt {t : Thread} {w : Backend} {id : Nat} :
      Performs max t w (.adopt id) { w with handles := w.handles.adopt id } []
  | dropClone {t : Thread} {w : Backend} {id : Nat} : 1 < w.handles.strong id →
      Performs max t w (.dropHandle id) { w with handles := w.handles.release id } []
  | dropLast {t : Thread} {w : Backend} {id : Nat} : w.handles.strong id = 1 →
      Performs max t w (.dropHandle id) { w with handles := w.handles.release id }
        (withService (.deregister id))
  | dropCallback {t : Thread} {w : Backend} {callback : Callback} :
      Performs max t w (.dropCallback callback) w (dropHandles callback)
  | dropRemoved {t : Thread} {w : Backend} {g id : Nat} {callback : Callback} :
      Performs max t w (.dropRemoved g id callback) w
        (dropHandles callback ++ release g ++ [.act .dropLease])
  | worker {t : Thread} {w : Backend} {g : Nat} : (w.service g).life = .ready →
      Performs max t w (.worker g) (w.adjust g fun s => { s with life := .alive }) [.act (.run g)]
  | run {t : Thread} {w : Backend} {g : Nat} :
      Performs max t w (.run g) w [.lock (.service g), .act (.checkStop g)]
  | checkStop {t : Thread} {w : Backend} {g : Nat} : (w.service g).state.stopRequested = true →
      Performs max t w (.checkStop g) w [.unlock (.service g), .act (.leave g)]
  | goOn {t : Thread} {w : Backend} {g : Nat} : (w.service g).state.stopRequested = false →
      Performs max t w (.checkStop g) w [.act (.scan g)]
  | scan {t : Thread} {w : Backend} {g : Nat} :
      Performs max t w (.scan g) (w.adjust g fun s => { s with state := s.state.retain.2 })
        (dropAll (w.service g).state.retain.1 ++ [.act (.inspect g)])
  | inspect {t : Thread} {w : Backend} {g : Nat} {now : Duration} : w.now ≤ now →
      Performs max t w (.inspect g) { w with now } (iterate g (w.service g).state now)
  | wait {t : Thread} {w : Backend} {g : Nat} : Performs max t w (.wait g) w []
  | select {t : Thread} {w : Backend} {g : Nat} {now : Duration} {selection : Registry.Selection}
      {r : Registry} : w.now ≤ now → (w.service g).state.select now = .ok (selection, r) →
      Performs max t w (.select g)
        { w.adjust g fun s => { s with state := r, hand := handOf s.hand selection } with now }
        (dispatch g selection)
  | begin {t : Thread} {w : Backend} {g id : Nat} {callback : Callback} :
      (w.service g).hand = .taken id callback →
      Performs max t w (.begin g id) (w.adjust g fun s => { s with hand := .running id callback })
        [.act (.callback g id)]
  | callbackCalls {t : Thread} {w : Backend} {g id : Nat} {callback : Callback} {i : Intent}
      {h : Handles} : (w.service g).hand = .running id callback →
      Handles.Calls callback.captures w.handles i h →
      Performs max t w (.callback g id) { w with handles := h }
        (intend i ++ [.act (.callback g id)])
  | callbackRuntime {t : Thread} {w : Backend} {g id : Nat} {callback : Callback}
      (call : RuntimeCall) : (w.service g).hand = .running id callback →
      Performs max t w (.callback g id) w [.act (.runtime call), .act (.callback g id)]
  | callbackYields {t : Thread} {w : Backend} {g id captured : Nat} {callback : Callback} :
      (w.service g).hand = .running id callback → captured ∈ callback.captures →
      Performs max t w (.callback g id)
        { w.adjust g fun s => { s with hand := .running id ⟨callback.captures.erase captured⟩ } with
          handles := w.handles.gain captured }
        [.act (.callback g id)]
  | callbackCaptures {t : Thread} {w : Backend} {g id captured : Nat} {callback : Callback} :
      (w.service g).hand = .running id callback → 0 < w.handles.owned captured →
      Performs max t w (.callback g id)
        { w.adjust g fun s => { s with hand := .running id ⟨captured :: callback.captures⟩ } with
          handles := w.handles.give captured }
        [.act (.callback g id)]
  | callbackReturns {t : Thread} {w : Backend} {g id : Nat} {callback : Callback} :
      (w.service g).hand = .running id callback →
      Performs max t w (.callback g id) w [.lock (.service g), .act (.restore g id)]
  | restore {t : Thread} {w : Backend} {g id : Nat} {callback : Callback} :
      (w.service g).hand = .running id callback →
      Performs max t w (.restore g id)
        (w.adjust g fun s => { s with state := (s.state.restore id callback).2, hand := .idle })
        (giveUp g id ((w.service g).state.restore id callback).1)
  | dropRetired {t : Thread} {w : Backend} {g id : Nat} {callback : Callback} :
      Performs max t w (.dropRetired g id callback) w (dropHandles callback ++ [.act (.run g)])
  | leave {t : Thread} {w : Backend} {g : Nat} : (w.service g).life = .alive →
      Performs max t w (.leave g) (w.adjust g fun s => { s with life := .leaving })
        [.act (.dropService g), .act (.ended g)]
  | ended {t : Thread} {w : Backend} {g : Nat} : (w.service g).life = .leaving →
      Performs max t w (.ended g) (w.adjust g fun s => { s with life := .ended }) []

abbrev State := Threads Thread Lock Action Backend

def start (now : Duration) : State where
  shared := .init now
  holder := fun _ => none
  code := fun
    | .application _ => [.act .application]
    | .worker g => [.act (.worker g)]

def system (max : Nat) : Lts State (Thread × Instr Lock Action) :=
  Threads.system (Performs max) fun s => ∃ now, s = start now

/-! ## Refinement -/

def ServiceSlot.view : ServiceSlot → Slot
  | .stopped => .stopped
  | .running g _ => .running g true
  | .stopping g _ => .stopping g false

def TimerService.view (s : TimerService) : Service where
  registry := s.state
  hand := s.hand
  refs := s.refs
  spawned := decide (s.life ≠ .unborn)
  ready := decide (s.life = .ready)
  finished := decide (s.life = .leaving ∨ s.life = .ended)

def Backend.view (w : Backend) : World where
  state := w.runtime.1
  leases := w.runtime.2
  objects := w.objects
  configured := decide (w.slot ≠ .stopped)
  slot := w.slot.view
  services := fun g => (w.service g).view
  created := w.services
  handles := w.handles
  now := w.now

def Section.cargo : Section → Multiset Token
  | .create => {.transition .create}
  | .lookUp q => q.tokens none
  | .stop => {.transition .stop}
  | .cleanUp g _ => {.transition (.drained g)}

def cargo : Action → Multiset Token
  | .withControl s | .control s => s.cargo
  | .rollbackInitialize => {.transition .create}
  | .commitInitialize => {.transition .ready}
  | .rollbackShutdown => {.transition .stop}
  | .checkTimers g _ => {.transition (.checking g)} + {.ref g}
  | .requestStop g _ => {.transition (.cleared g)} + {.ref g}
  | .replaceSlot g _ => {.transition (.halted g)} + {.ref g}
  | .join g _ => {.transition (.draining g true)}
  | .commitShutdown => {.transition .closed}
  | .acquire _ _ callback | .dropCallback callback => {.closure callback}
  | .serve g q => q.tokens (some g) + {.uses g}
  | .dropService g => {.ref g}
  | .dropLease => {.lease none}
  | .adopt id => {.fresh id}
  | .dropHandle id => {.clone id}
  | .dropRemoved g id callback => {.removed g id callback}
  | .run g | .checkStop g | .scan g | .inspect g | .select g => {.loop g .idle}
  | .begin g id => {.loop g (.taken id)}
  | .callback g id | .restore g id => {.loop g (.running id)}
  | .dropRetired g id callback => {.loop g (.retiring id callback)}
  | .leave g => {.loop g .stopping}
  | .application | .runtime _ | .returned _ _ _ | .worker _ | .wait _ | .ended _ => 0

def actionEvent : Action → Label
  | .serve g q => .service g (.serve q true)
  | .scan g | .checkTimers g _ => .service g .purge
  | .inspect g => .service g .tick
  | .select g => .service g .select
  | .begin g id => .service g (.begin id)
  | .callback g _ => .service g .adapt
  | .restore g id => .service g (.restore id)
  | .requestStop g _ => .service g .halt
  | .dropService g => .service g .release
  | .dropRemoved g id _ | .dropRetired g id _ => .drop g id
  | .commitInitialize => .initialized
  | .commitShutdown => .shut
  | _ => .tau

def event : Thread × Instr Lock Action → Label
  | (_, .act a) => actionEvent a
  | _ => .tau

section Refinement

variable {max : Nat} {t : Thread} {w w' : Backend} {a : Action} {code : Code}

theorem view_update (w : Backend) (g : Nat) (s : TimerService) :
    (fun i => (Function.update w.service g s i).view) = Function.update w.view.services g s.view :=
  Function.comp_update TimerService.view w.service g s

private theorem view_eq {X : World} (hservices : w'.view.services = X.services)
    (hrest : w'.view = { X with services := w'.view.services }) : w'.view = X := by
  rw [hrest, hservices]

@[simp] theorem owns_dropAll (callbacks : List Callback) :
    Threads.owns cargo (dropAll callbacks) = closures callbacks :=
  Threads.owns_acts (fun c => show cargo (.dropCallback c) = {.closure c} from rfl) callbacks

@[simp] theorem owns_dropHandles (callback : Callback) :
    Threads.owns cargo (dropHandles callback) = clones callback :=
  Threads.owns_acts (fun id => show cargo (.dropHandle id) = {.clone id} from rfl) callback.captures

@[simp] theorem owns_release (g : Nat) : Threads.owns cargo (release g) = 0 := rfl

theorem owns_intend {captures : List Nat} {h h' : Handles} {i : Intent}
    (hc : Handles.Calls captures h i h') : Threads.owns cargo (intend i) = i.tokens := by
  cases hc <;>
    simp [intend, api, withService, cargo, Section.cargo, Intent.tokens, Request.tokens]

theorem owns_turnDown (unlock : Code) (q : Request) (h : Threads.owns cargo unlock = 0) :
    Threads.owns cargo (turnDown unlock q) = q.leftovers := by
  cases q <;> simp [turnDown, cargo, Request.leftovers, h, add_comm]

theorem owns_finish (g : Nat) (q : Request) (ok : Bool) (o : Outcome) :
    Threads.owns cargo (finish g q ok o) = o.tokens g q := by
  cases o with
  | done | registered id => simp [finish, cargo, Outcome.tokens]
  | refused callback => simp [finish, cargo, Outcome.tokens, add_comm]
  | removed callback =>
    cases q <;> cases callback <;> simp [finish, part, cargo, Outcome.tokens, parting]

theorem owns_iterate (g : Nat) (r : Registry) (now : Duration) :
    Threads.owns cargo (iterate g r now) = {.loop g .idle} := by
  rw [iterate]
  split
  · rfl
  · split <;> rfl

private theorem view_running {g generation : Nat} (h : w.slot = .running g generation) :
    w.view.slot = .running g true := by
  rw [Backend.view, h]
  rfl

private theorem view_not_running (h : ∀ service generation, w.slot ≠ .running service generation)
    (g : Nat) (worker : Bool) : w.view.slot ≠ .running g worker := by
  intro hv
  cases hs : w.slot with
  | running service generation => exact h service generation hs
  | stopped | stopping =>
    rw [Backend.view, hs] at hv
    cases hv

private theorem exchange_of_eq {c p : Multiset Token} {l : Label} {X : World}
    (hx : Exchange w.view c l X p) (hrest : w'.view = X) : Exchange w.view c l w'.view p := by
  rw [hrest]
  exact hx

private theorem exchange_of_view {c p : Multiset Token} {l : Label} {X : World}
    (hx : Exchange w.view c l X p) (hservices : w'.view.services = X.services)
    (hrest : w'.view = { X with services := w'.view.services }) : Exchange w.view c l w'.view p :=
  exchange_of_eq hx (view_eq hservices hrest)

private theorem view_same {g : Nat} {f : TimerService → TimerService}
    (h : (f (w.service g)).view = (w.service g).view) : (w.adjust g f).view = w.view := by
  have hservices : (w.adjust g f).view.services = w.view.services := by
    have hupdate := view_update w g (f (w.service g))
    rw [h] at hupdate
    exact hupdate.trans (Function.update_eq_self g w.view.services)
  exact view_eq hservices rfl

private theorem blends_service (g : Nat) (e : Event) : (Label.service g e).Blends :=
  ⟨by simp, by simp⟩

private theorem blends_tau : Label.tau.Blends := ⟨by simp, by simp⟩

/-- The slot is unused before the control mutex exists, and services to come have no worker. -/
structure Backend.Ok (w : Backend) : Prop where
  ready : w.controlReady = false → w.slot = .stopped
  unborn : ∀ g, w.services ≤ g → (w.service g).life = .unborn

theorem Backend.Ok.adjust {g : Nat} {f : TimerService → TimerService} (h : w.Ok)
    (hlife : w.services ≤ g → (f (w.service g)).life = .unborn) (handles : Handles)
    (now : Duration) : { w.adjust g f with handles, now }.Ok := by
  refine ⟨h.ready, fun i hi => ?_⟩
  by_cases hig : i = g
  · subst hig
    change (Function.update w.service i (f (w.service i)) i).life = _
    rw [Function.update_self]
    exact hlife hi
  · change (Function.update w.service g (f (w.service g)) i).life = _
    rw [Function.update_of_ne hig]
    exact h.unborn i hi

/-- Every action exchanges the tokens that it owns for those of the code that it pushes. -/
theorem Performs.exchange (h : Performs max t w a w' code) (hok : w.Ok) :
    Exchange w.view (cargo a) (actionEvent a) w'.view (Threads.owns cargo code) := by
  cases h with
  | application hc =>
    rw [Threads.owns_append, owns_intend hc]
    exact (Exchange.call (w := w.view) hc).of_tokens rfl (by simp [cargo])
  | applicationCalls => exact .idle
  | acquireObject hr =>
    obtain ⟨hst, rfl⟩ := Runtime.acquire_of_table hr
    exact exchange_of_eq (.acquireObject hst) (by simp only [Backend.view, hst])
  | acquireObjectRefused hr | initializeRefused hr | shutdownRefused hr =>
    obtain rfl := Runtime.error_of_table hr
    exact .idle
  | dropObject hpos hr =>
    obtain ⟨hst, rfl⟩ := Runtime.leaseDrop_of_table hr
    exact exchange_of_eq (.dropObject hst hpos) (by simp only [Backend.view, hst])
  | withControl s => exact Exchange.idle.of_tokens rfl (add_zero _).symm
  | @withControlFails _ _ s code hunready hcode =>
    have hstopped := hok.ready hunready
    cases s with
    | create | stop =>
      obtain rfl := Option.some.inj hcode
      exact .idle
    | lookUp q =>
      obtain rfl := Option.some.inj hcode
      rw [owns_turnDown _ _ rfl]
      exact .turnDown_request _ (view_not_running (by simp [hstopped]))
    | cleanUp => cases hcode
  | beginInitialize hr =>
    obtain ⟨hst, rfl⟩ := Runtime.swap_of_table hr
    exact .beginInitialize hst
  | create hslot hgen =>
    have hcreate := Exchange.create (w := w.view) (by rw [Backend.view, hslot]; rfl)
    have hspawn := Exchange.before blends_tau hcreate
      (((Exchange.spawn rfl).frame {.transition .started}).of_tokens (zero_add _) (zero_add _))
    have hlife := hok.unborn w.services (Nat.le_refl _)
    refine exchange_of_view
      ((Exchange.after blends_tau hspawn .configure).of_tokens rfl (add_zero _).symm) ?_ ?_
    · refine (view_update _ _ _).trans ?_
      simp [World.adjust, Backend.view, TimerService.view, hlife]
    · simp [World.adjust, Backend.adjust, Backend.view, ServiceSlot.view]
  | createFails => exact .idle
  | commitInitialize hr =>
    obtain ⟨hst, rfl⟩ := Runtime.swap_of_table hr
    exact .commitInitialize hst
  | rollbackInitialize hr =>
    obtain ⟨hst, rfl⟩ := Runtime.swap_of_table hr
    exact .rollbackInitialize hst
  | beginShutdown hr =>
    obtain ⟨hst, rfl⟩ := Runtime.beginShutdown_of_table hr
    refine exchange_of_eq (.beginShutdown ?_ ?_) ?_
    · rw [Backend.view, hst]
    · rw [Backend.view, hst]
    · simp only [Backend.view, hst]
  | stopRefused => exact .idle
  | @stopSelf _ _ g _ hslot ht =>
    have hshare := (Exchange.share (view_running hslot)).frame {.transition .stop}
    rw [zero_add] at hshare
    exact exchange_of_view hshare (view_update _ _ _) rfl
  | @stop _ _ g _ hslot hself =>
    have hshare := (Exchange.share (view_running hslot)).frame {.transition (.checking g)}
    have hcheck := Exchange.before blends_tau (.check (view_running hslot))
      (hshare.of_tokens (zero_add _) rfl)
    exact exchange_of_view (hcheck.of_tokens rfl (add_comm _ _)) (view_update _ _ _) rfl
  | @checkTimersBusy _ _ g _ hbusy =>
    have hpurge := (Exchange.purge (w := w.view) (x := .transition (.checking g)) rfl).frame {.ref g}
    have hrefuse := Exchange.after (blends_service _ _) (hpurge.of_tokens rfl (add_assoc _ _ _))
      (.frame _ .refuse)
    refine exchange_of_view (hrefuse.of_tokens rfl ?_) (view_update _ _ _) rfl
    rw [Threads.owns_append, owns_dropAll]
    simp only [Threads.owns_unlock, Threads.owns_act, Threads.owns_nil, cargo, add_zero]
    exact (add_left_comm _ _ _).trans (congrArg _ (add_comm _ _))
  | @checkTimers _ _ g _ hnil =>
    have hpurge := (Exchange.purge (w := w.view) (x := .transition (.checking g)) rfl).frame {.ref g}
    have hclear := Exchange.after (blends_service _ _) (hpurge.of_tokens rfl (add_assoc _ _ _))
      (.frame _ (.clear ?_))
    · refine exchange_of_view (hclear.of_tokens rfl ?_) (view_update _ _ _) rfl
      rw [Threads.owns_append, owns_dropAll]
      exact add_left_comm _ _ _
    · have hempty : (w.view.services g).registry.retain.2.timers = [] := hnil
      simpa [World.adjust] using hempty
  | @requestStop _ _ g => exact exchange_of_view (.frame _ .halt) (view_update _ _ _) rfl
  | @replaceSlot _ _ g _ _ hslot =>
    have hstop := (@Exchange.stopping _ _ _ false (view_running hslot)).frame {.ref g}
    refine exchange_of_eq (hstop.of_tokens rfl ?_) (by simp [Backend.view, ServiceSlot.view, hslot])
    simp only [Threads.owns_act, Threads.owns_unlock, Threads.owns_nil, cargo, add_zero]
    exact (add_assoc _ _ _).trans ((add_comm _ _).trans (add_assoc _ _ _))
  | join hself hunjoined hended =>
    refine exchange_of_eq ?_ (view_same rfl)
    exact (Exchange.drained (w := w.view) fun _ => by simp [Backend.view, TimerService.view, hended]).of_tokens
      rfl (add_zero _).symm
  | @cleanUp _ _ g _ _ hslot =>
    have hclean := @Exchange.cleanUp w.view g _ false (by rw [Backend.view, hslot]; rfl)
    exact Exchange.after blends_tau (hclean.of_tokens rfl (add_zero _)) .deconfigure
  | commitShutdown hr =>
    obtain ⟨hst, rfl⟩ := Runtime.swap_of_table hr
    exact .commitShutdown hst
  | rollbackShutdown hr =>
    obtain ⟨hst, rfl⟩ := Runtime.swap_of_table hr
    exact .rollbackShutdown hst
  | @acquire _ _ r period mode callback hr =>
    obtain ⟨hst, rfl⟩ := Runtime.acquire_of_table hr
    have hacquire := (Exchange.acquire (w := w.view) hst).frame {.closure callback}
    refine exchange_of_eq (hacquire.of_tokens (zero_add _) (add_zero _).symm) ?_
    simp only [Backend.view, hst]
  | acquireRefused hr =>
    obtain rfl := Runtime.error_of_table hr
    exact .idle
  | @lookUp _ _ q g _ hslot =>
    have huse := (Exchange.use (view_running hslot)).frame (q.tokens (some g))
    have hbind := Exchange.before blends_tau (.bind q (view_running hslot))
      (huse.of_tokens (zero_add _) (add_comm _ _))
    exact hbind.of_tokens rfl (by simp [cargo])
  | turnDown hslot =>
    rw [owns_turnDown _ _ rfl]
    exact .turnDown_request _ (view_not_running hslot)
  | @serve _ _ g q now hnow =>
    rw [owns_finish]
    have hserve := Exchange.request (w := w.view) (x := .uses g) q true rfl hnow
    have hdone := Exchange.after (blends_service _ _) (hserve.of_tokens rfl (add_comm _ _))
      (.frame _ .unuse)
    exact exchange_of_view (hdone.of_tokens rfl (zero_add _)) (view_update _ _ _) rfl
  | returned => exact .idle
  | dropService hrefs => exact exchange_of_view .release (view_update _ _ _) rfl
  | destroy hrefs =>
    rw [owns_dropAll]
    exact exchange_of_view (.destroy hrefs) (view_update _ _ _) rfl
  | dropLease hr =>
    obtain ⟨hst, rfl⟩ := Runtime.leaseDrop_of_table hr
    exact exchange_of_eq (.dropLease hst) (by simp only [Backend.view, hst])
  | adopt => exact .adopt
  | dropClone hs => exact .dropClone hs
  | dropLast hs => exact (Exchange.dropLast (w := w.view) hs).of_tokens rfl (add_zero _).symm
  | dropCallback =>
    rw [owns_dropHandles]
    exact .dropClosure
  | dropRemoved =>
    rw [Threads.owns_append, Threads.owns_append, owns_dropHandles, owns_release, add_zero]
    exact .dropRemoved
  | worker hready =>
    refine exchange_of_view (.startWorker (by simp [Backend.view, TimerService.view, hready])) ?_ rfl
    refine (view_update _ _ _).trans ?_
    simp [World.adjust, Backend.view, TimerService.view, hready]
  | run => exact .idle
  | checkStop hstop => exact .observeStop hstop
  | goOn hstop => exact .idle
  | @scan _ _ g =>
    rw [Threads.owns_append, owns_dropAll]
    have hpurge := Exchange.purge (w := w.view) (x := .loop g .idle) rfl
    exact exchange_of_view (hpurge.of_tokens rfl (add_comm _ _)) (view_update _ _ _) rfl
  | inspect hnow =>
    rw [owns_iterate]
    exact .tick hnow
  | wait => exact .idle
  | @select _ _ g now selection r hnow hsel =>
    cases selection with
    | dispatch id callback => exact exchange_of_view (.select hnow hsel) (view_update _ _ _) rfl
    | none | rescan =>
      exact exchange_of_view (.selectNone hnow hsel (by simp)) (view_update _ _ _) rfl
  | begin hhand => exact exchange_of_view (.begin hhand) (view_update _ _ _) rfl
  | callbackCalls hhand hc =>
    rw [Threads.owns_append, owns_intend hc]
    exact (Exchange.callbackCall (w := w.view) hhand hc).of_tokens rfl (add_comm _ _)
  | callbackRuntime call hhand => exact .callbackIdle hhand
  | callbackYields hhand hmem =>
    exact exchange_of_view (.callbackYields hhand hmem) (view_update _ _ _) rfl
  | callbackCaptures hhand hown =>
    exact exchange_of_view (.callbackCaptures hhand hown) (view_update _ _ _) rfl
  | callbackReturns hhand => exact .callbackIdle hhand
  | @restore _ _ g id callback hhand =>
    refine exchange_of_view ((Exchange.restore (w := w.view) hhand).of_tokens rfl ?_)
      (view_update _ _ _) rfl
    change returning g id ((w.service g).state.restore id callback).1 = _
    cases ((w.service g).state.restore id callback).1 <;> rfl
  | dropRetired =>
    rw [Threads.owns_append, owns_dropHandles]
    exact .dropRetired
  | leave halive =>
    refine exchange_of_view (Exchange.finish.of_tokens rfl (add_zero _).symm) ?_ rfl
    refine (view_update _ _ _).trans ?_
    simp [World.adjust, Backend.view, TimerService.view, halive]
  | ended hleaving =>
    exact exchange_of_eq .idle (view_same (by simp [TimerService.view, hleaving]))

/-- The pieces of code that run under the control mutex, and those of a `shutdown` that is past
its checks. -/
def Action.guarded : Action → Bool
  | .control _ | .checkTimers _ _ | .requestStop _ _ | .replaceSlot _ _ | .join _ _
  | .withControl (.cleanUp _ _) => true
  | _ => false

inductive Follows (t : Thread) (w w' : Backend) : Action → Action → Prop
  | control {s : Section} : w'.controlReady = true → Follows t w w' (.withControl s) (.control s)
  | check {g generation : Nat} : w.slot = .running g generation → t ≠ .worker g →
      Follows t w w' (.control .stop) (.checkTimers g generation)
  | request {g generation : Nat} :
      Follows t w w' (.checkTimers g generation) (.requestStop g generation)
  | replace {g generation : Nat} :
      Follows t w w' (.requestStop g generation) (.replaceSlot g generation)
  | join {g generation : Nat} : Follows t w w' (.replaceSlot g generation) (.join g generation)
  | cleanUp {g generation : Nat} : (w'.service g).joined = true →
      Follows t w w' (.join g generation) (.withControl (.cleanUp g generation))

def Action.Plain (a : Action) : Prop := a.guarded = false

abbrev Unguarded : Code → Prop := Threads.Only Action.Plain

theorem unguarded_intend (i : Intent) : Unguarded (intend i) := by
  cases i with
  | request q => cases q <;> simp [intend, api, withService, Action.Plain, Action.guarded]
  | idle | dropHandle | dropCallback => simp [intend, Action.Plain, Action.guarded]

theorem unguarded_turnDown (unlock : Code) (q : Request) (h : Unguarded unlock) :
    Unguarded (turnDown unlock q) := by
  cases q <;> simp [turnDown, Action.Plain, Action.guarded, h]

theorem unguarded_release (g : Nat) : Unguarded (release g) := by
  simp [release]

theorem unguarded_finish (g : Nat) (q : Request) (ok : Bool) (o : Outcome) :
    Unguarded (finish g q ok o) := by
  have hpart : ∀ callback, Unguarded (part g q callback) := by
    intro callback
    cases q <;> cases callback <;> simp [part, Action.Plain, Action.guarded, unguarded_release]
  cases o <;> simp [finish, Action.Plain, Action.guarded, unguarded_release, hpart]

theorem unguarded_iterate (g : Nat) (r : Registry) (now : Duration) :
    Unguarded (iterate g r now) := by
  have hpause : Unguarded (pause g) := by simp [pause, Action.Plain, Action.guarded]
  rw [iterate]
  split
  · exact hpause
  · split
    · simp [Action.Plain, Action.guarded]
    · exact hpause

theorem unguarded_dispatch (g : Nat) (selection : Registry.Selection) :
    Unguarded (dispatch g selection) := by
  cases selection <;> simp [dispatch, Action.Plain, Action.guarded]

theorem unguarded_giveUp (g id : Nat) (callback : Option Callback) :
    Unguarded (giveUp g id callback) := by
  cases callback <;> simp [giveUp, Action.Plain, Action.guarded]

theorem unguarded_dropAll (callbacks : List Callback) : Unguarded (dropAll callbacks) := by
  intro a ha
  obtain ⟨callback, -, hact⟩ := List.mem_map.mp ha
  obtain rfl := Instr.act.inj hact
  rfl

theorem unguarded_dropHandles (callback : Callback) : Unguarded (dropHandles callback) := by
  intro a ha
  obtain ⟨id, -, hact⟩ := List.mem_map.mp ha
  obtain rfl := Instr.act.inj hact
  rfl

theorem Performs.follows (h : Performs max t w a w' code) :
    Threads.Only (fun b => b.guarded = true → Follows t w w' a b) code := by
  have plain : ∀ {code : Code}, Unguarded code →
      Threads.Only (fun b => b.guarded = true → Follows t w w' a b) code := by
    intro code hcode
    exact hcode.mono fun b hb hguarded => absurd hguarded (by rw [show b.guarded = false from hb]; simp)
  cases h with
  | withControl s => simpa using fun _ => Follows.control rfl
  | @withControlFails _ _ s _ _ hcode =>
    cases s with
    | create | stop =>
      obtain rfl := Option.some.inj hcode
      exact plain (by simp [Action.Plain, Action.guarded])
    | lookUp q =>
      obtain rfl := Option.some.inj hcode
      exact plain (unguarded_turnDown _ _ (by simp))
    | cleanUp => cases hcode
  | application | callbackCalls => exact plain (by simp [unguarded_intend, Action.Plain, Action.guarded])
  | stop hslot hself => simpa using fun _ => Follows.check hslot hself
  | checkTimersBusy => exact plain (by simp [unguarded_dropAll, Action.Plain, Action.guarded])
  | checkTimers =>
    rw [Threads.only_append]
    exact ⟨plain (unguarded_dropAll _), by simpa using fun _ => Follows.request⟩
  | requestStop => simpa using fun _ => Follows.replace
  | replaceSlot => simpa [Action.guarded] using Follows.join
  | join => simpa using fun _ => Follows.cleanUp (by simp [Backend.adjust])
  | turnDown => exact plain (unguarded_turnDown _ _ (by simp))
  | serve => exact plain (unguarded_finish _ _ _ _)
  | destroy => exact plain (unguarded_dropAll _)
  | dropCallback => exact plain (unguarded_dropHandles _)
  | dropRemoved =>
    exact plain (by simp [unguarded_dropHandles, unguarded_release, Action.Plain, Action.guarded])
  | scan => exact plain (by simp [unguarded_dropAll, Action.Plain, Action.guarded])
  | inspect => exact plain (unguarded_iterate _ _ _)
  | select => exact plain (unguarded_dispatch _ _)
  | restore => exact plain (unguarded_giveUp _ _ _)
  | dropRetired => exact plain (by simp [unguarded_dropHandles, Action.Plain, Action.guarded])
  | _ => exact plain (by simp [withService, Action.Plain, Action.guarded])

theorem Performs.controlReady (h : Performs max t w a w' code) (hr : w.controlReady = true) :
    w'.controlReady = true := by
  cases h with
  | withControl => rfl
  | _ => exact hr

theorem Performs.ok (h : Performs max t w a w' code) (hok : w.Ok)
    (hready : ∀ s, a = .control s → w.controlReady = true) : w'.Ok := by
  have kept : ∀ {g : Nat} {f : TimerService → TimerService},
      (f (w.service g)).life = (w.service g).life → (w.adjust g f).Ok := by
    intro g f hlife
    exact hok.adjust (fun hge => hlife.trans (hok.unborn g hge)) w.handles w.now
  have born : ∀ {g : Nat} {f : TimerService → TimerService}, (w.service g).life ≠ .unborn →
      (w.adjust g f).Ok := by
    intro g f hlife
    exact hok.adjust (fun hge => absurd (hok.unborn g hge) hlife) w.handles w.now
  cases h with
  | withControl => exact ⟨by simp, hok.unborn⟩
  | create =>
    refine ⟨by simp [Backend.adjust, hready _ rfl], fun g hg => ?_⟩
    have hne : g ≠ w.services := Nat.ne_of_gt hg
    simpa [Backend.adjust, hne] using hok.unborn g (Nat.le_of_succ_le hg)
  | replaceSlot hslot =>
    refine ⟨fun hfalse => ?_, hok.unborn⟩
    have hstopped := hok.ready hfalse
    rw [hslot] at hstopped
    cases hstopped
  | cleanUp => exact ⟨fun _ => rfl, hok.unborn⟩
  | stopSelf | stop | checkTimersBusy | checkTimers | requestStop | join | dropService | destroy
  | scan | begin | restore => exact kept rfl
  | serve | select | callbackYields | callbackCaptures => exact hok.adjust (hok.unborn _) _ _
  | worker hlife | leave hlife | ended hlife => exact born (by simp [hlife])
  | _ => exact ⟨hok.ready, hok.unborn⟩

def Ready (s : State) : Prop :=
  s.shared.Ok ∧
    Threads.Assigned (fun w _ a => ∀ sec, a = .control sec → w.controlReady = true) s

theorem Ready.step {s s' : State} {l : Thread × Instr Lock Action} (h : Ready s)
    (hs : (system max).step s l s') : Ready s' := by
  obtain ⟨hok, hcode⟩ := h
  refine ⟨?_, hcode.step hs (fun hex _ _ _ hb sec hsec => hex.controlReady (hb sec hsec)) ?_⟩
  · cases hs with
    | lock | unlock => exact hok
    | act hst hex => exact hex.ok hok (hcode.head hst)
  · rintro t w a w' code hex - b hb sec rfl
    cases hex.follows _ hb rfl with
    | control hready => exact hready

theorem ready_of_reachable {s : State} (h : (system max).Reachable s) : Ready s := by
  refine h.invariant ?_ fun s l s' hs => hs.step
  rintro s ⟨now, rfl⟩
  refine ⟨⟨fun _ => rfl, fun _ _ => rfl⟩, fun t => ?_⟩
  cases t <;> simp [start]

theorem settles : Threads.Settles (fun t w a w' code => Performs max t w a w' code ∧ w.Ok) cargo
    machine Backend.view event where
  lock _ _ _ _ := .idle
  unlock _ _ _ _ := .idle
  act R h := (h.1.exchange h.2).frame R

/-- What the threads do from a reachable state is done by the machine, which follows what they
own. -/
theorem steps_machine {tr : List (Thread × Instr Lock Action)} {s s' : State} {M : Multiset Token}
    (hr : (system max).Reachable s) (hM : Threads.Estate cargo s.code M)
    (hs : (system max).Steps s tr s') :
    ∃ M', Threads.Estate cargo s'.code M' ∧
      machine.Steps (s.shared.view, M) (tr.map event) (s'.shared.view, M') :=
  settles.steps hM
    (Threads.steps_of_invariant (fun _ hs => (ready_of_reachable hs).1) hr hs)

theorem start_machine {s : State} (h : (system max).init s) :
    (∀ t, Threads.owns cargo (s.code t) = 0) ∧ machine.init (s.shared.view, 0) := by
  obtain ⟨now, rfl⟩ := h
  refine ⟨fun t => ?_, now, rfl⟩
  cases t <;> rfl

end Refinement

/-! ## Some runs -/

section Runs

variable {max : Nat} {tr : List (Thread × Instr Lock Action)} {s : State} {w : Backend}

def resting (w : Backend) : State := { start w.now with shared := w }

def nanosecond : Duration := .fromNanos 1

def initialized : Backend :=
  { Backend.init Duration.zero with
    runtime := (.running, 0)
    controlReady := true
    slot := .running 0 1
    nextGeneration := 2
    service := Function.update (fun _ => TimerService.init) 0
      { TimerService.init with refs := 2, life := .ready }
    services := 1 }

def oneTimer : Backend :=
  { initialized with
    runtime := (.running, 1)
    service := Function.update (fun _ => TimerService.init) 0
      { TimerService.init with
        refs := 2
        life := .ready
        state := (Registry.new.register nanosecond .oneShot ⟨[]⟩ true).2.serve Duration.zero true
          (.start 1) |>.2 }
    handles := (Handles.empty.capture []).adopt 1 }

theorem run_initialized : ∃ tr, (system 2).Run tr (resting initialized) := by
  have h : (system 2).Run [] (start Duration.zero) := Lts.Run.start ⟨_, rfl⟩
  have h := h.snoc (.act (t := .application 0) rfl (.applicationCalls .initializeRuntime))
  have h := h.snoc (.act (t := .application 0) rfl (.beginInitialize rfl))
  have h := h.snoc (.act (t := .application 0) rfl (.withControl .create))
  have h := h.snoc (.lock (t := .application 0) rfl rfl)
  have h := h.snoc (.act (t := .application 0) rfl (.create rfl (by decide)))
  have h := h.snoc (.unlock (t := .application 0) rfl)
  have h := h.snoc (.act (t := .application 0) rfl (.commitInitialize rfl))
  refine ⟨_, Threads.run_of_eq h rfl ?_ ?_⟩
  · funext m
    cases m <;> rfl
  · funext t
    cases t with
    | application n => cases n <;> rfl
    | worker => rfl

theorem run_oneTimer : ∃ tr, (system 2).Run tr (resting oneTimer) := by
  obtain ⟨tr, h⟩ := run_initialized
  have hnew : Handles.Calls [] Handles.empty (.request (.register nanosecond .oneShot ⟨[]⟩))
      (Handles.empty.capture []) := .new (by simp) (by decide)
  have h := h.snoc (.act (t := .application 0) rfl (.application hnew))
  have h := h.snoc (.act (t := .application 0) rfl (.acquire rfl))
  have h := h.snoc (.act (t := .application 0) rfl (.withControl _))
  have h := h.snoc (.lock (t := .application 0) rfl rfl)
  have h := h.snoc (.act (t := .application 0) rfl (.lookUp rfl))
  have h := h.snoc (.lock (t := .application 0) rfl rfl)
  have h := h.snoc (.act (t := .application 0) rfl (.serve (Nat.le_refl _)))
  have h := h.snoc (.unlock (t := .application 0) rfl)
  have h := h.snoc (.unlock (t := .application 0) rfl)
  have h := h.snoc (.act (t := .application 0) rfl .adopt)
  have hstart : Handles.Calls [] oneTimer.handles (.request (.start 1)) oneTimer.handles :=
    .start (.inl (by decide))
  have h := h.snoc (.act (t := .application 0) rfl (.application hstart))
  have h := h.snoc (.act (t := .application 0) rfl (.withControl _))
  have h := h.snoc (.lock (t := .application 0) rfl rfl)
  have h := h.snoc (.act (t := .application 0) rfl (.lookUp rfl))
  have h := h.snoc (.lock (t := .application 0) rfl rfl)
  have h := h.snoc (.act (t := .application 0) rfl (.serve (Nat.le_refl _)))
  have h := h.snoc (.unlock (t := .application 0) rfl)
  have h := h.snoc (.unlock (t := .application 0) rfl)
  have h := h.snoc (.act (t := .application 0) rfl .returned)
  refine ⟨_, Threads.run_of_eq h (congrArg ({ oneTimer with service := · }) ?_) ?_ ?_⟩
  · funext g
    cases g <;> rfl
  · funext m
    cases m with
    | control => rfl
    | service g => cases g <;> rfl
  · funext t
    cases t with
    | application n => cases n <;> rfl
    | worker => rfl

end Runs

end OsalRust.PosixBackend
