import OsalRust.Timer.BackendLaws

/-!
# FreeRTOS backend

The whole life of the backend: `initialize` and `shutdown` of the runtime, any number of times
and from any task, the timers with their handles and leases, the service slot behind its spin
lock, a timer service with its registry mutex, wake semaphore and completion event group for
each successful `initialize`, and a worker for each service that needed one.

Calls of the runtime lifecycle are atomic, by its linearizability. The answers of the scheduler,
of the allocator and of the creation of native objects and tasks are the environment's. A panic
is no step. The worker's local variables are kept with its service.

The backend refines the machine of the exchanges, so the laws of that machine are its laws.
-/

namespace OsalRust.FreeRtosBackend

open OsalRust OsalRust.Framework OsalRust.Timer
open OsalRust.Runtime (RuntimeState lifecycleTable)

/-- The spin lock around the service slot, and the registry mutex of each service. -/
inductive Lock where
  | control
  | registry (g : Nat)
  deriving DecidableEq

inductive Thread where
  | task (n : Nat)
  | worker (g : Nat)
  deriving DecidableEq

/-- `ServiceSlot`, with the service by its number. The worker handle of a running service is
present once its worker has been created. -/
inductive ServiceSlot where
  | stopped
  | running (service : Nat) (worker : Bool)
  | stopping (service : Nat)
  deriving DecidableEq

inductive Resource where
  | registryMutex
  | wakeSem
  | completionEg
  deriving DecidableEq

abbrev Natives := Nat × Resource → Bool

/-- `TimerService`, with the count of its references, the token of the wake semaphore, the
completion bit, the life of its worker and the callback that the worker has taken out. -/
structure TimerService where
  state : Registry
  wake : Bool
  completed : Bool
  refs : Nat
  created : Bool
  ready : Bool
  hand : Hand

def TimerService.init : TimerService where
  state := Registry.new
  wake := false
  completed := false
  refs := 0
  created := false
  ready := false
  hand := .idle

/-- `TimerService::new`: whether it succeeds, and what it leaves of the native objects. -/
def newResources (g : Nat) (granted : Resource → Bool) (natives : Natives) : Bool × Natives :=
  if granted .registryMutex = false then (false, natives)
  else
    let natives := Function.update natives (g, .registryMutex) true
    if granted .wakeSem = false then (false, Function.update natives (g, .registryMutex) false)
    else
      let natives := Function.update natives (g, .wakeSem) true
      if granted .completionEg = false then
        let natives := Function.update natives (g, .wakeSem) false
        (false, Function.update natives (g, .registryMutex) false)
      else (true, Function.update natives (g, .completionEg) true)

def deleteResources (g : Nat) (natives : Natives) : Natives :=
  let natives := Function.update natives (g, .completionEg) false
  let natives := Function.update natives (g, .wakeSem) false
  Function.update natives (g, .registryMutex) false

/-- What the tasks share. `runtime` is the state and the lease count of `RUNTIME`,
`capabilities` says whether `CAPABILITIES` is `Some`, `services` counts the services so far, and
`objects` the leases of objects other than timers. -/
structure Backend where
  runtime : RuntimeState × Nat
  capabilities : Bool
  slot : ServiceSlot
  service : Nat → TimerService
  services : Nat
  natives : Natives
  handles : Handles
  objects : Nat
  now : Duration

namespace Backend

def init (now : Duration) : Backend where
  runtime := (.uninitialized, 0)
  capabilities := false
  slot := .stopped
  service := fun _ => TimerService.init
  services := 0
  natives := fun _ => false
  handles := Handles.empty
  objects := 0
  now := now

def adjust (w : Backend) (g : Nat) (f : TimerService → TimerService) : Backend :=
  { w with service := Function.update w.service g (f (w.service g)) }

end Backend

inductive RuntimeCall where
  | initializeRuntime
  | shutdownRuntime
  | acquireObject
  | dropObject
  deriving DecidableEq

/-- The pieces of code between two lock operations or atomic accesses. First application code
between its calls and the calls of the runtime; then the parts of `initialize` and of
`shutdown`; the parts of a timer call, from the lease that `new` acquires or `ensure_worker` to
the return of the call; the destructors; and the worker's loop with the callback it executes. -/
inductive Action where
  | application
  | runtime (call : RuntimeCall)
  | createService
  | cacheCapabilities
  | commitInitialize
  | rollbackInitialize
  | preflight
  | checkScheduler (worker : Bool)
  | stop
  | checkTimers (g : Nat)
  | requestStop (g : Nat)
  | stopping (g : Nat)
  | awaitCompletion (g : Nat) (worker : Bool)
  | cleanUp (g : Nat)
  | clearCapabilities
  | commitShutdown
  | rollbackShutdown
  | acquire (period : Duration) (mode : TimerMode) (callback : Callback)
  | ensureWorker (again : Bool) (id : Nat)
  | extract (q : Request)
  | request (g : Nat) (q : Request)
  | serve (g : Nat) (q : Request) (reserved : Bool)
  | signalWake (g : Nat)
  | returned (g : Nat) (q : Request) (ok : Bool)
  | dropService (g : Nat)
  | dropLease
  | adopt (id : Nat)
  | dropHandle (id : Nat)
  | dropCallback (callback : Callback)
  | dropRemoved (g id : Nat) (callback : Callback)
  | worker (g : Nat)
  | run (g : Nat)
  | scan (g : Nat)
  | select (g : Nat)
  | waitUntil (g : Nat) (deadline : Duration)
  | take (g : Nat) (deadline : Option Duration)
  | begin (g id : Nat)
  | callback (g id : Nat)
  | restore (g id : Nat)
  | dropRetired (g id : Nat) (callback : Callback)
  | complete (g : Nat)

abbrev Code := List (Instr Lock Action)

def withRegistry (q : Request) : Code := [.lock .control, .act (.extract q)]

def starting (again : Bool) (id : Nat) : Request := if again then .reset id else .start id

/-- The calls of `timer_service`. Before `register`, `new` acquires a lease; `start` and `reset`
ensure that there is a worker. -/
def api : Request → Code
  | .register period mode callback => [.act (.acquire period mode callback)]
  | .start id => [.lock .control, .act (.ensureWorker false id)]
  | .reset id => [.lock .control, .act (.ensureWorker true id)]
  | q => withRegistry q

def intend : Intent → Code
  | .idle => []
  | .request q => api q
  | .dropHandle id => [.act (.dropHandle id)]
  | .dropCallback callback => [.act (.dropCallback callback)]

/-- `with_registry` without a running service: its closure is dropped, and a registration's
callback with it, after the spin lock. Then the lease goes, of `new` or of the dropped handle. -/
def turnDown : Request → Code
  | .register _ _ callback => [.unlock .control, .act (.dropCallback callback), .act .dropLease]
  | .deregister _ => [.unlock .control, .act .dropLease]
  | _ => [.unlock .control]

/-- The end of the drop of a last handle: the callback that was taken out, and the lease. -/
def part (g : Nat) : Request → Option Callback → Code
  | .deregister id, some callback => [.act (.dropRemoved g id callback)]
  | .deregister _, none => [.act .dropLease]
  | _, _ => []

/-- The rest of `with_registry` and of its caller. The closure of a refused registration drops
the callback when it returns, before the mutex is given back. -/
def finish (g : Nat) (q : Request) (ok : Bool) : Outcome → Code
  | .done => [.unlock (.registry g), .act (.dropService g), .act (.returned g q ok)]
  | .registered id => [.unlock (.registry g), .act (.dropService g), .act (.adopt id)]
  | .refused callback =>
    [.act (.dropCallback callback), .unlock (.registry g), .act (.dropService g), .act .dropLease]
  | .removed callback =>
    [.unlock (.registry g), .act (.dropService g)] ++ part g q callback ++
      [.act (.returned g q ok)]

/-- All operations but `change_period` wake the worker when they succeed. -/
def wakes : Request → Bool
  | .changePeriod _ _ => false
  | _ => true

def signal (g : Nat) (sent : Bool) : Code := if sent then [.act (.signalWake g)] else []

def least : List Duration → Option Duration
  | [] => none
  | d :: ds => some (ds.foldl (fun acc d => if d < acc then d else acc) d)

def earliest (r : Registry) : Option Duration :=
  least ((r.timers.filter (!·.deleted)).filterMap (·.state.deadline))

/-- What `run` does with the `ServiceAction` of a scan. -/
def dispatch (g : Nat) (r : Registry) : Registry.Selection → Code
  | .dispatch id _ => [.unlock (.registry g), .act (.begin g id)]
  | .rescan => [.unlock (.registry g), .act (.run g)]
  | .none =>
    match earliest r with
    | some deadline => [.unlock (.registry g), .act (.waitUntil g deadline)]
    | none => [.unlock (.registry g), .act (.take g none)]

/-- The worker's local variables after a scan. -/
def handOf (hand : Hand) : Registry.Selection → Hand
  | .dispatch id callback => .taken id callback
  | .none | .rescan => hand

/-- The end of `dispatch_one`. -/
def giveUp (g id : Nat) : Option Callback → Code
  | none => [.unlock (.registry g), .act (.run g)]
  | some callback => [.unlock (.registry g), .act (.dropRetired g id callback)]

/-- A timed-out `semaphore_take` starts over: `wait_until_deadline` reads the clock again. -/
def retake (g : Nat) : Option Duration → Code
  | some deadline => [.act (.waitUntil g deadline)]
  | none => [.act (.take g none)]

def dropAll (callbacks : List Callback) : Code :=
  callbacks.map fun callback => .act (.dropCallback callback)

def dropHandles (callback : Callback) : Code :=
  callback.captures.map fun id => .act (.dropHandle id)

/-- The actions of the tasks and of the workers; `max` is the greatest lease count. Every
reading of the clock is at or after the last one. `semaphore_take` may time out at any time. -/
inductive Performs (max : Nat) : Exec Thread Lock Action Backend
  | application {t : Thread} {w : Backend} {i : Intent} {h : Handles} :
      Handles.Calls [] w.handles i h →
      Performs max t w .application { w with handles := h } (intend i ++ [.act .application])
  | applicationCalls {t : Thread} {w : Backend} (call : RuntimeCall) :
      Performs max t w .application w [.act (.runtime call), .act .application]
  | acquireObject {t : Thread} {w : Backend} {r : RuntimeState × Nat} :
      (lifecycleTable max).apply (.retry .acquire) w.runtime = some (.ok (), r) →
      Performs max t w (.runtime .acquireObject)
        { w with runtime := r, objects := w.objects + 1 } []
  | acquireObjectRefused {t : Thread} {w : Backend} {e : Error} {r : RuntimeState × Nat} :
      (lifecycleTable max).apply (.retry .acquire) w.runtime = some (.error e, r) →
      Performs max t w (.runtime .acquireObject) { w with runtime := r } []
  | dropObject {t : Thread} {w : Backend} {r : RuntimeState × Nat} : 0 < w.objects →
      (lifecycleTable max).apply (.retry .leaseDrop) w.runtime = some (.ok (), r) →
      Performs max t w (.runtime .dropObject)
        { w with runtime := r, objects := w.objects - 1 } []
  | beginInitialize {t : Thread} {w : Backend} {r : RuntimeState × Nat} :
      (lifecycleTable max).apply (.swap .beginInitialize) w.runtime = some (.ok (), r) →
      Performs max t w (.runtime .initializeRuntime) { w with runtime := r }
        [.lock .control, .act .createService]
  | initializeRefused {t : Thread} {w : Backend} {e : Error} {r : RuntimeState × Nat} :
      (lifecycleTable max).apply (.swap .beginInitialize) w.runtime = some (.error e, r) →
      Performs max t w (.runtime .initializeRuntime) { w with runtime := r } []
  | createService {t : Thread} {w : Backend} {granted : Resource → Bool} {natives : Natives} :
      w.slot = .stopped → newResources w.services granted w.natives = (true, natives) →
      Performs max t w .createService
        { w.adjust w.services fun s => { s with refs := 1 } with
          slot := .running w.services false, services := w.services + 1, natives }
        [.unlock .control, .act .cacheCapabilities]
  | createServiceFails {t : Thread} {w : Backend} {granted : Resource → Bool} {natives : Natives} :
      w.slot = .stopped → newResources w.services granted w.natives = (false, natives) →
      Performs max t w .createService { w with natives } [.unlock .control, .act .rollbackInitialize]
  | createServiceRefused {t : Thread} {w : Backend} : w.slot ≠ .stopped →
      Performs max t w .createService w [.unlock .control, .act .rollbackInitialize]
  | cacheCapabilities {t : Thread} {w : Backend} :
      Performs max t w .cacheCapabilities { w with capabilities := true } [.act .commitInitialize]
  | commitInitialize {t : Thread} {w : Backend} {r : RuntimeState × Nat} :
      (lifecycleTable max).apply (.swap .initializeCommit) w.runtime = some (.ok (), r) →
      Performs max t w .commitInitialize { w with runtime := r } []
  | rollbackInitialize {t : Thread} {w : Backend} {r : RuntimeState × Nat} :
      (lifecycleTable max).apply (.swap .initializeDrop) w.runtime = some (.ok (), r) →
      Performs max t w .rollbackInitialize { w with runtime := r } []
  | beginShutdown {t : Thread} {w : Backend} {r : RuntimeState × Nat} :
      (lifecycleTable max).apply (.retry .beginShutdown) w.runtime = some (.ok (), r) →
      Performs max t w (.runtime .shutdownRuntime) { w with runtime := r }
        [.lock .control, .act .preflight]
  | shutdownRefused {t : Thread} {w : Backend} {e : Error} {r : RuntimeState × Nat} :
      (lifecycleTable max).apply (.retry .beginShutdown) w.runtime = some (.error e, r) →
      Performs max t w (.runtime .shutdownRuntime) { w with runtime := r } []
  | preflight {t : Thread} {w : Backend} {service : Nat} {worker : Bool} :
      w.slot = .running service worker →
      Performs max t w .preflight w [.unlock .control, .act (.checkScheduler worker)]
  | preflightStopped {t : Thread} {w : Backend} : w.slot = .stopped →
      Performs max t w .preflight w [.unlock .control, .act (.checkScheduler false)]
  | preflightBusy {t : Thread} {w : Backend} {service : Nat} : w.slot = .stopping service →
      Performs max t w .preflight w [.unlock .control, .act .rollbackShutdown]
  | checkScheduler {t : Thread} {w : Backend} {worker : Bool} :
      Performs max t w (.checkScheduler worker) w [.lock .control, .act .stop]
  | schedulerRefuses {t : Thread} {w : Backend} :
      Performs max t w (.checkScheduler true) w [.act .rollbackShutdown]
  | stopRefused {t : Thread} {w : Backend} : (∀ service worker, w.slot ≠ .running service worker) →
      Performs max t w .stop w [.unlock .control, .act .rollbackShutdown]
  | stopSelf {t : Thread} {w : Backend} {g : Nat} : w.slot = .running g true → t = .worker g →
      Performs max t w .stop (w.adjust g fun s => { s with refs := s.refs + 1 })
        [.act (.dropService g), .unlock .control, .act .rollbackShutdown]
  | stop {t : Thread} {w : Backend} {g : Nat} {worker : Bool} : w.slot = .running g worker →
      ¬ (worker = true ∧ t = .worker g) →
      Performs max t w .stop (w.adjust g fun s => { s with refs := s.refs + 1 })
        [.lock (.registry g), .act (.checkTimers g)]
  | checkTimersBusy {t : Thread} {w : Backend} {g : Nat} :
      (w.service g).state.retain.2.timers ≠ [] →
      Performs max t w (.checkTimers g) (w.adjust g fun s => { s with state := s.state.retain.2 })
        (dropAll (w.service g).state.retain.1 ++
          [.unlock (.registry g), .act (.dropService g), .unlock .control,
            .act .rollbackShutdown])
  | checkTimers {t : Thread} {w : Backend} {g : Nat} :
      (w.service g).state.retain.2.timers = [] →
      Performs max t w (.checkTimers g) (w.adjust g fun s => { s with state := s.state.retain.2 })
        (dropAll (w.service g).state.retain.1 ++ [.act (.requestStop g)])
  | requestStop {t : Thread} {w : Backend} {g : Nat} :
      Performs max t w (.requestStop g)
        (w.adjust g fun s => { s with state := { s.state with stopRequested := true } })
        [.act (.signalWake g), .unlock (.registry g), .act (.stopping g)]
  -- the slot is borrowed since `stop`, so this is the `has_worker` that was read there
  | stopping {t : Thread} {w : Backend} {g : Nat} {worker : Bool} : w.slot = .running g worker →
      Performs max t w (.stopping g) { w with slot := .stopping g }
        [.unlock .control, .act (.awaitCompletion g worker)]
  | awaitCompletion {t : Thread} {w : Backend} {g : Nat} {worker : Bool} :
      (worker = true → (w.service g).completed = true) →
      Performs max t w (.awaitCompletion g worker) w
        [.act (.dropService g), .lock .control, .act (.cleanUp g)]
  | cleanUp {t : Thread} {w : Backend} {g service : Nat} : w.slot = .stopping service →
      Performs max t w (.cleanUp g) { w with slot := .stopped }
        [.act (.dropService service), .unlock .control, .act .clearCapabilities]
  | clearCapabilities {t : Thread} {w : Backend} :
      Performs max t w .clearCapabilities { w with capabilities := false } [.act .commitShutdown]
  | commitShutdown {t : Thread} {w : Backend} {r : RuntimeState × Nat} :
      (lifecycleTable max).apply (.swap .shutdownCommit) w.runtime = some (.ok (), r) →
      Performs max t w .commitShutdown { w with runtime := r } []
  | rollbackShutdown {t : Thread} {w : Backend} {r : RuntimeState × Nat} :
      (lifecycleTable max).apply (.swap .shutdownDrop) w.runtime = some (.ok (), r) →
      Performs max t w .rollbackShutdown { w with runtime := r } []
  | acquire {t : Thread} {w : Backend} {r : RuntimeState × Nat} {period : Duration}
      {mode : TimerMode} {callback : Callback} :
      (lifecycleTable max).apply (.retry .acquire) w.runtime = some (.ok (), r) →
      Performs max t w (.acquire period mode callback) { w with runtime := r }
        (withRegistry (.register period mode callback))
  | acquireRefused {t : Thread} {w : Backend} {e : Error} {r : RuntimeState × Nat}
      {period : Duration} {mode : TimerMode} {callback : Callback} :
      (lifecycleTable max).apply (.retry .acquire) w.runtime = some (.error e, r) →
      Performs max t w (.acquire period mode callback) { w with runtime := r }
        [.act (.dropCallback callback)]
  | ensureWorker {t : Thread} {w : Backend} {again : Bool} {id service : Nat} :
      w.slot = .running service true →
      Performs max t w (.ensureWorker again id) w
        (.unlock .control :: withRegistry (starting again id))
  | createWorker {t : Thread} {w : Backend} {again : Bool} {id g : Nat} :
      w.slot = .running g false → w.capabilities = true →
      Performs max t w (.ensureWorker again id)
        { w.adjust g fun s => { s with refs := s.refs + 1, created := true, ready := true } with
          slot := .running g true }
        (.unlock .control :: withRegistry (starting again id))
  | noWorker {t : Thread} {w : Backend} {again : Bool} {id : Nat} :
      Performs max t w (.ensureWorker again id) w [.unlock .control]
  | extract {t : Thread} {w : Backend} {q : Request} {g : Nat} {worker : Bool} :
      w.slot = .running g worker →
      Performs max t w (.extract q) (w.adjust g fun s => { s with refs := s.refs + 1 })
        [.unlock .control, .lock (.registry g), .act (.request g q)]
  | turnDown {t : Thread} {w : Backend} {q : Request} :
      (∀ service worker, w.slot ≠ .running service worker) →
      Performs max t w (.extract q) w (turnDown q)
  | request {t : Thread} {w : Backend} {g : Nat} {q : Request} (reserved : Bool) :
      Performs max t w (.request g q) w [.act (.serve g q reserved)]
  | serve {t : Thread} {w : Backend} {g : Nat} {q : Request} {reserved : Bool} {now : Duration} :
      w.now ≤ now →
      Performs max t w (.serve g q reserved)
        { w.adjust g fun s => { s with state := (s.state.serve now reserved q).2 } with now }
        (signal g ((w.service g).state.succeeds now reserved q && wakes q) ++
          finish g q ((w.service g).state.succeeds now reserved q)
            ((w.service g).state.serve now reserved q).1)
  | signalWake {t : Thread} {w : Backend} {g : Nat} :
      Performs max t w (.signalWake g) (w.adjust g fun s => { s with wake := true }) []
  | returned {t : Thread} {w : Backend} {g : Nat} {q : Request} {ok : Bool} :
      Performs max t w (.returned g q ok) w []
  | dropService {t : Thread} {w : Backend} {g : Nat} : (w.service g).refs ≠ 1 →
      Performs max t w (.dropService g) (w.adjust g fun s => { s with refs := s.refs - 1 }) []
  | destroy {t : Thread} {w : Backend} {g : Nat} : (w.service g).refs = 1 →
      Performs max t w (.dropService g)
        { w.adjust g fun s => { s with refs := 0, state := { s.state with timers := [] } } with
          natives := deleteResources g w.natives }
        (dropAll ((w.service g).state.timers.filterMap (·.callback)))
  | dropLease {t : Thread} {w : Backend} {r : RuntimeState × Nat} :
      (lifecycleTable max).apply (.retry .leaseDrop) w.runtime = some (.ok (), r) →
      Performs max t w .dropLease { w with runtime := r } []
  | adopt {t : Thread} {w : Backend} {id : Nat} :
      Performs max t w (.adopt id) { w with handles := w.handles.adopt id } []
  | dropClone {t : Thread} {w : Backend} {id : Nat} : 1 < w.handles.strong id →
      Performs max t w (.dropHandle id) { w with handles := w.handles.release id } []
  | dropLast {t : Thread} {w : Backend} {id : Nat} : w.handles.strong id = 1 →
      Performs max t w (.dropHandle id) { w with handles := w.handles.release id }
        (withRegistry (.deregister id))
  | dropCallback {t : Thread} {w : Backend} {callback : Callback} :
      Performs max t w (.dropCallback callback) w (dropHandles callback)
  | dropRemoved {t : Thread} {w : Backend} {g id : Nat} {callback : Callback} :
      Performs max t w (.dropRemoved g id callback) w (dropHandles callback ++ [.act .dropLease])
  | worker {t : Thread} {w : Backend} {g : Nat} : (w.service g).ready = true →
      Performs max t w (.worker g) (w.adjust g fun s => { s with ready := false }) [.act (.run g)]
  | run {t : Thread} {w : Backend} {g : Nat} :
      Performs max t w (.run g) w [.lock (.registry g), .act (.scan g)]
  | scan {t : Thread} {w : Backend} {g : Nat} : (w.service g).state.stopRequested = false →
      Performs max t w (.scan g) (w.adjust g fun s => { s with state := s.state.retain.2 })
        (dropAll (w.service g).state.retain.1 ++ [.act (.select g)])
  | scanStop {t : Thread} {w : Backend} {g : Nat} : (w.service g).state.stopRequested = true →
      Performs max t w (.scan g) (w.adjust g fun s => { s with state := s.state.retain.2 })
        (dropAll (w.service g).state.retain.1 ++ [.unlock (.registry g), .act (.complete g)])
  | select {t : Thread} {w : Backend} {g : Nat} {now : Duration} {selection : Registry.Selection}
      {r : Registry} : w.now ≤ now → (w.service g).state.select now = .ok (selection, r) →
      Performs max t w (.select g)
        { w.adjust g fun s => { s with state := r, hand := handOf s.hand selection } with now }
        (dispatch g r selection)
  | waitOver {t : Thread} {w : Backend} {g : Nat} {deadline now : Duration} : w.now ≤ now →
      deadline ≤ now →
      Performs max t w (.waitUntil g deadline) { w with now } [.act (.run g)]
  | waitOn {t : Thread} {w : Backend} {g : Nat} {deadline now : Duration} : w.now ≤ now →
      now < deadline → w.capabilities = true →
      Performs max t w (.waitUntil g deadline) { w with now } [.act (.take g (some deadline))]
  | take {t : Thread} {w : Backend} {g : Nat} {deadline : Option Duration} :
      (w.service g).wake = true →
      Performs max t w (.take g deadline) (w.adjust g fun s => { s with wake := false })
        [.act (.run g)]
  | takeTimeout {t : Thread} {w : Backend} {g : Nat} {deadline : Option Duration} :
      Performs max t w (.take g deadline) w (retake g deadline)
  | begin {t : Thread} {w : Backend} {g id : Nat} {callback : Callback} :
      (w.service g).hand = .taken id callback →
      Performs max t w (.begin g id) (w.adjust g fun s => { s with hand := .running id callback })
        [.act (.callback g id)]
  | callbackCalls {t : Thread} {w : Backend} {g id : Nat} {callback : Callback} {i : Intent}
      {h : Handles} : (w.service g).hand = .running id callback →
      Handles.Calls callback.captures w.handles i h →
      Performs max t w (.callback g id) { w with handles := h }
        (intend i ++ [.act (.callback g id)])
  | callbackRuntime {t : Thread} {w : Backend} {g id : Nat} {callback : Callback}
      (call : RuntimeCall) : (w.service g).hand = .running id callback →
      Performs max t w (.callback g id) w [.act (.runtime call), .act (.callback g id)]
  | callbackYields {t : Thread} {w : Backend} {g id captured : Nat} {callback : Callback} :
      (w.service g).hand = .running id callback → captured ∈ callback.captures →
      Performs max t w (.callback g id)
        { w.adjust g fun s => { s with hand := .running id ⟨callback.captures.erase captured⟩ } with
          handles := w.handles.gain captured }
        [.act (.callback g id)]
  | callbackCaptures {t : Thread} {w : Backend} {g id captured : Nat} {callback : Callback} :
      (w.service g).hand = .running id callback → 0 < w.handles.owned captured →
      Performs max t w (.callback g id)
        { w.adjust g fun s => { s with hand := .running id ⟨captured :: callback.captures⟩ } with
          handles := w.handles.give captured }
        [.act (.callback g id)]
  | callbackReturns {t : Thread} {w : Backend} {g id : Nat} {callback : Callback} :
      (w.service g).hand = .running id callback →
      Performs max t w (.callback g id) w [.lock (.registry g), .act (.restore g id)]
  | restore {t : Thread} {w : Backend} {g id : Nat} {callback : Callback} :
      (w.service g).hand = .running id callback →
      Performs max t w (.restore g id)
        (w.adjust g fun s => { s with state := (s.state.restore id callback).2, hand := .idle })
        (giveUp g id ((w.service g).state.restore id callback).1)
  | dropRetired {t : Thread} {w : Backend} {g id : Nat} {callback : Callback} :
      Performs max t w (.dropRetired g id callback) w (dropHandles callback ++ [.act (.run g)])
  | complete {t : Thread} {w : Backend} {g : Nat} :
      Performs max t w (.complete g) (w.adjust g fun s => { s with completed := true })
        [.act (.dropService g)]

abbrev State := Threads Thread Lock Action Backend

def start (now : Duration) : State where
  shared := .init now
  holder := fun _ => none
  code := fun
    | .task _ => [.act .application]
    | .worker g => [.act (.worker g)]

def system (max : Nat) : Lts State (Thread × Instr Lock Action) :=
  Threads.system (Performs max) fun s => ∃ now, s = start now

/-! ## Refinement -/

def ServiceSlot.view : ServiceSlot → Slot
  | .stopped => .stopped
  | .running g worker => .running g worker
  | .stopping g => .stopping g true

def TimerService.view (s : TimerService) : Service where
  registry := s.state
  hand := s.hand
  refs := s.refs
  spawned := s.created
  ready := s.ready
  finished := s.completed

def Backend.view (w : Backend) : World where
  state := w.runtime.1
  leases := w.runtime.2
  objects := w.objects
  configured := w.capabilities
  slot := w.slot.view
  services := fun g => (w.service g).view
  created := w.services
  handles := w.handles
  now := w.now

def cargo : Action → Multiset Token
  | .createService | .rollbackInitialize => {.transition .create}
  | .cacheCapabilities => {.transition .started}
  | .commitInitialize => {.transition .ready}
  | .preflight | .checkScheduler _ | .stop | .rollbackShutdown => {.transition .stop}
  | .checkTimers g => {.transition (.checking g)} + {.ref g}
  | .requestStop g => {.transition (.cleared g)} + {.ref g}
  | .stopping g => {.transition (.halted g)} + {.ref g}
  | .awaitCompletion g worker => {.transition (.draining g worker)} + {.ref g}
  | .cleanUp g => {.transition (.drained g)}
  | .clearCapabilities => {.transition .stopped}
  | .commitShutdown => {.transition .closed}
  | .acquire _ _ callback | .dropCallback callback => {.closure callback}
  | .extract q => q.tokens none
  | .request g q | .serve g q _ => q.tokens (some g) + {.ref g}
  | .dropService g => {.ref g}
  | .dropLease => {.lease none}
  | .adopt id => {.fresh id}
  | .dropHandle id => {.clone id}
  | .dropRemoved g id callback => {.removed g id callback}
  | .run g | .scan g | .select g | .waitUntil g _ | .take g _ => {.loop g .idle}
  | .begin g id => {.loop g (.taken id)}
  | .callback g id | .restore g id => {.loop g (.running id)}
  | .dropRetired g id callback => {.loop g (.retiring id callback)}
  | .complete g => {.loop g .stopping}
  | .application | .runtime _ | .ensureWorker _ _ | .signalWake _ | .returned _ _ _
  | .worker _ => 0

def actionEvent : Action → Label
  | .serve g q reserved => .service g (.serve q reserved)
  | .scan g | .checkTimers g => .service g .purge
  | .select g => .service g .select
  | .waitUntil g _ => .service g .tick
  | .begin g id => .service g (.begin id)
  | .callback g _ => .service g .adapt
  | .restore g id => .service g (.restore id)
  | .requestStop g => .service g .halt
  | .dropService g => .service g .release
  | .dropRemoved g id _ | .dropRetired g id _ => .drop g id
  | .commitInitialize => .initialized
  | .commitShutdown => .shut
  | _ => .tau

def event : Thread × Instr Lock Action → Label
  | (_, .act a) => actionEvent a
  | _ => .tau

section Refinement

variable {max : Nat} {t : Thread} {w w' : Backend} {a : Action} {code : Code}

theorem view_update (w : Backend) (g : Nat) (s : TimerService) :
    (fun i => (Function.update w.service g s i).view) = Function.update w.view.services g s.view :=
  Function.comp_update TimerService.view w.service g s

private theorem exchange_of_view {c p : Multiset Token} {l : Label} {X : World}
    (hx : Exchange w.view c l X p) (hservices : w'.view.services = X.services)
    (hrest : w'.view = { X with services := w'.view.services }) : Exchange w.view c l w'.view p := by
  rw [hrest, hservices]
  exact hx

@[simp] theorem owns_dropAll (callbacks : List Callback) :
    Threads.owns cargo (dropAll callbacks) = closures callbacks :=
  Threads.owns_acts (fun c => show cargo (.dropCallback c) = {.closure c} from rfl) callbacks

@[simp] theorem owns_dropHandles (callback : Callback) :
    Threads.owns cargo (dropHandles callback) = clones callback :=
  Threads.owns_acts (fun id => show cargo (.dropHandle id) = {.clone id} from rfl) callback.captures

theorem owns_starting (again : Bool) (id : Nat) :
    Threads.owns cargo (withRegistry (starting again id)) = 0 := by
  cases again <;> rfl

theorem owns_intend {captures : List Nat} {h h' : Handles} {i : Intent}
    (hc : Handles.Calls captures h i h') : Threads.owns cargo (intend i) = i.tokens := by
  cases hc <;> simp [intend, api, withRegistry, cargo, Intent.tokens, Request.tokens]

theorem owns_turnDown (q : Request) : Threads.owns cargo (turnDown q) = q.leftovers := by
  cases q <;> simp [turnDown, cargo, Request.leftovers, add_comm]

theorem owns_finish (g : Nat) (q : Request) (ok : Bool) (o : Outcome) :
    Threads.owns cargo (finish g q ok o) = o.tokens g q + {.ref g} := by
  cases o with
  | done | registered id => simp [finish, cargo, Outcome.tokens, add_comm]
  | refused callback =>
    simp only [finish, cargo, Outcome.tokens, Threads.owns_act, Threads.owns_unlock,
      Threads.owns_nil, add_zero]
    abel
  | removed callback =>
    cases q <;> cases callback <;>
      simp [finish, part, cargo, Outcome.tokens, parting, add_comm]

@[simp] theorem owns_signal (g : Nat) (sent : Bool) :
    Threads.owns cargo (signal g sent) = 0 := by
  cases sent <;> simp [signal, cargo]

private theorem view_same {g : Nat} {f : TimerService → TimerService}
    (h : (f (w.service g)).view = (w.service g).view) : (w.adjust g f).view = w.view := by
  have hservices : (w.adjust g f).view.services = w.view.services := by
    have hupdate := view_update w g (f (w.service g))
    rw [h] at hupdate
    exact hupdate.trans (Function.update_eq_self g w.view.services)
  simp only [Backend.view, Backend.adjust] at hservices ⊢
  rw [hservices]

private theorem exchange_of_eq {c p : Multiset Token} {l : Label} {X : World}
    (hx : Exchange w.view c l X p) (hrest : w'.view = X) : Exchange w.view c l w'.view p := by
  rw [hrest]
  exact hx

private theorem blends_service (g : Nat) (e : Event) : (Label.service g e).Blends :=
  ⟨by simp, by simp⟩

private theorem blends_tau : Label.tau.Blends := ⟨by simp, by simp⟩

private theorem view_running {g : Nat} {worker : Bool} (h : w.slot = .running g worker) :
    w.view.slot = .running g worker := by
  rw [Backend.view, h]
  rfl

private theorem view_not_running (h : ∀ service worker, w.slot ≠ .running service worker)
    (g : Nat) (worker : Bool) : w.view.slot ≠ .running g worker := by
  intro hv
  cases hs : w.slot with
  | running service worker' => exact h service worker' hs
  | stopped | stopping =>
    rw [Backend.view, hs] at hv
    cases hv

/-- Every action exchanges the tokens that it owns for those of the code that it pushes. -/
theorem Performs.exchange (h : Performs max t w a w' code) :
    Exchange w.view (cargo a) (actionEvent a) w'.view (Threads.owns cargo code) := by
  cases h with
  | application hc =>
    rw [Threads.owns_append, owns_intend hc]
    exact (Exchange.call (w := w.view) hc).of_tokens rfl (by simp [cargo])
  | applicationCalls => exact .idle
  | acquireObject hr =>
    obtain ⟨hst, rfl⟩ := Runtime.acquire_of_table hr
    exact exchange_of_eq (.acquireObject hst) (by simp only [Backend.view, hst])
  | acquireObjectRefused hr | initializeRefused hr | shutdownRefused hr =>
    obtain rfl := Runtime.error_of_table hr
    exact .idle
  | dropObject hpos hr =>
    obtain ⟨hst, rfl⟩ := Runtime.leaseDrop_of_table hr
    exact exchange_of_eq (.dropObject hst hpos) (by simp only [Backend.view, hst])
  | beginInitialize hr =>
    obtain ⟨hst, rfl⟩ := Runtime.swap_of_table hr
    exact .beginInitialize hst
  | createService hslot hnew =>
    exact exchange_of_view (.create (by rw [Backend.view, hslot]; rfl)) (view_update _ _ _) rfl
  | createServiceFails hslot hnew => exact .idle
  | createServiceRefused hslot => exact .idle
  | cacheCapabilities => exact .configure
  | commitInitialize hr =>
    obtain ⟨hst, rfl⟩ := Runtime.swap_of_table hr
    exact .commitInitialize hst
  | rollbackInitialize hr =>
    obtain ⟨hst, rfl⟩ := Runtime.swap_of_table hr
    exact .rollbackInitialize hst
  | beginShutdown hr =>
    obtain ⟨hst, rfl⟩ := Runtime.beginShutdown_of_table hr
    refine exchange_of_eq (.beginShutdown ?_ ?_) ?_
    · rw [Backend.view, hst]
    · rw [Backend.view, hst]
    · simp only [Backend.view, hst]
  | preflight | preflightStopped | preflightBusy | checkScheduler | schedulerRefuses
  | stopRefused => exact .idle
  | @stopSelf _ _ g hslot ht =>
    have hshare := (Exchange.share (view_running hslot)).frame {.transition .stop}
    rw [zero_add] at hshare
    exact exchange_of_view hshare (view_update _ _ _) rfl
  | @stop _ _ g worker hslot hself =>
    have hshare := (Exchange.share (view_running hslot)).frame {.transition (.checking g)}
    have hcheck := Exchange.before blends_tau (.check (view_running hslot))
      (hshare.of_tokens (zero_add _) rfl)
    exact exchange_of_view (hcheck.of_tokens rfl (add_comm _ _)) (view_update _ _ _) rfl
  | @checkTimersBusy _ _ g hbusy =>
    have hpurge := (Exchange.purge (w := w.view) (x := .transition (.checking g)) rfl).frame {.ref g}
    have hrefuse := Exchange.after (blends_service _ _) (hpurge.of_tokens rfl (add_assoc _ _ _))
      (.frame _ .refuse)
    refine exchange_of_view (hrefuse.of_tokens rfl ?_) (view_update _ _ _) rfl
    rw [Threads.owns_append, owns_dropAll]
    simp only [Threads.owns_unlock, Threads.owns_act, Threads.owns_nil, cargo, add_zero]
    exact (add_left_comm _ _ _).trans (congrArg _ (add_comm _ _))
  | @checkTimers _ _ g hnil =>
    have hpurge := (Exchange.purge (w := w.view) (x := .transition (.checking g)) rfl).frame {.ref g}
    have hclear := Exchange.after (blends_service _ _) (hpurge.of_tokens rfl (add_assoc _ _ _))
      (.frame _ (.clear ?_))
    · refine exchange_of_view (hclear.of_tokens rfl ?_) (view_update _ _ _) rfl
      rw [Threads.owns_append, owns_dropAll]
      exact add_left_comm _ _ _
    · have hempty : (w.view.services g).registry.retain.2.timers = [] := hnil
      simpa [World.adjust] using hempty
  | @requestStop _ _ g => exact exchange_of_view (.frame _ .halt) (view_update _ _ _) rfl
  | stopping hslot => exact .frame _ (.stopping (view_running hslot))
  | awaitCompletion hdone =>
    exact (Exchange.frame _ (.drained hdone)).of_tokens rfl (add_comm _ _)
  | @cleanUp _ _ _ service hslot =>
    have hview : w.view.slot = .stopping service true := by
      rw [Backend.view, hslot]
      rfl
    exact (Exchange.cleanUp hview).of_tokens rfl (add_comm _ _)
  | clearCapabilities => exact .deconfigure
  | commitShutdown hr =>
    obtain ⟨hst, rfl⟩ := Runtime.swap_of_table hr
    exact .commitShutdown hst
  | rollbackShutdown hr =>
    obtain ⟨hst, rfl⟩ := Runtime.swap_of_table hr
    exact .rollbackShutdown hst
  | @acquire _ _ r period mode callback hr =>
    obtain ⟨hst, rfl⟩ := Runtime.acquire_of_table hr
    have hacquire := (Exchange.acquire (w := w.view) hst).frame {.closure callback}
    exact exchange_of_eq (hacquire.of_tokens (zero_add _) rfl) (by simp only [Backend.view, hst])
  | acquireRefused hr =>
    obtain rfl := Runtime.error_of_table hr
    exact .idle
  | ensureWorker => exact Exchange.idle.of_tokens rfl (owns_starting _ _).symm
  | createWorker hslot hcaps =>
    rw [Threads.owns_unlock, owns_starting]
    exact exchange_of_view (.spawn (view_running hslot)) (view_update _ _ _) rfl
  | noWorker => exact .idle
  | @extract _ _ q g worker hslot =>
    have hshare := (Exchange.share (view_running hslot)).frame (q.tokens (some g))
    have hbind := Exchange.before blends_tau (.bind _ (view_running hslot))
      (hshare.of_tokens (zero_add _) rfl)
    refine exchange_of_view (hbind.of_tokens rfl ?_) (view_update _ _ _) rfl
    simp only [Threads.owns_unlock, Threads.owns_lock, Threads.owns_act, Threads.owns_nil, cargo,
      add_zero]
    exact add_comm _ _
  | turnDown hslot =>
    rw [owns_turnDown]
    exact .turnDown_request _ (view_not_running hslot)
  | request => exact Exchange.idle.of_tokens rfl (add_zero _).symm
  | serve hnow =>
    rw [Threads.owns_append, owns_signal, zero_add, owns_finish]
    exact exchange_of_view (.request _ _ rfl hnow) (view_update _ _ _) rfl
  | signalWake => exact exchange_of_eq .idle (view_same rfl)
  | returned => exact .idle
  | dropService hrefs =>
    exact exchange_of_view .release (view_update _ _ _) rfl
  | destroy hrefs =>
    rw [owns_dropAll]
    exact exchange_of_view (.destroy hrefs) (view_update _ _ _) rfl
  | dropLease hr =>
    obtain ⟨hst, rfl⟩ := Runtime.leaseDrop_of_table hr
    exact exchange_of_eq (.dropLease hst) (by simp only [Backend.view, hst])
  | adopt => exact .adopt
  | dropClone hs => exact .dropClone hs
  | dropLast hs => exact .dropLast hs
  | dropCallback =>
    rw [owns_dropHandles]
    exact .dropClosure
  | dropRemoved =>
    rw [Threads.owns_append, owns_dropHandles]
    exact .dropRemoved
  | worker hready => exact exchange_of_view (.startWorker hready) (view_update _ _ _) rfl
  | run => exact .idle
  | @scan _ _ g hstop =>
    rw [Threads.owns_append, owns_dropAll]
    have hpurge := Exchange.purge (w := w.view) (x := .loop g .idle) rfl
    exact exchange_of_view (hpurge.of_tokens rfl (add_comm _ _)) (view_update _ _ _) rfl
  | @scanStop _ _ g hstop =>
    rw [Threads.owns_append, owns_dropAll]
    have hpurge := Exchange.purge (w := w.view) (x := .loop g .idle) rfl
    have hseen := Exchange.after (blends_service _ _) hpurge (.frame _ (.observeStop ?_))
    · exact exchange_of_view (hseen.of_tokens rfl (add_comm _ _)) (view_update _ _ _) rfl
    · have hstopped : (w.view.services g).registry.stopRequested = true := hstop
      simpa [World.adjust, Registry.retain] using hstopped
  | @select _ _ g now selection r hnow hsel =>
    cases selection with
    | dispatch id callback => exact exchange_of_view (.select hnow hsel) (view_update _ _ _) rfl
    | rescan =>
      exact exchange_of_view (.selectNone hnow hsel (by simp)) (view_update _ _ _) rfl
    | none =>
      have hnone := Exchange.selectNone (w := w.view) hnow hsel (by simp)
      refine exchange_of_view (hnone.of_tokens rfl ?_) (view_update _ _ _) rfl
      rw [dispatch]
      split <;> simp [cargo]
  | waitOver hnow hover => exact .tick hnow
  | waitOn hnow hbefore hcaps => exact .tick hnow
  | take hwake => exact exchange_of_eq .idle (view_same rfl)
  | @takeTimeout _ _ g deadline => cases deadline <;> exact .idle
  | begin hhand => exact exchange_of_view (.begin hhand) (view_update _ _ _) rfl
  | callbackCalls hhand hc =>
    rw [Threads.owns_append, owns_intend hc]
    exact (Exchange.callbackCall (w := w.view) hhand hc).of_tokens rfl (add_comm _ _)
  | callbackRuntime call hhand => exact .callbackIdle hhand
  | callbackYields hhand hmem =>
    exact exchange_of_view (.callbackYields hhand hmem) (view_update _ _ _) rfl
  | callbackCaptures hhand hown =>
    exact exchange_of_view (.callbackCaptures hhand hown) (view_update _ _ _) rfl
  | callbackReturns hhand => exact .callbackIdle hhand
  | @restore _ _ g id callback hhand =>
    refine exchange_of_view ((Exchange.restore (w := w.view) hhand).of_tokens rfl ?_)
      (view_update _ _ _) rfl
    change returning g id ((w.service g).state.restore id callback).1 = _
    cases ((w.service g).state.restore id callback).1 <;> rfl
  | dropRetired =>
    rw [Threads.owns_append, owns_dropHandles]
    exact .dropRetired
  | complete => exact exchange_of_view .finish (view_update _ _ _) rfl

theorem settles : Threads.Settles (Performs max) cargo machine Backend.view event where
  lock _ _ _ _ := .idle
  unlock _ _ _ _ := .idle
  act R h := h.exchange.frame R

/-- What the threads do is done by the machine, which follows what they own. -/
theorem steps_machine {tr : List (Thread × Instr Lock Action)} {s s' : State} {M : Multiset Token}
    (hM : Threads.Estate cargo s.code M) (hs : (system max).Steps s tr s') :
    ∃ M', Threads.Estate cargo s'.code M' ∧
      machine.Steps (s.shared.view, M) (tr.map event) (s'.shared.view, M') :=
  settles.steps hM hs

theorem start_machine {s : State} (h : (system max).init s) :
    (∀ t, Threads.owns cargo (s.code t) = 0) ∧ machine.init (s.shared.view, 0) := by
  obtain ⟨now, rfl⟩ := h
  refine ⟨fun t => ?_, now, rfl⟩
  cases t <;> rfl

end Refinement

/-! ## Some runs -/

section Runs

variable {max : Nat} {tr : List (Thread × Instr Lock Action)} {s : State} {w : Backend}

def resting (w : Backend) : State := { start w.now with shared := w }

/-- No call that stops or deregisters a timer has returned. -/
def Unhalted (tr : List (Thread × Instr Lock Action)) : Prop :=
  ∀ t g q ok x, (t, .act (.returned g q ok)) ∈ tr → q.halts x = false

def nanosecond : Duration := .fromNanos 1

def initialized : Backend :=
  { Backend.init Duration.zero with
    runtime := (.running, 0)
    capabilities := true
    slot := .running 0 false
    service := Function.update (fun _ => TimerService.init) 0 { TimerService.init with refs := 1 }
    services := 1
    natives := (newResources 0 (fun _ => true) fun _ => false).2 }

def oneTimer : Backend :=
  { initialized with
    runtime := (.running, 1)
    service := Function.update (fun _ => TimerService.init) 0
      { TimerService.init with
        refs := 1
        wake := true
        state := (Registry.new.register nanosecond .oneShot ⟨[]⟩ true).2 }
    handles := (Handles.empty.capture []).adopt 1 }

def twoTimers : Backend :=
  { oneTimer with
    runtime := (.running, 2)
    slot := .running 0 true
    service := Function.update (fun _ => TimerService.init) 0
      { TimerService.init with
        refs := 2
        wake := true
        created := true
        ready := true
        state := (((oneTimer.service 0).state.register nanosecond .oneShot ⟨[]⟩ true).2.serve
          Duration.zero true (.start 1)).2.serve Duration.zero true (.start 2) |>.2 }
    handles := (oneTimer.handles.capture []).adopt 2 }

theorem run_initialized : ∃ tr, (system 2).Run tr (resting initialized) ∧ Unhalted tr := by
  have h : (system 2).Run [] (start Duration.zero) := Lts.Run.start ⟨_, rfl⟩
  have h := h.snoc (.act (t := .task 0) rfl (.applicationCalls .initializeRuntime))
  have h := h.snoc (.act (t := .task 0) rfl (.beginInitialize rfl))
  have h := h.snoc (.lock (t := .task 0) rfl rfl)
  have h := h.snoc (.act (t := .task 0) rfl (@Performs.createService _ _ _ (fun _ => true) _ rfl rfl))
  have h := h.snoc (.unlock (t := .task 0) rfl)
  have h := h.snoc (.act (t := .task 0) rfl .cacheCapabilities)
  have h := h.snoc (.act (t := .task 0) rfl (.commitInitialize rfl))
  refine ⟨_, Threads.run_of_eq h rfl ?_ ?_, by simp [Unhalted]⟩
  · funext m
    cases m <;> rfl
  · funext t
    cases t with
    | task n => cases n <;> rfl
    | worker => rfl

theorem run_oneTimer : ∃ tr, (system 2).Run tr (resting oneTimer) ∧ Unhalted tr := by
  obtain ⟨tr, h, hun⟩ := run_initialized
  have hnew : Handles.Calls [] Handles.empty (.request (.register nanosecond .oneShot ⟨[]⟩))
      (Handles.empty.capture []) := .new (by simp) (by decide)
  have h := h.snoc (.act (t := .task 0) rfl (.application hnew))
  have h := h.snoc (.act (t := .task 0) rfl (.acquire rfl))
  have h := h.snoc (.lock (t := .task 0) rfl rfl)
  have h := h.snoc (.act (t := .task 0) rfl (.extract rfl))
  have h := h.snoc (.unlock (t := .task 0) rfl)
  have h := h.snoc (.lock (t := .task 0) rfl rfl)
  have h := h.snoc (.act (t := .task 0) rfl (.request true))
  have h := h.snoc (.act (t := .task 0) rfl (.serve (Nat.le_refl _)))
  have h := h.snoc (.act (t := .task 0) rfl .signalWake)
  have h := h.snoc (.unlock (t := .task 0) rfl)
  have h := h.snoc (.act (t := .task 0) rfl (.dropService (by decide)))
  have h := h.snoc (.act (t := .task 0) rfl .adopt)
  refine ⟨_, Threads.run_of_eq h (congrArg ({ oneTimer with service := · }) ?_) ?_ ?_, ?_⟩
  · funext g
    cases g <;> rfl
  · funext m
    cases m with
    | control => rfl
    | registry g => cases g <;> rfl
  · funext t
    cases t with
    | task n => cases n <;> rfl
    | worker => rfl
  · simpa [Unhalted] using hun

theorem run_twoTimers : ∃ tr, (system 2).Run tr (resting twoTimers) ∧ Unhalted tr := by
  obtain ⟨tr, h, hun⟩ := run_oneTimer
  have hnew : Handles.Calls [] oneTimer.handles (.request (.register nanosecond .oneShot ⟨[]⟩))
      (oneTimer.handles.capture []) := .new (by simp) (by decide)
  have h := h.snoc (.act (t := .task 0) rfl (.application hnew))
  have h := h.snoc (.act (t := .task 0) rfl (.acquire rfl))
  have h := h.snoc (.lock (t := .task 0) rfl rfl)
  have h := h.snoc (.act (t := .task 0) rfl (.extract rfl))
  have h := h.snoc (.unlock (t := .task 0) rfl)
  have h := h.snoc (.lock (t := .task 0) rfl rfl)
  have h := h.snoc (.act (t := .task 0) rfl (.request true))
  have h := h.snoc (.act (t := .task 0) rfl (.serve (Nat.le_refl _)))
  have h := h.snoc (.act (t := .task 0) rfl .signalWake)
  have h := h.snoc (.unlock (t := .task 0) rfl)
  have h := h.snoc (.act (t := .task 0) rfl (.dropService (by decide)))
  have h := h.snoc (.act (t := .task 0) rfl .adopt)
  have hstart₁ : Handles.Calls [] twoTimers.handles (.request (.start 1)) twoTimers.handles :=
    .start (.inl (by decide))
  have h := h.snoc (.act (t := .task 0) rfl (.application hstart₁))
  have h := h.snoc (.lock (t := .task 0) rfl rfl)
  have h := h.snoc (.act (t := .task 0) rfl (.createWorker rfl rfl))
  have h := h.snoc (.unlock (t := .task 0) rfl)
  have h := h.snoc (.lock (t := .task 0) rfl rfl)
  have h := h.snoc (.act (t := .task 0) rfl (.extract rfl))
  have h := h.snoc (.unlock (t := .task 0) rfl)
  have h := h.snoc (.lock (t := .task 0) rfl rfl)
  have h := h.snoc (.act (t := .task 0) rfl (.request true))
  have h := h.snoc (.act (t := .task 0) rfl (.serve (Nat.le_refl _)))
  have h := h.snoc (.act (t := .task 0) rfl .signalWake)
  have h := h.snoc (.unlock (t := .task 0) rfl)
  have h := h.snoc (.act (t := .task 0) rfl (.dropService (by decide)))
  have h := h.snoc (.act (t := .task 0) rfl .returned)
  have hstart₂ : Handles.Calls [] twoTimers.handles (.request (.start 2)) twoTimers.handles :=
    .start (.inl (by decide))
  have h := h.snoc (.act (t := .task 0) rfl (.application hstart₂))
  have h := h.snoc (.lock (t := .task 0) rfl rfl)
  have h := h.snoc (.act (t := .task 0) rfl (.ensureWorker rfl))
  have h := h.snoc (.unlock (t := .task 0) rfl)
  have h := h.snoc (.lock (t := .task 0) rfl rfl)
  have h := h.snoc (.act (t := .task 0) rfl (.extract rfl))
  have h := h.snoc (.unlock (t := .task 0) rfl)
  have h := h.snoc (.lock (t := .task 0) rfl rfl)
  have h := h.snoc (.act (t := .task 0) rfl (.request true))
  have h := h.snoc (.act (t := .task 0) rfl (.serve (Nat.le_refl _)))
  have h := h.snoc (.act (t := .task 0) rfl .signalWake)
  have h := h.snoc (.unlock (t := .task 0) rfl)
  have h := h.snoc (.act (t := .task 0) rfl (.dropService (by decide)))
  have h := h.snoc (.act (t := .task 0) rfl .returned)
  refine ⟨_, Threads.run_of_eq h (congrArg ({ twoTimers with service := · }) ?_) ?_ ?_, ?_⟩
  · funext g
    cases g <;> rfl
  · funext m
    cases m with
    | control => rfl
    | registry g => cases g <;> rfl
  · funext t
    cases t with
    | task n => cases n <;> rfl
    | worker => rfl
  · intro t g q ok x hmem
    simp only [List.mem_append, List.mem_singleton, Prod.mk.injEq, Instr.act.injEq,
      Action.returned.injEq, reduceCtorEq, and_false, or_false] at hmem
    obtain (hmem | ⟨-, -, rfl, -⟩) | ⟨-, -, rfl, -⟩ := hmem
    · exact hun t g q ok x hmem
    · rfl
    · rfl

end Runs

end OsalRust.FreeRtosBackend
