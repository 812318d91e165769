import OsalRust.Framework.Fallible
import OsalRust.Portable.ByteQueue
import OsalRust.Shared.Runtime
import OsalRust.Timer.Registry

/-!
# Constructors of the FreeRTOS backend

Every constructor of the backend is a chain of fallible steps: checks, the runtime lease, the
native objects, the counters and the timer registry. A native handle has no `Drop` of its own;
what deletes it on an early return is the guard, the inner object or the explicit call that the
source wrote for it. The ledger of native objects remembers how often each was deleted.
-/

namespace OsalRust.FreeRtos

open OsalRust.Framework OsalRust.Timer
open OsalRust.Runtime (RuntimeState lifecycleTable)

inductive Native where
  | mutex
  | semaphore
  | eventGroup
  | task
  deriving DecidableEq

/-- The native objects created so far, by number, and how often each has been deleted. -/
structure Natives where
  created : Nat
  kind : Nat → Native
  deletions : Nat → Nat
  unborn : ∀ n, created ≤ n → deletions n = 0

def Natives.create (ns : Natives) (k : Native) : Natives where
  created := ns.created + 1
  kind := Function.update ns.kind ns.created k
  deletions := ns.deletions
  unborn n h := ns.unborn n (by omega)

def Natives.delete (ns : Natives) (n : Nat) (h : n < ns.created) : Natives where
  created := ns.created
  kind := ns.kind
  deletions := Function.update ns.deletions n (ns.deletions n + 1)
  unborn m hm := by
    rw [Function.update_of_ne (by omega)]
    exact ns.unborn m hm

structure Capabilities where
  stackWordSize : Nat
  minimalStackDepthWords : Nat
  maxStackDepthWords : Nat
  maxPriorities : Nat
  maxTaskNameLen : Nat
  deriving DecidableEq

/-- `ServiceSlot`, as the registration of a timer tells its cases apart. -/
inductive SlotState where
  | stopped
  | running
  | stopping
  deriving DecidableEq

/-- What the constructors read and write: the state and the lease count of `RUNTIME`,
`CAPABILITIES`, `NEXT_HANDLE`, `LIVE_COUNT`, the timer service, the native objects with the
number of creation calls made, and how often the closure of the call was dropped and run. -/
structure World where
  runtime : RuntimeState × Nat
  capabilities : Option Capabilities
  nextHandle : Nat
  liveCount : Nat
  slot : SlotState
  registry : Registry
  natives : Natives
  calls : Nat
  dropped : Nat
  ran : Nat

inductive TaskCreateStatus where
  | ok
  | outOfMemory
  | invalid
  deriving DecidableEq

/-- What the target fixes and how it answers: `grants n` is the answer to the `n`-th creation
call, `tryReserveExact` and `reserved` are those of the allocator to the ring buffer and to the
registry's `try_reserve`, and `taskStatus` is that of `xTaskCreate` for a name length, a stack
depth and a priority. -/
structure Platform where
  width : UsizeWidth
  maxLeases : Nat
  grants : Nat → Bool
  tryReserveExact : Nat → Bool
  reserved : Bool
  taskStatus : Nat → Nat → Nat → TaskCreateStatus
  maxSemaphoreCount : Nat

abbrev Construct (α : Type) := Fallible Error World α

variable (p : Platform)

def acquireObject : Construct Unit := fun w =>
  ((lifecycleTable p.maxLeases).apply (.retry .acquire) w.runtime).map fun answer =>
    (answer.1, { w with runtime := answer.2 })

def dropLease (w : World) : Option World :=
  ((lifecycleTable p.maxLeases).apply (.retry .leaseDrop) w.runtime).map fun answer =>
    { w with runtime := answer.2 }

/-- `mutex_create`, `counting_semaphore_create`, `binary_semaphore_create` and
`event_group_create`, each followed by `ok_or(Error::OutOfMemory)`. -/
def create (k : Native) : Construct Nat := fun w =>
  if p.grants w.calls then
    some (.ok w.natives.created, { w with natives := w.natives.create k, calls := w.calls + 1 })
  else some (.error .outOfMemory, { w with calls := w.calls + 1 })

def delete (n : Nat) (w : World) : Option World :=
  if h : n < w.natives.created then some { w with natives := w.natives.delete n h } else none

/-- The drop of the entry or callback closure of the call, by whoever holds it on an early
return. -/
def dropClosure (w : World) : Option World := some { w with dropped := w.dropped + 1 }

/-! ### The constructors -/

/-- `FreeRtosQueue::new`. `NativeQueueResources` deletes what was created so far. -/
def queueNew (capacity messageSize : Nat) : Construct (ByteQueue × Nat × Nat × Nat) :=
  (Fallible.lift (if capacity = 0 then .error .invalidParameter else .ok ())).bind fun _ =>
  (Fallible.lift (if messageSize = 0 then .error .invalidParameter else .ok ())).bind fun _ =>
  (Fallible.lift (ByteQueue.new p.width p.tryReserveExact capacity messageSize)).bind fun buffer =>
  (acquireObject p).owning (fun _ => dropLease p) fun _ =>
  (create p .mutex).owning delete fun stateMutex =>
  (create p .semaphore).owning delete fun senderWake =>
  (create p .semaphore).owning delete fun receiverWake =>
  Fallible.pure (buffer, stateMutex, senderWake, receiverWake)

def countingSemaphoreNew (maxCount initialCount : Nat) : Construct Nat :=
  (Fallible.lift (if maxCount = 0 then .error .invalidParameter else .ok ())).bind fun _ =>
  (Fallible.lift (if maxCount < initialCount then .error .invalidParameter else .ok ())).bind
    fun _ =>
  (Fallible.lift (if p.maxSemaphoreCount < maxCount then .error .invalidParameter else .ok ())).bind
    fun _ =>
  (acquireObject p).owning (fun _ => dropLease p) fun _ =>
  create p .semaphore

def mutexNew : Construct Nat :=
  (acquireObject p).owning (fun _ => dropLease p) fun _ => create p .mutex

/-- `timer_service::register` behind `with_registry`. -/
def register (period : Duration) (mode : TimerMode) (callback : Callback) : Construct Nat :=
  fun w =>
    match w.slot with
    | .stopped => some (.error .notInitialized, w)
    | .stopping => some (.error .busy, w)
    | .running =>
      let answer := w.registry.register period mode callback p.reserved
      some (answer.1, { w with registry := answer.2 })

def timerNew (period : Duration) (mode : TimerMode) (callback : Callback) : Construct Nat :=
  Fallible.onError
    ((Fallible.lift
      (if period = Duration.zero then .error .invalidParameter else .ok ())).bind fun _ =>
    (acquireObject p).owning (fun _ => dropLease p) fun _ =>
    register p period mode callback)
    dropClosure

/-- `TimerService::new`, with its three rollbacks written out. -/
def timerServiceNew : Construct (Nat × Nat × Nat) :=
  (create p .mutex).bind fun registryMutex =>
  ((create p .semaphore).onError (delete registryMutex)).bind fun wakeSem =>
  ((create p .eventGroup).onError fun w => (delete wakeSem w).bind (delete registryMutex)).bind
    fun completionEg =>
  Fallible.pure (registryMutex, wakeSem, completionEg)

def validateTaskConfig (name : List UInt8) (stackSize : Nat) : Result Unit :=
  if 31 < name.length then .error .invalidParameter
  else if name.contains 0 then .error .invalidParameter
  else if stackSize = 0 then .error .invalidParameter
  else .ok ()

def stackBytesToWords (w : UsizeWidth) (bytes wordSize minimalWords maxWords : Nat) : Result Nat :=
  if wordSize = 0 then .error (.internal "stack word size is zero")
  else if 2 ^ w.bits ≤ bytes + (wordSize - 1) then .error .overflow
  else
    let words := max ((bytes + (wordSize - 1)) / wordSize) minimalWords
    if maxWords < words then .error .overflow else .ok words

def mapNativePriority (requested maxPriorities : Nat) : Nat :=
  if maxPriorities ≤ 1 then 0 else min requested (maxPriorities - 1)

/-- `capabilities().expect("spawn requires osal::initialize()")`. -/
def capabilities : Construct Capabilities := fun w => w.capabilities.map fun caps => (.ok caps, w)

/-- `allocate_task_handle`: `fetch_update` with `checked_add(1)`, then `TaskHandle::from_raw`,
which refuses zero. -/
def allocateTaskHandle : Construct Nat := fun w =>
  if 2 ^ p.width.bits ≤ w.nextHandle + 1 then some (.error .overflow, w)
  else
    let w' := { w with nextHandle := w.nextHandle + 1 }
    if w.nextHandle = 0 then some (.error .overflow, w') else some (.ok w.nextHandle, w')

def nameLength (caps : Capabilities) (name : List UInt8) : Construct Nat :=
  match Checked.sub caps.maxTaskNameLen 1 with
  | .error _ => Fallible.panic
  | .ok room => Fallible.pure (min (min name.length room) 31)

/-- `sys::task_create` and the error of its status. -/
def taskCreate (nameLen words priority : Nat) : Construct Nat := fun w =>
  match p.taskStatus nameLen words priority with
  | .ok => some (.ok w.natives.created, { w with natives := w.natives.create .task })
  | .outOfMemory => some (.error .outOfMemory, w)
  | .invalid => some (.error .invalidParameter, w)

/-- `FreeRtosTaskBuilder::spawn`: the handle, the event group and the task. The lease is owned
by the function and then by `TaskIdentity`. The event group is a bare handle until
`TaskCompletion` owns it. -/
def spawn (name : List UInt8) (stackSize priority : Nat) : Construct (Nat × Nat × Nat) :=
  Fallible.onError
    ((Fallible.lift (validateTaskConfig name stackSize)).bind fun _ =>
    (acquireObject p).owning (fun _ => dropLease p) fun _ =>
    capabilities.bind fun caps =>
    (Fallible.lift (stackBytesToWords p.width stackSize caps.stackWordSize
      caps.minimalStackDepthWords caps.maxStackDepthWords)).bind fun words =>
    (create p .eventGroup).bind fun eventGroup =>
    (allocateTaskHandle p).bind fun handle =>
    (Fallible.pure eventGroup).owning delete fun eventGroup =>
    (nameLength caps name).bind fun nameLen =>
    (taskCreate p nameLen words (mapNativePriority priority caps.maxPriorities)).bind fun task =>
    Fallible.pure (handle, eventGroup, task))
    dropClosure

def generousPlatform : Platform where
  width := width64
  maxLeases := 2 ^ 62 - 1
  grants _ := true
  tryReserveExact _ := true
  reserved := true
  taskStatus _ _ _ := .ok
  maxSemaphoreCount := 2 ^ 32 - 1

def freshWorld : World where
  runtime := (.running, 0)
  capabilities := some ⟨4, 128, 65535, 5, 16⟩
  nextHandle := 1
  liveCount := 0
  slot := .running
  registry := Registry.new
  natives := ⟨0, fun _ => .mutex, fun _ => 0, fun _ _ => rfl⟩
  calls := 0
  dropped := 0
  ran := 0

end OsalRust.FreeRtos
