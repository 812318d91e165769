import OsalRust.Portable.ByteQueue

/-!
# The mock queue

`MockQueue` wraps the ring buffer without any waiting: `apply_timeout` maps what a call without
a wait returned to what the timeout makes of it. A queue made with faults consults a shared
`FaultState` first; each fault triggers once.
-/

namespace OsalRust.Mock

structure FaultState where
  nextQueueCreate : Option Error
  nextQueueSend : Option Error
  deriving DecidableEq

def applyTimeout {α : Type} (timeout : Timeout) (raw : Result α) (wouldBlock : Error) : Result α :=
  match timeout with
  | .noWait => raw
  | .after _ =>
    match raw with
    | .error e => if e = wouldBlock then .error .timeout else .error e
    | other => other
  | .forever =>
    match raw with
    | .error e => if e = wouldBlock then .error .unsupported else .error e
    | other => other

structure MockQueue where
  buffer : ByteQueue
  faults : Option FaultState

namespace MockQueue

/-- `MockQueueInner::new`; `acquire` is the answer of `acquire_object`. -/
def new (w : UsizeWidth) (tryReserveExact : Nat → Bool) (acquire : Result Unit)
    (faults : Option FaultState) (capacity messageSize : Nat) : Result MockQueue := do
  if capacity = 0 then .error .invalidParameter
  if messageSize = 0 then .error .invalidParameter
  acquire
  let buffer ← ByteQueue.new w tryReserveExact capacity messageSize
  return ⟨buffer, faults⟩

def takeSendFault (q : MockQueue) : Option Error × MockQueue :=
  match q.faults with
  | none => (none, q)
  | some f => (f.nextQueueSend, { q with faults := some { f with nextQueueSend := none } })

def send (w : UsizeWidth) (timeout : Timeout) (data : Message) (q : MockQueue) :
    Checked (Result Unit × MockQueue) :=
  match q.takeSendFault with
  | (some fault, q) => .ok (.error fault, q)
  | (none, q) => do
    let r ← q.buffer.trySend w data
    return (applyTimeout timeout r.1 .queueFull, { q with buffer := r.2 })

/-- `recv`, with the caller's buffer after the call. -/
def recv (w : UsizeWidth) (timeout : Timeout) (out : Message) (q : MockQueue) :
    Checked (Result Unit × Message × MockQueue) := do
  let r ← q.buffer.tryRecv w out
  return (applyTimeout timeout (r.1.map fun _ => ()) .queueEmpty, r.2.2, { q with buffer := r.2.1 })

def close (q : MockQueue) : MockQueue := { q with buffer := q.buffer.close }

end MockQueue

end OsalRust.Mock
