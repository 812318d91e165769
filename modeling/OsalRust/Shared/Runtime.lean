import OsalRust.Api.Basic
import OsalRust.Framework.Linearizability
import OsalRust.Framework.TaskPool

/-!
# The runtime lifecycle

`RuntimeLifecycle` packs the four runtime states and the number of live leases into one
atomic word. Every operation is a sequence of atomic loads and compare-exchanges: one strong
compare-exchange for `begin_initialize` and for the commit and the rollback of a transition
guard, and a retry loop of a load and a weak compare-exchange for `begin_shutdown`, `acquire`
and the drop of a lease. Threads interleave at these steps; a weak compare-exchange may fail
for no reason.
-/

namespace OsalRust.Runtime

open Framework

inductive RuntimeState where
  | uninitialized
  | initializing
  | running
  | shuttingDown
  deriving DecidableEq

def RuntimeState.code : RuntimeState → Nat
  | .uninitialized => 0
  | .initializing => 1
  | .running => 2
  | .shuttingDown => 3

def stateBits : Nat := 2

def stateMask : Nat := (1 <<< stateBits) - 1

/-- `usize::MAX >> STATE_BITS`. -/
def maxCount (w : UsizeWidth) : Nat := (2 ^ w.bits - 1) >>> stateBits

/-- `encode` without its debug assertion; the shift drops the bits above the word. -/
def encode (w : UsizeWidth) (state : RuntimeState) (count : Nat) : Nat :=
  state.code ||| ((count <<< stateBits) % 2 ^ w.bits)

def decodeState (word : Nat) : RuntimeState :=
  match word &&& stateMask with
  | 0 => .uninitialized
  | 1 => .initializing
  | 2 => .running
  | _ => .shuttingDown

def decodeCount (word : Nat) : Nat := word >>> stateBits

/-- The operations with one strong compare-exchange: `begin_initialize` and the ends of the two
transition guards. -/
inductive SwapOp where
  | beginInitialize
  | initializeCommit
  | initializeDrop
  | shutdownCommit
  | shutdownDrop
  deriving DecidableEq

/-- The operations that retry a weak compare-exchange. -/
inductive RetryOp where
  | beginShutdown
  | acquire
  | leaseDrop
  deriving DecidableEq

inductive LifecycleOp where
  | swap (op : SwapOp)
  | retry (op : RetryOp)
  deriving DecidableEq

/-- The panics of the lifecycle: "runtime initialize commit invariant violated" and its three
siblings, "runtime lease dropped outside Running state", "runtime object count underflow", and
the debug assertion of `encode`. -/
inductive Panic where
  | transitionViolated (op : SwapOp)
  | leaseOutsideRunning
  | countUnderflow
  | countAboveMax
  deriving DecidableEq

def encodeChecked (w : UsizeWidth) (state : RuntimeState) (count : Nat) : Except Panic Nat :=
  if count ≤ maxCount w then .ok (encode w state count) else .error .countAboveMax

namespace SwapOp

def expected (w : UsizeWidth) : SwapOp → Nat
  | .beginInitialize => encode w .uninitialized 0
  | .initializeCommit | .initializeDrop => encode w .initializing 0
  | .shutdownCommit | .shutdownDrop => encode w .shuttingDown 0

def desired (w : UsizeWidth) : SwapOp → Nat
  | .beginInitialize => encode w .initializing 0
  | .initializeCommit => encode w .running 0
  | .initializeDrop => encode w .uninitialized 0
  | .shutdownCommit => encode w .uninitialized 0
  | .shutdownDrop => encode w .running 0

/-- What the operation does when its compare-exchange found `current`: the error of
`begin_initialize`, or a failed assertion. -/
def onFailure (current : Nat) : SwapOp → Except Panic Error
  | .beginInitialize =>
    match decodeState current with
    | .uninitialized => .ok .alreadyInitialized
    | .running => .ok .alreadyInitialized
    | _ => .ok .busy
  | op => .error (.transitionViolated op)

end SwapOp

/-- One round of `begin_shutdown` up to its compare-exchange: the error it returns, or the word
it tries to store. -/
def beginShutdown (w : UsizeWidth) (current : Nat) : Except Panic (Result Nat) :=
  match decodeState current with
  | .uninitialized => .ok (.error .notInitialized)
  | .initializing | .shuttingDown => .ok (.error .busy)
  | .running =>
    if decodeCount current ≠ 0 then .ok (.error .busy)
    else .ok (.ok (encode w .shuttingDown 0))

def acquire (w : UsizeWidth) (current : Nat) : Except Panic (Result Nat) := do
  if decodeState current ≠ .running then return .error .notInitialized
  let count := decodeCount current
  if maxCount w ≤ count then return .error .overflow
  let next ← encodeChecked w .running (count + 1)
  return .ok next

def leaseDrop (w : UsizeWidth) (current : Nat) : Except Panic (Result Nat) := do
  if decodeState current ≠ .running then .error .leaseOutsideRunning
  match decodeCount current with
  | 0 => .error .countUnderflow
  | nextCount + 1 =>
    let next ← encodeChecked w .running nextCount
    return .ok next

def RetryOp.attempt (w : UsizeWidth) (current : Nat) : RetryOp → Except Panic (Result Nat)
  | .beginShutdown => Runtime.beginShutdown w current
  | .acquire => Runtime.acquire w current
  | .leaseDrop => Runtime.leaseDrop w current

/-- The values whose ownership the operations move: the two transition guards and the leases. -/
inductive Token where
  | initializeTransition
  | shutdownTransition
  | runtimeLease
  deriving DecidableEq

namespace LifecycleOp

def consumes : LifecycleOp → Option Token
  | .swap .initializeCommit | .swap .initializeDrop => some .initializeTransition
  | .swap .shutdownCommit | .swap .shutdownDrop => some .shutdownTransition
  | .retry .leaseDrop => some .runtimeLease
  | _ => none

def produces : LifecycleOp → Option Token
  | .swap .beginInitialize => some .initializeTransition
  | .retry .beginShutdown => some .shutdownTransition
  | .retry .acquire => some .runtimeLease
  | _ => none

end LifecycleOp

/-- Where a thread is: before the load of a retry loop, before its weak compare-exchange from
`current` to `next`, or before a strong compare-exchange. -/
inductive Phase where
  | idle
  | load (op : RetryOp)
  | weakCas (op : RetryOp) (current next : Nat)
  | cas (op : SwapOp)
  | returned (op : LifecycleOp) (r : Result Unit)

def LifecycleOp.entry : LifecycleOp → Phase
  | .swap op => .cas op
  | .retry op => .load op

/-- The word, the values that user code owns, and the threads. -/
@[ext] structure Lifecycle (ι : Type) where
  word : Nat
  owned : Token → Nat
  threads : ι → Phase

variable {ι : Type} [DecidableEq ι]

/-- Ownership when a call begins: the value it consumes moves out of user code. -/
def takeToken (op : LifecycleOp) (owned : Token → Nat) : Option (Token → Nat) :=
  match op.consumes with
  | none => some owned
  | some k => if 0 < owned k then some (Function.update owned k (owned k - 1)) else none

/-- Ownership when a call returns: the value inside `Ok` moves to user code. -/
def giveToken (op : LifecycleOp) (r : Result Unit) (owned : Token → Nat) : Token → Nat :=
  match op.produces, r with
  | some k, .ok () => Function.update owned k (owned k + 1)
  | _, _ => owned

inductive LifecycleStep (w : UsizeWidth) :
    Lifecycle ι → CallEvent ι LifecycleOp (Result Unit) → Lifecycle ι → Prop
  | invoke (s : Lifecycle ι) (t : ι) (op : LifecycleOp) (owned : Token → Nat)
      (h : s.threads t = .idle) (ho : takeToken op s.owned = some owned) :
      LifecycleStep w s (.invoke t op)
        { s with owned, threads := Function.update s.threads t op.entry }
  | load (s : Lifecycle ι) (t : ι) (op : RetryOp) (next : Nat) (h : s.threads t = .load op)
      (ha : op.attempt w s.word = .ok (.ok next)) :
      LifecycleStep w s .internal
        { s with threads := Function.update s.threads t (.weakCas op s.word next) }
  | loadFails (s : Lifecycle ι) (t : ι) (op : RetryOp) (e : Error) (h : s.threads t = .load op)
      (ha : op.attempt w s.word = .ok (.error e)) :
      LifecycleStep w s (.lin t (.retry op) (.error e))
        { s with threads := Function.update s.threads t (.returned (.retry op) (.error e)) }
  | weakCas (s : Lifecycle ι) (t : ι) (op : RetryOp) (current next : Nat)
      (h : s.threads t = .weakCas op current next) (hw : s.word = current) :
      LifecycleStep w s (.lin t (.retry op) (.ok ()))
        { s with word := next
                 threads := Function.update s.threads t (.returned (.retry op) (.ok ())) }
  | weakCasFails (s : Lifecycle ι) (t : ι) (op : RetryOp) (current next : Nat)
      (h : s.threads t = .weakCas op current next) :
      LifecycleStep w s .internal { s with threads := Function.update s.threads t (.load op) }
  | cas (s : Lifecycle ι) (t : ι) (op : SwapOp) (h : s.threads t = .cas op)
      (hw : s.word = op.expected w) :
      LifecycleStep w s (.lin t (.swap op) (.ok ()))
        { s with word := op.desired w
                 threads := Function.update s.threads t (.returned (.swap op) (.ok ())) }
  | casFails (s : Lifecycle ι) (t : ι) (op : SwapOp) (e : Error) (h : s.threads t = .cas op)
      (hw : s.word ≠ op.expected w) (hf : op.onFailure s.word = .ok e) :
      LifecycleStep w s (.lin t (.swap op) (.error e))
        { s with threads := Function.update s.threads t (.returned (.swap op) (.error e)) }
  | ret (s : Lifecycle ι) (t : ι) (op : LifecycleOp) (r : Result Unit)
      (h : s.threads t = .returned op r) :
      LifecycleStep w s (.ret t op r)
        { s with owned := giveToken op r s.owned, threads := Function.update s.threads t .idle }

inductive Panics (w : UsizeWidth) (s : Lifecycle ι) (t : ι) : Panic → Prop
  | load (op : RetryOp) (p : Panic) (h : s.threads t = .load op)
      (ha : op.attempt w s.word = .error p) : Panics w s t p
  | cas (op : SwapOp) (p : Panic) (h : s.threads t = .cas op) (hw : s.word ≠ op.expected w)
      (hf : op.onFailure s.word = .error p) : Panics w s t p

/-- `RuntimeLifecycle::new`: the word is zero and nothing has been handed out. -/
def lifecycleLts (ι : Type) [DecidableEq ι] (w : UsizeWidth) :
    Lts (Lifecycle ι) (CallEvent ι LifecycleOp (Result Unit)) where
  init s := s = ⟨0, fun _ => 0, fun _ => .idle⟩
  step := LifecycleStep w

/-- The transition table of the behaviour contract, with `Overflow` at the maximal count. The
guards and leases say which entries a caller may use, so the others are absent. -/
def lifecycleTable (maxCount : Nat) :
    SeqObject (RuntimeState × Nat) LifecycleOp (Result Unit) where
  init := (.uninitialized, 0)
  apply
    | .swap .beginInitialize, (.uninitialized, n) => some (.ok (), .initializing, n)
    | .swap .beginInitialize, (.running, n) => some (.error .alreadyInitialized, .running, n)
    | .swap .beginInitialize, (state, n) => some (.error .busy, state, n)
    | .swap .initializeCommit, (.initializing, n) => some (.ok (), .running, n)
    | .swap .initializeDrop, (.initializing, n) => some (.ok (), .uninitialized, n)
    | .swap .shutdownCommit, (.shuttingDown, n) => some (.ok (), .uninitialized, n)
    | .swap .shutdownDrop, (.shuttingDown, n) => some (.ok (), .running, n)
    | .retry .beginShutdown, (.running, 0) => some (.ok (), .shuttingDown, 0)
    | .retry .beginShutdown, (.uninitialized, n) => some (.error .notInitialized, .uninitialized, n)
    | .retry .beginShutdown, (state, n) => some (.error .busy, state, n)
    | .retry .acquire, (.running, n) =>
      if n < maxCount then some (.ok (), .running, n + 1)
      else some (.error .overflow, .running, n)
    | .retry .acquire, (state, n) => some (.error .notInitialized, state, n)
    | .retry .leaseDrop, (.running, n + 1) => some (.ok (), .running, n)
    | _, _ => none

/-! What the entries of the table say, read from the answer. -/

def SwapOp.source : SwapOp → RuntimeState
  | .beginInitialize => .uninitialized
  | .initializeCommit | .initializeDrop => .initializing
  | .shutdownCommit | .shutdownDrop => .shuttingDown

def SwapOp.target : SwapOp → RuntimeState
  | .beginInitialize => .initializing
  | .initializeCommit | .shutdownDrop => .running
  | .initializeDrop | .shutdownCommit => .uninitialized

section Table

variable {max : Nat} {s r : RuntimeState × Nat}

theorem swap_of_table {op : SwapOp}
    (h : (lifecycleTable max).apply (.swap op) s = some (.ok (), r)) :
    s.1 = op.source ∧ r = (op.target, s.2) := by
  obtain ⟨state, n⟩ := s
  cases op <;> cases state <;> cases h <;> exact ⟨rfl, rfl⟩

theorem beginShutdown_of_table
    (h : (lifecycleTable max).apply (.retry .beginShutdown) s = some (.ok (), r)) :
    s = (.running, 0) ∧ r = (.shuttingDown, 0) := by
  obtain ⟨state, n⟩ := s
  cases state <;> cases n <;> cases h
  exact ⟨rfl, rfl⟩

theorem apply_acquire_running (max n : Nat) :
    (lifecycleTable max).apply (.retry .acquire) (.running, n) =
      if n < max then some (.ok (), .running, n + 1) else some (.error .overflow, .running, n) :=
  rfl

theorem acquire_of_table
    (h : (lifecycleTable max).apply (.retry .acquire) s = some (.ok (), r)) :
    s.1 = .running ∧ r = (.running, s.2 + 1) := by
  obtain ⟨state, n⟩ := s
  cases state with
  | running =>
    rw [apply_acquire_running] at h
    by_cases hn : n < max
    · rw [if_pos hn] at h
      cases h
      exact ⟨rfl, rfl⟩
    · rw [if_neg hn] at h
      cases h
  | _ => cases h

theorem leaseDrop_of_table
    (h : (lifecycleTable max).apply (.retry .leaseDrop) s = some (.ok (), r)) :
    s.1 = .running ∧ r = (.running, s.2 - 1) := by
  obtain ⟨state, n⟩ := s
  cases state <;> cases n <;> cases h
  exact ⟨rfl, rfl⟩

theorem error_of_table {op : LifecycleOp} {e : Error}
    (h : (lifecycleTable max).apply op s = some (.error e, r)) : r = s := by
  obtain ⟨state, n⟩ := s
  cases op with
  | swap op => cases op <;> cases state <;> cases h <;> rfl
  | retry op =>
    cases op with
    | acquire =>
      cases state with
      | running =>
        rw [apply_acquire_running] at h
        by_cases hn : n < max
        · rw [if_pos hn] at h
          cases h
        · rw [if_neg hn] at h
          cases h
          rfl
      | _ =>
        cases h
        rfl
    | beginShutdown | leaseDrop => cases state <;> cases n <;> cases h <;> rfl

end Table

end OsalRust.Runtime
