import Mathlib.Data.Fintype.Basic
import OsalRust.Framework.Lts
import OsalRust.Queue.Delivery

/-!
# The POSIX queue

`PosixQueue` wraps the ring buffer with one mutex and two condition variables. A call is its
critical sections, which run from a lock or the end of a wait to the next wait or the return.
A wait releases the mutex; it ends with a wakeup (by a signal, a broadcast or for no reason)
or, past its deadline, with `ETIMEDOUT`, and then takes the mutex again as a separate step.
Operations of a valid mutex or condition variable do not fail.
-/

namespace OsalRust.Posix

open Framework

structure Timespec where
  sec : Nat
  nsec : Nat
  deriving DecidableEq

/-- What the target fixes: the width of `usize` and `time_t::MAX`. -/
structure QueueConfig where
  width : UsizeWidth
  timeMax : Nat

def durationToTimespec (timeMax : Nat) (d : Duration) : Result Timespec :=
  if d.nanos / 1000000000 ≤ timeMax then .ok ⟨d.nanos / 1000000000, d.nanos % 1000000000⟩
  else .error .overflow

def timespecGe (a b : Timespec) : Bool :=
  decide (b.sec < a.sec) || (a.sec == b.sec && decide (b.nsec ≤ a.nsec))

def timeAdd (timeMax a b : Nat) : Result Nat :=
  if a + b ≤ timeMax then .ok (a + b) else .error .overflow

def checkedAbsDeadline (timeMax : Nat) (now : Timespec) (timeout : Duration) : Result Timespec := do
  let ts ← durationToTimespec timeMax timeout
  let sec ← timeAdd timeMax now.sec ts.sec
  if 1000000000 ≤ now.nsec + ts.nsec then
    let sec ← timeAdd timeMax sec 1
    return ⟨sec, now.nsec + ts.nsec - 1000000000⟩
  else return ⟨sec, now.nsec + ts.nsec⟩

structure Call where
  op : QueueOp
  timeout : Timeout

/-- How a section ends for its caller: a wait, with the deadline of a timed one, or a return. -/
inductive Next where
  | wait (deadline : Option Timespec)
  | ret (op : QueueOp) (r : Result Unit)

/-- What a section does to the condition variables: `one d` is the signal of the variable that
direction `d` waits on, `all` the two broadcasts of `close`. -/
inductive Wake where
  | none
  | one (d : Direction)
  | all

def sendRound (w : UsizeWidth) (deadline : Option Timespec) (data : Message) (b : ByteQueue) :
    Checked (ByteQueue × Next × Wake) := do
  if b.isClosed then return (b, .ret (.send data) (.error .queueClosed), .none)
  match ← b.trySend w data with
  | (.ok (), b) => return (b, .ret (.send data) (.ok ()), .one .receiver)
  | (.error .queueFull, b) => return (b, .wait deadline, .none)
  | (.error e, b) => return (b, .ret (.send data) (.error e), .none)

def recvRound (w : UsizeWidth) (deadline : Option Timespec) (out : Message) (b : ByteQueue) :
    Checked (ByteQueue × Next × Wake) := do
  let isClosed := b.isClosed
  let isEmpty := b.isEmpty
  if isClosed && isEmpty then return (b, .ret (.recv out) (.error .queueClosed), .none)
  match ← b.tryRecv w out with
  | (.ok _, b, out) => return (b, .ret (.recv out) (.ok ()), .one .sender)
  | (.error .queueEmpty, b, _) =>
    if isClosed then return (b, .ret (.recv out) (.error .queueClosed), .none)
    else return (b, .wait deadline, .none)
  | (.error e, b, _) => return (b, .ret (.recv out) (.error e), .none)

/-- `send` from its lock to its first wait or its return. -/
def sendSection (cfg : QueueConfig) (now : Timespec) (timeout : Timeout) (data : Message)
    (b : ByteQueue) : Checked (ByteQueue × Next × Wake) := do
  if b.isClosed then return (b, .ret (.send data) (.error .queueClosed), .none)
  match timeout with
  | .noWait =>
    match ← b.trySend cfg.width data with
    | (.ok (), b) => return (b, .ret (.send data) (.ok ()), .one .receiver)
    | (.error e, b) => return (b, .ret (.send data) (.error e), .none)
  | .after d =>
    match checkedAbsDeadline cfg.timeMax now d with
    | .error e => return (b, .ret (.send data) (.error e), .none)
    | .ok deadline => sendRound cfg.width (some deadline) data b
  | .forever => sendRound cfg.width Option.none data b

/-- `recv` from its lock to its first wait or its return. -/
def recvSection (cfg : QueueConfig) (now : Timespec) (timeout : Timeout) (out : Message)
    (b : ByteQueue) : Checked (ByteQueue × Next × Wake) :=
  match timeout with
  | .noWait => do
    match ← b.tryRecv cfg.width out with
    | (.ok _, b, out) => return (b, .ret (.recv out) (.ok ()), .one .sender)
    | (.error e, b, _) => return (b, .ret (.recv out) (.error e), .none)
  | .after d =>
    match checkedAbsDeadline cfg.timeMax now d with
    | .error e => return (b, .ret (.recv out) (.error e), .none)
    | .ok deadline => recvRound cfg.width (some deadline) out b
  | .forever => recvRound cfg.width Option.none out b

def closeSection (b : ByteQueue) : ByteQueue × Next × Wake :=
  if b.isClosed then (b, .ret .close (.ok ()), .none)
  else (b.close, .ret .close (.ok ()), .all)

def firstSection (cfg : QueueConfig) (now : Timespec) (c : Call) (b : ByteQueue) :
    Checked (ByteQueue × Next × Wake) :=
  match c.op with
  | .send data => sendSection cfg now c.timeout data b
  | .recv out => recvSection cfg now c.timeout out b
  | .close => .ok (closeSection b)

/-- The section after a wait that returned `Ok`: another round of the loop. -/
def roundSection (cfg : QueueConfig) (deadline : Option Timespec) (c : Call) (b : ByteQueue) :
    Checked (ByteQueue × Next × Wake) :=
  match c.op with
  | .send data => sendRound cfg.width deadline data b
  | .recv out => recvRound cfg.width deadline out b
  | .close => .ok (closeSection b)

/-- Where a thread is: before the argument check (`start`), before its first section (`enter`),
inside the wait (`blocked`), or past it and about to take the mutex again, after a wakeup
(`woken`) or after `ETIMEDOUT` (`timedOut`). -/
inductive Phase where
  | idle
  | start (c : Call)
  | enter (c : Call)
  | blocked (c : Call) (deadline : Option Timespec)
  | woken (c : Call) (deadline : Option Timespec)
  | timedOut (c : Call)
  | returned (op : QueueOp) (r : Result Unit)

def Next.phase (c : Call) : Next → Phase
  | .wait deadline => .blocked c deadline
  | .ret op r => .returned op r

def Next.event {ι : Type} (t : ι) : Next → QueueEvent ι
  | .wait _ => .internal
  | .ret (.send data) (.ok ()) => .enqueue t data
  | .ret (.recv message) (.ok ()) => .dequeue t message
  | .ret .close (.ok ()) => .close t
  | .ret _ (.error e) => .fail t e

namespace Phase

def blockedOn (d : Direction) : Phase → Bool
  | .blocked c _ => decide (direction c.op = some d)
  | _ => false

def isBlocked : Phase → Bool
  | .blocked _ _ => true
  | _ => false

def isTimedOut : Phase → Bool
  | .timedOut _ => true
  | _ => false

def inSection : Phase → Bool
  | .enter _ | .woken _ _ | .timedOut _ => true
  | _ => false

def wake : Phase → Phase
  | .blocked c deadline => .woken c deadline
  | p => p

end Phase

section Threads

variable {ι : Type}

/-- The threads a section wakes: a signal wakes at least one of those blocked on its variable,
if there is one, and a broadcast wakes all. -/
def WakeChoice (tasks : ι → Phase) : Wake → (ι → Bool) → Prop
  | .none, chosen => ∀ i, chosen i = false
  | .one d, chosen =>
    (∀ i, chosen i = true → (tasks i).blockedOn d = true) ∧
      ((∃ i, (tasks i).blockedOn d = true) → ∃ i, chosen i = true)
  | .all, chosen => ∀ i, chosen i = (tasks i).isBlocked

instance [Fintype ι] (tasks : ι → Phase) (chosen : ι → Bool) :
    (wake : Wake) → Decidable (WakeChoice tasks wake chosen)
  | .none => inferInstanceAs (Decidable (∀ i, chosen i = false))
  | .one d => inferInstanceAs (Decidable
      ((∀ i, chosen i = true → (tasks i).blockedOn d = true) ∧
        ((∃ i, (tasks i).blockedOn d = true) → ∃ i, chosen i = true)))
  | .all => inferInstanceAs (Decidable (∀ i, chosen i = (tasks i).isBlocked))

def wakeTasks (chosen : ι → Bool) (tasks : ι → Phase) (i : ι) : Phase :=
  if chosen i then (tasks i).wake else tasks i

end Threads

structure QueueSystem (ι : Type) where
  buffer : ByteQueue
  now : Timespec
  tasks : ι → Phase

variable {ι : Type} [DecidableEq ι]

def QueueSystem.move (s : QueueSystem ι) (t : ι) (p : Phase) : QueueSystem ι :=
  { s with tasks := Function.update s.tasks t p }

def QueueSystem.commit (s : QueueSystem ι) (t : ι) (b : ByteQueue) (chosen : ι → Bool)
    (p : Phase) : QueueSystem ι :=
  ⟨b, s.now, Function.update (wakeTasks chosen s.tasks) t p⟩

inductive QueueStep (cfg : QueueConfig) : QueueSystem ι → QueueEvent ι → QueueSystem ι → Prop
  | invoke (s : QueueSystem ι) (t : ι) (c : Call) (h : s.tasks t = .idle) :
      QueueStep cfg s (.invoke t c.op) (s.move t (.start c))
  | reject (s : QueueSystem ι) (t : ι) (c : Call) (e : Error) (h : s.tasks t = .start c)
      (hv : validate s.buffer.messageSize c.op = .error e) :
      QueueStep cfg s (.fail t e) (s.move t (.returned c.op (.error e)))
  | accept (s : QueueSystem ι) (t : ι) (c : Call) (h : s.tasks t = .start c)
      (hv : validate s.buffer.messageSize c.op = .ok ()) :
      QueueStep cfg s .internal (s.move t (.enter c))
  | first (s : QueueSystem ι) (t : ι) (c : Call) (b : ByteQueue) (next : Next) (wake : Wake)
      (chosen : ι → Bool) (h : s.tasks t = .enter c)
      (hs : firstSection cfg s.now c s.buffer = .ok (b, next, wake))
      (hw : WakeChoice s.tasks wake chosen) :
      QueueStep cfg s (next.event t) (s.commit t b chosen (next.phase c))
  | round (s : QueueSystem ι) (t : ι) (c : Call) (deadline : Option Timespec) (b : ByteQueue)
      (next : Next) (wake : Wake) (chosen : ι → Bool) (h : s.tasks t = .woken c deadline)
      (hs : roundSection cfg deadline c s.buffer = .ok (b, next, wake))
      (hw : WakeChoice s.tasks wake chosen) :
      QueueStep cfg s (next.event t) (s.commit t b chosen (next.phase c))
  | spurious (s : QueueSystem ι) (t : ι) (c : Call) (deadline : Option Timespec)
      (h : s.tasks t = .blocked c deadline) :
      QueueStep cfg s .internal (s.move t (.woken c deadline))
  | expire (s : QueueSystem ι) (t : ι) (c : Call) (deadline : Timespec)
      (h : s.tasks t = .blocked c (some deadline)) (hd : timespecGe s.now deadline = true) :
      QueueStep cfg s .internal (s.move t (.timedOut c))
  | timeout (s : QueueSystem ι) (t : ι) (c : Call) (h : s.tasks t = .timedOut c) :
      QueueStep cfg s (.fail t .timeout) (s.move t (.returned c.op (.error .timeout)))
  | ret (s : QueueSystem ι) (t : ι) (op : QueueOp) (r : Result Unit)
      (h : s.tasks t = .returned op r) : QueueStep cfg s (.ret t op r) (s.move t .idle)
  | tick (s : QueueSystem ι) (now : Timespec) (h : timespecGe now s.now = true) :
      QueueStep cfg s .internal { s with now }

def QueueInit (cfg : QueueConfig) (s : QueueSystem ι) : Prop :=
  ∃ reserve capacity messageSize,
    ByteQueue.new cfg.width reserve capacity messageSize = .ok s.buffer ∧
    s.tasks = fun _ => .idle

def queueLts (ι : Type) [DecidableEq ι] (cfg : QueueConfig) :
    Lts (QueueSystem ι) (QueueEvent ι) where
  init := QueueInit cfg
  step := QueueStep cfg

end OsalRust.Posix
