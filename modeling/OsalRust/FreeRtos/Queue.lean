import OsalRust.Framework.Lts
import OsalRust.FreeRtos.WaitBudget
import OsalRust.Queue.Delivery

/-!
# The FreeRTOS queue

`FreeRtosQueue` wraps the ring buffer with a state mutex and two counting semaphores. Each
call is modelled as its critical sections, which are functions of the protected state, and
the takes of a wake semaphore between them; the gives happen inside the critical sections.
Every `expect` and `panic!` of the protocol is a `Panic` result of its section.

A call keeps the scheduler state it started under: a task cannot change it during the call,
and a task that blocked is resumed only by a running scheduler. So the state mutex can be
refused (`lock_state` returning an error) only on the first attempt of a call.
-/

namespace OsalRust.FreeRtos

open Framework

/-- The panics of the protocol, one for each message in the source: "wake credit overflowed
u32", "sender waiter count overflowed u32" and its receiver twin, "wake token without credit",
"unregister without waiter", "timeout unregister without sender waiter" and its receiver twin,
"wake credits exceed waiter count — invariant violation", the failed give of
`signal_one_sender` and `signal_one_receiver`, "wake semaphore give failed during close
broadcast", and a fault inside the ring buffer. -/
inductive Panic where
  | wakeCreditOverflow
  | waiterCountOverflow (d : Direction)
  | wakeTokenWithoutCredit
  | unregisterWithoutWaiter
  | timeoutUnregister (d : Direction)
  | creditsExceedWaiters
  | wakeGiveFailed (d : Direction)
  | closeGiveFailed (senderOk receiverOk : Bool)
  | bufferFault (f : Fault)
  deriving DecidableEq

/-- What the target fixes: the width of `usize` and the maximum of a wake semaphore. -/
structure QueueConfig where
  width : UsizeWidth
  wakeMax : Nat

/-- One direction of `QueueState` with its semaphore: `sender_waiters`, `sender_wake_credits`
and the count of `sender_wake`, or the receiver's three. -/
structure WakeChannel where
  waiters : Nat
  wakeCredits : Nat
  wake : Nat
  deriving DecidableEq

structure QueueState where
  buffer : ByteQueue
  sender : WakeChannel
  receiver : WakeChannel
  deriving DecidableEq

namespace QueueState

def channel (st : QueueState) : Direction → WakeChannel
  | .sender => st.sender
  | .receiver => st.receiver

def setChannel (st : QueueState) (c : WakeChannel) : Direction → QueueState
  | .sender => { st with sender := c }
  | .receiver => { st with receiver := c }

end QueueState

/-- `checked_add(1).expect(..)` on a `u32`. -/
def incrementU32 (n : Nat) (p : Panic) : Except Panic Nat :=
  if n + 1 < 2 ^ 32 then .ok (n + 1) else .error p

def decrement (n : Nat) (p : Panic) : Except Panic Nat :=
  if 0 < n then .ok (n - 1) else .error p

inductive GiveStatus where
  | ok
  | full
  deriving DecidableEq

/-- `semaphore_give` on a live counting semaphore. -/
def semaphoreGive (wakeMax tokens : Nat) : GiveStatus × Nat :=
  if tokens < wakeMax then (.ok, tokens + 1) else (.full, tokens)

namespace WakeChannel

/-- `signal_one_sender` and `signal_one_receiver`. -/
def signalOne (wakeMax : Nat) (d : Direction) (c : WakeChannel) : Except Panic WakeChannel :=
  if c.wakeCredits < c.waiters then
    match semaphoreGive wakeMax c.wake with
    | (.ok, wake) => do
      let wakeCredits ← incrementU32 c.wakeCredits .wakeCreditOverflow
      return { c with wakeCredits, wake }
    | (.full, _) => .error (.wakeGiveFailed d)
  else .ok c

/-- The give loop of `broadcast_wake`: whether all gives succeeded, and the tokens after it. -/
def giveLoop (wakeMax : Nat) : Nat → Nat → Bool × Nat
  | 0, tokens => (true, tokens)
  | missing + 1, tokens =>
    match semaphoreGive wakeMax tokens with
    | (.ok, tokens) => giveLoop wakeMax missing tokens
    | (.full, tokens) => (false, (giveLoop wakeMax missing tokens).2)

def broadcastWake (wakeMax : Nat) (c : WakeChannel) : Except Panic (Bool × WakeChannel) :=
  if c.wakeCredits ≤ c.waiters then
    let r := giveLoop wakeMax (c.waiters - c.wakeCredits) c.wake
    .ok (r.1, { c with wakeCredits := c.waiters, wake := r.2 })
  else .error .creditsExceedWaiters

def register (d : Direction) (c : WakeChannel) : Except Panic WakeChannel := do
  let waiters ← incrementU32 c.waiters (.waiterCountOverflow d)
  return { c with waiters }

/-- Confirm a taken token and unregister. -/
def confirm (c : WakeChannel) : Except Panic WakeChannel := do
  let wakeCredits ← decrement c.wakeCredits .wakeTokenWithoutCredit
  let waiters ← decrement c.waiters .unregisterWithoutWaiter
  return { c with wakeCredits, waiters }

end WakeChannel

structure Call where
  op : QueueOp
  budget : WaitBudget
  scheduler : SchedulerState

/-- What a critical section at the top of the loop decides for its caller. -/
inductive Next where
  | wait (c : Call)
  | ret (op : QueueOp) (r : Result Unit)

/-- The blocking arm shared by `send` and `recv`: refuse, or preflight and register. -/
def blockOn (now : Duration) (c : Call) (st : QueueState) (d : Direction) (unavailable : Error) :
    Except Panic (QueueState × Next) :=
  match c.budget with
  | .noWait => .ok (st, .ret c.op (.error unavailable))
  | .zero => .ok (st, .ret c.op (.error .timeout))
  | budget =>
    match budget.prepareBlocking c.scheduler now with
    | .error e => .ok (st, .ret c.op (.error e))
    | .ok budget => do
      let channel ← (st.channel d).register d
      return (st.setChannel channel d, .wait { c with budget })

/-- The first critical section of `send`. -/
def sendSection (cfg : QueueConfig) (now : Duration) (c : Call) (data : Message) (st : QueueState) :
    Except Panic (QueueState × Next) :=
  if st.buffer.isClosed then .ok (st, .ret c.op (.error .queueClosed))
  else
    match st.buffer.trySend cfg.width data with
    | .error f => .error (.bufferFault f)
    | .ok (.ok (), buffer) => do
      let receiver ← st.receiver.signalOne cfg.wakeMax .receiver
      return ({ st with buffer, receiver }, .ret c.op (.ok ()))
    | .ok (.error .queueFull, _) => blockOn now c st .sender .queueFull
    | .ok (.error e, _) => .ok (st, .ret c.op (.error e))

/-- The first critical section of `recv`. -/
def recvSection (cfg : QueueConfig) (now : Duration) (c : Call) (out : Message) (st : QueueState) :
    Except Panic (QueueState × Next) :=
  match st.buffer.tryRecv cfg.width out with
  | .error f => .error (.bufferFault f)
  | .ok (.ok _, buffer, out) => do
    let sender ← st.sender.signalOne cfg.wakeMax .sender
    return ({ st with buffer, sender }, .ret (.recv out) (.ok ()))
  | .ok (.error .queueEmpty, _, _) =>
    if st.buffer.isClosed then .ok (st, .ret c.op (.error .queueClosed))
    else blockOn now c st .receiver .queueEmpty
  | .ok (.error e, _, _) => .ok (st, .ret c.op (.error e))

def closeSection (cfg : QueueConfig) (c : Call) (st : QueueState) :
    Except Panic (QueueState × Next) :=
  if st.buffer.isClosed then .ok (st, .ret c.op (.ok ()))
  else do
    let (senderOk, sender) ← st.sender.broadcastWake cfg.wakeMax
    let (receiverOk, receiver) ← st.receiver.broadcastWake cfg.wakeMax
    if !senderOk || !receiverOk then .error (.closeGiveFailed senderOk receiverOk)
    else return (⟨st.buffer.close, sender, receiver⟩, .ret c.op (.ok ()))

def checkSection (cfg : QueueConfig) (now : Duration) (c : Call) (st : QueueState) :
    Except Panic (QueueState × Next) :=
  match c.op with
  | .send data => sendSection cfg now c data st
  | .recv out => recvSection cfg now c out st
  | .close => closeSection cfg c st

/-- The section after `wait_once` returned `Acquired`. -/
def confirmSection (d : Direction) (st : QueueState) : Except Panic QueueState := do
  let channel ← (st.channel d).confirm
  return st.setChannel channel d

/-- The queue is closed for a caller of this direction: `send` looks at the flag alone, `recv`
also needs the buffer empty. -/
def closedFor (st : QueueState) : Direction → Bool
  | .sender => st.buffer.isClosed
  | .receiver => st.buffer.isClosed && st.buffer.isEmpty

/-- The section after `wait_once` returned `Unavailable`: loop back on a race token (`none`),
otherwise unregister and return the error. -/
def reconcileSection (d : Direction) (st : QueueState) : Except Panic (QueueState × Option Error) :=
  let c := st.channel d
  if 0 < c.wake then do
    let c ← { c with wake := c.wake - 1 }.confirm
    return (st.setChannel c d, none)
  else do
    let waiters ← decrement c.waiters (.timeoutUnregister d)
    let e := if closedFor st d then Error.queueClosed else Error.timeout
    return (st.setChannel { c with waiters } d, some e)

/-- Where a task is: before the argument check (`start`), at the top of the loop (`check`, with
`again` after a confirmed token), registered and inside `wait_once` (`waiting`), or after it
returned `Acquired` (`woken`) or `Unavailable` (`expired`). -/
inductive Phase where
  | idle
  | start (c : Call)
  | check (c : Call) (again : Bool)
  | waiting (c : Call)
  | woken (c : Call)
  | expired (c : Call)
  | returned (op : QueueOp) (r : Result Unit)

def Next.phase : Next → Phase
  | .wait c => .waiting c
  | .ret op r => .returned op r

def Next.event {ι : Type} (t : ι) : Next → QueueEvent ι
  | .wait _ => .internal
  | .ret (.send data) (.ok ()) => .enqueue t data
  | .ret (.recv message) (.ok ()) => .dequeue t message
  | .ret .close (.ok ()) => .close t
  | .ret _ (.error e) => .fail t e

structure QueueSystem (ι : Type) where
  state : QueueState
  now : Duration
  tasks : ι → Phase

variable {ι : Type} [DecidableEq ι]

def QueueSystem.move (s : QueueSystem ι) (t : ι) (st : QueueState) (p : Phase) : QueueSystem ι :=
  ⟨st, s.now, Function.update s.tasks t p⟩

inductive QueueStep (cfg : QueueConfig) : QueueSystem ι → QueueEvent ι → QueueSystem ι → Prop
  | invoke (s : QueueSystem ι) (t : ι) (op : QueueOp) (timeout : Timeout)
      (scheduler : SchedulerState) (h : s.tasks t = .idle) :
      QueueStep cfg s (.invoke t op)
        (s.move t s.state (.start ⟨op, WaitBudget.new timeout, scheduler⟩))
  | reject (s : QueueSystem ι) (t : ι) (c : Call) (e : Error) (h : s.tasks t = .start c)
      (hv : validate s.state.buffer.messageSize c.op = .error e) :
      QueueStep cfg s (.fail t e) (s.move t s.state (.returned c.op (.error e)))
  | enter (s : QueueSystem ι) (t : ι) (c : Call) (h : s.tasks t = .start c)
      (hv : validate s.state.buffer.messageSize c.op = .ok ()) :
      QueueStep cfg s .internal (s.move t s.state (.check c false))
  | lockFailed (s : QueueSystem ι) (t : ι) (c : Call) (e : Error) (h : s.tasks t = .check c false)
      (hl : ensureBlockingAllowed c.scheduler = .error e) :
      QueueStep cfg s (.fail t e) (s.move t s.state (.returned c.op (.error e)))
  | check (s : QueueSystem ι) (t : ι) (c : Call) (again : Bool) (st : QueueState) (next : Next)
      (h : s.tasks t = .check c again) (hs : checkSection cfg s.now c s.state = .ok (st, next)) :
      QueueStep cfg s (next.event t) (s.move t st next.phase)
  | take (s : QueueSystem ι) (t : ι) (c : Call) (d : Direction) (h : s.tasks t = .waiting c)
      (hd : direction c.op = some d) (hw : 0 < (s.state.channel d).wake) :
      QueueStep cfg s .internal
        (s.move t (s.state.setChannel
          { s.state.channel d with wake := (s.state.channel d).wake - 1 } d) (.woken c))
  | expire (s : QueueSystem ι) (t : ι) (c : Call) (h : s.tasks t = .waiting c)
      (he : c.budget.expired s.now = true) :
      QueueStep cfg s .internal (s.move t s.state (.expired c))
  | confirm (s : QueueSystem ι) (t : ι) (c : Call) (d : Direction) (st : QueueState)
      (h : s.tasks t = .woken c) (hd : direction c.op = some d)
      (hs : confirmSection d s.state = .ok st) :
      QueueStep cfg s .internal (s.move t st (.check c true))
  | retry (s : QueueSystem ι) (t : ι) (c : Call) (d : Direction) (st : QueueState)
      (h : s.tasks t = .expired c) (hd : direction c.op = some d)
      (hs : reconcileSection d s.state = .ok (st, none)) :
      QueueStep cfg s .internal (s.move t st (.check c true))
  | timeout (s : QueueSystem ι) (t : ι) (c : Call) (d : Direction) (st : QueueState) (e : Error)
      (h : s.tasks t = .expired c) (hd : direction c.op = some d)
      (hs : reconcileSection d s.state = .ok (st, some e)) :
      QueueStep cfg s (.fail t e) (s.move t st (.returned c.op (.error e)))
  | ret (s : QueueSystem ι) (t : ι) (op : QueueOp) (r : Result Unit)
      (h : s.tasks t = .returned op r) :
      QueueStep cfg s (.ret t op r) (s.move t s.state .idle)
  | tick (s : QueueSystem ι) (now : Duration) (h : s.now ≤ now) :
      QueueStep cfg s .internal { s with now }

/-- The next critical section of task `t` panics. -/
inductive Panics (cfg : QueueConfig) (s : QueueSystem ι) (t : ι) : Panic → Prop
  | check (c : Call) (again : Bool) (p : Panic) (h : s.tasks t = .check c again)
      (hs : checkSection cfg s.now c s.state = .error p) : Panics cfg s t p
  | confirm (c : Call) (d : Direction) (p : Panic) (h : s.tasks t = .woken c)
      (hd : direction c.op = some d) (hs : confirmSection d s.state = .error p) : Panics cfg s t p
  | reconcile (c : Call) (d : Direction) (p : Panic) (h : s.tasks t = .expired c)
      (hd : direction c.op = some d) (hs : reconcileSection d s.state = .error p) :
      Panics cfg s t p

def QueueInit (cfg : QueueConfig) (s : QueueSystem ι) : Prop :=
  ∃ reserve capacity messageSize buffer,
    ByteQueue.new cfg.width reserve capacity messageSize = .ok buffer ∧
    s.state = ⟨buffer, ⟨0, 0, 0⟩, ⟨0, 0, 0⟩⟩ ∧ s.tasks = fun _ => .idle

def queueLts (ι : Type) [DecidableEq ι] (cfg : QueueConfig) :
    Lts (QueueSystem ι) (QueueEvent ι) where
  init := QueueInit cfg
  step := QueueStep cfg

end OsalRust.FreeRtos
