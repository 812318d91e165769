import OsalRust.FreeRtos.Construction
import OsalRust.FreeRtos.Queue
import OsalRust.Mock.Queue
import OsalRust.Posix.Queue

/-!
# The three queues without blocking

One thread uses a queue and its clones, which share the inner queue, with timeouts that do not
wait. Each backend is the fold of its own calls; what a caller sees of it is the same for the
mock, the POSIX and the FreeRTOS queue, whatever the clocks and the scheduler say meanwhile.
-/

namespace OsalRust

open Framework

inductive Brief where
  | noWait
  | zero
  deriving DecidableEq

def Brief.timeout : Brief → Timeout
  | .noWait => .noWait
  | .zero => .after Duration.zero

inductive QueueCall where
  | send (data : Message) (t : Brief)
  | recv (buffer : Message) (t : Brief)
  | close
  | len
  | isEmpty
  | isFull

/-- What a caller sees of a call; a receive also shows the caller's buffer after it. -/
inductive QueueReply where
  | done (r : Result Unit)
  | filled (r : Result Unit) (buffer : Message)
  | size (r : Result Nat)
  | flag (r : Result Bool)
  deriving DecidableEq

/-- What the platform says during one call: the monotonic clock of the POSIX backend, which is a
valid `timespec`, and the tick clock and the scheduler state of the FreeRTOS backend. -/
structure Moment (timeMax : Nat) where
  monotonic : Posix.Timespec
  sec_le : monotonic.sec ≤ timeMax
  nsec_lt : monotonic.nsec < 1000000000
  clock : Duration
  scheduler : FreeRtos.SchedulerState

/-- `len`, `is_empty` and `is_full`: the trait derives the last two from `len` and `capacity`. -/
def ByteQueue.inspect (b : ByteQueue) : QueueCall → QueueReply
  | .isEmpty => .flag (.ok (b.len == 0))
  | .isFull => .flag (.ok (b.len == b.capacity))
  | _ => .size (.ok b.len)

def replyOf : QueueOp → Result Unit → QueueReply
  | .recv buffer, r => .filled r buffer
  | _, r => .done r

namespace Mock

def MockQueue.exec (w : UsizeWidth) (q : MockQueue) : QueueCall → Checked (QueueReply × MockQueue)
  | .send data t => do
    let r ← q.send w t.timeout data
    return (.done r.1, r.2)
  | .recv buffer t => do
    let r ← q.recv w t.timeout buffer
    return (.filled r.1 r.2.1, r.2.2)
  | .close => return (.done (.ok ()), q.close)
  | call => return (q.buffer.inspect call, q)

end Mock

namespace Posix

/-- `PosixQueue::new`: the answers of `acquire_object` and of the creation of the mutex and of
the two condition variables are parameters. -/
def queueNew (w : UsizeWidth) (tryReserveExact : Nat → Bool)
    (acquire mutex notEmpty notFull : Result Unit) (capacity messageSize : Nat) :
    Result ByteQueue := do
  if capacity = 0 then .error .invalidParameter
  if messageSize = 0 then .error .invalidParameter
  acquire
  mutex
  notEmpty
  notFull
  ByteQueue.new w tryReserveExact capacity messageSize

/-- A call with no other thread around: a timed wait on an expired deadline reports `ETIMEDOUT`,
and a call that has to wait longer does not return here (`none`). -/
def soloCall (cfg : QueueConfig) (now : Timespec) (c : Call) (b : ByteQueue) :
    Checked (Option (QueueOp × Result Unit × ByteQueue)) :=
  match validate b.messageSize c.op with
  | .error e => .ok (some (c.op, .error e, b))
  | .ok () => do
    match ← firstSection cfg now c b with
    | (b, .ret op r, _) => return some (op, r, b)
    | (b, .wait (some deadline), _) =>
      if timespecGe now deadline then return some (c.op, .error .timeout, b) else return none
    | (_, .wait none, _) => return none

def exec (cfg : QueueConfig) (now : Timespec) (b : ByteQueue) :
    QueueCall → Checked (Option (QueueReply × ByteQueue))
  | .send data t => do
    let r ← soloCall cfg now ⟨.send data, t.timeout⟩ b
    return r.map fun r => (replyOf r.1 r.2.1, r.2.2)
  | .recv buffer t => do
    let r ← soloCall cfg now ⟨.recv buffer, t.timeout⟩ b
    return r.map fun r => (replyOf r.1 r.2.1, r.2.2)
  | .close => do
    let r ← soloCall cfg now ⟨.close, .forever⟩ b
    return r.map fun r => (replyOf r.1 r.2.1, r.2.2)
  | call => return some (b.inspect call, b)

end Posix

namespace FreeRtos

/-- A call with no other task around: the state mutex is free, and a call that has to wait does
not return here (`none`). -/
def soloCall (cfg : QueueConfig) (now : Duration) (c : Call) (st : QueueState) :
    Except Panic (Option (QueueOp × Result Unit × QueueState)) :=
  match validate st.buffer.messageSize c.op with
  | .error e => .ok (some (c.op, .error e, st))
  | .ok () => do
    match ← checkSection cfg now c st with
    | (st, .ret op r) => return some (op, r, st)
    | (_, .wait _) => return none

def exec (cfg : QueueConfig) (now : Duration) (scheduler : SchedulerState) (st : QueueState) :
    QueueCall → Except Panic (Option (QueueReply × QueueState))
  | .send data t => do
    let r ← soloCall cfg now ⟨.send data, WaitBudget.new t.timeout, scheduler⟩ st
    return r.map fun r => (replyOf r.1 r.2.1, r.2.2)
  | .recv buffer t => do
    let r ← soloCall cfg now ⟨.recv buffer, WaitBudget.new t.timeout, scheduler⟩ st
    return r.map fun r => (replyOf r.1 r.2.1, r.2.2)
  | .close => do
    let r ← soloCall cfg now ⟨.close, WaitBudget.new .forever, scheduler⟩ st
    return r.map fun r => (replyOf r.1 r.2.1, r.2.2)
  | call => return some (st.buffer.inspect call, st)

end FreeRtos

/-! ### What a caller sees -/

section Observe

variable {σ M : Type}

/-- The replies to a sequence of calls; a fault, a panic or a call that does not return gives
none. -/
def runCalls (exec : M → σ → QueueCall → Option (QueueReply × σ)) :
    σ → List (QueueCall × M) → Option (List QueueReply)
  | _, [] => some []
  | q, (call, m) :: calls =>
    match exec m q call with
    | none => none
    | some (reply, q) => (runCalls exec q calls).map (reply :: ·)

def observe (new : Result σ) (exec : M → σ → QueueCall → Option (QueueReply × σ))
    (calls : List (QueueCall × M)) : Option (Result (List QueueReply)) :=
  match new with
  | .error e => some (.error e)
  | .ok q => (runCalls exec q calls).map .ok

end Observe

/-- One call on the ring buffer, as all three backends answer it. -/
def ByteQueue.answer (b : ByteQueue) : QueueCall → QueueReply × ByteQueue
  | .send data t =>
    if data.length ≠ b.messageSize then (.done (.error .invalidMessageSize), b)
    else if b.closed then (.done (.error .queueClosed), b)
    else if b.len = b.capacity then
      (.done (.error (match t with | .noWait => .queueFull | .zero => .timeout)), b)
    else (.done (.ok ()), b.pushed data)
  | .recv buffer t =>
    if buffer.length ≠ b.messageSize then (.filled (.error .invalidMessageSize) buffer, b)
    else if b.len = 0 then
      (.filled (.error (if b.closed then .queueClosed
        else match t with | .noWait => .queueEmpty | .zero => .timeout)) buffer, b)
    else (.filled (.ok ()) (b.slot b.head), b.popped)
  | .close => (.done (.ok ()), b.close)
  | call => (b.inspect call, b)

theorem ByteQueue.Wf.answer {w : UsizeWidth} {b : ByteQueue} (h : b.Wf w) (call : QueueCall) :
    (b.answer call).2.Wf w := by
  cases call with
  | send data t =>
    simp only [ByteQueue.answer]
    split_ifs with hsize hclosed hfull
    · exact h
    · exact h
    · exact h
    · exact h.pushed (by simpa using hsize) (Nat.lt_of_le_of_ne h.len_le hfull)
  | recv buffer t =>
    simp only [ByteQueue.answer]
    split_ifs with hsize hempty hclosed
    · exact h
    · exact h
    · exact h
    · exact h.popped (Nat.pos_of_ne_zero hempty)
  | close => exact h.close
  | len | isEmpty | isFull => exact h

def ByteQueue.answers (b : ByteQueue) : List QueueCall → List QueueReply
  | [] => []
  | call :: calls => (b.answer call).1 :: (b.answer call).2.answers calls

/-- A backend that holds a ring buffer and answers every call as the ring buffer does gives its
replies. -/
theorem runCalls_of_simulates {σ M : Type} (exec : M → σ → QueueCall → Option (QueueReply × σ))
    (holds : σ → ByteQueue → Prop)
    (hexec : ∀ m q b call, holds q b →
      ∃ q', exec m q call = some ((b.answer call).1, q') ∧ holds q' (b.answer call).2)
    (calls : List (QueueCall × M)) {q : σ} {b : ByteQueue} (h : holds q b) :
    runCalls exec q calls = some (b.answers (calls.map Prod.fst)) := by
  induction calls generalizing q b with
  | nil => rfl
  | cons c calls ih =>
    obtain ⟨call, m⟩ := c
    obtain ⟨q', hq', hholds⟩ := hexec m q b call h
    simp only [runCalls, hq', ih hholds]
    rfl

/-! ### Each backend answers as the ring buffer does -/

section Backends

variable {w : UsizeWidth} {b : ByteQueue}

theorem mock_exec (hwf : b.Wf w) (call : QueueCall) :
    (⟨b, none⟩ : Mock.MockQueue).exec w call =
      .ok ((b.answer call).1, ⟨(b.answer call).2, none⟩) := by
  cases call with
  | send data t =>
    simp only [Mock.MockQueue.exec, Mock.MockQueue.send, Mock.MockQueue.takeSendFault,
      ByteQueue.trySend_eq hwf, ByteQueue.answer, bind, Except.bind, pure, Except.pure]
    split_ifs <;> cases t <;> rfl
  | recv buffer t =>
    simp only [Mock.MockQueue.exec, Mock.MockQueue.recv, ByteQueue.tryRecv_eq hwf,
      ByteQueue.answer, bind, Except.bind, pure, Except.pure]
    split_ifs <;> cases t <;> rfl
  | close | len | isEmpty | isFull => rfl

theorem checkedAbsDeadline_zero {timeMax : Nat} (m : Moment timeMax) :
    Posix.checkedAbsDeadline timeMax m.monotonic Duration.zero = .ok m.monotonic := by
  simp [Posix.checkedAbsDeadline, Posix.durationToTimespec, Posix.timeAdd, Duration.zero, m.sec_le,
    Nat.not_le.mpr m.nsec_lt, bind, Except.bind, pure, Except.pure]

theorem timespecGe_self (ts : Posix.Timespec) : Posix.timespecGe ts ts = true := by
  simp [Posix.timespecGe]

theorem posix_exec (cfg : Posix.QueueConfig) (hwf : b.Wf cfg.width) (m : Moment cfg.timeMax)
    (call : QueueCall) :
    Posix.exec cfg m.monotonic b call = .ok (some (b.answer call)) := by
  cases call with
  | send data t =>
    by_cases hsize : data.length = b.messageSize
    · by_cases hclosed : b.closed = true
      · simp [Posix.exec, Posix.soloCall, validate, hsize, Posix.firstSection, Posix.sendSection,
          ByteQueue.isClosed, hclosed, ByteQueue.answer, replyOf, bind, Except.bind, pure,
          Except.pure]
      · by_cases hfull : b.len = b.capacity <;> cases t <;>
          simp [Posix.exec, Posix.soloCall, validate, hsize, Posix.firstSection,
            Posix.sendSection, Posix.sendRound, ByteQueue.isClosed, hclosed, ByteQueue.answer,
            ByteQueue.trySend_eq hwf, hfull, replyOf, Brief.timeout, checkedAbsDeadline_zero m,
            timespecGe_self, bind, Except.bind, pure, Except.pure]
    · simp [Posix.exec, Posix.soloCall, validate, hsize, ByteQueue.answer, replyOf, bind,
        Except.bind, pure, Except.pure]
  | recv buffer t =>
    by_cases hsize : buffer.length = b.messageSize
    · by_cases hlen : b.len = 0
      · cases hclosed : b.closed <;> cases t <;>
          simp [Posix.exec, Posix.soloCall, validate, hsize, Posix.firstSection,
            Posix.recvSection, Posix.recvRound, ByteQueue.isClosed, ByteQueue.isEmpty, hclosed,
            ByteQueue.answer, ByteQueue.tryRecv_eq hwf, hlen, replyOf, Brief.timeout,
            checkedAbsDeadline_zero m, timespecGe_self, bind, Except.bind, pure, Except.pure]
      · cases t <;>
          simp [Posix.exec, Posix.soloCall, validate, hsize, Posix.firstSection,
            Posix.recvSection, Posix.recvRound, ByteQueue.isClosed, ByteQueue.isEmpty,
            ByteQueue.answer, ByteQueue.tryRecv_eq hwf, hlen, replyOf, Brief.timeout,
            checkedAbsDeadline_zero m, bind, Except.bind, pure, Except.pure]
    · simp [Posix.exec, Posix.soloCall, validate, hsize, ByteQueue.answer, replyOf, bind,
        Except.bind, pure, Except.pure]
  | close =>
    cases hclosed : b.closed with
    | true =>
      have hsame : b.close = b := by
        rw [ByteQueue.close, ← hclosed]
      simp [Posix.exec, Posix.soloCall, validate, Posix.firstSection, Posix.closeSection,
        ByteQueue.isClosed, hclosed, ByteQueue.answer, replyOf, hsame, bind, Except.bind, pure,
        Except.pure]
    | false =>
      simp [Posix.exec, Posix.soloCall, validate, Posix.firstSection, Posix.closeSection,
        ByteQueue.isClosed, hclosed, ByteQueue.answer, replyOf, bind, Except.bind, pure,
        Except.pure]
  | len | isEmpty | isFull => rfl

def FreeRtos.QueueState.quiet (b : ByteQueue) : FreeRtos.QueueState := ⟨b, ⟨0, 0, 0⟩, ⟨0, 0, 0⟩⟩

theorem freeRtos_exec (cfg : FreeRtos.QueueConfig) (hwf : b.Wf cfg.width) (now : Duration)
    (scheduler : FreeRtos.SchedulerState) (call : QueueCall) :
    FreeRtos.exec cfg now scheduler (.quiet b) call =
      .ok (some ((b.answer call).1, .quiet (b.answer call).2)) := by
  cases call with
  | send data t =>
    by_cases hsize : data.length = b.messageSize
    · by_cases hclosed : b.closed = true
      · simp [FreeRtos.exec, FreeRtos.soloCall, validate, hsize, FreeRtos.checkSection,
          FreeRtos.sendSection, FreeRtos.QueueState.quiet, ByteQueue.isClosed, hclosed,
          ByteQueue.answer, replyOf, bind, Except.bind, pure, Except.pure]
      · by_cases hfull : b.len = b.capacity <;> cases t <;>
          simp [FreeRtos.exec, FreeRtos.soloCall, validate, hsize, FreeRtos.checkSection,
            FreeRtos.sendSection, FreeRtos.blockOn, FreeRtos.WakeChannel.signalOne,
            FreeRtos.QueueState.quiet, ByteQueue.isClosed, hclosed, ByteQueue.answer,
            ByteQueue.trySend_eq hwf, hfull, replyOf, Brief.timeout,
            FreeRtos.WaitBudget.new, bind, Except.bind, pure, Except.pure]
    · simp [FreeRtos.exec, FreeRtos.soloCall, validate, hsize, FreeRtos.QueueState.quiet,
        ByteQueue.answer, replyOf, bind, Except.bind, pure, Except.pure]
  | recv buffer t =>
    by_cases hsize : buffer.length = b.messageSize
    · by_cases hlen : b.len = 0
      · cases hclosed : b.closed <;> cases t <;>
          simp [FreeRtos.exec, FreeRtos.soloCall, validate, hsize, FreeRtos.checkSection,
            FreeRtos.recvSection, FreeRtos.blockOn, FreeRtos.QueueState.quiet,
            ByteQueue.isClosed, hclosed, ByteQueue.answer, ByteQueue.tryRecv_eq hwf, hlen,
            replyOf, Brief.timeout, FreeRtos.WaitBudget.new, bind, Except.bind, pure,
            Except.pure]
      · cases t <;>
          simp [FreeRtos.exec, FreeRtos.soloCall, validate, hsize, FreeRtos.checkSection,
            FreeRtos.recvSection, FreeRtos.WakeChannel.signalOne, FreeRtos.QueueState.quiet,
            ByteQueue.answer, ByteQueue.tryRecv_eq hwf, hlen, replyOf, bind, Except.bind, pure,
            Except.pure]
    · simp [FreeRtos.exec, FreeRtos.soloCall, validate, hsize, FreeRtos.QueueState.quiet,
        ByteQueue.answer, replyOf, bind, Except.bind, pure, Except.pure]
  | close =>
    cases hclosed : b.closed with
    | true =>
      have hsame : b.close = b := by
        rw [ByteQueue.close, ← hclosed]
      simp [FreeRtos.exec, FreeRtos.soloCall, validate, FreeRtos.checkSection,
        FreeRtos.closeSection, FreeRtos.QueueState.quiet, ByteQueue.isClosed, hclosed,
        ByteQueue.answer, replyOf, hsame, bind, Except.bind, pure, Except.pure]
    | false =>
      simp [FreeRtos.exec, FreeRtos.soloCall, validate, FreeRtos.checkSection,
        FreeRtos.closeSection, FreeRtos.WakeChannel.broadcastWake, FreeRtos.WakeChannel.giveLoop,
        FreeRtos.QueueState.quiet, ByteQueue.isClosed, hclosed, ByteQueue.answer, replyOf, bind,
        Except.bind, pure, Except.pure]
  | len | isEmpty | isFull => rfl

end Backends

/-- The targets of the three backends: one width of `usize`, `time_t::MAX` of the POSIX one, and
the platform of the FreeRTOS one. -/
structure Targets where
  timeMax : Nat
  wakeMax : Nat
  platform : FreeRtos.Platform

namespace Targets

variable (g : Targets)

def width : UsizeWidth := g.platform.width

def posix : Posix.QueueConfig := ⟨g.width, g.timeMax⟩

def freeRtos : FreeRtos.QueueConfig := ⟨g.width, g.wakeMax⟩

/-- Nothing that a constructor asks for is refused, and the runtime of the FreeRTOS backend is
running with a lease left. -/
structure Granting (world : FreeRtos.World) : Prop where
  running : world.runtime.1 = .running
  leases : world.runtime.2 < g.platform.maxLeases
  natives : ∀ n, g.platform.grants n = true
  memory : ∀ n, g.platform.tryReserveExact n = true

variable (capacity messageSize : Nat) (calls : List (QueueCall × Moment g.timeMax))

def mockQueue : Option (Result (List QueueReply)) :=
  observe (Mock.MockQueue.new g.width (fun _ => true) (.ok ()) none capacity messageSize)
    (fun _ q call => (q.exec g.width call).toOption) calls

def posixQueue : Option (Result (List QueueReply)) :=
  observe (Posix.queueNew g.width (fun _ => true) (.ok ()) (.ok ()) (.ok ()) (.ok ()) capacity
      messageSize)
    (fun m b call => (Posix.exec g.posix m.monotonic b call).toOption.join) calls

def freeRtosQueue (world : FreeRtos.World) : Option (Result (List QueueReply)) :=
  match FreeRtos.queueNew g.platform capacity messageSize world with
  | none => none
  | some (answer, _) =>
    observe (answer.map fun parts => FreeRtos.QueueState.quiet parts.1)
      (fun m st call => (FreeRtos.exec g.freeRtos m.clock m.scheduler st call).toOption.join) calls

/-- The error of `ByteQueue::new`, or the answers of the ring buffer. -/
def ringBuffer : Result (List QueueReply) :=
  (ByteQueue.new g.width (fun _ => true) capacity messageSize).map fun b =>
    b.answers (calls.map Prod.fst)

variable {g capacity messageSize calls}

private theorem new_of_zero {w : UsizeWidth} {reserve : Nat → Bool} {capacity messageSize : Nat}
    (h : capacity = 0 ∨ messageSize = 0) :
    ByteQueue.new w reserve capacity messageSize = .error .invalidParameter := by
  rw [ByteQueue.new, if_pos h]

theorem mockQueue_eq :
    g.mockQueue capacity messageSize calls = some (g.ringBuffer capacity messageSize calls) := by
  unfold mockQueue ringBuffer Mock.MockQueue.new
  by_cases hc : capacity = 0
  · simp [hc, new_of_zero, observe, Except.map, bind, Except.bind]
  by_cases hm : messageSize = 0
  · simp [hc, hm, new_of_zero, observe, Except.map, bind, Except.bind]
  cases hnew : ByteQueue.new g.width (fun _ => true) capacity messageSize with
  | error e => simp [hc, hm, observe, Except.map, bind, Except.bind]
  | ok b =>
    have hrun := runCalls_of_simulates
      (fun (_ : Moment g.timeMax) q call => (Mock.MockQueue.exec g.width q call).toOption)
      (fun q b => q = ⟨b, none⟩ ∧ b.Wf g.width)
      (fun _ q b call h => by
        obtain ⟨rfl, hwf⟩ := h
        exact ⟨_, by rw [mock_exec hwf]; rfl, rfl, hwf.answer call⟩)
      calls ⟨rfl, ByteQueue.new_wf hnew⟩
    simp [hc, hm, observe, hrun, Except.map, bind, Except.bind, pure, Except.pure]

theorem posixQueue_eq :
    g.posixQueue capacity messageSize calls = some (g.ringBuffer capacity messageSize calls) := by
  unfold posixQueue ringBuffer Posix.queueNew
  by_cases hc : capacity = 0
  · simp [hc, new_of_zero, observe, Except.map, bind, Except.bind]
  by_cases hm : messageSize = 0
  · simp [hc, hm, new_of_zero, observe, Except.map, bind, Except.bind]
  cases hnew : ByteQueue.new g.width (fun _ => true) capacity messageSize with
  | error e => simp [hc, hm, observe, Except.map, bind, Except.bind]
  | ok b =>
    have hrun := runCalls_of_simulates
      (fun (m : Moment g.timeMax) b call =>
        (Posix.exec g.posix m.monotonic b call).toOption.join)
      (fun b' b => b' = b ∧ b.Wf g.width)
      (fun m b' b call h => by
        obtain ⟨rfl, hwf⟩ := h
        have hexec := posix_exec g.posix hwf m call
        exact ⟨_, by rw [hexec]; rfl, rfl, hwf.answer call⟩)
      calls ⟨rfl, ByteQueue.new_wf hnew⟩
    simp [hc, hm, observe, hrun, Except.map, bind, Except.bind]

theorem freeRtosQueue_eq {world : FreeRtos.World} (h : g.Granting world) :
    g.freeRtosQueue capacity messageSize calls world =
      some (g.ringBuffer capacity messageSize calls) := by
  have hreserve : g.platform.tryReserveExact = fun _ => true := funext h.memory
  obtain ⟨⟨state, count⟩, capabilities, nextHandle, liveCount, slot, registry, natives, creations,
    dropped, ran⟩ := world
  obtain ⟨hstate, hleases, hnatives, hmemory⟩ := h
  simp only at hstate hleases
  subst hstate
  unfold freeRtosQueue ringBuffer FreeRtos.queueNew
  by_cases hc : capacity = 0
  · simp [hc, new_of_zero, observe, Except.map, Fallible.bind, Fallible.lift]
  by_cases hm : messageSize = 0
  · simp [hc, hm, new_of_zero, observe, Except.map, Fallible.bind, Fallible.lift]
  rw [hreserve]
  simp only [width]
  cases hnew : ByteQueue.new g.platform.width (fun _ => true) capacity messageSize with
  | error e => simp [hc, hm, observe, Except.map, Fallible.bind, Fallible.lift]
  | ok b =>
    have hrun := runCalls_of_simulates
      (fun (m : Moment g.timeMax) st call =>
        (FreeRtos.exec g.freeRtos m.clock m.scheduler st call).toOption.join)
      (fun st b => st = .quiet b ∧ b.Wf g.width)
      (fun m st b call h => by
        obtain ⟨rfl, hwf⟩ := h
        have hexec := freeRtos_exec g.freeRtos hwf m.clock m.scheduler call
        exact ⟨_, by rw [hexec]; rfl, rfl, hwf.answer call⟩)
      calls ⟨rfl, ByteQueue.new_wf hnew⟩
    simp [hc, hm, observe, hrun, Except.map, Fallible.bind, Fallible.lift, Fallible.owning,
      Fallible.onError, FreeRtos.acquireObject, Runtime.lifecycleTable, hleases, FreeRtos.create,
      hnatives, Fallible.pure]

end Targets

/-- For every capacity, message size and sequence of calls without a wait, whatever the clocks
and the scheduler say: the three queues show the same. -/
theorem queues_observationally_equal (g : Targets) (world : FreeRtos.World)
    (h : g.Granting world) (capacity messageSize : Nat)
    (calls : List (QueueCall × Moment g.timeMax)) :
    ∃ seen, g.mockQueue capacity messageSize calls = some seen ∧
      g.posixQueue capacity messageSize calls = some seen ∧
      g.freeRtosQueue capacity messageSize calls world = some seen :=
  ⟨_, Targets.mockQueue_eq, Targets.posixQueue_eq, Targets.freeRtosQueue_eq h⟩

def generousTargets : Targets := ⟨2 ^ 63 - 1, 2 ^ 32 - 1, FreeRtos.generousPlatform⟩

theorem generousTargets_granting : generousTargets.Granting FreeRtos.freshWorld :=
  ⟨rfl, by decide, fun _ => rfl, fun _ => rfl⟩

def drainedCalls : List (QueueCall × Moment generousTargets.timeMax) :=
  [.send [7] .noWait, .send [8] .zero, .recv [0] .noWait, .close, .recv [0] .zero, .isEmpty].map
    fun call => (call, ⟨⟨0, 0⟩, by decide, by decide, Duration.zero, .notStarted⟩)

theorem queues_observationally_equal_drained :
    ∃ seen, generousTargets.mockQueue 1 1 drainedCalls = some seen ∧
      generousTargets.posixQueue 1 1 drainedCalls = some seen ∧
      generousTargets.freeRtosQueue 1 1 drainedCalls FreeRtos.freshWorld = some seen :=
  queues_observationally_equal generousTargets FreeRtos.freshWorld generousTargets_granting 1 1
    drainedCalls

end OsalRust
