import OsalRust.FreeRtos.Queue
import OsalRust.Portable.TickTime

/-!
# The FreeRTOS wait engine in real time

The blocking calls over an ordered field of instants, in nanoseconds. The tick interrupts come
at fixed instants, `FreeRtosClock::now` shows the last of them, and a native take of `n` ticks
that times out returns at the `n`-th interrupt after its call. Between two operations of the
code the scheduler may keep the task off the processor for any time, and what the native object
answers is up to the other tasks: each call is the relation between the instant it begins, what
it returns and the instant it returns.
-/

namespace OsalRust.FreeRtos

variable {K : Type} [Field K] [LinearOrder K] [IsStrictOrderedRing K] [FloorSemiring K]

/-- What the port fixes: `tick_rate_hz`, `tick_bits` and `max_finite_delay_ticks`. -/
structure TickSource where
  rateHz : Nat
  tickBits : Nat
  maxFiniteDelayTicks : Nat
  rate_pos : 0 < rateHz
  rate_lt : rateHz < 2 ^ 32
  bits_valid : tickBits = 16 ∨ tickBits = 32 ∨ tickBits = 64
  delay_pos : 0 < maxFiniteDelayTicks
  delay_lt : maxFiniteDelayTicks < 2 ^ 64

namespace TickSource

def ticksAt (c : TickSource) (t : K) : Nat := ⌊t * c.rateHz / nanosPerSec⌋₊

def tickTime (c : TickSource) (ticks : Nat) : K := ticks * nanosPerSec / c.rateHz

/-- `FreeRtosClock::now`, on the coherent snapshot of an instant. -/
def now (c : TickSource) (t : K) : Result Duration :=
  snapshotToDuration ⟨c.ticksAt t / 2 ^ c.tickBits, c.ticksAt t % 2 ^ c.tickBits⟩
    ⟨c.rateHz, c.tickBits⟩

/-- The ticks of one native take of `wait_deadline_loop`: the remaining time, at most the longest
payload, and the guard tick. -/
def nativeTicks (c : TickSource) (deadline now : Duration) : Result Nat :=
  match durationToTicksCeil (deadline.saturatingSub now) c.rateHz with
  | .error _ => .error .overflow
  | .ok payloadTicks => .ok (min payloadTicks (c.maxFiniteDelayTicks - 1) + 1)

end TickSource

inductive WaitOutcome where
  | acquired
  | unavailable
  deriving DecidableEq

/-- `wait_deadline_loop`: the opportunistic take, the reading of the clock at `r`, and the native
take that begins at `b` and, when it times out, is followed by the next round at `w`. -/
inductive DeadlineLoop (c : TickSource) (deadline : Duration) : K → Result WaitOutcome → K → Prop
  | immediate {t t' : K} (h : t ≤ t') : DeadlineLoop c deadline t (.ok .acquired) t'
  | expired {t r t' : K} {now : Duration} (htr : t ≤ r) (hn : c.now r = .ok now)
      (hd : deadline ≤ now) (hrt : r ≤ t') : DeadlineLoop c deadline t (.ok .unavailable) t'
  | overflow {t r t' : K} {now : Duration} {e : Error} (htr : t ≤ r) (hn : c.now r = .ok now)
      (hd : ¬ deadline ≤ now) (hk : c.nativeTicks deadline now = .error e) (hrt : r ≤ t') :
      DeadlineLoop c deadline t (.error e) t'
  | taken {t r t' : K} {now : Duration} {n : Nat} (htr : t ≤ r) (hn : c.now r = .ok now)
      (hd : ¬ deadline ≤ now) (hk : c.nativeTicks deadline now = .ok n) (hrt : r ≤ t') :
      DeadlineLoop c deadline t (.ok .acquired) t'
  | chunk {t r b w t' : K} {now : Duration} {n : Nat} {o : Result WaitOutcome} (htr : t ≤ r)
      (hn : c.now r = .ok now) (hd : ¬ deadline ≤ now)
      (hk : c.nativeTicks deadline now = .ok n) (hrb : r ≤ b)
      (hw : c.tickTime (c.ticksAt b + n) ≤ w) (h : DeadlineLoop c deadline w o t') :
      DeadlineLoop c deadline t o t'

/-- The scheduler check of `wait_once`, skipped on a prepared budget. -/
def entryCheck (scheduler : SchedulerState) (prepared : Bool) : Result Unit :=
  if prepared then .ok () else ensureBlockingAllowed scheduler

/-- `WaitBudget::wait_once`, with the budget after it. `wait_forever` returns only with the
object. -/
inductive WaitOnce (c : TickSource) (scheduler : SchedulerState) :
    WaitBudget → K → Result WaitOutcome → WaitBudget → K → Prop
  | noWait {t t' : K} (o : WaitOutcome) (h : t ≤ t') :
      WaitOnce c scheduler .noWait t (.ok o) .noWait t'
  | zero {t t' : K} (o : WaitOutcome) (h : t ≤ t') :
      WaitOnce c scheduler .zero t (.ok o) .zero t'
  | refused {t t' : K} {d : Duration} {deadline : Option Duration} {prepared : Bool} {e : Error}
      (he : entryCheck scheduler prepared = .error e) (h : t ≤ t') :
      WaitOnce c scheduler (.finite d deadline prepared) t (.error e)
        (.finite d deadline prepared) t'
  | overflow {t r t' : K} {d : Duration} {prepared : Bool} {now : Duration}
      (he : entryCheck scheduler prepared = .ok ()) (htr : t ≤ r) (hn : c.now r = .ok now)
      (ha : now.checkedAdd d = none) (hrt : r ≤ t') :
      WaitOnce c scheduler (.finite d none prepared) t (.error .overflow)
        (.finite d none prepared) t'
  | first {t r t' : K} {d : Duration} {prepared : Bool} {now deadline : Duration}
      {o : Result WaitOutcome} (he : entryCheck scheduler prepared = .ok ()) (htr : t ≤ r)
      (hn : c.now r = .ok now) (ha : now.checkedAdd d = some deadline)
      (hl : DeadlineLoop c deadline r o t') :
      WaitOnce c scheduler (.finite d none prepared) t o (.finite d (some deadline) prepared) t'
  | again {t t' : K} {d : Duration} {prepared : Bool} {deadline : Duration}
      {o : Result WaitOutcome} (he : entryCheck scheduler prepared = .ok ())
      (hl : DeadlineLoop c deadline t o t') :
      WaitOnce c scheduler (.finite d (some deadline) prepared) t o
        (.finite d (some deadline) prepared) t'
  | refusedForever {t t' : K} {prepared : Bool} {e : Error}
      (he : entryCheck scheduler prepared = .error e) (h : t ≤ t') :
      WaitOnce c scheduler (.forever prepared) t (.error e) (.forever prepared) t'
  | forever {t t' : K} {prepared : Bool} (he : entryCheck scheduler prepared = .ok ())
      (h : t ≤ t') :
      WaitOnce c scheduler (.forever prepared) t (.ok .acquired) (.forever prepared) t'

def WaitNative (c : TickSource) (scheduler : SchedulerState) (timeout : Timeout) (t : K)
    (o : Result WaitOutcome) (t' : K) : Prop :=
  ∃ budget, WaitOnce c scheduler (WaitBudget.new timeout) t o budget t'

/-! ### The calls -/

def acquireResult : WaitOutcome → Result Unit
  | .acquired => .ok ()
  | .unavailable => .error .timeout

def lockResult : Timeout → WaitOutcome → Result Unit
  | _, .acquired => .ok ()
  | .noWait, .unavailable => .error .lockFailed
  | _, .unavailable => .error .timeout

/-- `acquire` of the counting and of the binary semaphore. -/
def SemaphoreAcquire (c : TickSource) (scheduler : SchedulerState) (timeout : Timeout) (t : K)
    (r : Result Unit) (t' : K) : Prop :=
  ∃ o, WaitNative c scheduler timeout t o t' ∧ r = o.bind acquireResult

def MutexLock (c : TickSource) (scheduler : SchedulerState) (timeout : Timeout) (t : K)
    (r : Result Unit) (t' : K) : Prop :=
  ∃ o, WaitNative c scheduler timeout t o t' ∧ r = o.bind (lockResult timeout)

/-- The loop of `send` and `recv`. Each critical section finds the state `st` that the other
tasks left, of a queue of this message size; the waits between the sections share one budget. -/
inductive QueueRounds (c : TickSource) (cfg : QueueConfig) (messageSize : Nat) :
    Call → K → Result Unit → K → Prop
  | lockFailed {call : Call} {t t' : K} {e : Error}
      (hl : ensureBlockingAllowed call.scheduler = .error e) (h : t ≤ t') :
      QueueRounds c cfg messageSize call t (.error e) t'
  | decided {call : Call} {t s t' : K} {now : Duration} {st st' : QueueState} {op : QueueOp}
      {r : Result Unit} (hts : t ≤ s) (hn : c.now s = .ok now)
      (hwf : st.buffer.Wf cfg.width) (hm : st.buffer.messageSize = messageSize)
      (hs : checkSection cfg now call st = .ok (st', .ret op r)) (hst : s ≤ t') :
      QueueRounds c cfg messageSize call t r t'
  | waitFailed {call call' : Call} {t s t' : K} {now : Duration} {st st' : QueueState} {e : Error}
      {budget : WaitBudget} (hts : t ≤ s) (hn : c.now s = .ok now)
      (hwf : st.buffer.Wf cfg.width) (hm : st.buffer.messageSize = messageSize)
      (hs : checkSection cfg now call st = .ok (st', .wait call'))
      (hw : WaitOnce c call.scheduler call'.budget s (.error e) budget t') :
      QueueRounds c cfg messageSize call t (.error e) t'
  | relockFailed {call call' : Call} {t s w t' : K} {now : Duration} {st st' : QueueState}
      {e : Error} {o : WaitOutcome} {budget : WaitBudget} (hts : t ≤ s) (hn : c.now s = .ok now)
      (hwf : st.buffer.Wf cfg.width) (hm : st.buffer.messageSize = messageSize)
      (hs : checkSection cfg now call st = .ok (st', .wait call'))
      (hw : WaitOnce c call.scheduler call'.budget s (.ok o) budget w)
      (hl : ensureBlockingAllowed call.scheduler = .error e) (hwt : w ≤ t') :
      QueueRounds c cfg messageSize call t (.error e) t'
  | woken {call call' : Call} {t s w x t' : K} {now : Duration} {st st' su su' : QueueState}
      {d : Direction} {r : Result Unit} {budget : WaitBudget} (hts : t ≤ s)
      (hn : c.now s = .ok now) (hwf : st.buffer.Wf cfg.width)
      (hm : st.buffer.messageSize = messageSize)
      (hs : checkSection cfg now call st = .ok (st', .wait call'))
      (hw : WaitOnce c call.scheduler call'.budget s (.ok .acquired) budget w)
      (hd : direction call.op = some d) (hc : confirmSection d su = .ok su') (hwx : w ≤ x)
      (h : QueueRounds c cfg messageSize { call' with budget } x r t') :
      QueueRounds c cfg messageSize call t r t'
  | raced {call call' : Call} {t s w x t' : K} {now : Duration} {st st' su su' : QueueState}
      {d : Direction} {r : Result Unit} {budget : WaitBudget} (hts : t ≤ s)
      (hn : c.now s = .ok now) (hwf : st.buffer.Wf cfg.width)
      (hm : st.buffer.messageSize = messageSize)
      (hs : checkSection cfg now call st = .ok (st', .wait call'))
      (hw : WaitOnce c call.scheduler call'.budget s (.ok .unavailable) budget w)
      (hd : direction call.op = some d) (hc : reconcileSection d su = .ok (su', none))
      (hwx : w ≤ x) (h : QueueRounds c cfg messageSize { call' with budget } x r t') :
      QueueRounds c cfg messageSize call t r t'
  | gaveUp {call call' : Call} {t s w t' : K} {now : Duration} {st st' su su' : QueueState}
      {d : Direction} {e : Error} {budget : WaitBudget} (hts : t ≤ s) (hn : c.now s = .ok now)
      (hwf : st.buffer.Wf cfg.width) (hm : st.buffer.messageSize = messageSize)
      (hs : checkSection cfg now call st = .ok (st', .wait call'))
      (hw : WaitOnce c call.scheduler call'.budget s (.ok .unavailable) budget w)
      (hd : direction call.op = some d) (hc : reconcileSection d su = .ok (su', some e))
      (hwt : w ≤ t') : QueueRounds c cfg messageSize call t (.error e) t'

inductive QueueTransfer (c : TickSource) (cfg : QueueConfig) (messageSize : Nat)
    (scheduler : SchedulerState) (op : QueueOp) (timeout : Timeout) : K → Result Unit → K → Prop
  | invalid {t t' : K} {e : Error} (hv : validate messageSize op = .error e) (h : t ≤ t') :
      QueueTransfer c cfg messageSize scheduler op timeout t (.error e) t'
  | rounds {t t' : K} {r : Result Unit} (hv : validate messageSize op = .ok ())
      (h : QueueRounds c cfg messageSize ⟨op, WaitBudget.new timeout, scheduler⟩ t r t') :
      QueueTransfer c cfg messageSize scheduler op timeout t r t'

/-- `FreeRtosTask::join`. `finished` is what one reading of `finished_code` finds: after a taken
completion bit a reading without a code is a panic. -/
inductive TaskJoin (c : TickSource) (scheduler : SchedulerState) (timeout : Timeout) :
    K → Result ExitCode → K → Prop
  | self {t t' : K} (h : t ≤ t') : TaskJoin c scheduler timeout t (.error .busy) t'
  | cached {t t' : K} (code : ExitCode) (h : t ≤ t') : TaskJoin c scheduler timeout t (.ok code) t'
  | polled {t t' : K} (hp : timeout = .noWait ∨ timeout = .after Duration.zero) (h : t ≤ t') :
      TaskJoin c scheduler timeout t (.error .timeout) t'
  | unprepared {t r t' : K} {now : Duration} {e : Error} (htr : t ≤ r) (hn : c.now r = .ok now)
      (hp : timeout ≠ .noWait ∧ timeout ≠ .after Duration.zero)
      (he : (WaitBudget.new timeout).prepareBlocking scheduler now = .error e) (hrt : r ≤ t') :
      TaskJoin c scheduler timeout t (.error e) t'
  | waited {t r t' : K} {now : Duration} {budget budget' : WaitBudget} {o : Result WaitOutcome}
      (finished : Option ExitCode) (htr : t ≤ r) (hn : c.now r = .ok now)
      (hp : timeout ≠ .noWait ∧ timeout ≠ .after Duration.zero)
      (he : (WaitBudget.new timeout).prepareBlocking scheduler now = .ok budget)
      (hw : WaitOnce c scheduler budget r o budget' t') (hf : o = .ok .acquired → finished ≠ none) :
      TaskJoin c scheduler timeout t
        (o.bind fun _ => finished.elim (.error .timeout) Except.ok) t'

end OsalRust.FreeRtos
