import OsalRust.FreeRtos.WaitLaws
import OsalRust.Posix.Semaphore
import OsalRust.Queue.Equivalence

/-!
# Calls that need not wait

A blocking call on an object that is available, with no other thread around and the scheduler
running. The backends place the deadline, the scheduler check and the first attempt each in an
order of their own: the FreeRTOS queue and the POSIX semaphore try first, the other calls set
their deadline before they try, and fail where it cannot be represented.
-/

namespace OsalRust

open Framework

namespace FreeRtos

/-- `wait_once` at clock value `now`, on a native object that is available or stays so no longer:
a wait that does not end at once does not return here (`none`). -/
def soloWaitOnce (scheduler : SchedulerState) (now : Duration) (available : Bool) :
    WaitBudget → Option (Result WaitOutcome)
  | .noWait => some (.ok (if available then .acquired else .unavailable))
  | .zero => some (.ok (if available then .acquired else .unavailable))
  | .finite d deadline prepared =>
    match entryCheck scheduler prepared with
    | .error e => some (.error e)
    | .ok () =>
      match deadline.or (now.checkedAdd d) with
      | none => some (.error .overflow)
      | some _ => if available then some (.ok .acquired) else none
  | .forever prepared =>
    match entryCheck scheduler prepared with
    | .error e => some (.error e)
    | .ok () => if available then some (.ok .acquired) else none

/-- `acquire` of a semaphore with `count` permits, and the permits after it. -/
def soloAcquire (scheduler : SchedulerState) (now : Duration) (timeout : Timeout) (count : Nat) :
    Option (Result Unit × Nat) :=
  (soloWaitOnce scheduler now (decide (0 < count)) (WaitBudget.new timeout)).map fun o =>
    (o.bind acquireResult, if o = .ok .acquired then count - 1 else count)

def soloLock (scheduler : SchedulerState) (now : Duration) (timeout : Timeout) (held : Bool) :
    Option (Result Unit × Bool) :=
  (soloWaitOnce scheduler now (!held) (WaitBudget.new timeout)).map fun o =>
    (o.bind (lockResult timeout), held || decide (o = .ok .acquired))

end FreeRtos

namespace Posix

/-- Who holds an error-checking mutex, as its caller sees it. -/
inductive MutexOwner where
  | free
  | caller
  | other
  deriving DecidableEq

/-- `pthread_mutex_trylock`: `EBUSY` also for the owner. -/
def tryLock : MutexOwner → Result Unit × MutexOwner
  | .free => (.ok (), .caller)
  | o => (.error .lockFailed, o)

/-- `pthread_mutex_lock`: `EDEADLK` for the owner, and a lock of another thread does not end
here (`none`). -/
def lock : MutexOwner → Option (Result Unit × MutexOwner)
  | .free => some (.ok (), .caller)
  | .caller => some (.error .lockFailed, .caller)
  | .other => none

/-- `timed_lock`: without another thread a lock that is taken stays so until the deadline. -/
def timedLock (timeMax : Nat) (now : Timespec) (d : Duration) (o : MutexOwner) :
    Result Unit × MutexOwner :=
  match checkedAbsDeadline timeMax now d with
  | .error e => (.error e, o)
  | .ok _ =>
    match tryLock o with
    | (.error .lockFailed, o) => (.error .timeout, o)
    | r => r

def soloLock (timeMax : Nat) (now : Timespec) (timeout : Timeout) (o : MutexOwner) :
    Option (Result Unit × MutexOwner) :=
  match timeout with
  | .noWait => some (tryLock o)
  | .after d =>
    if d = Duration.zero then
      match tryLock o with
      | (.error .lockFailed, o) => some (.error .timeout, o)
      | r => some r
    else some (timedLock timeMax now d o)
  | .forever => lock o

/-- `acquire` without another thread: a wait does not return here. -/
def soloAcquire (timeMax : Nat) (now : Timespec) (timeout : Timeout)
    (st : CountingSemaphoreState) : Option (Result Unit × CountingSemaphoreState) :=
  match Semaphore.acquireSection timeMax now timeout st with
  | (st, .ret r) => some (r, st)
  | (_, .wait _) => none

/-- `send` and `recv` without another thread, with what they do to the condition variables. -/
def soloTransfer (cfg : QueueConfig) (now : Timespec) (timeout : Timeout) (op : QueueOp)
    (b : ByteQueue) : Option (Result Unit × QueueOp × ByteQueue × Wake) :=
  match validate b.messageSize op with
  | .error e => some (.error e, op, b, .none)
  | .ok () =>
    match firstSection cfg now ⟨op, timeout⟩ b with
    | .ok (b, .ret op r, wake) => some (r, op, b, wake)
    | _ => none

end Posix

/-- The transfer of a message in a direction: `send`, or `recv` into a buffer. -/
def transferOp : Direction → Message → QueueOp
  | .sender, data => .send data
  | .receiver, buffer => .recv buffer

inductive BlockingCall where
  | freeRtosSemaphore (count : Nat)
  | freeRtosMutex (held : Bool)
  | freeRtosQueue (cfg : FreeRtos.QueueConfig) (dir : Direction) (message : Message)
      (st : FreeRtos.QueueState)
  | posixSemaphore (st : CountingSemaphoreState)
  | posixMutex (owner : Posix.MutexOwner)
  | posixQueue (width : UsizeWidth) (dir : Direction) (message : Message) (b : ByteQueue)

inductive Effect where
  | permits (count : Nat)
  | held (held : Bool)
  | freeRtosQueue (op : QueueOp) (st : FreeRtos.QueueState)
  | posixPermits (st : CountingSemaphoreState)
  | posixHeld (owner : Posix.MutexOwner)
  | posixQueue (op : QueueOp) (b : ByteQueue) (wake : Posix.Wake)

variable {timeMax : Nat}

def BlockingCall.run (m : Moment timeMax) (timeout : Timeout) :
    BlockingCall → Option (Result Unit × Effect)
  | .freeRtosSemaphore count =>
    (FreeRtos.soloAcquire m.scheduler m.clock timeout count).map fun r => (r.1, .permits r.2)
  | .freeRtosMutex held =>
    (FreeRtos.soloLock m.scheduler m.clock timeout held).map fun r => (r.1, .held r.2)
  | .freeRtosQueue cfg dir message st =>
    match FreeRtos.soloCall cfg m.clock
      ⟨transferOp dir message, FreeRtos.WaitBudget.new timeout, m.scheduler⟩ st with
    | .ok (some (op, r, st)) => some (r, .freeRtosQueue op st)
    | _ => none
  | .posixSemaphore st =>
    (Posix.soloAcquire timeMax m.monotonic timeout st).map fun r => (r.1, .posixPermits r.2)
  | .posixMutex owner =>
    (Posix.soloLock timeMax m.monotonic timeout owner).map fun r => (r.1, .posixHeld r.2)
  | .posixQueue width dir message b =>
    (Posix.soloTransfer ⟨width, timeMax⟩ m.monotonic timeout (transferOp dir message) b).map fun r =>
      (r.1, .posixQueue r.2.1 r.2.2.1 r.2.2.2)

/-- The call looks at its object before it sets a deadline. -/
def BlockingCall.triesFirst : BlockingCall → Bool
  | .freeRtosQueue .. | .posixSemaphore _ => true
  | _ => false

/-- The deadline of the call can be represented: on the tick clock, or in a `timespec`. -/
def BlockingCall.deadlineFits (m : Moment timeMax) (d : Duration) : BlockingCall → Bool
  | .freeRtosSemaphore _ | .freeRtosMutex _ | .freeRtosQueue .. => (m.clock.checkedAdd d).isSome
  | .posixSemaphore _ | .posixMutex _ | .posixQueue .. =>
    (Posix.checkedAbsDeadline timeMax m.monotonic d).isOk

/-- The call with this timeout can be answered at once: it does not set a deadline before it
tries, or it can set it. -/
def BlockingCall.Unhindered (m : Moment timeMax) (timeout : Timeout) (req : BlockingCall) : Prop :=
  ∀ d, timeout = .after d → d ≠ Duration.zero →
    req.triesFirst = true ∨ req.deadlineFits m d = true

/-! ### The engine of the FreeRTOS semaphores and mutexes -/

namespace FreeRtos

theorem soloWaitOnce_run {K : Type} [Field K] [LinearOrder K] [IsStrictOrderedRing K]
    [FloorSemiring K] {c : TickSource} {scheduler : SchedulerState} {now : Duration}
    {available : Bool} {budget : WaitBudget} {o : Result WaitOutcome} {t : K}
    (hn : c.now t = .ok now) (h : soloWaitOnce scheduler now available budget = some o) :
    ∃ budget', WaitOnce c scheduler budget t o budget' t := by
  match budget with
  | .noWait =>
    obtain rfl := Option.some.inj h
    exact ⟨_, .noWait _ le_rfl⟩
  | .zero =>
    obtain rfl := Option.some.inj h
    exact ⟨_, .zero _ le_rfl⟩
  | .finite d none prepared =>
    cases he : entryCheck scheduler prepared with
    | error e =>
      simp only [soloWaitOnce, he, Option.some.injEq] at h
      subst h
      exact ⟨_, .refused he le_rfl⟩
    | ok u =>
      cases ha : now.checkedAdd d with
      | none =>
        simp only [soloWaitOnce, he, ha, Option.none_or, Option.some.injEq] at h
        subst h
        exact ⟨_, .overflow he le_rfl hn ha le_rfl⟩
      | some deadline =>
        cases available with
        | false => simp [soloWaitOnce, he, ha] at h
        | true =>
          simp only [soloWaitOnce, he, ha, Option.none_or, if_true, Option.some.injEq] at h
          subst h
          exact ⟨_, .first he le_rfl hn ha (.immediate le_rfl)⟩
  | .finite d (some deadline) prepared =>
    cases he : entryCheck scheduler prepared with
    | error e =>
      simp only [soloWaitOnce, he, Option.some.injEq] at h
      subst h
      exact ⟨_, .refused he le_rfl⟩
    | ok u =>
      cases available with
      | false => simp [soloWaitOnce, he] at h
      | true =>
        simp only [soloWaitOnce, he, Option.some_or, if_true, Option.some.injEq] at h
        subst h
        exact ⟨_, .again he (.immediate le_rfl)⟩
  | .forever prepared =>
    cases he : entryCheck scheduler prepared with
    | error e =>
      simp only [soloWaitOnce, he, Option.some.injEq] at h
      subst h
      exact ⟨_, .refusedForever he le_rfl⟩
    | ok u =>
      cases available with
      | false => simp [soloWaitOnce, he] at h
      | true =>
        simp only [soloWaitOnce, he, if_true, Option.some.injEq] at h
        subst h
        exact ⟨_, .forever he le_rfl⟩

theorem soloWaitOnce_available {now : Duration} {timeout : Timeout}
    (h : ∀ d, timeout = .after d → d ≠ Duration.zero → (now.checkedAdd d).isSome = true) :
    soloWaitOnce .running now true (WaitBudget.new timeout) = some (.ok .acquired) := by
  cases timeout with
  | noWait => rfl
  | forever => rfl
  | after d =>
    by_cases hd : d = Duration.zero
    · rw [WaitBudget.new, if_pos hd]
      rfl
    · obtain ⟨deadline, ha⟩ := Option.isSome_iff_exists.1 (h d rfl hd)
      rw [WaitBudget.new, if_neg hd]
      simp [soloWaitOnce, entryCheck, ensureBlockingAllowed, ha]

theorem soloWaitOnce_overflow {now d : Duration} (available : Bool) (hd : d ≠ Duration.zero)
    (h : now.checkedAdd d = none) :
    soloWaitOnce .running now available (WaitBudget.new (.after d)) = some (.error .overflow) := by
  rw [WaitBudget.new, if_neg hd]
  simp [soloWaitOnce, entryCheck, ensureBlockingAllowed, h]

private theorem blockOn_not_granted {now : Duration} {c : Call} {st st' : QueueState}
    {d : Direction} {unavailable : Error} {op : QueueOp} :
    blockOn now c st d unavailable ≠ .ok (st', .ret op (.ok ())) := by
  unfold blockOn
  split
  · exact nofun
  · exact nofun
  · split
    · exact nofun
    · cases hreg : (st.channel d).register d <;>
        simp [bind, Except.bind, pure, Except.pure]

private theorem sendSection_granted {cfg : QueueConfig} {now : Duration} {c : Call}
    {data : Message} {st st' : QueueState} {op : QueueOp} (b : WaitBudget)
    (h : sendSection cfg now c data st = .ok (st', .ret op (.ok ()))) :
    sendSection cfg now { c with budget := b } data st = .ok (st', .ret op (.ok ())) := by
  unfold sendSection at h ⊢
  split at h
  · cases h
  · rename_i hopen
    rw [if_neg hopen]
    split at h
    · cases h
    · exact h
    · exact absurd h blockOn_not_granted
    · cases h

private theorem recvSection_granted {cfg : QueueConfig} {now : Duration} {c : Call}
    {out : Message} {st st' : QueueState} {op : QueueOp} (b : WaitBudget)
    (h : recvSection cfg now c out st = .ok (st', .ret op (.ok ()))) :
    recvSection cfg now { c with budget := b } out st = .ok (st', .ret op (.ok ())) := by
  unfold recvSection at h ⊢
  split at h
  · cases h
  · exact h
  · split at h
    · cases h
    · exact absurd h blockOn_not_granted
  · cases h

theorem soloCall_granted {cfg : QueueConfig} {now : Duration} {dir : Direction} {message : Message}
    {b : WaitBudget} {s : SchedulerState} {op : QueueOp} {st st' : QueueState} (b' : WaitBudget)
    (h : soloCall cfg now ⟨transferOp dir message, b, s⟩ st = .ok (some (op, .ok (), st'))) :
    soloCall cfg now ⟨transferOp dir message, b', s⟩ st = .ok (some (op, .ok (), st')) := by
  unfold soloCall at h ⊢
  cases hv : validate st.buffer.messageSize (transferOp dir message) with
  | error e =>
    simp only [hv] at h
    cases h
  | ok u =>
    simp only [hv, bind, Except.bind] at h ⊢
    cases hs : checkSection cfg now ⟨transferOp dir message, b, s⟩ st with
    | error p => simp [hs] at h
    | ok r =>
      obtain ⟨su, next⟩ := r
      rw [hs] at h
      cases next with
      | wait c => cases h
      | ret op' r =>
        cases h
        have hs' : checkSection cfg now ⟨transferOp dir message, b', s⟩ st =
            .ok (st', .ret op (.ok ())) := by
          cases dir with
          | sender => exact sendSection_granted b' hs
          | receiver => exact recvSection_granted b' hs
        rw [hs']
        rfl

end FreeRtos

/-! ### The POSIX queue -/

namespace Posix

theorem error_of_not_isOk {now : Timespec} {d : Duration} {timeMax : Nat}
    (h : (checkedAbsDeadline timeMax now d).isOk = false) :
    ∃ e, checkedAbsDeadline timeMax now d = .error e := by
  cases hd : checkedAbsDeadline timeMax now d with
  | error e => exact ⟨e, rfl⟩
  | ok deadline =>
    rw [hd] at h
    cases h

private theorem tryRecv_ok_len {w : UsizeWidth} {b b' : ByteQueue} {out out' : Message} {n : Nat}
    (h : b.tryRecv w out = .ok (.ok n, b', out')) : b.isEmpty = false := by
  by_contra hempty
  have hlen : b.len = 0 := by simpa [ByteQueue.isEmpty] using hempty
  unfold ByteQueue.tryRecv at h
  cases hd : b.debugAsserts w with
  | error f => simp [hd, bind, Except.bind] at h
  | ok u =>
    by_cases hsize : out.length = b.messageSize
    · simp [hd, hsize, hlen, bind, Except.bind, pure, Except.pure] at h
    · simp [hd, hsize, bind, Except.bind, pure, Except.pure] at h

private theorem sendRound_granted {cfg : QueueConfig} {data : Message} {b b' : ByteQueue} {op : QueueOp}
    {wake : Wake} (now : Timespec) (deadline : Option Timespec)
    (h : sendSection cfg now .noWait data b = .ok (b', .ret op (.ok ()), wake)) :
    b.isClosed = false ∧
      sendRound cfg.width deadline data b = .ok (b', .ret op (.ok ()), wake) := by
  unfold sendSection at h
  unfold sendRound
  cases hclosed : b.isClosed with
  | true =>
    rw [hclosed] at h
    cases h
  | false =>
    refine ⟨rfl, ?_⟩
    cases ht : b.trySend cfg.width data with
    | error f => simp [hclosed, ht, bind, Except.bind] at h
    | ok r =>
      obtain ⟨r, buffer⟩ := r
      simp only [hclosed, ht, Bool.false_eq_true, if_false, bind, Except.bind] at h ⊢
      cases r with
      | ok u => exact h
      | error e => cases h

private theorem recvRound_granted {cfg : QueueConfig} {out : Message} {b b' : ByteQueue} {op : QueueOp}
    {wake : Wake} (now : Timespec) (deadline : Option Timespec)
    (h : recvSection cfg now .noWait out b = .ok (b', .ret op (.ok ()), wake)) :
    recvRound cfg.width deadline out b = .ok (b', .ret op (.ok ()), wake) := by
  unfold recvSection at h
  unfold recvRound
  cases ht : b.tryRecv cfg.width out with
  | error f => simp [ht, bind, Except.bind] at h
  | ok r =>
    obtain ⟨r, buffer, out'⟩ := r
    simp only [ht, bind, Except.bind] at h
    cases r with
    | error e => cases h
    | ok n =>
      have hempty := tryRecv_ok_len ht
      simp only [hempty, Bool.and_false, Bool.false_eq_true, if_false, bind, Except.bind]
      exact h

private theorem firstSection_granted {cfg : QueueConfig} {now : Timespec} {dir : Direction}
    {message : Message} {b b' : ByteQueue} {op : QueueOp} {wake : Wake} {timeout : Timeout}
    (ht : ∀ d, timeout = .after d → (checkedAbsDeadline cfg.timeMax now d).isOk = true)
    (h : firstSection cfg now ⟨transferOp dir message, .noWait⟩ b = .ok (b', .ret op (.ok ()), wake)) :
    firstSection cfg now ⟨transferOp dir message, timeout⟩ b =
      .ok (b', .ret op (.ok ()), wake) := by
  cases timeout with
  | noWait => exact h
  | after d =>
    cases hd : checkedAbsDeadline cfg.timeMax now d with
    | error e => simp [hd, Except.isOk, Except.toBool] at ht
    | ok deadline =>
      cases dir with
      | sender =>
        obtain ⟨hopen, hr⟩ := sendRound_granted now (some deadline) h
        simp only [firstSection, transferOp, sendSection, hopen, hd, Bool.false_eq_true, if_false]
        exact hr
      | receiver =>
        simp only [firstSection, transferOp, recvSection, hd]
        exact recvRound_granted now (some deadline) h
  | forever =>
    cases dir with
    | sender =>
      obtain ⟨hopen, hr⟩ := sendRound_granted now Option.none h
      simp only [firstSection, transferOp, sendSection, hopen, Bool.false_eq_true, if_false]
      exact hr
    | receiver => exact recvRound_granted now Option.none h

private theorem firstSection_overflow {cfg : QueueConfig} {now : Timespec} {dir : Direction}
    {message : Message} {b b' : ByteQueue} {op : QueueOp} {wake : Wake} {d : Duration} {e : Error}
    (hd : checkedAbsDeadline cfg.timeMax now d = .error e)
    (h : firstSection cfg now ⟨transferOp dir message, .noWait⟩ b = .ok (b', .ret op (.ok ()), wake)) :
    firstSection cfg now ⟨transferOp dir message, .after d⟩ b =
      .ok (b, .ret (transferOp dir message) (.error e), .none) := by
  cases dir with
  | sender =>
    obtain ⟨hopen, -⟩ := sendRound_granted now Option.none h
    simp only [firstSection, transferOp, sendSection, hopen, hd, Bool.false_eq_true, if_false]
    rfl
  | receiver =>
    simp only [firstSection, transferOp, recvSection, hd]
    rfl

theorem soloTransfer_granted {cfg : QueueConfig} {now : Timespec} {dir : Direction}
    {message : Message} {b b' : ByteQueue} {op : QueueOp} {wake : Wake} {timeout : Timeout}
    (ht : ∀ d, timeout = .after d → (checkedAbsDeadline cfg.timeMax now d).isOk = true)
    (h : soloTransfer cfg now .noWait (transferOp dir message) b = some (.ok (), op, b', wake)) :
    soloTransfer cfg now timeout (transferOp dir message) b = some (.ok (), op, b', wake) := by
  unfold soloTransfer at h ⊢
  cases hv : validate b.messageSize (transferOp dir message) with
  | error e =>
    simp only [hv] at h
    cases h
  | ok u =>
    simp only [hv] at h ⊢
    split at h
    · rename_i hs
      cases h
      rw [firstSection_granted ht hs]
    · cases h

theorem soloTransfer_overflow {cfg : QueueConfig} {now : Timespec} {dir : Direction}
    {message : Message} {b b' : ByteQueue} {op : QueueOp} {wake : Wake} {d : Duration} {e : Error}
    (hd : checkedAbsDeadline cfg.timeMax now d = .error e)
    (h : soloTransfer cfg now .noWait (transferOp dir message) b = some (.ok (), op, b', wake)) :
    soloTransfer cfg now (.after d) (transferOp dir message) b =
      some (.error e, transferOp dir message, b, .none) := by
  unfold soloTransfer at h ⊢
  cases hv : validate b.messageSize (transferOp dir message) with
  | error e =>
    simp only [hv] at h
    cases h
  | ok u =>
    simp only [hv] at h ⊢
    split at h
    · rename_i hs
      cases h
      rw [firstSection_overflow hd hs]
    · cases h

end Posix

/-! ### The calls -/

variable {m : Moment timeMax} {timeout : Timeout} {effect : Effect}

private theorem granted_iff {req : BlockingCall} {x : Option (Result Unit × Effect)}
    (hok : req.Unhindered m timeout → x = some (.ok (), effect))
    (herr : ∀ d, timeout = .after d → d ≠ Duration.zero → req.triesFirst = false →
      req.deadlineFits m d = false → ∃ e effect', x = some (.error e, effect')) :
    x = some (.ok (), effect) ↔ req.Unhindered m timeout := by
  refine ⟨fun hx d ht hd => ?_, hok⟩
  by_contra hno
  rw [not_or, Bool.not_eq_true, Bool.not_eq_true] at hno
  obtain ⟨e, effect', he⟩ := herr d ht hd hno.1 hno.2
  rw [he] at hx
  cases hx

private theorem freeRtosSemaphore_granted {count : Nat} (hs : m.scheduler = .running)
    (h : (BlockingCall.freeRtosSemaphore count).run m .noWait = some (.ok (), effect))
    (hu : (BlockingCall.freeRtosSemaphore count).Unhindered m timeout) :
    (BlockingCall.freeRtosSemaphore count).run m timeout = some (.ok (), effect) := by
  have hfit : ∀ d, timeout = .after d → d ≠ Duration.zero → (m.clock.checkedAdd d).isSome = true :=
    fun d ht hd => (hu d ht hd).resolve_left nofun
  have hnow := FreeRtos.soloWaitOnce_available hfit
  by_cases hc : 0 < count
  · simp only [BlockingCall.run, FreeRtos.soloAcquire, hc, decide_true, hs, hnow] at h ⊢
    exact h
  · simp [BlockingCall.run, FreeRtos.soloAcquire, hc, FreeRtos.WaitBudget.new, FreeRtos.soloWaitOnce,
      FreeRtos.acquireResult, Except.bind] at h

private theorem freeRtosMutex_granted {held : Bool} (hs : m.scheduler = .running)
    (h : (BlockingCall.freeRtosMutex held).run m .noWait = some (.ok (), effect))
    (hu : (BlockingCall.freeRtosMutex held).Unhindered m timeout) :
    (BlockingCall.freeRtosMutex held).run m timeout = some (.ok (), effect) := by
  have hfit : ∀ d, timeout = .after d → d ≠ Duration.zero → (m.clock.checkedAdd d).isSome = true :=
    fun d ht hd => (hu d ht hd).resolve_left nofun
  have hnow := FreeRtos.soloWaitOnce_available hfit
  cases held with
  | false =>
    simp only [BlockingCall.run, FreeRtos.soloLock, Bool.not_false, hs, hnow] at h ⊢
    exact h
  | true =>
    simp [BlockingCall.run, FreeRtos.soloLock, FreeRtos.WaitBudget.new, FreeRtos.soloWaitOnce,
      FreeRtos.lockResult, Except.bind] at h

private theorem freeRtosQueue_granted {cfg : FreeRtos.QueueConfig} {dir : Direction}
    {message : Message} {st : FreeRtos.QueueState}
    (h : (BlockingCall.freeRtosQueue cfg dir message st).run m .noWait = some (.ok (), effect)) :
    (BlockingCall.freeRtosQueue cfg dir message st).run m timeout = some (.ok (), effect) := by
  simp only [BlockingCall.run] at h ⊢
  split at h
  · rename_i hcall
    cases h
    rw [FreeRtos.soloCall_granted (FreeRtos.WaitBudget.new timeout) hcall]
  · cases h

private theorem posixSemaphore_granted {st : CountingSemaphoreState}
    (h : (BlockingCall.posixSemaphore st).run m .noWait = some (.ok (), effect)) :
    (BlockingCall.posixSemaphore st).run m timeout = some (.ok (), effect) := by
  simp only [BlockingCall.run, Posix.soloAcquire, Posix.Semaphore.acquireSection] at h ⊢
  cases htry : st.tryAcquire with
  | mk taken st' =>
    rw [htry] at h
    cases taken with
    | true => exact h
    | false => cases h

private theorem posixMutex_free {owner : Posix.MutexOwner}
    (h : (BlockingCall.posixMutex owner).run m .noWait = some (.ok (), effect)) :
    owner = .free ∧ effect = .posixHeld .caller := by
  cases owner with
  | free =>
    cases h
    exact ⟨rfl, rfl⟩
  | caller => cases h
  | other => cases h

private theorem posixMutex_granted {owner : Posix.MutexOwner}
    (h : (BlockingCall.posixMutex owner).run m .noWait = some (.ok (), effect))
    (hu : (BlockingCall.posixMutex owner).Unhindered m timeout) :
    (BlockingCall.posixMutex owner).run m timeout = some (.ok (), effect) := by
  obtain ⟨rfl, rfl⟩ := posixMutex_free h
  cases timeout with
  | noWait => rfl
  | forever => rfl
  | after d =>
    by_cases hd : d = Duration.zero
    · simp [BlockingCall.run, Posix.soloLock, hd, Posix.tryLock]
    · have hfit := (hu d rfl hd).resolve_left nofun
      simp only [BlockingCall.deadlineFits] at hfit
      cases hdl : Posix.checkedAbsDeadline timeMax m.monotonic d with
      | error e => simp [hdl, Except.isOk, Except.toBool] at hfit
      | ok deadline =>
        simp [BlockingCall.run, Posix.soloLock, hd, Posix.timedLock, hdl, Posix.tryLock]

private theorem posixQueue_granted {width : UsizeWidth} {dir : Direction} {message : Message}
    {b : ByteQueue}
    (h : (BlockingCall.posixQueue width dir message b).run m .noWait = some (.ok (), effect))
    (hu : (BlockingCall.posixQueue width dir message b).Unhindered m timeout) :
    (BlockingCall.posixQueue width dir message b).run m timeout = some (.ok (), effect) := by
  have ht : ∀ d, timeout = .after d →
      (Posix.checkedAbsDeadline timeMax m.monotonic d).isOk = true := by
    intro d htd
    by_cases hd : d = Duration.zero
    · rw [hd, checkedAbsDeadline_zero m]
      rfl
    · exact (hu d htd hd).resolve_left nofun
  simp only [BlockingCall.run] at h ⊢
  obtain ⟨⟨r, op, b', wake⟩, hsolo, he⟩ := Option.map_eq_some_iff.1 h
  cases he
  rw [Posix.soloTransfer_granted ht hsolo]
  rfl

/-- With no other thread and the scheduler running, a call that `NoWait` would grant is granted
with the same effect under another timeout exactly when it tries before it sets its deadline, or
its deadline can be represented. -/
theorem immediate_grant_iff (m : Moment timeMax) (hs : m.scheduler = .running) (req : BlockingCall)
    (timeout : Timeout) (effect : Effect) (h : req.run m .noWait = some (.ok (), effect)) :
    req.run m timeout = some (.ok (), effect) ↔ req.Unhindered m timeout := by
  refine granted_iff (fun hu => ?_) (fun d ht hd htries hfit => ?_)
  · cases req with
    | freeRtosSemaphore count => exact freeRtosSemaphore_granted hs h hu
    | freeRtosMutex held => exact freeRtosMutex_granted hs h hu
    | freeRtosQueue cfg dir message st => exact freeRtosQueue_granted h
    | posixSemaphore st => exact posixSemaphore_granted h
    | posixMutex owner => exact posixMutex_granted h hu
    | posixQueue width dir message b => exact posixQueue_granted h hu
  · subst ht
    cases req with
    | freeRtosSemaphore count =>
      have hnone : m.clock.checkedAdd d = none :=
        Option.isNone_iff_eq_none.1 (Option.isSome_eq_false_iff.1 hfit)
      refine ⟨.overflow, .permits count, ?_⟩
      simp only [BlockingCall.run, FreeRtos.soloAcquire, hs, FreeRtos.soloWaitOnce_overflow _ hd hnone]
      rfl
    | freeRtosMutex held =>
      have hnone : m.clock.checkedAdd d = none :=
        Option.isNone_iff_eq_none.1 (Option.isSome_eq_false_iff.1 hfit)
      refine ⟨.overflow, .held (held || false), ?_⟩
      simp only [BlockingCall.run, FreeRtos.soloLock, hs, FreeRtos.soloWaitOnce_overflow _ hd hnone]
      rfl
    | freeRtosQueue cfg dir message st => cases htries
    | posixSemaphore st => cases htries
    | posixMutex owner =>
      obtain ⟨e, he⟩ := Posix.error_of_not_isOk hfit
      refine ⟨e, .posixHeld owner, ?_⟩
      simp only [BlockingCall.run, Posix.soloLock, if_neg hd, Posix.timedLock, he]
      rfl
    | posixQueue width dir message b =>
      obtain ⟨e, he⟩ := Posix.error_of_not_isOk hfit
      simp only [BlockingCall.run] at h ⊢
      obtain ⟨⟨r, op, b', wake⟩, hsolo, hr⟩ := Option.map_eq_some_iff.1 h
      cases hr
      rw [Posix.soloTransfer_overflow he hsolo]
      exact ⟨_, _, rfl⟩

def firstMoment : Moment (2 ^ 63 - 1) :=
  ⟨⟨0, 1⟩, by decide, by decide, ⟨1, by decide⟩, .running⟩

/-- A free mutex with a deadline a second away. -/
theorem immediate_grant_iff_mutex :
    firstMoment.scheduler = .running ∧
      (BlockingCall.posixMutex .free).run firstMoment .noWait = some (.ok (), .posixHeld .caller) ∧
      (BlockingCall.posixMutex .free).run firstMoment (.after ⟨1000000000, by decide⟩) =
        some (.ok (), .posixHeld .caller) := by
  refine ⟨rfl, rfl, (immediate_grant_iff firstMoment rfl (.posixMutex .free) _ _ rfl).2 ?_⟩
  intro d hd _
  cases hd
  exact .inr rfl

/-- A permit is there, but `now + Duration::MAX` is not a duration. -/
theorem immediate_grant_overflow :
    (BlockingCall.freeRtosSemaphore 1).run firstMoment .noWait = some (.ok (), .permits 0) ∧
      (BlockingCall.freeRtosSemaphore 1).run firstMoment (.after .max) =
        some (.error .overflow, .permits 1) :=
  ⟨rfl, rfl⟩

end OsalRust
