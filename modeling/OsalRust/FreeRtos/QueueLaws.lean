import OsalRust.FreeRtos.QueueInvariant

/-!
# Laws of the FreeRTOS queue

The waiter-credit invariant read back in the queue's own terms, for any number of tasks and
any interleaving: no wakeup is lost, the counters account for the calls so that no panic of
the protocol is reachable, and close wins over timeout.
-/

namespace OsalRust.FreeRtos

open Framework Framework.WakeCredit

variable {ι : Type} [DecidableEq ι] [Fintype ι] {cfg : QueueConfig} {s s' : QueueSystem ι}
  {l : QueueEvent ι} {tr : List (QueueEvent ι)}

def tasksIn (d : Direction) (g : Stage) (s : QueueSystem ι) : Nat :=
  inStage (Phase.stage d) g s.tasks

def registrations (d : Direction) (s : QueueSystem ι) : Nat :=
  tally (Phase.registered d) s.tasks

def callers (s : QueueSystem ι) : Nat := tally Phase.inCall s.tasks

omit [DecidableEq ι] in
private theorem registrations_eq (d : Direction) (s : QueueSystem ι) :
    registrations d s =
      tasksIn d .waiting s + tasksIn d .woken s + tasksIn d .expired s := by
  unfold registrations Phase.registered
  rw [tally_or, tally_or]
  · simp only [tasksIn, inStage, beq_eq_decide]
  · intro p hp
    simp_all
  · intro p hp
    rcases (Bool.or_eq_true _ _).mp hp with h | h <;> simp_all

private theorem waiters_eq_registrations (h : (queueLts ι cfg).Reachable s) (d : Direction) :
    (s.state.channel d).waiters = registrations d s :=
  (inv_of_reachable h d).waiters_eq.trans (registrations_eq d s).symm

def boundedCallers (ι : Type) [DecidableEq ι] [Fintype ι] (cfg : QueueConfig) (n : Nat) :
    Lts (QueueSystem ι) (QueueEvent ι) :=
  (queueLts ι cfg).restrict fun _ _ s' => callers s' ≤ n

def smallTarget : QueueConfig := ⟨width64, 8⟩

def oneSlotQueue : QueueSystem Bool :=
  ⟨⟨⟨[0], 1, 1, 0, 0, 0, false⟩, ⟨0, 0, 0⟩, ⟨0, 0, 0⟩⟩, Duration.zero, fun _ => .idle⟩

def fiveNanos : Duration := .fromNanos 5

def shortReceive : Call := ⟨.recv [0], .finite fiveNanos none false, .running⟩

def preparedReceive : Call := ⟨.recv [0], .finite fiveNanos (some fiveNanos) true, .running⟩

def waitingReceiver : QueueSystem Bool :=
  ((oneSlotQueue.move true oneSlotQueue.state (.start shortReceive)).move true oneSlotQueue.state
    (.check shortReceive false)).move true { oneSlotQueue.state with receiver := ⟨1, 0, 0⟩ }
    (.waiting preparedReceive)

private theorem waitingReceiver_reachable :
    (boundedCallers Bool smallTarget 2).Reachable waitingReceiver := by
  have h₀ : (boundedCallers Bool smallTarget 2).Reachable oneSlotQueue :=
    .start ⟨fun _ => true, 1, 1, _, rfl, rfl, rfl⟩
  have h₁ := h₀.snoc
    ⟨.invoke oneSlotQueue true (.recv [0]) (.after fiveNanos) .running rfl, by decide⟩
  have h₂ := h₁.snoc ⟨.enter _ true shortReceive rfl rfl, by decide⟩
  exact h₂.snoc ⟨.check _ true shortReceive false
    { oneSlotQueue.state with receiver := ⟨1, 0, 0⟩ } (.wait preparedReceive) rfl rfl, by decide⟩

/-- No wakeup is lost. In an open queue the messages beyond the posted tokens are covered by
receivers on their way to the buffer, as long as a receiver waits without a token; the free
slots are covered likewise. So with no token pending, unconfirmed or being re-checked, a
registered receiver means an empty open queue and a registered sender a full open one. -/
theorem queue_no_lost_wakeup (h : (queueLts ι cfg).Reachable s) :
    (s.state.buffer.isClosed = false →
      (s.state.receiver.wakeCredits < s.state.receiver.waiters →
        s.state.buffer.len ≤ s.state.receiver.wakeCredits + tasksIn .receiver .rechecking s) ∧
      (s.state.sender.wakeCredits < s.state.sender.waiters →
        s.state.buffer.availableSlots ≤
          s.state.sender.wakeCredits + tasksIn .sender .rechecking s)) ∧
    (s.state.receiver.wake = 0 → tasksIn .receiver .woken s = 0 →
      tasksIn .receiver .rechecking s = 0 → ∀ t, (s.tasks t).registered .receiver = true →
        s.state.buffer.isClosed = false ∧ s.state.buffer.isEmpty = true) ∧
    (s.state.sender.wake = 0 → tasksIn .sender .woken s = 0 →
      tasksIn .sender .rechecking s = 0 → ∀ t, (s.tasks t).registered .sender = true →
        s.state.buffer.isClosed = false ∧ s.state.buffer.isFull = true) := by
  have hreg (d : Direction) (t : ι) (ht : (s.tasks t).registered d = true) :
      0 < (s.state.channel d).waiters := by
    rw [waiters_eq_registrations h]
    exact tally_pos ht
  refine ⟨?_, ?_, ?_⟩
  · intro hopen
    exact ⟨(inv_of_reachable h .receiver).no_lost_wakeup hopen,
      (inv_of_reachable h .sender).no_lost_wakeup hopen⟩
  · intro htoken hwoken hre t ht
    obtain ⟨hopen, hitems⟩ :=
      (inv_of_reachable h .receiver).quiet htoken hwoken hre (hreg .receiver t ht)
    exact ⟨hopen, beq_iff_eq.mpr hitems⟩
  · intro htoken hwoken hre t ht
    obtain ⟨hopen, hitems⟩ :=
      (inv_of_reachable h .sender).quiet htoken hwoken hre (hreg .sender t ht)
    have hslots : s.state.buffer.capacity - s.state.buffer.len = 0 := hitems
    have hle := (ready_of_reachable h).wf.len_le
    exact ⟨hopen, beq_iff_eq.mpr (by omega)⟩

theorem queue_no_lost_wakeup_waiting :
    (queueLts Bool smallTarget).Reachable waitingReceiver ∧
      (waitingReceiver.tasks true).registered .receiver = true ∧
      waitingReceiver.state.buffer.isClosed = false ∧
      waitingReceiver.state.buffer.isEmpty = true := by
  have h := Lts.restrict_reachable waitingReceiver_reachable
  have hquiet := (queue_no_lost_wakeup h).2.1 rfl (by decide) (by decide) true (by decide)
  exact ⟨h, by decide, hquiet⟩

private theorem callers_le {n : Nat} (h : (boundedCallers ι cfg n).Reachable s) :
    callers s ≤ n := by
  apply h.invariant (I := fun s => callers s ≤ n)
  · rintro s ⟨reserve, capacity, messageSize, buffer, hnew, hst, htasks⟩
    have hzero : callers s = 0 := tally_eq_zero fun t => by simp [htasks, Phase.inCall]
    omega
  · intro s l s' _ hs
    exact hs.2

private theorem inCall_of_registered {d : Direction} {p : Phase} (h : p.registered d = true) :
    p.inCall = true := by
  cases p with
  | idle => simp [Phase.registered, Phase.stage] at h
  | _ => rfl

private theorem waiters_lt_callers (h : (queueLts ι cfg).Reachable s) {t : ι} {c : Call}
    {again : Bool} (ht : s.tasks t = .check c again) (d : Direction) :
    (s.state.channel d).waiters < callers s := by
  rw [waiters_eq_registrations h]
  apply tally_lt (t := t) (fun p => inCall_of_registered)
  · rw [ht]
    by_cases hc : again = true ∧ direction c.op = some d
    · simp [Phase.registered, Phase.stage, hc]
    · simp [Phase.registered, Phase.stage, hc]
  · rw [ht]
    rfl

private theorem not_panics {n : Nat} (hfit : n < 2 ^ 32) (hmax : n ≤ cfg.wakeMax)
    (h : (boundedCallers ι cfg n).Reachable s) (t : ι) (p : Panic) : ¬ Panics cfg s t p := by
  have hr := Lts.restrict_reachable h
  have hn := callers_le h
  have hready := ready_of_reachable hr
  have hcredit (d : Direction) : (s.state.channel d).wakeCredits =
      (s.state.channel d).wake + tasksIn d .woken s := (inv_of_reachable hr d).credits_eq
  have hle (d : Direction) : (s.state.channel d).wakeCredits ≤ (s.state.channel d).waiters :=
    (inv_of_reachable hr d).credits_le
  intro hp
  cases hp with
  | check c again _ ht hsec =>
    have hlt (d : Direction) : (s.state.channel d).waiters < callers s :=
      waiters_lt_callers hr ht d
    have hroom (d : Direction) : (s.state.channel d).wake +
        ((s.state.channel d).waiters - (s.state.channel d).wakeCredits) ≤ cfg.wakeMax := by
      have h1 := hcredit d
      have h2 := hle d
      have h3 := hlt d
      omega
    have hu32 (d : Direction) : (s.state.channel d).waiters + 1 < 2 ^ 32 := by
      have := hlt d
      omega
    obtain ⟨st, next, hok⟩ := checkSection_ok s.now hready.wf
      (hready.valid t c (by simp [ht, Phase.call])) hle hroom
      (fun d => Nat.lt_of_succ_lt (hu32 d)) (fun d _ => hu32 d)
    rw [hok] at hsec
    contradiction
  | confirm c d _ ht hd hsec =>
    have hpos : 0 < tasksIn d .woken s := inStage_pos (t := t) (by simp [ht, Phase.stage, hd])
    have h1 := hcredit d
    have h2 := hle d
    obtain ⟨st, hok⟩ := confirmSection_ok d s.state (by omega) (by omega)
    rw [hok] at hsec
    contradiction
  | reconcile c d _ ht hd hsec =>
    have hreg : (s.tasks t).registered d = true := by
      simp [ht, Phase.registered, Phase.stage, hd]
    have hpos : 0 < (s.state.channel d).waiters := by
      rw [waiters_eq_registrations hr]
      exact tally_pos hreg
    have h1 := hcredit d
    obtain ⟨r, hok⟩ := reconcileSection_ok d s.state (by omega) hpos
    rw [hok] at hsec
    contradiction

/-- The accounting of the waiter-credit protocol. With at most `n` simultaneous callers, below
`2 ^ 32` and no more than a wake semaphore holds, the counters of both directions equal the
calls they stand for, no panic is reachable, and an unused queue has no waiters. -/
theorem queue_accounting (n : Nat) (hfit : n < 2 ^ 32) (hmax : n ≤ cfg.wakeMax)
    (h : (boundedCallers ι cfg n).Reachable s) :
    (∀ d, (s.state.channel d).wakeCredits ≤ (s.state.channel d).waiters ∧
      (s.state.channel d).waiters = registrations d s ∧
      (s.state.channel d).wakeCredits = (s.state.channel d).wake + tasksIn d .woken s) ∧
    (∀ t p, ¬ Panics cfg s t p) ∧
    ((∀ t, s.tasks t = .idle) → ∀ d, (s.state.channel d).waiters = 0) := by
  have hr := Lts.restrict_reachable h
  refine ⟨?_, not_panics hfit hmax h, ?_⟩
  · intro d
    have hi := inv_of_reachable hr d
    exact ⟨hi.credits_le, waiters_eq_registrations hr d, hi.credits_eq⟩
  · intro hidle d
    rw [waiters_eq_registrations hr]
    exact tally_eq_zero fun t => by simp [hidle t, Phase.registered, Phase.stage]

/-- With one of two callers waiting, the counters agree and nothing can panic. -/
theorem queue_accounting_waiting :
    waitingReceiver.state.receiver.waiters = registrations .receiver waitingReceiver ∧
      registrations .receiver waitingReceiver = 1 ∧
      ∀ t p, ¬ Panics smallTarget waitingReceiver t p := by
  have h := queue_accounting 2 (by decide) (by decide) waitingReceiver_reachable
  exact ⟨(h.1 .receiver).2.1, by decide, h.2.1⟩

/-- What the deciding section tells a call on a closed queue that holds `messages`. -/
def closedAnswer (messages : List Message) : QueueOp → Next
  | .send data => .ret (.send data) (.error .queueClosed)
  | .recv buffer =>
    match messages with
    | [] => .ret (.recv buffer) (.error .queueClosed)
    | message :: _ => .ret (.recv message) (.ok ())
  | .close => .ret .close (.ok ())

omit [DecidableEq ι] [Fintype ι] in
private theorem Decision.closed {c : Call} {st st' : QueueState} {next : Next}
    (hd : Decision cfg c st st' next) (hwf : st.buffer.Wf cfg.width)
    (hclosed : st.buffer.closed = true) (t : ι) :
    next = closedAnswer st.buffer.messages c.op ∧ st'.buffer.closed = true ∧
      Delivery.sent [next.event t] = [] ∧
      Delivery.received [next.event t] ++ st'.buffer.messages = st.buffer.messages := by
  cases hd with
  | sendClosed data hop hcl => exact ⟨by simp [hop, closedAnswer], hcl, by rw [hop]; rfl, by rw [hop]; rfl⟩
  | recvClosed out hop hlen hcl =>
    have hnil := ByteQueue.messages_eq_nil hlen
    exact ⟨by simp [hop, hnil, closedAnswer], hcl, by rw [hop]; rfl, by rw [hop]; rfl⟩
  | recvOk out sender hop hlen hsignal =>
    have hm := ByteQueue.popped_messages hwf hlen
    exact ⟨by simp [hop, hm, closedAnswer], hclosed, rfl, hm.symm⟩
  | closeAgain hop hcl => exact ⟨by simp [hop, closedAnswer], hcl, by rw [hop]; rfl, by rw [hop]; rfl⟩
  | sendOk data receiver hop hopen hsize hroom hsignal => simp [hopen] at hclosed
  | refused d e hdir hopen hitems => simp [hopen] at hclosed
  | registered d budget channel hdir hopen hitems hreg => simp [hopen] at hclosed
  | closeFirst sender receiver hop hopen hs hr => simp [hopen] at hclosed

omit [Fintype ι] in
private theorem closed_step (h : Ready cfg s) (hclosed : s.state.buffer.closed = true)
    (hs : QueueStep cfg s l s') :
    s'.state.buffer.closed = true ∧ Delivery.sent [l] = [] ∧
      Delivery.received [l] ++ s'.state.buffer.messages = s.state.buffer.messages := by
  cases hs with
  | invoke | reject | enter | lockFailed | expire | ret | tick => exact ⟨hclosed, rfl, rfl⟩
  | check t c again st next ht hsec =>
    have hv := h.valid t c (by simp [ht, Phase.call])
    exact ((checkSection_decision h.wf hv hsec).closed h.wf hclosed t).2
  | take t c d ht hd hw =>
    simp only [QueueSystem.move, QueueState.buffer_setChannel]
    exact ⟨hclosed, rfl, rfl⟩
  | confirm t c d st ht hd hsec =>
    rw [confirmSection_cases hsec]
    simp only [QueueSystem.move, QueueState.buffer_setChannel]
    exact ⟨hclosed, rfl, rfl⟩
  | retry t c d st ht hd hsec =>
    rcases reconcileSection_cases hsec with ⟨-, -, rfl⟩ | ⟨hr, -, -⟩
    · simp only [QueueSystem.move, QueueState.buffer_setChannel]
      exact ⟨hclosed, rfl, rfl⟩
    · contradiction
  | timeout t c d st e ht hd hsec =>
    rcases reconcileSection_cases hsec with ⟨hr, -, -⟩ | ⟨-, -, rfl⟩
    · contradiction
    · simp only [QueueSystem.move, QueueState.buffer_setChannel]
      exact ⟨hclosed, rfl, rfl⟩

omit [Fintype ι] in
private theorem closed_steps (h : (queueLts ι cfg).Reachable s)
    (hclosed : s.state.buffer.closed = true) (hs : (queueLts ι cfg).Steps s tr s') :
    s'.state.buffer.closed = true ∧ Delivery.sent tr = [] ∧
      Delivery.received tr ++ s'.state.buffer.messages = s.state.buffer.messages := by
  refine hs.invariant (I := fun tr s' => s'.state.buffer.closed = true ∧ Delivery.sent tr = [] ∧
    Delivery.received tr ++ s'.state.buffer.messages = s.state.buffer.messages) h ?_ ?_
  · exact ⟨hclosed, rfl, rfl⟩
  · intro tr s₁ l s₂ hr hi hl
    obtain ⟨hcl, hsent, hrecv⟩ := hi
    obtain ⟨hcl', hsent', hrecv'⟩ := closed_step (ready_of_reachable hr) hcl hl
    refine ⟨hcl', ?_, ?_⟩
    · rw [Delivery.sent_append, hsent, hsent', List.append_nil]
    · rw [Delivery.received_append, List.append_assoc, hrecv', hrecv]

private theorem closed_check (h : (queueLts ι cfg).Reachable s)
    (hclosed : s.state.buffer.closed = true) {t : ι} {c : Call} {again : Bool}
    (ht : s.tasks t = .check c again) :
    ∃ st, checkSection cfg s.now c s.state =
      .ok (st, closedAnswer s.state.buffer.messages c.op) := by
  have hready := ready_of_reachable h
  have hv := hready.valid t c (by simp [ht, Phase.call])
  have hgranted : s.state.sender.wakeCredits = s.state.sender.waiters :=
    (inv_of_reachable h .sender).closed_granted hclosed
  have hok : ∃ st next, checkSection cfg s.now c s.state = .ok (st, next) := by
    rw [checkSection]
    cases hop : c.op with
    | send data => exact ⟨_, _, by simp only [sendSection, ByteQueue.isClosed, hclosed, if_true]; rfl⟩
    | recv out =>
      rw [hop] at hv
      have hsilent : s.state.sender.signalOne cfg.wakeMax .sender = .ok s.state.sender := by
        rw [WakeChannel.signalOne, if_neg (by omega)]
      simp only [recvSection, ByteQueue.isClosed, ByteQueue.tryRecv_eq hready.wf,
        validate_recv hv, ne_eq, not_true_eq_false, if_false, hsilent]
      by_cases hlen : s.state.buffer.len = 0
      · simp only [hlen, hclosed, if_true]
        exact ⟨_, _, rfl⟩
      · simp only [hlen, if_false]
        exact ⟨_, _, rfl⟩
    | close => exact ⟨_, _, by simp only [closeSection, ByteQueue.isClosed, hclosed, if_true]; rfl⟩
  obtain ⟨st, next, hsec⟩ := hok
  have hnext := ((checkSection_decision hready.wf hv hsec).closed hready.wf hclosed t).1
  exact ⟨st, by rw [hsec, hnext]⟩

/-- Close beats timeout. From any state in which the queue is closed, along every run: it
stays closed with a credit for every waiter; a call whose wait expired finds a race token and
loops back; a deciding section answers `QueueClosed` to a send, and to a receive the oldest
remaining message or, when none is left, `QueueClosed`; nothing is sent, and what is received
is an initial part of the messages buffered at the close, in order. -/
theorem queue_close_beats_timeout (h : (queueLts ι cfg).Reachable s)
    (hclosed : s.state.buffer.isClosed = true) (hs : (queueLts ι cfg).Steps s tr s') :
    s'.state.buffer.isClosed = true ∧
    (∀ d, (s'.state.channel d).wakeCredits = (s'.state.channel d).waiters) ∧
    (∀ t c d, s'.tasks t = .expired c → direction c.op = some d →
      0 < (s'.state.channel d).wake ∧ ∃ st, reconcileSection d s'.state = .ok (st, none)) ∧
    (∀ t c again, s'.tasks t = .check c again → ∃ st, checkSection cfg s'.now c s'.state =
      .ok (st, closedAnswer s'.state.buffer.messages c.op)) ∧
    Delivery.sent tr = [] ∧
    Delivery.received tr ++ s'.state.buffer.messages = s.state.buffer.messages := by
  obtain ⟨hcl, hsent, hrecv⟩ := closed_steps h hclosed hs
  have hr := h.steps hs
  have hgranted (d : Direction) : (s'.state.channel d).wakeCredits = (s'.state.channel d).waiters :=
    (inv_of_reachable hr d).closed_granted hcl
  refine ⟨hcl, hgranted, ?_, fun t c again ht => closed_check hr hcl ht, hsent, hrecv⟩
  intro t c d ht hd
  have hexpired : 0 < (view d s').expired := inStage_pos (t := t) (by simp [ht, Phase.stage, hd])
  have htoken : 0 < (s'.state.channel d).wake := (inv_of_reachable hr d).closed_token hcl hexpired
  have hcredit : (s'.state.channel d).wakeCredits = (s'.state.channel d).wake + tasksIn d .woken s' :=
    (inv_of_reachable hr d).credits_eq
  have hwaiters := hgranted d
  obtain ⟨⟨st, r⟩, hok⟩ := reconcileSection_ok d s'.state (by omega) (by omega)
  rcases reconcileSection_cases hok with ⟨rfl, -, -⟩ | ⟨-, hzero, -⟩
  · exact ⟨htoken, st, hok⟩
  · omega

/-- The wait of task `true` expired, and task `false` closed the queue before the expired task
took the mutex again. -/
def expiredReceiver : QueueSystem Bool :=
  ((((({ waitingReceiver with now := fiveNanos } : QueueSystem Bool).move true
    waitingReceiver.state (.expired preparedReceive)).move false waitingReceiver.state
      (.start ⟨.close, .forever false, .running⟩)).move false waitingReceiver.state
        (.check ⟨.close, .forever false, .running⟩ false)).move false
          ⟨waitingReceiver.state.buffer.close, ⟨0, 0, 0⟩, ⟨1, 1, 1⟩⟩ (.returned .close (.ok ())))

private theorem expiredReceiver_reachable : (queueLts Bool smallTarget).Reachable expiredReceiver := by
  have h₀ := Lts.restrict_reachable waitingReceiver_reachable
  have h₁ := h₀.snoc (.tick _ fiveNanos (by decide))
  have h₂ := h₁.snoc (.expire _ true preparedReceive rfl rfl)
  have h₃ := h₂.snoc (.invoke _ false .close .forever .running rfl)
  have h₄ := h₃.snoc (.enter _ false ⟨.close, .forever false, .running⟩ rfl rfl)
  exact h₄.snoc (.check _ false ⟨.close, .forever false, .running⟩ false
    ⟨waitingReceiver.state.buffer.close, ⟨0, 0, 0⟩, ⟨1, 1, 1⟩⟩ (.ret .close (.ok ())) rfl rfl)

/-- The expired receiver of a closed queue finds its race token. -/
theorem queue_close_beats_timeout_expired :
    (queueLts Bool smallTarget).Reachable expiredReceiver ∧
      expiredReceiver.tasks true = .expired preparedReceive ∧
      ∃ st, reconcileSection .receiver expiredReceiver.state = .ok (st, none) := by
  have h := queue_close_beats_timeout expiredReceiver_reachable rfl (.refl _)
  exact ⟨expiredReceiver_reachable, rfl, (h.2.2.1 true preparedReceive .receiver rfl rfl).2⟩

end OsalRust.FreeRtos
