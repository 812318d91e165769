import OsalRust.FreeRtos.Queue

/-!
# What the critical sections of the FreeRTOS queue do

One inversion lemma for each section, on a well-formed buffer and for a call whose argument
passed its check. The invariant proofs go through these and never unfold a section.
-/

namespace OsalRust.FreeRtos

open Framework

namespace QueueState

@[simp] theorem channel_setChannel (st : QueueState) (c : WakeChannel) (d : Direction) :
    (st.setChannel c d).channel d = c := by
  cases d <;> rfl

theorem channel_setChannel_of_ne (st : QueueState) (c : WakeChannel) {d d' : Direction}
    (h : d' ≠ d) : (st.setChannel c d).channel d' = st.channel d' := by
  cases d <;> cases d' <;> first | rfl | contradiction

@[simp] theorem buffer_setChannel (st : QueueState) (c : WakeChannel) (d : Direction) :
    (st.setChannel c d).buffer = st.buffer := by
  cases d <;> rfl

end QueueState

private theorem incrementU32_cases {n m : Nat} {p : Panic} (h : incrementU32 n p = .ok m) :
    m = n + 1 := by
  rw [incrementU32] at h
  split_ifs at h
  exact (Except.ok.inj h).symm

namespace WakeChannel

/-- One signal gives a token exactly when a waiter has none coming. -/
theorem signalOne_cases {wakeMax : Nat} {d : Direction} {c c' : WakeChannel}
    (h : c.signalOne wakeMax d = .ok c') :
    (c.wakeCredits < c.waiters ∧
        c' = { c with wakeCredits := c.wakeCredits + 1, wake := c.wake + 1 }) ∨
      (c.waiters ≤ c.wakeCredits ∧ c' = c) := by
  rw [signalOne] at h
  by_cases hlt : c.wakeCredits < c.waiters
  · left
    refine ⟨hlt, ?_⟩
    rw [if_pos hlt] at h
    by_cases hroom : c.wake < wakeMax
    · simp only [semaphoreGive, if_pos hroom] at h
      cases hinc : incrementU32 c.wakeCredits .wakeCreditOverflow with
      | error p => simp [hinc, bind, Except.bind] at h
      | ok wakeCredits =>
        simp only [hinc, bind, Except.bind, pure, Except.pure, Except.ok.injEq] at h
        rw [← h, incrementU32_cases hinc]
    · simp [semaphoreGive, hroom] at h
  · right
    rw [if_neg hlt] at h
    exact ⟨Nat.not_lt.mp hlt, (Except.ok.inj h).symm⟩

theorem signalOne_ok {wakeMax : Nat} {d : Direction} {c : WakeChannel}
    (hroom : c.wakeCredits < c.waiters → c.wake < wakeMax) (hfit : c.waiters < 2 ^ 32) :
    ∃ c', c.signalOne wakeMax d = .ok c' := by
  rw [signalOne]
  by_cases hlt : c.wakeCredits < c.waiters
  · have hsucc : c.wakeCredits + 1 < 2 ^ 32 := by omega
    rw [if_pos hlt]
    simp only [semaphoreGive, if_pos (hroom hlt), incrementU32, if_pos hsucc]
    exact ⟨_, rfl⟩
  · rw [if_neg hlt]
    exact ⟨c, rfl⟩

private theorem giveLoop_all {wakeMax : Nat} (missing tokens : Nat)
    (h : tokens + missing ≤ wakeMax) :
    giveLoop wakeMax missing tokens = (true, tokens + missing) := by
  induction missing generalizing tokens with
  | zero => rfl
  | succ missing ih =>
    have hroom : tokens < wakeMax := by omega
    simp only [giveLoop, semaphoreGive, if_pos hroom]
    rw [ih (tokens + 1) (by omega)]
    simp only [Prod.mk.injEq, true_and]
    omega

private theorem giveLoop_tokens {wakeMax : Nat} (missing tokens : Nat)
    (h : (giveLoop wakeMax missing tokens).1 = true) :
    (giveLoop wakeMax missing tokens).2 = tokens + missing := by
  induction missing generalizing tokens with
  | zero => rfl
  | succ missing ih =>
    by_cases hroom : tokens < wakeMax
    · simp only [giveLoop, semaphoreGive, if_pos hroom] at h ⊢
      rw [ih (tokens + 1) h]
      omega
    · simp only [giveLoop, semaphoreGive, if_neg hroom] at h
      contradiction

/-- A broadcast that succeeds brings the credits up to the waiters, one token for each. -/
theorem broadcastWake_cases {wakeMax : Nat} {c c' : WakeChannel}
    (h : c.broadcastWake wakeMax = .ok (true, c')) :
    c.wakeCredits ≤ c.waiters ∧
      c' = { c with wakeCredits := c.waiters, wake := c.wake + (c.waiters - c.wakeCredits) } := by
  rw [broadcastWake] at h
  by_cases hle : c.wakeCredits ≤ c.waiters
  · rw [if_pos hle] at h
    simp only [Except.ok.injEq, Prod.mk.injEq] at h
    obtain ⟨hall, hc⟩ := h
    rw [giveLoop_tokens _ _ hall] at hc
    exact ⟨hle, hc.symm⟩
  · rw [if_neg hle] at h
    contradiction

theorem broadcastWake_ok {wakeMax : Nat} {c : WakeChannel} (hle : c.wakeCredits ≤ c.waiters)
    (hroom : c.wake + (c.waiters - c.wakeCredits) ≤ wakeMax) :
    ∃ c', c.broadcastWake wakeMax = .ok (true, c') := by
  rw [broadcastWake]
  rw [if_pos hle, giveLoop_all _ _ hroom]
  exact ⟨_, rfl⟩

theorem register_cases {d : Direction} {c c' : WakeChannel} (h : c.register d = .ok c') :
    c' = { c with waiters := c.waiters + 1 } := by
  rw [register] at h
  cases hinc : incrementU32 c.waiters (.waiterCountOverflow d) with
  | error p => simp [hinc, bind, Except.bind] at h
  | ok waiters =>
    simp only [hinc, bind, Except.bind, pure, Except.pure, Except.ok.injEq] at h
    rw [← h, incrementU32_cases hinc]

theorem register_ok {d : Direction} {c : WakeChannel} (h : c.waiters + 1 < 2 ^ 32) :
    ∃ c', c.register d = .ok c' := by
  unfold register incrementU32
  rw [if_pos h]
  exact ⟨_, rfl⟩

theorem confirm_eq {c : WakeChannel} (hc : 0 < c.wakeCredits) (hw : 0 < c.waiters) :
    c.confirm =
      .ok { c with wakeCredits := c.wakeCredits - 1, waiters := c.waiters - 1 } := by
  unfold confirm decrement
  rw [if_pos hc, if_pos hw]
  rfl

theorem confirm_cases {c c' : WakeChannel} (h : c.confirm = .ok c') :
    0 < c.wakeCredits ∧ 0 < c.waiters ∧
      c' = { c with wakeCredits := c.wakeCredits - 1, waiters := c.waiters - 1 } := by
  by_cases hc : 0 < c.wakeCredits
  · by_cases hw : 0 < c.waiters
    · rw [confirm_eq hc hw] at h
      exact ⟨hc, hw, (Except.ok.inj h).symm⟩
    · simp [confirm, decrement, hc, hw, bind, Except.bind] at h
  · simp [confirm, decrement, hc, bind, Except.bind] at h

end WakeChannel

/-- Everything the first section of a call can do. `refused` has the errors of a call that
cannot proceed and does not register: those of its budget and of the preflight. -/
inductive Decision (cfg : QueueConfig) (c : Call) (st : QueueState) : QueueState → Next → Prop
  | sendClosed (data : Message) (hop : c.op = .send data) (hclosed : st.buffer.closed = true) :
      Decision cfg c st st (.ret c.op (.error .queueClosed))
  | sendOk (data : Message) (receiver : WakeChannel) (hop : c.op = .send data)
      (hopen : st.buffer.closed = false) (hsize : data.length = st.buffer.messageSize)
      (hroom : st.buffer.len < st.buffer.capacity)
      (hsignal : st.receiver.signalOne cfg.wakeMax .receiver = .ok receiver) :
      Decision cfg c st { st with buffer := st.buffer.pushed data, receiver } (.ret c.op (.ok ()))
  | recvOk (out : Message) (sender : WakeChannel) (hop : c.op = .recv out)
      (hlen : 0 < st.buffer.len)
      (hsignal : st.sender.signalOne cfg.wakeMax .sender = .ok sender) :
      Decision cfg c st { st with buffer := st.buffer.popped, sender }
        (.ret (.recv (st.buffer.slot st.buffer.head)) (.ok ()))
  | recvClosed (out : Message) (hop : c.op = .recv out) (hlen : st.buffer.len = 0)
      (hclosed : st.buffer.closed = true) :
      Decision cfg c st st (.ret c.op (.error .queueClosed))
  | refused (d : Direction) (e : Error) (hdir : direction c.op = some d)
      (hopen : st.buffer.closed = false) (hitems : itemsFor st.buffer d = 0) :
      Decision cfg c st st (.ret c.op (.error e))
  | registered (d : Direction) (budget : WaitBudget) (channel : WakeChannel)
      (hdir : direction c.op = some d) (hopen : st.buffer.closed = false)
      (hitems : itemsFor st.buffer d = 0) (hreg : (st.channel d).register d = .ok channel) :
      Decision cfg c st (st.setChannel channel d) (.wait { c with budget })
  | closeAgain (hop : c.op = .close) (hclosed : st.buffer.closed = true) :
      Decision cfg c st st (.ret c.op (.ok ()))
  | closeFirst (sender receiver : WakeChannel) (hop : c.op = .close)
      (hopen : st.buffer.closed = false)
      (hsender : st.sender.broadcastWake cfg.wakeMax = .ok (true, sender))
      (hreceiver : st.receiver.broadcastWake cfg.wakeMax = .ok (true, receiver)) :
      Decision cfg c st ⟨st.buffer.close, sender, receiver⟩ (.ret c.op (.ok ()))

private theorem blockOn_cases (now : Duration) (c : Call) (st : QueueState) (d : Direction)
    (unavailable : Error) :
    (∃ e, blockOn now c st d unavailable = .ok (st, .ret c.op (.error e))) ∨
      ∃ budget, blockOn now c st d unavailable = (do
        let channel ← (st.channel d).register d
        return (st.setChannel channel d, .wait { c with budget })) := by
  rw [blockOn]
  cases hb : c.budget with
  | noWait => exact .inl ⟨_, rfl⟩
  | zero => exact .inl ⟨_, rfl⟩
  | finite duration deadline prepared =>
    cases hp : (WaitBudget.finite duration deadline prepared).prepareBlocking c.scheduler now with
    | error e => exact .inl ⟨e, by simp only [hp]⟩
    | ok budget => exact .inr ⟨budget, by simp only [hp]⟩
  | forever prepared =>
    cases hp : (WaitBudget.forever prepared).prepareBlocking c.scheduler now with
    | error e => exact .inl ⟨e, by simp only [hp]⟩
    | ok budget => exact .inr ⟨budget, by simp only [hp]⟩

private theorem blockOn_decision {cfg : QueueConfig} {now : Duration} {c : Call}
    {st st' : QueueState} {d : Direction} {unavailable : Error} {next : Next}
    (hdir : direction c.op = some d) (hopen : st.buffer.closed = false)
    (hitems : itemsFor st.buffer d = 0)
    (h : blockOn now c st d unavailable = .ok (st', next)) : Decision cfg c st st' next := by
  rcases blockOn_cases now c st d unavailable with ⟨e, he⟩ | ⟨budget, he⟩
  · rw [he] at h
    cases h
    exact .refused d e hdir hopen hitems
  · rw [he] at h
    cases hreg : (st.channel d).register d with
    | error p => simp [hreg, bind, Except.bind] at h
    | ok channel =>
      simp only [hreg, bind, Except.bind, pure, Except.pure] at h
      cases h
      exact .registered d budget channel hdir hopen hitems hreg

private theorem sendSection_decision {cfg : QueueConfig} {now : Duration} {c : Call} {data : Message}
    {st st' : QueueState} {next : Next} (hwf : st.buffer.Wf cfg.width) (hop : c.op = .send data)
    (hsize : data.length = st.buffer.messageSize)
    (h : sendSection cfg now c data st = .ok (st', next)) : Decision cfg c st st' next := by
  unfold sendSection ByteQueue.isClosed at h
  cases hclosed : st.buffer.closed with
  | true =>
    rw [hclosed, if_pos rfl] at h
    cases h
    exact .sendClosed data hop hclosed
  | false =>
    rw [hclosed, if_neg Bool.false_ne_true, ByteQueue.trySend_eq hwf] at h
    by_cases hfull : st.buffer.len = st.buffer.capacity
    · simp only [hsize, ne_eq, not_true_eq_false, if_false, hclosed, Bool.false_eq_true, hfull,
        if_true] at h
      refine blockOn_decision (by rw [hop]; rfl) hclosed ?_ h
      simp [itemsFor, ByteQueue.availableSlots, hfull]
    · simp only [hsize, ne_eq, not_true_eq_false, if_false, hclosed, Bool.false_eq_true,
        hfull] at h
      have hroom : st.buffer.len < st.buffer.capacity := Nat.lt_of_le_of_ne hwf.len_le hfull
      cases hsignal : st.receiver.signalOne cfg.wakeMax .receiver with
      | error p => simp [hsignal, bind, Except.bind] at h
      | ok receiver =>
        simp only [hsignal, bind, Except.bind, pure, Except.pure] at h
        cases h
        exact .sendOk data receiver hop hclosed hsize hroom hsignal

private theorem recvSection_decision {cfg : QueueConfig} {now : Duration} {c : Call} {out : Message}
    {st st' : QueueState} {next : Next} (hwf : st.buffer.Wf cfg.width) (hop : c.op = .recv out)
    (hsize : out.length = st.buffer.messageSize)
    (h : recvSection cfg now c out st = .ok (st', next)) : Decision cfg c st st' next := by
  unfold recvSection ByteQueue.isClosed at h
  rw [ByteQueue.tryRecv_eq hwf] at h
  by_cases hlen : st.buffer.len = 0
  · cases hclosed : st.buffer.closed with
    | true =>
      simp only [hsize, ne_eq, not_true_eq_false, if_false, hlen, if_true, hclosed] at h
      cases h
      exact .recvClosed out hop hlen hclosed
    | false =>
      simp only [hsize, ne_eq, not_true_eq_false, if_false, hlen, if_true, hclosed,
        Bool.false_eq_true] at h
      exact blockOn_decision (d := .receiver) (by rw [hop]; rfl) hclosed hlen h
  · simp only [hsize, ne_eq, not_true_eq_false, if_false, hlen] at h
    cases hsignal : st.sender.signalOne cfg.wakeMax .sender with
    | error p => simp [hsignal, bind, Except.bind] at h
    | ok sender =>
      simp only [hsignal, bind, Except.bind, pure, Except.pure] at h
      cases h
      exact .recvOk out sender hop (Nat.pos_of_ne_zero hlen) hsignal

private theorem closeSection_decision {cfg : QueueConfig} {c : Call} {st st' : QueueState}
    {next : Next} (hop : c.op = .close) (h : closeSection cfg c st = .ok (st', next)) :
    Decision cfg c st st' next := by
  unfold closeSection ByteQueue.isClosed at h
  cases hclosed : st.buffer.closed with
  | true =>
    rw [hclosed, if_pos rfl] at h
    cases h
    exact .closeAgain hop hclosed
  | false =>
    rw [hclosed, if_neg Bool.false_ne_true] at h
    cases hsender : st.sender.broadcastWake cfg.wakeMax with
    | error p => simp [hsender, bind, Except.bind] at h
    | ok rs =>
      cases hreceiver : st.receiver.broadcastWake cfg.wakeMax with
      | error p => simp [hsender, hreceiver, bind, Except.bind] at h
      | ok rr =>
        obtain ⟨senderOk, sender⟩ := rs
        obtain ⟨receiverOk, receiver⟩ := rr
        cases senderOk <;> cases receiverOk <;>
          simp [hsender, hreceiver, bind, Except.bind, pure, Except.pure] at h
        obtain ⟨rfl, rfl⟩ := h
        exact .closeFirst sender receiver hop hclosed hsender hreceiver

/-- The inversion lemma of the first section. -/
theorem checkSection_decision {cfg : QueueConfig} {now : Duration} {c : Call} {st st' : QueueState}
    {next : Next} (hwf : st.buffer.Wf cfg.width)
    (hv : validate st.buffer.messageSize c.op = .ok ())
    (h : checkSection cfg now c st = .ok (st', next)) : Decision cfg c st st' next := by
  rw [checkSection] at h
  cases hop : c.op with
  | send data =>
    rw [hop] at h hv
    exact sendSection_decision hwf hop (validate_send hv) h
  | recv out =>
    rw [hop] at h hv
    exact recvSection_decision hwf hop (validate_recv hv) h
  | close =>
    rw [hop] at h
    exact closeSection_decision hop h

/-- The first section does not panic when its counters have room: a token for every waiter, and
one more waiter below `u32::MAX`. -/
theorem checkSection_ok {cfg : QueueConfig} (now : Duration) {c : Call} {st : QueueState}
    (hwf : st.buffer.Wf cfg.width) (hv : validate st.buffer.messageSize c.op = .ok ())
    (hle : ∀ d, (st.channel d).wakeCredits ≤ (st.channel d).waiters)
    (hroom : ∀ d, (st.channel d).wake + ((st.channel d).waiters - (st.channel d).wakeCredits) ≤
      cfg.wakeMax)
    (hfit : ∀ d, (st.channel d).waiters < 2 ^ 32)
    (hnew : ∀ d, direction c.op = some d → (st.channel d).waiters + 1 < 2 ^ 32) :
    ∃ st' next, checkSection cfg now c st = .ok (st', next) := by
  have hblock (d : Direction) (hdir : direction c.op = some d) (unavailable : Error) :
      ∃ st' next, blockOn now c st d unavailable = .ok (st', next) := by
    rcases blockOn_cases now c st d unavailable with ⟨e, he⟩ | ⟨budget, he⟩
    · exact ⟨_, _, he⟩
    · obtain ⟨channel, hreg⟩ := WakeChannel.register_ok (d := d) (hnew d hdir)
      rw [hreg] at he
      exact ⟨_, _, he⟩
  have hsignal (d : Direction) : ∃ c', (st.channel d).signalOne cfg.wakeMax d = .ok c' := by
    refine WakeChannel.signalOne_ok ?_ (hfit d)
    intro hlt
    have := hroom d
    omega
  rw [checkSection]
  cases hop : c.op with
  | send data =>
    rw [hop] at hv
    obtain ⟨receiver, hs⟩ := hsignal .receiver
    simp only [sendSection, ByteQueue.isClosed, ByteQueue.trySend_eq hwf, validate_send hv, ne_eq,
      not_true_eq_false, if_false]
    cases hclosed : st.buffer.closed with
    | true => exact ⟨_, _, rfl⟩
    | false =>
      by_cases hfull : st.buffer.len = st.buffer.capacity
      · simp only [hfull, if_true, Bool.false_eq_true, if_false]
        exact hblock .sender (by rw [hop]; rfl) _
      · simp only [hfull, Bool.false_eq_true, if_false]
        rw [show st.receiver.signalOne cfg.wakeMax .receiver = .ok receiver from hs]
        exact ⟨_, _, rfl⟩
  | recv out =>
    rw [hop] at hv
    obtain ⟨sender, hs⟩ := hsignal .sender
    simp only [recvSection, ByteQueue.isClosed, ByteQueue.tryRecv_eq hwf, validate_recv hv, ne_eq,
      not_true_eq_false, if_false]
    by_cases hlen : st.buffer.len = 0
    · by_cases hclosed : st.buffer.closed = true
      · simp only [hlen, hclosed, if_true]
        exact ⟨_, _, rfl⟩
      · simp only [hlen, hclosed, if_true, Bool.false_eq_true, if_false]
        exact hblock .receiver (by rw [hop]; rfl) _
    · simp only [hlen, if_false]
      rw [show st.sender.signalOne cfg.wakeMax .sender = .ok sender from hs]
      exact ⟨_, _, rfl⟩
  | close =>
    obtain ⟨sender, hs⟩ := WakeChannel.broadcastWake_ok (hle .sender) (hroom .sender)
    obtain ⟨receiver, hr⟩ := WakeChannel.broadcastWake_ok (hle .receiver) (hroom .receiver)
    simp only [QueueState.channel] at hs hr
    simp only [closeSection, ByteQueue.isClosed, hs, hr]
    cases st.buffer.closed <;> exact ⟨_, _, rfl⟩

theorem confirmSection_cases {d : Direction} {st st' : QueueState}
    (h : confirmSection d st = .ok st') :
    st' = st.setChannel { st.channel d with
      wakeCredits := (st.channel d).wakeCredits - 1, waiters := (st.channel d).waiters - 1 } d := by
  rw [confirmSection] at h
  cases hc : (st.channel d).confirm with
  | error p => simp [hc, bind, Except.bind] at h
  | ok channel =>
    obtain ⟨-, -, rfl⟩ := WakeChannel.confirm_cases hc
    simpa [hc, bind, Except.bind, pure, Except.pure] using h.symm

theorem confirmSection_ok (d : Direction) (st : QueueState)
    (hc : 0 < (st.channel d).wakeCredits) (hw : 0 < (st.channel d).waiters) :
    ∃ st', confirmSection d st = .ok st' := by
  rw [confirmSection]
  rw [WakeChannel.confirm_eq hc hw]
  exact ⟨_, rfl⟩

/-- The reconciling section loops back exactly when it found a race token. -/
theorem reconcileSection_cases {d : Direction} {st st' : QueueState} {r : Option Error}
    (h : reconcileSection d st = .ok (st', r)) :
    (r = none ∧ 0 < (st.channel d).wake ∧
        st' = st.setChannel ⟨(st.channel d).waiters - 1, (st.channel d).wakeCredits - 1,
          (st.channel d).wake - 1⟩ d) ∨
      (r = some (if closedFor st d then Error.queueClosed else Error.timeout) ∧
        (st.channel d).wake = 0 ∧
        st' = st.setChannel { st.channel d with waiters := (st.channel d).waiters - 1 } d) := by
  rw [reconcileSection] at h
  by_cases htoken : 0 < (st.channel d).wake
  · left
    simp only [if_pos htoken] at h
    cases hc : WakeChannel.confirm { st.channel d with wake := (st.channel d).wake - 1 } with
    | error p => simp [hc, bind, Except.bind] at h
    | ok channel =>
      obtain ⟨-, -, rfl⟩ := WakeChannel.confirm_cases hc
      simp only [hc, bind, Except.bind, pure, Except.pure] at h
      cases h
      exact ⟨rfl, htoken, rfl⟩
  · right
    simp only [if_neg htoken] at h
    by_cases hw : 0 < (st.channel d).waiters
    · simp only [decrement, if_pos hw, bind, Except.bind, pure, Except.pure] at h
      cases h
      exact ⟨rfl, Nat.eq_zero_of_not_pos htoken, rfl⟩
    · simp [decrement, hw, bind, Except.bind] at h

theorem reconcileSection_ok (d : Direction) (st : QueueState)
    (hc : 0 < (st.channel d).wake → 0 < (st.channel d).wakeCredits)
    (hw : 0 < (st.channel d).waiters) : ∃ r, reconcileSection d st = .ok r := by
  rw [reconcileSection]
  by_cases htoken : 0 < (st.channel d).wake
  · simp only [if_pos htoken]
    rw [WakeChannel.confirm_eq (c := { st.channel d with wake := (st.channel d).wake - 1 })
      (hc htoken) hw]
    exact ⟨_, rfl⟩
  · simp only [if_neg htoken, decrement, if_pos hw]
    exact ⟨_, rfl⟩

end OsalRust.FreeRtos
