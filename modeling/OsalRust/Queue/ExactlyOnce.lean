import OsalRust.FreeRtos.QueueLaws
import OsalRust.Posix.QueueLaws

/-!
# Both blocking queues deliver exactly once

The two backends wait in different ways around the same ring buffer. Each refines the delivery
system: forget how a caller waits, and keep what it was told and what the buffer holds.
-/

namespace OsalRust

open Framework

private theorem status_update {ι α : Type} [DecidableEq ι] (f : α → Delivery.Status) (tasks : ι → α)
    (t : ι) (p : α) : (fun i => f (Function.update tasks t p i)) =
      Function.update (fun i => f (tasks i)) t (f p) :=
  Function.comp_update f tasks t p

namespace FreeRtos

def Phase.status : Phase → Delivery.Status
  | .idle => .idle
  | .start c | .check c _ | .waiting c | .woken c | .expired c => .pending c.op
  | .returned op r => .decided op r

variable {ι : Type} [DecidableEq ι] {cfg : QueueConfig} {s s' : QueueSystem ι} {l : QueueEvent ι}

def delivery (s : QueueSystem ι) : Delivery.State ι :=
  ⟨s.state.buffer.messages, fun t => (s.tasks t).status⟩

private theorem delivery_move (s : QueueSystem ι) (t : ι) (st : QueueState) (p : Phase) :
    delivery (s.move t st p) =
      ⟨st.buffer.messages, Function.update (delivery s).status t p.status⟩ := by
  unfold delivery QueueSystem.move
  rw [status_update Phase.status]

private theorem delivery_internal {t : ι} {st : QueueState} {p : Phase}
    (hb : st.buffer = s.state.buffer) (hp : p.status = (s.tasks t).status) :
    Delivery.Step (delivery s) .internal (delivery (s.move t st p)) := by
  have he : delivery (s.move t st p) = delivery s := by
    rw [delivery_move, hb, hp]
    exact congrArg (Delivery.State.mk _) (Function.update_eq_self t (delivery s).status)
  rw [he]
  exact .internal _

private theorem delivery_check {c : Call} {t : ι} {again : Bool} {st : QueueState} {next : Next}
    (hwf : s.state.buffer.Wf cfg.width) (ht : s.tasks t = .check c again)
    (hd : Decision cfg c s.state st next) :
    Delivery.Step (delivery s) (next.event t) (delivery (s.move t st next.phase)) := by
  have hpending : (delivery s).status t = .pending c.op := by
    simp only [delivery, ht, Phase.status]
  have hfail (e : Error) : Delivery.Step (delivery s) (.fail t e)
      (delivery (s.move t s.state (.returned c.op (.error e)))) := by
    rw [delivery_move]
    exact .fail _ t c.op e hpending
  have hevent (e : Error) : (Next.ret c.op (.error e)).event t = .fail t e := by
    cases c.op <;> rfl
  cases hd with
  | sendClosed | recvClosed | refused =>
    rw [hevent]
    exact hfail _
  | registered d budget channel hdir hopen hitems hreg =>
    exact delivery_internal (by simp) (by simp [ht, Next.phase, Phase.status])
  | sendOk data receiver hop hopen hsize hroom hsignal =>
    rw [delivery_move, hop, ByteQueue.pushed_messages hwf hsize hroom]
    exact .enqueue _ t data (hop ▸ hpending)
  | recvOk out sender hop hlen hsignal =>
    rw [delivery_move]
    exact .dequeue _ t out _ _ (hop ▸ hpending) (ByteQueue.popped_messages hwf hlen)
  | closeAgain hop hclosed =>
    rw [delivery_move, hop]
    exact .close _ t (hop ▸ hpending)
  | closeFirst sender receiver hop hopen hs hr =>
    rw [delivery_move, hop]
    exact .close _ t (hop ▸ hpending)

theorem delivery_step (h : Ready cfg s) (hs : QueueStep cfg s l s') :
    Delivery.Step (delivery s) l (delivery s') := by
  cases hs with
  | invoke t op timeout scheduler ht =>
    rw [delivery_move]
    exact .invoke _ t op (by simp only [delivery, ht, Phase.status])
  | reject t c e ht hv =>
    rw [delivery_move]
    exact .fail _ t c.op e (by simp only [delivery, ht, Phase.status])
  | enter t c ht hv => exact delivery_internal rfl (by rw [ht]; rfl)
  | lockFailed t c e ht hl =>
    rw [delivery_move]
    exact .fail _ t c.op e (by simp only [delivery, ht, Phase.status])
  | check t c again st next ht hsec =>
    have hv := h.valid t c (by rw [ht]; rfl)
    exact delivery_check h.wf ht (checkSection_decision h.wf hv hsec)
  | take t c d ht hd hw => exact delivery_internal (by simp) (by rw [ht]; rfl)
  | expire t c ht he => exact delivery_internal rfl (by rw [ht]; rfl)
  | confirm t c d st ht hd hsec =>
    rw [confirmSection_cases hsec]
    exact delivery_internal (by simp) (by rw [ht]; rfl)
  | retry t c d st ht hd hsec =>
    rcases reconcileSection_cases hsec with ⟨-, -, rfl⟩ | ⟨hr, -, -⟩
    · exact delivery_internal (by simp) (by rw [ht]; rfl)
    · contradiction
  | timeout t c d st e ht hd hsec =>
    rcases reconcileSection_cases hsec with ⟨hr, -, -⟩ | ⟨-, -, rfl⟩
    · contradiction
    · rw [delivery_move, QueueState.buffer_setChannel]
      exact .fail _ t c.op e (by simp only [delivery, ht, Phase.status])
  | ret t op r ht =>
    rw [delivery_move]
    exact .ret _ t op r (by simp only [delivery, ht, Phase.status])
  | tick now hn => exact .internal _

/-- The FreeRTOS queue refines the delivery system. -/
theorem run_delivery {tr : List (QueueEvent ι)} (h : (queueLts ι cfg).Run tr s) :
    (Delivery.lts ι).Run tr (delivery s) := by
  apply h.map delivery
  · rintro s ⟨reserve, capacity, messageSize, buffer, hnew, hst, htasks⟩
    obtain ⟨-, -, -, -, rfl⟩ := ByteQueue.new_eq_ok_iff.mp hnew
    simp only [delivery, hst, htasks, Phase.status]
    rfl
  · intro s l s' hr hs
    exact delivery_step (ready_of_reachable hr) hs

end FreeRtos

namespace Posix

def Phase.status : Phase → Delivery.Status
  | .idle => .idle
  | .start c | .enter c | .blocked c _ | .woken c _ | .timedOut c => .pending c.op
  | .returned op r => .decided op r

variable {ι : Type} [DecidableEq ι] {cfg : QueueConfig} {s s' : QueueSystem ι} {l : QueueEvent ι}

def delivery (s : QueueSystem ι) : Delivery.State ι :=
  ⟨s.buffer.messages, fun t => (s.tasks t).status⟩

omit [DecidableEq ι] in
private theorem wakeTasks_status (chosen : ι → Bool) (tasks : ι → Phase) (i : ι) :
    (wakeTasks chosen tasks i).status = (tasks i).status := by
  rw [wakeTasks]
  split_ifs
  · cases tasks i <;> rfl
  · rfl

private theorem delivery_commit (s : QueueSystem ι) (t : ι) (b : ByteQueue) (chosen : ι → Bool)
    (p : Phase) : delivery (s.commit t b chosen p) =
      ⟨b.messages, Function.update (delivery s).status t p.status⟩ := by
  unfold delivery QueueSystem.commit
  rw [status_update Phase.status]
  simp only [wakeTasks_status]

private theorem delivery_move (s : QueueSystem ι) (t : ι) (p : Phase) :
    delivery (s.move t p) =
      ⟨s.buffer.messages, Function.update (delivery s).status t p.status⟩ := by
  unfold delivery QueueSystem.move
  rw [status_update Phase.status]

private theorem status_same {t : ι} {p : Phase} (hp : p.status = (s.tasks t).status) :
    (⟨s.buffer.messages, Function.update (delivery s).status t p.status⟩ : Delivery.State ι) =
      delivery s := by
  rw [hp]
  exact congrArg (Delivery.State.mk _) (Function.update_eq_self t (delivery s).status)

private theorem delivery_internal {t : ι} {p : Phase} (hp : p.status = (s.tasks t).status) :
    Delivery.Step (delivery s) .internal (delivery (s.move t p)) := by
  rw [delivery_move, status_same hp]
  exact .internal _

private theorem delivery_section {c : Call} {t : ι} {b : ByteQueue} {next : Next} {wake : Wake}
    {first : Bool} (chosen : ι → Bool) (hwf : s.buffer.Wf cfg.width)
    (hpending : (s.tasks t).status = .pending c.op)
    (hd : Decision cfg s.now first c s.buffer b next wake) :
    Delivery.Step (delivery s) (next.event t) (delivery (s.commit t b chosen (next.phase c))) := by
  have hfail (e : Error) : Delivery.Step (delivery s) (.fail t e)
      (delivery (s.commit t s.buffer chosen (.returned c.op (.error e)))) := by
    rw [delivery_commit]
    exact .fail _ t c.op e hpending
  have hevent (e : Error) : (Next.ret c.op (.error e)).event t = .fail t e := by
    cases c.op <;> rfl
  cases hd with
  | closed | overflow | refused =>
    rw [hevent]
    exact hfail _
  | wait d deadline hdir hopen hitems =>
    have hsame : ((Next.wait deadline).phase c).status = (s.tasks t).status := hpending.symm
    rw [delivery_commit, status_same hsame]
    exact .internal _
  | sendOk data hop hopen hsize hroom =>
    rw [delivery_commit, hop, ByteQueue.pushed_messages hwf hsize hroom]
    exact .enqueue _ t data (hop ▸ hpending)
  | recvOk out hop hlen =>
    rw [delivery_commit]
    exact .dequeue _ t out _ _ (hop ▸ hpending) (ByteQueue.popped_messages hwf hlen)
  | closeAgain hop hclosed =>
    rw [delivery_commit, hop]
    exact .close _ t (hop ▸ hpending)
  | closeFirst hop hopen =>
    rw [delivery_commit, hop]
    exact .close _ t (hop ▸ hpending)

theorem delivery_step (h : Ready cfg s) (hs : QueueStep cfg s l s') :
    Delivery.Step (delivery s) l (delivery s') := by
  cases hs with
  | invoke t c ht =>
    rw [delivery_move]
    exact .invoke _ t c.op (by simp only [delivery, ht, Phase.status])
  | reject t c e ht hv =>
    rw [delivery_move]
    exact .fail _ t c.op e (by simp only [delivery, ht, Phase.status])
  | accept t c ht hv => exact delivery_internal (by rw [ht]; rfl)
  | first t c b next wake chosen ht hsec hw =>
    have hv := h.valid t c (by rw [ht]; rfl)
    exact delivery_section chosen h.wf (by rw [ht]; rfl) (firstSection_decision h.wf hv hsec)
  | round t c deadline b next wake chosen ht hsec hw =>
    have hv := h.valid t c (by rw [ht]; rfl)
    exact delivery_section chosen h.wf (by rw [ht]; rfl) (roundSection_decision h.wf hv hsec)
  | spurious t c deadline ht => exact delivery_internal (by rw [ht]; rfl)
  | expire t c deadline ht hd => exact delivery_internal (by rw [ht]; rfl)
  | timeout t c ht =>
    rw [delivery_move]
    exact .fail _ t c.op .timeout (by simp only [delivery, ht, Phase.status])
  | ret t op r ht =>
    rw [delivery_move]
    exact .ret _ t op r (by simp only [delivery, ht, Phase.status])
  | tick now hn => exact .internal _

/-- The POSIX queue refines the delivery system. -/
theorem run_delivery {tr : List (QueueEvent ι)} (h : (queueLts ι cfg).Run tr s) :
    (Delivery.lts ι).Run tr (delivery s) := by
  apply h.map delivery
  · rintro s ⟨reserve, capacity, messageSize, hnew, htasks⟩
    obtain ⟨-, -, -, -, hbuffer⟩ := ByteQueue.new_eq_ok_iff.mp hnew
    simp only [delivery, hbuffer, htasks, Phase.status]
    rfl
  · intro s l s' hr hs
    exact delivery_step (ready_of_reachable hr) hs

end Posix

/-- Along every run of either backend the messages received, followed by the buffered ones, are
the messages sent, in the order of the critical sections; every call that returned did to the
buffer exactly what its result says; and every single step changes the buffer as it shows. -/
theorem queues_exactlyOnce (ι : Type) [DecidableEq ι] :
    (∀ cfg tr s, (FreeRtos.queueLts ι cfg).Run tr s →
      Delivery.ExactlyOnce tr s.state.buffer.messages ∧
      ∀ l s', (FreeRtos.queueLts ι cfg).step s l s' →
        Delivery.Changes l s.state.buffer.messages s'.state.buffer.messages) ∧
    (∀ cfg tr s, (Posix.queueLts ι cfg).Run tr s →
      Delivery.ExactlyOnce tr s.buffer.messages ∧
      ∀ l s', (Posix.queueLts ι cfg).step s l s' →
        Delivery.Changes l s.buffer.messages s'.buffer.messages) := by
  constructor
  · intro cfg tr s h
    refine ⟨Delivery.run_exactlyOnce (FreeRtos.run_delivery h), ?_⟩
    intro l s' hs
    exact (FreeRtos.delivery_step (FreeRtos.ready_of_reachable h.reachable) hs).changes
  · intro cfg tr s h
    refine ⟨Delivery.run_exactlyOnce (Posix.run_delivery h), ?_⟩
    intro l s' hs
    exact (Posix.delivery_step (Posix.ready_of_reachable h.reachable) hs).changes

private theorem freeRtos_handover : ∃ tr s,
    (FreeRtos.queueLts Bool FreeRtos.smallTarget).Run tr s ∧ Delivery.sent tr = [[7]] := by
  have h₀ : (FreeRtos.queueLts Bool FreeRtos.smallTarget).Run [] FreeRtos.oneSlotQueue :=
    .start ⟨fun _ => true, 1, 1, _, rfl, rfl, rfl⟩
  have h₁ := h₀.snoc (.invoke _ true (.send [7]) .noWait .running rfl)
  have h₂ := h₁.snoc (.enter _ true ⟨.send [7], .noWait, .running⟩ rfl rfl)
  have h₃ := h₂.snoc (.check _ true ⟨.send [7], .noWait, .running⟩ false
    ⟨⟨[7], 1, 1, 0, 0, 1, false⟩, ⟨0, 0, 0⟩, ⟨0, 0, 0⟩⟩ (.ret (.send [7]) (.ok ())) rfl rfl)
  have h₄ := h₃.snoc (.invoke _ false (.recv [0]) .noWait .running rfl)
  have h₅ := h₄.snoc (.enter _ false ⟨.recv [0], .noWait, .running⟩ rfl rfl)
  exact ⟨_, _, h₅.snoc (.check _ false ⟨.recv [0], .noWait, .running⟩ false
    ⟨⟨[7], 1, 1, 0, 0, 0, false⟩, ⟨0, 0, 0⟩, ⟨0, 0, 0⟩⟩ (.ret (.recv [7]) (.ok ())) rfl rfl), rfl⟩

private theorem posix_handover : ∃ tr s,
    (Posix.queueLts Bool Posix.wideTarget).Run tr s ∧ Delivery.sent tr = [[7]] := by
  have h₀ : (Posix.queueLts Bool Posix.wideTarget).Run [] Posix.oneSlotQueue :=
    .start ⟨fun _ => true, 1, 1, rfl, rfl⟩
  have h₁ := h₀.snoc (.invoke _ true ⟨.send [7], .noWait⟩ rfl)
  have h₂ := h₁.snoc (.accept _ true ⟨.send [7], .noWait⟩ rfl rfl)
  have h₃ := h₂.snoc (.first _ true ⟨.send [7], .noWait⟩ ⟨[7], 1, 1, 0, 0, 1, false⟩
    (.ret (.send [7]) (.ok ())) (.one .receiver) (fun _ => false) rfl rfl (by decide))
  have h₄ := h₃.snoc (.invoke _ false ⟨.recv [0], .noWait⟩ rfl)
  have h₅ := h₄.snoc (.accept _ false ⟨.recv [0], .noWait⟩ rfl rfl)
  exact ⟨_, _, h₅.snoc (.first _ false ⟨.recv [0], .noWait⟩ ⟨[7], 1, 1, 0, 0, 0, false⟩
    (.ret (.recv [7]) (.ok ())) (.one .sender) (fun _ => false) rfl rfl (by decide)), rfl⟩

theorem queues_exactlyOnce_handover :
    (∃ tr s, (FreeRtos.queueLts Bool FreeRtos.smallTarget).Run tr s ∧
      Delivery.received tr ++ s.state.buffer.messages = [[7]]) ∧
    (∃ tr s, (Posix.queueLts Bool Posix.wideTarget).Run tr s ∧
      Delivery.received tr ++ s.buffer.messages = [[7]]) := by
  obtain ⟨tr, s, hr, hsent⟩ := freeRtos_handover
  obtain ⟨tr', s', hr', hsent'⟩ := posix_handover
  have h := queues_exactlyOnce Bool
  exact ⟨⟨tr, s, hr, (h.1 _ tr s hr).1.1.trans hsent⟩,
    ⟨tr', s', hr', (h.2 _ tr' s' hr').1.1.trans hsent'⟩⟩

end OsalRust
