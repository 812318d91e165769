import OsalRust.Portable.ByteQueue

/-!
# The ring buffer refines a bounded FIFO

The abstract machine is a list of at most `capacity` messages with a closed flag. Every
sequence of `try_send`, `try_recv` and `close` on the ring buffer returns what the abstract
machine returns, and the list is read off the ring at every moment.
-/

namespace OsalRust

/-- A bounded FIFO of messages with a closed flag. The bound is part of the value. -/
structure BoundedFifo where
  capacity : Nat
  messageSize : Nat
  messages : List Message
  closed : Bool
  length_le : messages.length ≤ capacity

namespace BoundedFifo

def empty (capacity messageSize : Nat) : BoundedFifo :=
  ⟨capacity, messageSize, [], false, Nat.zero_le _⟩

/-- Send, with the precedence `InvalidMessageSize`, `QueueClosed`, `QueueFull`. -/
def trySend (a : BoundedFifo) (message : Message) : Result Unit × BoundedFifo :=
  if message.length ≠ a.messageSize then (.error .invalidMessageSize, a)
  else if a.closed then (.error .queueClosed, a)
  else if h : a.messages.length < a.capacity then
    (.ok (), { a with messages := a.messages ++ [message], length_le := by simpa using h })
  else (.error .queueFull, a)

/-- Receive, with the precedence `InvalidMessageSize`, a message, `QueueClosed`, `QueueEmpty`. -/
def tryRecv (a : BoundedFifo) (out : Message) : Result Nat × BoundedFifo × Message :=
  if out.length ≠ a.messageSize then (.error .invalidMessageSize, a, out)
  else
    match h : a.messages with
    | [] => (.error (if a.closed then .queueClosed else .queueEmpty), a, out)
    | message :: rest =>
      (.ok a.messageSize,
        { a with messages := rest, length_le := by have := a.length_le; simp [h] at this; omega },
        message)

def close (a : BoundedFifo) : BoundedFifo := { a with closed := true }

theorem tryRecv_nil {a : BoundedFifo} {out : Message} (hsize : out.length = a.messageSize)
    (h : a.messages = []) :
    a.tryRecv out = (.error (if a.closed then .queueClosed else .queueEmpty), a, out) := by
  obtain ⟨capacity, messageSize, messages, closed, hle⟩ := a
  subst h
  simp only [tryRecv, hsize, ne_eq, not_true_eq_false, if_false]

theorem tryRecv_cons {a : BoundedFifo} {out message : Message} {rest : List Message}
    (hsize : out.length = a.messageSize) (h : a.messages = message :: rest) :
    ∃ hle, a.tryRecv out =
      (.ok a.messageSize, ⟨a.capacity, a.messageSize, rest, a.closed, hle⟩, message) := by
  obtain ⟨capacity, messageSize, messages, closed, hle⟩ := a
  subst h
  refine ⟨by simp at hle ⊢; omega, ?_⟩
  simp only [tryRecv, hsize, ne_eq, not_true_eq_false, if_false]

end BoundedFifo

inductive ByteQueueOp where
  | trySend (message : Message)
  | tryRecv (out : Message)
  | close

/-- What a call returns; a receive also shows the caller's buffer after the call. -/
inductive ByteQueueReply where
  | sent (result : Result Unit)
  | received (result : Result Nat) (out : Message)
  | closed
  deriving DecidableEq

def ByteQueueOp.buffer : ByteQueueOp → Option Message
  | .tryRecv out => some out
  | _ => none

def ByteQueueReply.buffer : ByteQueueReply → Option Message
  | .received _ out => some out
  | _ => none

def ByteQueueReply.failed : ByteQueueReply → Bool
  | .sent (.error _) => true
  | .received (.error _) _ => true
  | _ => false

namespace BoundedFifo

def exec (a : BoundedFifo) : ByteQueueOp → ByteQueueReply × BoundedFifo
  | .trySend message => let r := a.trySend message; (.sent r.1, r.2)
  | .tryRecv out => let r := a.tryRecv out; (.received r.1 r.2.2, r.2.1)
  | .close => (.closed, a.close)

def runOps : BoundedFifo → List ByteQueueOp → List ByteQueueReply × BoundedFifo
  | a, [] => ([], a)
  | a, op :: ops =>
    let r := a.exec op
    let rest := r.2.runOps ops
    (r.1 :: rest.1, rest.2)

end BoundedFifo

namespace ByteQueue

def exec (w : UsizeWidth) (q : ByteQueue) : ByteQueueOp → Checked (ByteQueueReply × ByteQueue)
  | .trySend message => do
    let r ← q.trySend w message
    return (.sent r.1, r.2)
  | .tryRecv out => do
    let r ← q.tryRecv w out
    return (.received r.1 r.2.2, r.2.1)
  | .close => return (.closed, q.close)

def runOps (w : UsizeWidth) : ByteQueue → List ByteQueueOp →
    Checked (List ByteQueueReply × ByteQueue)
  | q, [] => .ok ([], q)
  | q, op :: ops => do
    let r ← q.exec w op
    let rest ← runOps w r.2 ops
    return (r.1 :: rest.1, rest.2)

structure Refines (w : UsizeWidth) (q : ByteQueue) (a : BoundedFifo) : Prop where
  wf : q.Wf w
  capacity : q.capacity = a.capacity
  messageSize : q.messageSize = a.messageSize
  messages : q.messages = a.messages
  closed : q.closed = a.closed

theorem refines_empty {w : UsizeWidth} {reserve : Nat → Bool} {capacity messageSize : Nat}
    {q : ByteQueue} (h : new w reserve capacity messageSize = .ok q) :
    Refines w q (BoundedFifo.empty capacity messageSize) := by
  have hwf := new_wf h
  obtain ⟨-, -, -, -, rfl⟩ := new_eq_ok_iff.mp h
  exact ⟨hwf, rfl, rfl, rfl, rfl⟩

private theorem trySend_refines {w : UsizeWidth} {q : ByteQueue} {a : BoundedFifo}
    (h : Refines w q a) (message : Message) :
    ∃ q', q.trySend w message = .ok ((a.trySend message).1, q') ∧
      Refines w q' (a.trySend message).2 := by
  have hlen : a.messages.length = q.len := by rw [← h.messages, messages_length]
  have hcapacity := h.capacity
  rw [trySend_eq h.wf, h.messageSize, h.closed]
  rw [BoundedFifo.trySend]
  by_cases hsize : message.length = a.messageSize
  · by_cases hclosed : a.closed = true
    · exact ⟨q, by simp [hsize, hclosed], by simpa [hsize, hclosed] using h⟩
    · by_cases hfull : q.len = q.capacity
      · have hno : ¬ a.messages.length < a.capacity := by omega
        exact ⟨q, by simp [hsize, hclosed, hfull, hno], by simpa [hsize, hclosed, hno] using h⟩
      · have hroom : q.len < q.capacity := by have := h.wf.len_le; omega
        have hyes : a.messages.length < a.capacity := by omega
        have hsize' : message.length = q.messageSize := hsize.trans h.messageSize.symm
        refine ⟨q.pushed message, by simp [hsize, hclosed, hfull, hyes], ?_⟩
        simp only [hsize, hclosed, hyes, ne_eq, not_true_eq_false, if_false, dite_true,
          Bool.false_eq_true]
        refine ⟨h.wf.pushed hsize' hroom, h.capacity, h.messageSize, ?_, by simp [pushed, h.closed, hclosed]⟩
        rw [pushed_messages h.wf hsize' hroom, h.messages]
  · exact ⟨q, by simp [hsize], by simpa [hsize] using h⟩

private theorem tryRecv_refines {w : UsizeWidth} {q : ByteQueue} {a : BoundedFifo}
    (h : Refines w q a) (out : Message) :
    ∃ q', q.tryRecv w out = .ok ((a.tryRecv out).1, q', (a.tryRecv out).2.2) ∧
      Refines w q' (a.tryRecv out).2.1 := by
  have hlen : a.messages.length = q.len := by rw [← h.messages, messages_length]
  rw [tryRecv_eq h.wf, h.messageSize, h.closed]
  by_cases hsize : out.length = a.messageSize
  · by_cases hzero : q.len = 0
    · have hnil : a.messages = [] := List.length_eq_zero_iff.mp (hlen.trans hzero)
      rw [BoundedFifo.tryRecv_nil hsize hnil]
      exact ⟨q, by simp [hsize, hzero], h⟩
    · have hm := popped_messages h.wf (Nat.pos_of_ne_zero hzero)
      obtain ⟨hle, he⟩ := BoundedFifo.tryRecv_cons hsize (h.messages.symm.trans hm)
      rw [he]
      exact ⟨q.popped, by simp [hsize, hzero], h.wf.popped (Nat.pos_of_ne_zero hzero), h.capacity,
        h.messageSize, rfl, h.closed⟩
  · exact ⟨q, by simp [hsize, BoundedFifo.tryRecv], by simpa [hsize, BoundedFifo.tryRecv] using h⟩

/-- One call on the ring buffer is one call on the abstract machine. -/
theorem exec_refines {w : UsizeWidth} {q : ByteQueue} {a : BoundedFifo} (h : Refines w q a)
    (op : ByteQueueOp) :
    ∃ q', q.exec w op = .ok ((a.exec op).1, q') ∧ Refines w q' (a.exec op).2 := by
  cases op with
  | trySend message =>
    obtain ⟨q', he, hr⟩ := trySend_refines h message
    exact ⟨q', by simp [exec, BoundedFifo.exec, he, bind, Except.bind, pure, Except.pure], hr⟩
  | tryRecv out =>
    obtain ⟨q', he, hr⟩ := tryRecv_refines h out
    exact ⟨q', by simp [exec, BoundedFifo.exec, he, bind, Except.bind, pure, Except.pure], hr⟩
  | close => exact ⟨q.close, rfl, h.wf.close, h.capacity, h.messageSize, h.messages, rfl⟩

theorem runOps_refines {w : UsizeWidth} {q : ByteQueue} {a : BoundedFifo} (h : Refines w q a)
    (ops : List ByteQueueOp) :
    ∃ q', q.runOps w ops = .ok ((a.runOps ops).1, q') ∧ Refines w q' (a.runOps ops).2 := by
  induction ops generalizing q a with
  | nil => exact ⟨q, rfl, h⟩
  | cons op ops ih =>
    obtain ⟨q₁, he, h₁⟩ := exec_refines h op
    obtain ⟨q₂, hr, h₂⟩ := ih h₁
    refine ⟨q₂, ?_, h₂⟩
    simp only [runOps, BoundedFifo.runOps, he, hr, bind, Except.bind, pure, Except.pure]

theorem exec_failed {w : UsizeWidth} {q q' : ByteQueue} {op : ByteQueueOp} {reply : ByteQueueReply}
    (h : q.Wf w) (he : q.exec w op = .ok (reply, q')) (hf : reply.failed = true) :
    q' = q ∧ reply.buffer = op.buffer := by
  cases op with
  | trySend message =>
    rw [exec, trySend_eq h] at he
    simp only [bind, Except.bind, pure, Except.pure, Except.ok.injEq, Prod.mk.injEq] at he
    obtain ⟨rfl, rfl⟩ := he
    refine ⟨?_, rfl⟩
    split_ifs at hf ⊢
    · rfl
    · rfl
    · rfl
    · simp [ByteQueueReply.failed] at hf
  | tryRecv out =>
    rw [exec, tryRecv_eq h] at he
    simp only [bind, Except.bind, pure, Except.pure, Except.ok.injEq, Prod.mk.injEq] at he
    obtain ⟨rfl, rfl⟩ := he
    split_ifs at hf ⊢
    · exact ⟨rfl, rfl⟩
    · exact ⟨rfl, rfl⟩
    · exact ⟨rfl, rfl⟩
    · simp [ByteQueueReply.failed] at hf
  | close =>
    simp only [exec, pure, Except.pure, Except.ok.injEq, Prod.mk.injEq] at he
    obtain ⟨rfl, rfl⟩ := he
    simp [ByteQueueReply.failed] at hf

/-- Every sequence of calls on a queue accepted by `new` runs without a fault and returns what
the bounded FIFO returns; the ring then holds the FIFO's list, and from every state so reached
a failing call leaves the queue and the caller's buffer as they were. -/
theorem runOps_refines_boundedFifo (w : UsizeWidth) (reserve : Nat → Bool)
    (capacity messageSize : Nat) (q : ByteQueue)
    (hnew : new w reserve capacity messageSize = .ok q) (ops : List ByteQueueOp) :
    ∃ q', q.runOps w ops = .ok (((BoundedFifo.empty capacity messageSize).runOps ops).1, q') ∧
      Refines w q' ((BoundedFifo.empty capacity messageSize).runOps ops).2 ∧
      ∀ op reply q'', q'.exec w op = .ok (reply, q'') → reply.failed = true →
        q'' = q' ∧ reply.buffer = op.buffer := by
  obtain ⟨q', hr, href⟩ := runOps_refines (refines_empty hnew) ops
  exact ⟨q', hr, href, fun _ _ _ he hf => exec_failed href.wf he hf⟩

/-- A queue of two slots whose tail wraps, drained after it was closed. -/
theorem runOps_refines_boundedFifo_wrap :
    ∃ q, new ⟨64, by decide⟩ (fun _ => true) 2 2 = .ok q ∧
      ∃ q', q.runOps ⟨64, by decide⟩ [.trySend [1, 2], .trySend [3, 4], .tryRecv [0, 0],
          .trySend [5, 6], .close, .tryRecv [0, 0], .tryRecv [0, 0], .tryRecv [7, 7]] =
        .ok ([.sent (.ok ()), .sent (.ok ()), .received (.ok 2) [1, 2], .sent (.ok ()), .closed,
          .received (.ok 2) [3, 4], .received (.ok 2) [5, 6],
          .received (.error .queueClosed) [7, 7]], q') := by
  refine ⟨_, rfl, ?_⟩
  obtain ⟨q', hr, -, -⟩ := runOps_refines_boundedFifo ⟨64, by decide⟩ (fun _ => true) 2 2 _ rfl
    [.trySend [1, 2], .trySend [3, 4], .tryRecv [0, 0], .trySend [5, 6], .close,
      .tryRecv [0, 0], .tryRecv [0, 0], .tryRecv [7, 7]]
  exact ⟨q', hr⟩

end ByteQueue

end OsalRust
