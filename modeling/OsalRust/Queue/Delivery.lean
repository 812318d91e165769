import OsalRust.Framework.Lts
import OsalRust.Portable.ByteQueue

/-!
# Exactly-once delivery

The purpose of a blocking queue, apart from how its callers wait: every call decides once, in
one critical section, and the messages leave in the order they entered. The two blocking
backends refine this system, so its laws are theirs.
-/

namespace OsalRust

open Framework

/-- A queue call with its arguments. A receive carries the caller's buffer. -/
inductive QueueOp where
  | send (data : Message)
  | recv (buffer : Message)
  | close
  deriving DecidableEq

inductive Direction where
  | sender
  | receiver
  deriving DecidableEq

def direction : QueueOp → Option Direction
  | .send _ => some .sender
  | .recv _ => some .receiver
  | .close => none

/-- `validate_send_message_size` and `validate_recv_buffer_size`. -/
def validate (messageSize : Nat) : QueueOp → Result Unit
  | .send data => if data.length ≠ messageSize then .error .invalidMessageSize else .ok ()
  | .recv out => if out.length ≠ messageSize then .error .invalidMessageSize else .ok ()
  | .close => .ok ()

theorem validate_send {messageSize : Nat} {data : Message}
    (h : validate messageSize (.send data) = .ok ()) : data.length = messageSize := by
  by_contra hne
  simp [validate, hne] at h

theorem validate_recv {messageSize : Nat} {out : Message}
    (h : validate messageSize (.recv out) = .ok ()) : out.length = messageSize := by
  by_contra hne
  simp [validate, hne] at h

/-- What a caller of this direction waits for: a free slot or a message. -/
def itemsFor (b : ByteQueue) : Direction → Nat
  | .sender => b.availableSlots
  | .receiver => b.len

/-- What one step of a queue shows: a call begins, its deciding critical section adds or
removes a message, fails or closes the queue, and the call returns. -/
inductive QueueEvent (ι : Type) where
  | invoke (t : ι) (op : QueueOp)
  | enqueue (t : ι) (message : Message)
  | dequeue (t : ι) (message : Message)
  | fail (t : ι) (e : Error)
  | close (t : ι)
  | ret (t : ι) (op : QueueOp) (r : Result Unit)
  | internal

namespace Delivery

inductive Status where
  | idle
  | pending (op : QueueOp)
  | decided (op : QueueOp) (r : Result Unit)

structure State (ι : Type) where
  buffered : List Message
  status : ι → Status

variable {ι : Type} [DecidableEq ι]

inductive Step : State ι → QueueEvent ι → State ι → Prop
  | invoke (s : State ι) (t : ι) (op : QueueOp) (h : s.status t = .idle) :
      Step s (.invoke t op) { s with status := Function.update s.status t (.pending op) }
  | enqueue (s : State ι) (t : ι) (message : Message) (h : s.status t = .pending (.send message)) :
      Step s (.enqueue t message)
        ⟨s.buffered ++ [message], Function.update s.status t (.decided (.send message) (.ok ()))⟩
  | dequeue (s : State ι) (t : ι) (buffer message : Message) (rest : List Message)
      (h : s.status t = .pending (.recv buffer)) (hb : s.buffered = message :: rest) :
      Step s (.dequeue t message)
        ⟨rest, Function.update s.status t (.decided (.recv message) (.ok ()))⟩
  | fail (s : State ι) (t : ι) (op : QueueOp) (e : Error) (h : s.status t = .pending op) :
      Step s (.fail t e) { s with status := Function.update s.status t (.decided op (.error e)) }
  | close (s : State ι) (t : ι) (h : s.status t = .pending .close) :
      Step s (.close t) { s with status := Function.update s.status t (.decided .close (.ok ())) }
  | ret (s : State ι) (t : ι) (op : QueueOp) (r : Result Unit) (h : s.status t = .decided op r) :
      Step s (.ret t op r) { s with status := Function.update s.status t .idle }
  | internal (s : State ι) : Step s .internal s

def lts (ι : Type) [DecidableEq ι] : Lts (State ι) (QueueEvent ι) where
  init s := s = ⟨[], fun _ => .idle⟩
  step := Step

def sent (tr : List (QueueEvent ι)) : List Message :=
  tr.filterMap fun
    | .enqueue _ message => some message
    | _ => none

def received (tr : List (QueueEvent ι)) : List Message :=
  tr.filterMap fun
    | .dequeue _ message => some message
    | _ => none

omit [DecidableEq ι] in
theorem sent_append (tr tr' : List (QueueEvent ι)) : sent (tr ++ tr') = sent tr ++ sent tr' :=
  List.filterMap_append

omit [DecidableEq ι] in
theorem received_append (tr tr' : List (QueueEvent ι)) :
    received (tr ++ tr') = received tr ++ received tr' :=
  List.filterMap_append

inductive Effect where
  | enqueued (message : Message)
  | dequeued (message : Message)
  deriving DecidableEq

/-- The last call of task `t`, with everything it did to the buffer since it began. -/
def lastCall (t : ι) (tr : List (QueueEvent ι)) : Option (QueueOp × List Effect) :=
  tr.foldl
    (fun last e =>
      match e with
      | .invoke u op => if u = t then some (op, []) else last
      | .enqueue u message =>
        if u = t then last.map fun c => (c.1, c.2 ++ [.enqueued message]) else last
      | .dequeue u message =>
        if u = t then last.map fun c => (c.1, c.2 ++ [.dequeued message]) else last
      | _ => last)
    none

/-- The account a returned call owes: `invoked` is the call as it was made, `op` the call as it
returns (a successful receive has the message in its buffer), `effects` all it did. -/
def Settled (invoked op : QueueOp) (r : Result Unit) (effects : List Effect) : Prop :=
  match invoked, r with
  | .send data, .ok () => op = .send data ∧ effects = [.enqueued data]
  | .recv _, .ok () => ∃ message, op = .recv message ∧ effects = [.dequeued message]
  | .close, .ok () => op = .close ∧ effects = []
  | _, .error _ => op = invoked ∧ effects = []

private theorem lastCall_snoc (t : ι) (tr : List (QueueEvent ι)) (e : QueueEvent ι) :
    lastCall t (tr ++ [e]) =
      match e with
      | .invoke u op => if u = t then some (op, []) else lastCall t tr
      | .enqueue u message =>
        if u = t then (lastCall t tr).map fun c => (c.1, c.2 ++ [.enqueued message])
        else lastCall t tr
      | .dequeue u message =>
        if u = t then (lastCall t tr).map fun c => (c.1, c.2 ++ [.dequeued message])
        else lastCall t tr
      | _ => lastCall t tr := by
  simp only [lastCall, List.foldl_append, List.foldl_cons, List.foldl_nil]

private def Accounted (tr : List (QueueEvent ι)) (t : ι) : Status → Prop
  | .idle => True
  | .pending op => lastCall t tr = some (op, [])
  | .decided op r => ∃ invoked effects, lastCall t tr = some (invoked, effects) ∧
      Settled invoked op r effects

private theorem accounted_other {tr : List (QueueEvent ι)} {e : QueueEvent ι} {t : ι} {st : Status}
    (he : lastCall t (tr ++ [e]) = lastCall t tr) (h : Accounted tr t st) :
    Accounted (tr ++ [e]) t st := by
  cases st with
  | idle => trivial
  | pending op => exact he.trans h
  | decided op r =>
    obtain ⟨invoked, effects, hl, hs⟩ := h
    exact ⟨invoked, effects, he.trans hl, hs⟩

private theorem accounted_update {tr : List (QueueEvent ι)} {e : QueueEvent ι} {s : State ι} {u : ι}
    {st : Status} (h : ∀ t, Accounted tr t (s.status t))
    (hother : ∀ t, t ≠ u → lastCall t (tr ++ [e]) = lastCall t tr)
    (hown : Accounted (tr ++ [e]) u st) (t : ι) :
    Accounted (tr ++ [e]) t (Function.update s.status u st t) := by
  by_cases ht : t = u
  · subst t
    rw [Function.update_self]
    exact hown
  · rw [Function.update_of_ne ht]
    exact accounted_other (hother t ht) (h t)

theorem run_account {tr : List (QueueEvent ι)} {s : State ι} (h : (lts ι).Run tr s) :
    received tr ++ s.buffered = sent tr ∧ ∀ t, Accounted tr t (s.status t) := by
  refine h.induct (I := fun tr s => received tr ++ s.buffered = sent tr ∧
    ∀ t, Accounted tr t (s.status t)) ?_ ?_
  · rintro s rfl
    exact ⟨rfl, fun _ => trivial⟩
  · intro tr s e s' _ hi hs
    obtain ⟨hfifo, hacc⟩ := hi
    cases hs with
    | invoke t op ht =>
      refine ⟨by simpa [received, sent] using hfifo, ?_⟩
      apply accounted_update hacc
      · intro u hu
        simp [lastCall_snoc, Ne.symm hu]
      · simp [Accounted, lastCall_snoc]
    | enqueue t message ht =>
      have hown : lastCall t tr = some (.send message, []) := by simpa [ht, Accounted] using hacc t
      constructor
      · simp only [received, sent, List.filterMap_append, List.filterMap_cons,
          List.filterMap_nil, List.append_nil] at hfifo ⊢
        rw [← hfifo, List.append_assoc]
      · apply accounted_update hacc
        · intro u hu
          simp [lastCall_snoc, Ne.symm hu]
        · exact ⟨.send message, [.enqueued message], by simp [lastCall_snoc, hown], rfl, rfl⟩
    | dequeue t buffer message rest ht hb =>
      have hown : lastCall t tr = some (.recv buffer, []) := by simpa [ht, Accounted] using hacc t
      constructor
      · simp only [received, sent, List.filterMap_append, List.filterMap_cons,
          List.filterMap_nil, List.append_nil] at hfifo ⊢
        rw [← hfifo, hb, List.append_assoc, List.singleton_append]
      · apply accounted_update hacc
        · intro u hu
          simp [lastCall_snoc, Ne.symm hu]
        · exact ⟨.recv buffer, [.dequeued message], by simp [lastCall_snoc, hown],
            message, rfl, rfl⟩
    | fail t op error ht =>
      have hown : lastCall t tr = some (op, []) := by simpa [ht, Accounted] using hacc t
      refine ⟨by simpa [received, sent] using hfifo, ?_⟩
      apply accounted_update hacc
      · intro u _
        simp [lastCall_snoc]
      · refine ⟨op, [], by simp [lastCall_snoc, hown], ?_⟩
        cases op <;> exact ⟨rfl, rfl⟩
    | close t ht =>
      have hown : lastCall t tr = some (.close, []) := by simpa [ht, Accounted] using hacc t
      refine ⟨by simpa [received, sent] using hfifo, ?_⟩
      apply accounted_update hacc
      · intro u _
        simp [lastCall_snoc]
      · exact ⟨.close, [], by simp [lastCall_snoc, hown], rfl, rfl⟩
    | ret t op r ht =>
      refine ⟨by simpa [received, sent] using hfifo, ?_⟩
      apply accounted_update hacc
      · intro u _
        simp [lastCall_snoc]
      · trivial
    | internal =>
      refine ⟨by simpa [received, sent] using hfifo, ?_⟩
      intro t
      exact accounted_other (by simp [lastCall_snoc]) (hacc t)

/-- What a step that shows this event does to the buffered messages. -/
def Changes : QueueEvent ι → List Message → List Message → Prop
  | .enqueue _ message, before, after => after = before ++ [message]
  | .dequeue _ message, before, after => before = message :: after
  | _, before, after => after = before

theorem Step.changes {s s' : State ι} {e : QueueEvent ι} (h : Step s e s') :
    Changes e s.buffered s'.buffered := by
  cases h with
  | dequeue t buffer message rest ht hb => exact hb
  | _ => rfl

/-- The law of a queue over a run: the messages received and then the buffered ones are the
messages sent, and every call that returned has settled its account. -/
def ExactlyOnce (tr : List (QueueEvent ι)) (buffered : List Message) : Prop :=
  received tr ++ buffered = sent tr ∧
    ∀ pre post t op r, tr = pre ++ .ret t op r :: post →
      ∃ invoked effects, lastCall t pre = some (invoked, effects) ∧ Settled invoked op r effects

theorem run_exactlyOnce {tr : List (QueueEvent ι)} {s : State ι} (h : (lts ι).Run tr s) :
    ExactlyOnce tr s.buffered := by
  refine ⟨(run_account h).1, ?_⟩
  rintro pre post t op r rfl
  obtain ⟨s₁, s₂, h₁, hs, -⟩ := h.split
  cases hs with
  | ret _ _ _ ht => simpa [ht, Accounted] using (run_account h₁).2 t

end Delivery

end OsalRust
