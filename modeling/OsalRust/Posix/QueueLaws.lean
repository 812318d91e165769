import OsalRust.Posix.Queue

/-!
# Laws of the POSIX queue

What each critical section can do, the invariant that every call in its loop passed its
argument check, and when a closed queue answers every caller with `QueueClosed`: a close that
commits between the expiry of a timed wait and the wait's return is not reconciled.
-/

namespace OsalRust.Posix

open Framework

private theorem timeAdd_error {timeMax a b : Nat} {e : Error}
    (h : timeAdd timeMax a b = .error e) : e = .overflow := by
  rw [timeAdd] at h
  split_ifs at h
  exact (Except.error.inj h).symm

theorem checkedAbsDeadline_error {timeMax : Nat} {now : Timespec} {d : Duration} {e : Error}
    (h : checkedAbsDeadline timeMax now d = .error e) : e = .overflow := by
  unfold checkedAbsDeadline durationToTimespec at h
  by_cases hfit : d.nanos / 1000000000 ≤ timeMax
  · simp only [if_pos hfit, bind, Except.bind, pure, Except.pure] at h
    cases hsec : timeAdd timeMax now.sec (d.nanos / 1000000000) with
    | error e' =>
      rw [hsec] at h
      exact (Except.error.inj h).symm.trans (timeAdd_error hsec)
    | ok sec =>
      simp only [hsec] at h
      split_ifs at h
      cases hcarry : timeAdd timeMax sec 1 with
      | error e' =>
        rw [hcarry] at h
        exact (Except.error.inj h).symm.trans (timeAdd_error hcarry)
      | ok sec' => simp [hcarry] at h
  · simp only [if_neg hfit, bind, Except.bind] at h
    exact (Except.error.inj h).symm

/-- Everything a section can do on a well-formed buffer, for a call with a valid argument.
`first` marks the section that computes the deadline; `refused` is the answer of a call that
does not wait. -/
inductive Decision (cfg : QueueConfig) (now : Timespec) (first : Bool) (c : Call)
    (b : ByteQueue) : ByteQueue → Next → Wake → Prop
  | closed (d : Direction) (hdir : direction c.op = some d) (hclosed : b.closed = true)
      (hempty : d = .receiver → b.len = 0) :
      Decision cfg now first c b b (.ret c.op (.error .queueClosed)) .none
  | sendOk (data : Message) (hop : c.op = .send data) (hopen : b.closed = false)
      (hsize : data.length = b.messageSize) (hroom : b.len < b.capacity) :
      Decision cfg now first c b (b.pushed data) (.ret c.op (.ok ())) (.one .receiver)
  | recvOk (out : Message) (hop : c.op = .recv out) (hlen : 0 < b.len) :
      Decision cfg now first c b b.popped (.ret (.recv (b.slot b.head)) (.ok ())) (.one .sender)
  | overflow (d : Duration) (e : Error) (hfirst : first = true)
      (htimeout : c.timeout = .after d)
      (hdeadline : checkedAbsDeadline cfg.timeMax now d = .error e)
      (hopen : ∀ data, c.op = .send data → b.closed = false) :
      Decision cfg now first c b b (.ret c.op (.error e)) .none
  | refused (d : Direction) (e : Error) (hdir : direction c.op = some d)
      (hopen : b.closed = false) (hitems : itemsFor b d = 0) :
      Decision cfg now first c b b (.ret c.op (.error e)) .none
  | wait (d : Direction) (deadline : Option Timespec) (hdir : direction c.op = some d)
      (hopen : b.closed = false) (hitems : itemsFor b d = 0) :
      Decision cfg now first c b b (.wait deadline) .none
  | closeAgain (hop : c.op = .close) (hclosed : b.closed = true) :
      Decision cfg now first c b b (.ret c.op (.ok ())) .none
  | closeFirst (hop : c.op = .close) (hopen : b.closed = false) :
      Decision cfg now first c b b.close (.ret c.op (.ok ())) .all

section Sections

variable {cfg : QueueConfig} {now : Timespec} {c : Call} {b b' : ByteQueue} {next : Next}
  {wake : Wake} {first : Bool}

private theorem sendRound_decision {deadline : Option Timespec} {data : Message}
    (hwf : b.Wf cfg.width) (hop : c.op = .send data) (hsize : data.length = b.messageSize)
    (h : sendRound cfg.width deadline data b = .ok (b', next, wake)) :
    Decision cfg now first c b b' next wake := by
  have hdir : direction c.op = some .sender := by rw [hop]; rfl
  unfold sendRound ByteQueue.isClosed at h
  cases hclosed : b.closed with
  | true =>
    rw [hclosed, if_pos rfl] at h
    cases h
    rw [← hop]
    exact .closed .sender hdir hclosed (by simp)
  | false =>
    rw [hclosed, if_neg Bool.false_ne_true, ByteQueue.trySend_eq hwf] at h
    by_cases hfull : b.len = b.capacity
    · simp only [hsize, ne_eq, not_true_eq_false, if_false, hclosed, Bool.false_eq_true, hfull,
        if_true, bind, Except.bind, pure, Except.pure] at h
      cases h
      apply Decision.wait .sender deadline hdir hclosed
      simp [itemsFor, ByteQueue.availableSlots, hfull]
    · simp only [hsize, ne_eq, not_true_eq_false, if_false, hclosed, Bool.false_eq_true, hfull,
        bind, Except.bind, pure, Except.pure] at h
      cases h
      rw [← hop]
      exact .sendOk data hop hclosed hsize (Nat.lt_of_le_of_ne hwf.len_le hfull)

private theorem recvRound_decision {deadline : Option Timespec} {out : Message}
    (hwf : b.Wf cfg.width) (hop : c.op = .recv out) (hsize : out.length = b.messageSize)
    (h : recvRound cfg.width deadline out b = .ok (b', next, wake)) :
    Decision cfg now first c b b' next wake := by
  have hdir : direction c.op = some .receiver := by rw [hop]; rfl
  unfold recvRound ByteQueue.isClosed ByteQueue.isEmpty at h
  by_cases hlen : b.len = 0
  · cases hclosed : b.closed with
    | true =>
      simp only [hclosed, hlen, beq_self_eq_true, Bool.and_self, if_true, pure, Except.pure] at h
      cases h
      rw [← hop]
      exact .closed .receiver hdir hclosed (fun _ => hlen)
    | false =>
      simp only [hclosed, Bool.false_and, Bool.false_eq_true, if_false,
        ByteQueue.tryRecv_eq hwf, hsize, ne_eq, not_true_eq_false, hlen, if_true, bind,
        Except.bind, pure, Except.pure] at h
      cases h
      exact .wait .receiver deadline hdir hclosed hlen
  · have hne : (b.len == 0) = false := by simpa using hlen
    simp only [hne, Bool.and_false, Bool.false_eq_true, if_false, ByteQueue.tryRecv_eq hwf, hsize,
      ne_eq, not_true_eq_false, hlen, bind, Except.bind, pure, Except.pure] at h
    cases h
    exact .recvOk out hop (Nat.pos_of_ne_zero hlen)

private theorem sendSection_decision {data : Message} (hwf : b.Wf cfg.width)
    (hop : c.op = .send data) (hsize : data.length = b.messageSize)
    (h : sendSection cfg now c.timeout data b = .ok (b', next, wake)) :
    Decision cfg now true c b b' next wake := by
  have hdir : direction c.op = some .sender := by rw [hop]; rfl
  unfold sendSection ByteQueue.isClosed at h
  cases hclosed : b.closed with
  | true =>
    rw [hclosed, if_pos rfl] at h
    cases h
    rw [← hop]
    exact .closed .sender hdir hclosed (by simp)
  | false =>
    rw [hclosed, if_neg Bool.false_ne_true] at h
    cases htimeout : c.timeout with
    | noWait =>
      rw [htimeout] at h
      by_cases hfull : b.len = b.capacity
      · simp only [ByteQueue.trySend_eq hwf, hsize, ne_eq, not_true_eq_false, if_false, hclosed,
          Bool.false_eq_true, hfull, if_true, bind, Except.bind, pure, Except.pure] at h
        cases h
        rw [← hop]
        apply Decision.refused .sender .queueFull hdir hclosed
        simp [itemsFor, ByteQueue.availableSlots, hfull]
      · simp only [ByteQueue.trySend_eq hwf, hsize, ne_eq, not_true_eq_false, if_false, hclosed,
          Bool.false_eq_true, hfull, bind, Except.bind, pure, Except.pure] at h
        cases h
        rw [← hop]
        exact .sendOk data hop hclosed hsize (Nat.lt_of_le_of_ne hwf.len_le hfull)
    | after d =>
      rw [htimeout] at h
      cases hdl : checkedAbsDeadline cfg.timeMax now d with
      | error e =>
        simp only [hdl, pure, Except.pure] at h
        cases h
        rw [← hop]
        exact .overflow d e rfl htimeout hdl (fun _ _ => hclosed)
      | ok deadline =>
        simp only [hdl] at h
        exact sendRound_decision hwf hop hsize h
    | forever =>
      rw [htimeout] at h
      exact sendRound_decision hwf hop hsize h

private theorem recvSection_decision {out : Message} (hwf : b.Wf cfg.width)
    (hop : c.op = .recv out) (hsize : out.length = b.messageSize)
    (h : recvSection cfg now c.timeout out b = .ok (b', next, wake)) :
    Decision cfg now true c b b' next wake := by
  have hdir : direction c.op = some .receiver := by rw [hop]; rfl
  unfold recvSection at h
  cases htimeout : c.timeout with
  | noWait =>
    rw [htimeout] at h
    by_cases hlen : b.len = 0
    · cases hclosed : b.closed with
      | true =>
        simp only [ByteQueue.tryRecv_eq hwf, hsize, ne_eq, not_true_eq_false, if_false, hlen,
          hclosed, if_true, bind, Except.bind, pure, Except.pure] at h
        cases h
        rw [← hop]
        exact .closed .receiver hdir hclosed (fun _ => hlen)
      | false =>
        simp only [ByteQueue.tryRecv_eq hwf, hsize, ne_eq, not_true_eq_false, if_false, hlen,
          hclosed, Bool.false_eq_true, if_true, bind, Except.bind, pure, Except.pure] at h
        cases h
        rw [← hop]
        exact .refused .receiver .queueEmpty hdir hclosed hlen
    · simp only [ByteQueue.tryRecv_eq hwf, hsize, ne_eq, not_true_eq_false, if_false, hlen, bind,
        Except.bind, pure, Except.pure] at h
      cases h
      exact .recvOk out hop (Nat.pos_of_ne_zero hlen)
  | after d =>
    rw [htimeout] at h
    cases hdl : checkedAbsDeadline cfg.timeMax now d with
    | error e =>
      simp only [hdl, pure, Except.pure] at h
      cases h
      rw [← hop]
      exact .overflow d e rfl htimeout hdl (by simp [hop])
    | ok deadline =>
      simp only [hdl] at h
      exact recvRound_decision hwf hop hsize h
  | forever =>
    rw [htimeout] at h
    exact recvRound_decision hwf hop hsize h

private theorem closeSection_decision (hop : c.op = .close)
    (h : (.ok (closeSection b) : Checked _) = .ok (b', next, wake)) :
    Decision cfg now first c b b' next wake := by
  unfold closeSection ByteQueue.isClosed at h
  cases hclosed : b.closed with
  | true =>
    rw [hclosed, if_pos rfl] at h
    cases h
    rw [← hop]
    exact .closeAgain hop hclosed
  | false =>
    rw [hclosed, if_neg Bool.false_ne_true] at h
    cases h
    rw [← hop]
    exact .closeFirst hop hclosed

theorem firstSection_decision (hwf : b.Wf cfg.width) (hv : validate b.messageSize c.op = .ok ())
    (h : firstSection cfg now c b = .ok (b', next, wake)) : Decision cfg now true c b b' next wake := by
  rw [firstSection] at h
  cases hop : c.op with
  | send data =>
    rw [hop] at h hv
    exact sendSection_decision hwf hop (validate_send hv) h
  | recv out =>
    rw [hop] at h hv
    exact recvSection_decision hwf hop (validate_recv hv) h
  | close =>
    rw [hop] at h
    exact closeSection_decision hop h

theorem roundSection_decision {deadline : Option Timespec} (hwf : b.Wf cfg.width)
    (hv : validate b.messageSize c.op = .ok ())
    (h : roundSection cfg deadline c b = .ok (b', next, wake)) :
    Decision cfg now false c b b' next wake := by
  rw [roundSection] at h
  cases hop : c.op with
  | send data =>
    rw [hop] at h hv
    exact sendRound_decision hwf hop (validate_send hv) h
  | recv out =>
    rw [hop] at h hv
    exact recvRound_decision hwf hop (validate_recv hv) h
  | close =>
    rw [hop] at h
    exact closeSection_decision hop h

end Sections

namespace Phase

/-- The call of a thread that passed its argument check and has not decided. -/
def call : Phase → Option Call
  | .enter c | .blocked c _ | .woken c _ | .timedOut c => some c
  | _ => none

@[simp] theorem call_wake (p : Phase) : p.wake.call = p.call := by
  cases p <;> rfl

end Phase

variable {ι : Type} [DecidableEq ι] {cfg : QueueConfig} {s s' : QueueSystem ι} {l : QueueEvent ι}

omit [DecidableEq ι] in
@[simp] theorem wakeTasks_call (chosen : ι → Bool) (tasks : ι → Phase) (i : ι) :
    (wakeTasks chosen tasks i).call = (tasks i).call := by
  rw [wakeTasks]
  split_ifs
  · exact Phase.call_wake _
  · rfl

/-- The buffer is well formed, and every call in its loop passed its argument check. -/
structure Ready (cfg : QueueConfig) (s : QueueSystem ι) : Prop where
  wf : s.buffer.Wf cfg.width
  valid : ∀ t c, (s.tasks t).call = some c → validate s.buffer.messageSize c.op = .ok ()

private theorem Ready.move (h : Ready cfg s) {t : ι} {p : Phase}
    (hp : ∀ c, p.call = some c → validate s.buffer.messageSize c.op = .ok ()) :
    Ready cfg (s.move t p) := by
  refine ⟨h.wf, ?_⟩
  intro u c hc
  by_cases hu : u = t
  · subst u
    simp only [QueueSystem.move, Function.update_self] at hc
    exact hp c hc
  · simp only [QueueSystem.move, Function.update_of_ne hu] at hc
    exact h.valid u c hc

private theorem Ready.commit (h : Ready cfg s) {t : ι} {c : Call} {b : ByteQueue} {next : Next}
    {wake : Wake} {first : Bool} (chosen : ι → Bool)
    (hv : validate s.buffer.messageSize c.op = .ok ())
    (hd : Decision cfg s.now first c s.buffer b next wake) :
    Ready cfg (s.commit t b chosen (next.phase c)) := by
  have hb : b.Wf cfg.width ∧ b.messageSize = s.buffer.messageSize := by
    cases hd with
    | sendOk data hop hopen hsize hroom => exact ⟨h.wf.pushed hsize hroom, rfl⟩
    | recvOk out hop hlen => exact ⟨h.wf.popped hlen, rfl⟩
    | closeFirst hop hopen => exact ⟨h.wf.close, rfl⟩
    | _ => exact ⟨h.wf, rfl⟩
  refine ⟨hb.1, ?_⟩
  intro u c' hc
  change validate b.messageSize c'.op = .ok ()
  rw [hb.2]
  by_cases hu : u = t
  · subst u
    simp only [QueueSystem.commit, Function.update_self] at hc
    cases next with
    | wait deadline =>
      obtain rfl : c = c' := Option.some.inj hc
      exact hv
    | ret op r => contradiction
  · simp only [QueueSystem.commit, Function.update_of_ne hu, wakeTasks_call] at hc
    exact h.valid u c' hc

theorem Ready.step (h : Ready cfg s) (hs : QueueStep cfg s l s') : Ready cfg s' := by
  cases hs with
  | invoke t c ht => exact h.move (by simp [Phase.call])
  | reject t c e ht hv => exact h.move (by simp [Phase.call])
  | accept t c ht hv =>
    apply h.move
    intro c' hc
    obtain rfl : c = c' := Option.some.inj hc
    exact hv
  | first t c b next wake chosen ht hsec hw =>
    have hv := h.valid t c (by rw [ht]; rfl)
    exact h.commit chosen hv (firstSection_decision h.wf hv hsec)
  | round t c deadline b next wake chosen ht hsec hw =>
    have hv := h.valid t c (by rw [ht]; rfl)
    exact h.commit chosen hv (roundSection_decision h.wf hv hsec)
  | spurious t c deadline ht => exact h.move fun c' hc => h.valid t c' (by rw [ht]; exact hc)
  | expire t c deadline ht hd => exact h.move fun c' hc => h.valid t c' (by rw [ht]; exact hc)
  | timeout t c ht => exact h.move (by simp [Phase.call])
  | ret t op r ht => exact h.move (by simp [Phase.call])
  | tick now hn => exact ⟨h.wf, h.valid⟩

theorem ready_of_reachable (h : (queueLts ι cfg).Reachable s) : Ready cfg s := by
  refine h.invariant ?_ (fun _ _ _ => Ready.step)
  rintro s ⟨reserve, capacity, messageSize, hnew, htasks⟩
  refine ⟨ByteQueue.new_wf hnew, ?_⟩
  intro t c hc
  simp [htasks, Phase.call] at hc

/-- The law of a closed queue: a call that decides under the mutex while the queue is closed is
never told `Timeout`; a send is told `QueueClosed`, and so is a receive if no message is left. -/
def ClosedAnswers (M : Lts (QueueSystem ι) (QueueEvent ι)) : Prop :=
  ∀ s l s' t op r, M.Reachable s → M.step s l s' → (s.tasks t).inSection = true →
    s'.tasks t = .returned op r → s.buffer.isClosed = true →
      r ≠ .error .timeout ∧
      (∀ data, op = .send data → r = .error .queueClosed) ∧
      (∀ out, op = .recv out → s.buffer.isEmpty = true → r = .error .queueClosed)

/-- The steps that stay clear of the two gaps: no close commits while the timed wait of a
caller has expired and the caller has not taken the mutex again, and no receive enters the
closed and empty queue with a timeout whose absolute deadline `time_t` cannot represent. -/
structure Unraced (cfg : QueueConfig) (s : QueueSystem ι) (l : QueueEvent ι)
    (s' : QueueSystem ι) : Prop where
  window : ∀ t, l = .close t → s.buffer.isClosed = false → ∀ u, (s.tasks u).isTimedOut = false
  deadline : ∀ t c out d, s.tasks t = .enter c → s'.tasks t ≠ .enter c → c.op = .recv out →
    c.timeout = .after d → s.buffer.isClosed = true → s.buffer.isEmpty = true →
      ∃ ts, checkedAbsDeadline cfg.timeMax s.now d = .ok ts

/-- Nobody is left waiting on a closed queue, nor on the way back from an expired wait. -/
private def Drained (s : QueueSystem ι) : Prop :=
  s.buffer.closed = true → ∀ t, (s.tasks t).isBlocked = false ∧ (s.tasks t).isTimedOut = false

private theorem Drained.move (h : Drained s) {t : ι} {p : Phase}
    (hp : s.buffer.closed = true → p.isBlocked = false ∧ p.isTimedOut = false) :
    Drained (s.move t p) := by
  intro hclosed u
  by_cases hu : u = t
  · subst u
    simpa only [QueueSystem.move, Function.update_self] using hp hclosed
  · simpa only [QueueSystem.move, Function.update_of_ne hu] using h hclosed u

omit [DecidableEq ι] in
private theorem wakeTasks_isTimedOut (chosen : ι → Bool) (tasks : ι → Phase) (i : ι) :
    (wakeTasks chosen tasks i).isTimedOut = (tasks i).isTimedOut := by
  rw [wakeTasks]
  split_ifs
  · cases tasks i <;> rfl
  · rfl

omit [DecidableEq ι] in
theorem wakeTasks_isBlocked {chosen : ι → Bool} {tasks : ι → Phase} {i : ι}
    (h : (tasks i).isBlocked = false ∨ chosen i = true) :
    (wakeTasks chosen tasks i).isBlocked = false := by
  rw [wakeTasks]
  rcases h with h | h
  · split_ifs
    · cases hp : tasks i <;> simp_all [Phase.wake, Phase.isBlocked]
    · exact h
  · rw [if_pos h]
    cases tasks i <;> rfl

private theorem Drained.commit (h : Drained s) {t : ι} {c : Call} {b : ByteQueue} {next : Next}
    {wake : Wake} {chosen : ι → Bool} {first : Bool}
    (hd : Decision cfg s.now first c s.buffer b next wake) (hw : WakeChoice s.tasks wake chosen)
    (hwindow : next.event t = .close t → s.buffer.isClosed = false →
      ∀ u, (s.tasks u).isTimedOut = false) :
    Drained (s.commit t b chosen (next.phase c)) := by
  have hown : b.closed = true → (next.phase c).isBlocked = false ∧
      (next.phase c).isTimedOut = false := by
    intro hclosed
    cases hd with
    | wait d deadline hdir hopen hitems => simp [hopen] at hclosed
    | _ => exact ⟨rfl, rfl⟩
  have hother : b.closed = true → ∀ u, ((s.tasks u).isBlocked = false ∨ chosen u = true) ∧
      (s.tasks u).isTimedOut = false := by
    intro hclosed u
    cases hd with
    | closeFirst hop hopen =>
      have htimed := hwindow (by rw [hop]; rfl) hopen u
      refine ⟨?_, htimed⟩
      rw [hw u]
      cases (s.tasks u).isBlocked
      · exact .inl rfl
      · exact .inr rfl
    | _ => exact ⟨.inl (h hclosed u).1, (h hclosed u).2⟩
  intro hclosed u
  by_cases hu : u = t
  · subst u
    simpa only [QueueSystem.commit, Function.update_self] using hown hclosed
  · simp only [QueueSystem.commit, Function.update_of_ne hu]
    exact ⟨wakeTasks_isBlocked (hother hclosed u).1,
      (wakeTasks_isTimedOut _ _ _).trans (hother hclosed u).2⟩

private theorem Drained.step (hready : Ready cfg s) (h : Drained s) (hs : QueueStep cfg s l s')
    (hu : Unraced cfg s l s') : Drained s' := by
  cases hs with
  | first t c b next wake chosen ht hsec hw =>
    have hv := hready.valid t c (by rw [ht]; rfl)
    exact h.commit (firstSection_decision hready.wf hv hsec) hw (hu.window t)
  | round t c deadline b next wake chosen ht hsec hw =>
    have hv := hready.valid t c (by rw [ht]; rfl)
    exact h.commit (roundSection_decision hready.wf hv hsec) hw (hu.window t)
  | expire t c deadline ht hd =>
    apply h.move
    intro hclosed
    have hblocked := (h hclosed t).1
    rw [ht] at hblocked
    contradiction
  | tick now hn => exact h
  | _ => exact h.move (fun _ => ⟨rfl, rfl⟩)

private theorem drained_of_reachable
    (h : ((queueLts ι cfg).restrict (Unraced cfg)).Reachable s) : Drained s := by
  have hboth : Ready cfg s ∧ Drained s := by
    apply h.invariant (I := fun s => Ready cfg s ∧ Drained s)
    · intro s hi
      refine ⟨ready_of_reachable (Lts.Reachable.start hi), ?_⟩
      obtain ⟨reserve, capacity, messageSize, hnew, htasks⟩ := hi
      intro _ t
      simp [htasks, Phase.isBlocked, Phase.isTimedOut]
    · intro s l s' hi hs
      exact ⟨hi.1.step hs.1, Drained.step hi.1 hi.2 hs.1 hs.2⟩
  exact hboth.2

private theorem section_step (h : Ready cfg s) (hs : QueueStep cfg s l s') {t : ι} {op : QueueOp}
    {r : Result Unit} (ht : (s.tasks t).inSection = true) (ht' : s'.tasks t = .returned op r) :
    (∃ c first b wake, Decision cfg s.now first c s.buffer b (.ret op r) wake ∧
        (first = true → s.tasks t = .enter c)) ∨
      (∃ c, s.tasks t = .timedOut c) := by
  have hother {p : Phase} {u : ι} (hu : t ≠ u) (he : Function.update s.tasks u p t = .returned op r) :
      False := by
    rw [Function.update_of_ne hu] at he
    rw [he] at ht
    contradiction
  have hwoken {chosen : ι → Bool} {p : Phase} {u : ι} (hu : t ≠ u)
      (he : Function.update (wakeTasks chosen s.tasks) u p t = .returned op r) : False := by
    rw [Function.update_of_ne hu] at he
    rw [wakeTasks] at he
    split_ifs at he <;> cases hp : s.tasks t <;> simp_all [Phase.wake, Phase.inSection]
  cases hs with
  | first u c b next wake chosen hu hsec hw =>
    by_cases htu : t = u
    · subst u
      have hv := h.valid t c (by rw [hu]; rfl)
      simp only [QueueSystem.commit, Function.update_self] at ht'
      cases next with
      | wait deadline => simp [Next.phase] at ht'
      | ret op' r' =>
        simp only [Next.phase, Phase.returned.injEq] at ht'
        obtain ⟨rfl, rfl⟩ := ht'
        exact .inl ⟨c, true, b, wake, firstSection_decision h.wf hv hsec, fun _ => hu⟩
    · exact (hwoken htu ht').elim
  | round u c deadline b next wake chosen hu hsec hw =>
    by_cases htu : t = u
    · subst u
      have hv := h.valid t c (by rw [hu]; rfl)
      simp only [QueueSystem.commit, Function.update_self] at ht'
      cases next with
      | wait deadline => simp [Next.phase] at ht'
      | ret op' r' =>
        simp only [Next.phase, Phase.returned.injEq] at ht'
        obtain ⟨rfl, rfl⟩ := ht'
        exact .inl ⟨c, false, b, wake, roundSection_decision h.wf hv hsec, by simp⟩
    · exact (hwoken htu ht').elim
  | timeout u c hu =>
    by_cases htu : t = u
    · subst u
      exact .inr ⟨c, hu⟩
    · exact (hother htu ht').elim
  | tick now hn =>
    rw [show s.tasks t = .returned op r from ht'] at ht
    contradiction
  | invoke u c hu | reject u c e hu | accept u c hu | spurious u c deadline hu
  | expire u c deadline hu | ret u op' r' hu =>
    by_cases htu : t = u
    · subst u
      rw [hu] at ht
      contradiction
    · exact (hother htu ht').elim

/-- A queue whose closes stay outside the window of expired waits answers every caller of the
closed queue. -/
theorem closedAnswers_of_unraced (ι : Type) [DecidableEq ι] (cfg : QueueConfig) :
    ClosedAnswers ((queueLts ι cfg).restrict (Unraced cfg)) := by
  intro s l s' t op r hr hs ht ht' hclosed
  have hready := ready_of_reachable (Lts.restrict_reachable hr)
  rcases section_step hready hs.1 ht ht' with ⟨c, first, b, wake, hd, hfirst⟩ | ⟨c, hc⟩
  · generalize hn : Next.ret op r = next at hd
    cases hd with
    | closed d hdir hcl hempty =>
      cases hn
      exact ⟨by simp, fun _ _ => rfl, fun _ _ _ => rfl⟩
    | recvOk out hop hlen =>
      cases hn
      refine ⟨by simp, by simp, ?_⟩
      intro _ _ hempty
      have hzero : s.buffer.len = 0 := by simpa [ByteQueue.isEmpty] using hempty
      omega
    | overflow d e hf htimeout hdeadline hsend =>
      cases hn
      have he := checkedAbsDeadline_error hdeadline
      refine ⟨by simp [he], ?_, ?_⟩
      · intro data hop
        have := hsend data hop
        rw [ByteQueue.isClosed, this] at hclosed
        contradiction
      · intro out hop hempty
        obtain ⟨ts, hts⟩ := hs.2.deadline t c out d (hfirst hf) (by simp [ht']) hop htimeout
          hclosed hempty
        rw [hts] at hdeadline
        contradiction
    | closeAgain hop hcl =>
      cases hn
      exact ⟨by simp, by simp [hop], by simp [hop]⟩
    | sendOk data hop hopen hsize hroom => simp [ByteQueue.isClosed, hopen] at hclosed
    | refused d e hdir hopen hitems => simp [ByteQueue.isClosed, hopen] at hclosed
    | wait d deadline hdir hopen hitems => contradiction
    | closeFirst hop hopen => simp [ByteQueue.isClosed, hopen] at hclosed
  · have htimed := (drained_of_reachable hr hclosed t).2
    rw [hc] at htimed
    contradiction

def wideTarget : QueueConfig := ⟨width64, 2 ^ 63 - 1⟩

def oneSlotQueue : QueueSystem Bool := ⟨⟨[0], 1, 1, 0, 0, 0, false⟩, ⟨0, 0⟩, fun _ => .idle⟩

def shortReceive : Call := ⟨.recv [0], .after (.fromNanos 5)⟩

def closeCall : Call := ⟨.close, .forever⟩

def receiverBeforeClose : QueueSystem Bool :=
  ⟨oneSlotQueue.buffer, ⟨0, 0⟩,
    fun t => if t then .blocked shortReceive (some ⟨0, 5⟩) else .enter closeCall⟩

private theorem unraced_open {s s' : QueueSystem Bool} {l : QueueEvent Bool}
    (hopen : s.buffer.isClosed = false) (hl : ∀ t, l ≠ .close t) : Unraced wideTarget s l s' :=
  ⟨fun t h => absurd h (hl t), fun _ _ _ _ _ _ _ _ h => by simp [hopen] at h⟩

theorem receiverBeforeClose_reachable :
    ((queueLts Bool wideTarget).restrict (Unraced wideTarget)).Reachable receiverBeforeClose := by
  have h₀ : ((queueLts Bool wideTarget).restrict (Unraced wideTarget)).Reachable oneSlotQueue :=
    .start ⟨fun _ => true, 1, 1, rfl, rfl⟩
  have h₁ := h₀.snoc ⟨.invoke oneSlotQueue true shortReceive rfl, unraced_open rfl nofun⟩
  have h₂ := h₁.snoc ⟨.accept _ true shortReceive rfl rfl, unraced_open rfl nofun⟩
  have h₃ := h₂.snoc ⟨.first _ true shortReceive oneSlotQueue.buffer (.wait (some ⟨0, 5⟩)) .none
    (fun _ => false) rfl rfl (fun _ => rfl), unraced_open rfl nofun⟩
  have h₄ := h₃.snoc ⟨.invoke _ false closeCall rfl, unraced_open rfl nofun⟩
  have h₅ := h₄.snoc ⟨.accept _ false closeCall rfl rfl, unraced_open rfl nofun⟩
  convert h₅ using 1
  simp only [receiverBeforeClose, QueueSystem.move, QueueSystem.commit, QueueSystem.mk.injEq,
    true_and]
  refine ⟨rfl, ?_⟩
  funext t
  cases t <;> rfl

def receiverAfterClose : QueueSystem Bool :=
  receiverBeforeClose.commit false oneSlotQueue.buffer.close (fun t => t) (.returned .close (.ok ()))

theorem closedAnswers_of_unraced_woken :
    ∃ l s' r, ((queueLts Bool wideTarget).restrict (Unraced wideTarget)).Reachable
        receiverAfterClose ∧
      ((queueLts Bool wideTarget).restrict (Unraced wideTarget)).step receiverAfterClose l s' ∧
      receiverAfterClose.buffer.isClosed = true ∧ s'.tasks true = .returned (.recv [0]) r ∧
      r = .error .queueClosed := by
  have hr : ((queueLts Bool wideTarget).restrict (Unraced wideTarget)).Reachable
      receiverAfterClose := by
    refine receiverBeforeClose_reachable.snoc
      ⟨.first _ false closeCall oneSlotQueue.buffer.close (.ret .close (.ok ())) .all
        (fun t => t) rfl rfl (by intro t; cases t <;> rfl), ⟨?_, ?_⟩⟩
    · intro _ _ _ u
      cases u <;> rfl
    · intro _ _ _ _ _ _ _ _ hclosed
      contradiction
  have hs : ((queueLts Bool wideTarget).restrict (Unraced wideTarget)).step receiverAfterClose
      (.fail true .queueClosed) (receiverAfterClose.commit true oneSlotQueue.buffer.close
        (fun _ => false) (.returned (.recv [0]) (.error .queueClosed))) := by
    refine ⟨.round _ true shortReceive (some ⟨0, 5⟩) oneSlotQueue.buffer.close
      (.ret (.recv [0]) (.error .queueClosed)) .none (fun _ => false) rfl rfl (fun _ => rfl),
      ⟨?_, ?_⟩⟩
    · intro t hl
      contradiction
    · intro t c out d ht
      cases t <;> contradiction
  refine ⟨_, _, _, hr, hs, rfl, rfl, ?_⟩
  exact (closedAnswers_of_unraced Bool wideTarget _ _ _ true (.recv [0]) _ hr hs rfl rfl
    rfl).2.2 [0] rfl rfl

/-- A close inside the window: the receiver's wait expires, the queue is closed, and then the
receiver returns `Timeout` from the closed and empty queue. -/
theorem closedAnswers_fails_in_window : ¬ ClosedAnswers (queueLts Bool wideTarget) := by
  intro h
  have h₀ := Lts.restrict_reachable receiverBeforeClose_reachable
  have h₁ := h₀.snoc (.tick _ ⟨0, 5⟩ rfl)
  have h₂ := h₁.snoc (.expire _ true shortReceive ⟨0, 5⟩ rfl rfl)
  have h₃ := h₂.snoc (.first _ false closeCall oneSlotQueue.buffer.close (.ret .close (.ok ()))
    .all (fun _ => false) rfl rfl (by intro t; cases t <;> rfl))
  exact (h _ _ _ true (.recv [0]) (.error .timeout) h₃ (.timeout _ true shortReceive rfl) rfl rfl
    rfl).1 rfl

end OsalRust.Posix
