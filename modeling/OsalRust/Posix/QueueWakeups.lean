import OsalRust.Framework.WaitSet
import OsalRust.Posix.QueueLaws

/-!
# No lost wakeup in the POSIX queue

The wait sets of the two condition variables of `PosixQueue`. Every critical section keeps the
items of a direction within the woken callers of that direction while one of them is blocked,
and a close leaves nobody blocked, so that every call on the closed queue returns.
-/

namespace OsalRust.Posix

open Framework Framework.WaitSet

namespace Phase

def wokenOn (d : Direction) : Phase → Bool
  | .woken c _ => decide (direction c.op = some d)
  | _ => false

def stage (d : Direction) (p : Phase) : Stage :=
  if p.blockedOn d then .waiting else if p.wokenOn d then .woken else .outside

theorem stage_eq_waiting {d : Direction} {p : Phase} :
    p.stage d = .waiting ↔ p.blockedOn d = true := by
  rw [stage]
  split_ifs <;> simp_all

theorem stage_eq_woken {d : Direction} {p : Phase} :
    p.stage d = .woken ↔ p.wokenOn d = true := by
  cases p <;> simp [stage, blockedOn, wokenOn]
  split_ifs <;> simp_all

theorem stage_wake (d : Direction) (p : Phase) :
    p.wake.stage d = p.stage d ∨ p.stage d = .waiting ∧ p.wake.stage d = .woken := by
  cases p with
  | blocked c deadline =>
    by_cases hd : direction c.op = some d
    · exact .inr (by simp [wake, stage, blockedOn, wokenOn, hd])
    · exact .inl (by simp [wake, stage, blockedOn, wokenOn, hd])
  | _ => exact .inl rfl

def remaining : Phase → Nat
  | .idle => 0
  | .returned _ _ => 1
  | .enter _ | .woken _ _ | .timedOut _ => 2
  | .start _ | .blocked _ _ => 3

end Phase

section Threads

variable {ι : Type} {d : Direction} {tasks : ι → Phase} {chosen : ι → Bool}

theorem wakeTasks_wakes (d : Direction) (tasks : ι → Phase) (chosen : ι → Bool) :
    Wakes (Phase.stage d) tasks (wakeTasks chosen tasks) := by
  intro t
  rw [wakeTasks]
  split_ifs
  · exact Phase.stage_wake d _
  · exact .inl rfl

theorem wakeChoice_one (h : WakeChoice tasks (.one d) chosen)
    (hw : ∃ t, (tasks t).stage d = .waiting) :
    ∃ t, (tasks t).stage d = .waiting ∧ (wakeTasks chosen tasks t).stage d = .woken := by
  obtain ⟨t, ht⟩ := hw
  obtain ⟨u, hu⟩ := h.2 ⟨t, Phase.stage_eq_waiting.mp ht⟩
  have hwait := Phase.stage_eq_waiting.mpr (h.1 u hu)
  refine ⟨u, hwait, ?_⟩
  rw [wakeTasks, if_pos hu]
  have hblocked := h.1 u hu
  rw [Phase.stage_eq_woken]
  cases hp : tasks u <;> simp_all [Phase.blockedOn, Phase.wokenOn, Phase.wake]

theorem wakeTasks_of_not_blocked (chosen : ι → Bool) {t : ι} (ht : (tasks t).isBlocked = false) :
    wakeTasks chosen tasks t = tasks t := by
  rw [wakeTasks]
  split_ifs
  · cases hp : tasks t <;> simp_all [Phase.wake, Phase.isBlocked]
  · rfl

end Threads

variable {ι : Type} [DecidableEq ι] [Fintype ι] {cfg : QueueConfig} {s s' : QueueSystem ι}
  {l : QueueEvent ι}

/-- Both wait sets of an open queue are served, and a closed one has nobody blocked. -/
structure Served (s : QueueSystem ι) : Prop where
  served : s.buffer.closed = false → ∀ d,
    WaitSet.Served (Phase.stage d) s.tasks (itemsFor s.buffer d)
  unblocked : s.buffer.closed = true → ∀ t, (s.tasks t).isBlocked = false

theorem Served.move (h : Served s) {t : ι} {p : Phase} (hp : p.isBlocked = false)
    (hstage : ∀ d, (s.tasks t).stage d = .woken → p.stage d = .woken) : Served (s.move t p) := by
  constructor
  · intro hopen d
    apply (h.served hopen d).update
    refine .inr ⟨?_, ?_⟩
    · intro hw
      rw [Phase.stage_eq_waiting] at hw
      cases p <;> simp_all [Phase.blockedOn, Phase.isBlocked]
    · by_cases hw : (s.tasks t).stage d = .woken
      · simp [QueueSystem.move, hw, hstage d hw]
      · simp [QueueSystem.move, hw]
  · intro hclosed u
    by_cases hu : u = t
    · subst u
      simpa [QueueSystem.move] using hp
    · simpa [QueueSystem.move, hu] using h.unblocked hclosed u

section Commit

variable {t : ι} {c : Call} {b : ByteQueue} {next : Next} {wake : Wake} {chosen : ι → Bool}
  {first : Bool}

/-- What a section that leaves the queue open does to one direction: the items after it, for
the threads that its signal left. -/
theorem Served.commit_open (h : Served s) (ht : (s.tasks t).isBlocked = false)
    (hwoken : ∀ d, (s.tasks t).stage d = .woken → direction c.op = some d ∧ first = false)
    (hd : Decision cfg s.now first c s.buffer b next wake)
    (hw : WakeChoice s.tasks wake chosen) (hopen : b.closed = false) (d : Direction) :
    WaitSet.Served (Phase.stage d) (s.commit t b chosen (next.phase c)).tasks
      (itemsFor b d) := by
  have hbefore (hcl : s.buffer.closed = false) :
      WaitSet.Served (Phase.stage d) (wakeTasks chosen s.tasks) (itemsFor s.buffer d) :=
    (h.served hcl d).wakes (wakeTasks_wakes d s.tasks chosen)
  have hself : wakeTasks chosen s.tasks t = s.tasks t := wakeTasks_of_not_blocked chosen ht
  cases hd with
  | closed d' hdir hclosed hempty => simp [hopen] at hclosed
  | sendOk data hop hcl hsize hroom =>
    cases d with
    | sender =>
      apply (hbefore hcl).update
      refine .inr ⟨by simp [Next.phase, Phase.stage, Phase.blockedOn, Phase.wokenOn], ?_⟩
      have hbit := Bool.toNat_le (decide ((wakeTasks chosen s.tasks t).stage .sender = .woken))
      simp only [itemsFor, ByteQueue.availableSlots, ByteQueue.pushed]
      omega
    | receiver =>
      -- the signal answers the new message, and the sender was not in this wait set
      have hsignal := (h.served hcl .receiver).signal
        (wakeTasks_wakes .receiver s.tasks chosen) (wakeChoice_one hw)
      apply hsignal.update
      refine .inr ⟨by simp [Next.phase, Phase.stage, Phase.blockedOn, Phase.wokenOn], ?_⟩
      have hnot : ¬ (s.tasks t).stage .receiver = .woken := by
        intro hs
        simpa [hop, direction] using (hwoken .receiver hs).1
      simp [hself, hnot, itemsFor, ByteQueue.pushed]
  | recvOk out hop hlen =>
    have hcl : s.buffer.closed = false := hopen
    cases d with
    | receiver =>
      apply (hbefore hcl).update
      refine .inr ⟨by simp [Next.phase, Phase.stage, Phase.blockedOn, Phase.wokenOn], ?_⟩
      have hbit := Bool.toNat_le (decide ((wakeTasks chosen s.tasks t).stage .receiver = .woken))
      simp only [itemsFor, ByteQueue.popped]
      omega
    | sender =>
      have hsignal := (h.served hcl .sender).signal
        (wakeTasks_wakes .sender s.tasks chosen) (wakeChoice_one hw)
      apply hsignal.update
      refine .inr ⟨by simp [Next.phase, Phase.stage, Phase.blockedOn, Phase.wokenOn], ?_⟩
      have hnot : ¬ (s.tasks t).stage .sender = .woken := by
        intro hs
        simpa [hop, direction] using (hwoken .sender hs).1
      simp only [itemsFor, ByteQueue.availableSlots, ByteQueue.popped, hself, hnot, decide_false,
        Bool.toNat_false]
      omega
  | overflow d' e hfirst htimeout hdeadline hsend =>
    apply (hbefore hopen).update
    refine .inr ⟨by simp [Next.phase, Phase.stage, Phase.blockedOn, Phase.wokenOn], ?_⟩
    have hnot : ¬ (s.tasks t).stage d = .woken := by
      intro hs
      simpa [hfirst] using (hwoken d hs).2
    simp [hself, hnot]
  | refused d' e hdir hcl hitems | wait d' deadline hdir hcl hitems =>
    apply (hbefore hcl).update
    by_cases hdd : d = d'
    · subst hdd
      exact .inl hitems
    · right
      have hother : direction c.op ≠ some d := by
        rw [hdir]
        simpa using fun he => hdd he.symm
      have hnot : ¬ (s.tasks t).stage d = .woken := fun hs => hother (hwoken d hs).1
      refine ⟨by simp [Next.phase, Phase.stage, Phase.blockedOn, Phase.wokenOn, hother], ?_⟩
      rw [hself]
      simp [hnot]
  | closeAgain hop hclosed => simp [hopen] at hclosed
  | closeFirst hop hcl => simp [ByteQueue.close] at hopen

theorem Served.commit (h : Served s) (ht : (s.tasks t).isBlocked = false)
    (hwoken : ∀ d, (s.tasks t).stage d = .woken → direction c.op = some d ∧ first = false)
    (hd : Decision cfg s.now first c s.buffer b next wake)
    (hw : WakeChoice s.tasks wake chosen) : Served (s.commit t b chosen (next.phase c)) := by
  refine ⟨fun hopen d => h.commit_open ht hwoken hd hw hopen d, ?_⟩
  intro hclosed u
  have hown : (next.phase c).isBlocked = false := by
    cases hd with
    | wait d deadline hdir hopen hitems =>
      rw [show s.buffer.closed = true from hclosed] at hopen
      contradiction
    | _ => rfl
  have hother : (wakeTasks chosen s.tasks u).isBlocked = false := by
    apply wakeTasks_isBlocked
    cases hd with
    | closeFirst hop hopen =>
      rw [hw u]
      cases (s.tasks u).isBlocked
      · exact .inl rfl
      · exact .inr rfl
    | _ => exact .inl (h.unblocked hclosed u)
  by_cases hu : u = t
  · subst u
    simpa [QueueSystem.commit] using hown
  · simpa [QueueSystem.commit, hu] using hother

end Commit

theorem Served.step (hready : Ready cfg s) (h : Served s) (hs : QueueStep cfg s l s') :
    Served s' := by
  cases hs with
  | first t c b next wake chosen ht hsec hw =>
    have hv := hready.valid t c (by rw [ht]; rfl)
    refine h.commit (by rw [ht]; rfl) ?_ (firstSection_decision hready.wf hv hsec) hw
    intro d hd
    simp [ht, Phase.stage_eq_woken, Phase.wokenOn] at hd
  | round t c deadline b next wake chosen ht hsec hw =>
    have hv := hready.valid t c (by rw [ht]; rfl)
    refine h.commit (by rw [ht]; rfl) ?_ (roundSection_decision hready.wf hv hsec) hw
    intro d hd
    rw [ht, Phase.stage_eq_woken] at hd
    exact ⟨by simpa [Phase.wokenOn] using hd, rfl⟩
  | invoke t c ht | reject t c e ht hv | accept t c ht hv | expire t c deadline ht hd
  | timeout t c ht | ret t op r ht =>
    apply h.move rfl
    intro d hd
    simp [ht, Phase.stage_eq_woken, Phase.wokenOn] at hd
  | spurious t c deadline ht =>
    apply h.move rfl
    intro d hd
    simp [ht, Phase.stage_eq_woken, Phase.wokenOn] at hd
  | tick now hn => exact ⟨h.served, h.unblocked⟩

theorem served_of_reachable (h : (queueLts ι cfg).Reachable s) : Served s := by
  have hboth : Ready cfg s ∧ Served s := by
    apply h.invariant (I := fun s => Ready cfg s ∧ Served s)
    · intro s hi
      refine ⟨ready_of_reachable (Lts.Reachable.start hi), ?_⟩
      obtain ⟨reserve, capacity, messageSize, hnew, htasks⟩ := hi
      constructor
      · rintro _ d ⟨t, ht⟩
        simp [htasks, Phase.stage_eq_waiting, Phase.blockedOn] at ht
      · intro _ t
        simp [htasks, Phase.isBlocked]
    · intro s l s' hi hs
      exact ⟨hi.1.step hs, Served.step hi.1 hi.2 hs⟩
  exact hboth.2

/-- What the wait sets owe at a state with the mutex free, for the blocked and woken callers of
each variable, and what a closed queue owes to every call in progress: some step of its thread
is enabled and brings the call nearer to its return, and no other step of the system sends it
back. -/
structure NoLostWakeup (cfg : QueueConfig) (s : QueueSystem ι) : Prop where
  receivers : s.buffer.isClosed = false → (∃ t, (s.tasks t).blockedOn .receiver = true) →
    s.buffer.len ≤ tally (Phase.wokenOn .receiver) s.tasks
  senders : s.buffer.isClosed = false → (∃ t, (s.tasks t).blockedOn .sender = true) →
    s.buffer.availableSlots ≤ tally (Phase.wokenOn .sender) s.tasks
  unblocked : s.buffer.isClosed = true → ∀ t, (s.tasks t).isBlocked = false
  stays : s.buffer.isClosed = true → ∀ l s', QueueStep cfg s l s' → s'.buffer.isClosed = true
  returns : s.buffer.isClosed = true → ∀ t, s.tasks t ≠ .idle →
    (∃ l s', QueueStep cfg s l s' ∧ (s'.tasks t).remaining < (s.tasks t).remaining) ∧
    (∀ l s', QueueStep cfg s l s' →
      s'.tasks t = s.tasks t ∨ (s'.tasks t).remaining < (s.tasks t).remaining)

omit [DecidableEq ι] in
private theorem woken_eq_tally (d : Direction) (tasks : ι → Phase) :
    WaitSet.woken (Phase.stage d) tasks = tally (Phase.wokenOn d) tasks := by
  unfold WaitSet.woken
  congr 1
  funext p
  cases hp : p.wokenOn d with
  | true => simpa using Phase.stage_eq_woken.mpr hp
  | false => simp [Phase.stage_eq_woken, hp]

omit [DecidableEq ι] in
private theorem Served.items_le (h : Served s) (hopen : s.buffer.closed = false) {d : Direction}
    (hb : ∃ t, (s.tasks t).blockedOn d = true) :
    itemsFor s.buffer d ≤ tally (Phase.wokenOn d) s.tasks := by
  obtain ⟨t, ht⟩ := hb
  rw [← woken_eq_tally]
  exact h.served hopen d ⟨t, Phase.stage_eq_waiting.mpr ht⟩

omit [Fintype ι] in
private theorem closed_step (hready : Ready cfg s) (hclosed : s.buffer.closed = true)
    (hs : QueueStep cfg s l s') : s'.buffer.closed = true := by
  have hcommit {first : Bool} {c : Call} {b : ByteQueue} {next : Next} {wake : Wake}
      (hd : Decision cfg s.now first c s.buffer b next wake) : b.closed = true := by
    cases hd with
    | closeFirst => rfl
    | _ => exact hclosed
  cases hs with
  | first t c b next wake chosen ht hsec hw =>
    have hv := hready.valid t c (by rw [ht]; rfl)
    exact hcommit (firstSection_decision hready.wf hv hsec)
  | round t c deadline b next wake chosen ht hsec hw =>
    have hv := hready.valid t c (by rw [ht]; rfl)
    exact hcommit (roundSection_decision hready.wf hv hsec)
  | _ => exact hclosed

private def ReturnsFrom (r : Checked (ByteQueue × Next × Wake)) : Prop :=
  ∃ b op res wake, r = .ok (b, .ret op res, wake)

private theorem recvRound_returns {b : ByteQueue} {out : Message} (hwf : b.Wf cfg.width)
    (hsize : out.length = b.messageSize) (hclosed : b.closed = true)
    (deadline : Option Timespec) : ReturnsFrom (recvRound cfg.width deadline out b) := by
  unfold recvRound ByteQueue.isClosed ByteQueue.isEmpty
  by_cases hlen : b.len = 0
  · simp only [hclosed, hlen, beq_self_eq_true, Bool.and_self, if_true]
    exact ⟨_, _, _, _, rfl⟩
  · have hne : (b.len == 0) = false := by simpa using hlen
    simp only [hne, Bool.and_false, Bool.false_eq_true, if_false, ByteQueue.tryRecv_eq hwf, hsize,
      ne_eq, not_true_eq_false, hlen, bind, Except.bind]
    exact ⟨_, _, _, _, rfl⟩

private theorem recvSection_returns {b : ByteQueue} {out : Message} (hwf : b.Wf cfg.width)
    (hsize : out.length = b.messageSize) (hclosed : b.closed = true) (now : Timespec)
    (timeout : Timeout) : ReturnsFrom (recvSection cfg now timeout out b) := by
  unfold recvSection
  cases timeout with
  | noWait =>
    by_cases hlen : b.len = 0
    · simp only [ByteQueue.tryRecv_eq hwf, hsize, ne_eq, not_true_eq_false, if_false, hlen,
        hclosed, if_true, bind, Except.bind]
      exact ⟨_, _, _, _, rfl⟩
    · simp only [ByteQueue.tryRecv_eq hwf, hsize, ne_eq, not_true_eq_false, if_false, hlen, bind,
        Except.bind]
      exact ⟨_, _, _, _, rfl⟩
  | after d =>
    cases hdl : checkedAbsDeadline cfg.timeMax now d with
    | error e =>
      simp only [hdl]
      exact ⟨_, _, _, _, rfl⟩
    | ok deadline =>
      simp only [hdl]
      exact recvRound_returns hwf hsize hclosed _
  | forever => exact recvRound_returns hwf hsize hclosed _

private theorem firstSection_returns {b : ByteQueue} {c : Call} (hwf : b.Wf cfg.width)
    (hv : validate b.messageSize c.op = .ok ()) (hclosed : b.closed = true) (now : Timespec) :
    ReturnsFrom (firstSection cfg now c b) := by
  unfold firstSection
  cases hop : c.op with
  | send data =>
    simp only [sendSection, ByteQueue.isClosed, hclosed, if_true]
    exact ⟨_, _, _, _, rfl⟩
  | recv out =>
    rw [hop] at hv
    exact recvSection_returns hwf (validate_recv hv) hclosed now _
  | close =>
    simp only [closeSection, ByteQueue.isClosed, hclosed, if_true]
    exact ⟨_, _, _, _, rfl⟩

private theorem roundSection_returns {b : ByteQueue} {c : Call} (hwf : b.Wf cfg.width)
    (hv : validate b.messageSize c.op = .ok ()) (hclosed : b.closed = true)
    (deadline : Option Timespec) : ReturnsFrom (roundSection cfg deadline c b) := by
  unfold roundSection
  cases hop : c.op with
  | send data =>
    simp only [sendRound, ByteQueue.isClosed, hclosed, if_true]
    exact ⟨_, _, _, _, rfl⟩
  | recv out =>
    rw [hop] at hv
    exact recvRound_returns hwf (validate_recv hv) hclosed deadline
  | close =>
    simp only [closeSection, ByteQueue.isClosed, hclosed, if_true]
    exact ⟨_, _, _, _, rfl⟩

omit [DecidableEq ι] [Fintype ι] in
private theorem wakeChoice_nobody {tasks : ι → Phase} (h : ∀ t, (tasks t).isBlocked = false)
    (wake : Wake) : WakeChoice tasks wake fun _ => false := by
  cases wake with
  | none => exact fun _ => rfl
  | one d =>
    refine ⟨by simp, ?_⟩
    rintro ⟨t, ht⟩
    have := h t
    cases hp : tasks t <;> simp_all [Phase.blockedOn, Phase.isBlocked]
  | all => exact fun t => (h t).symm

/-- A call in progress on the closed queue can make its next step, whatever the others do. -/
private theorem remaining_falls (hready : Ready cfg s) (h : Served s)
    (hclosed : s.buffer.closed = true) {t : ι} (ht : s.tasks t ≠ .idle) :
    ∃ l s', QueueStep cfg s l s' ∧ (s'.tasks t).remaining < (s.tasks t).remaining := by
  have hquiet := h.unblocked hclosed
  cases hp : s.tasks t with
  | idle => contradiction
  | start c =>
    cases hv : validate s.buffer.messageSize c.op with
    | error e =>
      exact ⟨_, _, .reject s t c e hp hv, by simp [QueueSystem.move, Phase.remaining]⟩
    | ok u => exact ⟨_, _, .accept s t c hp hv, by simp [QueueSystem.move, Phase.remaining]⟩
  | enter c =>
    obtain ⟨b, op, r, wake, hsec⟩ :=
      firstSection_returns hready.wf (hready.valid t c (by rw [hp]; rfl)) hclosed s.now
    exact ⟨_, _, .first s t c b _ wake _ hp hsec (wakeChoice_nobody hquiet wake),
      by simp [QueueSystem.commit, Next.phase, Phase.remaining]⟩
  | blocked c deadline =>
    have := hquiet t
    rw [hp] at this
    contradiction
  | woken c deadline =>
    obtain ⟨b, op, r, wake, hsec⟩ :=
      roundSection_returns hready.wf (hready.valid t c (by rw [hp]; rfl)) hclosed deadline
    exact ⟨_, _, .round s t c deadline b _ wake _ hp hsec (wakeChoice_nobody hquiet wake),
      by simp [QueueSystem.commit, Next.phase, Phase.remaining]⟩
  | timedOut c => exact ⟨_, _, .timeout s t c hp, by simp [QueueSystem.move, Phase.remaining]⟩
  | returned op r => exact ⟨_, _, .ret s t op r hp, by simp [QueueSystem.move, Phase.remaining]⟩

private theorem remaining_step (hready : Ready cfg s) (h : Served s)
    (hclosed : s.buffer.closed = true) (hs : QueueStep cfg s l s') {t : ι}
    (ht : s.tasks t ≠ .idle) :
    s'.tasks t = s.tasks t ∨ (s'.tasks t).remaining < (s.tasks t).remaining := by
  have hquiet := h.unblocked hclosed
  have hmove {u : ι} {p : Phase} (hp : u = t → p.remaining < (s.tasks u).remaining) :
      (s.move u p).tasks t = s.tasks t ∨
        ((s.move u p).tasks t).remaining < (s.tasks t).remaining := by
    by_cases hu : t = u
    · subst u
      exact .inr (by simpa [QueueSystem.move] using hp rfl)
    · exact .inl (by simp [QueueSystem.move, hu])
  have hcommit {u : ι} {b : ByteQueue} {chosen : ι → Bool} {p : Phase}
      (hp : u = t → p.remaining < (s.tasks u).remaining) :
      (s.commit u b chosen p).tasks t = s.tasks t ∨
        ((s.commit u b chosen p).tasks t).remaining < (s.tasks t).remaining := by
    by_cases hu : t = u
    · subst u
      exact .inr (by simpa [QueueSystem.commit] using hp rfl)
    · refine .inl ?_
      simp only [QueueSystem.commit, Function.update_of_ne hu]
      exact wakeTasks_of_not_blocked chosen (hquiet t)
  cases hs with
  | invoke u c hu => exact hmove fun he => absurd (he ▸ hu) ht
  | first u c b next wake chosen hu hsec hw =>
    obtain ⟨b', op, r, wake', hret⟩ :=
      firstSection_returns hready.wf (hready.valid u c (by rw [hu]; rfl)) hclosed s.now
    obtain ⟨rfl, rfl, rfl⟩ : b' = b ∧ .ret op r = next ∧ wake' = wake := by
      simpa using hret.symm.trans hsec
    exact hcommit fun _ => by simp [hu, Next.phase, Phase.remaining]
  | round u c deadline b next wake chosen hu hsec hw =>
    obtain ⟨b', op, r, wake', hret⟩ :=
      roundSection_returns hready.wf (hready.valid u c (by rw [hu]; rfl)) hclosed deadline
    obtain ⟨rfl, rfl, rfl⟩ : b' = b ∧ .ret op r = next ∧ wake' = wake := by
      simpa using hret.symm.trans hsec
    exact hcommit fun _ => by simp [hu, Next.phase, Phase.remaining]
  | tick now hn => exact .inl rfl
  | reject u c e hu | accept u c hu | spurious u c deadline hu | expire u c deadline hu
  | timeout u c hu | ret u op r hu =>
    exact hmove fun _ => by simp [hu, Phase.remaining]

/-- Every interleaving of any number of threads, any mix of timeouts: no wakeup of the queue is
lost. -/
theorem queue_wakeups_kept (ι : Type) [DecidableEq ι] [Fintype ι] (cfg : QueueConfig)
    (s : QueueSystem ι) (h : (queueLts ι cfg).Reachable s) : NoLostWakeup cfg s := by
  have hready := ready_of_reachable h
  have hserved := served_of_reachable h
  exact
    { receivers := fun hopen hb => hserved.items_le hopen hb
      senders := fun hopen hb => hserved.items_le hopen hb
      unblocked := hserved.unblocked
      stays := fun hclosed _ _ hs => closed_step hready hclosed hs
      returns := fun hclosed _ ht =>
        ⟨remaining_falls hready hserved hclosed ht,
          fun _ _ hs => remaining_step hready hserved hclosed hs ht⟩ }

theorem queue_wakeups_kept_receiver : NoLostWakeup wideTarget receiverBeforeClose :=
  queue_wakeups_kept Bool wideTarget _ (Lts.restrict_reachable receiverBeforeClose_reachable)

end OsalRust.Posix
