import OsalRust.FreeRtos.QueueSections
import OsalRust.FreeRtos.Wait

/-!
# How early a FreeRTOS call can time out

Every blocking call that times out has read the clock twice: once when it set its deadline, and
once when the clock showed that deadline. Both readings are rounded down to a tick, so the time
between them can be shorter than the timeout by the part of a tick that had passed at the first
one.
-/

namespace OsalRust.FreeRtos

variable {K : Type} [Field K] [LinearOrder K] [FloorSemiring K]

/-- Two readings of the clock between `t₀` and `t'`: the one that set the deadline `d` later, and
one that showed it. -/
def Expires (c : TickSource) (d : Duration) (t₀ t' : K) : Prop :=
  ∃ r now deadline r' now', t₀ ≤ r ∧ c.now r = .ok now ∧ now.checkedAdd d = some deadline ∧
    r ≤ r' ∧ c.now r' = .ok now' ∧ deadline ≤ now' ∧ r' ≤ t'

private theorem Expires.mono {c : TickSource} {d : Duration} {t₀ t t' : K}
    (h : Expires c d t₀ t) (htt : t ≤ t') : Expires c d t₀ t' := by
  obtain ⟨r, now, deadline, r', now', hr, hn, ha, hrr, hn', hd, hrt⟩ := h
  exact ⟨r, now, deadline, r', now', hr, hn, ha, hrr, hn', hd, hrt.trans htt⟩

/-- A finite budget of a call that began at `t₀`, as it may be at `t`: its deadline, once set,
comes from a reading of the clock within the call. -/
def Dated (c : TickSource) (d : Duration) (t₀ t : K) : WaitBudget → Prop
  | .finite d' none _ => d' = d ∧ t₀ ≤ t
  | .finite d' (some deadline) _ => d' = d ∧ ∃ r now, t₀ ≤ r ∧ r ≤ t ∧ c.now r = .ok now ∧
      now.checkedAdd d = some deadline
  | _ => False

private theorem Dated.mono {c : TickSource} {d : Duration} {t₀ t t' : K} {budget : WaitBudget}
    (h : Dated c d t₀ t budget) (htt : t ≤ t') : Dated c d t₀ t' budget := by
  match budget, h with
  | .finite _ none _, ⟨hd, ht⟩ => exact ⟨hd, ht.trans htt⟩
  | .finite _ (some _) _, ⟨hd, r, now, hr, hrt, hn, ha⟩ =>
    exact ⟨hd, r, now, hr, hrt.trans htt, hn, ha⟩

private theorem Dated.le {c : TickSource} {d : Duration} {t₀ t : K} {budget : WaitBudget}
    (h : Dated c d t₀ t budget) : t₀ ≤ t := by
  match budget, h with
  | .finite _ none _, ⟨_, ht⟩ => exact ht
  | .finite _ (some _) _, ⟨_, _, _, hr, hrt, _⟩ => exact hr.trans hrt

private theorem dated_new {c : TickSource} {d : Duration} (hd : d ≠ Duration.zero) (t₀ : K) :
    Dated c d t₀ t₀ (WaitBudget.new (.after d)) := by
  rw [WaitBudget.new, if_neg hd]
  exact ⟨rfl, le_rfl⟩

/-! ### No wait reports a timeout by itself -/

private theorem nativeTicks_pos {c : TickSource} {deadline now : Duration} {n : Nat}
    (h : c.nativeTicks deadline now = .ok n) : 1 ≤ n := by
  unfold TickSource.nativeTicks at h
  split at h
  · cases h
  · obtain rfl := Except.ok.inj h
    omega

private theorem nativeTicks_error {c : TickSource} {deadline now : Duration} {e : Error}
    (h : c.nativeTicks deadline now = .error e) : e = .overflow := by
  unfold TickSource.nativeTicks at h
  split at h
  · exact (Except.error.inj h).symm
  · cases h

private theorem DeadlineLoop.ne_timeout {c : TickSource} {deadline : Duration} {t t' : K}
    {o : Result WaitOutcome} (h : DeadlineLoop c deadline t o t') : o ≠ .error .timeout := by
  induction h with
  | overflow _ _ _ hk =>
    rw [nativeTicks_error hk]
    decide
  | chunk _ _ _ _ _ _ _ ih => exact ih
  | _ => exact nofun

private theorem ensureBlockingAllowed_ne_timeout {scheduler : SchedulerState} :
    ensureBlockingAllowed scheduler ≠ .error .timeout := by
  cases scheduler <;> simp [ensureBlockingAllowed]

private theorem entryCheck_ne_timeout {scheduler : SchedulerState} {prepared : Bool} :
    entryCheck scheduler prepared ≠ .error .timeout := by
  cases prepared with
  | false => exact ensureBlockingAllowed_ne_timeout
  | true => exact nofun

private theorem WaitOnce.ne_timeout {c : TickSource} {scheduler : SchedulerState}
    {budget budget' : WaitBudget} {t t' : K} {o : Result WaitOutcome}
    (h : WaitOnce c scheduler budget t o budget' t') : o ≠ .error .timeout := by
  cases h with
  | refused he =>
    rintro ⟨⟩
    exact entryCheck_ne_timeout he
  | refusedForever he =>
    rintro ⟨⟩
    exact entryCheck_ne_timeout he
  | first _ _ _ _ hl => exact hl.ne_timeout
  | again _ hl => exact hl.ne_timeout
  | overflow => decide
  | _ => exact nofun

private theorem prepareBlocking_ne_timeout {scheduler : SchedulerState} {now : Duration}
    {budget : WaitBudget} : budget.prepareBlocking scheduler now ≠ .error .timeout := by
  match budget with
  | .noWait => exact nofun
  | .zero => exact nofun
  | .finite d none p =>
    cases scheduler with
    | running => cases h : now.checkedAdd d <;>
        simp [WaitBudget.prepareBlocking, ensureBlockingAllowed, h, bind, Except.bind, pure,
          Except.pure]
    | _ => simp [WaitBudget.prepareBlocking, ensureBlockingAllowed, bind, Except.bind]
  | .finite d (some _) p =>
    cases scheduler <;>
      simp [WaitBudget.prepareBlocking, ensureBlockingAllowed, bind, Except.bind, pure, Except.pure]
  | .forever p =>
    cases scheduler <;>
      simp [WaitBudget.prepareBlocking, ensureBlockingAllowed, bind, Except.bind, pure, Except.pure]

private theorem Dated.prepared {c : TickSource} {scheduler : SchedulerState} {d now : Duration}
    {budget budget' : WaitBudget} {t₀ t : K} (hb : Dated c d t₀ t budget) (hn : c.now t = .ok now)
    (h : budget.prepareBlocking scheduler now = .ok budget') : Dated c d t₀ t budget' := by
  match budget, hb with
  | .finite d' none p, ⟨hd, ht⟩ =>
    subst hd
    cases he : ensureBlockingAllowed scheduler with
    | error e => simp [WaitBudget.prepareBlocking, he, bind, Except.bind] at h
    | ok u =>
      cases ha : now.checkedAdd d' with
      | none => simp [WaitBudget.prepareBlocking, he, ha, bind, Except.bind] at h
      | some deadline =>
        simp only [WaitBudget.prepareBlocking, he, ha, bind, Except.bind, pure, Except.pure,
          Except.ok.injEq] at h
        subst h
        exact ⟨rfl, t, now, ht, le_rfl, hn, ha⟩
  | .finite d' (some deadline) p, hb =>
    cases he : ensureBlockingAllowed scheduler with
    | error e => simp [WaitBudget.prepareBlocking, he, bind, Except.bind] at h
    | ok u =>
      simp only [WaitBudget.prepareBlocking, he, bind, Except.bind, pure, Except.pure,
        Except.ok.injEq] at h
      subst h
      exact hb

/-! ### Ticks and instants -/

variable [IsStrictOrderedRing K]

namespace TickSource

variable (c : TickSource)

omit [IsStrictOrderedRing K] in
theorem now_eq (t : K) : c.now t = .ok (ticksToDuration (c.ticksAt t) c.rateHz) := by
  refine @snapshotToDuration_split ⟨c.rateHz, c.tickBits⟩ ?_ _
  have hr : c.rateHz ≠ 0 := c.rate_pos.ne'
  rcases c.bits_valid with h | h | h <;> simp [validateConfig, hr, h] <;> rfl

theorem tickTime_le_iff {t : K} (ht : 0 ≤ t) (m : Nat) : c.tickTime m ≤ t ↔ m ≤ c.ticksAt t := by
  have hr : (0 : K) < c.rateHz := Nat.cast_pos.2 c.rate_pos
  have hn : (0 : K) < nanosPerSec := Nat.cast_pos.2 (by decide)
  have hpos : 0 ≤ t * c.rateHz / nanosPerSec := by positivity
  rw [ticksAt, Nat.le_floor_iff hpos, tickTime, div_le_iff₀ hr, le_div_iff₀ hn]

theorem tickTime_nonneg (m : Nat) : (0 : K) ≤ c.tickTime m := by
  unfold tickTime
  positivity

theorem tickTime_mono {m n : Nat} (h : m ≤ n) : (c.tickTime m : K) ≤ c.tickTime n := by
  unfold tickTime
  gcongr

theorem tickTime_strictMono {m n : Nat} (h : m < n) : (c.tickTime m : K) < c.tickTime n := by
  have hr : (0 : K) < c.rateHz := Nat.cast_pos.2 c.rate_pos
  have hn : (0 : K) < nanosPerSec := Nat.cast_pos.2 (by decide)
  unfold tickTime
  gcongr

@[simp] theorem ticksAt_tickTime (m : Nat) : c.ticksAt (c.tickTime m : K) = m := by
  refine le_antisymm ?_ ((c.tickTime_le_iff (c.tickTime_nonneg m) m).1 le_rfl)
  by_contra hlt
  have hle := (c.tickTime_le_iff (c.tickTime_nonneg (K := K) m) _).2 le_rfl
  exact absurd hle (not_le.2 (c.tickTime_strictMono (Nat.lt_of_not_le hlt)))

theorem ticksAt_mono {t t' : K} (ht : 0 ≤ t) (h : t ≤ t') : c.ticksAt t ≤ c.ticksAt t' :=
  (c.tickTime_le_iff (ht.trans h) _).1 (((c.tickTime_le_iff ht _).2 le_rfl).trans h)

theorem lt_tickTime_succ {t : K} (ht : 0 ≤ t) : t < c.tickTime (c.ticksAt t + 1) := by
  by_contra hle
  exact absurd ((c.tickTime_le_iff ht _).1 (not_lt.1 hle)) (Nat.not_succ_le_self _)

/-- The clock shows a deadline from the tick on that its ceiling conversion names. -/
theorem le_now_iff {deadline : Duration} {ticks : Nat}
    (h : durationToTicksCeil deadline c.rateHz = .ok ticks) (m : Nat) :
    deadline ≤ ticksToDuration m c.rateHz ↔ ticks ≤ m := by
  rw [durationToTicksCeil_eq c.rate_pos c.rate_lt] at h
  obtain rfl := Except.ok.inj h
  rw [le_ticksToDuration_iff c.rate_pos c.rate_lt, ticksCeil_le_iff]

theorem exists_deadlineTick (deadline : Duration) :
    ∃ ticks, durationToTicksCeil deadline c.rateHz = .ok ticks :=
  ⟨_, durationToTicksCeil_eq c.rate_pos c.rate_lt deadline⟩

end TickSource

/-! ### What a timeout means -/

/-- The guard tick carries a native take over the end of the tick it begins in. -/
private theorem le_of_chunk {c : TickSource} {deadline now : Duration} {n : Nat} {b w : K}
    (hb : 0 ≤ b) (hk : c.nativeTicks deadline now = .ok n)
    (hw : c.tickTime (c.ticksAt b + n) ≤ w) : b ≤ w :=
  calc b ≤ c.tickTime (c.ticksAt b + 1) := (c.lt_tickTime_succ hb).le
    _ ≤ c.tickTime (c.ticksAt b + n) := c.tickTime_mono (by have := nativeTicks_pos hk; omega)
    _ ≤ w := hw

private theorem DeadlineLoop.le {c : TickSource} {deadline : Duration} {t t' : K}
    {o : Result WaitOutcome} (h0 : 0 ≤ t) (h : DeadlineLoop c deadline t o t') : t ≤ t' := by
  induction h with
  | immediate h => exact h
  | expired htr _ _ hrt => exact htr.trans hrt
  | overflow htr _ _ _ hrt => exact htr.trans hrt
  | taken htr _ _ _ hrt => exact htr.trans hrt
  | chunk htr _ _ hk hrb hw _ ih =>
    have hb := h0.trans (htr.trans hrb)
    have hbw := le_of_chunk hb hk hw
    exact htr.trans (hrb.trans (hbw.trans (ih (hb.trans hbw))))

private theorem DeadlineLoop.unavailable {c : TickSource} {deadline : Duration} {t t' : K}
    {o : Result WaitOutcome} (h0 : 0 ≤ t) (h : DeadlineLoop c deadline t o t')
    (ho : o = .ok .unavailable) :
    ∃ r now, t ≤ r ∧ c.now r = .ok now ∧ deadline ≤ now ∧ r ≤ t' := by
  induction h with
  | expired htr hn hd hrt => exact ⟨_, _, htr, hn, hd, hrt⟩
  | chunk htr _ _ hk hrb hw _ ih =>
    have hb := h0.trans (htr.trans hrb)
    have hbw := le_of_chunk hb hk hw
    obtain ⟨r, now, hr, hn, hd, hrt⟩ := ih (hb.trans hbw) ho
    exact ⟨r, now, htr.trans (hrb.trans (hbw.trans hr)), hn, hd, hrt⟩
  | _ => cases ho

private theorem WaitOnce.dated {c : TickSource} {scheduler : SchedulerState} {d : Duration}
    {budget budget' : WaitBudget} {t₀ t t' : K} {o : Result WaitOutcome} (h0 : 0 ≤ t)
    (hb : Dated c d t₀ t budget) (h : WaitOnce c scheduler budget t o budget' t') :
    t ≤ t' ∧ Dated c d t₀ t' budget' ∧ (o = .ok .unavailable → Expires c d t₀ t') := by
  cases h with
  | noWait => exact hb.elim
  | zero => exact hb.elim
  | refused _ h => exact ⟨h, hb.mono h, fun ho => by cases ho⟩
  | overflow _ htr _ _ hrt =>
    exact ⟨htr.trans hrt, hb.mono (htr.trans hrt), fun ho => by cases ho⟩
  | first _ htr hn ha hl =>
    obtain ⟨rfl, ht⟩ := hb
    have hrt := hl.le (h0.trans htr)
    refine ⟨htr.trans hrt, ⟨rfl, _, _, ht.trans htr, hrt, hn, ha⟩, fun ho => ?_⟩
    obtain ⟨r', now', hr', hn', hd', hrt'⟩ := hl.unavailable (h0.trans htr) ho
    exact ⟨_, _, _, r', now', ht.trans htr, hn, ha, hr', hn', hd', hrt'⟩
  | again _ hl =>
    have hrt := hl.le h0
    refine ⟨hrt, hb.mono hrt, fun ho => ?_⟩
    obtain ⟨_, r, now, hr, hrt₀, hn, ha⟩ := hb
    obtain ⟨r', now', hr', hn', hd', hrt'⟩ := hl.unavailable h0 ho
    exact ⟨r, now, _, r', now', hr, hn, ha, hrt₀.trans hr', hn', hd', hrt'⟩
  | refusedForever => exact hb.elim
  | forever => exact hb.elim

/-! ### The calls that time out -/

/-- What a critical section decides about the budget: a caller that has to wait has prepared it,
and only an empty budget makes the section itself report a timeout. -/
def Next.Budgeted (now : Duration) (c : Call) : Next → Prop
  | .wait c' => c.budget.prepareBlocking c.scheduler now = .ok c'.budget
  | .ret _ r => r = .error .timeout → c.budget = .zero

private theorem blockOn_budgeted {now : Duration} {c : Call} {st st' : QueueState} {d : Direction}
    {unavailable : Error} {next : Next} (hu : unavailable ≠ .timeout)
    (h : blockOn now c st d unavailable = .ok (st', next)) : next.Budgeted now c := by
  unfold blockOn at h
  split at h
  · cases h
    exact fun he => absurd (Except.error.inj he) hu
  · rename_i hz
    cases h
    exact fun _ => hz
  · split at h
    · rename_i he
      cases h
      intro ht
      rw [Except.error.inj ht] at he
      exact absurd he prepareBlocking_ne_timeout
    · rename_i budget hp
      cases hreg : (st.channel d).register d with
      | error p => simp [hreg, bind, Except.bind] at h
      | ok channel =>
        simp only [hreg, bind, Except.bind, pure, Except.pure] at h
        cases h
        exact hp

private theorem sendSection_budgeted {cfg : QueueConfig} {now : Duration} {c : Call}
    {data : Message} {st st' : QueueState} {next : Next} (hwf : st.buffer.Wf cfg.width)
    (h : sendSection cfg now c data st = .ok (st', next)) : next.Budgeted now c := by
  rw [sendSection, ByteQueue.trySend_eq hwf, ByteQueue.isClosed] at h
  by_cases hclosed : st.buffer.closed = true
  · rw [if_pos hclosed] at h
    cases h
    intro ht
    cases ht
  · rw [if_neg hclosed] at h
    by_cases hsize : data.length = st.buffer.messageSize
    · by_cases hfull : st.buffer.len = st.buffer.capacity
      · simp only [hsize, hclosed, hfull, ne_eq, not_true_eq_false, if_false, if_true,
          Bool.false_eq_true] at h
        exact blockOn_budgeted (by decide) h
      · simp only [hsize, hclosed, hfull, ne_eq, not_true_eq_false, if_false,
          Bool.false_eq_true] at h
        cases hsignal : st.receiver.signalOne cfg.wakeMax .receiver with
        | error p => simp [hsignal, bind, Except.bind] at h
        | ok receiver =>
          simp only [hsignal, bind, Except.bind, pure, Except.pure] at h
          cases h
          intro ht
          cases ht
    · simp only [hsize, ne_eq, not_false_eq_true, if_true] at h
      cases h
      intro ht
      cases ht

private theorem recvSection_budgeted {cfg : QueueConfig} {now : Duration} {c : Call}
    {out : Message} {st st' : QueueState} {next : Next} (hwf : st.buffer.Wf cfg.width)
    (h : recvSection cfg now c out st = .ok (st', next)) : next.Budgeted now c := by
  rw [recvSection, ByteQueue.tryRecv_eq hwf, ByteQueue.isClosed] at h
  by_cases hsize : out.length = st.buffer.messageSize
  · by_cases hlen : st.buffer.len = 0
    · cases hclosed : st.buffer.closed with
      | true =>
        simp only [hsize, hlen, hclosed, ne_eq, not_true_eq_false, if_false, if_true] at h
        cases h
        intro ht
        cases ht
      | false =>
        simp only [hsize, hlen, hclosed, ne_eq, not_true_eq_false, if_false, if_true,
          Bool.false_eq_true] at h
        exact blockOn_budgeted (by decide) h
    · simp only [hsize, hlen, ne_eq, not_true_eq_false, if_false] at h
      cases hsignal : st.sender.signalOne cfg.wakeMax .sender with
      | error p => simp [hsignal, bind, Except.bind] at h
      | ok sender =>
        simp only [hsignal, bind, Except.bind, pure, Except.pure] at h
        cases h
        intro ht
        cases ht
  · simp only [hsize, ne_eq, not_false_eq_true, if_true] at h
    cases h
    intro ht
    cases ht

private theorem closeSection_budgeted {cfg : QueueConfig} {now : Duration} {c : Call}
    {st st' : QueueState} {next : Next} (h : closeSection cfg c st = .ok (st', next)) :
    next.Budgeted now c := by
  unfold closeSection at h
  split at h
  · cases h
    exact nofun
  · cases hs : st.sender.broadcastWake cfg.wakeMax with
    | error p => simp [hs, bind, Except.bind] at h
    | ok sender =>
      cases hr : st.receiver.broadcastWake cfg.wakeMax with
      | error p => simp [hs, hr, bind, Except.bind] at h
      | ok receiver =>
        simp only [hs, hr, bind, Except.bind, pure, Except.pure] at h
        split at h
        · cases h
        · cases h
          exact nofun

theorem checkSection_budgeted {cfg : QueueConfig} {now : Duration} {c : Call}
    {st st' : QueueState} {next : Next} (hwf : st.buffer.Wf cfg.width)
    (h : checkSection cfg now c st = .ok (st', next)) : next.Budgeted now c := by
  unfold checkSection at h
  split at h
  · exact sendSection_budgeted hwf h
  · exact recvSection_budgeted hwf h
  · exact closeSection_budgeted h

/-- A queue call times out only after a wait on its one budget gave up, however often it was
woken or lost a race before. -/
private theorem QueueRounds.expires {c : TickSource} {cfg : QueueConfig} {messageSize : Nat}
    {d : Duration} {call : Call} {t₀ t t' : K} {r : Result Unit} (h0 : 0 ≤ t₀)
    (h : QueueRounds c cfg messageSize call t r t') (hr : r = .error .timeout)
    (hb : Dated c d t₀ t call.budget) : Expires c d t₀ t' := by
  induction h with
  | lockFailed hl => exact absurd (hl.trans hr) ensureBlockingAllowed_ne_timeout
  | decided hts hn hwf hm hs hst =>
    have hz := checkSection_budgeted hwf hs hr
    rw [hz] at hb
    exact hb.elim
  | waitFailed hts hn hwf hm hs hw =>
    cases hr
    exact absurd rfl hw.ne_timeout
  | relockFailed hts hn hwf hm hs hw hl hwt =>
    exact absurd (hl.trans hr) ensureBlockingAllowed_ne_timeout
  | woken hts hn hwf hm hs hw hd hc hwx h ih =>
    have hs' := (hb.mono hts).prepared hn (checkSection_budgeted hwf hs)
    exact ih hr ((hw.dated (h0.trans hs'.le) hs').2.1.mono hwx)
  | raced hts hn hwf hm hs hw hd hc hwx h ih =>
    have hs' := (hb.mono hts).prepared hn (checkSection_budgeted hwf hs)
    exact ih hr ((hw.dated (h0.trans hs'.le) hs').2.1.mono hwx)
  | gaveUp hts hn hwf hm hs hw hd hc hwt =>
    have hs' := (hb.mono hts).prepared hn (checkSection_budgeted hwf hs)
    exact ((hw.dated (h0.trans hs'.le) hs').2.2 rfl).mono hwt

inductive BlockingCall where
  | semaphoreAcquire
  | mutexLock
  | queueSend
  | queueRecv
  | taskJoin

/-- A call of this kind with `After(d)`, on some object, begins at `t₀` and returns `Timeout` at
`t'`. -/
def TimesOut (c : TickSource) (d : Duration) (t₀ t' : K) : BlockingCall → Prop
  | .semaphoreAcquire =>
    ∃ scheduler, SemaphoreAcquire c scheduler (.after d) t₀ (.error .timeout) t'
  | .mutexLock => ∃ scheduler, MutexLock c scheduler (.after d) t₀ (.error .timeout) t'
  | .queueSend => ∃ cfg messageSize scheduler data,
      QueueTransfer c cfg messageSize scheduler (.send data) (.after d) t₀ (.error .timeout) t'
  | .queueRecv => ∃ cfg messageSize scheduler out,
      QueueTransfer c cfg messageSize scheduler (.recv out) (.after d) t₀ (.error .timeout) t'
  | .taskJoin => ∃ scheduler, TaskJoin c scheduler (.after d) t₀ (.error .timeout) t'

private theorem waitNative_expires {c : TickSource} {scheduler : SchedulerState} {d : Duration}
    {t₀ t' : K} {o : Result WaitOutcome} {f : WaitOutcome → Result Unit} (h0 : 0 ≤ t₀)
    (hd : d ≠ Duration.zero) (hf : f .acquired = .ok ())
    (h : WaitNative c scheduler (.after d) t₀ o t') (hr : .error .timeout = o.bind f) :
    Expires c d t₀ t' := by
  obtain ⟨budget, hw⟩ := h
  match o with
  | .error e =>
    cases hr
    exact absurd rfl hw.ne_timeout
  | .ok .acquired => cases hr.trans hf
  | .ok .unavailable => exact (hw.dated h0 (dated_new hd t₀)).2.2 rfl

private theorem queueTransfer_expires {c : TickSource} {cfg : QueueConfig} {messageSize : Nat}
    {scheduler : SchedulerState} {op : QueueOp} {d : Duration} {t₀ t' : K} (h0 : 0 ≤ t₀)
    (hd : d ≠ Duration.zero)
    (h : QueueTransfer c cfg messageSize scheduler op (.after d) t₀ (.error .timeout) t') :
    Expires c d t₀ t' := by
  cases h with
  | invalid hv =>
    cases op with
    | close => cases hv
    | send data =>
      rw [validate] at hv
      split at hv <;> cases hv
    | recv out =>
      rw [validate] at hv
      split at hv <;> cases hv
  | rounds _ h => exact h.expires h0 rfl (dated_new hd t₀)

private theorem taskJoin_expires {c : TickSource} {scheduler : SchedulerState} {d : Duration}
    {t₀ t' : K} {r : Result ExitCode} (h0 : 0 ≤ t₀) (hd : d ≠ Duration.zero)
    (h : TaskJoin c scheduler (.after d) t₀ r t') (hr : r = .error .timeout) :
    Expires c d t₀ t' := by
  cases h with
  | self => cases hr
  | cached => cases hr
  | polled hp =>
    rcases hp with hp | hp
    · cases hp
    · exact absurd (Timeout.after.inj hp) hd
  | unprepared htr hn hp he =>
    cases hr
    exact absurd he prepareBlocking_ne_timeout
  | @waited r _ now budget budget' o finished htr hn hp he hw hf =>
    have hb := ((dated_new hd t₀).mono htr).prepared hn he
    obtain ⟨-, -, hu⟩ := hw.dated (h0.trans htr) hb
    match o with
    | .error e =>
      cases hr
      exact absurd rfl hw.ne_timeout
    | .ok .acquired =>
      obtain ⟨code, hc⟩ := Option.ne_none_iff_exists'.1 (hf rfl)
      rw [hc] at hr
      cases hr
    | .ok .unavailable => exact hu rfl

/-! ### Every expiry can happen -/

omit [IsStrictOrderedRing K] in
private theorem Expires.loop {c : TickSource} {d : Duration} {t₀ t' : K} (h : Expires c d t₀ t') :
    ∃ r now deadline, t₀ ≤ r ∧ c.now r = .ok now ∧ now.checkedAdd d = some deadline ∧
      DeadlineLoop c deadline r (.ok .unavailable) t' := by
  obtain ⟨r, now, deadline, r', now', hr, hn, ha, hrr, hn', hd, hrt⟩ := h
  exact ⟨r, now, deadline, hr, hn, ha, .expired hrr hn' hd hrt⟩

omit [IsStrictOrderedRing K] in
private theorem waitNative_of_expires {c : TickSource} {d : Duration} {t₀ t' : K}
    (hd : d ≠ Duration.zero) (h : Expires c d t₀ t') :
    WaitNative c .running (.after d) t₀ (.ok .unavailable) t' := by
  obtain ⟨r, now, deadline, hr, hn, ha, hl⟩ := h.loop
  refine ⟨.finite d (some deadline) false, ?_⟩
  rw [WaitBudget.new, if_neg hd]
  exact .first rfl hr hn ha hl

private theorem prepareBlocking_new {d now deadline : Duration} (hd : d ≠ Duration.zero)
    (ha : now.checkedAdd d = some deadline) :
    (WaitBudget.new (.after d)).prepareBlocking .running now =
      .ok (.finite d (some deadline) true) := by
  rw [WaitBudget.new, if_neg hd]
  simp [WaitBudget.prepareBlocking, ensureBlockingAllowed, ha, bind, Except.bind, pure, Except.pure]

def stalledQueue : Direction → QueueState
  | .sender => ⟨⟨[0], 1, 1, 0, 0, 1, false⟩, ⟨0, 0, 0⟩, ⟨0, 0, 0⟩⟩
  | .receiver => ⟨⟨[0], 1, 1, 0, 0, 0, false⟩, ⟨0, 0, 0⟩, ⟨0, 0, 0⟩⟩

def stalledOp : Direction → QueueOp
  | .sender => .send [0]
  | .receiver => .recv [0]

private theorem stalledQueue_wf (dir : Direction) : (stalledQueue dir).buffer.Wf width64 := by
  cases dir <;> exact ⟨by decide, by decide, by decide, by decide, by decide, by decide, by decide⟩

private theorem stalled_waits (dir : Direction) {now deadline d : Duration}
    (hd : d ≠ Duration.zero) (ha : now.checkedAdd d = some deadline) :
    checkSection ⟨width64, 8⟩ now ⟨stalledOp dir, WaitBudget.new (.after d), .running⟩
        (stalledQueue dir) =
      .ok ((stalledQueue dir).setChannel ⟨1, 0, 0⟩ dir,
        .wait ⟨stalledOp dir, .finite d (some deadline) true, .running⟩) := by
  have hp := prepareBlocking_new hd ha
  rw [WaitBudget.new, if_neg hd] at hp ⊢
  cases dir with
  | sender =>
    have hfull : (stalledQueue .sender).buffer.trySend width64 [0] =
        .ok (.error .queueFull, (stalledQueue .sender).buffer) := by
      rw [ByteQueue.trySend_eq (stalledQueue_wf .sender)]
      rfl
    have hopen : (stalledQueue .sender).buffer.isClosed = false := rfl
    simp only [checkSection, stalledOp, sendSection, hopen, hfull, blockOn, hp, Bool.false_eq_true,
      if_false]
    rfl
  | receiver =>
    have hempty : (stalledQueue .receiver).buffer.tryRecv width64 [0] =
        .ok (.error .queueEmpty, (stalledQueue .receiver).buffer, [0]) := by
      rw [ByteQueue.tryRecv_eq (stalledQueue_wf .receiver)]
      rfl
    have hopen : (stalledQueue .receiver).buffer.isClosed = false := rfl
    simp only [checkSection, stalledOp, recvSection, hopen, hempty, blockOn, hp, Bool.false_eq_true,
      if_false]
    rfl

omit [IsStrictOrderedRing K] in
private theorem queueTransfer_of_expires {c : TickSource} {d : Duration} {t₀ t' : K}
    (hd : d ≠ Duration.zero) (h : Expires c d t₀ t') (dir : Direction) :
    QueueTransfer c ⟨width64, 8⟩ 1 .running (stalledOp dir) (.after d) t₀ (.error .timeout) t' := by
  obtain ⟨r, now, deadline, hr, hn, ha, hl⟩ := h.loop
  have hwait := stalled_waits dir hd ha
  have hgive : reconcileSection dir ((stalledQueue dir).setChannel ⟨1, 0, 0⟩ dir) =
      .ok (stalledQueue dir, some .timeout) := by
    cases dir <;> rfl
  refine .rounds (by cases dir <;> rfl) ?_
  exact .gaveUp hr hn (stalledQueue_wf dir) (by cases dir <;> rfl) hwait (.again rfl hl)
    (by cases dir <;> rfl) hgive le_rfl

omit [IsStrictOrderedRing K] in
private theorem taskJoin_of_expires {c : TickSource} {d : Duration} {t₀ t' : K}
    (hd : d ≠ Duration.zero) (h : Expires c d t₀ t') :
    TaskJoin c .running (.after d) t₀ (.error .timeout) t' := by
  obtain ⟨r, now, deadline, hr, hn, ha, hl⟩ := h.loop
  have hp : Timeout.after d ≠ .noWait ∧ Timeout.after d ≠ .after Duration.zero :=
    ⟨nofun, fun he => hd (Timeout.after.inj he)⟩
  have hw : WaitOnce c .running (.finite d (some deadline) true) r (.ok .unavailable)
      (.finite d (some deadline) true) t' := .again rfl hl
  exact .waited none hr hn hp (prepareBlocking_new hd ha) hw nofun

/-- A blocking call times out exactly when its deadline was set and shown within the call. -/
theorem timesOut_iff {c : TickSource} {d : Duration} {t₀ t' : K} (h0 : 0 ≤ t₀)
    (hd : d ≠ Duration.zero) (call : BlockingCall) :
    TimesOut c d t₀ t' call ↔ Expires c d t₀ t' := by
  cases call with
  | semaphoreAcquire =>
    constructor
    · rintro ⟨scheduler, o, hw, hr⟩
      exact waitNative_expires h0 hd rfl hw hr
    · intro h
      exact ⟨.running, _, waitNative_of_expires hd h, rfl⟩
  | mutexLock =>
    constructor
    · rintro ⟨scheduler, o, hw, hr⟩
      exact waitNative_expires h0 hd rfl hw hr
    · intro h
      exact ⟨.running, _, waitNative_of_expires hd h, rfl⟩
  | queueSend =>
    constructor
    · rintro ⟨cfg, messageSize, scheduler, data, h⟩
      exact queueTransfer_expires h0 hd h
    · intro h
      exact ⟨_, _, _, _, queueTransfer_of_expires hd h .sender⟩
  | queueRecv =>
    constructor
    · rintro ⟨cfg, messageSize, scheduler, out, h⟩
      exact queueTransfer_expires h0 hd h
    · intro h
      exact ⟨_, _, _, _, queueTransfer_of_expires hd h .receiver⟩
  | taskJoin =>
    constructor
    · rintro ⟨scheduler, h⟩
      exact taskJoin_expires h0 hd h rfl
    · intro h
      exact ⟨_, taskJoin_of_expires hd h⟩

/-! ### When the timeout is never early -/

/-- The rounding of the deadline up to a tick covers what the clock hides at the start: for every
tick `m` from the start on at which the deadline may be set, the first tick that shows it comes
`d` after the start or later. -/
def TickSource.Covers (c : TickSource) (t₀ : K) (d : Duration) : Prop :=
  ∀ m deadline ticks, c.ticksAt t₀ ≤ m →
    (ticksToDuration m c.rateHz).checkedAdd d = some deadline →
    durationToTicksCeil deadline c.rateHz = .ok ticks → t₀ + d.nanos ≤ c.tickTime ticks

theorem checkedAdd_nanos {a b r : Duration} (h : a.checkedAdd b = some r) :
    r.nanos = a.nanos + b.nanos := by
  unfold Duration.checkedAdd at h
  split_ifs at h
  obtain rfl := Option.some.inj h
  rfl

private theorem lt_deadlineTick {c : TickSource} {d deadline : Duration} {m ticks : Nat}
    (hd : d ≠ Duration.zero) (ha : (ticksToDuration m c.rateHz).checkedAdd d = some deadline)
    (ht : durationToTicksCeil deadline c.rateHz = .ok ticks) : m < ticks := by
  refine Nat.lt_of_not_le fun hle => ?_
  have hdl : deadline.nanos ≤ (ticksToDuration m c.rateHz).nanos := (c.le_now_iff ht m).2 hle
  rw [checkedAdd_nanos ha] at hdl
  have hpos : d.nanos ≠ 0 := by
    intro hz
    obtain ⟨n, hn⟩ := d
    cases hz
    exact hd rfl
  omega

/-- An expiry is a tick that sets the deadline and a later one, within the call, that shows it. -/
theorem expires_iff {c : TickSource} {d : Duration} {t₀ t' : K} (h0 : 0 ≤ t₀)
    (hd : d ≠ Duration.zero) :
    Expires c d t₀ t' ↔ ∃ m deadline ticks, c.ticksAt t₀ ≤ m ∧
      (ticksToDuration m c.rateHz).checkedAdd d = some deadline ∧
      durationToTicksCeil deadline c.rateHz = .ok ticks ∧ c.tickTime ticks ≤ t' := by
  constructor
  · rintro ⟨r, now, deadline, r', now', hr, hn, ha, hrr, hn', hd', hrt⟩
    obtain ⟨ticks, ht⟩ := c.exists_deadlineTick deadline
    rw [c.now_eq] at hn hn'
    obtain rfl := Except.ok.inj hn
    obtain rfl := Except.ok.inj hn'
    have hpos : 0 ≤ r' := h0.trans (hr.trans hrr)
    have hticks : c.tickTime ticks ≤ r' := (c.tickTime_le_iff hpos _).2 ((c.le_now_iff ht _).1 hd')
    exact ⟨c.ticksAt r, deadline, ticks, c.ticksAt_mono h0 hr, ha, ht, hticks.trans hrt⟩
  · rintro ⟨m, deadline, ticks, hm, ha, ht, hle⟩
    have hlt : m < ticks := lt_deadlineTick hd ha ht
    have hmax : c.ticksAt (max t₀ (c.tickTime m)) = m := by
      refine le_antisymm ?_ ((c.tickTime_le_iff (h0.trans (le_max_left _ _)) _).1 (le_max_right _ _))
      rcases max_choice t₀ (c.tickTime m) with h | h
      · rw [h]
        exact hm
      · rw [h, c.ticksAt_tickTime]
    have hshow : max t₀ (c.tickTime m) ≤ c.tickTime ticks := by
      refine max_le ?_ (c.tickTime_mono hlt.le)
      exact (c.lt_tickTime_succ h0).le.trans (c.tickTime_mono (by omega))
    refine ⟨_, _, deadline, c.tickTime ticks, _, le_max_left _ _, c.now_eq _, ?_, hshow,
      c.now_eq _, ?_, hle⟩
    · rw [hmax]
      exact ha
    · rw [c.ticksAt_tickTime]
      exact (c.le_now_iff ht ticks).2 le_rfl

/-- A call with `After(d)` that begins at `t₀` reports `Timeout` before `t₀ + d` in no execution
exactly when the rounding of the deadline covers the start. -/
theorem timeout_never_early_iff (c : TickSource) (call : BlockingCall) (d : Duration)
    (hd : d ≠ Duration.zero) (t₀ : K) (h0 : 0 ≤ t₀) :
    (∀ t', TimesOut c d t₀ t' call → t₀ + d.nanos ≤ t') ↔ c.Covers t₀ d := by
  constructor
  · intro h m deadline ticks hm ha ht
    refine h _ ((timesOut_iff h0 hd call).2 ?_)
    exact (expires_iff h0 hd).2 ⟨m, deadline, ticks, hm, ha, ht, le_rfl⟩
  · intro h t' ho
    obtain ⟨m, deadline, ticks, hm, ha, ht, hle⟩ :=
      (expires_iff h0 hd).1 ((timesOut_iff h0 hd call).1 ho)
    exact (h m deadline ticks hm ha ht).trans hle

def millisecondTicks : TickSource :=
  ⟨1000, 16, 65534, by decide, by decide, by decide, by decide, by decide⟩

def longestDelay : Duration := ⟨65534000000, by decide⟩

/-- A call that begins half a tick after an interrupt. Its first chunk is cut at the longest
payload and returns at the very tick that shows the deadline, half a tick early; the task is
never preempted. -/
theorem acquire_timeout_early :
    SemaphoreAcquire millisecondTicks .running (.after longestDelay) (500000 : ℚ)
        (.error .timeout) 65534000000 ∧
      ¬ (500000 + longestDelay.nanos : ℚ) ≤ 65534000000 := by
  have hlong : (longestDelay.nanos : ℚ) = 65534000000 := by norm_num [longestDelay]
  have hstart : millisecondTicks.ticksAt (500000 : ℚ) = 0 := by
    rw [TickSource.ticksAt, Nat.floor_eq_zero]
    norm_num [millisecondTicks, nanosPerSec]
  have hstop : (millisecondTicks.tickTime 65534 : ℚ) = 65534000000 := by
    norm_num [millisecondTicks, TickSource.tickTime, nanosPerSec]
  have hnow : millisecondTicks.now (500000 : ℚ) = .ok Duration.zero := by
    rw [TickSource.now_eq, hstart]
    rfl
  have hend : millisecondTicks.now (65534000000 : ℚ) = .ok longestDelay := by
    rw [TickSource.now_eq, ← hstop, TickSource.ticksAt_tickTime]
    rfl
  have hchunk : millisecondTicks.nativeTicks longestDelay Duration.zero = .ok 65534 := by
    rw [TickSource.nativeTicks, durationToTicksCeil_eq (by decide) (by decide)]
    norm_num [longestDelay, millisecondTicks, Duration.saturatingSub, Duration.zero, nanosPerSec]
  refine ⟨⟨.ok .unavailable, ⟨.finite longestDelay (some longestDelay) false, ?_⟩, rfl⟩, ?_⟩
  · refine WaitOnce.first rfl le_rfl hnow (by decide) ?_
    refine DeadlineLoop.chunk le_rfl hnow (by decide) hchunk le_rfl (w := 65534000000) ?_ ?_
    · rw [hstart, Nat.zero_add, hstop]
    · exact .expired le_rfl hend (Nat.le_refl _) le_rfl
  · rw [hlong]
    norm_num

private theorem ticks_of_checkedAdd {c : TickSource} {d deadline : Duration} {m : Nat}
    (hd : d ≠ Duration.zero) (ha : (ticksToDuration m c.rateHz).checkedAdd d = some deadline) :
    (ticksToDuration m c.rateHz).nanos = m * nanosPerSec / c.rateHz := by
  refine ticksToDuration_nanos c.rate_pos c.rate_lt (Nat.lt_of_not_le fun hsat => ?_)
  have hmax : Duration.max ≤ ticksToDuration m c.rateHz := by
    rw [ticksToDuration, dif_neg (Nat.not_lt.2 hsat)]
    exact Nat.le_refl _
  have hm := lt_deadlineTick hd ha (durationToTicksCeil_eq c.rate_pos c.rate_lt deadline)
  refine absurd ((c.le_now_iff (durationToTicksCeil_eq c.rate_pos c.rate_lt deadline) m).1 ?_)
    (Nat.not_le.2 hm)
  exact Nat.le_trans deadline.le_max hmax

/-- However the ticks fall, a timeout is early by less than a tick and a nanosecond. -/
theorem timeout_early_window {c : TickSource} {call : BlockingCall} {d : Duration}
    (hd : d ≠ Duration.zero) {t₀ t' : K} (h0 : 0 ≤ t₀) (h : TimesOut c d t₀ t' call) :
    t₀ + d.nanos < t' + c.tickTime 1 + 1 := by
  obtain ⟨m, deadline, ticks, hm, ha, ht, hle⟩ :=
    (expires_iff h0 hd).1 ((timesOut_iff h0 hd call).1 h)
  have hr : (0 : K) < c.rateHz := Nat.cast_pos.2 c.rate_pos
  have hstart : t₀ < c.tickTime m + c.tickTime 1 := by
    have hsum : (c.tickTime m + c.tickTime 1 : K) = c.tickTime (m + 1) := by
      simp only [TickSource.tickTime]
      push_cast
      ring
    rw [hsum]
    exact (c.lt_tickTime_succ h0).trans_le (c.tickTime_mono (by omega))
  have hclock : (c.tickTime m : K) < (ticksToDuration m c.rateHz).nanos + 1 := by
    rw [ticks_of_checkedAdd hd ha, TickSource.tickTime, div_lt_iff₀ hr]
    have hnat := Nat.lt_mul_of_div_lt (Nat.lt_succ_self (m * nanosPerSec / c.rateHz)) c.rate_pos
    exact_mod_cast hnat
  have hshow : (deadline.nanos : K) ≤ c.tickTime ticks := by
    have hnat := (le_ticksToDuration_iff c.rate_pos c.rate_lt deadline).1 ((c.le_now_iff ht ticks).2 le_rfl)
    rw [TickSource.tickTime, le_div_iff₀ hr]
    exact_mod_cast hnat
  have hsum : (deadline.nanos : K) = (ticksToDuration m c.rateHz).nanos + d.nanos := by
    rw [checkedAdd_nanos ha]
    push_cast
    ring
  linarith

/-- With a tick of a whole number of nanoseconds, the part of a tick that has passed at the start
must not exceed what the rounding of `d` up to ticks adds to it. -/
theorem covers_iff_of_dvd {c : TickSource} (hdvd : c.rateHz ∣ nanosPerSec) {d deadline : Duration}
    (hd : d ≠ Duration.zero) {t₀ : K} {n : Nat}
    (ha : (ticksToDuration (c.ticksAt t₀) c.rateHz).checkedAdd d = some deadline)
    (hn : durationToTicksCeil d c.rateHz = .ok n) :
    c.Covers t₀ d ↔ t₀ - c.tickTime (c.ticksAt t₀) ≤ c.tickTime n - d.nanos := by
  have hticks : ∀ m deadline ticks, (ticksToDuration m c.rateHz).checkedAdd d = some deadline →
      durationToTicksCeil deadline c.rateHz = .ok ticks → ticks = m + n := by
    intro m deadline ticks ha ht
    obtain ⟨p, hp⟩ := hdvd
    have hclock : (ticksToDuration m c.rateHz).nanos = m * p := by
      rw [ticks_of_checkedAdd hd ha, hp, Nat.mul_left_comm, Nat.mul_div_cancel_left _ c.rate_pos]
    rw [durationToTicksCeil_eq c.rate_pos c.rate_lt] at ht hn
    obtain rfl := Except.ok.inj ht
    obtain rfl := Except.ok.inj hn
    have hsplit : (m * p + d.nanos) * c.rateHz + (nanosPerSec - 1) =
        d.nanos * c.rateHz + (nanosPerSec - 1) + nanosPerSec * m := by
      conv_rhs => rw [hp]
      conv_lhs => rw [hp]
      ring
    rw [checkedAdd_nanos ha, hclock, hsplit, Nat.add_mul_div_left _ _ (by decide : 0 < nanosPerSec),
      Nat.add_comm]
  have hadd : ∀ m k : Nat, (c.tickTime (m + k) : K) = c.tickTime m + c.tickTime k := by
    intro m k
    simp only [TickSource.tickTime]
    push_cast
    ring
  constructor
  · intro h
    obtain ⟨ticks, ht⟩ := c.exists_deadlineTick deadline
    have hstart := h _ _ _ le_rfl ha ht
    rw [hticks _ _ _ ha ht, hadd] at hstart
    linarith
  · intro h m deadline ticks hm ha' ht
    have hmono := c.tickTime_mono (K := K) hm
    rw [hticks _ _ _ ha' ht, hadd]
    linarith

def tickAndHalf : Duration := ⟨1500000, by decide⟩

/-- A join of one and a half ticks that begins half a tick after an interrupt. -/
theorem timeout_never_early_iff_join :
    tickAndHalf ≠ Duration.zero ∧ (0 : ℚ) ≤ 500000 ∧
      ∀ t', TimesOut millisecondTicks tickAndHalf (500000 : ℚ) t' .taskJoin →
        (500000 + tickAndHalf.nanos : ℚ) ≤ t' := by
  have hd : tickAndHalf ≠ Duration.zero := by decide
  have h0 : (0 : ℚ) ≤ 500000 := by norm_num
  have hstart : millisecondTicks.ticksAt (500000 : ℚ) = 0 := by
    rw [TickSource.ticksAt, Nat.floor_eq_zero]
    norm_num [millisecondTicks, nanosPerSec]
  refine ⟨hd, h0, (timeout_never_early_iff millisecondTicks .taskJoin _ hd _ h0).2 ?_⟩
  have ha : (ticksToDuration (millisecondTicks.ticksAt (500000 : ℚ)) 1000).checkedAdd
      tickAndHalf = some tickAndHalf := by
    rw [hstart]
    decide
  have hn : durationToTicksCeil tickAndHalf 1000 = .ok 2 := by
    rw [durationToTicksCeil_eq (by decide) (by decide)]
    rfl
  refine (covers_iff_of_dvd (by decide) hd ha hn).2 ?_
  rw [hstart]
  norm_num [TickSource.tickTime, millisecondTicks, nanosPerSec, tickAndHalf]

end OsalRust.FreeRtos
