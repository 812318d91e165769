import OsalRust.FreeRtos.WaitLaws

/-!
# Rounds of the FreeRTOS waits

`wait_deadline_loop`, `wait_forever` and the timer worker's `wait_until_deadline` run against the
answers of their environment, one entry of a list for each round, and log the native takes they
make and the clock readings they get. A wait whose answers run out is still waiting. Over the
rounds stand the budget of a call, which keeps one deadline through all its waits, and the pace
of the loops, which wait once for what fits in one native take.
-/

namespace OsalRust.FreeRtos

/-- One round of a wait: whether the opportunistic take acquires, what the clock shows, and
whether the native take acquires or times out. -/
structure Round where
  early : Bool
  now : Duration
  taken : Bool

inductive WaitOp where
  | take (ticks : Nat) (acquired : Bool)
  | read (now : Duration)
  deriving DecidableEq

structure WaitLog where
  ops : List WaitOp
  result : Option (Result WaitOutcome)

def WaitLog.after (ops : List WaitOp) (log : WaitLog) : WaitLog := ⟨ops ++ log.ops, log.result⟩

def waitDeadlineLoop (c : TickSource) (deadline : Duration) : List Round → WaitLog
  | [] => ⟨[], none⟩
  | round :: rounds =>
    if round.early then ⟨[.take 0 true], some (.ok .acquired)⟩
    else if deadline ≤ round.now then
      ⟨[.take 0 false, .read round.now], some (.ok .unavailable)⟩
    else
      match c.nativeTicks deadline round.now with
      | .error e => ⟨[.take 0 false, .read round.now], some (.error e)⟩
      | .ok nativeTicks =>
        if round.taken then
          ⟨[.take 0 false, .read round.now, .take (nativeTicks % 2 ^ 64) true],
            some (.ok .acquired)⟩
        else
          .after [.take 0 false, .read round.now, .take (nativeTicks % 2 ^ 64) false]
            (waitDeadlineLoop c deadline rounds)

def waitForever (c : TickSource) : List Round → WaitLog
  | [] => ⟨[], none⟩
  | round :: rounds =>
    if round.taken then ⟨[.take c.maxFiniteDelayTicks true], some (.ok .acquired)⟩
    else .after [.take c.maxFiniteDelayTicks false] (waitForever c rounds)

/-- The ticks of one take of the timer worker. -/
def workerTicks (c : TickSource) (deadline now : Duration) : Nat :=
  let chunk :=
    match durationToTicksCeil (deadline.saturatingSub now) c.rateHz with
    | .ok 0 => 0
    | .ok t => min t (c.maxFiniteDelayTicks - 1)
    | .error .overflow => c.maxFiniteDelayTicks - 1
    | .error _ => 0
  min (chunk + 1) (2 ^ 64 - 1)

/-- `wait_until_deadline` of the timer worker, which has no opportunistic take. It returns
nothing: the result says which of its two returns it took. -/
def waitUntilDeadline (c : TickSource) (deadline : Duration) : List Round → WaitLog
  | [] => ⟨[], none⟩
  | round :: rounds =>
    if deadline ≤ round.now then ⟨[.read round.now], some (.ok .unavailable)⟩
    else if round.taken then
      ⟨[.read round.now, .take (workerTicks c deadline round.now) true], some (.ok .acquired)⟩
    else
      .after [.read round.now, .take (workerTicks c deadline round.now) false]
        (waitUntilDeadline c deadline rounds)

/-! ### The ticks of one take -/

def remainingTicks (c : TickSource) (deadline now : Duration) : Nat :=
  ((deadline.nanos - now.nanos) * c.rateHz + (nanosPerSec - 1)) / nanosPerSec

variable {c : TickSource} {deadline now : Duration}

theorem nativeTicks_eq (c : TickSource) (deadline now : Duration) :
    c.nativeTicks deadline now =
      .ok (min (remainingTicks c deadline now) (c.maxFiniteDelayTicks - 1) + 1) := by
  unfold TickSource.nativeTicks
  rw [durationToTicksCeil_eq c.rate_pos c.rate_lt]
  rfl

theorem remainingTicks_pos (h : ¬ deadline ≤ now) : 0 < remainingTicks c deadline now := by
  have hlt : now.nanos < deadline.nanos := Nat.lt_of_not_le h
  have hmul : 1 ≤ (deadline.nanos - now.nanos) * c.rateHz :=
    Nat.mul_pos (Nat.sub_pos_of_lt hlt) c.rate_pos
  unfold remainingTicks
  simp only [nanosPerSec]
  omega

/-- Waiting from a reading for as many ticks as remain brings the clock to the deadline. -/
theorem le_clock_of_remaining {m r : Nat}
    (h : m + remainingTicks c deadline (ticksToDuration m c.rateHz) ≤ r) :
    deadline ≤ ticksToDuration r c.rateHz := by
  rw [le_ticksToDuration_iff c.rate_pos c.rate_lt]
  have hread := (le_ticksToDuration_iff c.rate_pos c.rate_lt (ticksToDuration m c.rateHz)).1
    (Nat.le_refl _)
  -- the floor of the reading and the ceiling of the rest add up to the deadline at least
  have hrest : (deadline.nanos - (ticksToDuration m c.rateHz).nanos) * c.rateHz ≤
      remainingTicks c deadline (ticksToDuration m c.rateHz) * nanosPerSec := by
    unfold remainingTicks
    simp only [nanosPerSec]
    omega
  have hsum : deadline.nanos * c.rateHz ≤
      (ticksToDuration m c.rateHz).nanos * c.rateHz +
        (deadline.nanos - (ticksToDuration m c.rateHz).nanos) * c.rateHz := by
    rw [← Nat.add_mul]
    exact Nat.mul_le_mul_right _ (by omega)
  have hmul := Nat.mul_le_mul_right nanosPerSec h
  rw [Nat.add_mul] at hmul
  omega

theorem workerTicks_eq (h : ¬ deadline ≤ now) :
    workerTicks c deadline now =
      min (remainingTicks c deadline now) (c.maxFiniteDelayTicks - 1) + 1 := by
  have hpos : 0 < remainingTicks c deadline now := remainingTicks_pos h
  have hlt := c.delay_lt
  have hceil : durationToTicksCeil (deadline.saturatingSub now) c.rateHz =
      .ok (remainingTicks c deadline now) := durationToTicksCeil_eq c.rate_pos c.rate_lt _
  unfold workerTicks
  rw [hceil]
  obtain ⟨t, ht⟩ : ∃ t, remainingTicks c deadline now = t + 1 := ⟨_, (Nat.succ_pred hpos.ne').symm⟩
  rw [ht]
  show min (min (t + 1) (c.maxFiniteDelayTicks - 1) + 1) (2 ^ 64 - 1) = _
  omega

/-! ### The budget of a call -/

/-- `WaitBudget::wait_once`, with the budget after it. `entry` is the clock reading of a budget
without a deadline. -/
def waitOnce (c : TickSource) (scheduler : SchedulerState) (entry : Duration)
    (rounds : List Round) : WaitBudget → WaitLog × WaitBudget
  | .noWait => (takeOnce rounds, .noWait)
  | .zero => (takeOnce rounds, .zero)
  | .finite duration deadline prepared =>
    match entryCheck scheduler prepared with
    | .error e => (⟨[], some (.error e)⟩, .finite duration deadline prepared)
    | .ok () =>
      match deadline with
      | some value => (waitDeadlineLoop c value rounds, .finite duration (some value) prepared)
      | none =>
        match entry.checkedAdd duration with
        | none => (⟨[.read entry], some (.error .overflow)⟩, .finite duration none prepared)
        | some value =>
          (.after [.read entry] (waitDeadlineLoop c value rounds),
            .finite duration (some value) prepared)
  | .forever prepared =>
    match entryCheck scheduler prepared with
    | .error e => (⟨[], some (.error e)⟩, .forever prepared)
    | .ok () => (waitForever c rounds, .forever prepared)
where
  /-- The single attempt of a budget that never blocks. -/
  takeOnce : List Round → WaitLog
    | [] => ⟨[], none⟩
    | round :: _ =>
      ⟨[.take 0 round.early], some (.ok (if round.early then .acquired else .unavailable))⟩

inductive BudgetCall where
  | prepare (scheduler : SchedulerState) (now : Duration)
  | wait (scheduler : SchedulerState) (entry : Duration) (rounds : List Round)

/-- The budget after a call. A preflight that fails leaves it. -/
def BudgetCall.next (c : TickSource) (budget : WaitBudget) : BudgetCall → WaitBudget
  | .prepare scheduler now =>
    match budget.prepareBlocking scheduler now with
    | .ok budget' => budget'
    | .error _ => budget
  | .wait scheduler entry rounds => (waitOnce c scheduler entry rounds budget).2

def budgetAfter (c : TickSource) (budget : WaitBudget) (calls : List BudgetCall) : WaitBudget :=
  calls.foldl (BudgetCall.next c) budget

/-- The deadline that a call sets on a budget of this duration that has none. -/
def BudgetCall.sets (duration : Duration) : BudgetCall → Option Duration
  | .prepare scheduler now | .wait scheduler now _ =>
    if ensureBlockingAllowed scheduler = .ok () then now.checkedAdd duration else none

def Preflighted : WaitBudget → Prop
  | .noWait | .zero => True
  | .finite _ deadline prepared => prepared = true ∧ deadline.isSome
  | .forever prepared => prepared = true

private theorem next_finite {duration : Duration} {deadline : Option Duration} {prepared : Bool}
    (h : prepared = true → deadline.isSome) (call : BudgetCall) :
    ∃ prepared', call.next c (.finite duration deadline prepared) =
        .finite duration (deadline.or (call.sets duration)) prepared' ∧
      (prepared' = true → (deadline.or (call.sets duration)).isSome) := by
  cases call with
  | prepare scheduler now =>
    simp only [BudgetCall.next, WaitBudget.prepareBlocking, BudgetCall.sets]
    cases hs : ensureBlockingAllowed scheduler with
    | error e => exact ⟨prepared, by simp [bind, Except.bind], by simpa using h⟩
    | ok u =>
      cases deadline with
      | some value => exact ⟨true, by simp [bind, Except.bind, pure, Except.pure], fun _ => rfl⟩
      | none =>
        cases ha : now.checkedAdd duration with
        | some value =>
          exact ⟨true, by simp [bind, Except.bind, pure, Except.pure], fun _ => by simp⟩
        | none =>
          refine ⟨prepared, by simp [bind, Except.bind], fun hp => ?_⟩
          cases h hp
  | wait scheduler entry rounds =>
    simp only [BudgetCall.next, waitOnce, BudgetCall.sets, entryCheck]
    cases deadline with
    | some value =>
      refine ⟨prepared, ?_, fun _ => rfl⟩
      cases prepared with
      | true => rfl
      | false => cases ensureBlockingAllowed scheduler <;> rfl
    | none =>
      have hfresh : prepared = false := by
        refine Bool.eq_false_of_not_eq_true fun hp => ?_
        cases h hp
      subst hfresh
      refine ⟨false, ?_, fun hp => by cases hp⟩
      cases hs : ensureBlockingAllowed scheduler with
      | error e => simp
      | ok u => cases ha : entry.checkedAdd duration <;> simp

/-- The deadline of a finite budget after any calls: the one set by the first call that sets
one. -/
theorem budgetAfter_finite (c : TickSource) {duration : Duration} {deadline : Option Duration}
    {prepared : Bool} (h : prepared = true → deadline.isSome) (calls : List BudgetCall) :
    ∃ prepared', budgetAfter c (.finite duration deadline prepared) calls =
      .finite duration (deadline.or (calls.findSome? (BudgetCall.sets duration))) prepared' := by
  induction calls generalizing deadline prepared with
  | nil => exact ⟨prepared, by simp [budgetAfter]⟩
  | cons call calls ih =>
    obtain ⟨prepared', hnext, hset⟩ := next_finite h call
    obtain ⟨prepared'', hrest⟩ := ih hset
    refine ⟨prepared'', ?_⟩
    show budgetAfter c (call.next c _) calls = _
    rw [hnext, hrest, List.findSome?_cons, Option.or_assoc]
    cases call.sets duration <;> rfl

private theorem preflighted_of_prepare {budget budget' : WaitBudget} {scheduler : SchedulerState}
    {now : Duration} (h : budget.prepareBlocking scheduler now = .ok budget') :
    Preflighted budget' := by
  cases budget with
  | noWait =>
    cases h
    trivial
  | zero =>
    cases h
    trivial
  | finite duration deadline prepared =>
    simp only [WaitBudget.prepareBlocking, bind, Except.bind] at h
    split at h
    · cases h
    · cases deadline with
      | some value =>
        cases h
        exact ⟨rfl, rfl⟩
      | none =>
        simp only at h
        split at h
        · cases h
          exact ⟨rfl, rfl⟩
        · cases h
  | forever prepared =>
    simp only [WaitBudget.prepareBlocking, bind, Except.bind] at h
    split at h
    · cases h
    · cases h
      rfl

private theorem Preflighted.next {budget : WaitBudget} (h : Preflighted budget)
    (call : BudgetCall) : Preflighted (call.next c budget) := by
  cases call with
  | prepare scheduler now =>
    rw [BudgetCall.next]
    split
    · rename_i hb
      exact preflighted_of_prepare hb
    · exact h
  | wait scheduler entry rounds =>
    cases budget with
    | noWait => trivial
    | zero => trivial
    | finite duration deadline prepared =>
      obtain ⟨rfl, hd⟩ := h
      obtain ⟨value, rfl⟩ := Option.isSome_iff_exists.1 hd
      exact ⟨rfl, rfl⟩
    | forever prepared =>
      obtain rfl : prepared = true := h
      exact rfl

private theorem Preflighted.after {budget : WaitBudget} (h : Preflighted budget)
    (calls : List BudgetCall) : Preflighted (budgetAfter c budget calls) := by
  induction calls generalizing budget with
  | nil => exact h
  | cons call calls ih => exact ih (h.next call)

/-! ### What the rounds log -/

structure DeadlineWait (c : TickSource) (deadline : Duration) (log : WaitLog) : Prop where
  ticks : ∀ n b, .take n b ∈ log.ops → n = 0 ∨ 1 ≤ n ∧ n ≤ c.maxFiniteDelayTicks
  no_error : ∀ e, log.result ≠ some (.error e)
  unavailable : log.result = some (.ok .unavailable) →
    ∃ ops now, log.ops = ops ++ [.take 0 false, .read now] ∧ deadline ≤ now

private theorem native_bounds (c : TickSource) (deadline now : Duration) :
    ∃ n, c.nativeTicks deadline now = .ok n ∧ n % 2 ^ 64 = n ∧ 1 ≤ n ∧
      n ≤ c.maxFiniteDelayTicks := by
  have hpos := c.delay_pos
  have hlt := c.delay_lt
  have hle : min (remainingTicks c deadline now) (c.maxFiniteDelayTicks - 1) + 1 ≤
      c.maxFiniteDelayTicks := by omega
  exact ⟨_, nativeTicks_eq c deadline now, Nat.mod_eq_of_lt (hle.trans_lt hlt), by omega, hle⟩

theorem deadlineWait_loop (c : TickSource) (deadline : Duration) (rounds : List Round) :
    DeadlineWait c deadline (waitDeadlineLoop c deadline rounds) := by
  induction rounds with
  | nil => exact ⟨nofun, nofun, nofun⟩
  | cons round rounds ih =>
    obtain ⟨n, hn, hmod, hone, hmax⟩ := native_bounds c deadline round.now
    rw [waitDeadlineLoop]
    split
    · exact ⟨by simp, nofun, nofun⟩
    split
    · rename_i hd
      exact ⟨by simp, nofun, fun _ => ⟨[], round.now, rfl, hd⟩⟩
    rw [hn]
    simp only [hmod]
    split
    · refine ⟨fun k b hk => ?_, nofun, nofun⟩
      simp only [List.mem_cons, WaitOp.take.injEq, reduceCtorEq, List.not_mem_nil, or_false,
        false_or] at hk
      omega
    · refine ⟨fun k b hk => ?_, ih.no_error, fun hu => ?_⟩
      · rcases List.mem_append.1 hk with hk | hk
        · simp only [List.mem_cons, WaitOp.take.injEq, reduceCtorEq, List.not_mem_nil, or_false,
            false_or] at hk
          omega
        · exact ih.ticks k b hk
      · obtain ⟨ops, now, hops, hle⟩ := ih.unavailable hu
        refine ⟨[.take 0 false, .read round.now, .take n false] ++ ops, now, ?_, hle⟩
        rw [WaitLog.after, hops, List.append_assoc]

theorem waitForever_spec (c : TickSource) (rounds : List Round) :
    (∀ n b, .take n b ∈ (waitForever c rounds).ops → n = c.maxFiniteDelayTicks) ∧
      ((waitForever c rounds).result = none ∨
        (waitForever c rounds).result = some (.ok .acquired)) := by
  induction rounds with
  | nil => exact ⟨nofun, .inl rfl⟩
  | cons round rounds ih =>
    rw [waitForever]
    split
    · exact ⟨by simp, .inr rfl⟩
    · refine ⟨fun n b hn => ?_, ih.2⟩
      rcases List.mem_append.1 hn with hn | hn
      · simp only [List.mem_cons, WaitOp.take.injEq, List.not_mem_nil, or_false] at hn
        exact hn.1
      · exact ih.1 n b hn

private theorem waitOnce_ticks (budget : WaitBudget) (scheduler : SchedulerState)
    (entry : Duration) (rounds : List Round) (n : Nat) (b : Bool)
    (h : .take n b ∈ (waitOnce c scheduler entry rounds budget).1.ops) :
    n = 0 ∨ 1 ≤ n ∧ n ≤ c.maxFiniteDelayTicks := by
  have honce : ∀ n b, .take n b ∈ (waitOnce.takeOnce rounds).ops → n = 0 := by
    intro n b hn
    cases rounds with
    | nil => cases hn
    | cons round rounds => simp_all [waitOnce.takeOnce]
  cases budget with
  | noWait => exact .inl (honce n b h)
  | zero => exact .inl (honce n b h)
  | finite duration deadline prepared =>
    simp only [waitOnce] at h
    split at h
    · cases h
    split at h
    · exact (deadlineWait_loop c _ rounds).ticks n b h
    split at h
    · simp at h
    · rcases List.mem_append.1 h with h | h
      · simp at h
      · exact (deadlineWait_loop c _ rounds).ticks n b h
  | forever prepared =>
    simp only [waitOnce] at h
    split at h
    · cases h
    · rw [(waitForever_spec c rounds).1 n b h]
      exact .inr ⟨c.delay_pos, Nat.le_refl _⟩

private theorem waitOnce_unavailable {duration : Duration} {deadline : Option Duration}
    {prepared : Bool} {scheduler : SchedulerState} {entry : Duration} {rounds : List Round}
    (h : (waitOnce c scheduler entry rounds (.finite duration deadline prepared)).1.result =
      some (.ok .unavailable)) :
    ∃ value ops now,
      (waitOnce c scheduler entry rounds (.finite duration deadline prepared)).2 =
        .finite duration (some value) prepared ∧
      (waitOnce c scheduler entry rounds (.finite duration deadline prepared)).1.ops =
        ops ++ [.take 0 false, .read now] ∧ value ≤ now := by
  simp only [waitOnce] at h ⊢
  split at h
  · cases h
  · cases deadline with
    | some value =>
      obtain ⟨ops, now, hops, hle⟩ := (deadlineWait_loop c value rounds).unavailable h
      exact ⟨value, ops, now, rfl, hops, hle⟩
    | none =>
      simp only at h ⊢
      cases ha : entry.checkedAdd duration with
      | none =>
        rw [ha] at h
        cases h
      | some value =>
        rw [ha] at h
        obtain ⟨ops, now, hops, hle⟩ := (deadlineWait_loop c value rounds).unavailable h
        refine ⟨value, [.read entry] ++ ops, now, rfl, ?_, hle⟩
        simp only [WaitLog.after, hops, List.append_assoc]

private theorem Preflighted.no_error {budget : WaitBudget} (h : Preflighted budget)
    (scheduler : SchedulerState) (entry : Duration) (rounds : List Round) (e : Error) :
    (waitOnce c scheduler entry rounds budget).1.result ≠ some (.error e) := by
  have honce : (waitOnce.takeOnce rounds).result ≠ some (.error e) := by
    cases rounds with
    | nil => exact nofun
    | cons round rounds => exact nofun
  cases budget with
  | noWait => exact honce
  | zero => exact honce
  | finite duration deadline prepared =>
    obtain ⟨rfl, hd⟩ := h
    obtain ⟨value, rfl⟩ := Option.isSome_iff_exists.1 hd
    exact (deadlineWait_loop c value rounds).no_error e
  | forever prepared =>
    obtain rfl : prepared = true := h
    show (waitForever c rounds).result ≠ _
    rcases (waitForever_spec c rounds).2 with hr | hr <;> rw [hr] <;> exact nofun

private theorem budgetAfter_forever (c : TickSource) (prepared : Bool) (calls : List BudgetCall) :
    ∃ prepared', budgetAfter c (.forever prepared) calls = .forever prepared' := by
  induction calls generalizing prepared with
  | nil => exact ⟨prepared, rfl⟩
  | cons call calls ih =>
    have hnext : ∃ prepared', call.next c (.forever prepared) = .forever prepared' := by
      cases call with
      | prepare scheduler now =>
        cases hs : ensureBlockingAllowed scheduler with
        | ok u =>
          exact ⟨true, by simp [BudgetCall.next, WaitBudget.prepareBlocking, hs, bind, Except.bind,
            pure, Except.pure]⟩
        | error e =>
          exact ⟨prepared, by simp [BudgetCall.next, WaitBudget.prepareBlocking, hs, bind,
            Except.bind]⟩
      | wait scheduler entry rounds =>
        refine ⟨prepared, ?_⟩
        simp only [BudgetCall.next, waitOnce]
        split <;> rfl
    obtain ⟨prepared', hnext⟩ := hnext
    obtain ⟨prepared'', hrest⟩ := ih prepared'
    refine ⟨prepared'', ?_⟩
    show budgetAfter c (call.next c _) calls = _
    rw [hnext, hrest]

private theorem forever_not_unavailable (c : TickSource) (prepared : Bool)
    (scheduler : SchedulerState) (entry : Duration) (rounds : List Round) :
    (waitOnce c scheduler entry rounds (.forever prepared)).1.result ≠
      some (.ok .unavailable) := by
  simp only [waitOnce]
  split
  · exact nofun
  · rcases (waitForever_spec c rounds).2 with hr | hr <;> rw [hr] <;> exact nofun

/-- A budget after any calls on it: its one deadline, its waits after a preflight, the ticks of
its takes, and when a wait gives up. -/
theorem waitBudget_laws (c : TickSource) (timeout : Timeout) (calls : List BudgetCall) :
    (∀ d, timeout = .after d → d ≠ Duration.zero →
      ∃ prepared, budgetAfter c (.new timeout) calls =
        .finite d (calls.findSome? (BudgetCall.sets d)) prepared) ∧
    (∀ pre scheduler now post budget, calls = pre ++ .prepare scheduler now :: post →
      (budgetAfter c (.new timeout) pre).prepareBlocking scheduler now = .ok budget →
      ∀ scheduler' entry rounds e,
        (waitOnce c scheduler' entry rounds (budgetAfter c (.new timeout) calls)).1.result ≠
          some (.error e)) ∧
    (∀ scheduler entry rounds n b,
      .take n b ∈ (waitOnce c scheduler entry rounds (budgetAfter c (.new timeout) calls)).1.ops →
      n = 0 ∨ 1 ≤ n ∧ n ≤ c.maxFiniteDelayTicks) ∧
    (∀ deadline now, ∃ n, c.nativeTicks deadline now = .ok n ∧ n % 2 ^ 64 = n) ∧
    (∀ d scheduler entry rounds, timeout = .after d → d ≠ Duration.zero →
      (waitOnce c scheduler entry rounds (budgetAfter c (.new timeout) calls)).1.result =
        some (.ok .unavailable) →
      ∃ deadline prepared ops now,
        (waitOnce c scheduler entry rounds (budgetAfter c (.new timeout) calls)).2 =
          .finite d (some deadline) prepared ∧
        (waitOnce c scheduler entry rounds (budgetAfter c (.new timeout) calls)).1.ops =
          ops ++ [.take 0 false, .read now] ∧ deadline ≤ now) ∧
    (timeout = .forever → ∀ scheduler entry rounds,
      (waitOnce c scheduler entry rounds (budgetAfter c (.new timeout) calls)).1.result ≠
        some (.ok .unavailable)) := by
  have hfinite : ∀ d, timeout = .after d → d ≠ Duration.zero →
      ∃ prepared, budgetAfter c (.new timeout) calls =
        .finite d (calls.findSome? (BudgetCall.sets d)) prepared := by
    rintro d rfl hd
    rw [WaitBudget.new, if_neg hd]
    exact @budgetAfter_finite c d none false (fun hp => by cases hp) calls
  refine ⟨hfinite, ?_, fun scheduler entry rounds n b hn => waitOnce_ticks _ _ _ _ n b hn, ?_, ?_,
    ?_⟩
  · rintro pre scheduler now post budget rfl hb scheduler' entry rounds e
    refine Preflighted.no_error ?_ scheduler' entry rounds e
    rw [budgetAfter, List.foldl_append, List.foldl_cons]
    have hnext : (BudgetCall.prepare scheduler now).next c (budgetAfter c (.new timeout) pre) =
        budget := by
      rw [BudgetCall.next, hb]
    exact (hnext ▸ preflighted_of_prepare hb).after post
  · intro deadline now
    obtain ⟨n, hn, hmod, -⟩ := native_bounds c deadline now
    exact ⟨n, hn, hmod⟩
  · intro d scheduler entry rounds ht hd hu
    obtain ⟨prepared, hb⟩ := hfinite d ht hd
    rw [hb] at hu ⊢
    obtain ⟨value, ops, now, hbudget, hops, hle⟩ := waitOnce_unavailable hu
    exact ⟨value, prepared, ops, now, hbudget, hops, hle⟩
  · rintro rfl scheduler entry rounds
    obtain ⟨prepared, hb⟩ := budgetAfter_forever c false calls
    rw [WaitBudget.new, hb]
    exact forever_not_unavailable c prepared scheduler entry rounds

/-! ### The pace of the loops -/

/-- A log against the tick counter, from `m` on: the clock shows the ticks counted so far, and a
take of `n` ticks that times out takes `n - 1` ticks at least. -/
def Paced (c : TickSource) : Nat → List WaitOp → Prop
  | _, [] => True
  | m, .read now :: ops => ∃ r, m ≤ r ∧ now = ticksToDuration r c.rateHz ∧ Paced c r ops
  | m, .take n false :: ops => ∃ w, m + (n - 1) ≤ w ∧ Paced c w ops
  | m, .take _ true :: ops => Paced c m ops

def deadlineTick (c : TickSource) (deadline : Duration) : Nat :=
  (deadline.nanos * c.rateHz + (nanosPerSec - 1)) / nanosPerSec

theorem le_clock_iff (c : TickSource) (deadline : Duration) (r : Nat) :
    deadline ≤ ticksToDuration r c.rateHz ↔ deadlineTick c deadline ≤ r := by
  rw [le_ticksToDuration_iff c.rate_pos c.rate_lt, deadlineTick, ticksCeil_le_iff]

/-- The ticks that a wait asks for after a reading: a whole chunk while more than that remains, and
then enough for the clock to show the deadline. -/
def Advances (c : TickSource) (deadline now : Duration) (n : Nat) : Prop :=
  (c.maxFiniteDelayTicks - 1 < remainingTicks c deadline now → c.maxFiniteDelayTicks - 1 ≤ n - 1) ∧
  (remainingTicks c deadline now ≤ c.maxFiniteDelayTicks - 1 →
    ∀ r r', now = ticksToDuration r c.rateHz → r + (n - 1) ≤ r' →
      deadline ≤ ticksToDuration r' c.rateHz)

theorem advances_of_nativeTicks {n : Nat} (hn : c.nativeTicks deadline now = .ok n) :
    Advances c deadline now n := by
  rw [nativeTicks_eq] at hn
  obtain rfl := Except.ok.inj hn
  refine ⟨fun hlt => ?_, ?_⟩
  · omega
  · rintro hle r r' rfl hr'
    exact le_clock_of_remaining (m := r) (by omega)

/-- The readings of a loop that has taken nothing yet, each followed by a take of the ticks that
the loop asks for. -/
private def Unexpired (c : TickSource) (deadline : Duration) : Nat → Nat → Prop
  | _, 0 => True
  | m, k + 1 => ∃ r w n, m ≤ r ∧ ¬ deadline ≤ ticksToDuration r c.rateHz ∧
      c.nativeTicks deadline (ticksToDuration r c.rateHz) = .ok n ∧ r + (n - 1) ≤ w ∧
      Unexpired c deadline w k

/-- All rounds but the last have spent a whole chunk. -/
private theorem Unexpired.lt {m k : Nat} (h : Unexpired c deadline m (k + 1)) :
    m + k * (c.maxFiniteDelayTicks - 1) < deadlineTick c deadline := by
  induction k generalizing m with
  | zero =>
    obtain ⟨r, w, n, hr, hd, -⟩ := h
    rw [le_clock_iff] at hd
    omega
  | succ k ih =>
    obtain ⟨r, w, n, hr, hd, hn, hw, hrest⟩ := h
    obtain ⟨hchunk, hfits⟩ := advances_of_nativeTicks hn
    have hlater := ih hrest
    obtain ⟨r', w', n', hr', hd', -⟩ := hrest
    have hmany : c.maxFiniteDelayTicks - 1 <
        remainingTicks c deadline (ticksToDuration r c.rateHz) := by
      by_contra hle
      exact hd' (hfits (Nat.le_of_not_lt hle) r r' rfl (hw.trans hr'))
    have hn' := hchunk hmany
    rw [Nat.add_mul, Nat.one_mul]
    omega

private theorem unexpired_deadlineLoop {rounds : List Round} {m : Nat}
    (hp : Paced c m (waitDeadlineLoop c deadline rounds).ops)
    (h : (waitDeadlineLoop c deadline rounds).result = none) :
    Unexpired c deadline m rounds.length := by
  induction rounds generalizing m with
  | nil => trivial
  | cons round rounds ih =>
    obtain ⟨n, hn, hmod, -⟩ := native_bounds c deadline round.now
    rw [waitDeadlineLoop] at h hp
    split at h
    · cases h
    split at h
    · cases h
    rename_i he hd
    rw [hn] at h hp
    simp only [he, hd, hmod] at h hp
    split at h
    · cases h
    rename_i ht
    simp only [ht] at hp
    obtain ⟨m₁, hm₁, r, hr, hnow, w, hw, hrest⟩ := hp
    rw [hnow] at hd hn
    exact ⟨r, w, n, by omega, hd, hn, hw, ih hrest h⟩

private theorem unexpired_untilDeadline {rounds : List Round} {m : Nat}
    (hp : Paced c m (waitUntilDeadline c deadline rounds).ops)
    (h : (waitUntilDeadline c deadline rounds).result = none) :
    Unexpired c deadline m rounds.length := by
  induction rounds generalizing m with
  | nil => trivial
  | cons round rounds ih =>
    rw [waitUntilDeadline] at h hp
    split at h
    · cases h
    rename_i hd
    split at h
    · cases h
    rename_i ht
    rw [if_neg hd, if_neg ht] at hp
    obtain ⟨r, hr, hnow, w, hw, hrest⟩ := hp
    rw [workerTicks_eq hd] at hw
    rw [hnow] at hd hw
    exact ⟨r, w, _, hr, hd, nativeTicks_eq c deadline _, hw, ih hrest h⟩

/-- An operation of a wait that blocks no longer: an attempt, or a reading at or past the
deadline. -/
def WaitOp.Overdue (deadline : Duration) : WaitOp → Prop
  | .take n _ => n = 0
  | .read now => deadline ≤ now

/-- A log of attempts and readings, where a reading at or past the deadline is the last operation
and every other is followed by a native take. -/
def InSteps (c : TickSource) (deadline : Duration) : List WaitOp → Prop
  | [] => True
  | .take n _ :: ops => n = 0 ∧ InSteps c deadline ops
  | [.read now] => deadline ≤ now
  | .read _ :: .read _ :: _ => False
  | .read now :: .take n _ :: ops =>
    ¬ deadline ≤ now ∧ Advances c deadline now n ∧ InSteps c deadline ops

/-- After a native take that the remaining time fitted in, nothing blocks. -/
def EndsOnFit (c : TickSource) (deadline : Duration) : List WaitOp → Prop
  | [] => True
  | .read now :: .take _ _ :: ops =>
    (remainingTicks c deadline now ≤ c.maxFiniteDelayTicks - 1 →
      ∀ op ∈ ops, op.Overdue deadline) ∧ EndsOnFit c deadline ops
  | _ :: ops => EndsOnFit c deadline ops

private theorem late_deadlineLoop {rounds : List Round} {m : Nat}
    (hlate : ∀ r, m ≤ r → deadline ≤ ticksToDuration r c.rateHz)
    (hp : Paced c m (waitDeadlineLoop c deadline rounds).ops) :
    ∀ op ∈ (waitDeadlineLoop c deadline rounds).ops, op.Overdue deadline := by
  cases rounds with
  | nil => exact nofun
  | cons round rounds =>
    obtain ⟨n, hn, -⟩ := native_bounds c deadline round.now
    by_cases he : round.early = true
    · rw [waitDeadlineLoop, if_pos he]
      simp [WaitOp.Overdue]
    by_cases hd : deadline ≤ round.now
    · rw [waitDeadlineLoop, if_neg he, if_pos hd]
      simp [WaitOp.Overdue, hd]
    · rw [waitDeadlineLoop, if_neg he, if_neg hd, hn] at hp
      cases ht : round.taken <;> simp only [ht] at hp <;>
        obtain ⟨w, hw, r, hr, hnow, -⟩ := hp <;>
        exact absurd (hnow ▸ hlate r (by omega)) hd

private theorem late_untilDeadline {rounds : List Round} {m : Nat}
    (hlate : ∀ r, m ≤ r → deadline ≤ ticksToDuration r c.rateHz)
    (hp : Paced c m (waitUntilDeadline c deadline rounds).ops) :
    ∀ op ∈ (waitUntilDeadline c deadline rounds).ops, op.Overdue deadline := by
  cases rounds with
  | nil => exact nofun
  | cons round rounds =>
    by_cases hd : deadline ≤ round.now
    · rw [waitUntilDeadline, if_pos hd]
      simp [WaitOp.Overdue, hd]
    · rw [waitUntilDeadline, if_neg hd] at hp
      cases ht : round.taken <;> simp only [ht] at hp <;>
        obtain ⟨r, hr, hnow, -⟩ := hp <;>
        exact absurd (hnow ▸ hlate r hr) hd

private theorem inSteps_deadlineLoop (c : TickSource) (deadline : Duration)
    (rounds : List Round) : InSteps c deadline (waitDeadlineLoop c deadline rounds).ops := by
  induction rounds with
  | nil => trivial
  | cons round rounds ih =>
    obtain ⟨n, hn, hmod, -⟩ := native_bounds c deadline round.now
    have hadv := advances_of_nativeTicks hn
    rw [waitDeadlineLoop]
    split
    · exact ⟨rfl, trivial⟩
    split
    · rename_i hd
      exact ⟨rfl, hd⟩
    rename_i hd
    rw [hn]
    simp only [hmod]
    split
    · exact ⟨rfl, hd, hadv, trivial⟩
    · exact ⟨rfl, hd, hadv, ih⟩

private theorem inSteps_untilDeadline (c : TickSource) (deadline : Duration)
    (rounds : List Round) : InSteps c deadline (waitUntilDeadline c deadline rounds).ops := by
  induction rounds with
  | nil => trivial
  | cons round rounds ih =>
    rw [waitUntilDeadline]
    split
    · rename_i hd
      exact hd
    rename_i hd
    have hadv : Advances c deadline round.now (workerTicks c deadline round.now) :=
      workerTicks_eq hd ▸ advances_of_nativeTicks (nativeTicks_eq c deadline round.now)
    split
    · exact ⟨hd, hadv, trivial⟩
    · exact ⟨hd, hadv, ih⟩

private theorem endsOnFit_deadlineLoop {rounds : List Round} {m : Nat}
    (hp : Paced c m (waitDeadlineLoop c deadline rounds).ops) :
    EndsOnFit c deadline (waitDeadlineLoop c deadline rounds).ops := by
  induction rounds generalizing m with
  | nil => trivial
  | cons round rounds ih =>
    obtain ⟨n, hn, hmod, -⟩ := native_bounds c deadline round.now
    have hadv := advances_of_nativeTicks hn
    rw [waitDeadlineLoop] at hp ⊢
    split
    · trivial
    split
    · trivial
    rename_i he hd
    rw [hn] at hp ⊢
    simp only [he, hd, hmod] at hp ⊢
    split
    · exact ⟨fun _ => nofun, trivial⟩
    · rename_i ht
      simp only [ht] at hp
      obtain ⟨w, -, r, -, hnow, w', hw', hrest⟩ := hp
      exact ⟨fun hfits => late_deadlineLoop
        (fun r' hr' => hadv.2 hfits r r' hnow (hw'.trans hr')) hrest, ih hrest⟩

private theorem endsOnFit_untilDeadline {rounds : List Round} {m : Nat}
    (hp : Paced c m (waitUntilDeadline c deadline rounds).ops) :
    EndsOnFit c deadline (waitUntilDeadline c deadline rounds).ops := by
  induction rounds generalizing m with
  | nil => trivial
  | cons round rounds ih =>
    rw [waitUntilDeadline] at hp ⊢
    split
    · trivial
    rename_i hd
    have hadv : Advances c deadline round.now (workerTicks c deadline round.now) :=
      workerTicks_eq hd ▸ advances_of_nativeTicks (nativeTicks_eq c deadline round.now)
    simp only [hd] at hp
    split
    · exact ⟨fun _ => nofun, trivial⟩
    · rename_i ht
      simp only [ht] at hp
      obtain ⟨r, -, hnow, w, hw, hrest⟩ := hp
      exact ⟨fun hfits => late_untilDeadline
        (fun r' hr' => hadv.2 hfits r r' hnow (hw.trans hr')) hrest, ih hrest⟩

/-- What a wait for a deadline returns with: nothing after a reading at or past the deadline, the
object after a take that acquired it, and never an error. -/
structure DeadlineReturn (deadline : Duration) (log : WaitLog) : Prop where
  unavailable : log.result = some (.ok .unavailable) →
    ∃ ops now, log.ops = ops ++ [.read now] ∧ deadline ≤ now
  acquired : log.result = some (.ok .acquired) → ∃ ops n, log.ops = ops ++ [.take n true]
  no_error : ∀ e, log.result ≠ some (.error e)

private theorem DeadlineReturn.after {log : WaitLog} (h : DeadlineReturn deadline log)
    (ops : List WaitOp) : DeadlineReturn deadline (log.after ops) where
  unavailable hu := by
    obtain ⟨ops', now, hops, hd⟩ := h.unavailable hu
    exact ⟨ops ++ ops', now, by rw [WaitLog.after, hops, List.append_assoc], hd⟩
  acquired ha := by
    obtain ⟨ops', n, hops⟩ := h.acquired ha
    exact ⟨ops ++ ops', n, by rw [WaitLog.after, hops, List.append_assoc]⟩
  no_error := h.no_error

private theorem returns_deadlineLoop (c : TickSource) (deadline : Duration)
    (rounds : List Round) : DeadlineReturn deadline (waitDeadlineLoop c deadline rounds) := by
  induction rounds with
  | nil => exact ⟨nofun, nofun, nofun⟩
  | cons round rounds ih =>
    obtain ⟨n, hn, -⟩ := native_bounds c deadline round.now
    rw [waitDeadlineLoop, hn]
    split
    · exact ⟨nofun, fun _ => ⟨[], 0, rfl⟩, nofun⟩
    split
    · rename_i hd
      exact ⟨fun _ => ⟨[.take 0 false], round.now, rfl, hd⟩, nofun, nofun⟩
    simp only
    split
    · exact ⟨nofun, fun _ => ⟨[.take 0 false, .read round.now], _, rfl⟩, nofun⟩
    · exact ih.after _

private theorem returns_untilDeadline (c : TickSource) (deadline : Duration)
    (rounds : List Round) : DeadlineReturn deadline (waitUntilDeadline c deadline rounds) := by
  induction rounds with
  | nil => exact ⟨nofun, nofun, nofun⟩
  | cons round rounds ih =>
    rw [waitUntilDeadline]
    split
    · rename_i hd
      exact ⟨fun _ => ⟨[], round.now, rfl, hd⟩, nofun, nofun⟩
    split
    · exact ⟨nofun, fun _ => ⟨[.read round.now], _, rfl⟩, nofun⟩
    · exact ih.after _

/-- A wait for a deadline from tick `m` on: the steps of its log, the rounds after which it has
ended, and what it returns with. -/
structure DeadlineProgress (c : TickSource) (deadline : Duration) (m : Nat)
    (rounds : List Round) (log : WaitLog) : Prop extends DeadlineReturn deadline log where
  steps : InSteps c deadline log.ops
  endsOnFit : Paced c m log.ops → EndsOnFit c deadline log.ops
  ends : Paced c m log.ops →
    (deadlineTick c deadline - m) / (c.maxFiniteDelayTicks - 1) + 2 ≤ rounds.length →
    log.result.isSome

private theorem Unexpired.false {m : Nat} {rounds : List Round}
    (hmax : 2 ≤ c.maxFiniteDelayTicks)
    (hlen : (deadlineTick c deadline - m) / (c.maxFiniteDelayTicks - 1) + 2 ≤ rounds.length) :
    ¬ Unexpired c deadline m rounds.length := by
  intro hun
  cases hk : rounds.length with
  | zero => exact absurd (hk ▸ hlen) (Nat.not_succ_le_zero _)
  | succ k =>
    rw [hk] at hun hlen
    have hlt := hun.lt
    have hdiv := Nat.lt_of_succ_le (Nat.le_of_succ_le_succ hlen)
    rw [Nat.div_lt_iff_lt_mul (by omega)] at hdiv
    omega

/-- Both deadline loops wait for a whole chunk while more than that remains, and otherwise for
ticks enough for the clock to show the deadline, after which they block no longer. So they end
within the rounds that the whole chunks need, and one more, and give up only at a reading at or
past the deadline. -/
theorem deadline_waits_progress (c : TickSource) (hmax : 2 ≤ c.maxFiniteDelayTicks)
    (deadline : Duration) (m : Nat) (rounds : List Round) :
    DeadlineProgress c deadline m rounds (waitDeadlineLoop c deadline rounds) ∧
      DeadlineProgress c deadline m rounds (waitUntilDeadline c deadline rounds) := by
  constructor
  · refine ⟨returns_deadlineLoop c deadline rounds, inSteps_deadlineLoop c deadline rounds,
      endsOnFit_deadlineLoop, fun hp hlen => ?_⟩
    rw [Option.isSome_iff_ne_none]
    exact fun hnone => Unexpired.false hmax hlen (unexpired_deadlineLoop hp hnone)
  · refine ⟨returns_untilDeadline c deadline rounds, inSteps_untilDeadline c deadline rounds,
      endsOnFit_untilDeadline, fun hp hlen => ?_⟩
    rw [Option.isSome_iff_ne_none]
    exact fun hnone => Unexpired.false hmax hlen (unexpired_untilDeadline hp hnone)

def shortWait : List Round :=
  [⟨false, ticksToDuration 0 1000, false⟩, ⟨false, ticksToDuration 1 1000, false⟩]

theorem deadline_waits_progress_short :
    2 ≤ millisecondTicks.maxFiniteDelayTicks ∧
      EndsOnFit millisecondTicks (.fromNanos 1)
        (waitDeadlineLoop millisecondTicks (.fromNanos 1) shortWait).ops ∧
      (waitDeadlineLoop millisecondTicks (.fromNanos 1) shortWait).result.isSome ∧
      EndsOnFit millisecondTicks (.fromNanos 1)
        (waitUntilDeadline millisecondTicks (.fromNanos 1) shortWait).ops ∧
      (waitUntilDeadline millisecondTicks (.fromNanos 1) shortWait).result.isSome := by
  have hloop : (waitDeadlineLoop millisecondTicks (.fromNanos 1) shortWait).ops =
      [.take 0 false, .read (ticksToDuration 0 1000), .take 2 false, .take 0 false,
        .read (ticksToDuration 1 1000)] := by decide
  have huntil : (waitUntilDeadline millisecondTicks (.fromNanos 1) shortWait).ops =
      [.read (ticksToDuration 0 1000), .take 2 false, .read (ticksToDuration 1 1000)] := by
    decide +kernel
  have hpaced : Paced millisecondTicks 0
      (waitDeadlineLoop millisecondTicks (.fromNanos 1) shortWait).ops := by
    rw [hloop]
    exact ⟨0, Nat.le_refl 0, 0, Nat.le_refl 0, rfl, 1, Nat.le_refl 1, 1, Nat.le_refl 1, 1,
      Nat.le_refl 1, rfl, trivial⟩
  have hpaced' : Paced millisecondTicks 0
      (waitUntilDeadline millisecondTicks (.fromNanos 1) shortWait).ops := by
    rw [huntil]
    exact ⟨0, Nat.le_refl 0, rfl, 1, Nat.le_refl 1, 1, Nat.le_refl 1, rfl, trivial⟩
  obtain ⟨hl, hu⟩ := deadline_waits_progress millisecondTicks (by decide) (.fromNanos 1) 0 shortWait
  exact ⟨by decide, hl.endsOnFit hpaced, hl.ends hpaced (by decide), hu.endsOnFit hpaced',
    hu.ends hpaced' (by decide)⟩

end OsalRust.FreeRtos
