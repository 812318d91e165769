import OsalRust.Framework.WaitSet
import OsalRust.Portable.CountingSemaphore
import OsalRust.Posix.Queue

/-!
# The POSIX counting semaphore

`PosixCountingSemaphore` wraps the portable count with one mutex and one condition variable. A
call is its critical sections, as in the queue. A timed wait that reports `ETIMEDOUT` may have
consumed a signal that was directed at the variable at the same moment; the caller returns
`Timeout` without looking at the count again, so that signal wakes nobody. The permits are
counted right in every run, and no wakeup is lost exactly as long as no such signal was owed to
another acquirer.
-/

namespace OsalRust.Posix.Semaphore

open Framework Framework.WaitSet

inductive Call where
  | acquire (timeout : Timeout)
  | release
  deriving DecidableEq

/-- How a section ends for its caller: a wait, with the deadline of a timed one, or a return. -/
inductive Next where
  | wait (deadline : Option Timespec)
  | ret (r : Result Unit)
  deriving DecidableEq

def acquireRound (deadline : Option Timespec) (st : CountingSemaphoreState) :
    CountingSemaphoreState × Next :=
  match st.tryAcquire with
  | (true, st) => (st, .ret (.ok ()))
  | (false, st) => (st, .wait deadline)

/-- `acquire` from its lock to its first wait or its return. -/
def acquireSection (timeMax : Nat) (now : Timespec) (timeout : Timeout)
    (st : CountingSemaphoreState) : CountingSemaphoreState × Next :=
  match st.tryAcquire with
  | (true, st) => (st, .ret (.ok ()))
  | (false, st) =>
    match timeout with
    | .noWait => (st, .ret (.error .timeout))
    | .after d =>
      if d = Duration.zero then (st, .ret (.error .timeout))
      else
        match checkedAbsDeadline timeMax now d with
        | .error e => (st, .ret (.error e))
        | .ok deadline => acquireRound (some deadline) st
    | .forever => acquireRound none st

/-- `release`; the flag says that it signals the condition variable. -/
def releaseSection (st : CountingSemaphoreState) : CountingSemaphoreState × Result Unit × Bool :=
  match st.release with
  | (.ok (), st) => (st, .ok (), true)
  | (.error e, st) => (st, .error e, false)

/-- Where a thread is: before its first section (`enter`), inside the wait (`blocked`), or past
it and about to take the mutex again, after a wakeup (`woken`) or after `ETIMEDOUT`
(`timedOut`). -/
inductive Phase where
  | idle
  | enter (c : Call)
  | blocked (deadline : Option Timespec)
  | woken (deadline : Option Timespec)
  | timedOut
  | returned (r : Result Unit)
  deriving DecidableEq

namespace Phase

def isBlocked : Phase → Bool
  | .blocked _ => true
  | _ => false

def isWoken : Phase → Bool
  | .woken _ => true
  | _ => false

def wake : Phase → Phase
  | .blocked deadline => .woken deadline
  | p => p

def stage : Phase → Stage
  | .blocked _ => .waiting
  | .woken _ => .woken
  | _ => .outside

theorem stage_eq_waiting {p : Phase} : p.stage = .waiting ↔ p.isBlocked = true := by
  cases p <;> simp [stage, isBlocked]

end Phase

def Next.phase : Next → Phase
  | .wait deadline => .blocked deadline
  | .ret r => .returned r

inductive Event (ι : Type) where
  | invoke (t : ι) (c : Call)
  | acquired (t : ι)
  | released (t : ι)
  | failed (t : ι) (e : Error)
  | ret (t : ι) (r : Result Unit)
  | internal

def Next.event {ι : Type} (t : ι) : Next → Event ι
  | .wait _ => .internal
  | .ret (.ok ()) => .acquired t
  | .ret (.error e) => .failed t e

structure System (ι : Type) where
  state : CountingSemaphoreState
  now : Timespec
  tasks : ι → Phase

variable {ι : Type}

/-- The threads a signal wakes: at least one of those blocked, if there is one. -/
def SignalChoice (tasks : ι → Phase) (chosen : ι → Bool) : Prop :=
  (∀ i, chosen i = true → (tasks i).isBlocked = true) ∧
    ((∃ i, (tasks i).isBlocked = true) → ∃ i, chosen i = true)

def wakeTasks (chosen : ι → Bool) (tasks : ι → Phase) (i : ι) : Phase :=
  if chosen i then (tasks i).wake else tasks i

variable [DecidableEq ι]

def System.move (s : System ι) (t : ι) (st : CountingSemaphoreState) (p : Phase) : System ι :=
  ⟨st, s.now, Function.update s.tasks t p⟩

inductive Step (timeMax : Nat) : System ι → Event ι → System ι → Prop
  | invoke (s : System ι) (t : ι) (c : Call) (h : s.tasks t = .idle) :
      Step timeMax s (.invoke t c) (s.move t s.state (.enter c))
  | acquire (s : System ι) (t : ι) (timeout : Timeout) (st : CountingSemaphoreState) (next : Next)
      (h : s.tasks t = .enter (.acquire timeout))
      (hs : acquireSection timeMax s.now timeout s.state = (st, next)) :
      Step timeMax s (next.event t) (s.move t st next.phase)
  | round (s : System ι) (t : ι) (deadline : Option Timespec) (st : CountingSemaphoreState)
      (next : Next) (h : s.tasks t = .woken deadline)
      (hs : acquireRound deadline s.state = (st, next)) :
      Step timeMax s (next.event t) (s.move t st next.phase)
  | release (s : System ι) (t : ι) (st : CountingSemaphoreState) (chosen : ι → Bool)
      (h : s.tasks t = .enter .release) (hs : releaseSection s.state = (st, .ok (), true))
      (hw : SignalChoice s.tasks chosen) :
      Step timeMax s (.released t)
        ⟨st, s.now, Function.update (wakeTasks chosen s.tasks) t (.returned (.ok ()))⟩
  | refuse (s : System ι) (t : ι) (st : CountingSemaphoreState) (e : Error)
      (h : s.tasks t = .enter .release) (hs : releaseSection s.state = (st, .error e, false)) :
      Step timeMax s (.failed t e) (s.move t st (.returned (.error e)))
  | spurious (s : System ι) (t : ι) (deadline : Option Timespec)
      (h : s.tasks t = .blocked deadline) :
      Step timeMax s .internal (s.move t s.state (.woken deadline))
  | expire (s : System ι) (t : ι) (deadline : Timespec)
      (h : s.tasks t = .blocked (some deadline)) (hd : timespecGe s.now deadline = true) :
      Step timeMax s .internal (s.move t s.state .timedOut)
  /-- The wait reports `ETIMEDOUT` although it consumed a signal. -/
  | swallow (s : System ι) (t : ι) (deadline : Timespec)
      (h : s.tasks t = .woken (some deadline)) (hd : timespecGe s.now deadline = true) :
      Step timeMax s .internal (s.move t s.state .timedOut)
  | timeout (s : System ι) (t : ι) (h : s.tasks t = .timedOut) :
      Step timeMax s (.failed t .timeout) (s.move t s.state (.returned (.error .timeout)))
  | ret (s : System ι) (t : ι) (r : Result Unit) (h : s.tasks t = .returned r) :
      Step timeMax s (.ret t r) (s.move t s.state .idle)
  | tick (s : System ι) (now : Timespec) (h : timespecGe now s.now = true) :
      Step timeMax s .internal { s with now }

/-- A semaphore as `PosixCountingSemaphore::new` leaves it, with no call in progress. -/
def lts (ι : Type) [DecidableEq ι] (timeMax : Nat) (maxCount initialCount : UInt32) :
    Lts (System ι) (Event ι) where
  init s := CountingSemaphoreState.new maxCount initialCount = .ok s.state ∧
    s.tasks = fun _ => .idle
  step := Step timeMax

section Sections

variable {timeMax : Nat} {now : Timespec} {st st' : CountingSemaphoreState} {next : Next}

inductive Decision (st : CountingSemaphoreState) : CountingSemaphoreState → Next → Prop
  | taken (st' : CountingSemaphoreState) (hmax : st'.maxCount = st.maxCount)
      (hcount : st'.count + 1 = st.count) : Decision st st' (.ret (.ok ()))
  | refused (e : Error) (hcount : st.count = 0) : Decision st st (.ret (.error e))
  | wait (deadline : Option Timespec) (hcount : st.count = 0) : Decision st st (.wait deadline)

theorem acquireRound_decision {deadline : Option Timespec}
    (h : acquireRound deadline st = (st', next)) : Decision st st' next := by
  unfold acquireRound at h
  cases hacq : st.tryAcquire with
  | mk taken st₁ =>
    rw [hacq] at h
    rcases CountingSemaphoreState.tryAcquire_cases hacq with ⟨rfl, hmax, hcount⟩ | ⟨rfl, hz, rfl⟩
    · cases h
      exact .taken _ hmax hcount
    · cases h
      exact .wait deadline hz

theorem acquireSection_decision {timeout : Timeout}
    (h : acquireSection timeMax now timeout st = (st', next)) : Decision st st' next := by
  unfold acquireSection at h
  cases hacq : st.tryAcquire with
  | mk taken st₁ =>
    rw [hacq] at h
    rcases CountingSemaphoreState.tryAcquire_cases hacq with ⟨rfl, hmax, hcount⟩ | ⟨rfl, hz, rfl⟩
    · cases h
      exact .taken _ hmax hcount
    · cases timeout with
      | noWait =>
        cases h
        exact .refused .timeout hz
      | after d =>
        simp only at h
        split_ifs at h with hd
        · cases h
          exact .refused .timeout hz
        · cases hdl : checkedAbsDeadline timeMax now d with
          | error e =>
            rw [hdl] at h
            cases h
            exact .refused e hz
          | ok deadline =>
            rw [hdl] at h
            exact acquireRound_decision h
      | forever => exact acquireRound_decision h

theorem releaseSection_ok {signal : Bool} (h : releaseSection st = (st', .ok (), signal)) :
    st'.maxCount = st.maxCount ∧ st'.count = st.count + 1 := by
  unfold releaseSection at h
  cases hrel : st.release with
  | mk r st₁ =>
    rw [hrel] at h
    rcases CountingSemaphoreState.release_cases hrel with ⟨rfl, hmax, hcount⟩ | ⟨rfl, rfl⟩
    · cases h
      exact ⟨hmax, hcount⟩
    · simp at h

theorem releaseSection_error {e : Error} {signal : Bool}
    (h : releaseSection st = (st', .error e, signal)) : st' = st := by
  unfold releaseSection at h
  cases hrel : st.release with
  | mk r st₁ =>
    rw [hrel] at h
    rcases CountingSemaphoreState.release_cases hrel with ⟨rfl, hmax, hcount⟩ | ⟨rfl, rfl⟩
    · simp at h
    · exact (Prod.mk.inj h).1.symm

end Sections

omit [DecidableEq ι] in
theorem wakeTasks_wakes (tasks : ι → Phase) (chosen : ι → Bool) :
    Wakes Phase.stage tasks (wakeTasks chosen tasks) := by
  intro t
  rw [wakeTasks]
  split_ifs
  · cases tasks t <;> simp [Phase.wake, Phase.stage]
  · exact .inl rfl

omit [DecidableEq ι] in
theorem signalChoice_wakes {tasks : ι → Phase} {chosen : ι → Bool} (h : SignalChoice tasks chosen)
    (hw : ∃ t, (tasks t).stage = .waiting) :
    ∃ t, (tasks t).stage = .waiting ∧ (wakeTasks chosen tasks t).stage = .woken := by
  obtain ⟨t, ht⟩ := hw
  obtain ⟨u, hu⟩ := h.2 ⟨t, Phase.stage_eq_waiting.mp ht⟩
  have hblocked := h.1 u hu
  refine ⟨u, Phase.stage_eq_waiting.mpr hblocked, ?_⟩
  rw [wakeTasks, if_pos hu]
  cases hp : tasks u <;> simp_all [Phase.isBlocked, Phase.wake, Phase.stage]

/-! ### Permits -/

def acquisitions (tr : List (Event ι)) : Nat :=
  tr.countP fun
    | .acquired _ => true
    | _ => false

def releases (tr : List (Event ι)) : Nat :=
  tr.countP fun
    | .released _ => true
    | _ => false

/-- The count is the initial count with the successful releases and without the successful
acquires, within its bounds, and a failing call leaves it as it was. -/
structure PermitsKept (M : Lts (System ι) (Event ι)) (maxCount initialCount : UInt32) : Prop where
  balance : ∀ tr s, M.Run tr s →
    s.state.count + acquisitions tr = initialCount.toNat + releases tr
  bounded : ∀ s, M.Reachable s → s.state.count ≤ maxCount.toNat
  failure : ∀ s t e s', M.Reachable s → M.step s (.failed t e) s' → s'.state = s.state

variable {timeMax : Nat} {s s' : System ι} {l : Event ι} {maxCount initialCount : UInt32}

theorem step_count (hs : Step timeMax s l s') :
    s'.state.maxCount = s.state.maxCount ∧
      s'.state.count + acquisitions [l] = s.state.count + releases [l] := by
  have hsection {t : ι} {st : CountingSemaphoreState} {next : Next}
      (hd : Decision s.state st next) : st.maxCount = s.state.maxCount ∧
        st.count + acquisitions [next.event t] = s.state.count + releases [next.event t] := by
    cases hd with
    | taken st' hmax hcount => exact ⟨hmax, hcount⟩
    | refused e hcount => exact ⟨rfl, rfl⟩
    | wait deadline hcount => exact ⟨rfl, rfl⟩
  cases hs with
  | acquire t timeout st next h hsec => exact hsection (acquireSection_decision hsec)
  | round t deadline st next h hsec => exact hsection (acquireRound_decision hsec)
  | release t st chosen h hsec hw => exact releaseSection_ok hsec
  | refuse t st e h hsec =>
    obtain rfl := releaseSection_error hsec
    exact ⟨rfl, rfl⟩
  | _ => exact ⟨rfl, rfl⟩

theorem step_failed {t : ι} {e : Error} (hs : Step timeMax s (.failed t e) s') :
    s'.state = s.state := by
  have hsection {st : CountingSemaphoreState} {next : Next} (hd : Decision s.state st next)
      (hn : Event.failed t e = next.event t) : st = s.state := by
    cases hd with
    | taken => cases hn
    | refused => rfl
    | wait => rfl
  generalize hl : Event.failed t e = l at hs
  cases hs with
  | acquire u timeout st next h hsec =>
    have hu : u = t := by
      cases next with
      | wait => cases hl
      | ret r => cases r <;> cases hl; rfl
    subst hu
    exact hsection (acquireSection_decision hsec) hl
  | round u deadline st next h hsec =>
    have hu : u = t := by
      cases next with
      | wait => cases hl
      | ret r => cases r <;> cases hl; rfl
    subst hu
    exact hsection (acquireRound_decision hsec) hl
  | refuse u st e' h hsec => exact releaseSection_error hsec
  | timeout => rfl
  | _ => cases hl

theorem permits_kept (ι : Type) [DecidableEq ι] (timeMax : Nat) (maxCount initialCount : UInt32) :
    PermitsKept (lts ι timeMax maxCount initialCount) maxCount initialCount where
  balance tr s h := by
    apply h.induct (I := fun tr s =>
      s.state.count + acquisitions tr = initialCount.toNat + releases tr)
    · intro s hi
      exact congrArg (· + 0) (CountingSemaphoreState.new_cases hi.1).2.2
    · intro tr s l s' _ hi hs
      have hstep := (step_count hs).2
      simp only [acquisitions, releases, List.countP_append] at hi hstep ⊢
      omega
  bounded s h := by
    have hmax : s.state.maxCount = maxCount.toNat := by
      apply h.invariant (I := fun s => s.state.maxCount = maxCount.toNat)
      · intro s hi
        exact (CountingSemaphoreState.new_cases hi.1).2.1
      · intro s l s' hi hs
        rw [(step_count hs).1, hi]
    rw [← hmax]
    exact s.state.count_le
  failure s t e s' _ hs := step_failed hs

/-! ### Wakeups -/

section Wakeups

variable [Fintype ι]

/-- While an acquirer is blocked, every permit has a woken acquirer that will look at it. -/
def WakeupsKept (M : Lts (System ι) (Event ι)) : Prop :=
  ∀ s, M.Reachable s → (∃ t, (s.tasks t).isBlocked = true) →
    s.state.count ≤ tally Phase.isWoken s.tasks

/-- A wait that consumed a signal reports `ETIMEDOUT` only if nobody else is blocked or the
woken acquirers outnumber the permits. -/
def Unswallowed (s : System ι) (_ : Event ι) (s' : System ι) : Prop :=
  ∀ t deadline, s.tasks t = .woken (some deadline) → s'.tasks t = .timedOut →
    (∀ u, (s.tasks u).isBlocked = false) ∨ s.state.count < tally Phase.isWoken s.tasks

omit [DecidableEq ι] in
private theorem woken_eq_tally (tasks : ι → Phase) :
    WaitSet.woken Phase.stage tasks = tally Phase.isWoken tasks := by
  unfold WaitSet.woken
  congr 1
  funext p
  cases p <;> rfl

private theorem served_section (h : WaitSet.Served Phase.stage s.tasks s.state.count) {t : ι}
    {st : CountingSemaphoreState} {next : Next} (hd : Decision s.state st next) :
    WaitSet.Served Phase.stage (s.move t st next.phase).tasks st.count := by
  apply h.update
  cases hd with
  | taken st' hmax hcount =>
    refine .inr ⟨by simp [Next.phase, Phase.stage], ?_⟩
    have hbit := Bool.toNat_le (decide ((s.tasks t).stage = .woken))
    omega
  | refused e hcount => exact .inl hcount
  | wait deadline hcount => exact .inl hcount

private theorem served_step (h : WaitSet.Served Phase.stage s.tasks s.state.count)
    (hs : Step timeMax s l s') (hu : Unswallowed s l s') :
    WaitSet.Served Phase.stage s'.tasks s'.state.count := by
  cases hs with
  | acquire t timeout st next ht hsec => exact served_section h (acquireSection_decision hsec)
  | round t deadline st next ht hsec => exact served_section h (acquireRound_decision hsec)
  | release t st chosen ht hsec hw =>
    have hsignal := h.signal (wakeTasks_wakes s.tasks chosen) (signalChoice_wakes hw)
    apply hsignal.update
    have hself : wakeTasks chosen s.tasks t = .enter .release := by
      simp [wakeTasks, ht, Phase.wake]
    exact .inr ⟨by simp [Phase.stage],
      by simp [hself, Phase.stage, (releaseSection_ok hsec).2]⟩
  | refuse t st e ht hsec =>
    obtain rfl := releaseSection_error hsec
    exact h.update (.inr ⟨by simp [Phase.stage], by simp [ht, Phase.stage, System.move]⟩)
  | spurious t deadline ht =>
    exact h.update (.inr ⟨by simp [Phase.stage], by simp [ht, Phase.stage, System.move]⟩)
  | swallow t deadline ht hd =>
    rcases hu t deadline ht (by simp [System.move]) with hnone | hlt
    · rintro ⟨u, hu'⟩
      rw [Phase.stage_eq_waiting] at hu'
      by_cases hut : u = t
      · subst u
        simp [System.move, Phase.isBlocked] at hu'
      · rw [show (s.move t s.state .timedOut).tasks u = s.tasks u by simp [System.move, hut],
          hnone u] at hu'
        contradiction
    · intro _
      have hcount := tally_update (fun a => decide (a.stage = Stage.woken)) s.tasks t Phase.timedOut
      rw [← woken_eq_tally] at hlt
      simp only [ht, Phase.stage, decide_true, Bool.toNat_true, reduceCtorEq, decide_false,
        Bool.toNat_false] at hcount
      simp only [System.move, WaitSet.woken, Phase.stage] at hlt ⊢
      omega
  | tick now hn => exact h
  | invoke t c ht | expire t deadline ht hd | timeout t ht | ret t r ht =>
    exact h.update (.inr ⟨by simp [Phase.stage], by simp [ht, Phase.stage, System.move]⟩)

private theorem served_of_reachable
    (h : ((lts ι timeMax maxCount initialCount).restrict Unswallowed).Reachable s) :
    WaitSet.Served Phase.stage s.tasks s.state.count := by
  apply h.invariant (I := fun s => WaitSet.Served Phase.stage s.tasks s.state.count)
  · rintro s ⟨-, htasks⟩ ⟨t, ht⟩
    simp [htasks, Phase.stage] at ht
  · intro s l s' hi hs
    exact served_step hi hs.1 hs.2

omit [Fintype ι] in
/-- Only a wait that swallows its signal goes from woken to timed out. -/
private theorem step_swallow (hs : Step timeMax s l s') {t : ι} {deadline : Option Timespec}
    (ht : s.tasks t = .woken deadline) (ht' : s'.tasks t = .timedOut) :
    s' = s.move t s.state .timedOut := by
  have hmove {u : ι} {st : CountingSemaphoreState} {p : Phase}
      (he : (s.move u st p).tasks t = .timedOut) : u = t ∧ p = .timedOut := by
    by_cases hu : t = u
    · subst u
      exact ⟨rfl, by simpa [System.move] using he⟩
    · simp [System.move, hu, ht] at he
  cases hs with
  | swallow u deadline' hu hd | expire u deadline' hu hd =>
    obtain ⟨rfl, -⟩ := hmove ht'
    rfl
  | release u st chosen hu hsec hw =>
    have htu : t ≠ u := by
      rintro rfl
      rw [ht] at hu
      contradiction
    simp [htu, wakeTasks, ht, Phase.wake] at ht'
  | tick now hn => simp [ht] at ht'
  | acquire u timeout st next hu hsec | round u deadline' st next hu hsec =>
    obtain ⟨-, hp⟩ := hmove ht'
    cases next <;> simp [Next.phase] at hp
  | invoke u c hu | refuse u st e hu hsec | spurious u deadline' hu | timeout u hu
  | ret u r hu =>
    obtain ⟨-, hp⟩ := hmove ht'
    contradiction

/-- Every step that breaks the condition leaves a permit unused beside a sleeping acquirer. -/
def SwallowedLoses (M : Lts (System ι) (Event ι)) : Prop :=
  ∀ s l s', M.Reachable s → M.step s l s' → ¬ Unswallowed s l s' →
    (∃ t, (s'.tasks t).isBlocked = true) ∧ tally Phase.isWoken s'.tasks < s'.state.count

private theorem swallowed_loses (ι : Type) [DecidableEq ι] [Fintype ι] (timeMax : Nat)
    (maxCount initialCount : UInt32) : SwallowedLoses (lts ι timeMax maxCount initialCount) := by
  intro s l s' _ hs hnot
  simp only [Unswallowed, not_forall, not_or, Nat.not_lt, Bool.not_eq_false] at hnot
  obtain ⟨t, deadline, ht, ht', ⟨u, hu⟩, hle⟩ := hnot
  obtain rfl := step_swallow hs ht ht'
  have hut : u ≠ t := by
    rintro rfl
    simp [ht, Phase.isBlocked] at hu
  refine ⟨⟨u, by simpa [System.move, hut] using hu⟩, ?_⟩
  have hcount := tally_update Phase.isWoken s.tasks t Phase.timedOut
  simp only [ht, Phase.isWoken, Bool.toNat_true, Bool.toNat_false] at hcount
  simp only [System.move]
  omega

/-- The permits are kept in every run. The wakeups are kept in every run whose swallowed
signals were owed to nobody, and every other swallowed signal is a lost wakeup. -/
theorem semaphore_wakeups_unless_swallowed (ι : Type) [DecidableEq ι] [Fintype ι] (timeMax : Nat)
    (maxCount initialCount : UInt32) :
    PermitsKept (lts ι timeMax maxCount initialCount) maxCount initialCount ∧
      WakeupsKept ((lts ι timeMax maxCount initialCount).restrict Unswallowed) ∧
      SwallowedLoses (lts ι timeMax maxCount initialCount) := by
  refine ⟨permits_kept ι timeMax maxCount initialCount, ?_,
    swallowed_loses ι timeMax maxCount initialCount⟩
  rintro s h ⟨t, ht⟩
  rw [← woken_eq_tally]
  exact served_of_reachable h ⟨t, Phase.stage_eq_waiting.mpr ht⟩

end Wakeups

/-- A binary semaphore: thread 0 waits five nanoseconds, thread 1 forever, and thread 2
releases. The signal of the release is consumed by thread 0, whose wait reports `ETIMEDOUT`. -/
theorem semaphore_swallowed_signal :
    ¬ (PermitsKept (lts (Fin 3) (2 ^ 63 - 1) 1 0) 1 0 ∧
      WakeupsKept (lts (Fin 3) (2 ^ 63 - 1) 1 0)) := by
  rintro ⟨-, h⟩
  have hr : (lts (Fin 3) (2 ^ 63 - 1) 1 0).Reachable
      ⟨⟨1, 0, by decide⟩, ⟨0, 0⟩, fun _ => .idle⟩ := .start ⟨rfl, rfl⟩
  have hr := hr.snoc (.invoke _ 0 (.acquire (.after (.fromNanos 5))) rfl)
  have hr := hr.snoc (.acquire _ 0 (.after (.fromNanos 5)) _ (.wait (some ⟨0, 5⟩)) rfl rfl)
  have hr := hr.snoc (.invoke _ 1 (.acquire .forever) rfl)
  have hr := hr.snoc (.acquire _ 1 .forever _ (.wait none) rfl rfl)
  have hr := hr.snoc (.invoke _ 2 .release rfl)
  have hr := hr.snoc (.release _ 2 ⟨1, 1, by decide⟩ (fun t => t == 0) rfl rfl
    ⟨by decide, fun _ => ⟨0, rfl⟩⟩)
  have hr := hr.snoc (.tick _ ⟨0, 5⟩ rfl)
  have hr := hr.snoc (.swallow _ 0 ⟨0, 5⟩ rfl rfl)
  exact absurd (h _ hr ⟨1, rfl⟩) (by decide)

end OsalRust.Posix.Semaphore
