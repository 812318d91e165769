import OsalRust.Portable.TimerState

/-!
# Fixed-rate timers

A periodic timer lives on a lattice of instants, its anchor shifted by whole periods. The O(1)
advance of an expired timer is the first instant of that lattice after the poll, so that the
deadline a timer holds depends on the last poll alone, and what a poll reports on the part of the
lattice between it and the poll before.
-/

namespace OsalRust

/-! ### The lattice -/

/-- The instants `anchor + k * period` after `now`. -/
def latticeAfter (anchor period now : Nat) : Set Nat :=
  {t | now < t ∧ ∃ k, t = anchor + k * period}

/-- The first of them, for a positive period. -/
def nextInstant (anchor period now : Nat) : Nat :=
  if now < anchor then anchor else anchor + ((now - anchor) / period + 1) * period

theorem isLeast_nextInstant {period : Nat} (hp : 0 < period) (anchor now : Nat) :
    IsLeast (latticeAfter anchor period now) (nextInstant anchor period now) := by
  unfold nextInstant
  split
  · rename_i hlt
    refine ⟨⟨hlt, 0, by omega⟩, ?_⟩
    rintro t ⟨-, k, rfl⟩
    exact Nat.le_add_right _ _
  · rename_i hle
    have hover := Nat.lt_mul_div_succ (now - anchor) hp
    rw [Nat.mul_comm] at hover
    refine ⟨⟨by omega, _, rfl⟩, ?_⟩
    rintro t ⟨hlt, k, rfl⟩
    have hk : (now - anchor) / period < k := by
      rw [Nat.div_lt_iff_lt_mul hp]
      omega
    exact Nat.add_le_add_left (Nat.mul_le_mul_right _ hk) _

/-- The lattice may be anchored at any of its instants that is not after the next one. -/
theorem latticeAfter_nextInstant {period : Nat} (hp : 0 < period) {anchor last now : Nat}
    (h : last ≤ now) :
    latticeAfter (nextInstant anchor period last) period now = latticeAfter anchor period now := by
  obtain ⟨⟨-, k, hk⟩, hleast⟩ := isLeast_nextInstant hp anchor last
  ext t
  constructor
  · rintro ⟨hlt, j, rfl⟩
    exact ⟨hlt, k + j, by rw [hk]; ring⟩
  · rintro ⟨hlt, j, rfl⟩
    have hle := hleast ⟨h.trans_lt hlt, j, rfl⟩
    rw [hk] at hle ⊢
    have hkj : k ≤ j := Nat.le_of_mul_le_mul_right (Nat.le_of_add_le_add_left hle) hp
    refine ⟨hlt, j - k, ?_⟩
    rw [Nat.add_assoc, ← Nat.add_mul, Nat.add_sub_cancel' hkj]

theorem nextInstant_nextInstant {period : Nat} (hp : 0 < period) {anchor last now : Nat}
    (h : last ≤ now) :
    nextInstant (nextInstant anchor period last) period now = nextInstant anchor period now := by
  have hleast := isLeast_nextInstant hp (nextInstant anchor period last) now
  rw [latticeAfter_nextInstant hp h] at hleast
  exact hleast.unique (isLeast_nextInstant hp anchor now)

theorem nextInstant_mono {period : Nat} (hp : 0 < period) {anchor last now : Nat}
    (h : last ≤ now) : nextInstant anchor period last ≤ nextInstant anchor period now := by
  obtain ⟨⟨hlt, k, hk⟩, -⟩ := isLeast_nextInstant hp anchor now
  exact (isLeast_nextInstant hp anchor last).2 ⟨h.trans_lt hlt, k, hk⟩

theorem nextInstant_add_le {period : Nat} (hp : 0 < period) {anchor last now : Nat}
    (h : nextInstant anchor period last ≤ now) :
    nextInstant anchor period last + period ≤ nextInstant anchor period now := by
  obtain ⟨⟨-, k, hk⟩, -⟩ := isLeast_nextInstant hp anchor last
  obtain ⟨⟨hlt, j, hj⟩, -⟩ := isLeast_nextInstant hp anchor now
  have hkj : k < j := by
    have hlt' : anchor + k * period < anchor + j * period := by omega
    exact Nat.lt_of_mul_lt_mul_right (Nat.lt_of_add_lt_add_left hlt')
  have hle := Nat.mul_le_mul_right period (Nat.succ_le_of_lt hkj)
  rw [Nat.succ_mul] at hle
  omega

theorem nextInstant_le {anchor period now : Nat} (h : anchor ≤ now + period) :
    nextInstant anchor period now ≤ now + period := by
  unfold nextInstant
  split
  · exact h
  · have hle := Nat.div_mul_le_self (now - anchor) period
    rw [Nat.add_mul, Nat.one_mul]
    omega

/-! ### The advance of an expired timer -/

def instant (t : Nat) : Result Duration :=
  if h : t ≤ durationMaxNanos then .ok ⟨t, h⟩ else .error .overflow

theorem instant_of_le {t : Nat} (h : t ≤ durationMaxNanos) : instant t = .ok ⟨t, h⟩ := dif_pos h

theorem instant_of_lt {t : Nat} (h : durationMaxNanos < t) : instant t = .error .overflow :=
  dif_neg (Nat.not_le.2 h)

@[simp] theorem instant_nanos (d : Duration) : instant d.nanos = .ok d := instant_of_le d.le_max

theorem instant_eq_ok {t : Nat} {d : Duration} : instant t = .ok d ↔ d.nanos = t := by
  constructor
  · intro h
    unfold instant at h
    split at h
    · rw [← Except.ok.inj h]
    · cases h
  · rintro rfl
    exact instant_nanos d

theorem instant_eq_error {t : Nat} {e : Error} :
    instant t = .error e ↔ durationMaxNanos < t ∧ e = .overflow := by
  unfold instant
  split
  · rename_i h
    refine iff_of_false ?_ fun hlt => absurd hlt.1 (Nat.not_lt.2 h)
    intro he
    cases he
  · rename_i h
    constructor
    · intro he
      exact ⟨Nat.lt_of_not_le h, (Except.error.inj he).symm⟩
    · rintro ⟨-, rfl⟩
      rfl

namespace TimeConvert

theorem durationOfNanos_eq (n : Nat) : durationOfNanos n = instant n := by
  unfold durationOfNanos
  by_cases h : n ≤ durationMaxNanos
  · have hsecs : n / nanosPerSec < 2 ^ 64 := by
      simp only [nanosPerSec, durationMaxNanos] at h ⊢
      omega
    rw [dif_pos hsecs, instant_of_le h]
    congr 1
    simp only [Duration.new, nanosPerSec, Duration.mk.injEq]
    omega
  · have hsecs : ¬ n / nanosPerSec < 2 ^ 64 := by
      simp only [nanosPerSec, durationMaxNanos] at h ⊢
      omega
    rw [dif_neg hsecs, instant_of_lt (Nat.lt_of_not_le h)]

theorem checkedDeadline_eq (now after : Duration) :
    checkedDeadline now after = instant (now.nanos + after.nanos) := by
  unfold checkedDeadline Duration.checkedAdd
  by_cases h : now.nanos + after.nanos ≤ durationMaxNanos
  · rw [dif_pos h, instant_of_le h]
  · rw [dif_neg h, instant_of_lt (Nat.lt_of_not_le h)]

theorem pos_of_ne_zero {period : Duration} (hp : period ≠ Duration.zero) : 0 < period.nanos := by
  refine Nat.pos_of_ne_zero fun h0 => hp ?_
  cases period
  cases h0
  rfl

theorem advance_lt (previous period now : Duration) :
    (now.nanos - previous.nanos) / period.nanos + 1 < 2 ^ 128 ∧
      period.nanos * ((now.nanos - previous.nanos) / period.nanos + 1) < 2 ^ 128 := by
  have hquot := Nat.div_le_self (now.nanos - previous.nanos) period.nanos
  have hprod := Nat.mul_div_le (now.nanos - previous.nanos) period.nanos
  have hnow := now.le_max
  have hper := period.le_max
  rw [Nat.mul_add, Nat.mul_one]
  simp only [durationMaxNanos] at hnow hper
  omega

theorem nextPeriodicDeadline_eq {previous period now : Duration} (hp : period ≠ Duration.zero) :
    nextPeriodicDeadline previous period now =
      instant (nextInstant previous.nanos period.nanos now.nanos) := by
  unfold nextPeriodicDeadline nextInstant
  rw [if_neg hp]
  by_cases hlt : now < previous
  · have hlt' : now.nanos < previous.nanos := hlt
    rw [if_pos hlt, if_pos hlt', instant_nanos]
  · have hlt' : ¬ now.nanos < previous.nanos := hlt
    obtain ⟨hquot, hprod⟩ := advance_lt previous period now
    rw [if_neg hlt, if_neg hlt', Nat.mul_comm _ period.nanos]
    simp only [checkedU128, if_pos hquot, if_pos hprod, bind, Except.bind, durationOfNanos_eq]
    by_cases hadv : period.nanos * ((now.nanos - previous.nanos) / period.nanos + 1) ≤
        durationMaxNanos
    · rw [instant_of_le hadv]
      exact checkedDeadline_eq previous _
    · have hadv' := Nat.lt_of_not_le hadv
      rw [instant_of_lt hadv', instant_of_lt (hadv'.trans_le (Nat.le_add_left _ _))]

/-- `next_periodic_deadline` is exact: a deadline ahead of `now` stays, any other moves to the
first instant of its lattice after `now`, and `Overflow` means that this instant is no
`Duration`; none of the machine operations in between loses anything. -/
theorem nextPeriodicDeadline_exact (previous period now : Duration)
    (hp : period ≠ Duration.zero) :
    (now < previous → nextPeriodicDeadline previous period now = .ok previous) ∧
    (previous ≤ now → ∃ t,
      IsLeast {t | now.nanos < t ∧ ∃ k, 1 ≤ k ∧ t = previous.nanos + k * period.nanos} t ∧
        (∀ d, nextPeriodicDeadline previous period now = .ok d ↔ d.nanos = t) ∧
        (nextPeriodicDeadline previous period now = .error .overflow ↔ durationMaxNanos < t)) ∧
    checkedU128 ((now.nanos - previous.nanos) / period.nanos + 1) =
      .ok ((now.nanos - previous.nanos) / period.nanos + 1) ∧
    checkedU128 (period.nanos * ((now.nanos - previous.nanos) / period.nanos + 1)) =
      .ok (period.nanos * ((now.nanos - previous.nanos) / period.nanos + 1)) ∧
    ∀ n, (∀ d, durationOfNanos n = .ok d ↔ d.nanos = n) ∧
      (durationOfNanos n = .error .overflow ↔ durationMaxNanos < n) := by
  obtain ⟨hquot, hprod⟩ := advance_lt previous period now
  have herror : ∀ t, instant t = .error .overflow ↔ durationMaxNanos < t := by
    intro t
    rw [instant_eq_error, and_iff_left rfl]
  refine ⟨fun hlt => ?_, fun hle => ?_, if_pos hquot, if_pos hprod, fun n => ?_⟩
  · have hlt' : now.nanos < previous.nanos := hlt
    rw [nextPeriodicDeadline_eq hp, nextInstant, if_pos hlt', instant_nanos]
  · refine ⟨nextInstant previous.nanos period.nanos now.nanos, ?_, ?_, ?_⟩
    · convert isLeast_nextInstant (pos_of_ne_zero hp) previous.nanos now.nanos using 1
      ext t
      constructor
      · rintro ⟨hlt, k, -, rfl⟩
        exact ⟨hlt, k, rfl⟩
      · rintro ⟨hlt, k, rfl⟩
        refine ⟨hlt, k, ?_, rfl⟩
        by_contra hk
        have hzero : k = 0 := by omega
        have hle' : previous.nanos ≤ now.nanos := hle
        rw [hzero] at hlt
        omega
    · rw [nextPeriodicDeadline_eq hp]
      exact fun d => instant_eq_ok
    · rw [nextPeriodicDeadline_eq hp]
      exact herror _
  · rw [durationOfNanos_eq]
    exact ⟨fun d => instant_eq_ok, herror n⟩

theorem nextPeriodicDeadline_exact_missed :
    (Duration.fromNanos 3) ≠ Duration.zero ∧
      ∃ t, IsLeast {t | (Duration.fromNanos 20).nanos < t ∧
          ∃ k, 1 ≤ k ∧ t = (Duration.fromNanos 10).nanos + k * (Duration.fromNanos 3).nanos} t ∧
        (∀ d, nextPeriodicDeadline (Duration.fromNanos 10) (Duration.fromNanos 3)
          (Duration.fromNanos 20) = .ok d ↔ d.nanos = t) ∧
        (nextPeriodicDeadline (Duration.fromNanos 10) (Duration.fromNanos 3)
          (Duration.fromNanos 20) = .error .overflow ↔ durationMaxNanos < t) := by
  have hp : Duration.fromNanos 3 ≠ Duration.zero := by decide
  exact ⟨hp, (nextPeriodicDeadline_exact _ _ _ hp).2.1 (by decide)⟩

end TimeConvert

/-! ### Runs of a timer -/

inductive TimerOp where
  | start
  | stop
  | reset
  | changePeriod (newPeriod : Duration)
  | poll

namespace TimerState

/-- An operation at an instant, with what it reports: of a poll, whether the timer fired. -/
def perform (s : TimerState) (now : Duration) : TimerOp → Result Bool × TimerState
  | .start => ((s.start now).1.map fun _ => false, (s.start now).2)
  | .stop => (.ok false, s.stop)
  | .reset => ((s.reset now).1.map fun _ => false, (s.reset now).2)
  | .changePeriod newPeriod =>
    ((s.changePeriod newPeriod).1.map fun _ => false, (s.changePeriod newPeriod).2)
  | .poll => (.ok (s.advanceOnExpiry now).1, (s.advanceOnExpiry now).2)

def run (s : TimerState) (ops : List (TimerOp × Duration)) : TimerState :=
  ops.foldl (fun s x => (s.perform x.2 x.1).2) s

def firings (s : TimerState) : List (TimerOp × Duration) → Nat
  | [] => 0
  | x :: ops =>
    (if (s.perform x.2 x.1).1 = .ok true then 1 else 0) + firings (s.perform x.2 x.1).2 ops

def armed (op : TimerOp) (r : Result Bool) : Nat :=
  match op, r with
  | .start, .ok _ | .reset, .ok _ => 1
  | _, _ => 0

def arms (s : TimerState) : List (TimerOp × Duration) → Nat
  | [] => 0
  | x :: ops => armed x.1 (s.perform x.2 x.1).1 + arms (s.perform x.2 x.1).2 ops

def polls (nows : List Duration) : List (TimerOp × Duration) := nows.map fun now => (.poll, now)

/-- The timer is due at the instant, or stopped if that is no `Duration`. -/
def Due (s : TimerState) (t : Nat) : Prop := ∀ d, s.deadline = some d ↔ d.nanos = t

theorem due_iff {s : TimerState} {t : Nat} : s.Due t ↔ s.deadline = (instant t).toOption := by
  constructor
  · intro h
    cases hi : instant t with
    | ok d => exact (h d).2 (instant_eq_ok.1 hi)
    | error e =>
      cases hd : s.deadline with
      | none => rfl
      | some d =>
        have hlt := (instant_eq_error.1 hi).1
        have heq := (h d).1 hd
        have hmax := d.le_max
        omega
  · intro h d
    rw [h]
    cases hi : instant t with
    | ok d' =>
      have ht := instant_eq_ok.1 hi
      constructor
      · intro hd
        obtain rfl := Option.some.inj hd
        exact ht
      · intro hd
        rw [← hd, instant_nanos] at hi
        rw [Except.ok.inj hi]
        rfl
    | error e =>
      have hlt := (instant_eq_error.1 hi).1
      have hmax := d.le_max
      exact iff_of_false nofun fun hd => by omega

theorem start_spec (s : TimerState) (now : Duration) :
    (∃ d : Duration, d.nanos = now.nanos + s.period.nanos ∧
        s.start now = (.ok (), { s with deadline := some d })) ∨
      durationMaxNanos < now.nanos + s.period.nanos ∧ s.start now = (.error .overflow, s) := by
  unfold start
  rw [TimeConvert.checkedDeadline_eq]
  cases hi : instant (now.nanos + s.period.nanos) with
  | ok d => exact .inl ⟨d, instant_eq_ok.1 hi, rfl⟩
  | error e =>
    obtain ⟨hlt, rfl⟩ := instant_eq_error.1 hi
    exact .inr ⟨hlt, rfl⟩

theorem advanceOnExpiry_periodic {s : TimerState} (hm : s.mode = .periodic) {d : Duration}
    (hd : s.deadline = some d) (now : Duration) :
    s.advanceOnExpiry now = (decide (d ≤ now), { s with
      deadline := (instant (nextInstant d.nanos s.period.nanos now.nanos)).toOption }) := by
  unfold advanceOnExpiry
  simp only [hd, hm, TimeConvert.nextPeriodicDeadline_eq s.period_ne_zero]
  by_cases hle : d ≤ now
  · rw [if_pos hle, decide_eq_true hle]
    cases instant (nextInstant d.nanos s.period.nanos now.nanos) <;> rfl
  · have hlt : now.nanos < d.nanos := Nat.lt_of_not_le hle
    rw [if_neg hle, decide_eq_false hle, nextInstant, if_pos hlt, instant_nanos]
    cases s
    cases hd
    cases hm
    rfl

theorem advanceOnExpiry_stopped {s : TimerState} (hd : s.deadline = none) (now : Duration) :
    s.advanceOnExpiry now = (false, s) := by
  rw [advanceOnExpiry, hd]

@[simp] theorem advanceOnExpiry_mode (s : TimerState) (now : Duration) :
    (s.advanceOnExpiry now).2.mode = s.mode := by
  unfold advanceOnExpiry
  split
  · rfl
  · split
    · split
      · rfl
      · split <;> rfl
    · rfl

@[simp] theorem advanceOnExpiry_period (s : TimerState) (now : Duration) :
    (s.advanceOnExpiry now).2.period = s.period := by
  unfold advanceOnExpiry
  split
  · rfl
  · split
    · split
      · rfl
      · split <;> rfl
    · rfl

/-- A poll moves the deadline along the lattice, and fires if it has reached the deadline. -/
theorem Due.poll {s : TimerState} (hm : s.mode = .periodic) {anchor : Nat} {last now : Duration}
    (h : s.Due (nextInstant anchor s.period.nanos last.nanos)) (hle : last ≤ now) :
    (s.advanceOnExpiry now).2.Due (nextInstant anchor s.period.nanos now.nanos) ∧
      ((s.advanceOnExpiry now).1 = true ↔
        nextInstant anchor s.period.nanos last.nanos ≤ now.nanos) := by
  have hp := TimeConvert.pos_of_ne_zero s.period_ne_zero
  cases hd : s.deadline with
  | none =>
    have hover : durationMaxNanos < nextInstant anchor s.period.nanos last.nanos := by
      by_contra hle'
      have hsome := due_iff.1 h
      rw [hd, instant_of_le (Nat.le_of_not_lt hle')] at hsome
      cases hsome
    rw [advanceOnExpiry_stopped hd]
    refine ⟨due_iff.2 ?_, ?_⟩
    · have hmono : nextInstant anchor s.period.nanos last.nanos ≤
          nextInstant anchor s.period.nanos now.nanos := nextInstant_mono hp hle
      rw [hd, instant_of_lt (hover.trans_le hmono)]
      rfl
    · have hmax := now.le_max
      exact iff_of_false nofun fun hnow => by omega
  | some d =>
    have hnanos := (h d).1 hd
    rw [advanceOnExpiry_periodic hm hd, hnanos, nextInstant_nextInstant hp hle]
    refine ⟨due_iff.2 rfl, ?_⟩
    rw [← hnanos]
    exact decide_eq_true_iff

theorem poll_mode_period (s : TimerState) (nows : List Duration) :
    (s.run (polls nows)).mode = s.mode ∧ (s.run (polls nows)).period = s.period := by
  induction nows generalizing s with
  | nil => exact ⟨rfl, rfl⟩
  | cons now nows ih =>
    obtain ⟨hm, hp⟩ := ih (s.advanceOnExpiry now).2
    exact ⟨hm.trans (s.advanceOnExpiry_mode now), hp.trans (s.advanceOnExpiry_period now)⟩

theorem Due.polls {s : TimerState} (hm : s.mode = .periodic) {anchor : Nat} {last : Duration}
    (h : s.Due (nextInstant anchor s.period.nanos last.nanos)) {nows : List Duration}
    (hs : (last :: nows).Pairwise (· ≤ ·)) :
    (s.run (TimerState.polls nows)).Due
      (nextInstant anchor s.period.nanos (nows.getLastD last).nanos) := by
  induction nows generalizing s last with
  | nil => exact h
  | cons now nows ih =>
    obtain ⟨hle, hrest⟩ := List.pairwise_cons.1 hs
    have hpoll := (Due.poll hm h (hle now List.mem_cons_self)).1
    rw [← s.advanceOnExpiry_period now] at hpoll
    have hrun := ih ((s.advanceOnExpiry_mode now).trans hm) hpoll hrest
    rw [s.advanceOnExpiry_period now] at hrun
    rw [List.getLastD_cons]
    exact hrun

/-- Every firing of a periodic timer uses up a period of the lattice. -/
theorem firings_mul_le {s : TimerState} (hm : s.mode = .periodic) {anchor : Nat} {last : Duration}
    (h : s.Due (nextInstant anchor s.period.nanos last.nanos)) {nows : List Duration}
    (hs : (last :: nows).Pairwise (· ≤ ·)) :
    s.firings (TimerState.polls nows) * s.period.nanos +
        nextInstant anchor s.period.nanos last.nanos ≤
      nextInstant anchor s.period.nanos (nows.getLastD last).nanos := by
  have hp := TimeConvert.pos_of_ne_zero s.period_ne_zero
  induction nows generalizing s last with
  | nil => simp [TimerState.polls, firings]
  | cons now nows ih =>
    obtain ⟨hle, hrest⟩ := List.pairwise_cons.1 hs
    have hnow : last ≤ now := hle now List.mem_cons_self
    obtain ⟨hpoll, hfire⟩ := Due.poll hm h hnow
    rw [← s.advanceOnExpiry_period now] at hpoll
    have hrun := ih ((s.advanceOnExpiry_mode now).trans hm) hpoll hrest
      (by rw [s.advanceOnExpiry_period now]; exact hp)
    rw [s.advanceOnExpiry_period now] at hrun
    have hstep : (if (s.advanceOnExpiry now).1 = true then 1 else 0) * s.period.nanos +
        nextInstant anchor s.period.nanos last.nanos ≤
          nextInstant anchor s.period.nanos now.nanos := by
      split
      · rename_i hf
        rw [Nat.one_mul, Nat.add_comm]
        exact nextInstant_add_le hp (hfire.1 hf)
      · rw [Nat.zero_mul, Nat.zero_add]
        exact nextInstant_mono hp hnow
    have hcons : s.firings (TimerState.polls (now :: nows)) =
        (if (s.advanceOnExpiry now).1 = true then 1 else 0) +
          (s.advanceOnExpiry now).2.firings (TimerState.polls nows) := by
      show (if (.ok (s.advanceOnExpiry now).1 : Result Bool) = .ok true then 1 else 0) + _ = _
      simp only [Except.ok.injEq]
      rfl
    rw [hcons, Nat.add_mul, List.getLastD_cons]
    omega

theorem due_advanceOnExpiry {s : TimerState} (hm : s.mode = .periodic) {d : Duration}
    (hd : s.deadline = some d) (now : Duration) :
    (s.advanceOnExpiry now).2.Due (nextInstant d.nanos s.period.nanos now.nanos) := by
  rw [advanceOnExpiry_periodic hm hd]
  exact due_iff.2 rfl

private theorem eq_of_fields {s s' : TimerState} (hm : s.mode = s'.mode)
    (hp : s.period = s'.period) (hd : s.deadline = s'.deadline) : s = s' := by
  cases s
  cases s'
  cases hm
  cases hp
  cases hd
  rfl

/-- Polling early changes nothing for a later poll. -/
theorem advanceOnExpiry_advanceOnExpiry (s : TimerState) {t₁ t₂ : Duration} (h : t₁ ≤ t₂) :
    ((s.advanceOnExpiry t₁).2.advanceOnExpiry t₂).2 = (s.advanceOnExpiry t₂).2 := by
  cases hd : s.deadline with
  | none => rw [advanceOnExpiry_stopped hd]
  | some d =>
    cases hm : s.mode with
    | periodic =>
      have hdue := due_advanceOnExpiry hm hd t₁
      rw [← s.advanceOnExpiry_period t₁] at hdue
      have hpoll := (Due.poll ((s.advanceOnExpiry_mode t₁).trans hm) hdue h).1
      rw [s.advanceOnExpiry_period t₁] at hpoll
      refine eq_of_fields (by simp) (by simp) ?_
      rw [due_iff.1 hpoll, due_iff.1 (due_advanceOnExpiry hm hd t₂)]
    | oneShot =>
      simp only [advanceOnExpiry, hd, hm]
      by_cases h₁ : d ≤ t₁
      · have h₂ : d ≤ t₂ := Nat.le_trans h₁ h
        simp [h₁, h₂]
      · simp [h₁, hd, hm]

private theorem perform_oneShot {s : TimerState} (hm : s.mode = .oneShot) (op : TimerOp)
    (now : Duration) :
    (s.perform now op).2.mode = .oneShot ∧
      (if (s.perform now op).1 = .ok true then 1 else 0) +
          (if (s.perform now op).2.deadline.isSome then 1 else 0) ≤
        armed op (s.perform now op).1 + if s.deadline.isSome then 1 else 0 := by
  cases op with
  | start =>
    rcases s.start_spec now with ⟨d, -, hd⟩ | ⟨-, hd⟩
    · exact ⟨by rw [perform, hd]; exact hm, by simp [perform, hd, armed, Except.map]⟩
    · exact ⟨by rw [perform, hd]; exact hm, by simp [perform, hd, armed, Except.map]⟩
  | reset =>
    rcases s.start_spec now with ⟨d, -, hd⟩ | ⟨-, hd⟩ <;> rw [← reset_eq_start] at hd
    · exact ⟨by rw [perform, hd]; exact hm, by simp [perform, hd, armed, Except.map]⟩
    · exact ⟨by rw [perform, hd]; exact hm, by simp [perform, hd, armed, Except.map]⟩
  | stop => exact ⟨hm, by simp [perform, stop, armed]⟩
  | changePeriod q =>
    simp only [perform, changePeriod]
    split
    · exact ⟨hm, by simp [armed, Except.map]⟩
    · exact ⟨hm, by simp [armed, Except.map]⟩
  | poll =>
    refine ⟨(s.advanceOnExpiry_mode now).trans hm, ?_⟩
    simp only [perform, advanceOnExpiry, hm]
    cases hd : s.deadline with
    | none => simp [armed, hd]
    | some d =>
      by_cases hle : d ≤ now
      · simp [armed, hle]
      · simp [armed, hle, hd]

theorem firings_le_arms {s : TimerState} (hm : s.mode = .oneShot)
    (ops : List (TimerOp × Duration)) :
    s.firings ops ≤ s.arms ops + if s.deadline.isSome then 1 else 0 := by
  induction ops generalizing s with
  | nil => exact Nat.zero_le _
  | cons x ops ih =>
    obtain ⟨hmode, hstep⟩ := perform_oneShot hm x.1 x.2
    have hrest := ih hmode
    rw [firings, arms]
    omega

theorem perform_error {s s' : TimerState} {now : Duration} {op : TimerOp} {e : Error}
    (h : s.perform now op = (.error e, s')) : s' = s := by
  have hs : s' = (s.perform now op).2 := by rw [h]
  have he : (s.perform now op).1 = .error e := by rw [h]
  subst hs
  cases op with
  | start =>
    rcases s.start_spec now with ⟨d, -, hd⟩ | ⟨-, hd⟩ <;> rw [perform, hd] at he ⊢
    cases he
  | reset =>
    rcases s.start_spec now with ⟨d, -, hd⟩ | ⟨-, hd⟩ <;>
      rw [perform, reset_eq_start, hd] at he ⊢
    cases he
  | changePeriod q =>
    simp only [perform, changePeriod] at he ⊢
    split
    · rfl
    · rename_i hq
      rw [dif_neg hq] at he
      cases he
  | stop => cases he
  | poll => cases he

/-! ### Fixed rate -/

private theorem startLattice (t₀ period now : Nat) :
    {t | now < t ∧ ∃ k, 1 ≤ k ∧ t = t₀ + k * period} = latticeAfter (t₀ + period) period now := by
  ext t
  constructor
  · rintro ⟨hlt, k, hk, rfl⟩
    refine ⟨hlt, k - 1, ?_⟩
    obtain ⟨j, rfl⟩ : ∃ j, k = j + 1 := ⟨k - 1, by omega⟩
    rw [Nat.add_sub_cancel]
    ring
  · rintro ⟨hlt, k, rfl⟩
    exact ⟨hlt, k + 1, by omega, by ring⟩

private theorem due_start {s s₁ : TimerState} {t₀ : Duration} (h : s.start t₀ = (.ok (), s₁)) :
    s₁.mode = s.mode ∧ s₁.period = s.period ∧
      s₁.Due (nextInstant (t₀.nanos + s.period.nanos) s.period.nanos t₀.nanos) := by
  have hp := TimeConvert.pos_of_ne_zero s.period_ne_zero
  rcases s.start_spec t₀ with ⟨d, hd, hok⟩ | ⟨-, herr⟩
  · rw [hok] at h
    obtain rfl := (Prod.mk.inj h).2
    refine ⟨rfl, rfl, due_iff.2 ?_⟩
    have hlt : t₀.nanos < t₀.nanos + s.period.nanos := Nat.lt_add_of_pos_right hp
    rw [nextInstant, if_pos hlt, ← hd, instant_nanos]
    rfl
  · rw [herr] at h
    cases h

/-- Polls of a started periodic timer: its deadline, what the next poll reports, and how often it
has fired. -/
structure FixedRate (s₁ : TimerState) (t₀ period : Nat) (nows : List Duration) (last : Duration) :
    Prop where
  deadline : ∃ t, IsLeast {t | last.nanos < t ∧ ∃ k, 1 ≤ k ∧ t = t₀ + k * period} t ∧
    (s₁.run (polls nows)).Due t
  fires : ∀ now, last ≤ now → (((s₁.run (polls nows)).advanceOnExpiry now).1 = true ↔
    ∃ k, 1 ≤ k ∧ last.nanos < t₀ + k * period ∧ t₀ + k * period ≤ now.nanos)
  firings : s₁.firings (polls nows) ≤ (last.nanos - t₀) / period

theorem fixedRate_of_start {s s₁ : TimerState} {t₀ : Duration} (hm : s.mode = .periodic)
    (h : s.start t₀ = (.ok (), s₁)) {nows : List Duration}
    (hs : (t₀ :: nows).Pairwise (· ≤ ·)) :
    FixedRate s₁ t₀.nanos s.period.nanos nows (nows.getLastD t₀) := by
  obtain ⟨hmode, hperiod, hdue⟩ := due_start h
  have hp := TimeConvert.pos_of_ne_zero s.period_ne_zero
  rw [← hperiod] at hdue hp ⊢
  have hm₁ := hmode.trans hm
  have hrun := Due.polls hm₁ hdue hs
  have hle : t₀ ≤ nows.getLastD t₀ := by
    rcases List.mem_cons.1 (List.getLastD_mem_cons (l := nows) (a := t₀)) with heq | hmem
    · rw [heq]
      exact Nat.le_refl t₀.nanos
    · exact (List.pairwise_cons.1 hs).1 _ hmem
  have hleast := isLeast_nextInstant hp (t₀.nanos + s₁.period.nanos) (nows.getLastD t₀).nanos
  refine ⟨⟨_, ?_, hrun⟩, fun now hnow => ?_, ?_⟩
  · rw [startLattice]
    exact hleast
  · obtain ⟨hmode', hperiod'⟩ := poll_mode_period s₁ nows
    rw [← hperiod'] at hrun
    rw [(Due.poll (hmode'.trans hm₁) hrun hnow).2, hperiod']
    rw [← startLattice] at hleast
    constructor
    · intro hfire
      obtain ⟨⟨hlt, k, hk, hk'⟩, -⟩ := hleast
      exact ⟨k, hk, by rwa [← hk'], by rwa [← hk']⟩
    · rintro ⟨k, hk, hlt, hfire⟩
      exact (hleast.2 ⟨hlt, k, hk, rfl⟩).trans hfire
  · have hmul := firings_mul_le hm₁ hdue hs
    have hlast : t₀.nanos ≤ (nows.getLastD t₀).nanos := hle
    have hnext : nextInstant (t₀.nanos + s₁.period.nanos) s₁.period.nanos
        (nows.getLastD t₀).nanos ≤ (nows.getLastD t₀).nanos + s₁.period.nanos :=
      nextInstant_le (by omega)
    have hfirst : nextInstant (t₀.nanos + s₁.period.nanos) s₁.period.nanos t₀.nanos =
        t₀.nanos + s₁.period.nanos := if_pos (Nat.lt_add_of_pos_right hp)
    rw [hfirst] at hmul
    rw [Nat.le_div_iff_mul_le hp]
    omega

/-- A new period leaves the deadline, which anchors the new lattice. -/
theorem changePeriod_anchor {s s₁ : TimerState} {q d : Duration} (hm : s.mode = .periodic)
    (h : s.changePeriod q = (.ok (), s₁)) (hd : s.deadline = some d) {nows : List Duration}
    {now : Duration} (hs : (nows ++ [now]).Pairwise (· ≤ ·)) :
    ∃ t, IsLeast (latticeAfter d.nanos q.nanos now.nanos) t ∧
      (s₁.run (polls (nows ++ [now]))).Due t := by
  unfold changePeriod at h
  split at h
  · cases h
  · rename_i hq
    obtain rfl := (Prod.mk.inj h).2
    refine ⟨_, isLeast_nextInstant (TimeConvert.pos_of_ne_zero hq) _ _, ?_⟩
    cases nows with
    | nil => exact due_advanceOnExpiry (s := { s with period := q, period_ne_zero := hq }) hm hd now
    | cons first nows =>
      have hfirst := due_advanceOnExpiry (s := { s with period := q, period_ne_zero := hq }) hm hd
        first
      rw [← advanceOnExpiry_period { s with period := q, period_ne_zero := hq } first] at hfirst
      have hlater : (first :: (nows ++ [now])).Pairwise (· ≤ ·) := hs
      have hrun := Due.polls
        ((advanceOnExpiry_mode { s with period := q, period_ne_zero := hq } first).trans hm) hfirst
        hlater
      rw [advanceOnExpiry_period, List.getLastD_concat] at hrun
      exact hrun

/-- Periodic timers are fixed-rate and independent of polling, one-shot timers fire once for each
start, a new period is anchored at the deadline, the period is never zero, and what fails changes
nothing. -/
theorem timer_fixed_rate :
    (∀ (s s₁ : TimerState) (t₀ : Duration) (nows : List Duration), s.mode = .periodic →
      s.start t₀ = (.ok (), s₁) → (t₀ :: nows).Pairwise (· ≤ ·) →
      FixedRate s₁ t₀.nanos s.period.nanos nows (nows.getLastD t₀)) ∧
    (∀ (s : TimerState) (t₁ t₂ : Duration), t₁ ≤ t₂ →
      ((s.advanceOnExpiry t₁).2.advanceOnExpiry t₂).2 = (s.advanceOnExpiry t₂).2) ∧
    (∀ (s : TimerState) (ops : List (TimerOp × Duration)), s.mode = .oneShot →
      s.firings ops ≤ s.arms ops + if s.deadline.isSome then 1 else 0) ∧
    (∀ (s : TimerState) (q : Duration), (s.changePeriod q).2.deadline = s.deadline) ∧
    (∀ (s s₁ : TimerState) (q d : Duration) (nows : List Duration) (now : Duration),
      s.mode = .periodic → s.changePeriod q = (.ok (), s₁) → s.deadline = some d →
      (nows ++ [now]).Pairwise (· ≤ ·) →
      ∃ t, IsLeast (latticeAfter d.nanos q.nanos now.nanos) t ∧
        (s₁.run (polls (nows ++ [now]))).Due t) ∧
    (∀ (period : Duration) (mode : TimerMode) (s : TimerState) (ops : List (TimerOp × Duration)),
      new period mode = .ok s → (s.run ops).period ≠ Duration.zero) ∧
    ∀ (s s' : TimerState) (now : Duration) (op : TimerOp) (e : Error),
      s.perform now op = (.error e, s') → s' = s := by
  refine ⟨fun s s₁ t₀ nows hm h hs => fixedRate_of_start hm h hs,
    fun s t₁ t₂ h => s.advanceOnExpiry_advanceOnExpiry h, fun s ops hm => firings_le_arms hm ops,
    fun s q => s.changePeriod_deadline q,
    fun s s₁ q d nows now hm h hd hs => changePeriod_anchor hm h hd hs,
    fun _ _ s ops _ => (s.run ops).period_ne_zero,
    fun s s' now op e h => perform_error h⟩

def threeNanos : TimerState := ⟨.periodic, .fromNanos 3, none, by decide⟩

/-- The timer started at four and polled at nine and at twelve. -/
theorem timer_fixed_rate_polled :
    threeNanos.start (.fromNanos 4) = (.ok (), { threeNanos with deadline := some (.fromNanos 7) }) ∧
      FixedRate { threeNanos with deadline := some (.fromNanos 7) } (Duration.fromNanos 4).nanos
        (Duration.fromNanos 3).nanos [.fromNanos 9, .fromNanos 12] (.fromNanos 12) := by
  have h : threeNanos.start (.fromNanos 4) =
      (.ok (), { threeNanos with deadline := some (.fromNanos 7) }) := by decide
  exact ⟨h, timer_fixed_rate.1 threeNanos _ (.fromNanos 4) [.fromNanos 9, .fromNanos 12] rfl h
    (by decide)⟩

end TimerState

end OsalRust
