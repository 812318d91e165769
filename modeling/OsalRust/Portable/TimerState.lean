import OsalRust.Api.Basic

/-!
# Portable timer state

The pre-advance timer state machine of `osal-portable` and the deadline arithmetic under it.
An expired timer is advanced before its callback runs, so that what the callback does to the
timer overwrites the advanced state. Every service of the development keeps one of these
states for each timer.
-/

namespace OsalRust

inductive TimerMode where
  | oneShot
  | periodic
  deriving DecidableEq, Repr

namespace TimeConvert

def nanosPerSec : Nat := 1000000000

/-- `u128::checked_add` and `u128::checked_mul` on their results. -/
def checkedU128 (n : Nat) : Result Nat :=
  if n < 2 ^ 128 then .ok n else .error .overflow

/-- A number of nanoseconds taken apart and put together again: `u64::try_from` on the seconds,
`as u32` on the rest, and `Duration::new`. -/
def durationOfNanos (n : Nat) : Result Duration :=
  if h : n / nanosPerSec < 2 ^ 64 then
    .ok (Duration.new (n / nanosPerSec) (n % nanosPerSec % 2 ^ 32) h
      (Nat.lt_of_le_of_lt (Nat.mod_le _ _) (Nat.mod_lt _ (by decide))))
  else .error .overflow

def checkedDeadline (now after : Duration) : Result Duration :=
  match now.checkedAdd after with
  | some d => .ok d
  | none => .error .overflow

/-- `next_periodic_deadline`: the first deadline of the period's lattice after `now`, with the
missed periods merged into one advance. -/
def nextPeriodicDeadline (previousDeadline period now : Duration) : Result Duration :=
  if period = Duration.zero then .error .invalidParameter
  else if now < previousDeadline then .ok previousDeadline
  else do
    let elapsedNs := now.nanos - previousDeadline.nanos
    let missed ← checkedU128 (elapsedNs / period.nanos + 1)
    let advanceNs ← checkedU128 (period.nanos * missed)
    let advance ← durationOfNanos advanceNs
    checkedDeadline previousDeadline advance

theorem checkedU128_eq_ok {n m : Nat} (h : checkedU128 n = .ok m) : m = n := by
  rw [checkedU128] at h
  split at h
  · exact (Except.ok.inj h).symm
  · cases h

theorem durationOfNanos_eq_ok {n : Nat} {d : Duration} (h : durationOfNanos n = .ok d) :
    d.nanos = n := by
  rw [durationOfNanos] at h
  split at h
  · rw [← Except.ok.inj h]
    simp only [Duration.new, nanosPerSec]
    omega
  · cases h

theorem checkedDeadline_eq_ok {now after d : Duration} (h : checkedDeadline now after = .ok d) :
    d.nanos = now.nanos + after.nanos := by
  unfold checkedDeadline Duration.checkedAdd at h
  split at h
  · rename_i sum hsum
    obtain rfl : sum = d := Except.ok.inj h
    split at hsum
    · exact (congrArg Duration.nanos (Option.some.inj hsum)).symm
    · cases hsum
  · cases h

private theorem bind_eq_ok {α β : Type} {x : Result α} {f : α → Result β} {b : β}
    (h : x >>= f = .ok b) : ∃ a, x = .ok a ∧ f a = .ok b := by
  cases x with
  | error e => cases h
  | ok a => exact ⟨a, rfl, h⟩

theorem lt_of_nextPeriodicDeadline {previous period now d : Duration}
    (h : nextPeriodicDeadline previous period now = .ok d) : now < d := by
  rw [nextPeriodicDeadline] at h
  split at h
  · cases h
  split at h
  · rename_i hlt
    rwa [← Except.ok.inj h]
  rename_i hp hle
  obtain ⟨missed, hmissed, h⟩ := bind_eq_ok h
  obtain ⟨advanceNs, hadvanceNs, h⟩ := bind_eq_ok h
  obtain ⟨advance, hadvance, h⟩ := bind_eq_ok h
  have hpos : 0 < period.nanos := by
    cases period
    simp only [Duration.zero, Duration.mk.injEq] at hp
    exact Nat.pos_of_ne_zero hp
  have hle : previous.nanos ≤ now.nanos := Nat.le_of_not_lt hle
  have hover := Nat.lt_mul_div_succ (now.nanos - previous.nanos) hpos
  have hsum := checkedDeadline_eq_ok h
  rw [durationOfNanos_eq_ok hadvance, checkedU128_eq_ok hadvanceNs,
    checkedU128_eq_ok hmissed] at hsum
  change now.nanos < d.nanos
  omega

end TimeConvert

/-- `TimerState`. Its constructor and `change_period` refuse a zero period. -/
structure TimerState where
  mode : TimerMode
  period : Duration
  deadline : Option Duration
  period_ne_zero : period ≠ Duration.zero
  deriving DecidableEq

namespace TimerState

def new (period : Duration) (mode : TimerMode) : Result TimerState :=
  if h : period = Duration.zero then .error .invalidParameter
  else .ok { mode, period, deadline := none, period_ne_zero := h }

def start (s : TimerState) (now : Duration) : Result Unit × TimerState :=
  match TimeConvert.checkedDeadline now s.period with
  | .ok d => (.ok (), { s with deadline := some d })
  | .error e => (.error e, s)

def stop (s : TimerState) : TimerState := { s with deadline := none }

def reset (s : TimerState) (now : Duration) : Result Unit × TimerState :=
  match TimeConvert.checkedDeadline now s.period with
  | .ok d => (.ok (), { s with deadline := some d })
  | .error e => (.error e, s)

def changePeriod (s : TimerState) (newPeriod : Duration) : Result Unit × TimerState :=
  if h : newPeriod = Duration.zero then (.error .invalidParameter, s)
  else (.ok (), { s with period := newPeriod, period_ne_zero := h })

/-- `advance_on_expiry`: whether the timer had expired, and the state its callback starts
from. -/
def advanceOnExpiry (s : TimerState) (now : Duration) : Bool × TimerState :=
  match s.deadline with
  | none => (false, s)
  | some d =>
    if d ≤ now then
      match s.mode with
      | .oneShot => (true, { s with deadline := none })
      | .periodic =>
        match TimeConvert.nextPeriodicDeadline d s.period now with
        | .ok next => (true, { s with deadline := some next })
        | .error _ => (true, { s with deadline := none })
    else (false, s)

theorem new_eq_ok {period : Duration} (h : period ≠ Duration.zero) (mode : TimerMode) :
    new period mode = .ok { mode, period, deadline := none, period_ne_zero := h } := dif_neg h

theorem start_cases (s : TimerState) (now : Duration) :
    (s.start now).2 = s ∨ ∃ d, now < d ∧ (s.start now).2 = { s with deadline := some d } := by
  rw [start]
  cases hd : TimeConvert.checkedDeadline now s.period with
  | error e => exact .inl rfl
  | ok d =>
    refine .inr ⟨d, ?_, rfl⟩
    have hsum := TimeConvert.checkedDeadline_eq_ok hd
    have hpos : s.period.nanos ≠ 0 := by
      intro h0
      apply s.period_ne_zero
      cases hp : s.period
      simp_all [Duration.zero]
    change now.nanos < d.nanos
    omega

theorem reset_eq_start (s : TimerState) (now : Duration) : s.reset now = s.start now := rfl

@[simp] theorem changePeriod_deadline (s : TimerState) (newPeriod : Duration) :
    (s.changePeriod newPeriod).2.deadline = s.deadline := by
  rw [changePeriod]
  split <;> rfl

/-- An expired timer is advanced past the instant at which it is found expired, so that it is
not found expired there again. -/
theorem lt_of_advanceOnExpiry {s : TimerState} {now d : Duration}
    (h : (s.advanceOnExpiry now).1 = true) (hd : (s.advanceOnExpiry now).2.deadline = some d) :
    now < d := by
  rw [advanceOnExpiry] at h hd
  cases hs : s.deadline with
  | none => simp [hs] at h
  | some prev =>
    by_cases hle : prev ≤ now
    · cases hm : s.mode with
      | oneShot => simp [hs, hle, hm] at hd
      | periodic =>
        cases hnext : TimeConvert.nextPeriodicDeadline prev s.period now with
        | ok next =>
          obtain rfl : next = d := by simpa [hs, hle, hm, hnext] using hd
          exact TimeConvert.lt_of_nextPeriodicDeadline hnext
        | error e => simp [hs, hle, hm, hnext] at hd
    · simp [hs, hle] at h

end TimerState

end OsalRust
