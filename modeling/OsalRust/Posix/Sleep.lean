import Mathlib.Algebra.Order.Field.Basic
import Mathlib.Algebra.Order.BigOperators.Group.List
import Mathlib.Data.Nat.Cast.Order.Field
import OsalRust.Posix.Queue

/-!
# The POSIX sleep

`sys::time::nanosleep` splits a duration into segments that fit in `time_t` and restarts each of
them with the remainder that the kernel reports. The model follows the two loops with fuel and
keeps the segments and the native requests; the time that a request sleeps is a number of an
ordered field, in nanoseconds.
-/

namespace OsalRust.Posix

/-- What the target fixes: whether pointers have 64 bits, and `time_t::MAX`. -/
structure SleepTarget where
  pointer64 : Bool
  timeMax : Nat
  le_timeMax : 2 ^ 31 - 1 ≤ timeMax
  timeMax_lt : timeMax < 2 ^ 63

def SleepTarget.maxSleepSecs (target : SleepTarget) : Nat :=
  if target.pointer64 then target.timeMax else 2 ^ 31 - 1

def Timespec.nanos (ts : Timespec) : Nat := ts.sec * 1000000000 + ts.nsec

/-- A request that the native `nanosleep` accepts. -/
def Timespec.Valid (timeMax : Nat) (ts : Timespec) : Prop :=
  ts.sec ≤ timeMax ∧ ts.nsec < 1000000000

/-- The native `nanosleep`: it returns 0, or -1 with `EINTR` and the remainder, or -1 with
another `errno`; and the time it slept. -/
inductive SleepAnswer (K : Type) where
  | slept (time : K)
  | interrupted (rem : Timespec) (time : K)
  | failed (time : K)

/-- The kernel, by the number of the native call and its request. -/
abbrev SleepKernel (K : Type) := Nat → Timespec → SleepAnswer K

variable {K : Type}

abbrev SleepRequest (K : Type) := Timespec × K

/-- How the inner loop is left: by its `break` or by the `return` after an error. -/
inductive SegmentExit where
  | done
  | failed
  deriving DecidableEq

/-- The inner loop from native call `n` on: its requests, and the number of the next call. -/
def sleepSegment (kernel : SleepKernel K) :
    Nat → Nat → Timespec → Option (SegmentExit × List (SleepRequest K) × Nat)
  | 0, _, _ => none
  | fuel + 1, n, req =>
    match kernel n req with
    | .slept time => some (.done, [(req, time)], n + 1)
    | .interrupted rem time =>
      (sleepSegment kernel fuel (n + 1) rem).map fun r => (r.1, (req, time) :: r.2.1, r.2.2)
    | .failed time => some (.failed, [(req, time)], n + 1)

/-- How `nanosleep` returns: with nothing left to sleep, because a segment has no `timespec`, or
after an error of the native call. -/
inductive SleepExit where
  | finished
  | unrepresentable
  | failed
  deriving DecidableEq

structure Sleep (K : Type) where
  exit : SleepExit
  segments : List Duration
  requests : List (SleepRequest K)

/-- The part of `remaining` that the next segment sleeps. -/
def segmentOf (target : SleepTarget) (remaining : Duration) : Duration :=
  Duration.new (min (remaining.nanos / 1000000000) target.maxSleepSecs)
    (remaining.nanos % 1000000000)
    ((Nat.min_le_left _ _).trans_lt (by
      have := remaining.le_max
      rw [durationMaxNanos] at this
      omega))
    (Nat.mod_lt _ (by decide))

/-- One round of the outer loop from native call `n` on; `next` is the rest of the loop. -/
def sleepRound (target : SleepTarget) (kernel : SleepKernel K) (fuel : Nat)
    (next : Nat → Duration → Option (Sleep K)) (n : Nat) (remaining : Duration) :
    Option (Sleep K) :=
  if remaining = Duration.zero then some ⟨.finished, [], []⟩
  else
    let seg := segmentOf target remaining
    match durationToTimespec target.timeMax seg with
    | .error _ => some ⟨.unrepresentable, [], []⟩
    | .ok ts =>
      match sleepSegment kernel fuel n ts with
      | none => none
      | some (.failed, requests, _) => some ⟨.failed, [seg], requests⟩
      | some (.done, requests, n) =>
        (next n (remaining.saturatingSub seg)).map fun rest =>
          ⟨rest.exit, seg :: rest.segments, requests ++ rest.requests⟩

def sleepLoop (target : SleepTarget) (kernel : SleepKernel K) :
    Nat → Nat → Duration → Option (Sleep K)
  | 0 => fun _ _ => none
  | fuel + 1 => sleepRound target kernel fuel (sleepLoop target kernel fuel)

def nanosleep (target : SleepTarget) (kernel : SleepKernel K) (fuel : Nat) (d : Duration) :
    Option (Sleep K) :=
  sleepLoop target kernel fuel 0 d

section Slept

variable [Field K] [LinearOrder K] [IsStrictOrderedRing K]

/-- What POSIX promises about the native `nanosleep`: it sleeps for the requested time, or until
it is interrupted and then reports what is left as a valid `timespec`, and it fails only for a
request that is not valid. The calls that are interrupted are finitely many. -/
structure SleepKernel.Honest (timeMax : Nat) (kernel : SleepKernel K) : Prop where
  slept : ∀ n req time, req.Valid timeMax → kernel n req = .slept time → (req.nanos : K) ≤ time
  interrupted : ∀ n req rem time, req.Valid timeMax → kernel n req = .interrupted rem time →
    rem.Valid timeMax ∧ (req.nanos : K) - time ≤ rem.nanos
  accepts : ∀ n req time, req.Valid timeMax → kernel n req ≠ .failed time
  finite : ∃ N, ∀ n, N ≤ n → ∀ req rem time, kernel n req ≠ .interrupted rem time

/-- A call of `nanosleep` that has slept for `d`: it returned because nothing was left, every
native request was valid, the segments add up to `d`, and the requests slept that long. -/
structure Sleep.Covers (timeMax : Nat) (d : Duration) (sleep : Sleep K) : Prop where
  finished : sleep.exit = .finished
  valid : ∀ r ∈ sleep.requests, r.1.Valid timeMax
  segments : (sleep.segments.map Duration.nanos).sum = d.nanos
  slept : (d.nanos : K) ≤ (sleep.requests.map Prod.snd).sum

variable {target : SleepTarget} {kernel : SleepKernel K}

/-! ### One segment -/

private theorem one_le_maxSleepSecs (target : SleepTarget) : 1 ≤ target.maxSleepSecs := by
  have := target.le_timeMax
  unfold SleepTarget.maxSleepSecs
  split <;> omega

private theorem maxSleepSecs_le (target : SleepTarget) : target.maxSleepSecs ≤ target.timeMax := by
  unfold SleepTarget.maxSleepSecs
  split
  · exact Nat.le_refl _
  · exact target.le_timeMax

private theorem segmentOf_nanos (target : SleepTarget) (remaining : Duration) :
    (segmentOf target remaining).nanos =
      min (remaining.nanos / 1000000000) target.maxSleepSecs * 1000000000 +
        remaining.nanos % 1000000000 := rfl

private theorem segmentOf_le (target : SleepTarget) (remaining : Duration) :
    (segmentOf target remaining).nanos ≤ remaining.nanos := by
  rw [segmentOf_nanos]
  omega

private theorem segmentOf_pos (target : SleepTarget) {remaining : Duration}
    (h : remaining ≠ Duration.zero) :
    0 < (segmentOf target remaining).nanos := by
  have hpos : 0 < remaining.nanos := by
    refine Nat.pos_of_ne_zero fun h0 => h ?_
    cases remaining
    simp_all [Duration.zero]
  have hcap := one_le_maxSleepSecs target
  rw [segmentOf_nanos]
  omega

private theorem segmentOf_timespec (target : SleepTarget) (remaining : Duration) :
    ∃ ts, durationToTimespec target.timeMax (segmentOf target remaining) = .ok ts ∧
      ts.Valid target.timeMax ∧ ts.nanos = (segmentOf target remaining).nanos := by
  have hcap := maxSleepSecs_le target
  have hsecs : (segmentOf target remaining).nanos / 1000000000 ≤ target.timeMax := by
    rw [segmentOf_nanos]
    omega
  refine ⟨_, if_pos hsecs, ⟨hsecs, Nat.mod_lt _ (by decide)⟩, ?_⟩
  rw [Timespec.nanos]
  exact Nat.div_add_mod' _ _

/-- The inner loop ends after the last interruption, all its requests are valid, and together
they sleep for the first of them. -/
theorem sleepSegment_sleeps (hk : kernel.Honest target.timeMax) (n : Nat) {req : Timespec}
    (hreq : req.Valid target.timeMax) :
    ∃ enough requests n', (∀ fuel, enough ≤ fuel →
        sleepSegment kernel fuel n req = some (.done, requests, n')) ∧
      (∀ r ∈ requests, r.1.Valid target.timeMax) ∧
      (req.nanos : K) ≤ (requests.map Prod.snd).sum := by
  obtain ⟨N, hN⟩ := hk.finite
  induction hleft : N - n using Nat.strong_induction_on generalizing n req with
  | _ left ih =>
    cases hanswer : kernel n req with
    | slept time =>
      refine ⟨1, [(req, time)], n + 1, fun fuel hfuel => ?_, ?_, ?_⟩
      · obtain ⟨fuel, rfl⟩ := Nat.exists_eq_add_of_le' hfuel
        rw [sleepSegment, hanswer]
      · simpa using hreq
      · simpa using hk.slept n req time hreq hanswer
    | interrupted rem time =>
      have hn : n < N := Nat.lt_of_not_le fun hn => hN n hn req rem time hanswer
      obtain ⟨hrem, htime⟩ := hk.interrupted n req rem time hreq hanswer
      obtain ⟨enough, requests, n', hloop, hvalid, hsum⟩ :=
        ih (N - (n + 1)) (by omega) (n + 1) hrem rfl
      refine ⟨enough + 1, (req, time) :: requests, n', fun fuel hfuel => ?_, ?_, ?_⟩
      · obtain ⟨fuel, rfl⟩ : ∃ k, fuel = k + 1 := ⟨fuel - 1, by omega⟩
        rw [sleepSegment, hanswer]
        simp only [hloop fuel (by omega), Option.map_some]
      · intro r hr
        rcases List.mem_cons.1 hr with rfl | hr
        · exact hreq
        · exact hvalid r hr
      · rw [List.map_cons, List.sum_cons]
        calc (req.nanos : K) ≤ time + rem.nanos := sub_le_iff_le_add'.1 htime
          _ ≤ time + (requests.map Prod.snd).sum := add_le_add_right hsum time
    | failed time => exact absurd hanswer (hk.accepts n req time hreq)

/-! ### All segments -/

/-- Every segment makes what is left shorter, so the outer loop ends. -/
theorem sleepLoop_covers (hk : kernel.Honest target.timeMax) (n : Nat) (remaining : Duration) :
    ∃ enough sleep, (∀ fuel, enough ≤ fuel → sleepLoop target kernel fuel n remaining = some sleep) ∧
      sleep.Covers target.timeMax remaining := by
  induction hleft : remaining.nanos using Nat.strong_induction_on generalizing n remaining with
  | _ left ih =>
    subst hleft
    by_cases hzero : remaining = Duration.zero
    · refine ⟨1, ⟨.finished, [], []⟩, fun fuel hfuel => ?_, ⟨rfl, nofun, ?_, ?_⟩⟩
      · obtain ⟨fuel, rfl⟩ := Nat.exists_eq_add_of_le' hfuel
        rw [sleepLoop, sleepRound, if_pos hzero]
      · simp [hzero, Duration.zero]
      · simp [hzero, Duration.zero]
    · have hpos := segmentOf_pos target hzero
      have hle := segmentOf_le target remaining
      obtain ⟨ts, hts, hvalid, hnanos⟩ := segmentOf_timespec target remaining
      obtain ⟨enough₁, requests, n', hsegment, hrequests, hslept⟩ := sleepSegment_sleeps hk n hvalid
      obtain ⟨enough₂, rest, hloop, hrest⟩ :=
        ih (remaining.nanos - (segmentOf target remaining).nanos) (by omega) n'
          (remaining.saturatingSub (segmentOf target remaining)) rfl
      refine ⟨max enough₁ enough₂ + 1, ⟨rest.exit, segmentOf target remaining :: rest.segments,
        requests ++ rest.requests⟩, fun fuel hfuel => ?_, ⟨hrest.finished, ?_, ?_, ?_⟩⟩
      · obtain ⟨fuel, rfl⟩ : ∃ k, fuel = k + 1 := ⟨fuel - 1, by omega⟩
        rw [sleepLoop, sleepRound, if_neg hzero]
        simp only [hts, hsegment fuel (by omega), hloop fuel (by omega), Option.map_some]
      · intro r hr
        rcases List.mem_append.1 hr with hr | hr
        · exact hrequests r hr
        · exact hrest.valid r hr
      · rw [List.map_cons, List.sum_cons, hrest.segments]
        exact Nat.add_sub_of_le hle
      · have hsplit : (remaining.nanos : K) = (segmentOf target remaining).nanos +
            (remaining.saturatingSub (segmentOf target remaining)).nanos := by
          rw [← Nat.cast_add]
          exact congrArg Nat.cast (Nat.add_sub_of_le hle).symm
        rw [List.map_append, List.sum_append, hsplit]
        exact add_le_add (hnanos ▸ hslept) hrest.slept

/-- For every duration and every pattern of interruptions: `nanosleep` returns, it never takes
one of its early returns, its segments add up to the duration, and it sleeps that long. -/
theorem nanosleep_covers (hk : kernel.Honest target.timeMax) (d : Duration) :
    ∃ enough sleep, (∀ fuel, enough ≤ fuel → nanosleep target kernel fuel d = some sleep) ∧
      sleep.Covers target.timeMax d :=
  sleepLoop_covers hk 0 d

end Slept

def target64 : SleepTarget := ⟨true, 2 ^ 63 - 1, by decide, by decide⟩

/-- The first call is interrupted after the full seconds of its request, and the others sleep for
as long as they should. -/
def interruptedOnce : SleepKernel ℚ
  | 0, req => .interrupted ⟨0, req.nsec⟩ (req.sec * 1000000000 : Nat)
  | _ + 1, req => .slept req.nanos

private theorem interruptedOnce_honest (timeMax : Nat) : interruptedOnce.Honest timeMax := by
  refine ⟨fun n req time hreq h => ?_, fun n req rem time hreq h => ?_,
    fun n req time hreq h => ?_, 1, fun n hn req rem time h => ?_⟩
  · cases n with
    | zero => cases h
    | succ n =>
      cases h
      exact le_rfl
  · cases n with
    | zero =>
      cases h
      refine ⟨⟨Nat.zero_le _, hreq.2⟩, ?_⟩
      rw [sub_le_iff_le_add', ← Nat.cast_add]
      refine Nat.cast_le.2 ?_
      simp only [Timespec.nanos]
      omega
    | succ n => cases h
  · cases n <;> cases h
  · cases n with
    | zero => exact absurd hn (by decide)
    | succ n => cases h

/-- The longest duration has more seconds than `time_t` can hold. -/
theorem nanosleep_covers_longest :
    target64.timeMax < Duration.max.nanos / 1000000000 ∧
      interruptedOnce.Honest target64.timeMax ∧
      ∃ enough sleep, nanosleep target64 interruptedOnce enough Duration.max = some sleep ∧
        sleep.Covers target64.timeMax Duration.max := by
  have hk := interruptedOnce_honest target64.timeMax
  obtain ⟨enough, sleep, hsleep, hcovers⟩ := nanosleep_covers hk Duration.max
  exact ⟨by decide, hk, enough, sleep, hsleep enough le_rfl, hcovers⟩

end OsalRust.Posix
