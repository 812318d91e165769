import OsalRust.FreeRtos.WaitLaws

/-!
# The FreeRTOS delay

`FreeRtosClock::delay` splits the ceiling of its duration in ticks into chunks that fit in one
`vTaskDelay`, each with a guard tick for the part of the current tick that is already over. The
model follows the loop with fuel and keeps the native requests; the time that each of them sleeps
is a number of an ordered field, in nanoseconds.
-/

namespace OsalRust.FreeRtos

inductive DelayStatus where
  | ok
  | invalidTicks
  | schedulerStopped
  deriving DecidableEq

/-- The panics of `delay`: its check of the scheduler, its four `expect`s, and a native request
that fails. -/
inductive DelayPanic where
  | schedulerNotRunning
  | notInitialized
  | conversionOverflowed
  | maxFiniteTooSmall
  | guardTickOverflowed
  | failed (status : DelayStatus)
  deriving DecidableEq

def delayTicks (c : TickSource) (scheduler : SchedulerState) (ticks : Nat) : DelayStatus :=
  if ticks = 0 then .ok
  else if c.maxFiniteDelayTicks < ticks then .invalidTicks
  else if scheduler ≠ .running then .schedulerStopped
  else .ok

/-- The loop of `delay`, with the native requests it makes. -/
def delayLoop (c : TickSource) (scheduler : SchedulerState) :
    Nat → Nat → Option (Except DelayPanic (List Nat))
  | _, 0 => some (.ok [])
  | 0, _ + 1 => none
  | fuel + 1, remaining + 1 =>
    let payload := min (remaining + 1) (c.maxFiniteDelayTicks - 1)
    if payload + 1 < 2 ^ 128 then
      match delayTicks c scheduler ((payload + 1) % 2 ^ 64) with
      | .ok =>
        (delayLoop c scheduler fuel (remaining + 1 - payload)).map fun rest =>
          rest.map ((payload + 1) % 2 ^ 64 :: ·)
      | status => some (.error (.failed status))
    else some (.error .guardTickOverflowed)

/-- `FreeRtosClock::delay`. The capabilities are there once the runtime has been set up. -/
def delay (c : TickSource) (scheduler : SchedulerState) (capabilities : Bool) (fuel : Nat)
    (duration : Duration) : Option (Except DelayPanic (List Nat)) :=
  if duration = Duration.zero then some (.ok [])
  else if scheduler ≠ .running then some (.error .schedulerNotRunning)
  else if !capabilities then some (.error .notInitialized)
  else
    match durationToTicksCeil duration c.rateHz with
    | .error _ => some (.error .conversionOverflowed)
    | .ok ceilTicks =>
      if c.maxFiniteDelayTicks = 0 then some (.error .maxFiniteTooSmall)
      else delayLoop c scheduler fuel ceilTicks

/-- What the native requests of a delay are: each within the range of the shim, and their payloads
add up to the ticks of the delay. -/
structure Chunks (c : TickSource) (ticks : Nat) (chunks : List Nat) : Prop where
  bounds : ∀ n ∈ chunks, 2 ≤ n ∧ n ≤ c.maxFiniteDelayTicks
  payloads : (chunks.map (· - 1)).sum = ticks

private theorem delayTicks_ok {c : TickSource} {n : Nat} (h : n ≤ c.maxFiniteDelayTicks) :
    delayTicks c .running n = .ok := by
  unfold delayTicks
  split
  · rfl
  · rw [if_neg (Nat.not_lt.2 h), if_neg (not_not.2 rfl)]

private theorem delayLoop_round {c : TickSource} {payload ticks : Nat}
    (hpayload : min (ticks + 1) (c.maxFiniteDelayTicks - 1) = payload)
    (hfits : payload + 1 ≤ c.maxFiniteDelayTicks) (fuel : Nat) :
    delayLoop c .running (fuel + 1) (ticks + 1) =
      (delayLoop c .running fuel (ticks + 1 - payload)).map fun rest =>
        rest.map ((payload + 1) :: ·) := by
  have hlt : payload + 1 < 2 ^ 64 := hfits.trans_lt c.delay_lt
  have hguard : payload + 1 < 2 ^ 128 := hlt.trans (by decide)
  rw [delayLoop, hpayload]
  simp only [Nat.mod_eq_of_lt hlt, if_pos hguard, delayTicks_ok hfits]

/-- Every round of the loop uses up one tick at least, so as much fuel as there are ticks is
enough, and more fuel changes nothing. -/
theorem delayLoop_chunks (c : TickSource) (hmax : 2 ≤ c.maxFiniteDelayTicks) (ticks : Nat) :
    ∃ chunks, (∀ fuel, ticks ≤ fuel → delayLoop c .running fuel ticks = some (.ok chunks)) ∧
      Chunks c ticks chunks := by
  induction ticks using Nat.strong_induction_on with
  | _ ticks ih =>
    cases ticks with
    | zero => exact ⟨[], fun fuel _ => by cases fuel <;> rfl, nofun, rfl⟩
    | succ ticks =>
      obtain ⟨payload, hpayload⟩ : ∃ n, min (ticks + 1) (c.maxFiniteDelayTicks - 1) = n := ⟨_, rfl⟩
      have hfits : payload + 1 ≤ c.maxFiniteDelayTicks := by omega
      obtain ⟨chunks, hloop, hchunks⟩ := ih (ticks + 1 - payload) (by omega)
      refine ⟨(payload + 1) :: chunks, fun fuel hfuel => ?_, ⟨fun n hn => ?_, ?_⟩⟩
      · obtain ⟨fuel, rfl⟩ := Nat.exists_eq_add_of_lt hfuel
        rw [delayLoop_round hpayload hfits, hloop _ (by omega)]
        rfl
      · rcases List.mem_cons.1 hn with rfl | hn
        · omega
        · exact hchunks.bounds n hn
      · rw [List.map_cons, List.sum_cons, hchunks.payloads]
        omega

section Slept

variable {K : Type} [Field K] [LinearOrder K] [IsStrictOrderedRing K]

/-- The time slept, one entry for each request: `n` ticks block for more than `n - 1` full tick
periods. -/
def Slept (c : TickSource) (chunks : List Nat) (slept : List K) : Prop :=
  List.Forall₂ (fun n (t : K) => ((n - 1 : Nat) : K) * (nanosPerSec / c.rateHz) < t) chunks slept

theorem Slept.sum {c : TickSource} {chunks : List Nat} {slept : List K} (h : Slept c chunks slept) :
    (((chunks.map (· - 1)).sum : Nat) : K) * (nanosPerSec / c.rateHz) ≤ slept.sum := by
  have h' : List.Forall₂ _ chunks slept := h
  clear h
  induction h' with
  | nil => simp
  | cons ht _ ih =>
    rw [List.map_cons, List.sum_cons, List.sum_cons, Nat.cast_add, add_mul]
    exact add_le_add ht.le ih

theorem nanos_le_ticks (c : TickSource) (d : Duration) :
    (d.nanos : K) ≤
      (((d.nanos * c.rateHz + (nanosPerSec - 1)) / nanosPerSec : Nat) : K) *
        (nanosPerSec / c.rateHz) := by
  have hceil := (ticksCeil_le_iff d c.rateHz _).1 (Nat.le_refl _)
  have hrate : (0 : K) < c.rateHz := Nat.cast_pos.2 c.rate_pos
  rw [← mul_div_assoc, le_div_iff₀ hrate]
  exact_mod_cast hceil

/-- `delay` on a running scheduler returns, every native request is in the range of the shim, the
payloads are the ceiling of the duration in ticks, and the time slept is the duration at least. -/
theorem delay_sleeps (c : TickSource) (hmax : 2 ≤ c.maxFiniteDelayTicks) (d : Duration) :
    ∃ chunks,
      (∀ fuel, (d.nanos * c.rateHz + (nanosPerSec - 1)) / nanosPerSec ≤ fuel →
        delay c .running true fuel d = some (.ok chunks)) ∧
      Chunks c ((d.nanos * c.rateHz + (nanosPerSec - 1)) / nanosPerSec) chunks ∧
      ∀ slept : List K, Slept c chunks slept → (d.nanos : K) ≤ slept.sum := by
  obtain ⟨chunks, hloop, hchunks⟩ :=
    delayLoop_chunks c hmax ((d.nanos * c.rateHz + (nanosPerSec - 1)) / nanosPerSec)
  refine ⟨chunks, fun fuel hfuel => ?_, hchunks, fun slept hslept => ?_⟩
  · rw [← hloop fuel hfuel]
    unfold delay
    split
    · next hz =>
      -- the shortcut returns what the loop would: no duration is no tick
      subst hz
      have hnone : (Duration.zero.nanos * c.rateHz + (nanosPerSec - 1)) / nanosPerSec = 0 := by
        rw [show Duration.zero.nanos = 0 from rfl, Nat.zero_mul]
        rfl
      rw [hnone]
      cases fuel <;> rfl
    · rw [if_neg (not_not.2 rfl), if_neg (by decide), durationToTicksCeil_eq c.rate_pos c.rate_lt d]
      exact if_neg (by omega)
  · calc (d.nanos : K)
        ≤ (((d.nanos * c.rateHz + (nanosPerSec - 1)) / nanosPerSec : Nat) : K) *
            (nanosPerSec / c.rateHz) := nanos_le_ticks c d
      _ = (((chunks.map (· - 1)).sum : Nat) : K) * (nanosPerSec / c.rateHz) := by
          rw [hchunks.payloads]
      _ ≤ slept.sum := hslept.sum

/-- The longest duration on a port with sixteen-bit ticks takes many chunks. -/
theorem delay_sleeps_longest :
    2 ≤ millisecondTicks.maxFiniteDelayTicks ∧
      ∃ chunks,
        Chunks millisecondTicks
          ((durationMaxNanos * 1000 + (nanosPerSec - 1)) / nanosPerSec) chunks ∧
        ∀ slept : List ℚ, Slept millisecondTicks chunks slept →
          (durationMaxNanos : ℚ) ≤ slept.sum := by
  obtain ⟨chunks, -, hchunks, hslept⟩ :=
    delay_sleeps (K := ℚ) millisecondTicks (by decide) ⟨durationMaxNanos, Nat.le_refl _⟩
  exact ⟨by decide, chunks, hchunks, hslept⟩

end Slept

end OsalRust.FreeRtos
