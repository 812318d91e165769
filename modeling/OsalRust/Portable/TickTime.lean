import OsalRust.Api.Basic

/-!
# Tick time

The conversions of `osal-portable::tick_time` between a tick counter and `Duration`. A clock
reading reaches a deadline exactly when as many ticks have passed as the ceiling conversion of
the deadline counts, also where the reading saturates.
-/

namespace OsalRust

structure TickConfig where
  rateHz : Nat
  bits : Nat

structure TickSnapshot where
  overflowCount : Nat
  tickCount : Nat

def nanosPerSec : Nat := 1000000000

def validateConfig (config : TickConfig) : Result Unit := do
  if config.rateHz = 0 then .error .invalidParameter
  if config.bits ≠ 16 ∧ config.bits ≠ 32 ∧ config.bits ≠ 64 then .error .invalidParameter

def expandTicks (snapshot : TickSnapshot) (tickBits : Nat) : Nat :=
  snapshot.overflowCount <<< tickBits ||| snapshot.tickCount

theorem tickNanos_lt (totalTicks rateHz : Nat) :
    totalTicks % rateHz * nanosPerSec % 2 ^ 128 / rateHz % 2 ^ 32 < 1000000000 := by
  refine Nat.lt_of_le_of_lt (Nat.mod_le _ _) ?_
  rcases Nat.eq_zero_or_pos rateHz with rfl | hpos
  · simp
  · refine Nat.div_lt_of_lt_mul (Nat.lt_of_le_of_lt (Nat.mod_le _ _) ?_)
    exact Nat.mul_lt_mul_of_pos_right (Nat.mod_lt _ hpos) (by decide)

/-- Saturates at `Duration::MAX`. The product is that of `u128`, the nanoseconds are cut to
`u32`. -/
def ticksToDuration (totalTicks rateHz : Nat) : Duration :=
  if h : totalTicks / rateHz < 2 ^ 64 then
    Duration.new (totalTicks / rateHz)
      (totalTicks % rateHz * nanosPerSec % 2 ^ 128 / rateHz % 2 ^ 32) h
      (tickNanos_lt totalTicks rateHz)
  else .max

def snapshotToDuration (snapshot : TickSnapshot) (config : TickConfig) : Result Duration := do
  validateConfig config
  return ticksToDuration (expandTicks snapshot config.bits) config.rateHz

/-- Rounds up; the products are those of `u128`. -/
def durationToTicksCeil (duration : Duration) (tickRateHz : Nat) : Result Nat :=
  if tickRateHz = 0 then .error .invalidParameter
  else if duration = Duration.zero then .ok 0
  else if duration.nanos * tickRateHz + (nanosPerSec - 1) < 2 ^ 128 then
    .ok ((duration.nanos * tickRateHz + (nanosPerSec - 1)) / nanosPerSec)
  else .error .overflow

theorem snapshotToDuration_split {config : TickConfig} (hv : validateConfig config = .ok ())
    (ticks : Nat) :
    snapshotToDuration ⟨ticks / 2 ^ config.bits, ticks % 2 ^ config.bits⟩ config =
      .ok (ticksToDuration ticks config.rateHz) := by
  have hm : ticks % 2 ^ config.bits < 2 ^ config.bits := Nat.mod_lt _ (Nat.two_pow_pos _)
  have he : expandTicks ⟨ticks / 2 ^ config.bits, ticks % 2 ^ config.bits⟩ config.bits = ticks := by
    rw [expandTicks, ← Nat.shiftLeft_add_eq_or_of_lt hm, Nat.shiftLeft_eq, Nat.div_add_mod']
  rw [snapshotToDuration, hv, he]
  rfl

theorem tickNanos_eq {rateHz : Nat} (hr : 0 < rateHz) (hr' : rateHz < 2 ^ 32) (totalTicks : Nat) :
    totalTicks % rateHz * nanosPerSec < 2 ^ 128 ∧
      totalTicks % rateHz * nanosPerSec / rateHz < nanosPerSec ∧
      totalTicks % rateHz * nanosPerSec % 2 ^ 128 / rateHz % 2 ^ 32 =
        totalTicks % rateHz * nanosPerSec / rateHz := by
  have hrem : totalTicks % rateHz < rateHz := Nat.mod_lt _ hr
  have hprod : totalTicks % rateHz * nanosPerSec < 2 ^ 128 := by
    calc totalTicks % rateHz * nanosPerSec < 2 ^ 32 * nanosPerSec :=
          Nat.mul_lt_mul_of_pos_right (hrem.trans hr') (by decide)
      _ < 2 ^ 128 := by decide
  have hsub : totalTicks % rateHz * nanosPerSec / rateHz < nanosPerSec :=
    Nat.div_lt_of_lt_mul (Nat.mul_lt_mul_of_pos_right hrem (by decide))
  refine ⟨hprod, hsub, ?_⟩
  rw [Nat.mod_eq_of_lt hprod, Nat.mod_eq_of_lt (hsub.trans (by decide))]

theorem ticksToDuration_nanos {ticks rateHz : Nat} (hr : 0 < rateHz) (hr' : rateHz < 2 ^ 32)
    (h : ticks / rateHz < 2 ^ 64) :
    (ticksToDuration ticks rateHz).nanos = ticks * nanosPerSec / rateHz := by
  have hsplit : ticks * nanosPerSec =
      ticks % rateHz * nanosPerSec + ticks / rateHz * nanosPerSec * rateHz := by
    conv_lhs => rw [← Nat.div_add_mod' ticks rateHz]
    ring
  rw [ticksToDuration, dif_pos h, hsplit, Nat.add_mul_div_right _ _ hr]
  show ticks / rateHz * 1000000000 + _ = _
  rw [(tickNanos_eq hr hr' ticks).2.2]
  exact Nat.add_comm _ _

theorem le_ticksToDuration_iff {ticks rateHz : Nat} (hr : 0 < rateHz) (hr' : rateHz < 2 ^ 32)
    (d : Duration) :
    d ≤ ticksToDuration ticks rateHz ↔ d.nanos * rateHz ≤ ticks * nanosPerSec := by
  show d.nanos ≤ (ticksToDuration ticks rateHz).nanos ↔ _
  by_cases h : ticks / rateHz < 2 ^ 64
  · rw [ticksToDuration_nanos hr hr' h, Nat.le_div_iff_mul_le hr]
  · have hticks : 2 ^ 64 * rateHz ≤ ticks := (Nat.le_div_iff_mul_le hr).1 (Nat.le_of_not_lt h)
    rw [ticksToDuration, dif_neg h]
    refine iff_of_true d.le_max ?_
    calc d.nanos * rateHz ≤ 2 ^ 64 * nanosPerSec * rateHz :=
          Nat.mul_le_mul_right _ (Nat.le_trans d.le_max (by decide))
      _ = 2 ^ 64 * rateHz * nanosPerSec := Nat.mul_right_comm _ _ _
      _ ≤ ticks * nanosPerSec := Nat.mul_le_mul_right _ hticks

/-- No duration overflows the conversion at a rate that is a `u32`. -/
theorem durationToTicksCeil_eq {rateHz : Nat} (hr : 0 < rateHz) (hr' : rateHz < 2 ^ 32)
    (d : Duration) :
    durationToTicksCeil d rateHz = .ok ((d.nanos * rateHz + (nanosPerSec - 1)) / nanosPerSec) := by
  have hprod : d.nanos * rateHz ≤ durationMaxNanos * 2 ^ 32 := Nat.mul_le_mul d.le_max hr'.le
  have hfit : d.nanos * rateHz + (nanosPerSec - 1) < 2 ^ 128 := by
    simp only [durationMaxNanos, nanosPerSec] at *
    omega
  rw [durationToTicksCeil, if_neg hr.ne']
  by_cases hz : d = Duration.zero
  · rw [if_pos hz, hz]
    simp [Duration.zero, nanosPerSec]
  · rw [if_neg hz, if_pos hfit]

theorem ticksCeil_le_iff (d : Duration) (rateHz ticks : Nat) :
    (d.nanos * rateHz + (nanosPerSec - 1)) / nanosPerSec ≤ ticks ↔
      d.nanos * rateHz ≤ ticks * nanosPerSec := by
  simp only [nanosPerSec]
  omega

/-! ### Exactness of the readings -/

structure TickSnapshot.Valid (snapshot : TickSnapshot) (bits : Nat) : Prop where
  overflow_lt : snapshot.overflowCount < 2 ^ 64
  tick_lt : snapshot.tickCount < 2 ^ bits

structure TickConfig.Valid (config : TickConfig) : Prop where
  rate_pos : 1 ≤ config.rateHz
  rate_lt : config.rateHz < 2 ^ 32
  bits_valid : config.bits = 16 ∨ config.bits = 32 ∨ config.bits = 64

def TickSnapshot.Before (a b : TickSnapshot) : Prop :=
  a.overflowCount < b.overflowCount ∨
    a.overflowCount = b.overflowCount ∧ a.tickCount ≤ b.tickCount

def totalTicks (snapshot : TickSnapshot) (bits : Nat) : Nat :=
  snapshot.overflowCount * 2 ^ bits + snapshot.tickCount

theorem expandTicks_eq {snapshot : TickSnapshot} {bits : Nat} (h : snapshot.Valid bits) :
    expandTicks snapshot bits = totalTicks snapshot bits := by
  rw [expandTicks, ← Nat.shiftLeft_add_eq_or_of_lt h.tick_lt, Nat.shiftLeft_eq, totalTicks]

private theorem totalTicks_lt {snapshot : TickSnapshot} {bits : Nat} (h : snapshot.Valid bits)
    (hb : bits ≤ 64) : totalTicks snapshot bits < 2 ^ 128 := by
  have htick := h.tick_lt
  calc totalTicks snapshot bits < snapshot.overflowCount * 2 ^ bits + 2 ^ bits := by
        rw [totalTicks]
        omega
    _ = (snapshot.overflowCount + 1) * 2 ^ bits := by ring
    _ ≤ 2 ^ 64 * 2 ^ 64 :=
        Nat.mul_le_mul h.overflow_lt (Nat.pow_le_pow_right Nat.two_pos hb)
    _ = 2 ^ 128 := by norm_num

private theorem totalTicks_mono {a b : TickSnapshot} {bits : Nat} (ha : a.Valid bits)
    (h : a.Before b) : totalTicks a bits ≤ totalTicks b bits := by
  have htick := ha.tick_lt
  unfold totalTicks
  rcases h with hlt | ⟨heq, hle⟩
  · have hmul := Nat.mul_le_mul_right (2 ^ bits) (Nat.succ_le_of_lt hlt)
    rw [Nat.succ_mul] at hmul
    omega
  · rw [heq]
    exact Nat.add_le_add_left hle _

theorem ticksToDuration_eq_min {rateHz : Nat} (hr : 0 < rateHz) (hr' : rateHz < 2 ^ 32)
    (ticks : Nat) :
    (ticksToDuration ticks rateHz).nanos = min (ticks * nanosPerSec / rateHz) durationMaxNanos := by
  refine Nat.le_antisymm (Nat.le_min.2 ⟨?_, Duration.le_max _⟩) ?_
  · have hle := (le_ticksToDuration_iff hr hr' (ticksToDuration ticks rateHz)).1 (Nat.le_refl _)
    exact (Nat.le_div_iff_mul_le hr).2 hle
  · refine (le_ticksToDuration_iff hr hr' ⟨_, Nat.min_le_right _ _⟩).2 ?_
    exact (Nat.mul_le_mul_right _ (Nat.min_le_left _ _)).trans (Nat.div_mul_le_self _ _)

private theorem validateConfig_eq {config : TickConfig} (h : config.Valid) :
    validateConfig config = .ok () := by
  have hr : config.rateHz ≠ 0 := Nat.ne_of_gt h.rate_pos
  rcases h.bits_valid with hb | hb | hb <;> simp [validateConfig, hr, hb] <;> rfl

/-- A reading is the time of its last tick in whole nanoseconds, cut at `Duration::MAX`, and none
of the machine operations in between loses anything; so readings are ordered as their snapshots
are. -/
theorem snapshotToDuration_exact (config : TickConfig) (hc : config.Valid) :
    (∀ snapshot : TickSnapshot, snapshot.Valid config.bits →
      (∃ d, snapshotToDuration snapshot config = .ok d ∧
        d.nanos = min (totalTicks snapshot config.bits * nanosPerSec / config.rateHz)
          durationMaxNanos) ∧
      expandTicks snapshot config.bits = totalTicks snapshot config.bits ∧
      totalTicks snapshot config.bits < 2 ^ 128 ∧
      totalTicks snapshot config.bits % config.rateHz * nanosPerSec < 2 ^ 128 ∧
      totalTicks snapshot config.bits % config.rateHz * nanosPerSec / config.rateHz <
        nanosPerSec) ∧
    ∀ a b : TickSnapshot, a.Valid config.bits → b.Valid config.bits → a.Before b →
      ∃ d d', snapshotToDuration a config = .ok d ∧ snapshotToDuration b config = .ok d' ∧
        d ≤ d' := by
  have hread : ∀ snapshot : TickSnapshot, snapshot.Valid config.bits →
      snapshotToDuration snapshot config =
        .ok (ticksToDuration (totalTicks snapshot config.bits) config.rateHz) := by
    intro snapshot h
    rw [snapshotToDuration, validateConfig_eq hc, expandTicks_eq h]
    rfl
  have hbits : config.bits ≤ 64 := by
    rcases hc.bits_valid with hb | hb | hb <;> omega
  refine ⟨fun snapshot h => ?_, fun a b ha hb hab => ?_⟩
  · obtain ⟨hprod, hnanos, -⟩ := tickNanos_eq hc.rate_pos hc.rate_lt
      (totalTicks snapshot config.bits)
    exact ⟨⟨_, hread snapshot h, ticksToDuration_eq_min hc.rate_pos hc.rate_lt _⟩,
      expandTicks_eq h, totalTicks_lt h hbits, hprod, hnanos⟩
  · refine ⟨_, _, hread a ha, hread b hb, ?_⟩
    show (ticksToDuration _ _).nanos ≤ (ticksToDuration _ _).nanos
    rw [ticksToDuration_eq_min hc.rate_pos hc.rate_lt, ticksToDuration_eq_min hc.rate_pos hc.rate_lt]
    refine min_le_min_right _ (Nat.div_le_div_right (Nat.mul_le_mul_right _ ?_))
    exact totalTicks_mono ha hab

/-- The wrap of a 16-bit counter. -/
theorem snapshotToDuration_exact_wrap :
    TickConfig.Valid ⟨1000, 16⟩ ∧ ∃ d d', snapshotToDuration ⟨0, 65535⟩ ⟨1000, 16⟩ = .ok d ∧
      snapshotToDuration ⟨1, 0⟩ ⟨1000, 16⟩ = .ok d' ∧ d ≤ d' := by
  have hc : TickConfig.Valid ⟨1000, 16⟩ := ⟨by decide, by decide, .inl rfl⟩
  refine ⟨hc, (snapshotToDuration_exact ⟨1000, 16⟩ hc).2 _ _ ?_ ?_ (.inl (by decide))⟩
  · exact ⟨by decide, by decide⟩
  · exact ⟨by decide, by decide⟩

/-! ### The adjunction -/

/-- The ceiling of a duration in ticks and the floor of ticks in a duration are adjoint, also
where the floor saturates; and the floor of a tick count has that count for its ceiling, as long
as a tick is no shorter than a nanosecond. -/
theorem ticksCeil_adjoint (d : Duration) (n rateHz : Nat) (hr : 1 ≤ rateHz)
    (hr' : rateHz < 2 ^ 32) :
    (∃ ticks, durationToTicksCeil d rateHz = .ok ticks ∧
      (d ≤ ticksToDuration n rateHz ↔ ticks ≤ n)) ∧
    (rateHz ≤ nanosPerSec → n / rateHz < 2 ^ 64 →
      durationToTicksCeil (ticksToDuration n rateHz) rateHz = .ok n) := by
  refine ⟨⟨_, durationToTicksCeil_eq hr hr' d, ?_⟩, fun hrate hsat => ?_⟩
  · rw [le_ticksToDuration_iff hr hr', ticksCeil_le_iff]
  · rw [durationToTicksCeil_eq hr hr', ticksToDuration_nanos hr hr' hsat]
    congr 1
    have hle := Nat.div_mul_le_self (n * nanosPerSec) rateHz
    have hlt := Nat.lt_mul_div_succ (n * nanosPerSec) hr
    rw [Nat.mul_add, Nat.mul_one, Nat.mul_comm rateHz] at hlt
    generalize n * nanosPerSec / rateHz * rateHz = floor at hle hlt ⊢
    simp only [nanosPerSec] at hle hlt hrate ⊢
    omega

theorem ticksCeil_adjoint_millisecond :
    ∃ ticks, durationToTicksCeil (.fromNanos 1) 1000 = .ok ticks ∧
      (Duration.fromNanos 1 ≤ ticksToDuration 1 1000 ↔ ticks ≤ 1) :=
  (ticksCeil_adjoint (.fromNanos 1) 1 1000 (by decide) (by decide)).1

end OsalRust
