import OsalRust.Api.Basic

/-!
# The portable counting semaphore

`CountingSemaphoreState` of `osal-portable`: the count and its maximum, without any waiting.
-/

namespace OsalRust

/-- The count stays within its maximum, which is a `u32`. -/
structure CountingSemaphoreState where
  maxCount : Nat
  count : Nat
  count_le : count ≤ maxCount
  deriving DecidableEq

namespace CountingSemaphoreState

def new (maxCount initialCount : UInt32) : Result CountingSemaphoreState :=
  if maxCount = 0 then .error .invalidParameter
  else if h : initialCount.toNat ≤ maxCount.toNat then
    .ok ⟨maxCount.toNat, initialCount.toNat, h⟩
  else .error .invalidParameter

def tryAcquire (st : CountingSemaphoreState) : Bool × CountingSemaphoreState :=
  if 0 < st.count then
    (true, ⟨st.maxCount, st.count - 1, Nat.le_trans (Nat.sub_le _ _) st.count_le⟩)
  else (false, st)

def release (st : CountingSemaphoreState) : Result Unit × CountingSemaphoreState :=
  if h : st.count < st.maxCount then (.ok (), ⟨st.maxCount, st.count + 1, h⟩)
  else (.error .overflow, st)

variable {st st' : CountingSemaphoreState}

theorem tryAcquire_cases {taken : Bool} (h : st.tryAcquire = (taken, st')) :
    (taken = true ∧ st'.maxCount = st.maxCount ∧ st'.count + 1 = st.count) ∨
      (taken = false ∧ st.count = 0 ∧ st' = st) := by
  unfold tryAcquire at h
  split_ifs at h with hpos
  · obtain ⟨rfl, rfl⟩ := Prod.mk.inj h
    exact .inl ⟨rfl, rfl, Nat.sub_add_cancel hpos⟩
  · obtain ⟨rfl, rfl⟩ := Prod.mk.inj h
    exact .inr ⟨rfl, by omega, rfl⟩

theorem release_cases {r : Result Unit} (h : st.release = (r, st')) :
    (r = .ok () ∧ st'.maxCount = st.maxCount ∧ st'.count = st.count + 1) ∨
      (r = .error .overflow ∧ st' = st) := by
  unfold release at h
  split_ifs at h
  · obtain ⟨rfl, rfl⟩ := Prod.mk.inj h
    exact .inl ⟨rfl, rfl, rfl⟩
  · obtain ⟨rfl, rfl⟩ := Prod.mk.inj h
    exact .inr ⟨rfl, rfl⟩

theorem new_cases {maxCount initialCount : UInt32} (h : new maxCount initialCount = .ok st) :
    0 < st.maxCount ∧ st.maxCount = maxCount.toNat ∧ st.count = initialCount.toNat := by
  unfold new at h
  split_ifs at h with hzero hle
  obtain rfl := Except.ok.inj h
  refine ⟨?_, rfl, rfl⟩
  rw [Nat.pos_iff_ne_zero]
  intro he
  exact hzero (UInt32.toNat_inj.mp he)

end CountingSemaphoreState

end OsalRust
