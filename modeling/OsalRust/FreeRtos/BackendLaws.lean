import OsalRust.FreeRtos.Backend

/-!
# Laws of the FreeRTOS backend

The runtime word, the capability cell and the service slot with its registry are locked
separately; they agree whenever the runtime is running or a lease is held, and after every
transition that has been rolled back.
-/

namespace OsalRust.FreeRtosBackend

open OsalRust OsalRust.Framework OsalRust.Timer
open OsalRust.Runtime (RuntimeState lifecycleTable)

section Lifecycle

variable {max : Nat} {t : Thread} {w w' : Backend} {a : Action} {code : Code} {s s' : State}

theorem inv_of_reachable (hr : (system max).Reachable s) :
    ∃ M, Threads.Estate cargo s.code M ∧ Inv s.shared.view M ∧ Configured s.shared.view M := by
  obtain ⟨tr, s₀, h0, hs⟩ := hr
  obtain ⟨hnone, hinit⟩ := start_machine h0
  obtain ⟨M, hM, hsteps⟩ := steps_machine (Threads.Estate.empty hnone) hs
  have hrun : machine.Run (tr.map event) (s.shared.view, M) := ⟨_, hinit, hsteps⟩
  exact ⟨M, hM, machine_inv hrun, machine_configured hrun⟩

def Backend.Operational (w : Backend) : Prop :=
  w.capabilities = true ∧
    ∃ g worker, w.slot = .running g worker ∧ (w.service g).state.stopRequested = false

theorem slot_of_view {g : Nat} {worker : Bool} (h : w.view.slot = .running g worker) :
    w.slot = .running g worker := by
  cases hs : w.slot with
  | running =>
    rw [Backend.view, hs] at h
    cases h
    rfl
  | stopped | stopping =>
    rw [Backend.view, hs] at h
    cases h

theorem stopped_of_view (h : w.view.slot = .stopped) : w.slot = .stopped := by
  cases hs : w.slot with
  | stopped => rfl
  | running | stopping =>
    rw [Backend.view, hs] at h
    cases h

theorem stopping_of_view {g : Nat} {kept : Bool} (h : w.view.slot = .stopping g kept) :
    w.slot = .stopping g := by
  cases hs : w.slot with
  | stopping =>
    rw [Backend.view, hs] at h
    cases h
    rfl
  | stopped | running =>
    rw [Backend.view, hs] at h
    cases h

theorem operational_of_view (hserving : w.view.Serving) (hcaps : w.capabilities = true) :
    w.Operational := by
  obtain ⟨g, worker, hslot, hstop⟩ := hserving
  exact ⟨hcaps, g, worker, slot_of_view hslot, hstop⟩

/-! ### Native objects -/

/-- Creating a service touches its own objects only, and a creation that fails leaves none. -/
theorem newResources_cases {g : Nat} {granted : Resource → Bool} {natives natives' : Natives}
    {ok : Bool} (h : newResources g granted natives = (ok, natives')) {n : Nat × Resource}
    (hn : natives' n = true) : natives n = true ∨ ok = true ∧ n.1 = g := by
  simp only [newResources] at h
  split at h
  · obtain ⟨-, rfl⟩ := Prod.mk.inj h
    exact .inl hn
  · split at h
    · obtain ⟨-, rfl⟩ := Prod.mk.inj h
      simp only [Function.update_apply] at hn
      grind
    · split at h
      · obtain ⟨-, rfl⟩ := Prod.mk.inj h
        simp only [Function.update_apply] at hn
        grind
      · obtain ⟨rfl, rfl⟩ := Prod.mk.inj h
        simp only [Function.update_apply] at hn
        grind

theorem deleteResources_le {g : Nat} {natives : Natives} {n : Nat × Resource}
    (hn : deleteResources g natives n = true) : natives n = true := by
  simp only [deleteResources, Function.update_apply] at hn
  split at hn
  · cases hn
  · split at hn
    · cases hn
    · split at hn
      · cases hn
      · exact hn

def Backend.Tidy (w : Backend) : Prop := ∀ n, w.natives n = true → n.1 < w.services

theorem Performs.tidy (h : Performs max t w a w' code) (htidy : w.Tidy) : w'.Tidy := by
  cases h with
  | createService hslot hnew =>
    intro n hn
    rcases newResources_cases hnew hn with hold | ⟨-, hg⟩
    · exact Nat.lt_succ_of_lt (htidy n hold)
    · exact hg ▸ Nat.lt_succ_self _
  | createServiceFails hslot hnew =>
    intro n hn
    rcases newResources_cases hnew hn with hold | ⟨hok, -⟩
    · exact htidy n hold
    · cases hok
  | destroy => exact fun n hn => htidy n (deleteResources_le hn)
  | _ => exact htidy

theorem tidy_of_reachable (hr : (system max).Reachable s) : s.shared.Tidy := by
  refine hr.invariant (I := fun s => s.shared.Tidy) ?_ fun s l s' h hs => ?_
  · rintro s ⟨now, rfl⟩ n hn
    cases hn
  · cases hs with
    | lock | unlock => exact h
    | act hst hex => exact hex.tidy h

/-! ### Consistency -/

/-- The pieces of the lifecycle agree in state `s`, and no transition from it leaves them in
disagreement. -/
structure Lifecycle (max : Nat) (s : State) : Prop where
  running : s.shared.runtime.1 = .running → s.shared.Operational
  leased : 0 < s.shared.runtime.2 → s.shared.Operational
  uninitialized : s.shared.runtime.1 = .uninitialized →
    s.shared.slot = .stopped ∧ s.shared.capabilities = false
  /-- A live handle has exactly one live entry. -/
  handle : ∀ id, 0 < s.shared.handles.strong id → ∃ g worker, s.shared.slot = .running g worker ∧
    (s.shared.service g).state.timers.countP (TimerEntry.live id) = 1
  /-- The deregistration in `drop` finds the service and the entry. -/
  found : ∀ t id rest, s.code t = .act (.extract (.deregister id)) :: rest →
    ∃ g worker, s.shared.slot = .running g worker
  deregistered : ∀ t g id reserved rest now,
    s.code t = .act (.serve g (.deregister id) reserved) :: rest →
    (s.shared.service g).state.succeeds now reserved (.deregister id) = true
  /-- An `initialize` or a `shutdown` that does not get to begin changes nothing. -/
  initializeRefused : ∀ t s', (system max).step s (t, .act (.runtime .initializeRuntime)) s' →
    s.shared.runtime.1 ≠ .uninitialized → s'.shared = s.shared
  shutdownRefused : ∀ t s', (system max).step s (t, .act (.runtime .shutdownRuntime)) s' →
    s.shared.runtime ≠ (.running, 0) → s'.shared = s.shared
  /-- One that has begun and fails is rolled back. -/
  initializeFails : ∀ t s', (system max).step s (t, .act .rollbackInitialize) s' →
    s'.shared.runtime.1 = .uninitialized ∧ s'.shared.slot = .stopped ∧
      s'.shared.capabilities = false ∧ s'.shared.Tidy
  shutdownFails : ∀ t s', (system max).step s (t, .act .rollbackShutdown) s' →
    s'.shared.runtime.1 = .running ∧ s'.shared.Operational
  /-- The last part of `shutdown` finds the slot as it left it. -/
  cleanUp : ∀ t g rest, s.code t = .act (.cleanUp g) :: rest → s.shared.slot = .stopping g

theorem lifecycle_consistent (max : Nat) {s : State} (hr : (system max).Reachable s) :
    Lifecycle max s := by
  obtain ⟨M, hM, hinv, hconf⟩ := inv_of_reachable hr
  have hrunning : s.shared.runtime.1 = .running → s.shared.Operational := fun hst =>
    operational_of_view (hinv.staged.running hst) (hconf.running hst)
  have token : ∀ {t a rest}, s.code t = .act a :: rest → ∀ {x}, x ∈ cargo a → x ∈ M := by
    intro t a rest hst x hx
    exact hM.mem_of_head hst hx
  refine ⟨hrunning, fun hl => hrunning (hinv.leased.running hl), fun hst => ?_, fun id hpos => ?_,
    fun t id rest hst => ?_, fun t g id reserved rest now hst => ?_, fun t s' hs hst => ?_,
    fun t s' hs hst => ?_, fun t s' hs => ?_, fun t s' hs => ?_, fun t g rest hst => ?_⟩
  · exact ⟨stopped_of_view (hinv.staged.uninitialized hst), hconf.uninitialized hst⟩
  · obtain ⟨g, worker, hslot, hone⟩ := hinv.entry_of_handle hpos
    rw [Registry.aliveOf_eq_countP] at hone
    exact ⟨g, worker, slot_of_view hslot, hone⟩
  · obtain ⟨g, worker, hslot, -, -⟩ := hinv.entry_of_last
      (token hst (x := .last none id) (by simp [cargo, Request.tokens]))
    exact ⟨g, worker, slot_of_view hslot⟩
  · obtain ⟨g', worker, -, hone, hg⟩ := hinv.entry_of_last
      (token hst (x := .last (some g) id) (by simp [cargo, Request.tokens]))
    obtain rfl := hg g rfl
    exact Registry.succeeds_deregister (by rw [Backend.view] at hone; simpa using hone ▸ Nat.one_pos)
  · cases hs with
    | act hcode hex =>
      cases hex with
      | beginInitialize htable => exact absurd (Runtime.swap_of_table htable).1 hst
      | initializeRefused htable =>
        obtain rfl := Runtime.error_of_table htable
        rfl
  · cases hs with
    | act hcode hex =>
      cases hex with
      | beginShutdown htable => exact absurd (Runtime.beginShutdown_of_table htable).1 hst
      | shutdownRefused htable =>
        obtain rfl := Runtime.error_of_table htable
        rfl
  · have htidy := tidy_of_reachable (hr.snoc hs)
    cases hs with
    | act hcode hex =>
      have hphase := token hcode (x := .transition .create) (by simp [cargo])
      have hfits := hinv.staged.fits _ hphase
      cases hex with
      | rollbackInitialize htable =>
        obtain ⟨-, rfl⟩ := Runtime.swap_of_table htable
        exact ⟨rfl, stopped_of_view hfits.2, hconf.fits _ hphase, htidy⟩
  · cases hs with
    | act hcode hex =>
      have hphase := token hcode (x := .transition .stop) (by simp [cargo])
      have hfits := hinv.staged.fits _ hphase
      have hop := operational_of_view hfits.2 (hconf.fits _ hphase)
      cases hex with
      | rollbackShutdown htable =>
        obtain ⟨-, rfl⟩ := Runtime.swap_of_table htable
        exact ⟨rfl, hop⟩
  · obtain ⟨-, ⟨kept, hslot⟩, -⟩ := hinv.staged.fits _
      (token hst (x := .transition (.drained g)) (by simp [cargo]))
    exact stopping_of_view hslot

/-- A timer exists, and with it a handle, a lease and an entry. -/
theorem lifecycle_consistent_oneTimer :
    (system 2).Reachable (resting oneTimer) ∧ 0 < oneTimer.handles.strong 1 ∧
      Lifecycle 2 (resting oneTimer) := by
  obtain ⟨tr, h, -⟩ := run_oneTimer
  exact ⟨h.reachable, by decide, lifecycle_consistent 2 h.reachable⟩

/-- A second `initialize` is answered with an error and leaves the runtime running, and so does a
`shutdown` before the first `initialize` leave it uninitialized. -/
theorem lifecycle_error_without_rollback :
    (∃ s s', (system 2).Reachable s ∧
      (lifecycleTable 2).apply (.swap .beginInitialize) s.shared.runtime =
        some (.error .alreadyInitialized, s.shared.runtime) ∧
      (system 2).step s (.task 1, .act (.runtime .initializeRuntime)) s' ∧
      s'.shared.runtime.1 ≠ .uninitialized ∧ s'.shared.slot ≠ .stopped) ∧
    ∃ s s', (system 2).Reachable s ∧
      (lifecycleTable 2).apply (.retry .beginShutdown) s.shared.runtime =
        some (.error .notInitialized, s.shared.runtime) ∧
      (system 2).step s (.task 1, .act (.runtime .shutdownRuntime)) s' ∧
      s'.shared.runtime.1 ≠ .running := by
  constructor
  · obtain ⟨tr, h, -⟩ := run_initialized
    have h := h.snoc (.act (t := .task 1) rfl (.applicationCalls .initializeRuntime))
    exact ⟨_, _, h.reachable, rfl, Threads.Step.act rfl (.initializeRefused rfl), by decide,
      by decide⟩
  · have h : (system 2).Run [] (start Duration.zero) := Lts.Run.start ⟨_, rfl⟩
    have h := h.snoc (.act (t := .task 1) rfl (.applicationCalls .shutdownRuntime))
    exact ⟨_, _, h.reachable, rfl, Threads.Step.act rfl (.shutdownRefused rfl), by decide⟩

end Lifecycle

end OsalRust.FreeRtosBackend
