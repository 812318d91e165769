import OsalRust.FreeRtos.BackendLocks

/-!
# Priorities and the spin lock of the slot

The backend on one core with strict preemptive scheduling: only a ready task of the highest
priority takes steps. A task that waits for a mutex, a semaphore or an event group, or that
delays itself between its calls, is not ready; one that spins on `CONTROL.slot` is. The timer
worker is created ready, with the highest priority.
-/

namespace OsalRust.FreeRtosBackend

open OsalRust OsalRust.Framework OsalRust.Timer

/-- The priorities of the tasks; the worker has `max_priorities - 1`. -/
structure Priorities where
  maxPriorities : Nat
  task : Nat → Nat
  task_le : ∀ n, task n ≤ maxPriorities - 1

def Priorities.of (p : Priorities) : Thread → Nat
  | .task n => p.task n
  | .worker _ => p.maxPriorities - 1

/-- The core: the threads of the backend, and which of them are ready. -/
structure Core where
  base : State
  ready : Thread → Bool

namespace Core

def Schedules (p : Priorities) (c : Core) (t : Thread) : Prop :=
  c.ready t = true ∧ ∀ u, c.ready u = true → p.of u ≤ p.of t

def AtSlot (c : Core) (t : Thread) : Prop := ∃ rest, c.base.code t = .lock .control :: rest

/-- The places where a thread may wait without being ready: between its calls, for a registry
mutex that is held, for the wake semaphore and for the completion of the worker. -/
def MayBlock (c : Core) (t : Thread) : Prop :=
  ∃ rest, c.base.code t = .act .application :: rest ∨
    (∃ g id, c.base.code t = .act (.callback g id) :: rest) ∨
    (∃ g, c.base.code t = .lock (.registry g) :: rest ∧ c.base.holder (.registry g) ≠ none) ∨
    (∃ g deadline, c.base.code t = .act (.take g deadline) :: rest) ∨
    ∃ g worker, c.base.code t = .act (.awaitCompletion g worker) :: rest

def creates (s s' : State) : Thread → Bool
  | .task _ => false
  | .worker g => (s'.shared.service g).created && !(s.shared.service g).created

def Exists (c : Core) : Thread → Prop
  | .task _ => True
  | .worker g => (c.base.shared.service g).created = true

end Core

inductive CoreEvent where
  | run (l : Thread × Instr Lock Action)
  | block (t : Thread)
  | wake (t : Thread)

inductive CoreStep (max : Nat) (p : Priorities) : Core → CoreEvent → Core → Prop
  | run {c : Core} {l : Thread × Instr Lock Action} {s' : State} : c.Schedules p l.1 →
      (system max).step c.base l s' →
      CoreStep max p c (.run l)
        { base := s', ready := fun u => c.ready u || Core.creates c.base s' u }
  | block {c : Core} {t : Thread} : c.Schedules p t → c.MayBlock t →
      CoreStep max p c (.block t) { c with ready := Function.update c.ready t false }
  | wake {c : Core} {t : Thread} : c.Exists t →
      CoreStep max p c (.wake t) { c with ready := Function.update c.ready t true }

def core (max : Nat) (p : Priorities) : Lts Core CoreEvent where
  init c := (∃ now, c.base = start now) ∧ ∀ g, c.ready (.worker g) = false
  step := CoreStep max p

def Inverted (p : Priorities) (c : Core) : Prop :=
  ∃ t u, c.Schedules p t ∧ c.AtSlot t ∧ c.base.holder .control = some u ∧ p.of u < p.of t

/-- The running task spins on the slot, and the task of lower priority that holds it is never
scheduled again. -/
def Deadlocked (max : Nat) (p : Priorities) (c : Core) : Prop :=
  ∃ t u, c.Schedules p t ∧ c.AtSlot t ∧ c.base.holder .control = some u ∧ p.of u < p.of t ∧
    ∀ tr c', (core max p).Steps c tr c' → ¬ c'.Schedules p u

/-- A task that comes to the slot (it begins a timer or runtime operation, the part of one that
takes the slot, or the drop of a last handle) finds it free or with a task of at least its own
priority. -/
def Orderly (p : Priorities) (c : Core) (e : CoreEvent) (c' : Core) : Prop :=
  ∀ t i, e = .run (t, i) → i ≠ .unlock .control → c'.AtSlot t →
    ∀ u, c.base.holder .control = some u → p.of t ≤ p.of u

section Laws

variable {max : Nat} {p : Priorities} {c c' : Core} {e : CoreEvent} {t u : Thread}

/-! ### One step -/

private theorem code_step {s s' : State} {i : Instr Lock Action}
    (h : (system max).step s (t, i) s') (hne : u ≠ t) : s'.code u = s.code u := by
  cases h with
  | lock => exact Function.update_of_ne hne _ _
  | unlock => exact Function.update_of_ne hne _ _
  | act => exact Function.update_of_ne hne _ _

private theorem holder_step {s s' : State} {i : Instr Lock Action}
    (h : (system max).step s (t, i) s') :
    (i = .lock .control ∧ s.holder .control = none ∧ s'.holder .control = some t) ∨
      ((∃ rest, s.code t = .unlock .control :: rest) ∧ i = .unlock .control ∧
        s'.holder .control = none) ∨
      i ≠ .lock .control ∧ i ≠ .unlock .control ∧ s'.holder .control = s.holder .control := by
  cases h with
  | @lock _ m rest hst hfree =>
    cases m with
    | control => exact .inl ⟨rfl, hfree, by simp [Threads.take]⟩
    | registry g => exact .inr (.inr ⟨by simp, by simp, by simp [Threads.take]⟩)
  | @unlock _ m rest hst =>
    cases m with
    | control => exact .inr (.inl ⟨⟨rest, hst⟩, rfl, by simp [Threads.release]⟩)
    | registry g => exact .inr (.inr ⟨by simp, by simp, by simp [Threads.release]⟩)
  | act => exact .inr (.inr ⟨by simp, by simp, rfl⟩)

private theorem head_of_step {s s' : State} {i j : Instr Lock Action} {rest : Code}
    (h : (system max).step s (t, i) s') (hst : s.code t = j :: rest) : i = j := by
  cases h with
  | lock hst' => exact (List.cons.inj (hst'.symm.trans hst)).1
  | unlock hst' => exact (List.cons.inj (hst'.symm.trans hst)).1
  | act hst' => exact (List.cons.inj (hst'.symm.trans hst)).1

private theorem atSlot_of_step {s' : State} {i : Instr Lock Action} {ready : Thread → Bool}
    (h : (system max).step c.base (t, i) s') (hne : u ≠ t) (hslot : Core.AtSlot ⟨s', ready⟩ u) :
    c.AtSlot u := by
  obtain ⟨rest, hrest⟩ := hslot
  exact ⟨rest, (code_step h hne).symm.trans hrest⟩

private theorem not_mayBlock (h : c.AtSlot t) : ¬ c.MayBlock t := by
  obtain ⟨rest, hrest⟩ := h
  rintro ⟨rest', hb⟩
  simp [hrest] at hb

private theorem update_created {w : Backend} {g k : Nat} {x : TimerService}
    (hx : x.created = (w.service k).created) :
    (Function.update w.service k x g).created = (w.service g).created := by
  by_cases hg : g = k
  · subst hg
    rw [Function.update_self, hx]
  · rw [Function.update_of_ne hg]

private theorem Performs.created {w w' : Backend} {a : Action} {code : Code} (g : Nat)
    (h : Performs max t w a w' code) :
    ((∃ again id, a = .ensureWorker again id) ∧ ∃ rest, code = .unlock .control :: rest) ∨
      (w'.service g).created = (w.service g).created := by
  cases h with
  | createWorker => exact .inl ⟨⟨_, _, rfl⟩, _, rfl⟩
  | _ => first | exact .inr rfl | exact .inr (update_created rfl)

private theorem creates_of_step {s s' : State} {i : Instr Lock Action}
    (h : (system max).step s (t, i) s')
    (hi : (∀ again id, i ≠ .act (.ensureWorker again id)) ∨
      ¬ ∃ rest, s'.code t = .unlock .control :: rest) :
    Core.creates s s' u = false := by
  cases u with
  | task n => rfl
  | worker g =>
    have hkeep : (s'.shared.service g).created = (s.shared.service g).created := by
      cases h with
      | lock => rfl
      | unlock => rfl
      | @act _ a rest code w hst hex =>
        rcases hex.created g with ⟨⟨again, id, rfl⟩, rest', rfl⟩ | hkeep
        · rcases hi with hi | hi
          · exact absurd rfl (hi again id)
          · exact absurd ⟨_, Function.update_self _ _ _⟩ hi
        · exact hkeep
    simp [Core.creates, hkeep]

/-! ### Runs in order -/

/-- Who spins is ready, and does not outrank the holder. -/
structure Ranked (p : Priorities) (c : Core) : Prop where
  ready : ∀ t, c.AtSlot t → c.ready t = true
  le : ∀ t u, c.AtSlot t → c.base.holder .control = some u → p.of t ≤ p.of u

theorem Ranked.not_inverted (h : Ranked p c) : ¬ Inverted p c := by
  rintro ⟨t, u, -, hslot, hu, hlt⟩
  exact absurd (h.le t u hslot hu) (Nat.not_le.2 hlt)

theorem Ranked.step (h : Ranked p c) (hs : (core max p).step c e c') (ho : Orderly p c e c') :
    Ranked p c' := by
  cases hs with
  | @run l s' hsched hstep =>
    obtain ⟨t, i⟩ := l
    have hready : ∀ {ready} u, Core.AtSlot ⟨s', ready⟩ u → c.ready u = true := by
      intro ready u hslot
      by_cases hu : u = t
      · exact hu ▸ hsched.1
      · exact h.ready u (atSlot_of_step hstep hu hslot)
    refine ⟨fun u hslot => ?_, fun u v hslot hv => ?_⟩
    · rw [Bool.or_eq_true]
      exact .inl (hready u hslot)
    · rcases holder_step hstep with ⟨-, -, hnew⟩ | ⟨-, -, hnone⟩ | ⟨hl, hu, hold⟩
      · obtain rfl : t = v := Option.some.inj (hnew.symm.trans hv)
        exact hsched.2 u (hready u hslot)
      · exact absurd (hnone.symm.trans hv) nofun
      · by_cases hut : u = t
        · subst hut
          exact ho u i rfl hu hslot v (hold.symm.trans hv)
        · exact h.le u v (atSlot_of_step hstep hut hslot) (hold.symm.trans hv)
  | @block t hsched hmay =>
    refine ⟨fun u hslot => ?_, h.le⟩
    have hne : u ≠ t := fun hu => not_mayBlock hslot (hu ▸ hmay)
    exact (Function.update_of_ne hne _ _).trans (h.ready u hslot)
  | @wake t hex =>
    refine ⟨fun u hslot => ?_, h.le⟩
    by_cases hu : u = t
    · subst hu
      exact Function.update_self _ _ _
    · exact (Function.update_of_ne hu _ _).trans (h.ready u hslot)

theorem ranked_of_reachable (hr : ((core max p).restrict (Orderly p)).Reachable c) :
    Ranked p c := by
  refine hr.invariant (I := Ranked p) ?_ ?_
  · rintro c ⟨⟨now, hnow⟩, -⟩
    have hnot : ∀ t, ¬ c.AtSlot t := by
      rintro t ⟨rest, hrest⟩
      rw [hnow] at hrest
      cases t <;> cases hrest
    exact ⟨fun t h => absurd h (hnot t), fun t u h => absurd h (hnot t)⟩
  · rintro c e c' h ⟨hs, ho⟩
    exact h.step hs ho

/-! ### After an inversion -/

theorem base_reachable (hr : (core max p).Reachable c) : (system max).Reachable c.base := by
  refine hr.invariant (I := fun c => (system max).Reachable c.base) ?_ ?_
  · rintro c ⟨hstart, -⟩
    exact .start hstart
  · intro c e c' h hs
    cases hs with
    | run _ hstep => exact h.snoc hstep
    | block => exact h
    | wake => exact h

/-- While a ready task spins, a holder of lower priority does not run, and nobody else gives
the slot back. -/
theorem spins_forever (hr : (core max p).Reachable c) (ht : c.ready t = true)
    (hslot : c.AtSlot t) (hu : c.base.holder .control = some u) (hlt : p.of u < p.of t)
    {tr : List CoreEvent} (hs : (core max p).Steps c tr c') :
    c'.ready t = true ∧ c'.AtSlot t ∧ c'.base.holder .control = some u := by
  refine hs.invariant
    (I := fun _ c' => c'.ready t = true ∧ c'.AtSlot t ∧ c'.base.holder .control = some u)
    hr ⟨ht, hslot, hu⟩ ?_
  clear hr ht hslot hu hs
  rintro tr c e c' hr ⟨ht, hslot, hu⟩ hs
  cases hs with
  | @run l s' hsched hstep =>
    obtain ⟨v, i⟩ := l
    have hvu : v ≠ u := by
      rintro rfl
      exact absurd (hsched.2 t ht) (Nat.not_le.2 hlt)
    rcases holder_step hstep with ⟨-, hfree, -⟩ | ⟨⟨rest, hst⟩, -, -⟩ | ⟨hl, -, hold⟩
    · exact absurd (hfree.symm.trans hu) nofun
    · have hv := (balancedControl_of_reachable (base_reachable hr)).holder_of_unlock hst
      exact absurd (Option.some.inj (hv.symm.trans hu)) hvu
    · have htv : t ≠ v := by
        rintro rfl
        obtain ⟨rest, hrest⟩ := hslot
        exact hl (head_of_step hstep hrest)
      obtain ⟨rest, hrest⟩ := hslot
      refine ⟨?_, ⟨rest, (code_step hstep htv).trans hrest⟩, hold.trans hu⟩
      rw [Bool.or_eq_true]
      exact .inl ht
  | @block v hsched hmay =>
    have hne : t ≠ v := fun htv => not_mayBlock hslot (htv ▸ hmay)
    exact ⟨(Function.update_of_ne hne _ _).trans ht, hslot, hu⟩
  | @wake v hex =>
    refine ⟨?_, hslot, hu⟩
    by_cases htv : t = v
    · subst htv
      exact Function.update_self _ _ _
    · exact (Function.update_of_ne htv _ _).trans ht

theorem Inverted.deadlocked (hr : (core max p).Reachable c) (h : Inverted p c) :
    Deadlocked max p c := by
  obtain ⟨t, u, hsched, hslot, hu, hlt⟩ := h
  refine ⟨t, u, hsched, hslot, hu, hlt, fun tr c' hs hu' => ?_⟩
  obtain ⟨ht, -, -⟩ := spins_forever hr hsched.1 hslot hu hlt hs
  exact absurd (hu'.2 t ht) (Nat.not_le.2 hlt)

theorem Deadlocked.inverted (h : Deadlocked max p c) : Inverted p c := by
  obtain ⟨t, u, hsched, hslot, hu, hlt, -⟩ := h
  exact ⟨t, u, hsched, hslot, hu, hlt⟩

/-- A task that comes to the slot out of order spins on it. -/
theorem inverted_of_not_orderly (hs : (core max p).step c e c') (ho : ¬ Orderly p c e c') :
    Inverted p c' := by
  simp only [Orderly, not_forall] at ho
  obtain ⟨t, i, rfl, hi, hslot, u, hu, hlt⟩ := ho
  cases hs with
  | @run _ s' hsched hstep =>
    refine ⟨t, u, ⟨?_, fun v hv => ?_⟩, hslot, ?_, Nat.not_le.1 hlt⟩
    · rw [Bool.or_eq_true]
      exact .inl hsched.1
    · obtain ⟨rest, hrest⟩ := hslot
      have hnot : ¬ ∃ rest', s'.code t = .unlock .control :: rest' := by
        rintro ⟨rest', hrest'⟩
        cases hrest.symm.trans hrest'
      rw [Bool.or_eq_true, creates_of_step hstep (.inr hnot)] at hv
      exact hsched.2 v (hv.resolve_right nofun)
    · rcases holder_step hstep with ⟨-, hfree, -⟩ | ⟨-, hunlock, -⟩ | ⟨-, -, hold⟩
      · exact absurd (hfree.symm.trans hu) nofun
      · exact absurd hunlock hi
      · exact hold.trans hu

/-- In every run in which each task comes to the slot in order, no task spins on the slot while
one of lower priority holds it. A step out of order is at once such a deadlock. -/
theorem slot_orderly_iff (hr : ((core max p).restrict (Orderly p)).Reachable c) :
    ¬ Deadlocked max p c ∧
      ∀ e c', (core max p).step c e c' → (Orderly p c e c' ↔ ¬ Deadlocked max p c') := by
  have hranked := ranked_of_reachable hr
  refine ⟨fun h => hranked.not_inverted h.inverted, fun e c' hs => ⟨fun ho h => ?_, fun hd => ?_⟩⟩
  · exact (hranked.step hs ho).not_inverted h.inverted
  · by_contra ho
    exact hd ((inverted_of_not_orderly hs ho).deadlocked ((Lts.restrict_reachable hr).snoc hs))

/-! ### Two tasks -/

private theorem run_step {s s' : State} {ready : Thread → Bool} {i : Instr Lock Action}
    (hsched : Core.Schedules p ⟨s, ready⟩ t) (h : (system max).step s (t, i) s')
    (hi : ∀ again id, i ≠ .act (.ensureWorker again id)) :
    (core max p).step ⟨s, ready⟩ (.run (t, i)) ⟨s', ready⟩ := by
  have hready : (fun u => ready u || Core.creates s s' u) = ready := by
    funext u
    rw [creates_of_step h (.inl hi), Bool.or_false]
  have hstep := CoreStep.run (p := p) (c := ⟨s, ready⟩) (l := (t, i)) hsched h
  rwa [show (Core.mk s ready).ready = ready from rfl, show (Core.mk s ready).base = s from rfl,
    hready] at hstep

private theorem run_act {s : State} {w : Backend} {ready : Thread → Bool} {a : Action}
    {code rest : Code} (hsched : Core.Schedules p ⟨s, ready⟩ t) (hst : s.code t = .act a :: rest)
    (hex : Performs max t s.shared a w code) (ha : ∀ again id, a ≠ .ensureWorker again id) :
    (core max p).step ⟨s, ready⟩ (.run (t, .act a)) ⟨s.perform t w (code ++ rest), ready⟩ :=
  run_step hsched (.act hst hex) fun again id hi => ha again id (Instr.act.inj hi)

private theorem run_lock {s : State} {ready : Thread → Bool} {m : Lock} {rest : Code}
    (hsched : Core.Schedules p ⟨s, ready⟩ t) (hst : s.code t = .lock m :: rest)
    (hfree : s.holder m = none) :
    (core max p).step ⟨s, ready⟩ (.run (t, .lock m)) ⟨s.take t m rest, ready⟩ :=
  run_step hsched (.lock hst hfree) nofun

private theorem run_unlock {s : State} {ready : Thread → Bool} {m : Lock} {rest : Code}
    (hsched : Core.Schedules p ⟨s, ready⟩ t) (hst : s.code t = .unlock m :: rest) :
    (core max p).step ⟨s, ready⟩ (.run (t, .unlock m)) ⟨s.release t m rest, ready⟩ :=
  run_step hsched (.unlock hst) nofun

private theorem orderly_of_free (h : c.base.holder .control = none) : Orderly p c e c' := by
  intro t i _ _ _ u hu
  cases h.symm.trans hu

private theorem orderly_elsewhere {i : Instr Lock Action} (h : ¬ c'.AtSlot t) :
    Orderly p c (.run (t, i)) c' := by
  intro u j he _ hslot
  cases he
  exact absurd hslot h

end Laws

def lowAndHigh : Priorities where
  maxPriorities := 2
  task n := if n = 0 then 0 else 1
  task_le n := by split <;> simp

def onlyLow (t : Thread) : Bool := t = .task 0

private theorem low_runs {s : State} : Core.Schedules lowAndHigh ⟨s, onlyLow⟩ (.task 0) := by
  refine ⟨rfl, fun u hu => ?_⟩
  obtain rfl : u = .task 0 := of_decide_eq_true hu
  exact le_rfl

private theorem high_runs {s : State} :
    Core.Schedules lowAndHigh ⟨s, Function.update onlyLow (.task 1) true⟩ (.task 1) := by
  refine ⟨rfl, fun u hu => ?_⟩
  cases u with
  | task n => exact lowAndHigh.task_le n
  | worker g => exact le_rfl

/-- Task 0 is inside `new` with the slot locked when task 1 becomes ready and calls `new`. -/
private theorem contended :
    ∃ c c', ((core 2 lowAndHigh).restrict (Orderly lowAndHigh)).Reachable c ∧
      (core 2 lowAndHigh).step c
        (.run (.task 1, .act (.acquire nanosecond .oneShot ⟨[]⟩))) c' ∧
      c.base.holder .control = some (.task 0) ∧ c'.AtSlot (.task 1) := by
  have hnew : ∀ h : Handles, Handles.Calls [] h (.request (.register nanosecond .oneShot ⟨[]⟩))
      (h.capture []) := fun h => .new (by simp) (by decide)
  have h : ((core 2 lowAndHigh).restrict (Orderly lowAndHigh)).Reachable
      ⟨start Duration.zero, onlyLow⟩ := .start ⟨⟨_, rfl⟩, fun g => rfl⟩
  have h := h.snoc ⟨run_act low_runs rfl (.applicationCalls .initializeRuntime) nofun,
    orderly_of_free rfl⟩
  have h := h.snoc ⟨run_act low_runs rfl (.beginInitialize rfl) nofun, orderly_of_free rfl⟩
  have h := h.snoc ⟨run_lock low_runs rfl rfl, orderly_of_free rfl⟩
  have h := h.snoc ⟨run_act low_runs rfl
    (@Performs.createService _ _ _ (fun _ => true) _ rfl rfl) nofun, orderly_elsewhere (by nofun)⟩
  have h := h.snoc ⟨run_unlock low_runs rfl, orderly_elsewhere (by nofun)⟩
  have h := h.snoc ⟨run_act low_runs rfl .cacheCapabilities nofun, orderly_of_free rfl⟩
  have h := h.snoc ⟨run_act low_runs rfl (.commitInitialize rfl) nofun, orderly_of_free rfl⟩
  have h := h.snoc ⟨run_act low_runs rfl (.application (hnew _)) nofun, orderly_of_free rfl⟩
  have h := h.snoc ⟨run_act low_runs rfl (.acquire rfl) nofun, orderly_of_free rfl⟩
  have h := h.snoc ⟨run_lock low_runs rfl rfl, orderly_of_free rfl⟩
  have h := h.snoc ⟨.wake (t := .task 1) trivial, by nofun⟩
  have h := h.snoc ⟨run_act high_runs rfl (.application (hnew _)) nofun,
    orderly_elsewhere (by nofun)⟩
  exact ⟨_, _, h, run_act high_runs rfl (.acquire rfl) nofun, rfl, _, rfl⟩

/-- The step that comes to the slot while task 0 has it is out of order. -/
theorem slot_orderly_iff_contended :
    ∃ c c', ((core 2 lowAndHigh).restrict (Orderly lowAndHigh)).Reachable c ∧
      ¬ Deadlocked 2 lowAndHigh c ∧
      (core 2 lowAndHigh).step c
        (.run (.task 1, .act (.acquire nanosecond .oneShot ⟨[]⟩))) c' ∧
      Deadlocked 2 lowAndHigh c' := by
  obtain ⟨c, c', hr, hs, hholder, hslot⟩ := contended
  obtain ⟨hnot, hiff⟩ := slot_orderly_iff hr
  refine ⟨c, c', hr, hnot, hs, not_not.1 fun hd => ?_⟩
  have hle := (hiff _ _ hs).2 hd _ _ rfl (by nofun) hslot _ hholder
  exact absurd hle (by decide)

/-- A task of the highest priority spins for ever on the slot that a task of the lowest priority
holds. -/
theorem slot_deadlocks :
    ∃ c, (core 2 lowAndHigh).Reachable c ∧ Deadlocked 2 lowAndHigh c := by
  obtain ⟨c, c', hr, hs, hholder, hslot⟩ := contended
  have hr' := (Lts.restrict_reachable hr).snoc hs
  refine ⟨c', hr', (inverted_of_not_orderly hs fun ho => ?_).deadlocked hr'⟩
  exact absurd (ho _ _ rfl (by nofun) hslot _ hholder) (by decide)

end OsalRust.FreeRtosBackend
