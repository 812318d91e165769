import OsalRust.FreeRtos.Construction

/-!
# Failure atomicity of the FreeRTOS constructors

What the world owes to a constructor at each of its steps: the native objects it holds, its
leases, the drops of its closure and its registry entries. Every step has one rule for it, and
each constructor is read off its steps. The one exception is `spawn`, whose event group is owned
by nobody while the task handle is allocated.
-/

namespace OsalRust.FreeRtos

open OsalRust.Framework OsalRust.Framework.Fallible OsalRust.Timer
open OsalRust.Runtime (RuntimeState lifecycleTable)

/-- What a constructor has done since `w`: it holds the objects of `held` and `leases` leases,
its closure was dropped `drops` times and never run, `entries` joined the registry, and every
other native object created since was deleted exactly once. -/
structure Since (w : World) (held : List (Nat × Native)) (leases drops : Nat)
    (entries : List TimerEntry) (w' : World) : Prop where
  runtime : w'.runtime = (w.runtime.1, w.runtime.2 + leases)
  liveCount : w'.liveCount = w.liveCount
  registry : w'.registry.timers = w.registry.timers ++ entries
  dropped : w'.dropped = w.dropped + drops
  ran : w'.ran = w.ran
  created : w.natives.created ≤ w'.natives.created
  older : ∀ n, n < w.natives.created → w'.natives.deletions n = w.natives.deletions n
  newer : ∀ n, w.natives.created ≤ n → n < w'.natives.created →
    w'.natives.deletions n = if n ∈ held.map Prod.fst then 0 else 1
  owned : ∀ h ∈ held, w.natives.created ≤ h.1 ∧ h.1 < w'.natives.created ∧
    w'.natives.kind h.1 = h.2
  nodup : (held.map Prod.fst).Nodup

theorem since_self (w : World) : Since w [] 0 0 [] w where
  runtime := rfl
  liveCount := rfl
  registry := (List.append_nil _).symm
  dropped := rfl
  ran := rfl
  created := Nat.le_refl _
  older _ _ := rfl
  newer n h h' := by omega
  owned := by simp
  nodup := by simp

section Rules

variable {p : Platform} {w : World} {held : List (Nat × Native)} {leases drops : Nat}
  {entries : List TimerEntry}

theorem Since.create {w' : World} (h : Since w held leases drops entries w') (k : Native) :
    Since w ((w'.natives.created, k) :: held) leases drops entries
      { w' with natives := w'.natives.create k } where
  runtime := h.runtime
  liveCount := h.liveCount
  registry := h.registry
  dropped := h.dropped
  ran := h.ran
  created := Nat.le_succ_of_le h.created
  older := h.older
  newer n hn hn' := by
    simp only [Natives.create] at hn' ⊢
    by_cases heq : n = w'.natives.created
    · simp [heq, w'.natives.unborn]
    · simp only [List.map_cons, List.mem_cons, heq, false_or]
      exact h.newer n hn (by omega)
  owned := by
    intro x hx
    simp only [Natives.create]
    rcases List.mem_cons.mp hx with rfl | hx
    · exact ⟨h.created, by simp, by simp⟩
    · obtain ⟨hlo, hhi, hkind⟩ := h.owned x hx
      exact ⟨hlo, by omega, by rw [Function.update_of_ne (by omega), hkind]⟩
  nodup := by
    rw [List.map_cons, List.nodup_cons]
    refine ⟨?_, h.nodup⟩
    intro hmem
    obtain ⟨x, hx, hfst⟩ := List.mem_map.mp hmem
    have := (h.owned x hx).2.1
    simp only at hfst
    omega

theorem Since.calls {w' : World} (h : Since w held leases drops entries w') (calls : Nat) :
    Since w held leases drops entries { w' with calls } :=
  ⟨h.runtime, h.liveCount, h.registry, h.dropped, h.ran, h.created, h.older, h.newer, h.owned,
    h.nodup⟩

theorem meets_create (k : Native) :
    Meets (Since w held leases drops entries) (create p k)
      (fun n w' => Since w ((n, k) :: held) leases drops entries w')
      (Since w held leases drops entries) := by
  intro w₁ h r w₂ hr
  unfold FreeRtos.create at hr
  split_ifs at hr with hg
  · obtain ⟨rfl, rfl⟩ := Prod.mk.inj (Option.some.inj hr)
    exact (h.create k).calls _
  · obtain ⟨rfl, rfl⟩ := Prod.mk.inj (Option.some.inj hr)
    exact h.calls _

theorem leads_delete (n : Nat) (k : Native) :
    Leads (Since w ((n, k) :: held) leases drops entries) (delete n)
      (Since w held leases drops entries) := by
  intro w₁ h w₂ hr
  unfold delete at hr
  split_ifs at hr with hn
  obtain rfl := Option.some.inj hr
  have hfresh : n ∉ held.map Prod.fst := (List.nodup_cons.mp h.nodup).1
  have hlive := h.newer n (h.owned _ (List.mem_cons_self)).1 hn
  refine ⟨h.runtime, h.liveCount, h.registry, h.dropped, h.ran, h.created, ?_, ?_, ?_,
    (List.nodup_cons.mp h.nodup).2⟩
  · intro m hm
    have hle := (h.owned _ (List.mem_cons_self)).1
    simp only at hle
    simp only [Natives.delete]
    rw [Function.update_of_ne (by omega)]
    exact h.older m hm
  · intro m hm hm'
    simp only [Natives.delete]
    by_cases heq : m = n
    · subst heq
      simp only [List.map_cons, List.mem_cons, true_or, if_true] at hlive
      rw [Function.update_self, hlive, if_neg hfresh]
    · have hnew := h.newer m hm hm'
      simp only [List.map_cons, List.mem_cons, heq, false_or] at hnew
      rw [Function.update_of_ne heq, hnew]
  · intro x hx
    exact h.owned x (List.mem_cons_of_mem _ hx)

theorem meets_acquireObject :
    Meets (Since w held leases drops entries) (acquireObject p)
      (fun _ => Since w held (leases + 1) drops entries) (Since w held leases drops entries) := by
  intro w₁ h r w₂ hr
  obtain ⟨⟨answer, rt⟩, htable, he⟩ := Option.map_eq_some_iff.mp hr
  obtain ⟨rfl, rfl⟩ := Prod.mk.inj he
  cases answer with
  | ok u =>
    obtain ⟨hrun, hrt⟩ := Runtime.acquire_of_table htable
    refine ⟨?_, h.liveCount, h.registry, h.dropped, h.ran, h.created, h.older, h.newer, h.owned,
      h.nodup⟩
    rw [hrt, ← hrun, h.runtime]
    rfl
  | error e =>
    obtain rfl := Runtime.error_of_table htable
    exact h

theorem leads_dropLease :
    Leads (Since w held (leases + 1) drops entries) (dropLease p)
      (Since w held leases drops entries) := by
  intro w₁ h w₂ hr
  obtain ⟨⟨answer, rt⟩, htable, rfl⟩ := Option.map_eq_some_iff.mp hr
  refine ⟨?_, h.liveCount, h.registry, h.dropped, h.ran, h.created, h.older, h.newer, h.owned,
    h.nodup⟩
  cases answer with
  | ok u =>
    obtain ⟨hrun, hrt⟩ := Runtime.leaseDrop_of_table htable
    rw [hrt, ← hrun, h.runtime]
    rfl
  | error e =>
    rw [h.runtime] at htable
    cases hst : w.runtime.1 <;> simp [lifecycleTable, hst, ← Nat.add_assoc] at htable

theorem leads_dropClosure :
    Leads (Since w held leases drops entries) dropClosure
      (Since w held leases (drops + 1) entries) := by
  intro w₁ h w₂ hr
  obtain rfl := Option.some.inj hr
  refine ⟨h.runtime, h.liveCount, h.registry, ?_, h.ran, h.created, h.older, h.newer, h.owned,
    h.nodup⟩
  rw [h.dropped]
  rfl

theorem meets_check {P : World → Prop} {α : Type} (r : Result α) :
    Meets P (lift r : Construct α) (fun _ => P) P :=
  meets_lift.conseq (fun _ h => h) (fun _ _ h => h.2) (fun _ h => h)

/-- A constructor that holds a lease: its early returns drop it. -/
theorem meets_leased {α : Type} {k : Unit → Construct α} {Q : α → World → Prop}
    (hk : Meets (Since w held (leases + 1) drops entries) (k ()) Q
      (Since w held (leases + 1) drops entries)) :
    Meets (Since w held leases drops entries)
      ((acquireObject p).owning (fun _ => dropLease p) k) Q
      (Since w held leases drops entries) :=
  meets_acquireObject.owning (fun _ => hk) (fun _ => leads_dropLease)

/-- A native object that a guard owns in the rest of the constructor. -/
theorem meets_guarded {α : Type} {k : Nat → Construct α} {Q : α → World → Prop} (kind : Native)
    (hk : ∀ n, Meets (Since w ((n, kind) :: held) leases drops entries) (k n) Q
      (Since w ((n, kind) :: held) leases drops entries)) :
    Meets (Since w held leases drops entries) ((create p kind).owning delete k) Q
      (Since w held leases drops entries) :=
  (meets_create kind).owning hk (fun n => leads_delete n kind)

end Rules

/-! ### The constructors and what they owe -/

inductive Constructor where
  | spawn (name : List UInt8) (stackSize priority : Nat)
  | queue (capacity messageSize : Nat)
  | countingSemaphore (maxCount initialCount : Nat)
  | mutex
  | timer (period : Duration) (mode : TimerMode) (callback : Callback)
  | timerService

namespace Constructor

def run (p : Platform) : Constructor → Construct Unit
  | .spawn name stackSize priority => (FreeRtos.spawn p name stackSize priority).bind fun _ => .pure ()
  | .queue capacity messageSize => (queueNew p capacity messageSize).bind fun _ => .pure ()
  | .countingSemaphore maxCount initialCount =>
    (countingSemaphoreNew p maxCount initialCount).bind fun _ => .pure ()
  | .mutex => (mutexNew p).bind fun _ => .pure ()
  | .timer period mode callback => (timerNew p period mode callback).bind fun _ => .pure ()
  | .timerService => (timerServiceNew p).bind fun _ => .pure ()

/-- The native objects of the constructed object, youngest first. -/
def natives : Constructor → List Native
  | .spawn _ _ _ => [.task, .eventGroup]
  | .queue _ _ => [.semaphore, .semaphore, .mutex]
  | .countingSemaphore _ _ => [.semaphore]
  | .mutex => [.mutex]
  | .timer _ _ _ => []
  | .timerService => [.eventGroup, .semaphore, .mutex]

/-- The leases of the constructed object: one for each managed object. The timer service is
internal and not counted. -/
def leases : Constructor → Nat
  | .timerService => 0
  | _ => 1

def closures : Constructor → Nat
  | .spawn _ _ _ | .timer _ _ _ => 1
  | _ => 0

def callbacks : Constructor → List (Option Callback)
  | .timer _ _ callback => [some callback]
  | _ => []

end Constructor

/-- The constructor is failure-atomic from `w`: an error leaves every native object it created
deleted exactly once, the leases, `LIVE_COUNT` and the registry entries as before and its closure
dropped once without running; a success leaves one lease and the object's own resources. -/
def FailureAtomic (p : Platform) (c : Constructor) (w : World) : Prop :=
  ∀ r w', c.run p w = some (r, w') →
    match r with
    | .error _ => Since w [] 0 c.closures [] w'
    | .ok () => ∃ held entries, Since w held c.leases 0 entries w' ∧
        held.map Prod.snd = c.natives ∧ entries.map TimerEntry.callback = c.callbacks

/-- `allocate_task_handle` fails: `NEXT_HANDLE` is `usize::MAX` or zero. -/
def HandlesExhausted (p : Platform) (w : World) : Prop :=
  2 ^ p.width.bits ≤ w.nextHandle + 1 ∨ w.nextHandle = 0

instance (p : Platform) (w : World) : Decidable (HandlesExhausted p w) :=
  inferInstanceAs (Decidable (_ ∨ _))

/-- The call is a `spawn` that gets as far as its task handle, and there is none left. -/
def RunsOutOfHandles (p : Platform) : Constructor → World → Prop
  | .spawn name stackSize _, w =>
    validateTaskConfig name stackSize = .ok () ∧ w.runtime.1 = .running ∧
      w.runtime.2 < p.maxLeases ∧ p.grants w.calls = true ∧ HandlesExhausted p w ∧
      ∃ caps words, w.capabilities = some caps ∧
        stackBytesToWords p.width stackSize caps.stackWordSize caps.minimalStackDepthWords
          caps.maxStackDepthWords = .ok words
  | _, _ => False

section Constructors

variable {p : Platform} {w : World}

theorem failureAtomic_of_meets {α : Type} {c : Constructor} {x : Construct α}
    (hrun : c.run p = x.bind fun _ => .pure ())
    (hx : Meets (· = w) x
      (fun _ w' => ∃ held entries, Since w held c.leases 0 entries w' ∧
        held.map Prod.snd = c.natives ∧ entries.map TimerEntry.callback = c.callbacks)
      (Since w [] 0 c.closures [])) : FailureAtomic p c w := by
  intro r w' h
  rw [hrun] at h
  have hmeets := hx.bind (k := fun _ => Fallible.pure ())
    (R := fun _ w' => ∃ held entries, Since w held c.leases 0 entries w' ∧
      held.map Prod.snd = c.natives ∧ entries.map TimerEntry.callback = c.callbacks)
    (fun _ => meets_pure fun _ h => h)
  have := hmeets w rfl r w' h
  cases r with
  | ok u => exact this
  | error e => exact this

theorem meets_from {α : Type} {x : Construct α} {Q : α → World → Prop} {E : World → Prop}
    (h : Meets (Since w [] 0 0 []) x Q E) : Meets (· = w) x Q E :=
  h.conseq (fun _ he => he ▸ since_self w) (fun _ _ hq => hq) (fun _ he => he)

theorem mutex_failureAtomic : FailureAtomic p .mutex w := by
  apply failureAtomic_of_meets (x := mutexNew p) rfl
  apply meets_from
  apply meets_leased
  exact (meets_create .mutex).conseq (fun _ h => h) (fun n _ h => ⟨_, _, h, rfl, rfl⟩) (fun _ h => h)

theorem countingSemaphore_failureAtomic (maxCount initialCount : Nat) :
    FailureAtomic p (.countingSemaphore maxCount initialCount) w := by
  apply failureAtomic_of_meets (x := countingSemaphoreNew p maxCount initialCount) rfl
  apply meets_from
  refine (meets_check _).bind fun _ => (meets_check _).bind fun _ => (meets_check _).bind fun _ => ?_
  apply meets_leased
  exact (meets_create .semaphore).conseq (fun _ h => h) (fun n _ h => ⟨_, _, h, rfl, rfl⟩)
    (fun _ h => h)

theorem queue_failureAtomic (capacity messageSize : Nat) :
    FailureAtomic p (.queue capacity messageSize) w := by
  apply failureAtomic_of_meets (x := queueNew p capacity messageSize) rfl
  apply meets_from
  refine (meets_check _).bind fun _ => (meets_check _).bind fun _ => (meets_check _).bind
    fun buffer => ?_
  apply meets_leased
  refine meets_guarded .mutex fun stateMutex => ?_
  refine meets_guarded .semaphore fun senderWake => ?_
  refine meets_guarded .semaphore fun receiverWake => ?_
  exact meets_pure fun _ h => ⟨_, _, h, rfl, rfl⟩

theorem timerService_failureAtomic : FailureAtomic p .timerService w := by
  apply failureAtomic_of_meets (x := timerServiceNew p) rfl
  apply meets_from
  refine (meets_create .mutex).bind fun registryMutex => ?_
  refine ((meets_create .semaphore).onError (leads_delete registryMutex .mutex)).bind
    fun wakeSem => ?_
  refine ((meets_create .eventGroup).onError ((leads_delete wakeSem .semaphore).comp
    (leads_delete registryMutex .mutex))).bind fun completionEg => ?_
  exact meets_pure fun _ h => ⟨_, _, h, rfl, rfl⟩

theorem register_entries (r : Registry) (period : Duration) (mode : TimerMode)
    (callback : Callback) (reserved : Bool) :
    (∃ id e, (r.register period mode callback reserved).1 = .ok id ∧
        (r.register period mode callback reserved).2.timers = r.timers ++ [e] ∧
        e.callback = some callback) ∨
      (∃ e, (r.register period mode callback reserved).1 = .error e ∧
        (r.register period mode callback reserved).2.timers = r.timers) := by
  unfold Registry.register
  cases TimerState.new period mode with
  | error e => exact .inr ⟨_, rfl, rfl⟩
  | ok state =>
    simp only
    split_ifs
    · exact .inr ⟨_, rfl, rfl⟩
    · exact .inl ⟨_, _, rfl, rfl, rfl⟩
    · exact .inr ⟨_, rfl, rfl⟩

theorem meets_register {leases drops : Nat} (period : Duration) (mode : TimerMode)
    (callback : Callback) :
    Meets (Since w [] leases drops []) (register p period mode callback)
      (fun _ w' => ∃ e, Since w [] leases drops [e] w' ∧ e.callback = some callback)
      (Since w [] leases drops []) := by
  intro w₁ h r w₂ hr
  have hsince {entries : List TimerEntry} {reg : Registry}
      (hreg : reg.timers = w₁.registry.timers ++ entries) :
      Since w [] leases drops entries { w₁ with registry := reg } := by
    refine ⟨h.runtime, h.liveCount, ?_, h.dropped, h.ran, h.created, h.older, h.newer, h.owned,
      h.nodup⟩
    rw [hreg, h.registry, List.append_nil]
  unfold register at hr
  split at hr
  · obtain ⟨rfl, rfl⟩ := Prod.mk.inj (Option.some.inj hr)
    exact h
  · obtain ⟨rfl, rfl⟩ := Prod.mk.inj (Option.some.inj hr)
    exact h
  · obtain ⟨rfl, rfl⟩ := Prod.mk.inj (Option.some.inj hr)
    rcases register_entries w₁.registry period mode callback p.reserved with
      ⟨id, e, hanswer, hreg, he⟩ | ⟨e, hanswer, hreg⟩
    · simp only [hanswer]
      exact ⟨e, hsince hreg, he⟩
    · simp only [hanswer]
      exact hsince (by rw [hreg, List.append_nil])

theorem timer_failureAtomic (period : Duration) (mode : TimerMode) (callback : Callback) :
    FailureAtomic p (.timer period mode callback) w := by
  apply failureAtomic_of_meets (x := timerNew p period mode callback) rfl
  apply meets_from
  refine Meets.onError (E := Since w [] 0 0 []) ?_ leads_dropClosure
  refine (meets_check _).bind fun _ => ?_
  apply meets_leased
  refine (meets_register period mode callback).conseq (fun _ h => h) ?_ (fun _ h => h)
  rintro _ w' ⟨e, h, he⟩
  exact ⟨[], [e], h, rfl, by simp [he, Constructor.callbacks]⟩

theorem meets_spawnTail {eventGroup : Nat} (caps : Capabilities) (name : List UInt8)
    (handle words priority : Nat) :
    Meets (Since w [(eventGroup, .eventGroup)] 1 0 [])
      ((Fallible.pure eventGroup).owning delete fun eventGroup =>
        (nameLength caps name).bind fun nameLen =>
        (taskCreate p nameLen words (mapNativePriority priority caps.maxPriorities)).bind fun task =>
        Fallible.pure (handle, eventGroup, task))
      (fun _ w' => ∃ task, Since w [(task, .task), (eventGroup, .eventGroup)] 1 0 [] w')
      (Since w [] 1 0 []) := by
  have hpure : Meets (Since w [(eventGroup, .eventGroup)] 1 0 [])
      (Fallible.pure eventGroup : Construct Nat)
      (fun n w' => n = eventGroup ∧ Since w [(eventGroup, .eventGroup)] 1 0 [] w')
      (Since w [] 1 0 []) := meets_pure fun _ h => ⟨rfl, h⟩
  refine hpure.owning (F := fun n w' => n = eventGroup ∧
    Since w [(eventGroup, .eventGroup)] 1 0 [] w') (fun n => ?_) (fun n => ?_)
  · refine Meets.bind (Q := fun _ w' => n = eventGroup ∧
      Since w [(eventGroup, .eventGroup)] 1 0 [] w') ?_ fun nameLen => ?_
    · unfold nameLength
      split
      · exact meets_panic
      · exact meets_pure fun _ h => h
    · refine Meets.bind (Q := fun task w' =>
        Since w [(task, .task), (eventGroup, .eventGroup)] 1 0 [] w') ?_ fun task => ?_
      · rintro w₁ ⟨hn, h⟩ r w₂ hr
        unfold taskCreate at hr
        split at hr
        · obtain ⟨rfl, rfl⟩ := Prod.mk.inj (Option.some.inj hr)
          exact h.create .task
        · obtain ⟨rfl, rfl⟩ := Prod.mk.inj (Option.some.inj hr)
          exact ⟨hn, h⟩
        · obtain ⟨rfl, rfl⟩ := Prod.mk.inj (Option.some.inj hr)
          exact ⟨hn, h⟩
      · exact meets_pure fun _ h => ⟨task, h⟩
  · rintro w₁ ⟨rfl, h⟩ w₂ hr
    exact leads_delete n .eventGroup w₁ h w₂ hr

theorem meets_spawnGroup {w₁ : World} (h₁ : Since w [] 1 0 [] w₁)
    (hok : p.grants w₁.calls = true → ¬ HandlesExhausted p w₁) (caps : Capabilities)
    (name : List UInt8) (words priority : Nat) :
    Meets (· = w₁)
      ((create p .eventGroup).bind fun eventGroup =>
        (allocateTaskHandle p).bind fun handle =>
        (Fallible.pure eventGroup).owning delete fun eventGroup =>
        (nameLength caps name).bind fun nameLen =>
        (taskCreate p nameLen words (mapNativePriority priority caps.maxPriorities)).bind fun task =>
        Fallible.pure (handle, eventGroup, task))
      (fun _ w' => ∃ task eventGroup,
        Since w [(task, .task), (eventGroup, .eventGroup)] 1 0 [] w')
      (Since w [] 1 0 []) := by
  refine Meets.bind (Q := fun n w' => Since w [(n, .eventGroup)] 1 0 [] w' ∧
    ¬ HandlesExhausted p w') ?_ fun eventGroup => ?_
  · rintro _ rfl r w' hr
    have hsince := meets_create .eventGroup _ h₁ r w' hr
    cases r with
    | error e => exact hsince
    | ok n =>
      refine ⟨hsince, ?_⟩
      unfold FreeRtos.create at hr
      split_ifs at hr with hg
      · obtain ⟨-, rfl⟩ := Prod.mk.inj (Option.some.inj hr)
        exact hok hg
      · cases hr
  · refine Meets.bind (Q := fun _ w' => Since w [(eventGroup, .eventGroup)] 1 0 [] w') ?_
      fun handle => (meets_spawnTail caps name handle words priority).conseq (fun _ h => h)
        (fun _ _ ⟨task, h⟩ => ⟨task, eventGroup, h⟩) (fun _ h => h)
    rintro w₂ ⟨h, hleft⟩ r w₃ hr
    unfold allocateTaskHandle at hr
    simp only [HandlesExhausted, not_or] at hleft
    rw [if_neg hleft.1] at hr
    simp only [hleft.2, if_false] at hr
    obtain ⟨rfl, rfl⟩ := Prod.mk.inj (Option.some.inj hr)
    exact ⟨h.runtime, h.liveCount, h.registry, h.dropped, h.ran, h.created, h.older, h.newer,
      h.owned, h.nodup⟩

theorem meets_acquireObject_from :
    Meets (· = w) (acquireObject p)
      (fun _ w' => w.runtime.1 = .running ∧ w.runtime.2 < p.maxLeases ∧
        w' = { w with runtime := (.running, w.runtime.2 + 1) }) (Since w [] 0 0 []) := by
  rintro _ rfl r w' hr
  have hsince := meets_acquireObject _ (since_self _) r w' hr
  obtain ⟨⟨answer, rt⟩, htable, he⟩ := Option.map_eq_some_iff.mp hr
  obtain ⟨rfl, rfl⟩ := Prod.mk.inj he
  cases answer with
  | ok u =>
    obtain ⟨hrun, rfl⟩ := Runtime.acquire_of_table htable
    refine ⟨hrun, ?_, rfl⟩
    by_contra hle
    rw [← Prod.mk.eta (p := World.runtime _), hrun] at htable
    simp [lifecycleTable, hle] at htable
  | error e => exact hsince

theorem spawn_failureAtomic {name : List UInt8} {stackSize priority : Nat}
    (h : ¬ RunsOutOfHandles p (.spawn name stackSize priority) w) :
    FailureAtomic p (.spawn name stackSize priority) w := by
  apply failureAtomic_of_meets (x := spawn p name stackSize priority) rfl
  refine Meets.onError (E := Since w [] 0 0 []) ?_ leads_dropClosure
  refine Meets.bind (Q := fun _ w' => validateTaskConfig name stackSize = .ok () ∧ w' = w)
    ?_ fun _ => ?_
  · exact meets_lift.conseq (fun _ h => h) (fun _ _ h => h) (fun _ he => he ▸ since_self w)
  apply Meets.of_fact
  intro hvalid
  refine meets_acquireObject_from.owning (F := fun _ => Since w [] 1 0 []) (fun _ => ?_)
    (fun _ => leads_dropLease)
  apply Meets.of_fact
  intro hrun
  apply Meets.of_fact
  intro hmax
  have hleased : Since w [] 1 0 [] { w with runtime := (.running, w.runtime.2 + 1) } := by
    have hself := since_self w
    exact ⟨by rw [hrun], hself.liveCount, hself.registry, hself.dropped, hself.ran, hself.created,
      hself.older, hself.newer, hself.owned, hself.nodup⟩
  refine Meets.bind (Q := fun caps w' => w.capabilities = some caps ∧
    w' = { w with runtime := (.running, w.runtime.2 + 1) }) ?_ fun caps => ?_
  · rintro _ rfl r w' hr
    obtain ⟨caps, hcaps, he⟩ := Option.map_eq_some_iff.mp hr
    obtain ⟨rfl, rfl⟩ := Prod.mk.inj he
    exact ⟨hcaps, rfl⟩
  apply Meets.of_fact
  intro hcaps
  refine Meets.bind (Q := fun words w' => stackBytesToWords p.width stackSize caps.stackWordSize
      caps.minimalStackDepthWords caps.maxStackDepthWords = .ok words ∧
    w' = { w with runtime := (.running, w.runtime.2 + 1) }) ?_ fun words => ?_
  · exact meets_lift.conseq (fun _ h => h) (fun _ _ h => h) (fun _ he => he ▸ hleased)
  apply Meets.of_fact
  intro hwords
  refine (meets_spawnGroup hleased ?_ caps name words priority).conseq (fun _ h => h) ?_
    (fun _ h => h)
  · intro hgrant hout
    exact h ⟨hvalid, hrun, hmax, hgrant, hout, caps, words, hcaps, hwords⟩
  · rintro _ w' ⟨task, eventGroup, hsince⟩
    exact ⟨_, _, hsince, rfl, rfl⟩

/-- The failing run: the event group that `spawn` created is never deleted. -/
theorem spawn_leaks {name : List UInt8} {stackSize priority : Nat}
    (h : RunsOutOfHandles p (.spawn name stackSize priority) w) :
    ∃ w', (Constructor.spawn name stackSize priority).run p w = some (.error .overflow, w') ∧
      w'.natives.created = w.natives.created + 1 ∧
      w'.natives.deletions w.natives.created = 0 := by
  obtain ⟨hvalid, hrun, hmax, hgrant, hout, caps, words, hcaps, hwords⟩ := h
  obtain ⟨⟨state, count⟩, capabilities, nextHandle, liveCount, slot, registry, natives, calls,
    dropped, ran⟩ := w
  simp only at hrun hmax hgrant hcaps
  subst hrun hcaps
  rcases hout with hfull | hzero
  · refine ⟨⟨(.running, count), some caps, nextHandle, liveCount, slot, registry,
      natives.create .eventGroup, calls + 1, dropped + 1, ran⟩, ?_, rfl,
      natives.unborn _ (Nat.le_refl _)⟩
    simp only at hfull
    simp [Constructor.run, spawn, Fallible.bind, Fallible.onError, Fallible.owning, Fallible.lift,
      hvalid, acquireObject, lifecycleTable, hmax, capabilities, hwords, create, hgrant,
      allocateTaskHandle, hfull, dropLease, dropClosure]
  · refine ⟨⟨(.running, count), some caps, 1, liveCount, slot, registry,
      natives.create .eventGroup, calls + 1, dropped + 1, ran⟩, ?_, rfl,
      natives.unborn _ (Nat.le_refl _)⟩
    simp only at hzero
    subst hzero
    have hroom : ¬ 2 ^ p.width.bits ≤ 1 := by
      have := Nat.one_lt_two_pow (n := p.width.bits) (by have := p.width.ge; omega)
      omega
    simp [Constructor.run, spawn, Fallible.bind, Fallible.onError, Fallible.owning, Fallible.lift,
      hvalid, acquireObject, lifecycleTable, hmax, capabilities, hwords, create, hgrant,
      allocateTaskHandle, hroom, dropLease, dropClosure]

theorem not_failureAtomic_of_runsOut {name : List UInt8} {stackSize priority : Nat}
    (h : RunsOutOfHandles p (.spawn name stackSize priority) w) :
    ¬ FailureAtomic p (.spawn name stackSize priority) w := by
  intro hatomic
  obtain ⟨w', hrun, hcreated, hlive⟩ := spawn_leaks h
  have hsince : Since w [] 0 1 [] w' := hatomic _ w' hrun
  have hdeleted := hsince.newer w.natives.created (Nat.le_refl _) (by omega)
  simp [hlive] at hdeleted

end Constructors

/-- For all parameters, every state of the world and every pattern of answers: a constructor is
failure-atomic unless it is a `spawn` that reaches its task handle when `NEXT_HANDLE` has none
left. -/
theorem constructors_failureAtomic_iff (p : Platform) (c : Constructor) (w : World) :
    FailureAtomic p c w ↔ ¬ RunsOutOfHandles p c w := by
  cases c with
  | spawn name stackSize priority =>
    constructor
    · intro hatomic hout
      exact not_failureAtomic_of_runsOut hout hatomic
    · exact spawn_failureAtomic
  | queue capacity messageSize => simp [RunsOutOfHandles, queue_failureAtomic]
  | countingSemaphore maxCount initialCount =>
    simp [RunsOutOfHandles, countingSemaphore_failureAtomic]
  | mutex => simp [RunsOutOfHandles, mutex_failureAtomic]
  | timer period mode callback => simp [RunsOutOfHandles, timer_failureAtomic]
  | timerService => simp [RunsOutOfHandles, timerService_failureAtomic]

def lastHandleUsed : World := { freshWorld with nextHandle := 2 ^ 64 - 1 }

theorem spawn_loses_event_group :
    ¬ FailureAtomic generousPlatform (.spawn [] 4096 1) lastHandleUsed :=
  not_failureAtomic_of_runsOut ⟨rfl, rfl, by decide, rfl, .inl (by decide),
    ⟨4, 128, 65535, 5, 16⟩, 1024, rfl, rfl⟩

end OsalRust.FreeRtos
