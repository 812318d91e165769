import OsalRust.Framework.LockDiscipline
import OsalRust.Timer.Registry

/-!
# FreeRTOS timer service

Tasks and the timer worker over the two locks of the service: the spin lock around the service
slot, which a task holds only to look the service up, and the registry mutex. The service is
shared by counted references; the worker is created by the first `start` or `reset`, and
`shutdown` stops it. The model runs from `initialize` to the end of the service, and `shutdown`
may be called at any time, whether or not timers are alive.

The service takes callbacks out of the registry and drops them after the mutex. The one
exception is a registration that fails with the mutex held: its closure still owns the callback.
-/

namespace OsalRust.FreeRtosTimer

open OsalRust OsalRust.Framework OsalRust.Timer

inductive Lock where
  | control
  | registry
  deriving DecidableEq

inductive Thread where
  | task (n : Nat)
  | worker
  deriving DecidableEq

/-- `ServiceSlot`. The worker handle of a running service is present once it has been
created. -/
inductive Slot where
  | stopped
  | running (worker : Bool)
  | stopping
  deriving DecidableEq

/-- What the tasks share: the slot, the `TimerService` with the count of its references, the
worker's life, the timer handles and the clock. -/
structure Service where
  slot : Slot
  registry : Registry
  refs : Nat
  created : Bool
  completed : Bool
  handles : Handles
  now : Duration

/-- The pieces of code between two lock operations: application code between its calls; in a
call, `ensure_worker`, cloning the service out of the slot (`extract`), and the closure of
`with_registry` before and after it may have asked the allocator (`request`, `serve`); the
destructors; the worker's loop with the callback it executes; and the phases of `shutdown`. -/
inductive Action where
  | application
  | ensureWorker (q : Request)
  | extract (q : Request)
  | request (q : Request)
  | serve (q : Request) (reserved : Bool)
  | dropService
  | adopt (id : Nat)
  | dropHandle (id : Nat)
  | dropCallback (callback : Callback)
  | worker
  | run
  | scan
  | wait
  | callback (id : Nat) (callback : Callback)
  | restore (id : Nat) (callback : Callback)
  | complete
  | preflight
  | stop
  | checkTimers (worker : Bool)
  | stopping (worker : Bool)
  | awaitCompletion (worker : Bool)
  | cleanUp

abbrev Code := List (Instr Lock Action)

def withRegistry (q : Request) : Code := [.lock .control, .act (.extract q)]

/-- The calls of `timer_service`: `start` and `reset` ensure that there is a worker. -/
def api : Request → Code
  | .start id => [.lock .control, .act (.ensureWorker (.start id))]
  | .reset id => [.lock .control, .act (.ensureWorker (.reset id))]
  | q => withRegistry q

def intend : Intent → Code
  | .idle => []
  | .request q => api q
  | .dropHandle id => [.act (.dropHandle id)]
  | .dropCallback callback => [.act (.dropCallback callback)]

/-- `with_registry` without a running service: its closure is dropped, and a registration's
callback with it, after the spin lock. -/
def turnDown : Request → Code
  | .register _ _ callback => [.unlock .control, .act (.dropCallback callback)]
  | _ => [.unlock .control]

/-- The rest of `with_registry` and of its caller. The closure of a refused registration drops
the callback when it returns, before the mutex is given back; `deregister` drops what it took
out at the very end. -/
def finish : Outcome → Code
  | .done => [.unlock .registry, .act .dropService]
  | .registered id => [.unlock .registry, .act .dropService, .act (.adopt id)]
  | .refused callback => [.act (.dropCallback callback), .unlock .registry, .act .dropService]
  | .removed none => [.unlock .registry, .act .dropService]
  | .removed (some callback) =>
    [.unlock .registry, .act .dropService, .act (.dropCallback callback)]

/-- What `run` does with the `ServiceAction` of a scan. -/
def dispatch : Registry.Selection → Code
  | .dispatch id callback => [.unlock .registry, .act (.callback id callback)]
  | .rescan => [.unlock .registry, .act .run]
  | .none => [.unlock .registry, .act .wait, .act .run]

/-- The end of `dispatch_one`. -/
def giveUp : Option Callback → Code
  | none => [.unlock .registry, .act .run]
  | some callback => [.unlock .registry, .act (.dropCallback callback), .act .run]

def dropAll (callbacks : List Callback) : Code :=
  callbacks.map fun callback => .act (.dropCallback callback)

/-- The actions of the tasks and of the worker. Every reading of the clock is at or after the
last one; the answers of the scheduler, of the allocator and of the task creation are the
environment's. -/
inductive Performs : Exec Thread Lock Action Service
  | application {t : Thread} {w : Service} {i : Intent} {h : Handles} :
      Handles.Calls [] w.handles i h →
      Performs t w .application { w with handles := h } (intend i ++ [.act .application])
  | shutdown {t : Thread} {w : Service} :
      Performs t w .application w [.lock .control, .act .preflight, .act .application]
  | ensureWorker {t : Thread} {w : Service} {q : Request} : w.slot = .running true →
      Performs t w (.ensureWorker q) w (.unlock .control :: withRegistry q)
  | createWorker {t : Thread} {w : Service} {q : Request} : w.slot = .running false →
      Performs t w (.ensureWorker q)
        { w with slot := .running true, refs := w.refs + 1, created := true }
        (.unlock .control :: withRegistry q)
  | noWorker {t : Thread} {w : Service} {q : Request} :
      Performs t w (.ensureWorker q) w [.unlock .control]
  | extract {t : Thread} {w : Service} {q : Request} {worker : Bool} :
      w.slot = .running worker →
      Performs t w (.extract q) { w with refs := w.refs + 1 }
        [.unlock .control, .lock .registry, .act (.request q)]
  | turnDown {t : Thread} {w : Service} {q : Request} : (∀ worker, w.slot ≠ .running worker) →
      Performs t w (.extract q) w (turnDown q)
  | request {t : Thread} {w : Service} {q : Request} (reserved : Bool) :
      Performs t w (.request q) w [.act (.serve q reserved)]
  | serve {t : Thread} {w : Service} {q : Request} {reserved : Bool} {now : Duration} :
      w.now ≤ now →
      Performs t w (.serve q reserved)
        { w with registry := (w.registry.serve now reserved q).2, now }
        (finish (w.registry.serve now reserved q).1)
  | dropService {t : Thread} {w : Service} : w.refs ≠ 1 →
      Performs t w .dropService { w with refs := w.refs - 1 } []
  | destroy {t : Thread} {w : Service} : w.refs = 1 →
      Performs t w .dropService
        { w with refs := 0, registry := { w.registry with timers := [] } }
        (dropAll (w.registry.timers.filterMap (·.callback)))
  | adopt {t : Thread} {w : Service} {id : Nat} :
      Performs t w (.adopt id) { w with handles := w.handles.adopt id } []
  | dropClone {t : Thread} {w : Service} {id : Nat} : 1 < w.handles.strong id →
      Performs t w (.dropHandle id) { w with handles := w.handles.release id } []
  | dropLast {t : Thread} {w : Service} {id : Nat} : w.handles.strong id = 1 →
      Performs t w (.dropHandle id) { w with handles := w.handles.release id }
        (api (.deregister id))
  | dropCallback {t : Thread} {w : Service} {callback : Callback} :
      Performs t w (.dropCallback callback) w
        (callback.captures.map fun id => .act (.dropHandle id))
  | worker {t : Thread} {w : Service} : w.created = true → Performs t w .worker w [.act .run]
  | run {t : Thread} {w : Service} : Performs t w .run w [.lock .registry, .act .scan]
  | scan {t : Thread} {w : Service} {now : Duration} {selection : Registry.Selection}
      {r : Registry} : w.registry.stopRequested = false → w.now ≤ now →
      w.registry.retain.2.select now = .ok (selection, r) →
      Performs t w .scan { w with registry := r, now }
        (dropAll w.registry.retain.1 ++ dispatch selection)
  | scanStop {t : Thread} {w : Service} : w.registry.stopRequested = true →
      Performs t w .scan { w with registry := w.registry.retain.2 }
        (dropAll w.registry.retain.1 ++ [.unlock .registry, .act .complete, .act .dropService])
  | wait {t : Thread} {w : Service} : Performs t w .wait w []
  | complete {t : Thread} {w : Service} : Performs t w .complete { w with completed := true } []
  | callbackCalls {t : Thread} {w : Service} {id : Nat} {callback : Callback} {i : Intent}
      {h : Handles} : Handles.Calls callback.captures w.handles i h →
      Performs t w (.callback id callback) { w with handles := h }
        (intend i ++ [.act (.callback id callback)])
  | callbackShutdown {t : Thread} {w : Service} {id : Nat} {callback : Callback} :
      Performs t w (.callback id callback) w
        [.lock .control, .act .preflight, .act (.callback id callback)]
  | callbackYields {t : Thread} {w : Service} {id captured : Nat} {callback : Callback} :
      captured ∈ callback.captures →
      Performs t w (.callback id callback) { w with handles := w.handles.gain captured }
        [.act (.callback id ⟨callback.captures.erase captured⟩)]
  | callbackCaptures {t : Thread} {w : Service} {id captured : Nat} {callback : Callback} :
      0 < w.handles.owned captured →
      Performs t w (.callback id callback) { w with handles := w.handles.give captured }
        [.act (.callback id ⟨captured :: callback.captures⟩)]
  | callbackReturns {t : Thread} {w : Service} {id : Nat} {callback : Callback} :
      Performs t w (.callback id callback) w [.lock .registry, .act (.restore id callback)]
  | restore {t : Thread} {w : Service} {id : Nat} {callback : Callback} :
      Performs t w (.restore id callback)
        { w with registry := (w.registry.restore id callback).2 }
        (giveUp (w.registry.restore id callback).1)
  | preflightRefused {t : Thread} {w : Service} : w.slot = .running true ∨ w.slot = .stopping →
      Performs t w .preflight w [.unlock .control]
  | preflight {t : Thread} {w : Service} : w.slot ≠ .stopping →
      Performs t w .preflight w [.unlock .control, .lock .control, .act .stop]
  | stopRefused {t : Thread} {w : Service} :
      w.slot = .stopped ∨ w.slot = .stopping ∨ (w.slot = .running true ∧ t = .worker) →
      Performs t w .stop w [.unlock .control]
  | stop {t : Thread} {w : Service} {worker : Bool} : w.slot = .running worker →
      ¬ (worker = true ∧ t = .worker) →
      Performs t w .stop { w with refs := w.refs + 1 }
        [.lock .registry, .act (.checkTimers worker)]
  | checkTimersBusy {t : Thread} {w : Service} {worker : Bool} :
      w.registry.retain.2.timers ≠ [] →
      Performs t w (.checkTimers worker) { w with registry := w.registry.retain.2 }
        (dropAll w.registry.retain.1 ++
          [.unlock .registry, .act .dropService, .unlock .control])
  | checkTimers {t : Thread} {w : Service} {worker : Bool} :
      w.registry.retain.2.timers = [] →
      Performs t w (.checkTimers worker)
        { w with registry := { w.registry.retain.2 with stopRequested := true } }
        (dropAll w.registry.retain.1 ++ [.unlock .registry, .act (.stopping worker)])
  | stopping {t : Thread} {w : Service} {worker : Bool} :
      Performs t w (.stopping worker) { w with slot := .stopping }
        [.unlock .control, .act (.awaitCompletion worker)]
  | awaitCompletion {t : Thread} {w : Service} {worker : Bool} :
      (worker = true → w.completed = true) →
      Performs t w (.awaitCompletion worker) w
        [.act .dropService, .lock .control, .act .cleanUp]
  | cleanUp {t : Thread} {w : Service} : w.slot = .stopping →
      Performs t w .cleanUp { w with slot := .stopped } [.act .dropService, .unlock .control]

abbrev State := Threads Thread Lock Action Service

def start (now : Duration) : State where
  shared := { slot := .running false, registry := Registry.new, refs := 1, created := false,
              completed := false, handles := Handles.empty, now }
  holder := fun _ => none
  code := fun
    | .task _ => [.act .application]
    | .worker => [.act .worker]

def system : Lts State (Thread × Instr Lock Action) :=
  Threads.system Performs fun s => ∃ now, s = start now

/-! ## Where callbacks are dropped -/

def DropsUnlocked (s : State) : Prop :=
  ∀ t callback rest, s.code t = .act (.dropCallback callback) :: rest →
    s.holder .registry ≠ some t

def NoReentry (s : State) : Prop :=
  ∀ t rest, s.code t = .lock .registry :: rest → s.holder .registry ≠ some t

/-- A registration that finds room for its entry and an identifier; any other action. -/
def KeepsCallback (w : Service) : Action → Prop
  | .serve (.register _ _ _) reserved => reserved = true ∧ w.registry.nextId < u64Max
  | _ => True

def kept : Lts State (Thread × Instr Lock Action) :=
  system.restrict (Discipline.AllowedStep KeepsCallback)

/-- The registry mutex is held for single closures. The spin lock is not tracked: the last
reference to the service, and with it the registry, may well be dropped under it. -/
def lockOrder : Discipline Lock Action where
  tracked := fun
    | .control => false
    | .registry => true
  rank := fun _ => 0
  valid := fun
    | .ensureWorker q | .extract q | .request q | .serve q _ => q.Valid
    | _ => True
  pre := fun
    | .request _ | .serve _ _ | .scan | .restore _ _ | .checkTimers _ => [.registry]
    | _ => []
  weight := fun
    | .request _ => 3
    | .serve _ _ | .scan | .restore _ _ | .checkTimers _ => 2
    | _ => 0
  budget := 3

private theorem typed_withRegistry {q : Request} (hq : q.Valid) :
    lockOrder.Typed [] (withRegistry q) := by
  simpa [withRegistry, lockOrder, Discipline.Typed] using hq

private theorem typed_api {q : Request} (hq : q.Valid) : lockOrder.Typed [] (api q) := by
  cases q with
  | start | reset => simpa [api, lockOrder, Discipline.Typed] using hq
  | register | stop | changePeriod | deregister => exact typed_withRegistry hq

private theorem typed_intend {captures : List Nat} {h h' : Handles} {i : Intent}
    (hc : Handles.Calls captures h i h') : lockOrder.Typed [] (intend i) := by
  cases i with
  | request q => exact typed_api hc.valid
  | idle => rfl
  | dropHandle id => simp [intend, lockOrder, Discipline.Typed]
  | dropCallback callback => simp [intend, lockOrder, Discipline.Typed]

private theorem typed_turnDown (q : Request) : lockOrder.Typed [] (turnDown q) := by
  cases q <;> simp [turnDown, lockOrder, Discipline.Typed]

private theorem typed_dispatch (selection : Registry.Selection) :
    lockOrder.Typed [.registry] (dispatch selection) := by
  cases selection <;> simp [dispatch, lockOrder, Discipline.Typed]

private theorem typed_giveUp (callback : Option Callback) :
    lockOrder.Typed [.registry] (giveUp callback) := by
  cases callback <;> simp [giveUp, lockOrder, Discipline.Typed]

private theorem finish_of_keepsCallback {w : Service} {q : Request} {reserved : Bool}
    (now : Duration) (hq : q.Valid) (hk : KeepsCallback w (.serve q reserved)) :
    ∃ rest, finish (w.registry.serve now reserved q).1 = .unlock .registry :: rest ∧
      lockOrder.Typed [] rest := by
  cases q with
  | register period mode callback =>
    change reserved = true ∧ w.registry.nextId < u64Max at hk
    rw [Registry.serve_register hq, if_pos hk]
    exact ⟨_, rfl, by simp [lockOrder, Discipline.Typed]⟩
  | deregister id =>
    rw [Registry.serve_deregister]
    cases w.registry.callbackOf id with
    | none => exact ⟨_, rfl, by simp [lockOrder, Discipline.Typed]⟩
    | some callback => exact ⟨_, rfl, by simp [lockOrder, Discipline.Typed]⟩
  | start | stop | reset | changePeriod =>
    exact ⟨_, rfl, by simp [lockOrder, Discipline.Typed]⟩

private theorem finish_of_not_keepsCallback {w : Service} {q : Request} {reserved : Bool}
    (now : Duration) (hq : q.Valid) (hk : ¬ KeepsCallback w (.serve q reserved)) :
    ∃ callback rest,
      finish (w.registry.serve now reserved q).1 = .act (.dropCallback callback) :: rest := by
  cases q with
  | register period mode callback =>
    change ¬ (reserved = true ∧ w.registry.nextId < u64Max) at hk
    rw [Registry.serve_register hq, if_neg hk]
    exact ⟨callback, _, rfl⟩
  | start | stop | reset | changePeriod | deregister => exact absurd trivial hk

theorem lockOrder_sound :
    lockOrder.Sound Performs (fun w => w.registry.Clean) KeepsCallback where
  keeps := by
    intro t w a w' code hW hk hv hp
    cases hp with
    | application hc => exact ⟨hW, (typed_intend hc).append ⟨trivial, rfl, rfl⟩⟩
    | callbackCalls hc => exact ⟨hW, (typed_intend hc).append ⟨trivial, rfl, rfl⟩⟩
    | ensureWorker => exact ⟨hW, typed_withRegistry hv⟩
    | createWorker => exact ⟨hW, typed_withRegistry hv⟩
    | extract =>
      exact ⟨hW, by simpa [lockOrder, Discipline.Typed, Discipline.cost] using hv⟩
    | turnDown => exact ⟨hW, typed_turnDown _⟩
    | request => exact ⟨hW, hv, rfl, rfl⟩
    | @serve _ _ q reserved now hnow =>
      obtain ⟨rest, he, hrest⟩ := finish_of_keepsCallback now hv hk
      rw [he]
      exact ⟨hW.serve q, by simpa [lockOrder, Discipline.Typed] using hrest⟩
    | destroy =>
      refine ⟨?_, Discipline.typed_acts (fun _ => ⟨trivial, rfl⟩) _⟩
      intro e he
      cases he
    | dropLast => exact ⟨hW, typed_api trivial⟩
    | dropCallback => exact ⟨hW, Discipline.typed_acts (fun _ => ⟨trivial, rfl⟩) _⟩
    | scan _ _ hs =>
      rw [hW.retain_fst]
      exact ⟨hW.retain.select hs, typed_dispatch _⟩
    | scanStop =>
      rw [hW.retain_fst]
      exact ⟨hW.retain, by simp [dropAll, lockOrder, Discipline.Typed]⟩
    | restore => exact ⟨hW.restore, typed_giveUp _⟩
    | checkTimersBusy =>
      rw [hW.retain_fst]
      exact ⟨hW.retain, by simp [dropAll, lockOrder, Discipline.Typed]⟩
    | checkTimers =>
      rw [hW.retain_fst]
      exact ⟨hW.retain, by simp [dropAll, lockOrder, Discipline.Typed]⟩
    | shutdown | noWorker | dropService | adopt | dropClone | worker | run | wait | complete
    | callbackShutdown | callbackYields | callbackCaptures | callbackReturns | preflightRefused
    | preflight | stopRefused | stop | stopping | awaitCompletion | cleanUp =>
      exact ⟨hW, by simp [lockOrder, Discipline.Typed, Discipline.cost]⟩
  cheaper := by
    intro t w a w' code hW hk hv hpre hp
    cases hp with
    | request => simp [lockOrder, Discipline.cost]
    | @serve _ _ q reserved now hnow =>
      obtain ⟨rest, he, hrest⟩ := finish_of_keepsCallback now hv hk
      rw [he]
      simp [lockOrder, Discipline.cost]
    | @scan _ _ _ selection =>
      rw [hW.retain_fst]
      cases selection <;> simp [dropAll, dispatch, lockOrder, Discipline.cost]
    | scanStop =>
      rw [hW.retain_fst]
      simp [dropAll, lockOrder, Discipline.cost]
    | @restore _ _ id callback =>
      cases (w.registry.restore id callback).1 <;> simp [giveUp, lockOrder, Discipline.cost]
    | checkTimersBusy =>
      rw [hW.retain_fst]
      simp [dropAll, lockOrder, Discipline.cost]
    | checkTimers =>
      rw [hW.retain_fst]
      simp [dropAll, lockOrder, Discipline.cost]
    | _ => exact absurd rfl hpre

theorem lawful_of_kept {s : State} (h : kept.Reachable s) :
    s.shared.registry.Clean ∧ lockOrder.Lawful s := by
  refine lockOrder_sound.lawful ?_ h
  rintro s ⟨now, rfl⟩
  refine ⟨Registry.clean_new, fun t => ⟨[], ?_, ?_, List.nodup_nil, ?_⟩⟩
  · cases t <;> simp [start, lockOrder, Discipline.Typed]
  · simp
  · simp [start]

private theorem dropsUnlocked_of_lawful {s : State} (hl : lockOrder.Lawful s) :
    DropsUnlocked s := by
  intro t callback rest hst
  exact hl.holder_ne_of_act hst rfl rfl

private theorem drops_of_not_keepsCallback {t : Thread} {w w' : Service} {a : Action} {code : Code}
    (hv : lockOrder.valid a) (hk : ¬ KeepsCallback w a) (hp : Performs t w a w' code) :
    ∃ b tail m, code = .act b :: tail ∧ (∃ callback, b = .dropCallback callback) ∧
      lockOrder.tracked m = true ∧ m ∈ lockOrder.pre a := by
  cases hp with
  | @serve _ _ q reserved now hnow =>
    obtain ⟨callback, tail, hf⟩ := finish_of_not_keepsCallback now hv hk
    exact ⟨_, _, .registry, hf, ⟨callback, rfl⟩, rfl, by simp [lockOrder]⟩
  | _ => exact absurd trivial hk

private theorem allowedStep_iff_dropsUnlocked {s s' : State} {l : Thread × Instr Lock Action}
    (h : kept.Reachable s) (hs : system.step s l s') :
    Discipline.AllowedStep KeepsCallback s l s' ↔ DropsUnlocked s' := by
  obtain ⟨hclean, hl⟩ := lawful_of_kept h
  constructor
  · intro ha
    exact dropsUnlocked_of_lawful (hl.step lockOrder_sound hclean hs ha).2
  · intro hd
    apply hl.allowedStep_of_unlocked drops_of_not_keepsCallback hs
    rintro t b rest hst ⟨callback, rfl⟩ m hm
    cases m with
    | control => cases hm
    | registry => exact hd t callback rest hst

/-- As long as every registration that reaches the registry finds room for its entry and an
identifier, no callback is dropped by a task that holds the registry mutex, and no task takes
the registry mutex while it holds it. A step that breaks the condition drops a callback with
the mutex held. -/
theorem callbacks_dropped_outside_registry {tr : List (Thread × Instr Lock Action)} {s : State}
    (h : kept.Run tr s) :
    DropsUnlocked s ∧ NoReentry s ∧
      ∀ l s', system.step s l s' →
        (Discipline.AllowedStep KeepsCallback s l s' ↔ DropsUnlocked s') := by
  obtain ⟨-, hl⟩ := lawful_of_kept h.reachable
  refine ⟨dropsUnlocked_of_lawful hl, ?_, ?_⟩
  · intro t rest hst
    exact hl.holder_ne_of_lock hst rfl
  · intro l s' hs
    exact allowedStep_iff_dropsUnlocked h.reachable hs

/-! ## Runs -/

section Runs

variable {s : State} {a : Action} {rest code : Code} {w w' : Service} {n : Nat} {inside : Bool}

/-- The service with one task at the given code, holding the registry mutex or nothing, and
every other thread where it starts. -/
def busy (w : Service) (n : Nat) (inside : Bool) (code : Code) : State where
  shared := w
  holder := fun
    | .control => none
    | .registry => if inside then some (.task n) else none
  code := Function.update (start w.now).code (.task n) code

private theorem busy_idle :
    busy w n false [.act .application] = { start w.now with shared := w } := by
  simp only [busy, start]
  congr 1
  · funext m
    cases m <;> rfl
  · funext t
    cases t with
    | worker => rfl
    | task k => by_cases hk : k = n <;> simp [Function.update, hk]

private theorem busy_step (hp : Performs (.task n) w a w' code) :
    system.step (busy w n inside (.act a :: rest)) (.task n, .act a)
      (busy w' n inside (code ++ rest)) := by
  have hst : (busy w n inside (.act a :: rest)).code (.task n) = .act a :: rest :=
    Function.update_self _ _ _
  have hstep : system.step _ _ _ := .act hst hp
  simpa [busy, Threads.perform, start] using hstep

private theorem kept_act (h : kept.Reachable (busy w n inside (.act a :: rest)))
    (hp : Performs (.task n) w a w' code) (hk : KeepsCallback w a) :
    kept.Reachable (busy w' n inside (code ++ rest)) :=
  h.snoc (M := kept) ⟨busy_step hp, fun _ ha => by cases ha; exact hk⟩

private theorem lookUp {q : Request} {worker : Bool} (hs : w.slot = .running worker) :
    ∃ tr, kept.Steps (busy w n inside (withRegistry q ++ rest)) tr
      (busy { w with refs := w.refs + 1 } n inside
        (.lock .registry :: .act (.request q) :: rest)) := by
  have hst : (busy w n inside (withRegistry q ++ rest)).code (.task n) =
      withRegistry q ++ rest := Function.update_self _ _ _
  have h₁ := (Lts.Steps.refl (M := kept) _).snoc ⟨.lock hst rfl, fun _ ha => by cases ha⟩
  have hst₁ := Function.update_self (.task n : Thread) (.act (.extract q) :: rest : Code)
    (busy w n inside (withRegistry q ++ rest)).code
  have h₂ := h₁.snoc (M := kept) ⟨.act hst₁ (.extract hs), fun _ ha => by cases ha; trivial⟩
  have h₃ := h₂.snoc (M := kept)
    ⟨.unlock (Function.update_self _ _ _), fun _ ha => by cases ha⟩
  refine ⟨_, Eq.subst (motive := kept.Steps _ _) ?_ h₃⟩
  simp only [Threads.take, Threads.perform, Threads.release, busy, Function.update_idem]
  congr 1
  funext m
  cases m <;> simp

private theorem kept_lookUp {q : Request} {worker : Bool}
    (h : kept.Reachable (busy w n inside (withRegistry q ++ rest)))
    (hs : w.slot = .running worker) :
    kept.Reachable (busy { w with refs := w.refs + 1 } n inside
      (.lock .registry :: .act (.request q) :: rest)) := by
  obtain ⟨tr, hsteps⟩ := lookUp hs
  exact h.steps hsteps

private theorem system_lookUp {q : Request} {worker : Bool}
    (h : system.Reachable (busy w n inside (withRegistry q ++ rest)))
    (hs : w.slot = .running worker) :
    system.Reachable (busy { w with refs := w.refs + 1 } n inside
      (.lock .registry :: .act (.request q) :: rest)) := by
  obtain ⟨tr, hsteps⟩ := lookUp hs
  exact h.steps (Lts.restrict_steps hsteps)

private theorem kept_enter (h : kept.Reachable (busy w n false (.lock .registry :: rest))) :
    kept.Reachable (busy w n true rest) := by
  have hst : (busy w n false (.lock .registry :: rest)).code (.task n) =
      .lock .registry :: rest := Function.update_self _ _ _
  have h₁ := h.snoc (M := kept) ⟨.lock hst rfl, fun _ ha => by cases ha⟩
  convert h₁ using 1
  simp only [Threads.take, busy, Function.update_idem]
  congr 1
  funext m
  cases m <;> simp

private theorem kept_leave (h : kept.Reachable (busy w n true (.unlock .registry :: rest))) :
    kept.Reachable (busy w n false rest) := by
  have hst : (busy w n true (.unlock .registry :: rest)).code (.task n) =
      .unlock .registry :: rest := Function.update_self _ _ _
  have h₁ := h.snoc (M := kept) ⟨.unlock hst, fun _ ha => by cases ha⟩
  convert h₁ using 1
  simp only [Threads.release, busy, Function.update_idem]
  congr 1
  funext m
  cases m <;> simp

private theorem kept_new {moved : List Nat} {period : Duration} {worker : Bool}
    (mode : TimerMode) (h : kept.Reachable (busy w n false [.act .application]))
    (hs : w.slot = .running worker) (hrefs : w.refs ≠ 0)
    (hm : ∀ id, moved.count id ≤ w.handles.owned id)
    (hp : period ≠ Duration.zero) (hid : w.registry.nextId < u64Max) :
    kept.Reachable (busy { w with
      registry := (w.registry.register period mode ⟨moved⟩ true).2
      handles := (w.handles.capture moved).adopt w.registry.nextId } n false
        [.act .application]) := by
  have hc : Handles.Calls [] w.handles (.request (.register period mode ⟨moved⟩))
      (w.handles.capture moved) := .new hm hp
  have h₁ := kept_act h (.application hc) trivial
  have h₂ := kept_enter (kept_lookUp h₁ hs)
  have h₃ := kept_act h₂ (.request true) trivial
  have h₄ := kept_act h₃ (.serve (Nat.le_refl _)) ⟨rfl, hid⟩
  rw [Registry.serve_register hp, if_pos ⟨rfl, hid⟩] at h₄
  have h₅ := kept_act (kept_leave h₄) (.dropService (by simpa using hrefs)) trivial
  exact kept_act h₅ .adopt trivial

def nanosecond : Duration := .fromNanos 1

def oneTimer : Service where
  slot := .running false
  registry := (Registry.new.register nanosecond .oneShot ⟨[]⟩ true).2
  refs := 1
  created := false
  completed := false
  handles := Handles.empty.adopt 1
  now := Duration.zero

def twoTimers : Service :=
  { oneTimer with
    registry := (oneTimer.registry.register nanosecond .oneShot ⟨[1]⟩ true).2
    handles := (oneTimer.handles.capture [1]).adopt 2 }

private theorem kept_oneTimer : kept.Reachable (busy oneTimer 0 false [.act .application]) := by
  have h : kept.Reachable (busy (start Duration.zero).shared 0 false [.act .application]) := by
    rw [busy_idle]
    exact Lts.Reachable.start ⟨_, rfl⟩
  exact kept_new .oneShot h rfl (by decide) (fun _ => Nat.zero_le _) (by decide) (by decide)

private theorem one_owned (id : Nat) : [1].count id ≤ oneTimer.handles.owned id := by
  by_cases h : id = 1
  · subst h
    decide
  · simp [Ne.symm h]

private theorem kept_twoTimers : kept.Reachable (busy twoTimers 0 false [.act .application]) :=
  kept_new .oneShot kept_oneTimer rfl (by decide) one_owned (by decide) (by decide)

/-- A registration without memory, of a callback that has captured the last handle of another
timer: the callback dies with the registry mutex held, and the task goes on to take it again. -/
theorem callbacks_dropped_inside_registry :
    (∃ tr s, system.Run tr s ∧ ¬ DropsUnlocked s) ∧ ∃ tr s, system.Run tr s ∧ ¬ NoReentry s := by
  have hnew : Handles.Calls [] oneTimer.handles (.request (.register nanosecond .oneShot ⟨[1]⟩))
      (oneTimer.handles.capture [1]) := .new one_owned (by decide)
  have h₁ := kept_act kept_oneTimer (.application hnew) trivial
  have h₂ := kept_act (kept_enter (kept_lookUp h₁ rfl)) (.request false) trivial
  have h₃ := (Lts.restrict_reachable h₂).snoc (busy_step (.serve (Nat.le_refl _)))
  have h₄ := h₃.snoc (busy_step .dropCallback)
  have h₅ := system_lookUp (h₄.snoc (busy_step (.dropLast rfl))) rfl
  constructor
  · obtain ⟨tr, hr⟩ := h₃
    refine ⟨tr, _, hr, fun hd => ?_⟩
    exact hd (.task 0) ⟨[1]⟩ _ rfl rfl
  · obtain ⟨tr, hr⟩ := h₅
    refine ⟨tr, _, hr, fun hd => ?_⟩
    exact hd (.task 0) _ rfl rfl

/-- Dropping the second timer drops its callback, with the last handle of the first, after the
registry mutex. -/
theorem callbacks_dropped_outside_registry_removed :
    ∃ tr s, kept.Run tr s ∧
      s.code (.task 0) = [.act (.dropCallback ⟨[1]⟩), .act .application] ∧
      DropsUnlocked s ∧ NoReentry s ∧
      ∀ l s', system.step s l s' →
        (Discipline.AllowedStep KeepsCallback s l s' ↔ DropsUnlocked s') := by
  have hdrop : Handles.Calls [] twoTimers.handles (.dropHandle 2) (twoTimers.handles.give 2) :=
    .drop (by decide)
  have h₁ := kept_act kept_twoTimers (.application hdrop) trivial
  have h₂ := kept_lookUp (kept_act h₁ (.dropLast rfl) trivial) rfl
  have h₃ := kept_act (kept_enter h₂) (.request true) trivial
  have h₄ := kept_act h₃ (.serve (Nat.le_refl _)) trivial
  have h₅ := kept_act (kept_leave h₄) (.dropService (by decide)) trivial
  obtain ⟨tr, hr⟩ := h₅
  exact ⟨tr, _, hr, rfl, callbacks_dropped_outside_registry hr⟩

end Runs

end OsalRust.FreeRtosTimer
