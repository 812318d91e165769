import OsalRust.Framework.LockDiscipline
import OsalRust.Timer.Registry

/-!
# POSIX timer service

Threads of the application, and the worker that executes callbacks, over the two mutexes of
the timer service: the control mutex around the service slot and the service mutex around the
registry. A lease keeps the service running while any timer handle exists, so the slot stays
`Running` and only its mutex matters here.

A callback owns the handles it captured, and dropping the last handle of a timer deregisters
it, which takes both mutexes. The service upholds this outside its locks when the worker gives
a callback up, but not when a timer is deregistered with its callback at rest and not when a
registration runs out of identifiers: there the callback dies inside `with_service`.
-/

namespace OsalRust.PosixTimer

open OsalRust OsalRust.Framework OsalRust.Timer

/-- The control mutex is a default pthread mutex, which its holder cannot take again. The service
mutex is an error-checking `PosixMutex`; calls take it inside the control mutex. -/
inductive Mutex where
  | control
  | service
  deriving DecidableEq

inductive Thread where
  | application (n : Nat)
  | worker
  deriving DecidableEq

structure Service where
  registry : Registry
  handles : Handles
  now : Duration

/-- The pieces of code between two lock operations: application code between its calls, the
closure that `with_service` runs (`request`), the end of `new` (`adopt`), the destructors, and
the worker's loop with the callback it executes. -/
inductive Action where
  | application
  | request (q : Request)
  | adopt (id : Nat)
  | dropHandle (id : Nat)
  | dropCallback (callback : Callback)
  | run
  | scan
  | wait
  | select
  | callback (id : Nat) (callback : Callback)
  | restore (id : Nat) (callback : Callback)

abbrev Code := List (Instr Mutex Action)

/-- `with_service`, up to the closure. -/
def withService (q : Request) : Code := [.lock .control, .lock .service, .act (.request q)]

/-- The guards of `with_service` and `with_control` go out of scope. -/
def leave : Code := [.unlock .service, .unlock .control]

def intend : Intent → Code
  | .idle => []
  | .request q => withService q
  | .dropHandle id => [.act (.dropHandle id)]
  | .dropCallback callback => [.act (.dropCallback callback)]

/-- The rest of `with_service`. The closure of a refused registration still owns the callback
when it returns, and `e.callback = None` drops the callback in place: both before the guards. -/
def finish : Outcome → Code
  | .done => leave
  | .registered id => leave ++ [.act (.adopt id)]
  | .refused callback => .act (.dropCallback callback) :: leave
  | .removed (some callback) => .act (.dropCallback callback) :: leave
  | .removed none => leave

/-- Waiting on the condition variable, which releases the service mutex meanwhile. -/
def pause : Code :=
  [.unlock .service, .act .wait, .lock .service, .unlock .service, .act .run]

/-- One iteration of `run` after the registry has been purged. -/
def iterate (r : Registry) (now : Duration) : Code :=
  match r.earliest with
  | none => pause
  | some deadline =>
    if deadline ≤ now then [.unlock .service, .lock .service, .act .select] else pause

def dispatch : Registry.Selection → Code
  | .dispatch id callback => [.unlock .service, .act (.callback id callback)]
  | .none | .rescan => [.unlock .service, .act .run]

/-- The end of `dispatch_one`: the guard, declared after the callback, is dropped first. -/
def giveUp : Option Callback → Code
  | none => [.unlock .service, .act .run]
  | some callback => [.unlock .service, .act (.dropCallback callback), .act .run]

def dropAll (callbacks : List Callback) : Code :=
  callbacks.map fun callback => .act (.dropCallback callback)

/-- The actions of the application threads and of the worker. Every reading of the clock is at
or after the last one. -/
inductive Performs : Exec Thread Mutex Action Service
  | application {t : Thread} {w : Service} {i : Intent} {h : Handles} :
      Handles.Calls [] w.handles i h →
      Performs t w .application { w with handles := h } (intend i ++ [.act .application])
  | request {t : Thread} {w : Service} {q : Request} {now : Duration} : w.now ≤ now →
      Performs t w (.request q)
        { w with registry := (w.registry.serve now true q).2, now }
        (finish (w.registry.serve now true q).1)
  | adopt {t : Thread} {w : Service} {id : Nat} :
      Performs t w (.adopt id) { w with handles := w.handles.adopt id } []
  | dropClone {t : Thread} {w : Service} {id : Nat} : 1 < w.handles.strong id →
      Performs t w (.dropHandle id) { w with handles := w.handles.release id } []
  | dropLast {t : Thread} {w : Service} {id : Nat} : w.handles.strong id = 1 →
      Performs t w (.dropHandle id) { w with handles := w.handles.release id }
        (withService (.deregister id))
  | dropCallback {t : Thread} {w : Service} {callback : Callback} :
      Performs t w (.dropCallback callback) w
        (callback.captures.map fun id => .act (.dropHandle id))
  | run {t : Thread} {w : Service} : Performs t w .run w [.lock .service, .act .scan]
  | stop {t : Thread} {w : Service} : w.registry.stopRequested = true →
      Performs t w .scan w [.unlock .service]
  | scan {t : Thread} {w : Service} {now : Duration} : w.registry.stopRequested = false →
      w.now ≤ now →
      Performs t w .scan { w with registry := w.registry.retain.2, now }
        (dropAll w.registry.retain.1 ++ iterate w.registry.retain.2 now)
  | wait {t : Thread} {w : Service} : Performs t w .wait w []
  | select {t : Thread} {w : Service} {now : Duration} {selection : Registry.Selection}
      {r : Registry} : w.now ≤ now → w.registry.select now = .ok (selection, r) →
      Performs t w .select { w with registry := r, now } (dispatch selection)
  | callbackCalls {t : Thread} {w : Service} {id : Nat} {callback : Callback} {i : Intent}
      {h : Handles} : Handles.Calls callback.captures w.handles i h →
      Performs t w (.callback id callback) { w with handles := h }
        (intend i ++ [.act (.callback id callback)])
  | callbackYields {t : Thread} {w : Service} {id captured : Nat} {callback : Callback} :
      captured ∈ callback.captures →
      Performs t w (.callback id callback) { w with handles := w.handles.gain captured }
        [.act (.callback id ⟨callback.captures.erase captured⟩)]
  | callbackCaptures {t : Thread} {w : Service} {id captured : Nat} {callback : Callback} :
      0 < w.handles.owned captured →
      Performs t w (.callback id callback) { w with handles := w.handles.give captured }
        [.act (.callback id ⟨captured :: callback.captures⟩)]
  | callbackReturns {t : Thread} {w : Service} {id : Nat} {callback : Callback} :
      Performs t w (.callback id callback) w [.lock .service, .act (.restore id callback)]
  | restore {t : Thread} {w : Service} {id : Nat} {callback : Callback} :
      Performs t w (.restore id callback)
        { w with registry := (w.registry.restore id callback).2 }
        (giveUp (w.registry.restore id callback).1)

abbrev State := Threads Thread Mutex Action Service

def start (now : Duration) : State where
  shared := { registry := Registry.new, handles := Handles.empty, now }
  holder := fun _ => none
  code := fun
    | .application _ => [.act .application]
    | .worker => [.act .run]

def system : Lts State (Thread × Instr Mutex Action) :=
  Threads.system Performs fun s => ∃ now, s = start now

/-! ## Where callbacks are dropped -/

def DropsUnlocked (s : State) : Prop :=
  ∀ t callback rest, s.code t = .act (.dropCallback callback) :: rest →
    ∀ m, s.holder m ≠ some t

def NoReentry (s : State) : Prop :=
  ∀ t m rest, s.code t = .lock m :: rest → s.holder m ≠ some t

/-- Whenever a mutex is held, some thread that holds one can take a step. -/
def Unblocked (s : State) : Prop :=
  ∀ m t, s.holder m = some t → ∃ u k l s', s.holder k = some u ∧ system.step s (u, l) s'

/-- The requests that leave no callback to be dropped: a registration while there are
identifiers, and a deregistration while the worker has the timer's callback out. -/
def KeepsCallback (w : Service) : Action → Prop
  | .request (.register _ _ _) => w.registry.nextId < u64Max
  | .request (.deregister id) => w.registry.callbackOf id = none
  | _ => True

def kept : Lts State (Thread × Instr Mutex Action) :=
  system.restrict (Discipline.AllowedStep KeepsCallback)

/-- A thread that holds a mutex without interruption takes at most four steps. -/
def BriefSections (s : State) : Prop :=
  ∀ t tr s', (kept.restrict fun s₁ _ _ => ∃ m, s₁.holder m = some t).Steps s tr s' →
    (tr.filter fun l => decide (l.1 = t)).length ≤ 4

def lockOrder : Discipline Mutex Action where
  tracked := fun _ => true
  rank := fun
    | .control => 0
    | .service => 1
  valid := fun
    | .request q => q.Valid
    | _ => True
  pre := fun
    | .request _ => [.service, .control]
    | .scan | .select | .restore _ _ => [.service]
    | _ => []
  weight := fun
    | .request _ => 3
    | .scan | .select | .restore _ _ => 2
    | _ => 0
  budget := 4

private theorem typed_leave {rest : Code} (h : lockOrder.Typed [] rest) :
    lockOrder.Typed [.service, .control] (leave ++ rest) := by
  simpa [leave, lockOrder, Discipline.Typed] using h

private theorem typed_withService {q : Request} (hq : q.Valid) :
    lockOrder.Typed [] (withService q) := by
  simpa [withService, lockOrder, Discipline.Typed, Discipline.cost] using hq

private theorem typed_intend {captures : List Nat} {h h' : Handles} {i : Intent}
    (hc : Handles.Calls captures h i h') : lockOrder.Typed [] (intend i) := by
  cases i with
  | request q => exact typed_withService hc.valid
  | idle => rfl
  | dropHandle id => simp [intend, lockOrder, Discipline.Typed]
  | dropCallback callback => simp [intend, lockOrder, Discipline.Typed]

private theorem typed_pause : lockOrder.Typed [.service] pause := by
  simp [pause, lockOrder, Discipline.Typed, Discipline.cost]

private theorem typed_iterate (r : Registry) (now : Duration) :
    lockOrder.Typed [.service] (iterate r now) := by
  rw [iterate]
  split
  · exact typed_pause
  split
  · simp [lockOrder, Discipline.Typed, Discipline.cost]
  · exact typed_pause

private theorem typed_dispatch (selection : Registry.Selection) :
    lockOrder.Typed [.service] (dispatch selection) := by
  cases selection <;> simp [dispatch, lockOrder, Discipline.Typed]

private theorem typed_giveUp (callback : Option Callback) :
    lockOrder.Typed [.service] (giveUp callback) := by
  cases callback <;> simp [giveUp, lockOrder, Discipline.Typed]

private theorem finish_of_keepsCallback {w : Service} {q : Request} (now : Duration)
    (hq : q.Valid) (hk : KeepsCallback w (.request q)) :
    ∃ rest, finish (w.registry.serve now true q).1 = leave ++ rest ∧ lockOrder.Typed [] rest := by
  cases q with
  | register period mode callback =>
    rw [Registry.serve_register hq, if_pos ⟨rfl, hk⟩]
    exact ⟨[.act (.adopt w.registry.nextId)], rfl, by simp [lockOrder, Discipline.Typed]⟩
  | deregister id =>
    rw [Registry.serve_deregister, show w.registry.callbackOf id = none from hk]
    exact ⟨[], rfl, rfl⟩
  | start | stop | reset | changePeriod => exact ⟨[], rfl, rfl⟩

theorem lockOrder_sound :
    lockOrder.Sound Performs (fun w => w.registry.Clean) KeepsCallback where
  keeps := by
    intro t w a w' code hW hk hv hp
    cases hp with
    | application hc =>
      exact ⟨hW, (typed_intend hc).append ⟨trivial, rfl, rfl⟩⟩
    | @request _ _ q now hnow =>
      obtain ⟨rest, he, hrest⟩ := finish_of_keepsCallback now hv hk
      rw [he]
      exact ⟨hW.serve q, typed_leave hrest⟩
    | adopt => exact ⟨hW, rfl⟩
    | dropClone => exact ⟨hW, rfl⟩
    | dropLast => exact ⟨hW, typed_withService trivial⟩
    | dropCallback => exact ⟨hW, Discipline.typed_acts (fun _ => ⟨trivial, rfl⟩) _⟩
    | run => exact ⟨hW, by simp [lockOrder, Discipline.Typed, Discipline.cost]⟩
    | stop => exact ⟨hW, by simp [lockOrder, Discipline.Typed]⟩
    | scan _ hnow =>
      rw [hW.retain_fst]
      exact ⟨hW.retain, typed_iterate _ _⟩
    | wait => exact ⟨hW, rfl⟩
    | select hnow hs => exact ⟨hW.select hs, typed_dispatch _⟩
    | callbackCalls hc => exact ⟨hW, (typed_intend hc).append ⟨trivial, rfl, rfl⟩⟩
    | callbackYields => exact ⟨hW, trivial, rfl, rfl⟩
    | callbackCaptures => exact ⟨hW, trivial, rfl, rfl⟩
    | callbackReturns => exact ⟨hW, by simp [lockOrder, Discipline.Typed, Discipline.cost]⟩
    | restore => exact ⟨hW.restore, typed_giveUp _⟩
  cheaper := by
    intro t w a w' code hW hk hv hpre hp
    cases hp with
    | @request _ _ q now hnow =>
      obtain ⟨rest, he, hrest⟩ := finish_of_keepsCallback now hv hk
      rw [he]
      simp [leave, lockOrder, Discipline.cost]
    | stop => simp [lockOrder, Discipline.cost]
    | scan _ hnow =>
      rw [hW.retain_fst]
      simp only [dropAll, List.map_nil, List.nil_append, iterate, pause]
      split <;> [skip; split] <;> simp [lockOrder, Discipline.cost]
    | @select _ _ _ selection _ hnow hs =>
      cases selection <;> simp [dispatch, lockOrder, Discipline.cost]
    | @restore _ _ id callback =>
      cases (w.registry.restore id callback).1 <;> simp [giveUp, lockOrder, Discipline.cost]
    | application | adopt | dropClone | dropLast | dropCallback | run | wait | callbackCalls
    | callbackYields | callbackCaptures | callbackReturns => exact absurd rfl hpre

/-- Whatever a thread does with a mutex held can be done at once. -/
theorem performs_of_locked (t : Thread) (w : Service) {a : Action} (hpre : lockOrder.pre a ≠ []) :
    ∃ w' code, Performs t w a w' code := by
  cases a with
  | request q => exact ⟨_, _, .request (Nat.le_refl w.now.nanos)⟩
  | scan =>
    cases hs : w.registry.stopRequested with
    | true => exact ⟨_, _, .stop hs⟩
    | false => exact ⟨_, _, .scan hs (Nat.le_refl w.now.nanos)⟩
  | select =>
    obtain ⟨selection, r, hs⟩ := w.registry.select_ok w.now
    exact ⟨_, _, .select (Nat.le_refl w.now.nanos) hs⟩
  | restore id callback => exact ⟨_, _, .restore⟩
  | application | adopt | dropHandle | dropCallback | run | wait | callback =>
    exact absurd rfl hpre

theorem lawful_start (now : Duration) :
    (start now).shared.registry.Clean ∧ lockOrder.Lawful (start now) := by
  refine ⟨Registry.clean_new, fun t => ⟨[], ?_, ?_, List.nodup_nil, ?_⟩⟩
  · cases t <;> simp [start, lockOrder, Discipline.Typed]
  · simp
  · simp [start]

theorem lawful_of_kept {s : State} (h : kept.Reachable s) :
    s.shared.registry.Clean ∧ lockOrder.Lawful s := by
  refine lockOrder_sound.lawful ?_ h
  rintro s ⟨now, rfl⟩
  exact lawful_start now

private theorem dropsUnlocked_of_lawful {s : State} (hl : lockOrder.Lawful s) :
    DropsUnlocked s := by
  intro t callback rest hst m
  exact hl.holder_ne_of_act hst rfl rfl

private theorem finish_of_not_keepsCallback {w : Service} {q : Request} (now : Duration)
    (hq : q.Valid) (hk : ¬ KeepsCallback w (.request q)) :
    ∃ callback, finish (w.registry.serve now true q).1 = .act (.dropCallback callback) :: leave := by
  cases q with
  | register period mode callback =>
    rw [Registry.serve_register hq, if_neg (fun h => hk h.2)]
    exact ⟨callback, rfl⟩
  | deregister id =>
    rw [Registry.serve_deregister]
    cases hc : w.registry.callbackOf id with
    | none => exact absurd hc hk
    | some callback => exact ⟨callback, rfl⟩
  | start | stop | reset | changePeriod => exact absurd trivial hk

private theorem drops_of_not_keepsCallback {t : Thread} {w w' : Service} {a : Action} {code : Code}
    (hv : lockOrder.valid a) (hk : ¬ KeepsCallback w a) (hp : Performs t w a w' code) :
    ∃ b tail m, code = .act b :: tail ∧ (∃ callback, b = .dropCallback callback) ∧
      lockOrder.tracked m = true ∧ m ∈ lockOrder.pre a := by
  cases hp with
  | @request _ _ q now hnow =>
    obtain ⟨callback, hf⟩ := finish_of_not_keepsCallback now hv hk
    exact ⟨_, _, .control, hf, ⟨callback, rfl⟩, rfl, by simp [lockOrder]⟩
  | _ => exact absurd trivial hk

private theorem allowedStep_iff_dropsUnlocked {s s' : State} {l : Thread × Instr Mutex Action}
    (h : kept.Reachable s) (hs : system.step s l s') :
    Discipline.AllowedStep KeepsCallback s l s' ↔ DropsUnlocked s' := by
  obtain ⟨hclean, hl⟩ := lawful_of_kept h
  constructor
  · intro ha
    exact dropsUnlocked_of_lawful (hl.step lockOrder_sound hclean hs ha).2
  · intro hd
    apply hl.allowedStep_of_unlocked drops_of_not_keepsCallback hs
    rintro t b rest hst ⟨callback, rfl⟩ m -
    exact hd t callback rest hst m

/-- As long as every registration finds an identifier and every deregistration finds the
timer's callback out with the worker, no callback is dropped with a mutex held, no thread takes
a mutex it holds, and no thread waits for a mutex forever: some holder of a mutex can always go
on, and a holder leaves its critical section within four steps. A step that breaks the
condition drops a callback with both mutexes held. -/
theorem callbacks_dropped_unlocked {tr : List (Thread × Instr Mutex Action)} {s : State}
    (h : kept.Run tr s) :
    DropsUnlocked s ∧ NoReentry s ∧ Unblocked s ∧ BriefSections s ∧
      ∀ l s', system.step s l s' →
        (Discipline.AllowedStep KeepsCallback s l s' ↔ DropsUnlocked s') := by
  obtain ⟨hclean, hl⟩ := lawful_of_kept h.reachable
  refine ⟨dropsUnlocked_of_lawful hl, ?_, ?_, ?_, ?_⟩
  · intro t m rest hst
    exact hl.holder_ne_of_lock hst rfl
  · intro m t hm
    refine hl.progress (fun _ => rfl) 1 ?_ (fun t w a _ hpre => performs_of_locked t w hpre) hm
    intro m
    cases m <;> decide
  · intro t tr' s' hsteps
    exact lockOrder_sound.section_short (fun _ ⟨m, hm⟩ => ⟨m, rfl, hm⟩) hclean hl hsteps
  · intro l s' hs
    exact allowedStep_iff_dropsUnlocked h.reachable hs

/-! ## Runs -/

section Runs

variable {s : State} {a : Action} {rest code : Code} {w w' : Service} {n : Nat}

private theorem kept_lock (t : Thread) (m : Mutex) (rest : Code) (h : kept.Reachable s)
    (hst : s.code t = .lock m :: rest) (hfree : s.holder m = none) :
    kept.Reachable (s.take t m rest) :=
  h.snoc ⟨.lock hst hfree, fun _ ha => by cases ha⟩

private theorem kept_unlock (t : Thread) (m : Mutex) (rest : Code) (h : kept.Reachable s)
    (hst : s.code t = .unlock m :: rest) : kept.Reachable (s.release t m rest) :=
  h.snoc ⟨.unlock hst, fun _ ha => by cases ha⟩

private theorem kept_perform (t : Thread) (rest : Code) (h : kept.Reachable s)
    (hst : s.code t = .act a :: rest) (hp : Performs t s.shared a w code)
    (hk : KeepsCallback s.shared a) : kept.Reachable (s.perform t w (code ++ rest)) :=
  h.snoc ⟨.act hst hp, fun _ ha => by cases ha; exact hk⟩

/-- The service with one application thread at the given code, holding both mutexes or none,
and every other thread where it starts. -/
def busy (w : Service) (n : Nat) (inside : Bool) (code : Code) : State where
  shared := w
  holder := fun _ => if inside then some (.application n) else none
  code := Function.update (start w.now).code (.application n) code

private theorem busy_idle : busy w n false [.act .application] = { start w.now with shared := w } := by
  simp only [busy, start]
  congr 1
  funext t
  cases t with
  | worker => rfl
  | application k => by_cases hk : k = n <;> simp [Function.update, hk]

private theorem busy_step {inside : Bool} (hp : Performs (.application n) w a w' code) :
    system.step (busy w n inside (.act a :: rest)) (.application n, .act a)
      (busy w' n inside (code ++ rest)) := by
  have hst : (busy w n inside (.act a :: rest)).code (.application n) = .act a :: rest :=
    Function.update_self _ _ _
  have hstep : system.step _ _ _ := .act hst hp
  simpa [busy, Threads.perform, start] using hstep

private theorem kept_act {inside : Bool} (h : kept.Reachable (busy w n inside (.act a :: rest)))
    (hp : Performs (.application n) w a w' code) (hk : KeepsCallback w a) :
    kept.Reachable (busy w' n inside (code ++ rest)) :=
  h.snoc (M := kept) ⟨busy_step hp, fun _ ha => by cases ha; exact hk⟩

private theorem kept_enter {q : Request}
    (h : kept.Reachable (busy w n false (withService q ++ rest))) :
    kept.Reachable (busy w n true (.act (.request q) :: rest)) := by
  have h₁ := kept_lock (.application n) .control (.lock .service :: .act (.request q) :: rest) h
    (Function.update_self _ _ _) rfl
  have h₂ := kept_lock (.application n) .service (.act (.request q) :: rest) h₁
    (Function.update_self _ _ _) rfl
  convert h₂ using 1
  simp only [Threads.take, busy, Function.update_idem]
  congr 1
  funext m
  cases m <;> simp

private theorem kept_leave (h : kept.Reachable (busy w n true (leave ++ rest))) :
    kept.Reachable (busy w n false rest) := by
  have h₁ := kept_unlock (.application n) .service (.unlock .control :: rest) h
    (Function.update_self _ _ _)
  have h₂ := kept_unlock (.application n) .control rest h₁ (Function.update_self _ _ _)
  convert h₂ using 1
  simp only [Threads.release, busy, Function.update_idem]
  congr 1
  funext m
  cases m <;> simp

private theorem kept_new {moved : List Nat} {period : Duration} (mode : TimerMode)
    (h : kept.Reachable (busy w n false [.act .application]))
    (hm : ∀ id, moved.count id ≤ w.handles.owned id)
    (hp : period ≠ Duration.zero) (hid : w.registry.nextId < u64Max) :
    kept.Reachable (busy { w with
      registry := (w.registry.register period mode ⟨moved⟩ true).2
      handles := (w.handles.capture moved).adopt w.registry.nextId } n false
        [.act .application]) := by
  have hc : Handles.Calls [] w.handles (.request (.register period mode ⟨moved⟩))
      (w.handles.capture moved) := .new hm hp
  have h₁ := kept_act h (.application hc) trivial
  have h₂ := kept_enter h₁
  have h₃ := kept_act h₂ (.request (Nat.le_refl _)) hid
  rw [Registry.serve_register hp, if_pos ⟨rfl, hid⟩] at h₃
  exact kept_act (kept_leave h₃) .adopt trivial

def nanosecond : Duration := .fromNanos 1

def oneTimer : Service where
  registry := (Registry.new.register nanosecond .oneShot ⟨[]⟩ true).2
  handles := Handles.empty.adopt 1
  now := Duration.zero

def twoTimers : Service where
  registry := (oneTimer.registry.register nanosecond .oneShot ⟨[1]⟩ true).2
  handles := (oneTimer.handles.capture [1]).adopt 2
  now := Duration.zero

private theorem kept_oneTimer : kept.Reachable (busy oneTimer 0 false [.act .application]) := by
  have h : kept.Reachable (busy (start Duration.zero).shared 0 false [.act .application]) := by
    rw [busy_idle]
    exact Lts.Reachable.start ⟨_, rfl⟩
  exact kept_new .oneShot h (fun _ => Nat.zero_le _) (by decide) (by decide)

private theorem one_owned (id : Nat) : [1].count id ≤ oneTimer.handles.owned id := by
  by_cases h : id = 1
  · subst h
    decide
  · simp [Ne.symm h]

private theorem kept_twoTimers : kept.Reachable (busy twoTimers 0 false [.act .application]) := by
  exact kept_new .oneShot kept_oneTimer one_owned (by decide) (by decide)

/-- Dropping the second timer runs the destructor of its callback, and so of the first timer's
last handle, inside `with_service`: the thread goes on to take the control mutex it holds. -/
theorem callbacks_dropped_locked :
    (∃ tr s, system.Run tr s ∧ ¬ DropsUnlocked s) ∧ ∃ tr s, system.Run tr s ∧ ¬ NoReentry s := by
  have hdrop : Handles.Calls [] twoTimers.handles (.dropHandle 2) (twoTimers.handles.give 2) :=
    .drop (by decide)
  have h₁ := kept_act kept_twoTimers (.application hdrop) trivial
  have h₂ := kept_enter (kept_act h₁ (.dropLast rfl) trivial)
  have h₃ := (Lts.restrict_reachable h₂).snoc (busy_step (.request (Nat.le_refl _)))
  have h₄ := h₃.snoc (busy_step .dropCallback)
  have h₅ := h₄.snoc (busy_step (.dropLast rfl))
  constructor
  · obtain ⟨tr, hr⟩ := h₃
    refine ⟨tr, _, hr, fun hd => ?_⟩
    exact hd (.application 0) ⟨[1]⟩ _ rfl .control rfl
  · obtain ⟨tr, hr⟩ := h₅
    refine ⟨tr, _, hr, fun hd => ?_⟩
    exact hd (.application 0) .control _ rfl rfl

/-- A timer is dropped while the worker executes its callback: the deregistration finds no
callback, the worker finds no timer to give it back to, and drops it with no mutex held. -/
theorem callbacks_dropped_unlocked_inFlight :
    ∃ tr s, kept.Run tr s ∧ s.code .worker = [.act (.dropCallback ⟨[]⟩), .act .run] ∧
      DropsUnlocked s ∧ NoReentry s ∧ Unblocked s ∧ BriefSections s ∧
      ∀ l s', system.step s l s' →
        (Discipline.AllowedStep KeepsCallback s l s' ↔ DropsUnlocked s') := by
  have hstart : Handles.Calls [] oneTimer.handles (.request (.start 1)) oneTimer.handles :=
    .start (.inl (by decide))
  have hdrop : Handles.Calls [] oneTimer.handles (.dropHandle 1) (oneTimer.handles.give 1) :=
    .drop (by decide)
  have hdue : Duration.zero ≤ nanosecond := Nat.zero_le 1
  have h₁ := kept_act kept_oneTimer (.application hstart) trivial
  have h₂ := kept_leave (kept_act (kept_enter h₁) (.request (Nat.le_refl _)) trivial)
  have h₃ := kept_perform .worker [] h₂ rfl .run trivial
  have h₄ := kept_lock .worker .service [.act .scan] h₃ rfl rfl
  have h₅ := kept_perform .worker [] h₄ rfl (.scan rfl hdue) trivial
  have h₆ := kept_unlock .worker .service [.lock .service, .act .select] h₅ rfl
  have h₇ := kept_lock .worker .service [.act .select] h₆ rfl rfl
  have h₈ := kept_perform .worker [] h₇ rfl (.select (Nat.le_refl _) rfl) trivial
  have h₉ := kept_unlock .worker .service [.act (.callback 1 ⟨[]⟩)] h₈ rfl
  have h₁₀ := kept_perform (.application 0) [] h₉ rfl (.application hdrop) trivial
  have h₁₁ := kept_perform (.application 0) [.act .application] h₁₀ rfl (.dropLast rfl) trivial
  have h₁₂ := kept_lock (.application 0) .control _ h₁₁ rfl rfl
  have h₁₃ := kept_lock (.application 0) .service _ h₁₂ rfl rfl
  have h₁₄ := kept_perform (.application 0) _ h₁₃ rfl (.request (Nat.le_refl _)) rfl
  have h₁₅ := kept_unlock (.application 0) .service [.unlock .control, .act .application] h₁₄ rfl
  have h₁₆ := kept_unlock (.application 0) .control [.act .application] h₁₅ rfl
  have h₁₇ := kept_perform .worker [] h₁₆ rfl .callbackReturns trivial
  have h₁₈ := kept_lock .worker .service [.act (.restore 1 ⟨[]⟩)] h₁₇ rfl rfl
  have h₁₉ := kept_perform .worker [] h₁₈ rfl .restore trivial
  have h₂₀ := kept_unlock .worker .service [.act (.dropCallback ⟨[]⟩), .act .run] h₁₉ rfl
  obtain ⟨tr, hr⟩ := h₂₀
  exact ⟨tr, _, hr, rfl, callbacks_dropped_unlocked hr⟩

end Runs

end OsalRust.PosixTimer
