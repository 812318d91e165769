import OsalRust.Framework.Solo
import OsalRust.FreeRtos.BackendLocks

/-!
# The suspended scheduler

The backend on one core whose scheduler a task may suspend while it is between two calls. Until
it resumes the scheduler the task runs alone: `ensure_worker` answers `Busy`, and so does
`shutdown` once there is a worker. `with_lock` then takes the registry mutex without waiting, and
its assertion fails if the mutex is held.
-/

namespace OsalRust.FreeRtosBackend

open OsalRust OsalRust.Framework OsalRust.Timer
open OsalRust.Runtime (RuntimeState lifecycleTable)

def Action.user : Action → Bool
  | .application | .callback _ _ => true
  | _ => false

/-- The threads of the backend, who has suspended the scheduler, and whether the assertion
`registry mutex dead` has failed. -/
structure Kernel where
  base : State
  suspended : Option Thread
  dead : Bool

/-- The thread is in its own code, between two calls. -/
def Kernel.InUser (k : Kernel) (t : Thread) : Prop :=
  ∃ a, a.user = true ∧ k.base.code t = [.act a]

/-- The answers while the scheduler is suspended. Nobody waits then. -/
def Unscheduled (s : State) (l : Thread × Instr Lock Action) (s' : State) : Prop :=
  match l.2 with
  | .act (.ensureWorker _ _) =>
    s'.shared = s.shared ∧ s'.code l.1 = .unlock .control :: (s.code l.1).tail
  | .act (.checkScheduler true) => s'.code l.1 = .act .rollbackShutdown :: (s.code l.1).tail
  | .act (.take _ _) | .act (.awaitCompletion _ true) => False
  | _ => True

inductive KernelEvent where
  | run (l : Thread × Instr Lock Action)
  | suspend (t : Thread)
  | resume (t : Thread)
  | assertFails (t : Thread)

inductive KernelStep (max : Nat) : Kernel → KernelEvent → Kernel → Prop
  | run {k : Kernel} {l : Thread × Instr Lock Action} {s' : State} : k.dead = false →
      k.suspended = none → (system max).step k.base l s' →
      KernelStep max k (.run l) { k with base := s' }
  | runAlone {k : Kernel} {t : Thread} {i : Instr Lock Action} {s' : State} : k.dead = false →
      k.suspended = some t → (system max).step k.base (t, i) s' → Unscheduled k.base (t, i) s' →
      KernelStep max k (.run (t, i)) { k with base := s' }
  | suspend {k : Kernel} {t : Thread} : k.dead = false → k.suspended = none → k.InUser t →
      KernelStep max k (.suspend t) { k with suspended := some t }
  | resume {k : Kernel} {t : Thread} : k.dead = false → k.suspended = some t → k.InUser t →
      KernelStep max k (.resume t) { k with suspended := none }
  | assertFails {k : Kernel} {t : Thread} {g : Nat} {rest : Code} : k.dead = false →
      k.suspended = some t → k.base.code t = .lock (.registry g) :: rest →
      k.base.holder (.registry g) ≠ none →
      KernelStep max k (.assertFails t) { k with dead := true }

def kernel (max : Nat) : Lts Kernel KernelEvent where
  init k := (∃ now, k.base = start now) ∧ k.suspended = none ∧ k.dead = false
  step := KernelStep max

/-- The scheduler is suspended while nobody holds the slot or a registry mutex, and no
registration is refused for want of memory or of identifiers while it is suspended. -/
def Considerate (k : Kernel) (e : KernelEvent) (_ : Kernel) : Prop :=
  match e with
  | .suspend _ => ∀ m, k.base.holder m = none
  | .run (_, .act (.serve g (.register _ _ _) reserved)) =>
    k.suspended ≠ none →
      reserved = true ∧ (k.base.shared.service g).state.nextId + 1 ≤ u64Max
  | _ => True

theorem kernel_base {max : Nat} {k : Kernel} (hr : (kernel max).Reachable k) :
    (system max).Reachable k.base := by
  refine hr.invariant (I := fun k => (system max).Reachable k.base) ?_ ?_
  · rintro k ⟨hstart, -⟩
    exact .start hstart
  · intro k e k' h hs
    cases hs with
    | run _ _ hstep => exact h.snoc hstep
    | runAlone _ _ hstep => exact h.snoc hstep
    | suspend => exact h
    | resume => exact h
    | assertFails => exact h

/-! ## Locks -/

section Locks

variable {max : Nat} {t : Thread} {w w' : Backend} {a : Action} {code rest : Code} {s s' : State}

def locks : Action → Option (List Lock)
  | .createService | .preflight | .stop | .stopping _ | .cleanUp _ | .ensureWorker _ _
  | .extract _ => some [.control]
  | .checkTimers g | .requestStop g => some [.registry g, .control]
  | .request g _ | .serve g _ _ | .scan g | .select g | .restore g _ => some [.registry g]
  | .signalWake _ | .dropService _ => none
  | _ => some []

/-- What a piece of code relies on so that it takes no lock under another one: deleted timers
have given their callbacks up, nothing is left in the registry of a service that goes away, and
a registration is not refused. -/
structure Unburdened (w : Backend) (a : Action) : Prop where
  purged : ∀ g, (w.service g).state.retain.1 = []
  emptied : ∀ g, a = .dropService g → (w.service g).refs = 1 →
    (w.service g).state.timers.filterMap (·.callback) = []
  enrolled : ∀ g period mode callback reserved now,
    a = .serve g (.register period mode callback) reserved →
    ((w.service g).state.serve now reserved (.register period mode callback)).1 ≠
      .refused callback

private theorem nested_acts {α : Type} (f : α → Action) (h : ∀ x, locks (f x) = some [])
    (xs : List α) (hr : Threads.Nested locks [] rest) :
    Threads.Nested locks [] (xs.map (fun x => .act (f x)) ++ rest) := by
  induction xs with
  | nil => exact hr
  | cons x xs ih =>
    rw [List.map_cons, List.cons_append, Threads.nested_act_some (h x)]
    exact ⟨rfl, ih⟩

private theorem nested_dropHandles (callback : Callback) (hr : Threads.Nested locks [] rest) :
    Threads.Nested locks [] (dropHandles callback ++ rest) :=
  nested_acts .dropHandle (fun _ => rfl) callback.captures hr

private theorem nested_withRegistry (q : Request) :
    Threads.Nested locks [] (withRegistry q) := by
  simp [withRegistry, Threads.Nested, locks]

private theorem nested_intend (i : Intent) (ha : locks a = some []) :
    Threads.Nested locks [] (intend i ++ [.act a]) := by
  have hrest : Threads.Nested locks [] [.act a] := by
    rw [Threads.nested_act_some ha]
    exact ⟨rfl, rfl⟩
  cases i with
  | idle => exact hrest
  | request q =>
    have hapi : Threads.Nested locks [] (api q) := by
      cases q <;> simp [api, withRegistry, Threads.Nested, locks]
    exact hapi.append hrest
  | dropHandle id => exact ⟨rfl, hrest⟩
  | dropCallback callback => exact ⟨rfl, hrest⟩

private theorem nested_finish {g : Nat} (q : Request) (ok sent : Bool) {o : Outcome}
    (ho : ∀ callback, o ≠ .refused callback) :
    Threads.Nested locks [.registry g] (signal g sent ++ finish g q ok o) := by
  have hfinish : Threads.Nested locks [.registry g] (finish g q ok o) := by
    cases o with
    | done => simp [finish, Threads.Nested, locks]
    | registered => simp [finish, Threads.Nested, locks]
    | refused callback => exact absurd rfl (ho callback)
    | removed callback =>
      cases q <;> cases callback <;> simp [finish, part, Threads.Nested, locks]
  cases sent with
  | true => exact hfinish
  | false => exact hfinish

private theorem nested_dispatch {g : Nat} (r : Registry) (selection : Registry.Selection) :
    Threads.Nested locks [.registry g] (dispatch g r selection) := by
  cases selection with
  | none =>
    unfold dispatch
    cases earliest r <;> simp [Threads.Nested, locks]
  | rescan => simp [dispatch, Threads.Nested, locks]
  | dispatch => simp [dispatch, Threads.Nested, locks]

theorem Performs.pushes (h : Performs max t w a w' code) (hu : Unburdened w a) :
    Threads.Pushes locks a code := by
  cases h with
  | application hc => exact nested_intend _ rfl
  | callbackCalls hhand hc => exact nested_intend _ rfl
  | acquire => exact nested_withRegistry _
  | ensureWorker => exact ⟨_, rfl, nested_withRegistry _⟩
  | createWorker => exact ⟨_, rfl, nested_withRegistry _⟩
  | dropLast => exact nested_withRegistry _
  | @turnDown _ _ q =>
    cases q <;> simp [Threads.Pushes, FreeRtosBackend.turnDown, Threads.Nested, locks]
  | @serve _ _ g q reserved now =>
    refine nested_finish q _ _ fun callback ho => ?_
    cases q with
    | register period mode callback' =>
      have hne := hu.enrolled g period mode callback' reserved now rfl
      rcases (w.service g).state.serve_register_fst now reserved period mode callback' with
        ⟨id, hans⟩ | hans
      · cases hans.symm.trans ho
      · exact hne hans
    | deregister id => cases (Registry.serve_deregister id).symm.trans ho
    | start | stop | reset | changePeriod => cases ho
  | select => exact nested_dispatch _ _
  | @restore _ _ g id callback =>
    cases h : ((w.service g).state.restore id callback).1 <;>
      simp [Threads.Pushes, giveUp, Threads.Nested, locks]
  | @takeTimeout _ _ _ deadline =>
    cases deadline <;> simp [Threads.Pushes, retake, Threads.Nested, locks]
  | dropCallback => exact (List.append_nil (dropHandles _) ▸ nested_dropHandles _ (by rfl) :)
  | dropRemoved => exact nested_dropHandles _ ⟨rfl, rfl⟩
  | dropRetired => exact nested_dropHandles _ ⟨rfl, rfl⟩
  | @destroy _ _ g hrefs =>
    rw [hu.emptied g rfl hrefs]
    rfl
  | @checkTimersBusy _ _ g hbusy =>
    rw [hu.purged g]
    simp [Threads.Pushes, dropAll, Threads.Nested, locks]
  | @checkTimers _ _ g hnil =>
    rw [hu.purged g]
    simp [Threads.Pushes, dropAll, Threads.Nested, locks]
  | @scan _ _ g hstop =>
    rw [hu.purged g]
    simp [Threads.Pushes, dropAll, Threads.Nested, locks]
  | @scanStop _ _ g hstop =>
    rw [hu.purged g]
    simp [Threads.Pushes, dropAll, Threads.Nested, locks]
  | _ => simp [Threads.Pushes, Threads.Nested, locks]

/-- A service that goes away has no timers: it is not the one that runs, to which the slot has a
reference of its own. -/
theorem timers_nil_of_destroy {g : Nat} (hr : (system max).Reachable s)
    (hst : s.code t = .act (.dropService g) :: rest) (hrefs : (s.shared.service g).refs = 1) :
    (s.shared.service g).state.timers = [] := by
  obtain ⟨M, hM, hinv, -⟩ := inv_of_reachable hr
  refine hinv.timers_nil (g := g) fun worker hslot => ?_
  have hmem : .ref g ∈ M := hM.mem_of_head hst (by simp [cargo])
  have hle : Token.refs g (.ref g) ≤ tally (Token.refs g) M := le_tally hmem
  have hcounted := (hinv.sound g).counted
  have hrefs' : (s.shared.view.services g).refs = 1 := hrefs
  rw [hslot] at hcounted
  simp only [Token.refs, Slot.holds, if_true] at hle hcounted
  omega

/-- Every piece of code that is performed is unburdened, but for a registration that is
refused. -/
theorem unburdened_of_reachable (hr : (system max).Reachable s) (hst : s.code t = .act a :: rest)
    (henrolled : ∀ g period mode callback reserved now,
      a = .serve g (.register period mode callback) reserved →
      ((s.shared.service g).state.serve now reserved (.register period mode callback)).1 ≠
        .refused callback) : Unburdened s.shared a := by
  obtain ⟨M, -, hinv, -⟩ := inv_of_reachable hr
  refine ⟨fun g => ?_, fun g ha hrefs => ?_, henrolled⟩
  · have hclean : (s.shared.service g).state.Clean := (hinv.sound g).wf.clean
    rw [Registry.retain, List.filterMap_eq_nil_iff]
    intro e he
    obtain ⟨hmem, hdeleted⟩ := List.mem_filter.1 he
    exact hclean e hmem hdeleted
  · subst ha
    rw [timers_nil_of_destroy hr hst hrefs]
    rfl

end Locks

/-! ## Requests -/

section Requests

variable {max : Nat} {t : Thread} {w w' : Backend} {a : Action} {code rest : Code} {s s' : State}

/-- The period of a request has been validated, and the handle that it borrows is alive. There
are no requests from `start` and `reset` while the scheduler is suspended. -/
def Answerable (w : Backend) : Request → Prop
  | .register period _ _ => period ≠ Duration.zero
  | .stop id => 0 < w.handles.strong id
  | .changePeriod id newPeriod => newPeriod ≠ Duration.zero ∧ 0 < w.handles.strong id
  | .deregister _ => True
  | .start _ | .reset _ => False

def Aims (w : Backend) : Action → Prop
  | .acquire period _ _ => period ≠ Duration.zero
  | .extract q => Answerable w q
  | .request g q | .serve g q _ => Answerable w q ∧ ∃ worker, w.slot = .running g worker
  | _ => True

def asks : Action → Bool
  | .acquire _ _ _ | .extract _ | .request _ _ | .serve _ _ _ => true
  | _ => false

/-- The code asks for one thing at most, before it does anything else, and can be answered. -/
def Aimed (w : Backend) : Code → Prop
  | [] => True
  | .lock _ :: rest | .unlock _ :: rest => Aimed w rest
  | .act a :: rest => Aims w a ∧ Threads.Only (fun b => asks b = false) rest

def quiet : Code → Bool
  | [] => true
  | .lock _ :: rest | .unlock _ :: rest => quiet rest
  | .act a :: rest => !asks a && quiet rest

private theorem only_of_quiet (h : quiet code = true) :
    Threads.Only (fun b => asks b = false) code := by
  induction code with
  | nil => exact Threads.only_nil
  | cons i code ih =>
    cases i with
    | lock m => exact (Threads.only_lock m).2 (ih h)
    | unlock m => exact (Threads.only_unlock m).2 (ih h)
    | act a =>
      rw [quiet, Bool.and_eq_true, Bool.not_eq_true'] at h
      exact (Threads.only_act a).2 ⟨h.1, ih h.2⟩

private theorem aims_of_not_asks (ha : asks a = false) : Aims w a := by
  cases a with
  | acquire | extract | request | serve => cases ha
  | _ => trivial

theorem aimed_of_only (h : Threads.Only (fun b => asks b = false) code) : Aimed w code := by
  induction code with
  | nil => trivial
  | cons i code ih =>
    cases i with
    | lock m => exact ih ((Threads.only_lock m).1 h)
    | unlock m => exact ih ((Threads.only_unlock m).1 h)
    | act a =>
      obtain ⟨ha, hcode⟩ := (Threads.only_act a).1 h
      exact ⟨aims_of_not_asks ha, hcode⟩

theorem Aimed.append (h : Aimed w code) (hr : Threads.Only (fun b => asks b = false) rest) :
    Aimed w (code ++ rest) := by
  induction code with
  | nil => exact aimed_of_only hr
  | cons i code ih =>
    cases i with
    | lock m => exact ih h
    | unlock m => exact ih h
    | act a => exact ⟨h.1, Threads.only_append.2 ⟨h.2, hr⟩⟩

private theorem only_dropAll (callbacks : List Callback) :
    Threads.Only (fun b => asks b = false) (dropAll callbacks) :=
  only_acts .dropCallback (fun _ => rfl) callbacks

private theorem only_dropHandles (callback : Callback) :
    Threads.Only (fun b => asks b = false) (dropHandles callback) :=
  only_acts .dropHandle (fun _ => rfl) callback.captures

private theorem only_finish (g : Nat) (q : Request) (ok sent : Bool) (o : Outcome) :
    Threads.Only (fun b => asks b = false) (signal g sent ++ finish g q ok o) := by
  refine Threads.only_append.2 ⟨?_, ?_⟩
  · cases sent <;> exact only_of_quiet rfl
  · cases o with
    | removed callback => cases q <;> cases callback <;> exact only_of_quiet rfl
    | done | registered | refused => exact only_of_quiet rfl

structure Borrowed (w : Backend) : Prop where
  owned : ∀ id, 0 < w.handles.owned id → 0 < w.handles.strong id
  captured : ∀ g i callback id, (w.service g).hand = .running i callback →
    id ∈ callback.captures → 0 < w.handles.strong id

theorem borrowed_of_reachable (hr : (system max).Reachable s) : Borrowed s.shared := by
  obtain ⟨M, -, hinv, -⟩ := inv_of_reachable hr
  refine ⟨fun id hpos => ?_, fun g i callback id hhand hmem => ?_⟩
  · have hclones := hinv.enrolled.clones id
    have hpos' : 0 < s.shared.view.handles.owned id := hpos
    change 0 < s.shared.view.handles.strong id
    omega
  · have hclones := hinv.enrolled.clones id
    have hhand' : (s.shared.view.services g).hand = .running i callback := hhand
    have hslot := hinv.current_of_hand (g := g) (by rw [hhand']; simp)
    have hcount := List.count_pos_iff.2 hmem
    change 0 < s.shared.view.handles.strong id
    simp only [World.stock, hslot, Service.stock, hhand', Hand.weight] at hclones
    omega

private theorem aimed_intend {captures : List Nat} {h h' : Handles} {i : Intent}
    (hc : Handles.Calls captures h i h')
    (hreach : ∀ id, h.Reaches captures id → 0 < h.strong id) (hw : w'.handles = h') :
    Aimed w' (intend i) := by
  cases hc with
  | new _ hp => exact ⟨hp, Threads.only_nil⟩
  | @stop id hid =>
    have hpos := hreach id hid
    rw [← hw] at hpos
    exact ⟨hpos, Threads.only_nil⟩
  | @changePeriod id newPeriod hid hp =>
    have hpos := hreach id hid
    rw [← hw] at hpos
    exact ⟨⟨hp, hpos⟩, Threads.only_nil⟩
  | _ => exact aimed_of_only (only_of_quiet rfl)

/-- Whatever a thread does next while the scheduler is suspended, what it asks for can be
answered. -/
theorem Performs.aimed (h : Performs max t w a w' code) (ha : Aims w a) (hb : Borrowed w)
    (hstart : ∀ again id, a = .ensureWorker again id → code = [.unlock .control]) :
    Aimed w' code := by
  cases h with
  | application hc =>
    refine Aimed.append (aimed_intend hc ?_ rfl) (only_of_quiet rfl)
    rintro id (hpos | hmem)
    · exact hb.owned id hpos
    · cases hmem
  | @callbackCalls _ _ g id callback i h hhand hc =>
    refine Aimed.append (aimed_intend hc ?_ rfl) (only_of_quiet rfl)
    rintro id (hpos | hmem)
    · exact hb.owned id hpos
    · exact hb.captured _ _ _ id hhand hmem
  | acquire => exact ⟨ha, Threads.only_nil⟩
  | ensureWorker => cases hstart _ _ rfl
  | createWorker => cases hstart _ _ rfl
  | @extract _ _ q g worker hslot => exact ⟨⟨ha, worker, hslot⟩, Threads.only_nil⟩
  | request => exact ⟨ha, Threads.only_nil⟩
  | dropLast => exact ⟨trivial, Threads.only_nil⟩
  | serve => exact aimed_of_only (only_finish _ _ _ _ _)
  | @turnDown _ _ q => cases q <;> exact aimed_of_only (only_of_quiet rfl)
  | @select _ _ _ _ selection r =>
    cases selection with
    | none =>
      unfold dispatch
      cases earliest r <;> exact aimed_of_only (only_of_quiet rfl)
    | rescan | dispatch => exact aimed_of_only (only_of_quiet rfl)
  | @restore _ _ g id callback =>
    cases ((w.service g).state.restore id callback).1 <;>
      exact aimed_of_only (only_of_quiet rfl)
  | @takeTimeout _ _ _ deadline =>
    cases deadline <;> exact aimed_of_only (only_of_quiet rfl)
  | dropCallback => exact aimed_of_only (only_dropHandles _)
  | dropRemoved | dropRetired =>
    exact aimed_of_only (Threads.only_append.2 ⟨only_dropHandles _, only_of_quiet rfl⟩)
  | destroy => exact aimed_of_only (only_dropAll _)
  | checkTimersBusy | checkTimers | scan | scanStop =>
    exact aimed_of_only (Threads.only_append.2 ⟨only_dropAll _, only_of_quiet rfl⟩)
  | _ => exact aimed_of_only (only_of_quiet rfl)

end Requests

/-! ## Considerate runs -/

section Runs

variable {max : Nat} {t : Thread} {k k' : Kernel} {e : KernelEvent} {i : Instr Lock Action}
  {s' : State}

/-- The assertion has not failed, and the task that has suspended the scheduler is alone with
the locks and asks for what can be answered. -/
structure Undisturbed (k : Kernel) : Prop where
  alive : k.dead = false
  solo : ∀ t, k.suspended = some t → ∃ H, Threads.Solo locks k.base t H
  aimed : ∀ t, k.suspended = some t → Aimed k.base.shared (k.base.code t)

theorem register_of_room {r : Registry} {period : Duration} (mode : TimerMode)
    (callback : Callback) {reserved : Bool} (hp : period ≠ Duration.zero)
    (hroom : reserved = true ∧ r.nextId + 1 ≤ u64Max) :
    (r.register period mode callback reserved).1 = .ok r.nextId := by
  obtain ⟨hreserved, hnext⟩ := hroom
  rw [Registry.register, TimerState.new, dif_neg hp]
  simp [hreserved, hnext]

private theorem user_plain {a : Action} (ha : a.user = true) :
    locks a = some [] ∧ quiet [.act a] = true := by
  cases a with
  | application => exact ⟨rfl, rfl⟩
  | callback g id => exact ⟨rfl, rfl⟩
  | _ => cases ha

private theorem solo_of_alone (hr : (system max).Reachable k.base) (h : Undisturbed k)
    (hsusp : k.suspended = some t) (hs : (system max).step k.base (t, i) s')
    (hc : Considerate k (.run (t, i)) k') : ∃ H, Threads.Solo locks s' t H := by
  obtain ⟨H, hsolo⟩ := h.solo t hsusp
  have haimed := h.aimed t hsusp
  refine hsolo.step hs fun a w code hi hex => ?_
  subst hi
  obtain ⟨rest, hst⟩ : ∃ rest, k.base.code t = .act a :: rest := by
    cases hs with
    | act hst _ => exact ⟨_, hst⟩
  refine hex.pushes (unburdened_of_reachable hr hst ?_)
  intro g period mode callback reserved now ha
  subst ha
  rw [hst] at haimed
  have hok := register_of_room mode callback haimed.1.1
    (hc (by rw [hsusp]; exact Option.some_ne_none t))
  simp [Registry.serve, hok]

private theorem aimed_of_alone (hr : (system max).Reachable k.base) (h : Undisturbed k)
    (hsusp : k.suspended = some t) (hs : (system max).step k.base (t, i) s')
    (hun : Unscheduled k.base (t, i) s') : Aimed s'.shared (s'.code t) := by
  have haimed := h.aimed t hsusp
  cases hs with
  | @lock _ m rest hst hfree =>
    have hcode : (k.base.take t m rest).code t = rest := Function.update_self _ _ _
    rw [hst] at haimed
    rw [hcode]
    exact haimed
  | @unlock _ m rest hst =>
    have hcode : (k.base.release t m rest).code t = rest := Function.update_self _ _ _
    rw [hst] at haimed
    rw [hcode]
    exact haimed
  | @act _ a rest code w hst hex =>
    have hcode : (k.base.perform t w (code ++ rest)).code t = code ++ rest :=
      Function.update_self _ _ _
    rw [hst] at haimed
    rw [hcode]
    refine (hex.aimed haimed.1 (borrowed_of_reachable hr) fun again id ha => ?_).append haimed.2
    subst ha
    have htail := hun.2
    rw [hcode, hst] at htail
    exact List.append_cancel_right (htail.trans (by simp))

theorem Undisturbed.step (h : Undisturbed k) (hr : (kernel max).Reachable k)
    (hs : (kernel max).step k e k') (hc : Considerate k e k') : Undisturbed k' := by
  cases hs with
  | run _ hnone _ =>
    refine ⟨h.alive, fun t ht => ?_, fun t ht => ?_⟩
    · cases hnone.symm.trans ht
    · cases hnone.symm.trans ht
  | @runAlone t i s' _ hsusp hstep hun =>
    refine ⟨h.alive, fun u hu => ?_, fun u hu => ?_⟩
    · obtain rfl : t = u := Option.some.inj (hsusp.symm.trans hu)
      exact solo_of_alone (kernel_base hr) h hsusp hstep hc
    · obtain rfl : t = u := Option.some.inj (hsusp.symm.trans hu)
      exact aimed_of_alone (kernel_base hr) h hsusp hstep hun
  | @suspend t _ hnone huser =>
    obtain ⟨a, ha, hst⟩ := huser
    obtain ⟨hlocks, hquiet⟩ := user_plain ha
    refine ⟨h.alive, fun u hu => ?_, fun u hu => ?_⟩
    · cases hu
      refine ⟨[], ?_, List.nodup_nil, fun m => hc m⟩
      rw [hst, Threads.nested_act_some hlocks]
      exact ⟨rfl, rfl⟩
    · cases hu
      rw [hst]
      exact aimed_of_only (only_of_quiet hquiet)
  | resume => exact ⟨h.alive, nofun, nofun⟩
  | @assertFails t g rest _ hsusp hst hheld =>
    obtain ⟨H, hsolo⟩ := h.solo t hsusp
    exact absurd (hsolo.free hst) hheld

theorem undisturbed_of_reachable (hr : ((kernel max).restrict Considerate).Reachable k) :
    Undisturbed k := by
  have hboth : (kernel max).Reachable k ∧ Undisturbed k := by
    refine hr.invariant (I := fun k => (kernel max).Reachable k ∧ Undisturbed k) ?_ ?_
    · rintro k ⟨hstart, hnone, halive⟩
      refine ⟨.start ⟨hstart, hnone, halive⟩, halive, fun t ht => ?_, fun t ht => ?_⟩
      · cases hnone.symm.trans ht
      · cases hnone.symm.trans ht
    · rintro k e k' ⟨hreach, h⟩ ⟨hs, hc⟩
      exact ⟨hreach.snoc hs, h.step hreach hs hc⟩
  exact hboth.2

end Runs

end OsalRust.FreeRtosBackend
