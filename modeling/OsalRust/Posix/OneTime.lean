import OsalRust.Api.Basic
import OsalRust.Framework.LazyInit

/-!
# One-time initialisation on POSIX

The TLS key of `TaskTlsSlot` and the mutex of `TimerServiceControl` are created on first use, both
behind a word of three values. Every load, exchange, store, native call and access of the cell is a
step, and the threads are any number. The answers of the native calls are the environment's.
-/

namespace OsalRust.Posix

open Framework

variable {ι κ : Type}

/-! ## The TLS slot -/

/-- Where a thread is in `get_or_init` or `get`. `undefined` comes after an `assume_init` of a
cell that has not been written. -/
inductive TlsPhase (κ : Type) where
  | idle
  | fastPath
  | claim
  | create
  | write (key : κ)
  | publish (key : κ)
  | rollBack
  | spin
  | assumeInit
  | returned (r : Result κ)
  | load
  | assumeInitGet
  | got (r : Option κ)
  | undefined

def TlsPhase.AtRest : TlsPhase κ → Prop
  | .idle | .returned _ | .got _ => True
  | _ => False

/-- `TaskTlsSlot`, with the keys that `pthread_key_create` has made and the threads. -/
structure TaskTlsSlot (ι κ : Type) where
  state : InitState
  key : Option κ
  created : List κ
  phase : ι → TlsPhase κ

namespace TaskTlsSlot

variable [DecidableEq ι]

def goto (s : TaskTlsSlot ι κ) (t : ι) (p : TlsPhase κ) : TaskTlsSlot ι κ :=
  { s with phase := Function.update s.phase t p }

/-- What `assume_init` makes of the cell. -/
def assumed (f : κ → TlsPhase κ) : Option κ → TlsPhase κ
  | some key => f key
  | none => .undefined

inductive Step : TaskTlsSlot ι κ → ι → TaskTlsSlot ι κ → Prop
  | call {s : TaskTlsSlot ι κ} {t : ι} : (s.phase t).AtRest → Step s t (s.goto t .fastPath)
  | fastReady {s : TaskTlsSlot ι κ} {t : ι} : s.phase t = .fastPath → s.state = .ready →
      Step s t (s.goto t .assumeInit)
  | fastMiss {s : TaskTlsSlot ι κ} {t : ι} : s.phase t = .fastPath → s.state ≠ .ready →
      Step s t (s.goto t .claim)
  | win {s : TaskTlsSlot ι κ} {t : ι} : s.phase t = .claim → s.state = .uninitialized →
      Step s t { s.goto t .create with state := .initializing }
  | lose {s : TaskTlsSlot ι κ} {t : ι} : s.phase t = .claim → s.state ≠ .uninitialized →
      Step s t (s.goto t .spin)
  | create {s : TaskTlsSlot ι κ} {t : ι} (key : κ) : s.phase t = .create →
      Step s t { s.goto t (.write key) with created := s.created ++ [key] }
  | createFails {s : TaskTlsSlot ι κ} {t : ι} : s.phase t = .create → Step s t (s.goto t .rollBack)
  | write {s : TaskTlsSlot ι κ} {t : ι} {key : κ} : s.phase t = .write key →
      Step s t { s.goto t (.publish key) with key := some key }
  | publish {s : TaskTlsSlot ι κ} {t : ι} {key : κ} : s.phase t = .publish key →
      Step s t { s.goto t (.returned (.ok key)) with state := .ready }
  | rollBack {s : TaskTlsSlot ι κ} {t : ι} : s.phase t = .rollBack →
      Step s t
        { s.goto t (.returned (.error (.internal "pthread_key_create failed"))) with
          state := .uninitialized }
  | spinReady {s : TaskTlsSlot ι κ} {t : ι} : s.phase t = .spin → s.state = .ready →
      Step s t (s.goto t .assumeInit)
  | spinFailed {s : TaskTlsSlot ι κ} {t : ι} : s.phase t = .spin → s.state = .uninitialized →
      Step s t (s.goto t (.returned
        (.error (.internal "pthread TLS initialisation was attempted but failed"))))
  | spinOn {s : TaskTlsSlot ι κ} {t : ι} : s.phase t = .spin → s.state = .initializing → Step s t s
  | assumeInit {s : TaskTlsSlot ι κ} {t : ι} : s.phase t = .assumeInit →
      Step s t (s.goto t (assumed (fun key => .returned (.ok key)) s.key))
  | callGet {s : TaskTlsSlot ι κ} {t : ι} : (s.phase t).AtRest → Step s t (s.goto t .load)
  | loadReady {s : TaskTlsSlot ι κ} {t : ι} : s.phase t = .load → s.state = .ready →
      Step s t (s.goto t .assumeInitGet)
  | loadMiss {s : TaskTlsSlot ι κ} {t : ι} : s.phase t = .load → s.state ≠ .ready →
      Step s t (s.goto t (.got none))
  | assumeInitGet {s : TaskTlsSlot ι κ} {t : ι} : s.phase t = .assumeInitGet →
      Step s t (s.goto t (assumed (fun key => .got (some key)) s.key))

/-- `TaskTlsSlot::new`, and any number of threads that use it. -/
def system (ι κ : Type) [DecidableEq ι] : Lts (TaskTlsSlot ι κ) ι where
  init s := s = ⟨.uninitialized, none, [], fun _ => .idle⟩
  step := Step

end TaskTlsSlot

def TlsPhase.role : TlsPhase κ → InitRole κ
  | .create => .creating
  | .write key => .created key
  | .publish key => .written key
  | .rollBack => .failing
  | .assumeInit | .assumeInitGet => .ready
  | .returned (.ok key) => .answered (some key)
  | .got (some key) => .answered (some key)
  | .undefined => .answered none
  | .idle | .fastPath | .claim | .spin | .load | .returned (.error _) | .got none => .outside

def TaskTlsSlot.view (s : TaskTlsSlot ι κ) : LazyCell ι κ where
  state := s.state
  cell := s.key
  made := s.created
  role t := (s.phase t).role

/-! ## The mutex of the timer control -/

/-- Where a thread is in `ensure_init`, or in the `lock` that uses the mutex after it. The native
`pthread_mutex_init` decides on its answer and then fills the mutex in. -/
inductive ControlPhase where
  | idle
  | load
  | claim
  | create
  | fill
  | publish
  | rollBack
  | returned (r : Result Unit)
  | locked
  | undefined

def ControlPhase.AtRest : ControlPhase → Prop
  | .idle | .returned _ | .locked => True
  | _ => False

/-- `TimerServiceControl`, less the state behind its mutex, with the successful calls of
`pthread_mutex_init` and the threads. -/
structure TimerServiceControl (ι : Type) where
  initState : InitState
  mutex : Option Unit
  created : List Unit
  phase : ι → ControlPhase

namespace TimerServiceControl

variable [DecidableEq ι]

def goto (s : TimerServiceControl ι) (t : ι) (p : ControlPhase) : TimerServiceControl ι :=
  { s with phase := Function.update s.phase t p }

inductive Step : TimerServiceControl ι → ι → TimerServiceControl ι → Prop
  | call {s : TimerServiceControl ι} {t : ι} : (s.phase t).AtRest → Step s t (s.goto t .load)
  | loadReady {s : TimerServiceControl ι} {t : ι} : s.phase t = .load → s.initState = .ready →
      Step s t (s.goto t (.returned (.ok ())))
  | loadUninitialized {s : TimerServiceControl ι} {t : ι} : s.phase t = .load →
      s.initState = .uninitialized → Step s t (s.goto t .claim)
  | spin {s : TimerServiceControl ι} {t : ι} : s.phase t = .load → s.initState = .initializing →
      Step s t s
  | win {s : TimerServiceControl ι} {t : ι} : s.phase t = .claim → s.initState = .uninitialized →
      Step s t { s.goto t .create with initState := .initializing }
  | lose {s : TimerServiceControl ι} {t : ι} : s.phase t = .claim → s.initState ≠ .uninitialized →
      Step s t (s.goto t .load)
  | create {s : TimerServiceControl ι} {t : ι} : s.phase t = .create →
      Step s t { s.goto t .fill with created := s.created ++ [()] }
  | createFails {s : TimerServiceControl ι} {t : ι} : s.phase t = .create →
      Step s t (s.goto t .rollBack)
  | fill {s : TimerServiceControl ι} {t : ι} : s.phase t = .fill →
      Step s t { s.goto t .publish with mutex := some () }
  | publish {s : TimerServiceControl ι} {t : ι} : s.phase t = .publish →
      Step s t { s.goto t (.returned (.ok ())) with initState := .ready }
  | rollBack {s : TimerServiceControl ι} {t : ι} : s.phase t = .rollBack →
      Step s t
        { s.goto t (.returned (.error (.internal "timer control mutex init failed"))) with
          initState := .uninitialized }
  | lock {s : TimerServiceControl ι} {t : ι} : s.phase t = .returned (.ok ()) →
      Step s t (s.goto t (match s.mutex with | some _ => .locked | none => .undefined))

/-- `TimerServiceControl::new`, and any number of threads that use it. -/
def system (ι : Type) [DecidableEq ι] : Lts (TimerServiceControl ι) ι where
  init s := s = ⟨.uninitialized, none, [], fun _ => .idle⟩
  step := Step

end TimerServiceControl

def ControlPhase.role : ControlPhase → InitRole Unit
  | .create => .creating
  | .fill => .created ()
  | .publish => .written ()
  | .rollBack => .failing
  | .returned (.ok ()) => .ready
  | .locked => .answered (some ())
  | .undefined => .answered none
  | .idle | .load | .claim | .returned (.error _) => .outside

def TimerServiceControl.view (s : TimerServiceControl ι) : LazyCell ι Unit where
  state := s.initState
  cell := s.mutex
  made := s.created
  role t := (s.phase t).role

/-! ## Every interleaving -/

section Tls

variable [DecidableEq ι] {s s' : TaskTlsSlot ι κ} {t : ι}

private theorem tls_view_goto (p : TlsPhase κ) : (s.goto t p).view = s.view.goto t p.role := by
  have hrole : (fun u => (Function.update s.phase t p u).role) =
      Function.update (fun u => (s.phase u).role) t p.role := by
    funext u
    exact Function.apply_update (fun _ => TlsPhase.role) s.phase t p u
  rw [TaskTlsSlot.view, TaskTlsSlot.goto, hrole]
  rfl

omit [DecidableEq ι] in
private theorem tls_role {p : TlsPhase κ} (h : s.phase t = p) : s.view.role t = p.role :=
  congrArg TlsPhase.role h

private theorem assumed_role {f : κ → TlsPhase κ} (hf : ∀ key, (f key).role = .answered (some key))
    (cell : Option κ) : (TaskTlsSlot.assumed f cell).role = .answered cell := by
  cases cell with
  | none => rfl
  | some key => exact hf key

private theorem tls_outside {p q : TlsPhase κ} (h : s.phase t = p) (hp : ¬ p.role.Owns)
    (hq : q.role = .outside) : LazyCell.Step s.view t (s.goto t q).view := by
  rw [tls_view_goto, hq]
  refine .leave ?_
  rw [tls_role h]
  exact hp

private theorem TlsPhase.AtRest.not_owns {p : TlsPhase κ} (h : p.AtRest) : ¬ p.role.Owns := by
  cases p with
  | idle => exact id
  | returned r => cases r <;> exact id
  | got r => cases r <;> exact id
  | _ => exact h.elim

private theorem tls_step (hs : TaskTlsSlot.Step s t s') : LazyCell.Step s.view t s'.view := by
  cases hs with
  | call hrest => exact tls_outside rfl hrest.not_owns rfl
  | fastReady hp hready =>
    rw [tls_view_goto]
    exact .see hready (tls_role hp)
  | fastMiss hp => exact tls_outside hp id rfl
  | win hp hstate =>
    have hwin := LazyCell.Step.win (s := s.view) hstate (tls_role hp)
    rwa [show InitRole.creating = (TlsPhase.create : TlsPhase κ).role from rfl,
      ← tls_view_goto] at hwin
  | lose hp => exact tls_outside hp id rfl
  | create key hp =>
    have hcreate := LazyCell.Step.create (s := s.view) key (tls_role hp)
    rwa [show InitRole.created key = (TlsPhase.write key).role from rfl,
      ← tls_view_goto] at hcreate
  | createFails hp =>
    rw [tls_view_goto]
    exact .createFails (tls_role hp)
  | @write key hp =>
    have hwrite := LazyCell.Step.write (s := s.view) (tls_role hp)
    rwa [show InitRole.written key = (TlsPhase.publish key).role from rfl,
      ← tls_view_goto] at hwrite
  | @publish key hp =>
    have hpublish := LazyCell.Step.publish (s := s.view) (tls_role hp)
    rwa [show InitRole.answered (some key) = (TlsPhase.returned (.ok key)).role from rfl,
      ← tls_view_goto] at hpublish
  | rollBack hp =>
    have hback := LazyCell.Step.rollBack (s := s.view) (tls_role hp)
    rwa [show InitRole.outside = (TlsPhase.returned (.error
      (.internal "pthread_key_create failed")) : TlsPhase κ).role from rfl,
      ← tls_view_goto] at hback
  | spinReady hp hready =>
    rw [tls_view_goto]
    exact .see hready (tls_role hp)
  | spinFailed hp => exact tls_outside hp id rfl
  | spinOn hp => exact .tau (tls_role hp)
  | assumeInit hp =>
    rw [tls_view_goto, assumed_role fun _ => rfl]
    exact .read (tls_role hp)
  | callGet hrest => exact tls_outside rfl hrest.not_owns rfl
  | loadReady hp hready =>
    rw [tls_view_goto]
    exact .see hready (tls_role hp)
  | loadMiss hp => exact tls_outside hp id rfl
  | assumeInitGet hp =>
    rw [tls_view_goto, assumed_role fun _ => rfl]
    exact .read (tls_role hp)

theorem TaskTlsSlot.refines : LazyCell.Refines (TaskTlsSlot.system ι κ) TaskTlsSlot.view where
  init s hs := by
    subst hs
    exact ⟨rfl, rfl, rfl, fun _ => rfl⟩
  step s t s' hs := tls_step hs

/-- Where the slot is not initialised, a call can succeed with any key that the native call may
give. -/
theorem TaskTlsSlot.retry (hstate : s.state = .uninitialized) (hrest : (s.phase t).AtRest)
    (key : κ) :
    ∃ tr s', (TaskTlsSlot.system ι κ).Steps s tr s' ∧ s'.phase t = .returned (.ok key) := by
  have hmiss : s.state ≠ .ready := by
    rw [hstate]
    nofun
  have h : (TaskTlsSlot.system ι κ).Steps s [] s := .refl s
  have h := h.snoc (.call hrest)
  have h := h.snoc (.fastMiss (Function.update_self _ _ _) hmiss)
  have h := h.snoc (.win (Function.update_self _ _ _) hstate)
  have h := h.snoc (.create key (Function.update_self _ _ _))
  have h := h.snoc (.write (Function.update_self _ _ _))
  have h := h.snoc (.publish (Function.update_self _ _ _))
  exact ⟨_, _, h, Function.update_self _ _ _⟩

/-- What holds of the slot in every interleaving: one thread at most is between winning the
exchange and its final store, `pthread_key_create` has succeeded once at most, no thread has read
the cell too early, who has an answer has the key that was created, a failed attempt ends with the
slot uninitialized, a call can then succeed, and a slot that is ready stays so. -/
structure TaskTlsSlot.Sound (s : TaskTlsSlot ι κ) : Prop where
  exclusive : ∀ t u, (s.phase t).role.Owns → (s.phase u).role.Owns → t = u
  once : s.created.length ≤ 1
  defined : ∀ t, s.phase t ≠ .undefined
  answered : ∀ t key, s.phase t = .returned (.ok key) ∨ s.phase t = .got (some key) →
    s.created = [key]
  readable : ∀ t, s.phase t = .assumeInit ∨ s.phase t = .assumeInitGet →
    ∃ key, s.key = some key ∧ s.created = [key]
  rolledBack : ∀ t s', s.phase t = .rollBack → (TaskTlsSlot.system ι κ).step s t s' →
    s'.state = .uninitialized
  retry : s.state = .uninitialized → ∀ t key, (s.phase t).AtRest →
    ∃ tr s', (TaskTlsSlot.system ι κ).Steps s tr s' ∧ s'.phase t = .returned (.ok key)
  forever : s.state = .ready → ∀ tr s', (TaskTlsSlot.system ι κ).Steps s tr s' → s'.state = .ready

theorem TaskTlsSlot.sound (hr : (TaskTlsSlot.system ι κ).Reachable s) : s.Sound where
  exclusive := TaskTlsSlot.refines.safe.exclusive s hr
  once := TaskTlsSlot.refines.safe.once s hr
  defined t ht := by
    obtain ⟨key, hnone, -⟩ := TaskTlsSlot.refines.safe.answered s hr t none (tls_role ht)
    cases hnone
  answered t key ht := by
    have hrole : s.view.role t = .answered (some key) := by
      rcases ht with ht | ht
      · exact tls_role ht
      · exact tls_role ht
    obtain ⟨key', hkey, hmade⟩ := TaskTlsSlot.refines.safe.answered s hr t _ hrole
    cases hkey
    exact hmade
  readable t ht := by
    have hrole : s.view.role t = .ready := by
      rcases ht with ht | ht
      · exact tls_role ht
      · exact tls_role ht
    obtain ⟨key, hmade, hcell⟩ := TaskTlsSlot.refines.safe.readable s hr t hrole
    exact ⟨key, hcell, hmade⟩
  rolledBack t s' ht hs := (TaskTlsSlot.refines.safe.rolledBack s t s' hr (tls_role ht) hs).1
  retry hstate _ key hrest := TaskTlsSlot.retry hstate hrest key
  forever := TaskTlsSlot.refines.safe.forever s hr

end Tls

section Control

variable [DecidableEq ι] {s s' : TimerServiceControl ι} {t : ι}

private theorem control_view_goto (p : ControlPhase) :
    (s.goto t p).view = s.view.goto t p.role := by
  have hrole : (fun u => (Function.update s.phase t p u).role) =
      Function.update (fun u => (s.phase u).role) t p.role := by
    funext u
    exact Function.apply_update (fun _ => ControlPhase.role) s.phase t p u
  rw [TimerServiceControl.view, TimerServiceControl.goto, hrole]
  rfl

omit [DecidableEq ι] in
private theorem control_role {p : ControlPhase} (h : s.phase t = p) : s.view.role t = p.role :=
  congrArg ControlPhase.role h

private theorem control_outside {p q : ControlPhase} (h : s.phase t = p) (hp : ¬ p.role.Owns)
    (hq : q.role = .outside) : LazyCell.Step s.view t (s.goto t q).view := by
  rw [control_view_goto, hq]
  refine .leave ?_
  rw [control_role h]
  exact hp

private theorem ControlPhase.AtRest.not_owns {p : ControlPhase} (h : p.AtRest) :
    ¬ p.role.Owns := by
  cases p with
  | idle => exact id
  | returned r => cases r <;> exact id
  | locked => exact id
  | _ => exact h.elim

private theorem control_step (hs : TimerServiceControl.Step s t s') :
    LazyCell.Step s.view t s'.view := by
  cases hs with
  | call hrest => exact control_outside rfl hrest.not_owns rfl
  | loadReady hp hready =>
    rw [control_view_goto]
    exact .see hready (control_role hp)
  | loadUninitialized hp => exact control_outside hp id rfl
  | spin hp => exact .tau (control_role hp)
  | win hp hstate =>
    have hwin := LazyCell.Step.win (s := s.view) hstate (control_role hp)
    rwa [show InitRole.creating = ControlPhase.create.role from rfl, ← control_view_goto] at hwin
  | lose hp => exact control_outside hp id rfl
  | create hp =>
    have hcreate := LazyCell.Step.create (s := s.view) () (control_role hp)
    rwa [show InitRole.created () = ControlPhase.fill.role from rfl,
      ← control_view_goto] at hcreate
  | createFails hp =>
    rw [control_view_goto]
    exact .createFails (control_role hp)
  | fill hp =>
    have hwrite := LazyCell.Step.write (s := s.view) (control_role hp)
    rwa [show InitRole.written () = ControlPhase.publish.role from rfl,
      ← control_view_goto] at hwrite
  | publish hp =>
    have hpublish := LazyCell.Step.publishReady (s := s.view) (control_role hp)
    rwa [show InitRole.ready = (ControlPhase.returned (.ok ())).role from rfl,
      ← control_view_goto] at hpublish
  | rollBack hp =>
    have hback := LazyCell.Step.rollBack (s := s.view) (control_role hp)
    rwa [show InitRole.outside = (ControlPhase.returned (.error
      (.internal "timer control mutex init failed"))).role from rfl,
      ← control_view_goto] at hback
  | lock hp =>
    have hread := LazyCell.Step.read (s := s.view) (control_role hp)
    rw [control_view_goto]
    cases hm : s.mutex with
    | none =>
      rw [show s.view.cell = none from hm] at hread
      exact hread
    | some u =>
      rw [show s.view.cell = some u from hm] at hread
      exact hread

theorem TimerServiceControl.refines :
    LazyCell.Refines (TimerServiceControl.system ι) TimerServiceControl.view where
  init s hs := by
    subst hs
    exact ⟨rfl, rfl, rfl, fun _ => rfl⟩
  step s t s' hs := control_step hs

theorem TimerServiceControl.retry (hstate : s.initState = .uninitialized)
    (hrest : (s.phase t).AtRest) :
    ∃ tr s', (TimerServiceControl.system ι).Steps s tr s' ∧ s'.phase t = .returned (.ok ()) := by
  have h : (TimerServiceControl.system ι).Steps s [] s := .refl s
  have h := h.snoc (.call hrest)
  have h := h.snoc (.loadUninitialized (Function.update_self _ _ _) hstate)
  have h := h.snoc (.win (Function.update_self _ _ _) hstate)
  have h := h.snoc (.create (Function.update_self _ _ _))
  have h := h.snoc (.fill (Function.update_self _ _ _))
  have h := h.snoc (.publish (Function.update_self _ _ _))
  exact ⟨_, _, h, Function.update_self _ _ _⟩

/-- What holds of the control in every interleaving; its caller uses the mutex only after `Ok`. -/
structure TimerServiceControl.Sound (s : TimerServiceControl ι) : Prop where
  exclusive : ∀ t u, (s.phase t).role.Owns → (s.phase u).role.Owns → t = u
  once : s.created.length ≤ 1
  defined : ∀ t, s.phase t ≠ .undefined
  answered : ∀ t, s.phase t = .returned (.ok ()) → s.created = [()] ∧ s.mutex = some ()
  rolledBack : ∀ t s', s.phase t = .rollBack → (TimerServiceControl.system ι).step s t s' →
    s'.initState = .uninitialized
  retry : s.initState = .uninitialized → ∀ t, (s.phase t).AtRest →
    ∃ tr s', (TimerServiceControl.system ι).Steps s tr s' ∧ s'.phase t = .returned (.ok ())
  forever : s.initState = .ready →
    ∀ tr s', (TimerServiceControl.system ι).Steps s tr s' → s'.initState = .ready

theorem TimerServiceControl.sound (hr : (TimerServiceControl.system ι).Reachable s) : s.Sound where
  exclusive := TimerServiceControl.refines.safe.exclusive s hr
  once := TimerServiceControl.refines.safe.once s hr
  defined t ht := by
    obtain ⟨key, hnone, -⟩ :=
      TimerServiceControl.refines.safe.answered s hr t none (control_role ht)
    cases hnone
  answered t ht := by
    obtain ⟨key, hmade, hcell⟩ :=
      TimerServiceControl.refines.safe.readable s hr t (control_role ht)
    exact ⟨hmade, hcell⟩
  rolledBack t s' ht hs :=
    (TimerServiceControl.refines.safe.rolledBack s t s' hr (control_role ht) hs).1
  retry hstate _ hrest := TimerServiceControl.retry hstate hrest
  forever := TimerServiceControl.refines.safe.forever s hr

end Control

/-- Both are initialised safely by any number of threads, and a failed attempt can be repeated. -/
theorem oneTime_initialisation (ι κ : Type) [DecidableEq ι] :
    (∀ s, (TaskTlsSlot.system ι κ).Reachable s → s.Sound) ∧
      ∀ s, (TimerServiceControl.system ι).Reachable s → s.Sound :=
  ⟨fun _ hr => TaskTlsSlot.sound hr, fun _ hr => TimerServiceControl.sound hr⟩

/-- The first thread fails to create the key while the second spins; the second tries again and
succeeds. -/
theorem oneTime_initialisation_retried :
    ∃ s, (TaskTlsSlot.system Bool Nat).Reachable s ∧ s.phase true = .returned (.ok 7) ∧
      s.created = [7] := by
  have h : (TaskTlsSlot.system Bool Nat).Reachable ⟨.uninitialized, none, [], fun _ => .idle⟩ :=
    .start rfl
  have h := h.snoc (.call (t := false) trivial)
  have h := h.snoc (.fastMiss (t := false) rfl (by nofun))
  have h := h.snoc (.win (t := false) rfl rfl)
  have h := h.snoc (.call (t := true) trivial)
  have h := h.snoc (.fastMiss (t := true) rfl (by nofun))
  have h := h.snoc (.lose (t := true) rfl (by nofun))
  have h := h.snoc (.createFails (t := false) rfl)
  have h := h.snoc (.rollBack (t := false) rfl)
  have h := h.snoc (.spinFailed (t := true) rfl rfl)
  have h := h.snoc (.call (t := true) trivial)
  have h := h.snoc (.fastMiss (t := true) rfl (by nofun))
  have h := h.snoc (.win (t := true) rfl rfl)
  have h := h.snoc (.create (t := true) 7 rfl)
  have h := h.snoc (.write (t := true) rfl)
  have h := h.snoc (.publish (t := true) rfl)
  exact ⟨_, h, rfl, ((oneTime_initialisation Bool Nat).1 _ h).answered true 7 (.inl rfl)⟩

end OsalRust.Posix
