import OsalRust.FreeRtos.TaskLaws
import OsalRust.Posix.TaskLaws
import OsalRust.Shared.RuntimeInvariant

/-!
# The runtime lease of a task

The lease lives in an object that the public handles share with the trampoline. Once `spawn` has
returned and the last handle is gone, the trampoline alone decides how long the task counts as an
active object, and a successful join does not wait for it in every path.
-/

namespace OsalRust

open Framework

/-- `shutdown` of a running runtime with this many active objects. -/
def Runtime.ShutdownRefused (w : UsizeWidth) (objects : Nat) : Prop :=
  Runtime.beginShutdown w (Runtime.encode w .running objects) = .ok (.error .busy)

theorem Runtime.shutdownRefused_iff {w : UsizeWidth} {objects : Nat} (h : objects ≤ 1) :
    ShutdownRefused w objects ↔ objects ≠ 0 := by
  have hpow : 2 ^ 2 ≤ 2 ^ (w.bits - 2) := Nat.pow_le_pow_right Nat.two_pos (by have := w.ge; omega)
  have hfit : objects ≤ maxCount w := by
    rw [maxCount_eq]
    omega
  unfold ShutdownRefused beginShutdown
  rw [decodeState_encode hfit, decodeCount_encode hfit]
  by_cases h0 : objects = 0
  · simp [h0]
  · simp [h0]

/-- One unit for the whole task while anybody holds a reference. -/
def leaseOf (refs : Nat) : Nat := if refs = 0 then 0 else 1

theorem shutdownRefused_leaseOf (w : UsizeWidth) (refs : Nat) :
    Runtime.ShutdownRefused w (leaseOf refs) ↔ refs ≠ 0 := by
  unfold leaseOf
  by_cases h : refs = 0
  · rw [if_pos h, Runtime.shutdownRefused_iff (Nat.zero_le 1)]
    exact iff_of_false (fun h0 => h0 rfl) (fun h0 => h0 h)
  · rw [if_neg h, Runtime.shutdownRefused_iff le_rfl]
    exact iff_of_true Nat.one_ne_zero h

/-! ### Systems of tasks -/

/-- What decides about the lease in a system of tasks: `done` once `spawn` has returned, `unjoined`
while nobody is inside a join, and `own` the references of the trampoline, which has dropped them
all once it has `handedBack`. -/
structure LeaseView (σ : Type) where
  done : σ → Prop
  unjoined : σ → Prop
  handles : σ → Nat
  own : σ → Nat
  handedBack : σ → Bool
  objects : σ → Nat

/-- A step is one of `spawn`, of somebody who uses a handle, of a join that has one, or of the
parts of the system that hold no handle. -/
inductive LeaseStep {σ ℓ : Type} (V : LeaseView σ) (ret : ℓ → Prop) (s : σ) (l : ℓ) (s' : σ) : Prop
  | spawner (hd : ¬ V.done s) (hj : V.unjoined s → V.unjoined s') (hl : ¬ ret l)
  | handle (hh : 0 < V.handles s) (hd : V.done s → V.done s')
  | join (hj : ¬ V.unjoined s) (hd : V.done s → V.done s') (hh : V.handles s' = V.handles s)
      (hb : V.handedBack s = true → V.handedBack s' = true)
  | holder (hd : V.done s → V.done s') (hj : V.unjoined s → V.unjoined s') (hl : ¬ ret l)
      (hh : V.handles s' = V.handles s) (hb : V.handedBack s = true → V.handedBack s' = true)

/-- A system in which only handles, `spawn` and the trampoline hold the lease. `ret` tells the
returns of a join. -/
structure Leased {σ ℓ : Type} (M : Lts σ ℓ) (ret : ℓ → Prop) extends LeaseView σ where
  init_unjoined : ∀ s, M.init s → unjoined s
  done_of_handles : ∀ s, M.Reachable s → 0 < handles s → done s
  step : ∀ s l s', M.step s l s' → LeaseStep toLeaseView ret s l s'
  objects_eq : ∀ s, done s → handles s = 0 → objects s = leaseOf (own s)
  own_eq : ∀ s, handedBack s = true → own s = 0

namespace Leased

variable {σ ℓ : Type} {M : Lts σ ℓ} {ret : ℓ → Prop} {s s' : σ} {l : ℓ}

theorem step_done (S : Leased M ret) (hd : S.done s) (hs : M.step s l s') : S.done s' := by
  cases S.step s l s' hs with
  | spawner hn => exact absurd hd hn
  | handle _ hstep => exact hstep hd
  | join _ hstep => exact hstep hd
  | holder hstep => exact hstep hd

theorem step_unjoined (S : Leased M ret) (hr : M.Reachable s) (hd : ¬ S.done s)
    (hj : S.unjoined s) (hs : M.step s l s') : S.unjoined s' ∧ ¬ ret l := by
  cases S.step s l s' hs with
  | spawner _ hstep hl => exact ⟨hstep hj, hl⟩
  | handle hh => exact absurd (S.done_of_handles s hr hh) hd
  | join hn => exact absurd hj hn
  | holder _ hstep hl => exact ⟨hstep hj, hl⟩

/-- A join that has returned had a handle, so `spawn` has returned too. -/
theorem done_of_ret (S : Leased M ret) {tr : List ℓ} (h : M.Run tr s) (hl : l ∈ tr)
    (hr : ret l) : S.done s :=
  h.stable_of_mem (Q := S.unjoined) S.init_unjoined (fun _ _ _ hd hs => S.step_done hd hs)
    (fun _ _ _ hr hd hj hs => S.step_unjoined hr hd hj hs) hl hr

theorem refused_iff (S : Leased M ret) {w : UsizeWidth} (hd : S.done s) (hh : S.handles s = 0) :
    Runtime.ShutdownRefused w (S.objects s) ↔ S.own s ≠ 0 := by
  rw [S.objects_eq s hd hh, shutdownRefused_leaseOf]

/-- Nobody gets a reference from nothing. -/
theorem step_handedBack (S : Leased M ret) (hd : S.done s) (hh : S.handles s = 0)
    (hb : S.handedBack s = true) (hs : M.step s l s') :
    S.handles s' = 0 ∧ S.handedBack s' = true := by
  cases S.step s l s' hs with
  | spawner hn => exact absurd hd hn
  | handle hpos => exact absurd hh hpos.ne'
  | join _ _ hsame hback => exact ⟨hsame.trans hh, hback hb⟩
  | holder _ _ _ hsame hback => exact ⟨hsame.trans hh, hback hb⟩

theorem neverRefused_iff (S : Leased M ret) {w : UsizeWidth} (h : M.Reachable s) (hd : S.done s)
    (hh : S.handles s = 0) (hown : S.own s = 0 → S.handedBack s = true) :
    (∀ tr s', M.Steps s tr s' → ¬ Runtime.ShutdownRefused w (S.objects s')) ↔
      S.handedBack s = true := by
  refine ⟨fun hn => hown ?_, fun hb tr s' hsteps => ?_⟩
  · have h0 := hn [] s (.refl s)
    rwa [S.refused_iff hd hh, not_not] at h0
  · have hinv : S.done s' ∧ S.handles s' = 0 ∧ S.handedBack s' = true :=
      hsteps.invariant h (I := fun _ s => S.done s ∧ S.handles s = 0 ∧ S.handedBack s = true)
        ⟨hd, hh, hb⟩ fun _ _ _ _ _ hi hs =>
          ⟨S.step_done hi.1 hs, S.step_handedBack hi.1 hi.2.1 hi.2.2 hs⟩
    obtain ⟨hd', hh', hb'⟩ := hinv
    rw [S.refused_iff hd' hh', not_not]
    exact S.own_eq s' hb'

end Leased

/-! ### FreeRTOS -/

namespace FreeRtos.Task

variable {ι : Type}

def System.activeObjects (s : System ι) : Nat := leaseOf s.identityRefs

/-- The trampoline has dropped the identity of its start payload. -/
def Trampoline.handedBack : Trampoline → Bool
  | .freed | .released | .deleted => true
  | _ => false

variable [DecidableEq ι] {c : TickSource} {code : ExitCode} {s s' : System ι} {l : Event ι}

/-- On account of the task, no shutdown from here on is refused. -/
def NeverRefused (c : TickSource) (code : ExitCode) (w : UsizeWidth) (s : System ι) : Prop :=
  ∀ tr s', (taskLts ι c code).Steps s tr s' → ¬ Runtime.ShutdownRefused w s'.activeObjects

omit [DecidableEq ι] in
@[simp] private theorem settle_spawner : s.settle.spawner = s.spawner := by
  unfold System.settle
  split <;> rfl

omit [DecidableEq ι] in
@[simp] private theorem settle_task : s.settle.task = s.task := by
  unfold System.settle
  split <;> rfl

def leaseView (ι : Type) : LeaseView (System ι) where
  done s := s.spawner = .done
  unjoined s := ∀ t, s.joiners t = .idle
  handles s := s.handles
  own s := s.task.identityRefs
  handedBack s := s.task.handedBack
  objects s := s.activeObjects

def Event.IsReturn (l : Event ι) : Prop := ∃ t r, l = .ret t r

private theorem lease_step (hs : Step c code s l s') :
    LeaseStep (leaseView ι) Event.IsReturn s l s' := by
  have hin : ¬ (Event.internal : Event ι).IsReturn := by
    rintro ⟨t, r, hl⟩
    cases hl
  have hspawns : ∀ {p : Spawner}, s.spawner = p → p ≠ .done → ¬ (leaseView ι).done s :=
    fun hp hne hd => hne (hp.symm.trans hd)
  have hjoins : ∀ {t : ι} {p : Joiner}, s.joiners t = p → p ≠ .idle → ¬ (leaseView ι).unjoined s :=
    fun ht hne hj => hne (ht.symm.trans (hj _))
  have hkeeps : ∀ {p : Trampoline} {b : Bool}, s.task = p → p.handedBack = false →
      s.task.handedBack = true → b = true := by
    rintro p b rfl hp hb
    cases hp.symm.trans hb
  cases hs with
  | createFailed e hp => exact .spawner (hspawns hp nofun) id hin
  | create hp => exact .spawner (hspawns hp nofun) id hin
  | spawned hp => exact .spawner (hspawns hp nofun) id hin
  | spawnFailed e hp => exact .spawner (hspawns hp nofun) (by simp [leaseView]) hin
  | install h => exact .holder id id hin rfl (hkeeps h rfl)
  | countUp h => exact .holder id id hin rfl (hkeeps h rfl)
  | entryReturns h => exact .holder id id hin rfl (hkeeps h rfl)
  | countDown h => exact .holder id id hin rfl (hkeeps h rfl)
  | clear h => exact .holder id id hin rfl (hkeeps h rfl)
  | storeCode h => exact .holder id id hin rfl (hkeeps h rfl)
  | storeFinished h => exact .holder id id hin rfl (hkeeps h rfl)
  | setBit h _ => exact .holder id id hin rfl (hkeeps h rfl)
  | setBitFails h _ => exact .holder id id hin rfl (hkeeps h rfl)
  | dropIdentity h => exact .holder id id hin rfl (hkeeps h rfl)
  | dropCompletion h =>
    exact .holder (by simp [leaseView]) (by simp [leaseView]) hin (by simp [leaseView])
      (fun _ => by simp [leaseView, Trampoline.handedBack])
  | delete h => exact .holder id id hin rfl (fun _ => rfl)
  | close h =>
    exact .holder (by simp [leaseView]) (by simp [leaseView]) hin (by simp [leaseView])
      (by simp [leaseView])
  | tick now h => exact .holder id id hin rfl id
  | clone h => exact .handle h id
  | drop h _ => exact .handle h id
  | invoke t timeout ht hh => exact .handle hh id
  | load t timeout h => exact .join (hjoins h nofun) id rfl id
  | read t h => exact .join (hjoins h nofun) id rfl id
  | poll t timeout h => exact .join (hjoins h nofun) id rfl id
  | prepare t timeout scheduler budget h => exact .join (hjoins h nofun) id rfl id
  | unprepared t timeout scheduler e h => exact .join (hjoins h nofun) id rfl id
  | attempt t deadline h => exact .join (hjoins h nofun) id rfl id
  | attemptFails t deadline h => exact .join (hjoins h nofun) id rfl id
  | expired t deadline h => exact .join (hjoins h nofun) id rfl id
  | block t deadline n h => exact .join (hjoins h nofun) id rfl id
  | unblockable t deadline e h => exact .join (hjoins h nofun) id rfl id
  | blockForever t h => exact .join (hjoins h nofun) id rfl id
  | wake t deadline h => exact .join (hjoins h nofun) id rfl id
  | elapse t deadline h => exact .join (hjoins h nofun) id rfl id
  | invalid t deadline p h => exact .join (hjoins h nofun) id rfl id
  | loadAcquired t h => exact .join (hjoins h nofun) id rfl id
  | loadUnavailable t h => exact .join (hjoins h nofun) id rfl id
  | ret t r h => exact .join (hjoins h nofun) id rfl id

def leased (ι : Type) [DecidableEq ι] (c : TickSource) (code : ExitCode) :
    Leased (taskLts ι c code) Event.IsReturn where
  toLeaseView := leaseView ι
  init_unjoined s h0 := by
    obtain ⟨-, -, -, -, -, -, -, -, -, hj⟩ := h0
    exact fun t => (hj t).1
  done_of_handles s hr hh := ((inv_of_reachable hr).done (.inl hh.ne')).1
  step s l s' hs := lease_step hs
  objects_eq s hd hh := by
    change s.spawner = .done at hd
    change s.handles = 0 at hh
    show leaseOf s.identityRefs = _
    rw [System.identityRefs, hd, hh, Spawner.refs, Nat.add_zero, Nat.zero_add]
    rfl
  own_eq s hb := by
    change s.task.handedBack = true at hb
    show s.task.identityRefs = 0
    cases hp : s.task <;> rw [hp] at hb <;> first | rfl | cases hb

omit [DecidableEq ι] in
private theorem handedBack_of_refs (ht : s.task.created = true) (h0 : s.task.identityRefs = 0) :
    s.task.handedBack = true := by
  cases hp : s.task <;> rw [hp] at h0 ht <;>
    first | rfl | exact absurd ht (by decide) | exact absurd h0 (by decide)

private theorem poll_and_drop {c : TickSource} {tr : List (Event Bool)} {task : Trampoline}
    {completed : Bool}
    (h : (taskLts Bool c .success).Run tr { finishedTask with task, completed }) :
    ∃ tr' s', (taskLts Bool c .success).Run tr' s' ∧ .ret true (.ok .success) ∈ tr' ∧
      s'.handles = 0 ∧ s'.task = task ∧ s'.spawner = .done := by
  have h1 := h.snoc (Step.invoke _ true .noWait rfl Nat.one_pos)
  have h2 := h1.snoc (Step.load _ true .noWait rfl)
  have h3 := h2.snoc (Step.read _ true rfl)
  have h4 := h3.snoc (Step.ret _ true (.ok .success) rfl)
  have h5 := h4.snoc (Step.drop _ Nat.one_pos (by
    rintro ⟨t, ht⟩
    cases t <;> cases ht))
  exact ⟨_, _, h5, by simp, rfl, rfl, rfl⟩

end FreeRtos.Task

/-! ### POSIX -/

namespace Posix.Task

variable {ι : Type}

def System.activeObjects (s : System ι) : Nat := leaseOf s.refs

/-- The trampoline has dropped its context guard and its start payload. -/
def Trampoline.handedBack : Trampoline → Bool
  | .released _ | .exited _ => true
  | _ => false

variable [DecidableEq ι] {timeMax : Nat} {code : ExitCode} {s s' : System ι} {l : Event ι}

/-- On account of the task, no shutdown from here on is refused. -/
def NeverRefused (timeMax : Nat) (code : ExitCode) (w : UsizeWidth) (s : System ι) : Prop :=
  ∀ tr s', (taskLts ι timeMax code).Steps s tr s' → ¬ Runtime.ShutdownRefused w s'.activeObjects

def leaseView (ι : Type) : LeaseView (System ι) where
  done s := s.spawner = .done
  unjoined s := ∀ t, s.joiners t = .idle
  handles s := s.handles
  own s := s.task.refs
  handedBack s := s.task.handedBack
  objects s := s.activeObjects

def Event.IsReturn (l : Event ι) : Prop := ∃ t r, l = .ret t r

private theorem lease_step (hs : Step timeMax code s l s') :
    LeaseStep (leaseView ι) Event.IsReturn s l s' := by
  have hin : ¬ (Event.internal : Event ι).IsReturn := by
    rintro ⟨t, r, hl⟩
    cases hl
  have hspawns : ∀ {p : Spawner}, s.spawner = p → p ≠ .done → ¬ (leaseView ι).done s :=
    fun hp hne hd => hne (hp.symm.trans hd)
  have hjoins : ∀ {t : ι} {p : Joiner}, s.joiners t = p → p ≠ .idle → ¬ (leaseView ι).unjoined s :=
    fun ht hne hj => hne (ht.symm.trans (hj _))
  have hkeeps : ∀ {p : Trampoline} {b : Bool}, s.task = p → p.handedBack = false →
      s.task.handedBack = true → b = true := by
    rintro p b rfl hp hb
    cases hp.symm.trans hb
  have hwakes : (leaseView ι).unjoined s → ∀ t, (s.joiners t).wake = .idle := by
    intro hj t
    rw [hj t]
    rfl
  cases hs with
  | createFailed e hp => exact .spawner (hspawns hp nofun) id hin
  | create hp => exact .spawner (hspawns hp nofun) id hin
  | store hp => exact .spawner (hspawns hp nofun) id hin
  | spawned hp => exact .spawner (hspawns hp nofun) id hin
  | startFailed e hp => exact .spawner (hspawns hp nofun) id hin
  | takeHandle e hp => exact .spawner (hspawns hp nofun) id hin
  | reapFailed e b hp => exact .spawner (hspawns hp nofun) id hin
  | spawnFailed e hp => exact .spawner (hspawns hp nofun) (by simp [leaseView]) hin
  | enterContext h => exact .holder id id hin rfl (hkeeps h rfl)
  | contextFailed e h => exact .holder id id hin rfl (hkeeps h rfl)
  | publishReady h => exact .holder id hwakes hin rfl (hkeeps h rfl)
  | publishFailed e h => exact .holder id hwakes hin rfl (hkeeps h rfl)
  | entryReturns h => exact .holder id id hin rfl (hkeeps h rfl)
  | setFinished h =>
    exact .holder id id (by rintro ⟨t, r, hl⟩; cases hl) rfl (hkeeps h rfl)
  | notify h => exact .holder id hwakes hin rfl (hkeeps h rfl)
  | clearContext h =>
    exact .holder (by simp [leaseView]) (by simp [leaseView]) hin (by simp [leaseView])
      (hkeeps h rfl)
  | release h =>
    exact .holder (by simp [leaseView]) (by simp [leaseView]) hin (by simp [leaseView])
      (hkeeps h rfl)
  | releaseFailed e h =>
    exact .holder (by simp [leaseView]) (by simp [leaseView]) hin (by simp [leaseView])
      (hkeeps h rfl)
  | terminate b h => exact .holder id id hin rfl (fun _ => rfl)
  | tick now h => exact .holder id id hin rfl id
  | clone h => exact .handle h id
  | drop h _ => exact .handle h (by simp [leaseView])
  | invoke t timeout ht hh => exact .handle hh id
  | look t h => exact .join (hjoins h nofun) id rfl id
  | overflow t d e h => exact .join (hjoins h nofun) id rfl id
  | deadline t d deadline h => exact .join (hjoins h nofun) id rfl id
  | forever t h => exact .join (hjoins h nofun) id rfl id
  | round t st c h hc =>
    refine .join (fun hj => ?_) id rfl id
    rw [hj t] at h
    cases h
  | spurious t deadline h => exact .join (hjoins h nofun) id rfl id
  | expire t deadline h => exact .join (h.elim (hjoins · nofun) (hjoins · nofun)) id rfl id
  | timeout t h => exact .join (hjoins h nofun) id rfl id
  | reap t b h => exact .join (hjoins h nofun) id rfl id
  | reapFails t h => exact .join (hjoins h nofun) id rfl id
  | conclude t h => exact .join (hjoins h nofun) id rfl id
  | recover t e h => exact .join (hjoins h nofun) id rfl id
  | ret t r h => exact .join (hjoins h nofun) id rfl id

def leased (ι : Type) [DecidableEq ι] (timeMax : Nat) (code : ExitCode) :
    Leased (taskLts ι timeMax code) Event.IsReturn where
  toLeaseView := leaseView ι
  init_unjoined s h0 := by
    obtain ⟨-, -, -, -, -, -, -, -, hj⟩ := h0
    exact fun t => (hj t).1
  done_of_handles s hr hh := (inv_of_reachable hr).spawner_done hh
  step s l s' hs := lease_step hs
  objects_eq s hd hh := by
    change s.spawner = .done at hd
    change s.handles = 0 at hh
    show leaseOf s.refs = _
    rw [System.refs, hd, hh, Spawner.refs, Nat.add_zero, Nat.zero_add]
    rfl
  own_eq s hb := by
    change s.task.handedBack = true at hb
    show s.task.refs = 0
    cases hp : s.task <;> rw [hp] at hb <;> first | rfl | cases hb

omit [DecidableEq ι] in
private theorem handedBack_of_refs (ht : s.task.created = true) (h0 : s.task.refs = 0) :
    s.task.handedBack = true := by
  cases hp : s.task <;> rw [hp] at h0 ht <;>
    first | rfl | exact absurd ht (by decide) | exact absurd h0 Nat.one_ne_zero |
      exact absurd h0 (by decide)

omit [DecidableEq ι] in
@[simp] private theorem settle_joins : s.settle.joins = s.joins := by
  unfold System.settle
  split <;> rfl

/-- `pthread_join` waits for the end of the thread, which is past the trampoline. -/
private theorem step_exited (hi : Inv code s) (h : s.joins ≠ 0 → ∃ b, s.task = .exited b)
    (hs : Step timeMax code s l s') (hn : s'.joins ≠ 0) : ∃ b, s'.task = .exited b := by
  have hexit : ∀ {p}, s.joins ≠ 0 → s.task = p → ∃ b, p = .exited b := by
    intro p h0 hp
    obtain ⟨b, hb⟩ := h h0
    exact ⟨b, hp.symm.trans hb⟩
  have hcreating : s.spawner = .creating → s.joins = 0 := by
    intro hp
    have hsp := hi.spawned
    simp only [Spawned, hp] at hsp
    exact hsp.2.2.1
  cases hs with
  | createFailed e hp => exact absurd (hcreating hp) hn
  | create hp => exact absurd (hcreating hp) hn
  | reapFailed e b hp ht => exact ⟨b, ht⟩
  | reap t b hp ht => exact ⟨b, ht⟩
  | enterContext ht => obtain ⟨_, ⟨⟩⟩ := hexit hn ht
  | contextFailed e ht => obtain ⟨_, ⟨⟩⟩ := hexit hn ht
  | publishReady ht => obtain ⟨_, ⟨⟩⟩ := hexit hn ht
  | publishFailed e ht => obtain ⟨_, ⟨⟩⟩ := hexit hn ht
  | entryReturns ht => obtain ⟨_, ⟨⟩⟩ := hexit hn ht
  | setFinished ht => obtain ⟨_, ⟨⟩⟩ := hexit hn ht
  | notify ht => obtain ⟨_, ⟨⟩⟩ := hexit hn ht
  | clearContext ht => obtain ⟨_, ⟨⟩⟩ := hexit (by simpa using hn) ht
  | release ht => obtain ⟨_, ⟨⟩⟩ := hexit (by simpa using hn) ht
  | releaseFailed e ht => obtain ⟨_, ⟨⟩⟩ := hexit (by simpa using hn) ht
  | terminate b ht => exact ⟨b, rfl⟩
  | spawnFailed => simpa using h (by simpa using hn)
  | drop => simpa using h (by simpa using hn)
  | _ => exact h hn

private theorem exited_of_joins (h : (taskLts ι timeMax code).Reachable s) :
    s.joins ≠ 0 → ∃ b, s.task = .exited b := by
  have hinv : Inv code s ∧ (s.joins ≠ 0 → ∃ b, s.task = .exited b) := by
    refine h.invariant (I := fun s => Inv code s ∧ (s.joins ≠ 0 → ∃ b, s.task = .exited b))
      (fun s h0 => ⟨init_inv h0, fun hn => ?_⟩)
      fun s l s' hi hs => ⟨step_inv hi.1 hs, step_exited hi.1 hi.2 hs⟩
    obtain ⟨-, -, -, -, -, -, h0, -, -⟩ := h0
    exact absurd h0 hn
  exact hinv.2

/-- A task that a waiting join has reaped keeps nothing. -/
private theorem handedBack_of_joined (h : (taskLts ι timeMax code).Reachable s)
    (hd : s.spawner = .done) (hh : s.handles = 0) {x : ExitCode} (hj : s.join = .joined x) :
    s.task.handedBack = true := by
  have hi := inv_of_reachable h
  have hpub : s.task.published = true := by
    refine Bool.eq_true_of_not_eq_false fun hp => ?_
    cases hj.symm.trans (hi.published.2 hp)
  have hexited : s.refs ≠ 0 → ∃ b, s.task = .exited b := by
    intro hr
    have hheld := (((spawned_done hd).1 hi.spawned).2.resolve_right fun h' => hr h'.1).2.2
    rw [hj] at hheld
    exact exited_of_joins h (by rw [hheld.2]; exact Nat.one_ne_zero)
  by_cases hr : s.refs = 0
  · have ht : s.task.refs = 0 := by
      unfold System.refs at hr
      omega
    cases hp : s.task <;> rw [hp] at hpub ht <;>
      first | rfl | exact absurd ht (by decide) | exact absurd hpub (by decide) | cases ht
  · obtain ⟨b, hb⟩ := hexited hr
    rw [hb]
    rfl

private theorem poll_and_drop {timeMax : Nat} {tr : List (Event Bool)} {task : Trampoline}
    (h : (taskLts Bool timeMax .success).Run tr { finishedTask with task }) :
    ∃ tr' s', (taskLts Bool timeMax .success).Run tr' s' ∧ .ret true (.ok .success) ∈ tr' ∧
      s'.handles = 0 ∧ s'.task = task ∧ s'.spawner = .done := by
  have h1 := h.snoc (Step.invoke _ true .noWait rfl Nat.one_pos)
  have h2 := h1.snoc (Step.look _ true rfl)
  have h3 := h2.snoc (Step.ret _ true (.ok .success) rfl)
  have h4 := h3.snoc (Step.drop _ Nat.one_pos (by
    rintro ⟨t, ht⟩
    cases t <;> cases ht))
  exact ⟨_, _, h4, by simp, by rw [settle_handles]; rfl, by rw [settle_task]; rfl,
    by rw [settle_spawner]; rfl⟩

omit [DecidableEq ι] in
private theorem created_of_done (hi : Inv code s) (hd : s.spawner = .done) :
    s.task.created = true := by
  have hst := hi.startup
  rw [((spawned_done hd).1 hi.spawned).1] at hst
  cases hp : s.task <;> rw [hp] at hst <;> first | rfl | cases hst

end Posix.Task

/-! ### Joined and dropped -/

/-- Once a join has returned a code and every public handle is gone, the task stops being an
active object exactly with the trampoline's own reference. On POSIX a join that has called
`pthread_join` has waited for that; a poll has not, and no join on FreeRTOS has. -/
theorem joined_task_releases_iff {ι : Type} [DecidableEq ι] (w : UsizeWidth) (code : ExitCode) :
    (∀ (c : FreeRtos.TickSource) (tr : List (FreeRtos.Task.Event ι)) (s : FreeRtos.Task.System ι)
      (t : ι) (x : ExitCode), (FreeRtos.Task.taskLts ι c code).Run tr s → .ret t (.ok x) ∈ tr →
        s.handles = 0 → (FreeRtos.Task.NeverRefused c code w s ↔ s.task.handedBack = true)) ∧
    ∀ (timeMax : Nat) (tr : List (Posix.Task.Event ι)) (s : Posix.Task.System ι) (t : ι)
      (x : ExitCode), (Posix.Task.taskLts ι timeMax code).Run tr s → .ret t (.ok x) ∈ tr →
        s.handles = 0 → (Posix.Task.NeverRefused timeMax code w s ↔ s.task.handedBack = true) ∧
          ∀ y, s.join = .joined y → Posix.Task.NeverRefused timeMax code w s := by
  refine ⟨fun c tr s t x hr hm hh => ?_, fun timeMax tr s t x hr hm hh => ?_⟩
  · have hd := (FreeRtos.Task.leased ι c code).done_of_ret hr hm ⟨t, _, rfl⟩
    have hsp := (FreeRtos.Task.inv_of_reachable hr.reachable).spawned
    unfold FreeRtos.Task.Spawned at hsp
    rw [show s.spawner = .done from hd] at hsp
    exact (FreeRtos.Task.leased ι c code).neverRefused_iff hr.reachable hd hh
      (FreeRtos.Task.handedBack_of_refs hsp)
  · have hd := (Posix.Task.leased ι timeMax code).done_of_ret hr hm ⟨t, _, rfl⟩
    have hc := Posix.Task.created_of_done (Posix.Task.inv_of_reachable hr.reachable) hd
    have hiff := (Posix.Task.leased ι timeMax code).neverRefused_iff (w := w) hr.reachable hd hh
      (Posix.Task.handedBack_of_refs hc)
    exact ⟨hiff, fun y hj => hiff.2 (Posix.Task.handedBack_of_joined hr.reachable hd hh hj)⟩

theorem joined_task_releases_iff_late :
    (∃ tr s, (FreeRtos.Task.taskLts Bool FreeRtos.millisecondTicks .success).Run tr s ∧
      .ret true (.ok .success) ∈ tr ∧ s.handles = 0 ∧
      FreeRtos.Task.NeverRefused FreeRtos.millisecondTicks .success width64 s) ∧
    ∃ tr s, (Posix.Task.taskLts Bool 0 .success).Run tr s ∧ .ret true (.ok .success) ∈ tr ∧
      s.handles = 0 ∧ Posix.Task.NeverRefused 0 .success width64 s := by
  have hiff := @joined_task_releases_iff Bool _ width64 .success
  refine ⟨?_, ?_⟩
  · obtain ⟨tr, h0⟩ := FreeRtos.Task.finishedTask_reachable FreeRtos.millisecondTicks
    have h1 := h0.snoc (FreeRtos.Task.Step.setBit _ rfl rfl)
    have h2 := h1.snoc (FreeRtos.Task.Step.dropIdentity _ rfl)
    obtain ⟨tr', s, hr, hm, hh, ht, -⟩ := FreeRtos.Task.poll_and_drop h2
    exact ⟨tr', s, hr, hm, hh, (hiff.1 _ _ _ _ _ hr hm hh).2 (by rw [ht]; rfl)⟩
  · have h0 := Posix.Task.finishedTask_run 0
    have h1 := h0.snoc (Posix.Task.Step.notify _ rfl)
    have h2 := h1.snoc (Posix.Task.Step.clearContext _ rfl)
    have h3 := h2.snoc (Posix.Task.Step.release _ rfl)
    obtain ⟨tr', s, hr, hm, hh, ht, -⟩ := Posix.Task.poll_and_drop h3
    exact ⟨tr', s, hr, hm, hh, (hiff.2 _ _ _ _ _ hr hm hh).1.2 (by rw [ht]; rfl)⟩

/-- A poll that succeeds as soon as the result is published, and the drop of the only handle:
the trampoline still holds the lease, and `shutdown` is refused. -/
theorem joined_task_refuses_shutdown :
    (∃ tr s, (FreeRtos.Task.taskLts Bool FreeRtos.millisecondTicks .success).Run tr s ∧
      .ret true (.ok .success) ∈ tr ∧ s.handles = 0 ∧
      Runtime.ShutdownRefused width64 s.activeObjects) ∧
    ∃ tr s, (Posix.Task.taskLts Bool 0 .success).Run tr s ∧ .ret true (.ok .success) ∈ tr ∧
      s.handles = 0 ∧ Runtime.ShutdownRefused width64 s.activeObjects := by
  refine ⟨?_, ?_⟩
  · obtain ⟨tr, h0⟩ := FreeRtos.Task.finishedTask_reachable FreeRtos.millisecondTicks
    obtain ⟨tr', s, hr, hm, hh, ht, hd⟩ := FreeRtos.Task.poll_and_drop h0
    have hown : s.task.identityRefs ≠ 0 := by
      rw [ht]
      decide
    exact ⟨tr', s, hr, hm, hh,
      ((FreeRtos.Task.leased Bool FreeRtos.millisecondTicks .success).refused_iff hd hh).2 hown⟩
  · have h0 := Posix.Task.finishedTask_run 0
    obtain ⟨tr', s, hr, hm, hh, ht, hd⟩ := Posix.Task.poll_and_drop h0
    have hown : s.task.refs ≠ 0 := by
      rw [ht]
      decide
    exact ⟨tr', s, hr, hm, hh, ((Posix.Task.leased Bool 0 .success).refused_iff hd hh).2 hown⟩

end OsalRust
