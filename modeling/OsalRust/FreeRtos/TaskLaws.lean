import OsalRust.FreeRtos.Task
import OsalRust.FreeRtos.WaitLaws

/-!
# Laws of the FreeRTOS task

The trampoline publishes in a fixed order, so its program counter determines the exit code, the
state, the completion bit, the live count and the TLS identity. What a joiner has seen then
bounds where the trampoline can be, and the references of the parties bound when the event group
goes.
-/

namespace OsalRust.FreeRtos.Task

open Framework

/-! ### Invariant -/

namespace Trampoline

def live : Trampoline → Nat
  | .entry | .returned => 1
  | _ => 0

def current : Trampoline → Bool
  | .installed | .entry | .returned | .left => true
  | _ => false

def hasCode : Trampoline → Bool
  | .coded | .finished | .notified | .freed | .released | .deleted => true
  | _ => false

def state : Trampoline → CompletionState
  | .finished | .notified | .freed | .released | .deleted => .finished
  | _ => .running

def completed : Trampoline → Bool
  | .notified | .freed | .released | .deleted => true
  | _ => false

/-- `xTaskCreate` has succeeded, and no wake of a committed result has failed. -/
def created : Trampoline → Bool
  | .unborn | .discarded | .panicked => false
  | _ => true

end Trampoline

variable {ι : Type}

/-- The shared data as the trampoline has left it. -/
structure Synced (code : ExitCode) (s : System ι) : Prop where
  live : s.live = s.task.live
  current : s.current = s.task.current
  exitCode : s.task.hasCode = true → s.exitCode = code
  state : s.state = s.task.state
  completed : s.completed = s.task.completed

def Counted (s : System ι) : Prop := s.deletions = if s.completionRefs = 0 then 1 else 0

def Spawned (s : System ι) : Prop :=
  match s.spawner with
  | .creating => s.task = .unborn ∧ s.handles = 0 ∧ s.closing = 0
  | .created => s.task.created = true ∧ s.handles = 0 ∧ s.closing = 0
  | .leaving _ | .failed _ => s.task = .discarded ∧ s.handles = 0 ∧ s.closing = 0
  | .done => s.task.created = true

/-- What a phase tells of the publication; past a missed one the call is not late. -/
def PhaseOk (code : ExitCode) (state : CompletionState) (late : Bool) : Joiner → Prop
  | .reading | .acquired => state = .finished
  | .missed _ | .attempt _ | .checking _ | .blocked _ | .returned (.error _) => late = false
  | .returned (.ok c) => c = code ∧ state = .finished
  | .panicked _ => False
  | _ => True

structure Inv (code : ExitCode) (s : System ι) : Prop where
  synced : Synced code s
  counted : Counted s
  spawned : Spawned s
  borrows : ∀ t, (s.joiners t).active = true → 0 < s.handles
  late : ∀ t, s.late t = true → s.state = .finished
  phase : ∀ t, PhaseOk code s.state (s.late t) (s.joiners t)

variable {c : TickSource} {code : ExitCode} {s s' : System ι} {l : Event ι}

theorem init_inv (h : Init s) : Inv code s := by
  obtain ⟨hst, hc, hd, hcur, hl, ht, hsp, hh, hcl, hj⟩ := h
  refine ⟨⟨?_, ?_, ?_, ?_, ?_⟩, ?_, ?_, fun t ha => ?_, fun t hlt => ?_, fun t => ?_⟩
  · rw [hl, ht]
    rfl
  · rw [hcur, ht]
    rfl
  · rw [ht]
    exact nofun
  · rw [hst, ht]
    rfl
  · rw [hc, ht]
    rfl
  · simp [Counted, System.completionRefs, hd, hh, hcl, hsp, ht, Spawner.refs,
      Trampoline.completionRefs]
  · simp [Spawned, hsp, ht, hh, hcl]
  · rw [(hj t).1] at ha
    cases ha
  · rw [(hj t).2] at hlt
    cases hlt
  · rw [(hj t).1]
    trivial

/-! ### Steps of the owners -/

private theorem PhaseOk.mono {p : Joiner} {state state' : CompletionState} {late : Bool}
    (h : PhaseOk code state late p) (hs : state = .finished → state' = .finished) :
    PhaseOk code state' late p := by
  match p, h with
  | .idle, _ => trivial
  | .enter _, _ => trivial
  | .reading, h => exact hs h
  | .missed _, h => exact h
  | .attempt _, h => exact h
  | .checking _, h => exact h
  | .blocked _, h => exact h
  | .acquired, h => exact hs h
  | .unavailable, _ => trivial
  | .returned (.ok _), h => exact ⟨h.1, hs h.2⟩
  | .returned (.error _), h => exact h

private theorem Inv.owner (h : Inv code s) (hj : s'.joiners = s.joiners) (hl : s'.late = s.late)
    (hy : Synced code s') (hc : Counted s') (hsp : Spawned s')
    (hst : s.state = .finished → s'.state = .finished)
    (hh : (∃ t, (s.joiners t).active = true) → 0 < s'.handles) : Inv code s' := by
  refine ⟨hy, hc, hsp, fun t ha => ?_, fun t hlt => ?_, fun t => ?_⟩
  · rw [hj] at ha
    exact hh ⟨t, ha⟩
  · rw [hl] at hlt
    exact hst (h.late t hlt)
  · rw [hj, hl]
    exact (h.phase t).mono hst

private theorem Inv.proceed (h : Inv code s) (hj : s'.joiners = s.joiners)
    (hl : s'.late = s.late) (hh : s'.handles = s.handles) (hy : Synced code s')
    (hc : Counted s') (hsp : Spawned s') (hst : s.state = .finished → s'.state = .finished) :
    Inv code s' :=
  h.owner hj hl hy hc hsp hst fun ⟨t, ha⟩ => hh ▸ h.borrows t ha

private theorem Counted.of_eq (h : Counted s) (hd : s'.deletions = s.deletions)
    (hr : s'.completionRefs = s.completionRefs) : Counted s' := by
  unfold Counted
  rw [hd, hr]
  exact h

/-- Giving up a reference: there was one, so the group was not deleted yet. -/
private theorem Counted.settle (h : Counted s) (hr : s.completionRefs ≠ 0)
    (hd : s'.deletions = s.deletions) : Counted s'.settle := by
  rw [Counted, if_neg hr] at h
  unfold Counted System.settle
  split
  · rename_i h0
    have h0' : ({ s' with deletions := s'.deletions + 1 } : System ι).completionRefs = 0 := h0
    rw [if_pos h0', hd, h]
  · rw [hd, h]

@[simp] private theorem settle_joiners : s.settle.joiners = s.joiners := by
  unfold System.settle
  split <;> rfl

@[simp] private theorem settle_late : s.settle.late = s.late := by
  unfold System.settle
  split <;> rfl

@[simp] private theorem settle_handles : s.settle.handles = s.handles := by
  unfold System.settle
  split <;> rfl

@[simp] private theorem settle_state : s.settle.state = s.state := by
  unfold System.settle
  split <;> rfl

private theorem Synced.settle (h : Synced code s) : Synced code s.settle := by
  unfold System.settle
  split
  · exact ⟨h.live, h.current, h.exitCode, h.state, h.completed⟩
  · exact h

private theorem Spawned.settle (h : Spawned s) : Spawned s.settle := by
  unfold System.settle
  split
  · exact h
  · exact h

private theorem Spawned.advance (h : Spawned s) (hc : s.task.created = true)
    (hsp : s'.spawner = s.spawner) (hh : s'.handles = s.handles) (hcl : s'.closing = s.closing)
    (hc' : s'.task.created = true) : Spawned s' := by
  unfold Spawned at h ⊢
  rw [hsp, hh, hcl]
  cases hp : s.spawner <;> rw [hp] at h
  · rw [h.1] at hc
    cases hc
  · exact ⟨hc', h.2⟩
  · rw [h.1] at hc
    cases hc
  · exact hc'
  · rw [h.1] at hc
    cases hc

private theorem Inv.advance (h : Inv code s)
    (hsame : s'.joiners = s.joiners ∧ s'.late = s.late ∧ s'.handles = s.handles ∧
      s'.closing = s.closing ∧ s'.spawner = s.spawner ∧ s'.deletions = s.deletions)
    (hc : s.task.created = true) (hc' : s'.task.created = true)
    (hr : s'.task.completionRefs = s.task.completionRefs) (hy : Synced code s')
    (hst : s.state = .finished → s'.state = .finished) : Inv code s' := by
  obtain ⟨hj, hl, hh, hcl, hsp, hd⟩ := hsame
  refine h.proceed hj hl hh hy (h.counted.of_eq hd ?_) (h.spawned.advance hc hsp hh hcl hc') hst
  unfold System.completionRefs
  rw [hh, hcl, hsp, hr]

private theorem Inv.giveUp (h : Inv code s) (hj : s'.joiners = s.joiners) (hl : s'.late = s.late)
    (hh : s'.handles = s.handles) (hst : s'.state = s.state) (hd : s'.deletions = s.deletions)
    (hr : s.completionRefs ≠ 0) (hy : Synced code s') (hsp : Spawned s') :
    Inv code s'.settle :=
  h.proceed (by simpa using hj) (by simpa using hl) (by simpa using hh) hy.settle
    (h.counted.settle hr hd) hsp.settle (by simp [hst])

private theorem completionRefs_pos (ht : 0 < s.task.completionRefs) : s.completionRefs ≠ 0 := by
  unfold System.completionRefs
  omega

private theorem inv_task (h : Inv code s) :
    (s.task = .start → Inv code { s with task := .installed, current := true }) ∧
    (s.task = .installed → Inv code { s with task := .entry, live := s.live + 1 }) ∧
    (s.task = .entry → Inv code { s with task := .returned }) ∧
    (s.task = .returned → Inv code { s with task := .left, live := s.live - 1 }) ∧
    (s.task = .left → Inv code { s with task := .cleared, current := false }) := by
  obtain ⟨hlive, hcur, hcode, hst, hbit⟩ := h.synced
  refine ⟨fun ht => ?_, fun ht => ?_, fun ht => ?_, fun ht => ?_, fun ht => ?_⟩ <;>
    rw [ht] at hlive hcur hst hbit
  · exact h.advance ⟨rfl, rfl, rfl, rfl, rfl, rfl⟩ (by rw [ht]; rfl) rfl (by rw [ht]; rfl)
      ⟨hlive, rfl, nofun, hst, hbit⟩ id
  · exact h.advance ⟨rfl, rfl, rfl, rfl, rfl, rfl⟩ (by rw [ht]; rfl) rfl (by rw [ht]; rfl)
      ⟨congrArg (· + 1) hlive, hcur, nofun, hst, hbit⟩ id
  · exact h.advance ⟨rfl, rfl, rfl, rfl, rfl, rfl⟩ (by rw [ht]; rfl) rfl (by rw [ht]; rfl)
      ⟨hlive, hcur, nofun, hst, hbit⟩ id
  · exact h.advance ⟨rfl, rfl, rfl, rfl, rfl, rfl⟩ (by rw [ht]; rfl) rfl (by rw [ht]; rfl)
      ⟨congrArg (· - 1) hlive, hcur, nofun, hst, hbit⟩ id
  · exact h.advance ⟨rfl, rfl, rfl, rfl, rfl, rfl⟩ (by rw [ht]; rfl) rfl (by rw [ht]; rfl)
      ⟨hlive, rfl, nofun, hst, hbit⟩ id

private theorem inv_publish (h : Inv code s) :
    (s.task = .cleared → Inv code { s with task := .coded, exitCode := code }) ∧
    (s.task = .coded → Inv code { s with task := .finished, state := .finished }) ∧
    (s.task = .finished → Inv code { s with task := .notified, completed := true }) ∧
    (s.task = .notified → Inv code { s with task := .freed }) ∧
    (s.task = .freed → Inv code { s with task := .released }.settle) ∧
    (s.task = .released → Inv code { s with task := .deleted }) := by
  obtain ⟨hlive, hcur, hcode, hst, hbit⟩ := h.synced
  refine ⟨fun ht => ?_, fun ht => ?_, fun ht => ?_, fun ht => ?_, fun ht => ?_, fun ht => ?_⟩ <;>
    rw [ht] at hlive hcur hcode hst hbit
  · exact h.advance ⟨rfl, rfl, rfl, rfl, rfl, rfl⟩ (by rw [ht]; rfl) rfl (by rw [ht]; rfl)
      ⟨hlive, hcur, fun _ => rfl, hst, hbit⟩ id
  · exact h.advance ⟨rfl, rfl, rfl, rfl, rfl, rfl⟩ (by rw [ht]; rfl) rfl (by rw [ht]; rfl)
      ⟨hlive, hcur, hcode, rfl, hbit⟩ fun _ => rfl
  · exact h.advance ⟨rfl, rfl, rfl, rfl, rfl, rfl⟩ (by rw [ht]; rfl) rfl (by rw [ht]; rfl)
      ⟨hlive, hcur, hcode, hst, rfl⟩ id
  · exact h.advance ⟨rfl, rfl, rfl, rfl, rfl, rfl⟩ (by rw [ht]; rfl) rfl (by rw [ht]; rfl)
      ⟨hlive, hcur, hcode, hst, hbit⟩ id
  · exact h.giveUp rfl rfl rfl rfl rfl (completionRefs_pos (by rw [ht]; exact Nat.one_pos))
      ⟨hlive, hcur, hcode, hst, hbit⟩ (h.spawned.advance (by rw [ht]; rfl) rfl rfl rfl rfl)
  · exact h.advance ⟨rfl, rfl, rfl, rfl, rfl, rfl⟩ (by rw [ht]; rfl) rfl (by rw [ht]; rfl)
      ⟨hlive, hcur, hcode, hst, hbit⟩ id

private theorem Counted.of_pos (h : Counted s) (hd : s'.deletions = s.deletions)
    (hr : s.completionRefs ≠ 0) (hr' : s'.completionRefs ≠ 0) : Counted s' := by
  rw [Counted, if_neg hr] at h
  rw [Counted, if_neg hr', hd, h]

private theorem inv_spawn (h : Inv code s) :
    (∀ e, s.spawner = .creating → Inv code { s with spawner := .leaving e, task := .discarded }) ∧
    (s.spawner = .creating → Inv code { s with spawner := .created, task := .start }) ∧
    (s.spawner = .created → Inv code { s with spawner := .done, handles := 1 }) ∧
    (∀ e, s.spawner = .leaving e → Inv code { s with spawner := .failed e }.settle) := by
  obtain ⟨hlive, hcur, hcode, hst, hbit⟩ := h.synced
  have hsp := h.spawned
  unfold Spawned at hsp
  refine ⟨fun e hp => ?_, fun hp => ?_, fun hp => ?_, fun e hp => ?_⟩ <;> rw [hp] at hsp
  · obtain ⟨ht, hh, hcl⟩ := hsp
    rw [ht] at hlive hcur hst hbit
    refine h.proceed rfl rfl rfl ⟨hlive, hcur, nofun, hst, hbit⟩ (h.counted.of_pos rfl ?_ ?_)
      ⟨rfl, hh, hcl⟩ id
    · simp [System.completionRefs, hp, Spawner.refs]
    · simp [System.completionRefs, Spawner.refs]
  · obtain ⟨ht, hh, hcl⟩ := hsp
    rw [ht] at hlive hcur hst hbit
    refine h.proceed rfl rfl rfl ⟨hlive, hcur, nofun, hst, hbit⟩ (h.counted.of_pos rfl ?_ ?_)
      ⟨rfl, hh, hcl⟩ id
    · simp [System.completionRefs, hp, Spawner.refs]
    · simp [System.completionRefs, Spawner.refs]
  · refine h.owner rfl rfl ⟨hlive, hcur, hcode, hst, hbit⟩ (h.counted.of_pos rfl ?_ ?_) hsp.1 id
      fun _ => Nat.one_pos
    · simp [System.completionRefs, hp, Spawner.refs]
    · simp [System.completionRefs]
  · obtain ⟨ht, hh, hcl⟩ := hsp
    refine h.giveUp rfl rfl rfl rfl rfl ?_ ⟨hlive, hcur, hcode, hst, hbit⟩ ⟨ht, hh, hcl⟩
    simp [System.completionRefs, hp, Spawner.refs]

theorem Inv.done (h : Inv code s) (hh : s.handles ≠ 0 ∨ s.closing ≠ 0) :
    s.spawner = .done ∧ s.task.created = true := by
  have hsp := h.spawned
  unfold Spawned at hsp
  split at hsp
  · omega
  · omega
  · omega
  · omega
  · rename_i hd
    exact ⟨hd, hsp⟩

private theorem Inv.keepsDone (h : Inv code s) (hh : s.handles ≠ 0 ∨ s.closing ≠ 0)
    (hsp : s'.spawner = s.spawner) (ht : s'.task = s.task) : Spawned s' := by
  obtain ⟨hd, hc⟩ := h.done hh
  unfold Spawned
  rw [hsp, hd, ht]
  exact hc

private theorem inv_clone (h : Inv code s) (hh : 0 < s.handles) :
    Inv code { s with handles := s.handles + 1 } := by
  obtain ⟨hlive, hcur, hcode, hst, hbit⟩ := h.synced
  refine h.owner rfl rfl ⟨hlive, hcur, hcode, hst, hbit⟩ (h.counted.of_pos rfl ?_ ?_)
    (h.keepsDone (.inl hh.ne') rfl rfl) id fun _ => Nat.succ_pos _
  · unfold System.completionRefs
    omega
  · simp [System.completionRefs]

private theorem inv_drop (h : Inv code s) (hh : 0 < s.handles)
    (hb : (∃ t, (s.joiners t).active = true) → 1 < s.handles) :
    Inv code { s with handles := s.handles - 1, closing := s.closing + 1 } := by
  obtain ⟨hlive, hcur, hcode, hst, hbit⟩ := h.synced
  refine h.owner rfl rfl ⟨hlive, hcur, hcode, hst, hbit⟩ (h.counted.of_eq rfl ?_)
    (h.keepsDone (.inl hh.ne') rfl rfl) id fun ha => ?_
  · simp only [System.completionRefs]
    omega
  · exact Nat.sub_pos_of_lt (hb ha)

private theorem inv_close (h : Inv code s) (hc : 0 < s.closing) :
    Inv code { s with closing := s.closing - 1 }.settle := by
  obtain ⟨hlive, hcur, hcode, hst, hbit⟩ := h.synced
  refine h.giveUp rfl rfl rfl rfl rfl ?_ ⟨hlive, hcur, hcode, hst, hbit⟩
    (h.keepsDone (.inr hc.ne') rfl rfl)
  unfold System.completionRefs
  omega

/-! ### Steps of the joiners -/

variable [DecidableEq ι]

private theorem Inv.record (h : Inv code s) {t : ι} {p : Joiner} {b : Bool}
    (hb : b = true → s.state = .finished) (ha : p.active = true → 0 < s.handles)
    (hp : PhaseOk code s.state b p) :
    Inv code { s.move t p with late := Function.update s.late t b } := by
  obtain ⟨hlive, hcur, hcode, hst, hbit⟩ := h.synced
  refine ⟨⟨hlive, hcur, hcode, hst, hbit⟩, h.counted, h.spawned, fun u hu => ?_, fun u hu => ?_,
    fun u => ?_⟩
  · by_cases hut : u = t
    · subst hut
      have hu' : (Function.update s.joiners u p u).active = true := hu
      rw [Function.update_self] at hu'
      exact ha hu'
    · have hu' : (Function.update s.joiners t p u).active = true := hu
      rw [Function.update_of_ne hut] at hu'
      exact h.borrows u hu'
  · by_cases hut : u = t
    · subst hut
      have hu' : Function.update s.late u b u = true := hu
      rw [Function.update_self] at hu'
      exact hb hu'
    · have hu' : Function.update s.late t b u = true := hu
      rw [Function.update_of_ne hut] at hu'
      exact h.late u hu'
  · show PhaseOk code s.state (Function.update s.late t b u) (Function.update s.joiners t p u)
    by_cases hut : u = t
    · subst hut
      rw [Function.update_self, Function.update_self]
      exact hp
    · rw [Function.update_of_ne hut, Function.update_of_ne hut]
      exact h.phase u

private theorem Inv.move (h : Inv code s) {t : ι} {p : Joiner}
    (ha : p.active = true → 0 < s.handles) (hp : PhaseOk code s.state (s.late t) p) :
    Inv code (s.move t p) := by
  have hr := h.record (t := t) (b := s.late t) (h.late t) ha hp
  rwa [Function.update_eq_self] at hr

private theorem Inv.endWait (h : Inv code s) {t : ι} {p : Joiner}
    (ha : p.active = true → 0 < s.handles)
    (hp : PhaseOk code s.state (decide (s.state = .finished)) p) : Inv code (s.endWait t p) :=
  h.record of_decide_eq_true ha hp

omit [DecidableEq ι] in
private theorem Inv.undeleted (h : Inv code s) (hr : s.completionRefs ≠ 0) : s.deletions = 0 := by
  have hc := h.counted
  rwa [Counted, if_neg hr] at hc

omit [DecidableEq ι] in
private theorem Inv.undeleted_joiner (h : Inv code s) {t : ι}
    (ha : (s.joiners t).active = true) : s.deletions = 0 := by
  have hh := h.borrows t ha
  refine h.undeleted ?_
  unfold System.completionRefs
  omega

omit [DecidableEq ι] in
private theorem Inv.not_late (h : Inv code s) {t : ι} (hst : s.state = .running) :
    s.late t = false := by
  refine Bool.eq_false_of_not_eq_true fun hl => ?_
  cases hst.symm.trans (h.late t hl)

omit [DecidableEq ι] in
private theorem Inv.finished_of_bit (h : Inv code s) (hb : s.completed = true) :
    s.state = .finished := by
  have hbit := h.synced.completed
  rw [h.synced.state]
  rw [hb] at hbit
  cases ht : s.task <;> rw [ht] at hbit <;> first | rfl | cases hbit

omit [DecidableEq ι] in
private theorem Inv.finished (h : Inv code s) (hst : s.state = .finished) :
    s.exitCode = code ∧ s.live = 0 ∧ s.current = false := by
  obtain ⟨hlive, hcur, hcode, hs, -⟩ := h.synced
  rw [hst] at hs
  cases ht : s.task <;> rw [ht] at hs hlive hcur hcode <;>
    first | exact ⟨hcode rfl, hlive, hcur⟩ | cases hs

private theorem take_true {deletions : Nat} {completed : Bool}
    (h : take deletions completed = .ok true) : completed = true := by
  unfold take at h
  split at h
  · cases h
  · exact Except.ok.inj h

private theorem takeNow_true {deletions : Nat} {completed : Bool}
    (h : takeNow deletions completed = true) : completed = true := by
  unfold takeNow at h
  split at h
  · rename_i b hb
    subst h
    exact take_true hb
  · cases h

private theorem nativeTicks_ne_error (deadline now : Duration) (e : Error) :
    c.nativeTicks deadline now ≠ .error e := by
  unfold TickSource.nativeTicks
  rw [durationToTicksCeil_eq c.rate_pos c.rate_lt]
  exact nofun

private theorem inv_load (h : Inv code s) {t : ι} {timeout : Timeout}
    (ht : s.joiners t = .enter timeout) :
    Inv code (s.move t (afterLoad (.missed timeout) s.state)) := by
  have hh : 0 < s.handles := h.borrows t (by rw [ht]; rfl)
  cases hst : s.state with
  | running => exact h.move (fun _ => hh) (h.not_late hst)
  | finished => exact h.move (fun _ => hh) hst

private theorem inv_loadUnavailable (h : Inv code s) {t : ι} (ht : s.joiners t = .unavailable) :
    Inv code (s.move t (afterLoad (.returned (.error .timeout)) s.state)) := by
  have hh : 0 < s.handles := h.borrows t (by rw [ht]; rfl)
  cases hst : s.state with
  | running => exact h.move nofun (h.not_late hst)
  | finished => exact h.move (fun _ => hh) hst

private theorem inv_loadAcquired (h : Inv code s) {t : ι} (ht : s.joiners t = .acquired) :
    Inv code (s.move t (afterLoad (.panicked .bitBeforeFinished) s.state)) := by
  have hh : 0 < s.handles := h.borrows t (by rw [ht]; rfl)
  have hst := h.phase t
  rw [ht] at hst
  rw [show s.state = .finished from hst]
  exact h.move (fun _ => hh) hst

theorem step_inv (h : Inv code s) (hs : Step c code s l s') : Inv code s' := by
  have hphase : ∀ t p, s.joiners t = p → PhaseOk code s.state (s.late t) p :=
    fun t p hp => hp ▸ h.phase t
  have hmissed : ∀ t p, s.joiners t = p → (PhaseOk code s.state (s.late t) p → s.late t = false) →
      s.late t = false := fun t p hp hl => hl (hphase t p hp)
  have hborrow : ∀ t p, s.joiners t = p → p.active = true → 0 < s.handles :=
    fun t p hp ha => h.borrows t (hp ▸ ha)
  cases hs with
  | createFailed e hp => exact (inv_spawn h).1 e hp
  | create hp => exact (inv_spawn h).2.1 hp
  | spawned hp => exact (inv_spawn h).2.2.1 hp
  | spawnFailed e hp => exact (inv_spawn h).2.2.2 e hp
  | install ht => exact (inv_task h).1 ht
  | countUp ht => exact (inv_task h).2.1 ht
  | entryReturns ht => exact (inv_task h).2.2.1 ht
  | countDown ht => exact (inv_task h).2.2.2.1 ht
  | clear ht => exact (inv_task h).2.2.2.2 ht
  | storeCode ht => exact (inv_publish h).1 ht
  | storeFinished ht => exact (inv_publish h).2.1 ht
  | setBit ht _ => exact (inv_publish h).2.2.1 ht
  | setBitFails ht hd =>
    exact absurd (h.undeleted (completionRefs_pos (by rw [ht]; exact Nat.one_pos))) hd
  | dropIdentity ht => exact (inv_publish h).2.2.2.1 ht
  | dropCompletion ht => exact (inv_publish h).2.2.2.2.1 ht
  | delete ht => exact (inv_publish h).2.2.2.2.2 ht
  | clone hh => exact inv_clone h hh
  | drop hh hb => exact inv_drop h hh hb
  | close hc => exact inv_close h hc
  | invoke t timeout ht hh => exact h.endWait (fun _ => hh) trivial
  | load t timeout ht => exact inv_load h ht
  | read t ht =>
    have hst : s.state = .finished := hphase t _ ht
    exact h.move nofun ⟨(h.finished hst).1, hst⟩
  | poll t timeout ht hp => exact h.move nofun (hmissed t _ ht id)
  | prepare t timeout scheduler budget ht hp hb =>
    exact h.move (fun _ => hborrow t _ ht rfl) (hmissed t _ ht id)
  | unprepared t timeout scheduler e ht hp hb => exact h.move nofun (hmissed t _ ht id)
  | attempt t deadline ht hb =>
    exact h.endWait (fun _ => hborrow t _ ht rfl) (h.finished_of_bit (takeNow_true hb))
  | attemptFails t deadline ht hb => exact h.move (fun _ => hborrow t _ ht rfl) (hmissed t _ ht id)
  | expired t deadline ht hd => exact h.endWait (fun _ => hborrow t _ ht rfl) trivial
  | block t deadline n ht hd hn => exact h.move (fun _ => hborrow t _ ht rfl) (hmissed t _ ht id)
  | unblockable t deadline e ht hd hn => exact absurd hn (nativeTicks_ne_error _ _ _)
  | blockForever t ht => exact h.move (fun _ => hborrow t _ ht rfl) (hmissed t _ ht id)
  | wake t deadline ht hb =>
    exact h.endWait (fun _ => hborrow t _ ht rfl) (h.finished_of_bit (take_true hb))
  | elapse t deadline ht hd => exact h.move (fun _ => hborrow t _ ht rfl) (hmissed t _ ht id)
  | invalid t deadline p ht hb =>
    rw [take, h.undeleted_joiner (by rw [ht]; rfl)] at hb
    cases hb
  | loadAcquired t ht => exact inv_loadAcquired h ht
  | loadUnavailable t ht => exact inv_loadUnavailable h ht
  | ret t r ht => exact h.move nofun trivial
  | tick now hn =>
    obtain ⟨hlive, hcur, hcode, hst, hbit⟩ := h.synced
    exact ⟨⟨hlive, hcur, hcode, hst, hbit⟩, h.counted, h.spawned, h.borrows, h.late, h.phase⟩

theorem inv_of_reachable (h : (taskLts ι c code).Reachable s) : Inv code s :=
  h.invariant (fun _ h0 => init_inv h0) fun _ _ _ hi hs => step_inv hi hs

/-! ### The completion protocol -/

structure CompletionSafe (code : ExitCode) (s : System ι) : Prop where
  no_panic : (∀ t p, s.joiners t ≠ .panicked p) ∧ s.task ≠ .panicked
  late_ok : ∀ t r, s.late t = true → s.joiners t = .returned r → r = .ok code
  ok_after_exit : ∀ t x, s.joiners t = .returned (.ok x) →
    x = code ∧ s.state = .finished ∧ s.live = 0 ∧ s.current = false
  group_in_use : (∃ t, (s.joiners t).usesGroup = true) ∨ s.task = .finished → s.deletions = 0
  deleted_once : s.deletions = if s.completionRefs = 0 then 1 else 0

omit [DecidableEq ι] in
private theorem Inv.completionSafe (h : Inv code s) : CompletionSafe code s where
  no_panic := by
    refine ⟨fun t p ht => ?_, fun ht => ?_⟩
    · have hp := h.phase t
      rw [ht] at hp
      exact hp
    · have hsp := h.spawned
      unfold Spawned at hsp
      rw [ht] at hsp
      split at hsp
      · cases hsp.1
      · cases hsp.1
      · cases hsp.1
      · cases hsp.1
      · cases hsp
  late_ok t r hl hr := by
    have hp := h.phase t
    rw [hr] at hp
    cases r with
    | ok x => rw [hp.1]
    | error e => cases hl.symm.trans hp
  ok_after_exit t x hx := by
    have hp := h.phase t
    rw [hx] at hp
    exact ⟨hp.1, hp.2, (h.finished hp.2).2⟩
  group_in_use := by
    rintro (⟨t, ht⟩ | ht)
    · refine h.undeleted_joiner (t := t) ?_
      cases hp : s.joiners t <;> rw [hp] at ht <;> first | rfl | cases ht
    · exact h.undeleted (completionRefs_pos (by rw [ht]; exact Nat.one_pos))
  deleted_once := h.counted

/-- By steps of its own, the call of `t` returns the published code. -/
def Returns (c : TickSource) (code : ExitCode) (s : System ι) (t : ι) : Prop :=
  ∃ tr s', (taskLts ι c code).Steps s tr s' ∧ (∀ l ∈ tr, l = .joiner t) ∧
    s'.joiners t = .returned (.ok code)

private theorem Returns.of_step {t : ι} (hs : Step c code s (.joiner t) s')
    (h : Returns c code s' t) : Returns c code s t := by
  obtain ⟨tr, s'', hsteps, htr, hr⟩ := h
  have hnext : (taskLts ι c code).step s (.joiner t) s' := hs
  exact ⟨.joiner t :: tr, s'', .cons hnext hsteps, List.forall_mem_cons.2 ⟨rfl, htr⟩, hr⟩

private theorem returns_reading {t : ι} (h : Inv code s) (ht : s.joiners t = .reading) :
    Returns c code s t := by
  have hst := h.phase t
  rw [ht] at hst
  have hself : Function.update s.joiners t (.returned (.ok s.exitCode)) t = .returned (.ok code) := by
    rw [Function.update_self, (h.finished hst).1]
  exact .of_step (.read s t ht) ⟨[], _, .refl _, nofun, hself⟩

private theorem returns_loaded {t : ι} (h : Inv code s) {miss : Joiner}
    (hs : Step c code s (.joiner t) (s.move t (afterLoad miss s.state)))
    (hst : s.state = .finished) : Returns c code s t := by
  refine .of_step hs (returns_reading (step_inv h hs) ?_)
  show Function.update s.joiners t (afterLoad miss s.state) t = _
  rw [Function.update_self, hst]
  rfl

private theorem returns_acquired {t : ι} (h : Inv code s) (ht : s.joiners t = .acquired) :
    Returns c code s t := by
  have hst := h.phase t
  rw [ht] at hst
  exact returns_loaded h (.loadAcquired s t ht) hst

private theorem returns_blocked {t : ι} (h : Inv code s) (hb : s.completed = true)
    {deadline : Option Duration} (ht : s.joiners t = .blocked deadline) :
    Returns c code s t := by
  have hd := h.undeleted_joiner (t := t) (by rw [ht]; rfl)
  have hs : Step c code s (.joiner t) (s.endWait t .acquired) := .wake s t deadline ht (by
    rw [take, hd, hb]
    rfl)
  exact .of_step hs (returns_acquired (step_inv h hs) (Function.update_self _ _ _))

/-- The completion bit stays set: whoever waits for it, and whoever begins to, returns. -/
private theorem returns_waiting {t : ι} (h : Inv code s) (hb : s.completed = true)
    (ht : (s.joiners t).waits = true) : Returns c code s t := by
  have hst := h.finished_of_bit hb
  cases hp : s.joiners t with
  | blocked deadline => exact returns_blocked h hb hp
  | attempt deadline =>
    cases deadline with
    | none =>
      have hs : Step c code s (.joiner t) (s.move t (.blocked none)) := .blockForever s t hp
      exact .of_step hs (returns_blocked (step_inv h hs) hb (Function.update_self _ _ _))
    | some deadline =>
      have hd := h.undeleted_joiner (t := t) (by rw [hp]; rfl)
      have hs : Step c code s (.joiner t) (s.endWait t .acquired) := .attempt s t deadline hp (by
        rw [takeNow, take, hd, hb]
        rfl)
      exact .of_step hs (returns_acquired (step_inv h hs) (Function.update_self _ _ _))
  | checking deadline =>
    by_cases hd : deadline ≤ s.now
    · have hs : Step c code s (.joiner t) (s.endWait t .unavailable) := .expired s t deadline hp hd
      exact .of_step hs (returns_loaded (step_inv h hs)
        (.loadUnavailable _ t (Function.update_self _ _ _)) hst)
    · cases hn : c.nativeTicks deadline s.now with
      | error e => exact absurd hn (nativeTicks_ne_error _ _ _)
      | ok n =>
        have hs : Step c code s (.joiner t) (s.move t (.blocked (some deadline))) :=
          .block s t deadline n hp hd hn
        exact .of_step hs (returns_blocked (step_inv h hs) hb (Function.update_self _ _ _))
  | _ =>
    rw [hp] at ht
    cases ht

private theorem returns_late {t : ι} (h : Inv code s) (ha : (s.joiners t).active = true)
    (hl : s.late t = true) : Returns c code s t := by
  have hst := h.late t hl
  have hp := h.phase t
  cases ht : s.joiners t with
  | enter timeout => exact returns_loaded h (.load s t timeout ht) hst
  | reading => exact returns_reading h ht
  | acquired => exact returns_acquired h ht
  | unavailable => exact returns_loaded h (.loadUnavailable s t ht) hst
  | idle =>
    rw [ht] at ha
    cases ha
  | returned r =>
    rw [ht] at ha
    cases ha
  | panicked p =>
    rw [ht] at hp
    exact hp.elim
  | _ =>
    rw [ht] at hp
    cases hl.symm.trans hp

/-- The completion protocol in every run: the safety of every state reached, and the way to the
published code for a late call and for one that waits while the completion bit is set. -/
theorem completion_protocol (h : (taskLts ι c code).Reachable s) :
    CompletionSafe code s ∧ ∀ t, (s.joiners t).active = true →
      s.late t = true ∨ s.completed = true ∧ (s.joiners t).waits = true →
      Returns c code s t := by
  have hi := inv_of_reachable h
  refine ⟨hi.completionSafe, fun t ha hw => ?_⟩
  rcases hw with hl | ⟨hb, hw⟩
  · exact returns_late hi ha hl
  · exact returns_waiting hi hb hw

def freshTask : System Bool :=
  ⟨.running, .success, false, 0, false, 0, .unborn, .creating, 0, 0, Duration.zero, fun _ => .idle,
    fun _ => false⟩

def finishedTask : System Bool :=
  { freshTask with state := .finished, task := .finished, spawner := .done, handles := 1 }

theorem finishedTask_reachable (c : TickSource) :
    (taskLts Bool c .success).Reachable finishedTask := by
  have h0 : (taskLts Bool c .success).Run [] freshTask :=
    .start ⟨rfl, rfl, rfl, rfl, rfl, rfl, rfl, rfl, rfl, fun _ => ⟨rfl, rfl⟩⟩
  have h1 := h0.snoc (Step.create _ rfl)
  have h2 := h1.snoc (Step.spawned _ rfl)
  have h3 := h2.snoc (Step.install _ rfl)
  have h4 := h3.snoc (Step.countUp _ rfl)
  have h5 := h4.snoc (Step.entryReturns _ rfl)
  have h6 := h5.snoc (Step.countDown _ rfl)
  have h7 := h6.snoc (Step.clear _ rfl)
  have h8 := h7.snoc (Step.storeCode _ rfl)
  exact (h8.snoc (Step.storeFinished _ rfl)).reachable

/-- A timed join of the finished task before it loads the state. -/
def joinedLate : System Bool := finishedTask.endWait true (.enter (.after Duration.max))

theorem completion_protocol_late :
    (taskLts Bool millisecondTicks .success).Reachable joinedLate ∧
      CompletionSafe .success joinedLate ∧ Returns millisecondTicks .success joinedLate true := by
  have h : (taskLts Bool millisecondTicks .success).Reachable joinedLate :=
    (finishedTask_reachable millisecondTicks).snoc (Step.invoke _ true _ rfl Nat.one_pos)
  have hp := completion_protocol h
  exact ⟨h, hp.1, hp.2 true rfl (.inl rfl)⟩

end OsalRust.FreeRtos.Task
