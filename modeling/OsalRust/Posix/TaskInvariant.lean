import OsalRust.Posix.Task

/-!
# Invariant of the POSIX task

The spawner, the trampoline and the joiners pass the thread handle on: the spawner stores it, the
one joiner that took `Finished` to `Joining` spends it, and the last owner drops what is left.
-/

namespace OsalRust.Posix.Task

open Framework

def Trampoline.created : Trampoline → Bool
  | .unborn | .discarded => false
  | _ => true

def Trampoline.published : Trampoline → Bool
  | .finished | .notified | .cleared | .released true | .exited true => true
  | _ => false

def Trampoline.startup : Trampoline → StartupState → Prop
  | .unborn, st | .discarded, st | .start, st | .failing _, st | .entered, st => st = .pending
  | .failed _, st | .released false, st | .exited false, st => ∃ e, st = .failed e
  | _, st => st = .ready

variable {ι : Type}

/-- The thread handle while the task has an owner: the cell holds it until a joiner spends it,
and is empty afterwards. -/
def Held (s : System ι) : Prop :=
  s.detaches = 0 ∧
    match s.join with
    | .running | .finished _ => s.cell = .handle ∧ s.joins = 0
    | .joining _ => s.cell = .handle ∧ s.joins = 0 ∨ s.cell = .spent ∧ s.joins = 1
    | .joined _ => s.cell = .empty ∧ s.joins = 1

def Spawned (s : System ι) : Prop :=
  match s.spawner with
  | .creating =>
    s.task = .unborn ∧ s.cell = .empty ∧ s.joins = 0 ∧ s.detaches = 0 ∧ s.handles = 0
  | .created =>
    s.task.created = true ∧ s.cell = .empty ∧ s.joins = 0 ∧ s.detaches = 0 ∧ s.handles = 0
  | .waiting | .taking _ =>
    s.task.created = true ∧ s.cell = .handle ∧ s.joins = 0 ∧ s.detaches = 0 ∧ s.handles = 0
  | .reaping _ =>
    s.task.created = true ∧ s.cell = .empty ∧ s.joins = 0 ∧ s.detaches = 0 ∧ s.handles = 0
  | .leaving _ | .failed _ =>
    s.cell = .empty ∧ s.detaches = 0 ∧ s.handles = 0 ∧
      (s.task = .discarded ∧ s.joins = 0 ∨ (∃ b, s.task = .exited b) ∧ s.joins = 1)
  | .done =>
    s.startup = .ready ∧
      (0 < s.refs ∧ Held s ∨ s.refs = 0 ∧ s.cell = .empty ∧ s.joins + s.detaches = 1)

/-- What a joiner in a phase relies on. -/
def Allowed (code : ExitCode) (s : System ι) : Joiner → Prop
  | .idle | .returned (.error _) => True
  | .returned (.ok c) => c = code ∧ s.join ≠ .running
  | .blocked _ =>
    0 < s.handles ∧ (s.join = .running ∨ s.join = .joining code ∨
      s.join = .finished code ∧ s.task = .finished)
  | .reaping | .reaped (.error _) => 0 < s.handles ∧ s.join = .joining code ∧ s.cell = .handle
  | .reaped (.ok ()) => 0 < s.handles ∧ s.join = .joining code ∧ s.cell = .spent
  | _ => 0 < s.handles

structure Inv (code : ExitCode) (s : System ι) : Prop where
  startup : s.task.startup s.startup
  published : s.join = .running ↔ s.task.published = false
  code_eq : s.join = .running ∨ s.join.code = code
  spawned : Spawned s
  unclaimed : s.spawner ≠ .done → s.join = .running ∨ s.join = .finished code
  allowed : ∀ t, Allowed code s (s.joiners t)
  unique : ∀ t u, (s.joiners t).inReap = true → (s.joiners u).inReap = true → t = u

variable {timeMax : Nat} {code : ExitCode} {s s' : System ι} {l : Event ι}

theorem init_inv (h : Init s) : Inv code s := by
  obtain ⟨hj, hst, hc, ht, hsp, hh, hn, hd, hi⟩ := h
  refine ⟨?_, ?_, .inl hj, ?_, fun _ => .inl hj, fun t => ?_, fun t u ht => ?_⟩
  · rw [ht, hst]
    rfl
  · simp [hj, ht, Trampoline.published]
  · simp [Spawned, hsp, ht, hc, hn, hd, hh]
  · rw [(hi t).1]
    trivial
  · rw [(hi t).1] at ht
    cases ht

/-! ### What a joiner relies on -/

theorem Allowed.handles_pos {p : Joiner} (h : Allowed code s p) (hp : p.active = true) :
    0 < s.handles := by
  match p, h with
  | .enter _, h => exact h
  | .ready _, h => exact h
  | .blocked _, h => exact h.1
  | .woken _, h => exact h
  | .timedOut, h => exact h
  | .reaping, h => exact h.1
  | .reaped (.ok ()), h => exact h.1
  | .reaped (.error _), h => exact h.1

private theorem Allowed.of_inactive {p : Joiner} (h : Allowed code s p) (hp : p.active = false)
    (hj : s.join ≠ .running → s'.join ≠ .running) : Allowed code s' p := by
  match p, h with
  | .idle, _ => trivial
  | .returned (.ok _), h => exact ⟨h.1, hj h.2⟩
  | .returned (.error _), _ => trivial

private theorem Allowed.of_eq {p : Joiner} (h : Allowed code s p) (hj : s'.join = s.join)
    (hc : s'.cell = s.cell) (hh : 0 < s'.handles) (ht : s.task = .finished → s'.task = .finished) :
    Allowed code s' p := by
  match p, h with
  | .idle, _ => trivial
  | .returned (.ok _), h => exact ⟨h.1, hj ▸ h.2⟩
  | .returned (.error _), _ => trivial
  | .enter _, _ => exact hh
  | .ready _, _ => exact hh
  | .woken _, _ => exact hh
  | .timedOut, _ => exact hh
  | .blocked _, h =>
    exact ⟨hh, by rw [hj]; exact h.2.imp_right (Or.imp_right (And.imp_right ht))⟩
  | .reaping, h => exact ⟨hh, hj ▸ h.2.1, hc ▸ h.2.2⟩
  | .reaped (.ok ()), h => exact ⟨hh, hj ▸ h.2.1, hc ▸ h.2.2⟩
  | .reaped (.error _), h => exact ⟨hh, hj ▸ h.2.1, hc ▸ h.2.2⟩

private theorem Allowed.woken {p : Joiner} (h : Allowed code s p)
    (hr : p.inReap = false ∨ s'.join = s.join ∧ s'.cell = s.cell)
    (hj : s.join ≠ .running → s'.join ≠ .running) (hh : 0 < s.handles → 0 < s'.handles) :
    Allowed code s' p.wake := by
  match p, h with
  | .idle, _ => trivial
  | .returned (.ok _), h => exact ⟨h.1, hj h.2⟩
  | .returned (.error _), _ => trivial
  | .enter _, h => exact hh h
  | .ready _, h => exact hh h
  | .woken _, h => exact hh h
  | .timedOut, h => exact hh h
  | .blocked _, h => exact hh h.1
  | .reaping, h =>
    obtain ⟨hj', hc⟩ := hr.resolve_left (by decide)
    exact ⟨hh h.1, hj' ▸ h.2.1, hc ▸ h.2.2⟩
  | .reaped (.ok ()), h =>
    obtain ⟨hj', hc⟩ := hr.resolve_left (by decide)
    exact ⟨hh h.1, hj' ▸ h.2.1, hc ▸ h.2.2⟩
  | .reaped (.error _), h =>
    obtain ⟨hj', hc⟩ := hr.resolve_left (by intro he; cases he)
    exact ⟨hh h.1, hj' ▸ h.2.1, hc ▸ h.2.2⟩

theorem wake_inReap (p : Joiner) : p.wake.inReap = p.inReap := by
  cases p <;> rfl

theorem Inv.spawner_done (h : Inv code s) (hh : 0 < s.handles) : s.spawner = .done := by
  have hs := h.spawned
  unfold Spawned at hs
  split at hs
  all_goals first | assumption | omega

/-! ### The owners -/

/-- `Spawned` before the inner object is dropped with its last reference. -/
def Unsettled (s : System ι) : Prop :=
  if s.spawner = .done then
    s.startup = .ready ∧ (Held s ∨ s.refs = 0 ∧ s.cell = .empty ∧ s.joins + s.detaches = 1)
  else Spawned s

theorem spawned_done (hd : s.spawner = .done) :
    Spawned s ↔ s.startup = .ready ∧
      (0 < s.refs ∧ Held s ∨ s.refs = 0 ∧ s.cell = .empty ∧ s.joins + s.detaches = 1) := by
  simp only [Spawned, hd]

private theorem spawned_held (hd : s.spawner = .done) (hst : s.startup = .ready)
    (hr : 0 < s.refs) (h : Held s) : Spawned s :=
  (spawned_done hd).2 ⟨hst, .inl ⟨hr, h⟩⟩

private theorem emptyCell_of_empty (h : s.cell = .empty) : s.emptyCell = s := by
  cases s
  cases h
  rfl

theorem Held.drop_once (h : Held s) :
    s.joins + (s.detaches + if s.cell = .handle then 1 else 0) = 1 := by
  obtain ⟨hd, h⟩ := h
  split at h
  · simp [hd, h.1, h.2]
  · simp [hd, h.1, h.2]
  · rcases h with ⟨hc, hn⟩ | ⟨hc, hn⟩ <;> simp [hd, hc, hn]
  · simp [hd, h.1, h.2]

private theorem Unsettled.settle (h : Unsettled s) : Spawned s.settle := by
  unfold Unsettled at h
  unfold System.settle
  by_cases hr : s.refs = 0
  · rw [if_pos hr]
    by_cases hd : s.spawner = .done
    · rw [if_pos hd] at h
      have hr' : s.emptyCell.refs = 0 := hr
      have hsum : s.emptyCell.joins + s.emptyCell.detaches = 1 := by
        rcases h.2 with hheld | ⟨-, hc, hsum⟩
        · exact hheld.drop_once
        · simpa [System.emptyCell, hc] using hsum
      have hd' : s.emptyCell.spawner = .done := hd
      exact (spawned_done hd').2 ⟨h.1, .inr ⟨hr', rfl, hsum⟩⟩
    · rw [if_neg hd] at h
      have hsp : s.spawner.refs = 0 := by
        unfold System.refs at hr
        omega
      cases hp : s.spawner with
      | failed e =>
        have hc : s.cell = .empty := by
          simp only [Spawned, hp] at h
          exact h.1
        rwa [emptyCell_of_empty hc]
      | done => exact absurd hp hd
      | _ =>
        rw [hp] at hsp
        cases hsp
  · rw [if_neg hr]
    by_cases hd : s.spawner = .done
    · rw [if_pos hd] at h
      have hheld := h.2.resolve_right fun h' => hr h'.1
      exact (spawned_done hd).2 ⟨h.1, .inl ⟨Nat.pos_of_ne_zero hr, hheld⟩⟩
    · rwa [if_neg hd] at h

theorem Spawned.unsettled (h : Spawned s) : Unsettled s := by
  unfold Unsettled
  split
  · rename_i hd
    simp only [Spawned, hd] at h
    exact ⟨h.1, h.2.imp_left And.right⟩
  · exact h

private theorem Spawned.advance (h : Spawned s) (task : Trampoline) (hr : 0 < s.task.refs)
    (hc : s.task.created = true) (hc' : task.created = true) :
    Unsettled { s with task } := by
  unfold Unsettled
  by_cases hd : s.spawner = .done
  · rw [if_pos hd]
    simp only [Spawned, hd] at h
    refine ⟨h.1, .inl ?_⟩
    have hne : s.refs ≠ 0 := by
      unfold System.refs
      omega
    exact (h.2.resolve_right fun h' => hne h'.1).2
  · rw [if_neg hd]
    unfold Spawned at h ⊢
    cases hp : s.spawner <;> simp only [hp] at h ⊢
    · rw [h.1] at hc
      cases hc
    · exact ⟨hc', h.2⟩
    · exact ⟨hc', h.2⟩
    · exact ⟨hc', h.2⟩
    · exact ⟨hc', h.2⟩
    · rcases h.2.2.2 with ⟨ht, -⟩ | ⟨⟨b, ht⟩, -⟩ <;> rw [ht] at hr <;> cases hr
    · exact absurd hp hd
    · rcases h.2.2.2 with ⟨ht, -⟩ | ⟨⟨b, ht⟩, -⟩ <;> rw [ht] at hr <;> cases hr

private theorem Inv.owner (h : Inv code s) (hj : s'.join = s.join)
    (hjs : s'.joiners = s.joiners) (hst : s'.task.startup s'.startup)
    (hp : s'.task.published = s.task.published) (hsp : Spawned s')
    (hd : s'.spawner ≠ .done → s.spawner ≠ .done)
    (hk : (∃ t, (s.joiners t).active = true) → 0 < s'.handles ∧ s'.cell = s.cell ∧
      (s.task = .finished → s'.task = .finished)) : Inv code s' := by
  refine ⟨hst, ?_, ?_, hsp, ?_, fun t => ?_, fun t u => ?_⟩
  · rw [hj, hp]
    exact h.published
  · rw [hj]
    exact h.code_eq
  · rw [hj]
    exact fun hne => h.unclaimed (hd hne)
  · rw [hjs]
    cases ha : (s.joiners t).active with
    | false => exact (h.allowed t).of_inactive ha (by rw [hj]; exact id)
    | true =>
      obtain ⟨hh, hc, ht⟩ := hk ⟨t, ha⟩
      exact (h.allowed t).of_eq hj hc hh ht
  · rw [hjs]
    exact h.unique t u

theorem Inv.no_joiner (h : Inv code s) (hd : s.spawner ≠ .done) :
    ¬ ∃ t, (s.joiners t).active = true := by
  rintro ⟨t, ht⟩
  exact hd (h.spawner_done ((h.allowed t).handles_pos ht))

@[simp] theorem settle_join : s.settle.join = s.join := by
  unfold System.settle
  split <;> rfl

@[simp] theorem settle_task : s.settle.task = s.task := by
  unfold System.settle
  split <;> rfl

@[simp] theorem settle_startup : s.settle.startup = s.startup := by
  unfold System.settle
  split <;> rfl

@[simp] theorem settle_spawner : s.settle.spawner = s.spawner := by
  unfold System.settle
  split <;> rfl

@[simp] theorem settle_joiners : s.settle.joiners = s.joiners := by
  unfold System.settle
  split <;> rfl

@[simp] theorem settle_handles : s.settle.handles = s.handles := by
  unfold System.settle
  split <;> rfl

theorem settle_cell (h : 0 < s.handles) : s.settle.cell = s.cell := by
  have hne : s.refs ≠ 0 := by
    unfold System.refs
    omega
  unfold System.settle
  rw [if_neg hne]

/-! ### The steps -/

private theorem Inv.advance (h : Inv code s) {task : Trampoline} (hr : 0 < s.task.refs)
    (hc : s.task.created = true) (hc' : task.created = true) (hst : task.startup s.startup)
    (hp : task.published = s.task.published) (hf : s.task ≠ .finished) :
    Inv code { s with task }.settle := by
  have hsp := (h.spawned.advance task hr hc hc').settle
  refine h.owner (by simp) (by simp) (by simpa using hst) (by simpa using hp) hsp (by simp) ?_
  rintro ⟨t, ht⟩
  have hh : 0 < s.handles := (h.allowed t).handles_pos ht
  exact ⟨by simpa using hh, settle_cell hh, fun he => absurd he hf⟩

private theorem Inv.proceed (h : Inv code s) {task : Trampoline} (hr : 0 < s.task.refs)
    (hr' : 0 < task.refs) (hc : s.task.created = true) (hc' : task.created = true)
    (hst : task.startup s.startup) (hp : task.published = s.task.published)
    (hf : s.task ≠ .finished) : Inv code { s with task } := by
  have hadv := h.advance hr hc hc' hst hp hf
  have hne : ({ s with task } : System ι).refs ≠ 0 := by
    simp only [System.refs]
    omega
  rwa [System.settle, if_neg hne] at hadv

private theorem Inv.broadcast (h : Inv code s) (hst : s'.task.startup s'.startup)
    (hpub : s'.join = .running ↔ s'.task.published = false)
    (hcode : s'.join = .running ∨ s'.join.code = code) (hsp : Spawned s')
    (hun : s'.spawner ≠ .done → s'.join = .running ∨ s'.join = .finished code)
    (hj : s.join ≠ .running → s'.join ≠ .running) (hh : 0 < s.handles → 0 < s'.handles)
    (hjs : ∀ t, s'.joiners t = s.joiners t ∧
        ((s.joiners t).inReap = false ∨ s'.join = s.join ∧ s'.cell = s.cell) ∨
      Allowed code s' (s'.joiners t) ∧ (s'.joiners t).inReap = false ∧
        (s'.joiners t).isBlocked = false) :
    Inv code s'.wakeAll := by
  refine ⟨hst, hpub, hcode, hsp, hun, fun t => ?_, fun t u ht hu => ?_⟩
  · rcases hjs t with ⟨he, hr⟩ | ⟨ha, -, hb⟩
    · have hw := (h.allowed t).woken hr hj hh
      rw [← he] at hw
      exact hw
    · have hsame : (s'.joiners t).wake = s'.joiners t := by
        cases hq : s'.joiners t with
        | blocked deadline =>
          rw [hq] at hb
          cases hb
        | _ => rfl
      show Allowed code s' (s'.joiners t).wake
      rwa [hsame]
  · have hold : ∀ v, (s'.wakeAll.joiners v).inReap = true → (s.joiners v).inReap = true := by
      intro v hv
      have hv' : (s'.joiners v).inReap = true := (wake_inReap _).symm.trans hv
      rcases hjs v with ⟨he, -⟩ | ⟨-, hr, -⟩
      · rwa [← he]
      · rw [hr] at hv'
        cases hv'
    exact h.unique t u (hold t ht) (hold u hu)

/-! #### `spawn` -/

private theorem Inv.spawn (h : Inv code s) (hd : s.spawner ≠ .done) (hj : s'.join = s.join)
    (hjs : s'.joiners = s.joiners) (hst : s'.task.startup s'.startup)
    (hp : s'.task.published = s.task.published) (hsp : Spawned s') : Inv code s' :=
  h.owner hj hjs hst hp hsp (fun _ => hd) fun ha => absurd ha (h.no_joiner hd)

private theorem unborn_of_creating (h : Inv code s) (hc : s.spawner = .creating) :
    s.task = .unborn ∧ s.startup = .pending ∧ s.cell = .empty ∧ s.joins = 0 ∧ s.detaches = 0 ∧
      s.handles = 0 := by
  have hsp := h.spawned
  simp only [Spawned, hc] at hsp
  obtain ⟨ht, hcell, hj, hde, hh⟩ := hsp
  have hst := h.startup
  rw [ht] at hst
  exact ⟨ht, hst, hcell, hj, hde, hh⟩

private theorem inv_createFailed (h : Inv code s) (hc : s.spawner = .creating) (e : Error) :
    Inv code { s with spawner := .leaving e, task := .discarded } := by
  obtain ⟨ht, hst, hcell, hj, hde, hh⟩ := unborn_of_creating h hc
  refine h.spawn (by simp [hc]) rfl rfl hst ?_ ⟨hcell, hde, hh, .inl ⟨rfl, hj⟩⟩
  rw [ht]
  rfl

private theorem inv_create (h : Inv code s) (hc : s.spawner = .creating) :
    Inv code { s with spawner := .created, task := .start } := by
  obtain ⟨ht, hst, hcell, hj, hde, hh⟩ := unborn_of_creating h hc
  refine h.spawn (by simp [hc]) rfl rfl hst ?_ ⟨rfl, hcell, hj, hde, hh⟩
  rw [ht]
  rfl

private theorem inv_store (h : Inv code s) (hc : s.spawner = .created) :
    Inv code { s with spawner := .waiting, cell := .handle } := by
  have hsp := h.spawned
  simp only [Spawned, hc] at hsp
  obtain ⟨ht, -, hj, hde, hh⟩ := hsp
  exact h.spawn (by simp [hc]) rfl rfl h.startup rfl ⟨ht, rfl, hj, hde, hh⟩

private theorem inv_spawned (h : Inv code s) (hc : s.spawner = .waiting)
    (hst : s.startup = .ready) : Inv code { s with spawner := .done, handles := 1 } := by
  have hsp := h.spawned
  simp only [Spawned, hc] at hsp
  obtain ⟨-, hcell, hj, hde, -⟩ := hsp
  have hheld : Held { s with spawner := .done, handles := 1 } := by
    refine ⟨hde, ?_⟩
    rcases h.unclaimed (by simp [hc]) with hr | hr <;> simp only [hr] <;> exact ⟨hcell, hj⟩
  have hrefs : 0 < ({ s with spawner := .done, handles := 1 } : System ι).refs := by
    simp only [System.refs]
    omega
  exact h.spawn (by simp [hc]) rfl rfl h.startup rfl
    ((spawned_done rfl).2 ⟨hst, .inl ⟨hrefs, hheld⟩⟩)

private theorem inv_startFailed (h : Inv code s) (hc : s.spawner = .waiting) (e : Error) :
    Inv code { s with spawner := .taking e } := by
  have hsp := h.spawned
  simp only [Spawned, hc] at hsp
  exact h.spawn (by simp [hc]) rfl rfl h.startup rfl hsp

private theorem inv_takeHandle (h : Inv code s) {e : Error} (hc : s.spawner = .taking e) :
    Inv code { s with spawner := .reaping e, cell := .empty } := by
  have hsp := h.spawned
  simp only [Spawned, hc] at hsp
  obtain ⟨ht, -, hj, hde, hh⟩ := hsp
  exact h.spawn (by simp [hc]) rfl rfl h.startup rfl ⟨ht, rfl, hj, hde, hh⟩

private theorem inv_reapFailed (h : Inv code s) {e : Error} {b : Bool}
    (hc : s.spawner = .reaping e) (hx : s.task = .exited b) :
    Inv code { s with spawner := .leaving e, joins := s.joins + 1 } := by
  have hsp := h.spawned
  simp only [Spawned, hc] at hsp
  obtain ⟨-, hcell, hj, hde, hh⟩ := hsp
  refine h.spawn (by simp [hc]) rfl rfl h.startup rfl ?_
  exact ⟨hcell, hde, hh, .inr ⟨⟨b, hx⟩, by simp [hj]⟩⟩

private theorem inv_spawnFailed (h : Inv code s) {e : Error} (hc : s.spawner = .leaving e) :
    Inv code { s with spawner := .failed e }.settle := by
  have hsp := h.spawned
  simp only [Spawned, hc] at hsp
  have hsp' : Spawned { s with spawner := .failed e } := hsp
  exact h.spawn (by simp [hc]) (by simp) (by simp) (by simpa using h.startup) (by simp)
    hsp'.unsettled.settle

/-! #### The trampoline and the handles -/

private theorem inv_publishStartup (h : Inv code s) {task : Trampoline} {startup : StartupState}
    (hr : 0 < s.task.refs) (hc : s.task.created = true) (hc' : task.created = true)
    (hst : task.startup startup) (hready : s.startup = .pending)
    (hp : task.published = s.task.published) :
    Inv code { s with task, startup }.wakeAll := by
  have hne : s.spawner ≠ .done := by
    intro hd
    have hsp := (spawned_done hd).1 h.spawned
    rw [hready] at hsp
    cases hsp.1
  have hadv := h.spawned.advance task hr hc hc'
  have hsp : Spawned { s with task, startup } := by
    unfold Unsettled at hadv
    rw [if_neg hne] at hadv
    unfold Spawned at hadv ⊢
    cases hq : s.spawner with
    | done => exact absurd hq hne
    | _ =>
      simp only [hq] at hadv ⊢
      exact hadv
  refine h.broadcast hst ?_ h.code_eq hsp h.unclaimed id id fun t => .inl ⟨rfl, .inr ⟨rfl, rfl⟩⟩
  rw [hp]
  exact h.published

/-- The publication itself: nobody is in `do_pthread_join` yet, and a blocked joiner waits for
the broadcast. -/
private theorem Allowed.setFinished {p : Joiner} (h : Allowed code s p) (hr : s.join = .running) :
    Allowed code { s with task := .finished, join := .finished code } p := by
  match p, h with
  | .idle, _ => trivial
  | .returned (.ok _), h => exact absurd hr h.2
  | .returned (.error _), _ => trivial
  | .enter _, h => exact h
  | .ready _, h => exact h
  | .woken _, h => exact h
  | .timedOut, h => exact h
  | .blocked _, h => exact ⟨h.1, .inr (.inr ⟨rfl, rfl⟩)⟩
  | .reaping, h => cases hr.symm.trans h.2.1
  | .reaped (.ok ()), h => cases hr.symm.trans h.2.1
  | .reaped (.error _), h => cases hr.symm.trans h.2.1

private theorem spawned_setFinished (h : Inv code s) (ht : s.task = .left)
    (hrun : s.join = .running) :
    Spawned { s with task := .finished, join := .finished code } := by
  have hadv := h.spawned.advance .finished (by rw [ht]; decide) (by rw [ht]; rfl) rfl
  unfold Unsettled at hadv
  by_cases hd : s.spawner = .done
  · rw [if_pos hd] at hadv
    have hrefs : 0 < ({ s with task := .finished, join := .finished code } : System ι).refs := by
      simp only [System.refs, Trampoline.refs]
      omega
    have hne : ({ s with task := .finished } : System ι).refs ≠ 0 := hrefs.ne'
    obtain ⟨hde, hheld⟩ := hadv.2.resolve_right fun h' => hne h'.1
    simp only [hrun] at hheld
    exact spawned_held hd hadv.1 hrefs ⟨hde, hheld⟩
  · rw [if_neg hd] at hadv
    unfold Spawned at hadv ⊢
    cases hq : s.spawner with
    | done => exact absurd hq hd
    | _ =>
      simp only [hq] at hadv ⊢
      exact hadv

private theorem inv_setFinished (h : Inv code s) (ht : s.task = .left) :
    Inv code { s with task := .finished, join := .finished code } := by
  have hrun : s.join = .running := by
    rw [h.published, ht]
    rfl
  refine ⟨?_, ?_, .inr rfl, spawned_setFinished h ht hrun, fun _ => .inr rfl,
    fun t => (h.allowed t).setFinished hrun, h.unique⟩
  · have hst := h.startup
    rw [ht] at hst
    exact hst
  · simp [Trampoline.published]

private theorem inv_notify (h : Inv code s) (ht : s.task = .finished) :
    Inv code { s with task := .notified }.wakeAll := by
  have hadv := h.spawned.advance .notified (by rw [ht]; decide) (by rw [ht]; rfl) rfl
  have hsp : Spawned { s with task := .notified } := by
    have hset := hadv.settle
    have hne : ({ s with task := .notified } : System ι).refs ≠ 0 := by
      simp only [System.refs, Trampoline.refs]
      omega
    rwa [System.settle, if_neg hne] at hset
  have hst := h.startup
  have hpub := h.published
  rw [ht] at hst hpub
  exact h.broadcast hst hpub h.code_eq hsp h.unclaimed id id
    fun t => .inl ⟨rfl, .inr ⟨rfl, rfl⟩⟩

private theorem inv_terminate (h : Inv code s) {b : Bool} (ht : s.task = .released b) :
    Inv code { s with task := .exited b } := by
  have hst := h.startup
  rw [ht] at hst
  refine h.owner rfl rfl (by cases b <;> exact hst) (by rw [ht]; cases b <;> rfl) ?_ id ?_
  · have hsp := h.spawned
    have hrefs : ({ s with task := .exited b } : System ι).refs = s.refs := by
      simp only [System.refs, ht]
      rfl
    unfold Spawned at hsp ⊢
    rw [hrefs]
    cases hq : s.spawner <;> simp only [hq] at hsp ⊢
    · rw [ht] at hsp
      cases hsp.1
    · exact ⟨rfl, hsp.2⟩
    · exact ⟨rfl, hsp.2⟩
    · exact ⟨rfl, hsp.2⟩
    · exact ⟨rfl, hsp.2⟩
    · rcases hsp.2.2.2 with ⟨hx, -⟩ | ⟨⟨b', hx⟩, -⟩ <;> cases ht.symm.trans hx
    · exact hsp
    · rcases hsp.2.2.2 with ⟨hx, -⟩ | ⟨⟨b', hx⟩, -⟩ <;> cases ht.symm.trans hx
  · rintro ⟨t, ha⟩
    exact ⟨(h.allowed t).handles_pos ha, rfl, fun he => by cases ht.symm.trans he⟩

private theorem inv_clone (h : Inv code s) (hh : 0 < s.handles) :
    Inv code { s with handles := s.handles + 1 } := by
  have hd := h.spawner_done hh
  obtain ⟨hst, hown⟩ := (spawned_done hd).1 h.spawned
  have hrefs : s.refs ≠ 0 := by
    unfold System.refs
    omega
  have hheld := (hown.resolve_right fun h' => hrefs h'.1).2
  have hsp : Spawned { s with handles := s.handles + 1 } :=
    spawned_held hd hst (by simp only [System.refs]; omega) hheld
  exact h.owner rfl rfl h.startup rfl hsp id fun _ => ⟨Nat.succ_pos _, rfl, id⟩

private theorem inv_drop (h : Inv code s) (hh : 0 < s.handles)
    (hb : (∃ t, (s.joiners t).active = true) → 1 < s.handles) :
    Inv code { s with handles := s.handles - 1 }.settle := by
  have hd := h.spawner_done hh
  obtain ⟨hst, hown⟩ := (spawned_done hd).1 h.spawned
  have hrefs : s.refs ≠ 0 := by
    unfold System.refs
    omega
  have hun : Unsettled { s with handles := s.handles - 1 } := by
    unfold Unsettled
    rw [if_pos hd]
    exact ⟨hst, .inl (hown.resolve_right fun h' => hrefs h'.1).2⟩
  refine h.owner (by simp) (by simp) (by simpa using h.startup) (by simp) hun.settle (by simp) ?_
  intro ha
  have hpos : 0 < s.handles - 1 := Nat.sub_pos_of_lt (hb ha)
  exact ⟨by simpa using hpos, settle_cell hpos, by simp⟩

/-! #### The joiners -/

variable [DecidableEq ι]

private theorem Inv.move (h : Inv code s) {t : ι} {p : Joiner} {late : ι → Bool}
    (hp : Allowed code s p) (hr : p.inReap = false) : Inv code { s.move t p with late } := by
  refine ⟨h.startup, h.published, h.code_eq, h.spawned, h.unclaimed, fun u => ?_,
    fun u v hu hv => ?_⟩
  · show Allowed code s (Function.update s.joiners t p u)
    rw [Function.update_apply]
    split
    · exact hp
    · exact h.allowed u
  · have hold : ∀ v, (Function.update s.joiners t p v).inReap = true →
        (s.joiners v).inReap = true := by
      intro v hv
      rw [Function.update_apply] at hv
      split at hv
      · rw [hr] at hv
        cases hv
      · exact hv
    exact h.unique u v (hold u hu) (hold v hv)

omit [DecidableEq ι] in
theorem Inv.others (h : Inv code s) {t u : ι} (ht : (s.joiners t).inReap = true) (hu : u ≠ t) :
    (s.joiners u).inReap = false := by
  by_contra hr
  exact hu (h.unique u t (Bool.eq_true_of_not_eq_false hr) ht)

omit [DecidableEq ι] in
/-- Before the claim of `Finished` nobody is in `do_pthread_join`. -/
theorem Inv.no_reaper (h : Inv code s) (hj : s.join ≠ .joining code) (t : ι) :
    (s.joiners t).inReap = false := by
  have ha := h.allowed t
  cases hp : s.joiners t with
  | reaping =>
    rw [hp] at ha
    exact absurd ha.2.1 hj
  | reaped r =>
    rw [hp] at ha
    cases r with
    | ok u => exact absurd ha.2.1 hj
    | error e => exact absurd ha.2.1 hj
  | _ => rfl

omit [DecidableEq ι] in
private theorem Allowed.outside {p : Joiner} (h : Allowed code s p) (hr : p.inReap = false)
    (hh : 0 < s.handles → 0 < s'.handles) (hj : s.join ≠ .running → s'.join ≠ .running)
    (hb : s'.join = .joining code) : Allowed code s' p := by
  match p, h with
  | .idle, _ => trivial
  | .returned (.ok _), h => exact ⟨h.1, hj h.2⟩
  | .returned (.error _), _ => trivial
  | .enter _, h => exact hh h
  | .ready _, h => exact hh h
  | .woken _, h => exact hh h
  | .timedOut, h => exact hh h
  | .blocked _, h => exact ⟨hh h.1, .inr (.inl hb)⟩

private theorem Inv.reap (h : Inv code s) {t : ι} {p : Joiner}
    (ht : ∀ u, u ≠ t → (s.joiners u).inReap = false)
    (hjs : s'.joiners = Function.update s.joiners t p) (hp : Allowed code s' p)
    (htask : s'.task = s.task) (hst : s'.startup = s.startup) (hspawner : s'.spawner = .done)
    (hh : s'.handles = s.handles) (hj : s.join ≠ .running) (hj' : s'.join = .joining code)
    (hsp : Spawned s') : Inv code s' := by
  have hne : s'.join ≠ .running := by
    rw [hj']
    exact nofun
  refine ⟨?_, ?_, .inr (by rw [hj']; rfl), hsp, fun hd => absurd hspawner hd, fun u => ?_,
    fun u v hu hv => ?_⟩
  · rw [htask, hst]
    exact h.startup
  · rw [htask, ← h.published]
    exact iff_of_false hne hj
  · rw [hjs, Function.update_apply]
    split
    · exact hp
    · rename_i hu
      exact (h.allowed u).outside (ht u hu) (fun hpos => hh ▸ hpos) (fun _ => hne) hj'
  · have honly : ∀ w, (s'.joiners w).inReap = true → w = t := by
      intro w hw
      by_contra hwt
      rw [hjs, Function.update_of_ne hwt, ht w hwt] at hw
      cases hw
    exact (honly u hu).trans (honly v hv).symm

omit [DecidableEq ι] in
theorem Inv.held (h : Inv code s) (hh : 0 < s.handles) :
    s.spawner = .done ∧ s.startup = .ready ∧ 0 < s.refs ∧ Held s := by
  have hd := h.spawner_done hh
  obtain ⟨hst, hown⟩ := (spawned_done hd).1 h.spawned
  have hrefs : s.refs ≠ 0 := by
    unfold System.refs
    omega
  exact ⟨hd, hst, hown.resolve_right fun h' => hrefs h'.1⟩

private theorem inv_claim (h : Inv code s) {t : ι} {c : ExitCode} (hh : 0 < s.handles)
    (hj : s.join = .finished c) :
    Inv code { s.move t .reaping with join := .joining c } := by
  obtain ⟨hd, hst, hrefs, hde, hheld⟩ := h.held hh
  obtain rfl : c = code := by
    have hcode := h.code_eq.resolve_left (by rw [hj]; exact nofun)
    rwa [hj] at hcode
  simp only [hj] at hheld
  have hout := h.no_reaper (by rw [hj]; exact nofun)
  refine h.reap (fun u _ => hout u) rfl ⟨hh, rfl, hheld.1⟩ rfl rfl hd rfl ?_ rfl ?_
  · rw [hj]
    exact nofun
  · exact spawned_held hd hst hrefs ⟨hde, .inl hheld⟩

private theorem inv_round (h : Inv code s) {t : ι} {st : JoinState} {c : Claim}
    (hl : (s.joiners t).loops = true) (hc : claim s.join = (st, c)) :
    Inv code { s.move t (c.joiner (s.joiners t).deadline) with join := st } := by
  have hh : 0 < s.handles := by
    refine (h.allowed t).handles_pos ?_
    cases hp : s.joiners t <;> rw [hp] at hl <;> first | rfl | cases hl
  cases hj : s.join with
  | running =>
    rw [hj] at hc
    cases hc
    rw [← hj]
    exact h.move ⟨hh, .inl hj⟩ rfl
  | finished code' =>
    rw [hj] at hc
    cases hc
    exact inv_claim h hh hj
  | joining code' =>
    rw [hj] at hc
    cases hc
    have hcode := h.code_eq.resolve_left (by rw [hj]; exact nofun)
    rw [hj] at hcode
    rw [← hj]
    exact h.move ⟨hh, .inr (.inl (by rw [hj, ← hcode]; rfl))⟩ rfl
  | joined code' =>
    rw [hj] at hc
    cases hc
    have hcode := h.code_eq.resolve_left (by rw [hj]; exact nofun)
    rw [hj] at hcode
    rw [← hj]
    exact h.move ⟨hcode, by rw [hj]; exact nofun⟩ rfl

private theorem inv_tryJoin (h : Inv code s) {t : ι} (joins : Bool)
    (ht : s.joiners t = .reaping) :
    Inv code { s.move t (.reaped (tryJoin joins s.cell).2) with
      cell := (tryJoin joins s.cell).1
      joins := s.joins + if joins = true ∧ s.cell = .handle then 1 else 0 } := by
  have ha := h.allowed t
  rw [ht] at ha
  obtain ⟨hh, hj, hc⟩ := ha
  obtain ⟨hd, hst, hrefs, hde, hheld⟩ := h.held hh
  have hin : (s.joiners t).inReap = true := by
    rw [ht]
    rfl
  have hn : s.joins = 0 := by
    simp only [hj, hc] at hheld
    simpa using hheld
  refine h.reap (fun u hu => h.others hin hu) rfl ?_ rfl rfl hd rfl ?_ hj ?_
  · cases joins with
    | true =>
      simp only [hc, tryJoin, if_true]
      exact ⟨hh, hj, rfl⟩
    | false =>
      simp only [hc, tryJoin, Bool.false_eq_true, if_false]
      exact ⟨hh, hj, rfl⟩
  · rw [hj]
    exact nofun
  · refine spawned_held hd hst hrefs ⟨hde, ?_⟩
    simp only [System.move, hj]
    cases joins with
    | true => exact .inr (by simp [hc, tryJoin, hn])
    | false => exact .inl (by simp [hc, tryJoin, hn])

private theorem inv_conclude (h : Inv code s) {t : ι} {r : Result Unit}
    (ht : s.joiners t = .reaped r) (hs' : s'.join = (conclude r s.join).1)
    (htask : s'.task = s.task) (hstart : s'.startup = s.startup) (hsp' : s'.spawner = s.spawner)
    (hhan : s'.handles = s.handles)
    (hjs : s'.joiners = Function.update s.joiners t (.returned (conclude r s.join).2))
    (hcell : Held s') : Inv code s'.wakeAll := by
  have ha := h.allowed t
  rw [ht] at ha
  obtain ⟨hh, hj⟩ : 0 < s.handles ∧ s.join = .joining code := by
    cases r with
    | ok u => exact ⟨ha.1, ha.2.1⟩
    | error e => exact ⟨ha.1, ha.2.1⟩
  obtain ⟨hd, hst, hrefs, -⟩ := h.held hh
  have hin : (s.joiners t).inReap = true := by
    rw [ht]
    rfl
  have hne : s'.join ≠ .running ∧ s'.join.code = code ∧
      Allowed code s' (.returned (conclude r s.join).2) := by
    rw [hs', hj]
    cases r with
    | ok u => exact ⟨nofun, rfl, rfl, by rw [hs', hj]; exact nofun⟩
    | error e => exact ⟨nofun, rfl, trivial⟩
  refine h.broadcast ?_ ?_ (.inr hne.2.1) ?_ ?_ (fun _ => hne.1) (by rw [hhan]; exact id) ?_
  · rw [htask, hstart]
    exact h.startup
  · rw [htask, ← h.published]
    exact iff_of_false hne.1 (by rw [hj]; exact nofun)
  · refine spawned_held (hsp'.trans hd) (hstart.trans hst) ?_ hcell
    unfold System.refs at hrefs ⊢
    rwa [htask, hsp', hhan]
  · exact fun hn => absurd (hsp'.trans hd) hn
  · intro u
    by_cases hu : u = t
    · subst hu
      refine .inr ?_
      rw [hjs, Function.update_self]
      exact ⟨hne.2.2, rfl, rfl⟩
    · refine .inl ⟨?_, .inl (h.others hin hu)⟩
      rw [hjs, Function.update_of_ne hu]

omit [DecidableEq ι] in
private theorem Inv.active_handles (h : Inv code s) {t : ι} {p : Joiner} (ht : s.joiners t = p)
    (hp : p.active = true) : 0 < s.handles := by
  subst ht
  exact (h.allowed t).handles_pos hp

omit [DecidableEq ι] in
private theorem allowed_look (h : Inv code s) : Allowed code s (.returned (look s.join)) := by
  have hcode := h.code_eq
  cases hj : s.join with
  | running => trivial
  | joining c => trivial
  | finished c =>
    rw [hj] at hcode
    exact ⟨hcode.resolve_left nofun, by rw [hj]; exact nofun⟩
  | joined c =>
    rw [hj] at hcode
    exact ⟨hcode.resolve_left nofun, by rw [hj]; exact nofun⟩

private theorem held_conclude (h : Inv code s) {t : ι} (ht : s.joiners t = .reaped (.ok ())) :
    Held ({ s with join := (conclude (.ok ()) s.join).1 }.emptyCell.move t
      (.returned (conclude (.ok ()) s.join).2)) := by
  have ha := h.allowed t
  rw [ht] at ha
  obtain ⟨hh, hj, hc⟩ := ha
  obtain ⟨-, -, -, hde, hheld⟩ := h.held hh
  simp only [hj, hc] at hheld
  have hn : s.joins = 1 := by simpa using hheld
  exact ⟨by simp [System.move, System.emptyCell, hc, hde], rfl, hn⟩

private theorem held_recover (h : Inv code s) {t : ι} {e : Error}
    (ht : s.joiners t = .reaped (.error e)) :
    Held ({ s with join := (conclude (.error e) s.join).1 }.move t
      (.returned (conclude (.error e) s.join).2)) := by
  have ha := h.allowed t
  rw [ht] at ha
  obtain ⟨hh, hj, hc⟩ := ha
  obtain ⟨-, -, -, hde, hheld⟩ := h.held hh
  simp only [hj, hc] at hheld
  have hn : s.joins = 0 := by simpa using hheld
  exact ⟨hde, hc, hn⟩

theorem step_inv (h : Inv code s) (hs : Step timeMax code s l s') : Inv code s' := by
  have hst := h.startup
  cases hs with
  | createFailed e hc => exact inv_createFailed h hc e
  | create hc => exact inv_create h hc
  | store hc => exact inv_store h hc
  | spawned hc hr => exact inv_spawned h hc hr
  | startFailed e hc _ => exact inv_startFailed h hc e
  | takeHandle e hc _ => exact inv_takeHandle h hc
  | reapFailed e b hc hx => exact inv_reapFailed h hc hx
  | spawnFailed e hc => exact inv_spawnFailed h hc
  | enterContext ht =>
    rw [ht] at hst
    exact h.proceed (by rw [ht]; decide) (by decide) (by rw [ht]; rfl) rfl hst (by rw [ht]; rfl)
      (by simp [ht])
  | contextFailed e ht =>
    rw [ht] at hst
    exact h.proceed (by rw [ht]; decide) Nat.one_pos (by rw [ht]; rfl) rfl hst (by rw [ht]; rfl)
      (by simp [ht])
  | publishReady ht =>
    rw [ht] at hst
    exact inv_publishStartup h (by rw [ht]; decide) (by rw [ht]; rfl) rfl rfl hst (by rw [ht]; rfl)
  | publishFailed e ht =>
    rw [ht] at hst
    exact inv_publishStartup h (by rw [ht]; exact Nat.one_pos) (by rw [ht]; rfl) rfl ⟨e, rfl⟩ hst
      (by rw [ht]; rfl)
  | entryReturns ht =>
    rw [ht] at hst
    exact h.proceed (by rw [ht]; decide) (by decide) (by rw [ht]; rfl) rfl hst (by rw [ht]; rfl)
      (by simp [ht])
  | setFinished ht => exact inv_setFinished h ht
  | notify ht => exact inv_notify h ht
  | clearContext ht =>
    rw [ht] at hst
    exact h.advance (by rw [ht]; decide) (by rw [ht]; rfl) rfl hst (by rw [ht]; rfl) (by simp [ht])
  | release ht =>
    rw [ht] at hst
    exact h.advance (by rw [ht]; decide) (by rw [ht]; rfl) rfl hst (by rw [ht]; rfl) (by simp [ht])
  | releaseFailed e ht =>
    rw [ht] at hst
    exact h.advance (by rw [ht]; exact Nat.one_pos) (by rw [ht]; rfl) rfl hst (by rw [ht]; rfl)
      (by simp [ht])
  | terminate b ht => exact inv_terminate h ht
  | clone hh => exact inv_clone h hh
  | drop hh hb => exact inv_drop h hh hb
  | invoke t timeout ht hh => exact h.move hh rfl
  | look t ht => exact h.move (allowed_look h) (by cases look s.join <;> rfl)
  | overflow t d e ht hd => exact h.move trivial rfl
  | deadline t d deadline ht hd => exact h.move (h.active_handles ht rfl) rfl
  | forever t ht => exact h.move (h.active_handles ht rfl) rfl
  | round t st c hl hc => exact inv_round h hl hc
  | spurious t deadline ht => exact h.move (h.active_handles ht rfl) rfl
  | expire t deadline ht hd =>
    refine h.move ?_ rfl
    rcases ht with ht | ht <;> exact h.active_handles ht rfl
  | timeout t ht => exact h.move trivial rfl
  | reap t b ht hx => simpa using inv_tryJoin h true ht
  | reapFails t ht => exact inv_tryJoin h false ht
  | conclude t ht => exact inv_conclude h ht rfl rfl rfl rfl rfl rfl (held_conclude h ht)
  | recover t e ht => exact inv_conclude h ht rfl rfl rfl rfl rfl rfl (held_recover h ht)
  | ret t r ht => exact h.move trivial rfl
  | tick now hn =>
    exact ⟨h.startup, h.published, h.code_eq, h.spawned, h.unclaimed, h.allowed, h.unique⟩

theorem inv_of_reachable (h : (taskLts ι timeMax code).Reachable s) : Inv code s :=
  h.invariant (fun _ h0 => init_inv h0) fun _ _ _ hi hs => step_inv hi hs

end OsalRust.Posix.Task
