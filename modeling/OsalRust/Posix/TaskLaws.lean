import OsalRust.Posix.TaskInvariant

/-!
# Laws of the POSIX task

The join machine is safe in every run: one joiner at a time works on the thread handle, the
thread is joined or detached exactly once, and nobody sleeps through the result. A join that
begins after the result has been published need not succeed, though: a poll or a timed join may
find another joiner inside `pthread_join`.
-/

namespace OsalRust.Posix.Task

open Framework

variable {ι : Type} [DecidableEq ι] {timeMax : Nat} {code : ExitCode} {s s' : System ι}
  {l : Event ι}

/-! ### Safety of the join machine -/

/-- Who may access the cell of the thread handle. -/
inductive Toucher (ι : Type) where
  | joiner (t : ι)
  | spawner
  | owner

/-- The next operation of this party accesses the cell: a joiner between its claim and the end
of `do_pthread_join`, `spawn` before it stores the handle or takes it back, and the holder of
the last reference, about to give it up. -/
def Touches (s : System ι) : Toucher ι → Prop
  | .joiner t => s.joiners t = .reaping ∨ s.joiners t = .reaped (.ok ())
  | .spawner => s.spawner = .created ∨ ∃ e, s.spawner = .taking e
  | .owner => s.refs = 1 ∧ (s.handles = 1 ∧ (∀ t, (s.joiners t).active = false) ∨
      s.task = .cleared ∨ (∃ e, s.task = .failed e) ∨ ∃ e, s.spawner = .leaving e)

structure JoinSafe (code : ExitCode) (s : System ι) : Prop where
  one_reaper : ∀ t u, (s.joiners t).inReap = true → (s.joiners u).inReap = true → t = u
  one_toucher : ∀ a b, Touches s a → Touches s b → a = b
  joined_or_detached : s.joins + s.detaches ≤ 1
  reclaimed : s.refs = 0 → s.task.created = true → s.joins + s.detaches = 1
  published_code : ∀ t c, s.joiners t = .returned (.ok c) → c = code ∧ s.join ≠ .running
  retriable : ∀ c, 0 < s.handles → s.join = .finished c → s.cell = .handle
  reaper_joining : ∀ t, (s.joiners t).inReap = true → s.join = .joining code
  no_sleeper : s.join = .finished code ∧ s.task ≠ .finished ∨ s.join = .joined code →
    ∀ t, (s.joiners t).isBlocked = false

omit [DecidableEq ι] in
private theorem touches_joiner {t : ι} (h : Inv code s) (ht : Touches s (.joiner t)) :
    (s.joiners t).inReap = true ∧ (s.joiners t).active = true ∧ 0 < s.handles := by
  have ha := h.allowed t
  rcases ht with ht | ht <;> rw [ht] at ha ⊢ <;> exact ⟨rfl, rfl, ha.1⟩

omit [DecidableEq ι] in
private theorem one_toucher (h : Inv code s) (a b : Toucher ι) (ha : Touches s a)
    (hb : Touches s b) : a = b := by
  have hjo : ∀ t, Touches s (.joiner t) → ¬ Touches s .owner := by
    rintro t ht ⟨hrefs, hown⟩
    obtain ⟨-, hact, hh⟩ := touches_joiner h ht
    have hd := h.spawner_done hh
    unfold System.refs at hrefs
    rcases hown with ⟨-, hno⟩ | hc | ⟨e, hf⟩ | ⟨e, hl⟩
    · rw [hno t] at hact
      cases hact
    · rw [hc] at hrefs
      simp only [Trampoline.refs] at hrefs
      omega
    · rw [hf] at hrefs
      simp only [Trampoline.refs] at hrefs
      omega
    · rw [hd] at hl
      cases hl
  have hjs : ∀ t, Touches s (.joiner t) → ¬ Touches s .spawner := by
    rintro t ht hs
    obtain ⟨-, -, hh⟩ := touches_joiner h ht
    have hd := h.spawner_done hh
    rcases hs with hs | ⟨e, hs⟩ <;> rw [hd] at hs <;> cases hs
  have hso : Touches s .spawner → ¬ Touches s .owner := by
    rintro hs ⟨hrefs, hown⟩
    have hone : s.spawner.refs = 1 := by
      rcases hs with hs | ⟨e, hs⟩ <;> rw [hs] <;> rfl
    unfold System.refs at hrefs
    rcases hown with ⟨hh, -⟩ | hc | ⟨e, hf⟩ | ⟨e, hl⟩
    · omega
    · rw [hc] at hrefs
      simp only [Trampoline.refs] at hrefs
      omega
    · rw [hf] at hrefs
      simp only [Trampoline.refs] at hrefs
      omega
    · rcases hs with hs | ⟨e', hs⟩ <;> rw [hl] at hs <;> cases hs
  cases a with
  | joiner t =>
    cases b with
    | joiner u => rw [h.unique t u (touches_joiner h ha).1 (touches_joiner h hb).1]
    | spawner => exact absurd hb (hjs t ha)
    | owner => exact absurd hb (hjo t ha)
  | spawner =>
    cases b with
    | joiner u => exact absurd ha (hjs u hb)
    | spawner => rfl
    | owner => exact absurd hb (hso ha)
  | owner =>
    cases b with
    | joiner u => exact absurd ha (hjo u hb)
    | spawner => exact absurd ha (hso hb)
    | owner => rfl

omit [DecidableEq ι] in
private theorem joined_or_detached (h : Inv code s) :
    s.joins + s.detaches ≤ 1 ∧
      (s.refs = 0 → s.task.created = true → s.joins + s.detaches = 1) := by
  have hearly : 0 < s.spawner.refs → s.joins + s.detaches ≤ 1 → s.joins + s.detaches ≤ 1 ∧
      (s.refs = 0 → s.task.created = true → s.joins + s.detaches = 1) := by
    intro hpos hle
    refine ⟨hle, fun hr => ?_⟩
    unfold System.refs at hr
    omega
  have hsp := h.spawned
  unfold Spawned at hsp
  cases hq : s.spawner with
  | creating | created | waiting | taking | reaping | leaving =>
    simp only [hq] at hsp
    exact hearly (by simp [hq, Spawner.refs]) (by omega)
  | failed =>
    simp only [hq] at hsp
    obtain ⟨-, hde, -, hx⟩ := hsp
    rcases hx with ⟨ht, hj⟩ | ⟨-, hj⟩
    · refine ⟨by omega, fun _ hc => ?_⟩
      rw [ht] at hc
      cases hc
    · exact ⟨by omega, fun _ _ => by omega⟩
  | done =>
    simp only [hq] at hsp
    rcases hsp.2 with ⟨hpos, hheld⟩ | ⟨-, -, hsum⟩
    · have hone := hheld.drop_once
      exact ⟨by omega, fun hr => absurd hr hpos.ne'⟩
    · exact ⟨by omega, fun _ _ => hsum⟩

omit [DecidableEq ι] in
private theorem no_sleeper (h : Inv code s)
    (hj : s.join = .finished code ∧ s.task ≠ .finished ∨ s.join = .joined code) (t : ι) :
    (s.joiners t).isBlocked = false := by
  have ha := h.allowed t
  cases hp : s.joiners t with
  | blocked deadline =>
    rw [hp] at ha
    rcases ha.2 with hr | hr | ⟨hr, ht⟩ <;> rcases hj with ⟨hf, hne⟩ | hf
    · cases hr.symm.trans hf
    · cases hr.symm.trans hf
    · cases hr.symm.trans hf
    · cases hr.symm.trans hf
    · exact absurd ht hne
    · cases hr.symm.trans hf
  | _ => rfl

omit [DecidableEq ι] in
theorem Inv.joinSafe (h : Inv code s) : JoinSafe code s where
  one_reaper := h.unique
  one_toucher := one_toucher h
  joined_or_detached := (joined_or_detached h).1
  reclaimed := (joined_or_detached h).2
  published_code t c ht := by
    have ha := h.allowed t
    rw [ht] at ha
    exact ha
  retriable c hh hj := by
    obtain ⟨-, -, -, -, hheld⟩ := h.held hh
    simp only [hj] at hheld
    exact hheld.1
  reaper_joining t ht := by
    by_contra hj
    rw [h.no_reaper hj t] at ht
    cases ht
  no_sleeper := no_sleeper h

/-- A step that changes the cell belongs to a party that may access it. -/
def CellGuarded (s s' : System ι) : Prop := s'.cell ≠ s.cell → ∃ a, Touches s a

omit [DecidableEq ι] in
private theorem settle_guarded (hs : s'.cell = s.cell) (hrefs : s'.refs = 0 → Touches s .owner) :
    CellGuarded s s'.settle := by
  intro hne
  refine ⟨.owner, hrefs ?_⟩
  by_contra hr
  rw [System.settle, if_neg hr] at hne
  exact hne hs

private theorem step_guarded (hs : Step timeMax code s l s') : CellGuarded s s' := by
  cases hs with
  | store hc => exact fun _ => ⟨.spawner, .inl hc⟩
  | takeHandle e hc _ => exact fun _ => ⟨.spawner, .inr ⟨e, hc⟩⟩
  | spawnFailed e hc =>
    refine settle_guarded rfl fun hr => ⟨?_, .inr (.inr (.inr ⟨e, hc⟩))⟩
    simp only [System.refs, Spawner.refs, hc] at hr ⊢
    omega
  | clearContext ht =>
    refine settle_guarded rfl fun hr => ?_
    simp only [System.refs, Trampoline.refs] at hr
    omega
  | release ht =>
    refine settle_guarded rfl fun hr => ⟨?_, .inr (.inl ht)⟩
    simp only [System.refs, Trampoline.refs, ht] at hr ⊢
    omega
  | releaseFailed e ht =>
    refine settle_guarded rfl fun hr => ⟨?_, .inr (.inr (.inl ⟨e, ht⟩))⟩
    simp only [System.refs, Trampoline.refs, ht] at hr ⊢
    omega
  | drop hh hb =>
    refine settle_guarded rfl fun hr => ?_
    simp only [System.refs] at hr
    have hone : s.handles = 1 := by omega
    refine ⟨by unfold System.refs; omega, .inl ⟨hone, fun t => ?_⟩⟩
    by_contra ha
    have := hb ⟨t, Bool.eq_true_of_not_eq_false ha⟩
    omega
  | reap t b ht hx => exact fun _ => ⟨.joiner t, .inl ht⟩
  | reapFails t ht => exact fun _ => ⟨.joiner t, .inl ht⟩
  | conclude t ht => exact fun _ => ⟨.joiner t, .inr ht⟩
  | _ => exact fun hne => absurd rfl hne

/-- After a failed `pthread_join` the task is `Finished` again, with its handle. -/
private theorem recover_retriable {t : ι} (h : Inv code s)
    (hs : Step timeMax code s (.recovered t) s') :
    s'.join = .finished code ∧ s'.cell = .handle ∧ ∃ e, s'.joiners t = .returned (.error e) := by
  cases hs with
  | recover _ e ht =>
    have ha := h.allowed t
    rw [ht] at ha
    obtain ⟨-, hj, hc⟩ := ha
    refine ⟨?_, hc, e, ?_⟩
    · show JoinState.finished s.join.code = .finished code
      rw [hj]
      rfl
    · show (Function.update s.joiners t _ t).wake = _
      rw [Function.update_self]
      rfl

/-- The join machine in every run: the safety of every state reached, the party behind every
access to the thread handle, and the way back after a failed `pthread_join`. -/
theorem join_machine_safe (h : (taskLts ι timeMax code).Reachable s) :
    JoinSafe code s ∧ ∀ l s', Step timeMax code s l s' →
      CellGuarded s s' ∧ ∀ t, l = .recovered t →
        s'.join = .finished code ∧ s'.cell = .handle ∧ ∃ e, s'.joiners t = .returned (.error e) := by
  have hi := inv_of_reachable h
  refine ⟨hi.joinSafe, fun l s' hs => ⟨step_guarded hs, fun t hl => ?_⟩⟩
  subst hl
  exact recover_retriable hi hs

def freshTask : System Bool :=
  ⟨.running, .pending, .empty, .unborn, .creating, 0, 0, 0, ⟨0, 0⟩, fun _ => .idle, fun _ => false⟩

def spawnedTask : System Bool :=
  { freshTask with startup := .ready, cell := .handle, task := .entry, spawner := .done, handles := 1 }

def finishedTask : System Bool :=
  { spawnedTask with task := .finished, join := .finished .success }

theorem spawnedTask_run (timeMax : Nat) :
    (taskLts Bool timeMax .success).Run [.internal, .internal, .internal, .internal, .internal]
      spawnedTask := by
  have h0 : (taskLts Bool timeMax .success).Run [] freshTask :=
    .start ⟨rfl, rfl, rfl, rfl, rfl, rfl, rfl, rfl, fun _ => ⟨rfl, rfl⟩⟩
  have h1 := h0.snoc (Step.create _ rfl)
  have h2 := h1.snoc (Step.enterContext _ rfl)
  have h3 := h2.snoc (Step.publishReady _ rfl)
  have h4 := h3.snoc (Step.store _ rfl)
  exact h4.snoc (Step.spawned _ rfl rfl)

theorem finishedTask_run (timeMax : Nat) :
    (taskLts Bool timeMax .success).Run
      [.internal, .internal, .internal, .internal, .internal, .internal, .published]
      finishedTask := by
  have h5 := spawnedTask_run timeMax
  have h6 := h5.snoc (Step.entryReturns _ rfl)
  exact h6.snoc (Step.setFinished _ rfl)

/-- The finished task with one joiner inside `pthread_join`. -/
def reapingTask : System Bool :=
  { (({ finishedTask.move false (.enter .forever) with
        late := Function.update finishedTask.late false true }).move false (.ready none)).move
      false .reaping with join := .joining .success }

theorem reapingTask_run (timeMax : Nat) :
    (taskLts Bool timeMax .success).Run
      [.internal, .internal, .internal, .internal, .internal, .internal, .published,
        .invoke false .forever, .internal, .internal] reapingTask := by
  have h7 := finishedTask_run timeMax
  have h8 := h7.snoc (Step.invoke _ false .forever rfl Nat.one_pos)
  have h9 := h8.snoc (Step.forever _ false rfl)
  exact h9.snoc (Step.round _ false (.joining .success) .mine rfl rfl)

theorem join_machine_safe_contended :
    ∃ s s', (taskLts Bool 0 .success).Reachable s ∧ s.joiners false = .reaping ∧
      s.joiners true = .blocked none ∧ JoinSafe .success s ∧
      Step 0 .success s (.joinFailed false) s' ∧ CellGuarded s s' := by
  have h10 := reapingTask_run 0
  have h11 := h10.snoc (Step.invoke _ true .forever rfl Nat.one_pos)
  have h12 := h11.snoc (Step.forever _ true rfl)
  have h13 := h12.snoc (Step.round _ true (.joining .success) .wait rfl rfl)
  obtain ⟨hsafe, hstep⟩ := join_machine_safe h13.reachable
  exact ⟨_, _, h13.reachable, rfl, rfl, hsafe, .reapFails _ false rfl,
    (hstep _ _ (.reapFails _ false rfl)).1⟩

/-! ### Joins that begin after the publication -/

/-- A step that does not disturb a join which began after the publication: its poll does not
look while another joiner is inside `pthread_join`, its deadline can be represented, its timed
wait does not expire, and `pthread_join` succeeds. -/
def Undisturbed (s : System ι) : Event ι → System ι → Prop
  | .look t, _ => s.late t = true → ∀ c, s.join ≠ .joining c
  | .overflow t, _ => s.late t = false
  | .expire t, _ => s.late t = false
  | .joinFailed _, _ => False
  | _, _ => True

def undisturbedLts (ι : Type) [DecidableEq ι] (timeMax : Nat) (code : ExitCode) :
    Lts (System ι) (Event ι) :=
  (taskLts ι timeMax code).restrict Undisturbed

structure LateOk (code : ExitCode) (s : System ι) (t : ι) : Prop where
  reaped : ∀ e, s.joiners t ≠ .reaped (.error e)
  published : s.late t = true → s.join ≠ .running
  patient : s.late t = true → s.joiners t ≠ .timedOut
  granted : s.late t = true → ∀ r, s.joiners t = .returned r → r = .ok code

omit [DecidableEq ι] in
private theorem LateOk.of_wake {t : ι} (h : LateOk code s t)
    (hj : s'.joiners t = s.joiners t ∨ s'.joiners t = (s.joiners t).wake) (hl : s'.late t = s.late t)
    (hr : s.join ≠ .running → s'.join ≠ .running) : LateOk code s' t := by
  have hback : ∀ p : Joiner, p.isBlocked = false → (∀ d, p ≠ .woken d) → s'.joiners t = p →
      s.joiners t = p := by
    intro p hb hw hp
    rcases hj with hj | hj
    · rw [← hj, hp]
    · rw [hj] at hp
      cases hq : s.joiners t with
      | blocked d =>
        rw [hq] at hp
        exact absurd hp.symm (hw d)
      | _ =>
        rw [hq] at hp
        exact hp
  refine ⟨fun e he => h.reaped e (hback _ rfl nofun he), fun hlt => hr (h.published (hl ▸ hlt)),
    fun hlt he => h.patient (hl ▸ hlt) (hback _ rfl nofun he),
    fun hlt r he => h.granted (hl ▸ hlt) r (hback _ rfl nofun he)⟩

private theorem late_move {t u : ι} {p : Joiner} (h : ∀ u, LateOk code s u)
    (hjs : ∀ u, u ≠ t → s'.joiners u = s.joiners u ∨ s'.joiners u = (s.joiners u).wake)
    (hl : ∀ u, u ≠ t → s'.late u = s.late u) (hr : s.join ≠ .running → s'.join ≠ .running)
    (ht : s'.joiners t = p) (hp : ∀ e, p ≠ .reaped (.error e))
    (hpub : s'.late t = true → s'.join ≠ .running) (hpat : s'.late t = true → p ≠ .timedOut)
    (hok : s'.late t = true → ∀ r, p = .returned r → r = .ok code) : LateOk code s' u := by
  by_cases hu : u = t
  · subst hu
    subst ht
    exact ⟨hp, hpub, hpat, hok⟩
  · exact (h u).of_wake (hjs u hu) (hl u hu) hr

private theorem late_call {t u : ι} {p : Joiner} (h : ∀ u, LateOk code s u)
    (hp : ∀ e, p ≠ .reaped (.error e)) (hpat : s.late t = true → p ≠ .timedOut)
    (hok : s.late t = true → ∀ r, p = .returned r → r = .ok code) :
    LateOk code (s.move t p) u :=
  late_move h (fun _ hv => .inl (Function.update_of_ne hv _ _)) (fun _ _ => rfl) id
    (Function.update_self _ _ _) hp (h t).published hpat hok

omit [DecidableEq ι] in
@[simp] private theorem settle_late : s.settle.late = s.late := by
  unfold System.settle
  split <;> rfl

omit [DecidableEq ι] in
private theorem look_granted {t : ι} (hi : Inv code s) (h : LateOk code s t)
    (hu : s.late t = true → ∀ c, s.join ≠ .joining c) (hl : s.late t = true) (r : Result ExitCode)
    (hr : Joiner.returned (look s.join) = .returned r) : r = .ok code := by
  obtain rfl := Joiner.returned.inj hr
  have hcode := hi.code_eq.resolve_left (h.published hl)
  cases hj : s.join with
  | running => exact absurd hj (h.published hl)
  | joining c => exact absurd hj (hu hl c)
  | finished c =>
    rw [hj] at hcode
    exact congrArg Except.ok hcode
  | joined c =>
    rw [hj] at hcode
    exact congrArg Except.ok hcode

private theorem late_round (hi : Inv code s) (h : ∀ u, LateOk code s u) {t : ι} {st : JoinState}
    {c : Claim} (hc : claim s.join = (st, c)) {u : ι} :
    LateOk code { s.move t (c.joiner (s.joiners t).deadline) with join := st } u := by
  have hrun : s.join ≠ .running → st ≠ .running := by
    intro hne
    cases hj : s.join <;> rw [hj] at hc <;> cases hc <;> first | exact absurd hj hne | exact nofun
  refine late_move h (fun _ hv => .inl (Function.update_of_ne hv _ _)) (fun _ _ => rfl) hrun
    (Function.update_self _ _ _) ?_ (fun hl => hrun ((h t).published hl)) ?_ ?_
  · cases c <;> exact nofun
  · cases c <;> exact fun _ => nofun
  · intro hl r hr
    cases hj : s.join with
    | joined code' =>
      have hcode := hi.code_eq.resolve_left ((h t).published hl)
      rw [hj] at hc hcode
      cases hc
      obtain rfl := Joiner.returned.inj hr
      exact congrArg Except.ok hcode
    | _ =>
      rw [hj] at hc
      cases hc
      cases hr

private theorem late_conclude (hi : Inv code s) (h : ∀ u, LateOk code s u) {t : ι}
    (ht : s.joiners t = .reaped (.ok ())) {u : ι} :
    LateOk code ({ s with join := (conclude (.ok ()) s.join).1 }.emptyCell.move t
      (.returned (conclude (.ok ()) s.join).2)).wakeAll u := by
  have ha := hi.allowed t
  rw [ht] at ha
  have hself : (Function.update s.joiners t (.returned (conclude (.ok ()) s.join).2) t).wake =
      .returned (.ok code) := by
    rw [Function.update_self, ha.2.1]
    rfl
  have hother : ∀ v, v ≠ t →
      (Function.update s.joiners t (.returned (conclude (.ok ()) s.join).2) v).wake =
        (s.joiners v).wake := by
    intro v hv
    rw [Function.update_of_ne hv]
  refine late_move h (fun v hv => .inr (hother v hv)) (fun _ _ => rfl) nofun hself nofun nofun
    nofun ?_
  intro _ r hr
  exact (Joiner.returned.inj hr).symm

private theorem step_late (hi : Inv code s) (h : ∀ u, LateOk code s u)
    (hs : Step timeMax code s l s') (hu : Undisturbed s l s') (t : ι) : LateOk code s' t := by
  cases hs with
  | publishReady => exact (h t).of_wake (.inr rfl) rfl id
  | publishFailed => exact (h t).of_wake (.inr rfl) rfl id
  | notify => exact (h t).of_wake (.inr rfl) rfl id
  | setFinished => exact (h t).of_wake (.inl rfl) rfl fun _ => nofun
  | spawnFailed => exact (h t).of_wake (.inl (by simp)) (by simp) (by simp)
  | clearContext => exact (h t).of_wake (.inl (by simp)) (by simp) (by simp)
  | release => exact (h t).of_wake (.inl (by simp)) (by simp) (by simp)
  | releaseFailed => exact (h t).of_wake (.inl (by simp)) (by simp) (by simp)
  | drop => exact (h t).of_wake (.inl (by simp)) (by simp) (by simp)
  | invoke v timeout hv hh =>
    refine late_move h (fun _ hw => .inl (Function.update_of_ne hw _ _))
      (fun _ hw => Function.update_of_ne hw _ _) id (Function.update_self _ _ _) nofun ?_ nofun
      nofun
    intro hl
    have hl' : Function.update s.late v (decide (s.join ≠ .running)) v = true := hl
    rw [Function.update_self] at hl'
    exact of_decide_eq_true hl'
  | look v hv => exact late_call h nofun nofun (look_granted hi (h v) hu)
  | overflow v d e hv hd =>
    exact late_call h nofun nofun (fun hl => absurd (hu.symm.trans hl) nofun)
  | deadline v d dl hv hd => exact late_call h nofun nofun nofun
  | forever v hv => exact late_call h nofun nofun nofun
  | round v st c hl hc => exact late_round hi h hc
  | spurious v dl hv => exact late_call h nofun nofun nofun
  | expire v dl hv hd =>
    exact late_call h nofun (fun hl => absurd (hu.symm.trans hl) nofun) nofun
  | timeout v hv =>
    exact late_call h nofun nofun (fun hl => absurd hv ((h v).patient hl))
  | reap v b hv hx =>
    have ha := hi.allowed v
    rw [hv] at ha
    have hc : s.cell = .handle := ha.2.2
    refine late_move h (fun _ hw => .inl (Function.update_of_ne hw _ _)) (fun _ _ => rfl) id
      (Function.update_self _ _ _) ?_ (h v).published nofun nofun
    rw [hc]
    exact nofun
  | reapFails => exact hu.elim
  | conclude v hv => exact late_conclude hi h hv
  | recover v e hv => exact absurd hv ((h v).reaped e)
  | ret v r hv => exact late_call h nofun nofun nofun
  | _ => exact (h t).of_wake (.inl rfl) rfl id

def HasReaper (s : System ι) : Prop :=
  ∀ c, s.join = .joining c → ∃ t, (s.joiners t).inReap = true

omit [DecidableEq ι] in
private theorem HasReaper.of_wake (h : HasReaper s) (hj : s'.join = s.join)
    (hjs : ∀ t, s'.joiners t = s.joiners t ∨ s'.joiners t = (s.joiners t).wake) :
    HasReaper s' := by
  intro c hc
  obtain ⟨t, ht⟩ := h c (hj ▸ hc)
  refine ⟨t, ?_⟩
  rcases hjs t with he | he <;> rw [he]
  · exact ht
  · exact (wake_inReap _).trans ht

private theorem HasReaper.move (h : HasReaper s) {t : ι} {p : Joiner} (hj : s'.join = s.join)
    (hjs : s'.joiners = Function.update s.joiners t p)
    (ht : (s.joiners t).inReap = false ∨ p.inReap = true) : HasReaper s' := by
  intro c hc
  obtain ⟨u, hu⟩ := h c (hj ▸ hc)
  refine ⟨u, ?_⟩
  rw [hjs]
  by_cases hut : u = t
  · subst hut
    rw [Function.update_self]
    exact ht.resolve_left (by rw [hu]; exact nofun)
  · rwa [Function.update_of_ne hut]

private theorem reaper_round (h : HasReaper s) {t : ι} {st : JoinState} {c : Claim}
    (hl : (s.joiners t).loops = true) (hc : claim s.join = (st, c)) :
    HasReaper { s.move t (c.joiner (s.joiners t).deadline) with join := st } := by
  have hout : (s.joiners t).inReap = false := by
    cases hp : s.joiners t <;> rw [hp] at hl <;> first | rfl | cases hl
  cases hj : s.join with
  | running =>
    rw [hj] at hc
    cases hc
    exact nofun
  | joined c' =>
    rw [hj] at hc
    cases hc
    exact nofun
  | finished c' =>
    rw [hj] at hc
    cases hc
    refine fun _ _ => ⟨t, ?_⟩
    show (Function.update s.joiners t .reaping t).inReap = true
    rw [Function.update_self]
    rfl
  | joining c' =>
    have hc' := hc
    rw [hj] at hc'
    cases hc'
    exact h.move hj.symm rfl (.inl hout)

private theorem step_reaper (h : HasReaper s) (hs : Step timeMax code s l s') : HasReaper s' := by
  cases hs with
  | publishReady => exact h.of_wake rfl fun _ => .inr rfl
  | publishFailed => exact h.of_wake rfl fun _ => .inr rfl
  | notify => exact h.of_wake rfl fun _ => .inr rfl
  | setFinished => exact nofun
  | spawnFailed => exact h.of_wake (by simp) (by simp)
  | clearContext => exact h.of_wake (by simp) (by simp)
  | release => exact h.of_wake (by simp) (by simp)
  | releaseFailed => exact h.of_wake (by simp) (by simp)
  | drop => exact h.of_wake (by simp) (by simp)
  | invoke t timeout ht hh => exact h.move rfl rfl (.inl (by rw [ht]; rfl))
  | look t ht => exact h.move rfl rfl (.inl (by rw [ht]; rfl))
  | overflow t d e ht hd => exact h.move rfl rfl (.inl (by rw [ht]; rfl))
  | deadline t d dl ht hd => exact h.move rfl rfl (.inl (by rw [ht]; rfl))
  | forever t ht => exact h.move rfl rfl (.inl (by rw [ht]; rfl))
  | round t st c hl hc => exact reaper_round h hl hc
  | spurious t dl ht => exact h.move rfl rfl (.inl (by rw [ht]; rfl))
  | expire t dl ht hd =>
    refine h.move rfl rfl (.inl ?_)
    rcases ht with ht | ht <;> rw [ht] <;> rfl
  | timeout t ht => exact h.move rfl rfl (.inl (by rw [ht]; rfl))
  | reap t b ht hx => exact h.move rfl rfl (.inr rfl)
  | reapFails t ht => exact h.move rfl rfl (.inr rfl)
  | conclude => exact nofun
  | recover => exact nofun
  | ret t r ht => exact h.move rfl rfl (.inl (by rw [ht]; rfl))
  | _ => exact h.of_wake rfl fun _ => .inl rfl

structure Good (code : ExitCode) (s : System ι) : Prop where
  inv : Inv code s
  late : ∀ t, LateOk code s t
  reaper : HasReaper s

private theorem step_good (h : Good code s) (hs : Step timeMax code s l s')
    (hu : Undisturbed s l s') : Good code s' :=
  ⟨step_inv h.inv hs, step_late h.inv h.late hs hu, step_reaper h.reaper hs⟩

omit [DecidableEq ι] in
private theorem init_good (h : Init s) : Good code s := by
  obtain ⟨hj, -, -, -, -, -, -, -, hjs⟩ := id h
  refine ⟨init_inv h, fun t => ?_, fun c hc => absurd (hj.symm.trans hc) nofun⟩
  obtain ⟨hidle, hlate⟩ := hjs t
  refine ⟨fun e he => absurd (hidle.symm.trans he) nofun, fun hl => ?_, fun hl => ?_, fun hl => ?_⟩
  all_goals exact absurd (hlate.symm.trans hl) nofun

private theorem good_of_reachable (h : (undisturbedLts ι timeMax code).Reachable s) :
    Good code s := by
  have hstep : ∀ s l s', Good code s → (undisturbedLts ι timeMax code).step s l s' →
      Good code s' := fun _ _ _ hi hs => step_good hi hs.1 hs.2
  exact h.invariant (fun _ h0 => init_good h0) hstep

/-! ### The way of such a join to its result -/

/-- Joiner `t` is inside a call that began after the publication, and can compute its
deadline. -/
structure Pending (timeMax : Nat) (s : System ι) (t : ι) : Prop where
  late : s.late t = true
  active : (s.joiners t).active = true
  representable : ∀ d e, s.joiners t = .enter (.after d) →
    checkedAbsDeadline timeMax s.now d ≠ .error e

/-- A step of the task, of the joiner inside `pthread_join` or of joiner `t`. -/
def Event.serves (t : ι) : Event ι → Prop
  | .internal | .joined _ => True
  | .look u => u = t
  | _ => False

/-- Without a new call and without a drop, the call of `t` returns the published code. -/
def Completes (timeMax : Nat) (code : ExitCode) (s : System ι) (t : ι) : Prop :=
  ∃ tr s', (undisturbedLts ι timeMax code).Steps s tr s' ∧ (∀ l ∈ tr, l.serves t) ∧
    s'.joiners t = .returned (.ok code)

def Trampoline.rank : Trampoline → Nat
  | .finished => 4
  | .notified => 3
  | .cleared => 2
  | .released _ => 1
  | _ => 0

def JoinState.rank : JoinState → Nat
  | .finished _ => 2
  | .joining _ => 1
  | _ => 0

def Joiner.rank : Joiner → Nat
  | .enter _ => 3
  | .ready _ | .woken _ | .blocked _ => 2
  | _ => 0

/-- How far the call of `t` is from its end: the task exits, the one joiner reaps and concludes,
and `t` looks. -/
def rank (s : System ι) (t : ι) : Nat :=
  s.task.rank + s.join.rank + (if s.cell = .handle then 1 else 0) + (s.joiners t).rank

def Advances (timeMax : Nat) (code : ExitCode) (s : System ι) (t : ι) : Prop :=
  ∃ l s', Step timeMax code s l s' ∧ Undisturbed s l s' ∧ l.serves t ∧ s'.late t = true ∧
    ((∃ r, s'.joiners t = .returned r) ∨ Pending timeMax s' t ∧ rank s' t < rank s t)

omit [DecidableEq ι] in
@[simp] private theorem wake_rank (p : Joiner) : p.wake.rank = p.rank := by
  cases p <;> rfl

omit [DecidableEq ι] in
private theorem Pending.keep {t : ι} (h : Pending timeMax s t) (hl : s'.late = s.late)
    (hn : s'.now = s.now)
    (hj : s'.joiners t = s.joiners t ∨ s'.joiners t = (s.joiners t).wake) :
    Pending timeMax s' t := by
  refine ⟨by rw [hl]; exact h.late, ?_, fun d e hd => ?_⟩
  · have ha := h.active
    rcases hj with hj | hj <;> rw [hj]
    · exact ha
    · cases hp : s.joiners t <;> rw [hp] at ha <;> first | rfl | cases ha
  · rw [hn]
    refine h.representable d e ?_
    rcases hj with hj | hj <;> rw [hj] at hd
    · exact hd
    · cases hp : s.joiners t <;> rw [hp] at hd <;> first | exact hd | cases hd

private theorem advances_task {t : ι} (g : Good code s) (h : Pending timeMax s t)
    (hne : s.task ≠ .exited true) : Advances timeMax code s t := by
  have hh : 0 < s.handles := (g.inv.allowed t).handles_pos h.active
  have hsettle : ∀ task, ({ s with task } : System ι).settle = { s with task } := by
    intro task
    have hrefs : ({ s with task } : System ι).refs ≠ 0 := by
      simp only [System.refs]
      omega
    rw [System.settle, if_neg hrefs]
  have hpub : s.task.published = true := by
    by_contra hp
    exact (g.late t).published h.late (g.inv.published.2 (Bool.eq_false_of_not_eq_true hp))
  cases hk : s.task with
  | finished =>
    refine ⟨_, _, .notify s hk, trivial, trivial, h.late, .inr ⟨h.keep rfl rfl (.inr rfl), ?_⟩⟩
    show 3 + s.join.rank + (if s.cell = .handle then 1 else 0) + (s.joiners t).wake.rank < rank s t
    rw [rank, hk, wake_rank]
    show _ < 4 + _ + _ + _
    omega
  | notified =>
    refine ⟨_, _, .clearContext s hk, trivial, trivial, ?_, .inr ?_⟩ <;> rw [hsettle]
    · exact h.late
    · refine ⟨h.keep rfl rfl (.inl rfl), ?_⟩
      simp [rank, hk, Trampoline.rank]
  | cleared =>
    refine ⟨_, _, .release s hk, trivial, trivial, ?_, .inr ?_⟩ <;> rw [hsettle]
    · exact h.late
    · refine ⟨h.keep rfl rfl (.inl rfl), ?_⟩
      simp [rank, hk, Trampoline.rank]
  | released b =>
    refine ⟨_, _, .terminate s b hk, trivial, trivial, h.late, .inr ⟨h.keep rfl rfl (.inl rfl), ?_⟩⟩
    simp [rank, hk, Trampoline.rank]
  | exited b =>
    cases b with
    | false =>
      rw [hk] at hpub
      cases hpub
    | true => exact absurd hk hne
  | _ =>
    rw [hk] at hpub
    cases hpub

private theorem advances_reaper {t : ι} (g : Good code s) (h : Pending timeMax s t)
    (hx : s.task = .exited true) {c : ExitCode} (hj : s.join = .joining c) :
    Advances timeMax code s t := by
  obtain ⟨u, hu⟩ := g.reaper c hj
  have ha := g.inv.allowed u
  cases hp : s.joiners u with
  | reaping =>
    rw [hp] at ha
    have hcell : s.cell = .handle := ha.2.2
    refine ⟨_, _, .reap s u true hp hx, trivial, trivial, h.late, .inr ?_⟩
    by_cases hut : u = t
    · subst hut
      refine ⟨⟨h.late, ?_, fun d e hd => ?_⟩, ?_⟩
      · show (Function.update s.joiners u _ u).active = true
        rw [Function.update_self]
        rfl
      · have hd' : Function.update s.joiners u (.reaped (tryJoin true s.cell).2) u =
          .enter (.after d) := hd
        rw [Function.update_self] at hd'
        cases hd'
      · simp [rank, System.move, hcell, tryJoin, hp, Joiner.rank]
    · have hsame : Function.update s.joiners u (.reaped (tryJoin true s.cell).2) t = s.joiners t :=
        Function.update_of_ne (Ne.symm hut) _ _
      refine ⟨h.keep rfl rfl (.inl hsame), ?_⟩
      simp [rank, System.move, hcell, tryJoin, Function.update_of_ne (Ne.symm hut)]
  | reaped r =>
    cases r with
    | error e => exact absurd hp ((g.late u).reaped e)
    | ok v =>
      cases v
      refine ⟨_, _, .conclude s u hp, trivial, trivial, h.late, ?_⟩
      by_cases hut : u = t
      · subst hut
        refine .inl ⟨(conclude (.ok ()) s.join).2, ?_⟩
        show (Function.update s.joiners u _ u).wake = _
        rw [Function.update_self]
        rfl
      · have hwake : (Function.update s.joiners u (.returned (conclude (.ok ()) s.join).2) t).wake =
            (s.joiners t).wake := by
          rw [Function.update_of_ne (Ne.symm hut)]
        refine .inr ⟨h.keep rfl rfl (.inr hwake), ?_⟩
        simp [rank, System.wakeAll, System.move, System.emptyCell, conclude, hj, JoinState.rank,
          Function.update_of_ne (Ne.symm hut)]
        omega
  | _ =>
    rw [hp] at hu
    cases hu

omit [DecidableEq ι] in
/-- Once the task has exited and nobody reaps it, a late call is about to look. -/
private theorem looks_next {t : ι} (g : Good code s) (h : Pending timeMax s t)
    (hx : s.task = .exited true) (hj : ∀ c, s.join ≠ .joining c) :
    (∃ timeout, s.joiners t = .enter timeout) ∨ (s.joiners t).loops = true := by
  have ha := g.inv.allowed t
  have hact := h.active
  have hreap := g.inv.no_reaper (hj code) t
  cases hp : s.joiners t with
  | enter timeout => exact .inl ⟨timeout, rfl⟩
  | ready deadline => exact .inr rfl
  | woken deadline => exact .inr rfl
  | blocked deadline =>
    rw [hp] at ha
    rcases ha.2 with hr | hr | ⟨-, ht⟩
    · exact absurd hr ((g.late t).published h.late)
    · exact absurd hr (hj code)
    · exact absurd (hx.symm.trans ht) nofun
  | timedOut => exact absurd hp ((g.late t).patient h.late)
  | idle =>
    rw [hp] at hact
    cases hact
  | returned r =>
    rw [hp] at hact
    cases hact
  | reaping =>
    rw [hp] at hreap
    cases hreap
  | reaped r =>
    rw [hp] at hreap
    cases hreap

private theorem advances_move {t : ι} {p : Joiner} (h : Pending timeMax s t)
    (hs : Step timeMax code s .internal (s.move t p)) (hp : p.active = true)
    (he : ∀ timeout, p ≠ .enter timeout) (hr : p.rank < (s.joiners t).rank) :
    Advances timeMax code s t := by
  have hself : (s.move t p).joiners t = p := Function.update_self _ _ _
  refine ⟨_, _, hs, trivial, trivial, h.late, .inr ⟨⟨h.late, ?_, fun d e hd => ?_⟩, ?_⟩⟩
  · rw [hself]
    exact hp
  · rw [hself] at hd
    exact absurd hd (he _)
  · have hrank : rank (s.move t p) t =
        s.task.rank + s.join.rank + (if s.cell = .handle then 1 else 0) + p.rank := by
      unfold rank
      rw [hself]
      rfl
    rw [hrank, rank]
    omega

private theorem advances_enter {t : ι} (h : Pending timeMax s t)
    (hj : ∀ c, s.join ≠ .joining c) {timeout : Timeout} (hp : s.joiners t = .enter timeout) :
    Advances timeMax code s t := by
  cases timeout with
  | noWait =>
    exact ⟨_, _, .look s t hp, fun _ => hj, rfl, h.late, .inl ⟨_, Function.update_self _ _ _⟩⟩
  | forever => exact advances_move h (.forever s t hp) rfl nofun (by rw [hp]; decide)
  | after d =>
    cases hd : checkedAbsDeadline timeMax s.now d with
    | error e => exact absurd hd (h.representable d e hp)
    | ok deadline =>
      exact advances_move h (.deadline s t d deadline hp hd) rfl nofun (by rw [hp]; exact Nat.lt_succ_self 2)

private theorem advances_round {t : ι} (g : Good code s) (h : Pending timeMax s t)
    (hj : ∀ c, s.join ≠ .joining c) (hl : (s.joiners t).loops = true) :
    Advances timeMax code s t := by
  cases hst : s.join with
  | running => exact absurd hst ((g.late t).published h.late)
  | joining c => exact absurd hst (hj c)
  | joined c =>
    refine ⟨_, _, .round s t (.joined c) (.cached c) hl (by rw [hst]; rfl), trivial, trivial, h.late,
      .inl ⟨.ok c, Function.update_self _ _ _⟩⟩
  | finished c =>
    have hself : Function.update s.joiners t .reaping t = .reaping := Function.update_self _ _ _
    refine ⟨_, _, .round s t (.joining c) .mine hl (by rw [hst]; rfl), trivial, trivial, h.late,
      .inr ⟨⟨h.late, ?_, fun d e hd => ?_⟩, ?_⟩⟩
    · exact congrArg Joiner.active hself
    · exact absurd (hself.symm.trans hd) nofun
    · simp only [rank, System.move, Claim.joiner, hself, hst, JoinState.rank, Joiner.rank]
      omega

private theorem advances {t : ι} (g : Good code s) (h : Pending timeMax s t) :
    Advances timeMax code s t := by
  by_cases hx : s.task = .exited true
  · by_cases hj : ∃ c, s.join = .joining c
    · obtain ⟨c, hj⟩ := hj
      exact advances_reaper g h hx hj
    · have hj' : ∀ c, s.join ≠ .joining c := fun c hc => hj ⟨c, hc⟩
      rcases looks_next g h hx hj' with ⟨timeout, hp⟩ | hl
      · exact advances_enter h hj' hp
      · exact advances_round g h hj' hl
  · exact advances_task g h hx

/-- By induction on the distance: every late call that can compute its deadline completes. -/
private theorem completes {t : ι} (g : Good code s) (h : Pending timeMax s t) :
    Completes timeMax code s t := by
  induction hn : rank s t using Nat.strong_induction_on generalizing s with
  | _ n ih =>
    obtain ⟨l, s', hs, hu, hl, hlate, hend⟩ := advances g h
    have g' := step_good g hs hu
    have hnext : (undisturbedLts ι timeMax code).step s l s' := ⟨hs, hu⟩
    rcases hend with ⟨r, hr⟩ | ⟨hp, hlt⟩
    · have hok := (g'.late t).granted hlate r hr
      exact ⟨[l], s', .cons hnext (.refl s'), List.forall_mem_singleton.2 hl, by rw [hr, hok]⟩
    · obtain ⟨tr, s'', hsteps, htr, hr⟩ := ih _ (hn ▸ hlt) g' hp rfl
      exact ⟨l :: tr, s'', .cons hnext hsteps, List.forall_mem_cons.2 ⟨hl, htr⟩, hr⟩

private theorem step_published (h : s.join ≠ .running) (hs : Step timeMax code s l s') :
    s'.join ≠ .running := by
  cases hs with
  | spawnFailed => simpa using h
  | clearContext => simpa using h
  | release => simpa using h
  | releaseFailed => simpa using h
  | drop => simpa using h
  | setFinished => exact nofun
  | conclude => exact nofun
  | recover => exact nofun
  | round t st c hl hc =>
    intro hr
    cases hj : s.join <;> rw [hj] at hc h <;> cases hc
    · exact h rfl
    · cases hr
    · cases hr
    · cases hr
  | _ => exact h

/-- After the publication every call is a late one. -/
private theorem invoke_late {t : ι} {timeout : Timeout} (h : s.join ≠ .running)
    (hs : Step timeMax code s (.invoke t timeout) s') : s'.late t = true := by
  cases hs with
  | invoke =>
    show Function.update s.late t (decide (s.join ≠ .running)) t = true
    rw [Function.update_self]
    exact decide_eq_true h

/-- In a run in which no late join is disturbed, every join that begins after the publication
returns the published code: no other result, a way to this one from wherever the call is, and
once any join has returned a code, that code for every later call. -/
theorem late_join_succeeds (h : (undisturbedLts ι timeMax code).Reachable s) (t : ι) :
    (s.late t = true → ∀ r, s.joiners t = .returned r → r = .ok code) ∧
      (Pending timeMax s t → Completes timeMax code s t) ∧
      ∀ c, s.joiners t = .returned (.ok c) → c = code ∧
        ∀ tr s' u timeout s'', (undisturbedLts ι timeMax code).Steps s tr s' →
          (undisturbedLts ι timeMax code).step s' (.invoke u timeout) s'' → s''.late u = true := by
  have g := good_of_reachable h
  refine ⟨(g.late t).granted, completes g, fun c hc => ?_⟩
  have ha := g.inv.allowed t
  rw [hc] at ha
  refine ⟨ha.1, fun tr s' u timeout s'' hsteps hs => invoke_late ?_ hs.1⟩
  exact hsteps.invariant h (I := fun _ s => s.join ≠ .running) ha.2
    fun _ _ _ _ _ hi hl => step_published hi hl.1

def polledTask : System Bool :=
  { finishedTask.move true (.enter .noWait) with late := Function.update (fun _ => false) true true }

private theorem polledTask_reachable : (undisturbedLts Bool 0 .success).Reachable polledTask := by
  have h0 : (undisturbedLts Bool 0 .success).Run [] freshTask :=
    .start ⟨rfl, rfl, rfl, rfl, rfl, rfl, rfl, rfl, fun _ => ⟨rfl, rfl⟩⟩
  have h1 := h0.snoc ⟨Step.create _ rfl, trivial⟩
  have h2 := h1.snoc ⟨Step.enterContext _ rfl, trivial⟩
  have h3 := h2.snoc ⟨Step.publishReady _ rfl, trivial⟩
  have h4 := h3.snoc ⟨Step.store _ rfl, trivial⟩
  have h5 := h4.snoc ⟨Step.spawned _ rfl rfl, trivial⟩
  have h6 := h5.snoc ⟨Step.entryReturns _ rfl, trivial⟩
  have h7 := h6.snoc ⟨Step.setFinished _ rfl, trivial⟩
  exact (h7.snoc ⟨Step.invoke _ true .noWait rfl Nat.one_pos, trivial⟩).reachable

theorem late_join_succeeds_polled :
    (undisturbedLts Bool 0 .success).Reachable polledTask ∧ Pending 0 polledTask true ∧
      Completes 0 .success polledTask true := by
  have hp : Pending 0 polledTask true := ⟨rfl, rfl, fun d e hd => by cases hd⟩
  exact ⟨polledTask_reachable, hp, (late_join_succeeds polledTask_reachable true).2.1 hp⟩

/-- While one joiner is inside `pthread_join`, a poll of the finished task reports `Timeout`. -/
theorem late_poll_times_out :
    ∃ tr s, (taskLts Bool 0 .success).Run tr s ∧ (∀ t, .joinFailed t ∉ tr) ∧
      s.late true = true ∧ s.joiners true = .returned (.error .timeout) := by
  have h10 := reapingTask_run 0
  have h11 := h10.snoc (Step.invoke _ true .noWait rfl Nat.one_pos)
  have h12 := h11.snoc (Step.look _ true rfl)
  exact ⟨_, _, h12, by simp, rfl, rfl⟩

end OsalRust.Posix.Task
