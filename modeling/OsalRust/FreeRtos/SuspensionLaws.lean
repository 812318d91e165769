import OsalRust.FreeRtos.Suspension

/-!
# Timer calls under a suspended scheduler

A task that suspends the scheduler while nobody holds the slot or a registry mutex finds every
lock free, its requests are answered with `Ok`, and its calls come to an end: a call drops
callbacks, which drop handles, which deregister timers and drop their callbacks in turn, but a
callback leaves the registry only once. If the scheduler is suspended while somebody is inside
`with_lock`, the next call that needs the mutex fails the assertion.
-/

namespace OsalRust.FreeRtosBackend

open OsalRust OsalRust.Framework OsalRust.Timer
open OsalRust.Runtime (RuntimeState lifecycleTable)

/-! ## How long a call takes -/

def burden (callback : Callback) : Nat := 2 + 12 * callback.captures.length

def load : Request → Nat
  | .register _ _ callback => burden callback
  | _ => 0

/-- The steps that a piece of a timer call takes with all that it pushes, apart from callbacks
that it takes out of the registry. Other pieces of code count nothing. -/
def effort : Action → Nat
  | .acquire _ _ callback => 12 + burden callback
  | .ensureWorker _ _ => 2
  | .extract q => 10 + load q
  | .request _ q => 7 + load q
  | .serve _ q _ => 6 + load q
  | .dropHandle _ => 12
  | .dropCallback callback => 1 + 12 * callback.captures.length
  | .dropRemoved _ _ callback => burden callback
  | .signalWake _ | .returned _ _ _ | .dropService _ | .dropLease | .adopt _ => 1
  | _ => 0

def toil : Code → Nat
  | [] => 0
  | .lock _ :: rest | .unlock _ :: rest => 1 + toil rest
  | .act a :: rest => effort a + toil rest

def reserve (w : Backend) : Nat := w.view.stock fun _ callback => burden callback

section Toil

variable {g : Nat} {code rest : Code}

@[simp] theorem toil_append : toil (code ++ rest) = toil code + toil rest := by
  induction code with
  | nil => simp [toil]
  | cons i code ih => cases i <;> simp [toil, ih, Nat.add_assoc]

private theorem toil_dropHandles (callback : Callback) :
    toil (dropHandles callback) = 12 * callback.captures.length := by
  obtain ⟨captures⟩ := callback
  induction captures with
  | nil => rfl
  | cons id captures ih =>
    change 12 + toil (dropHandles ⟨captures⟩) = _
    rw [ih]
    change 12 + 12 * captures.length = 12 * (captures.length + 1)
    omega

private theorem toil_withRegistry (q : Request) : toil (withRegistry q) = 11 + load q := by
  simp only [withRegistry, toil, effort]
  omega

private theorem toil_signal (sent : Bool) : toil (signal g sent) ≤ 1 := by
  cases sent <;> simp [signal, toil, effort]

private theorem idle_lowers (r : Registry) (now : Duration) (reserved : Bool) {q : Request}
    {id : Nat} (ok sent : Bool) (hd : r.Distinct) (hq : q.target = some id)
    (hne : q ≠ .deregister id) (hdone : (r.serve now reserved q).1 = .done) :
    toil (signal g sent) + toil (finish g q ok (r.serve now reserved q).1) +
        (r.serve now reserved q).2.stock (fun _ callback => burden callback) <
      6 + load q + r.stock fun _ callback => burden callback := by
  obtain ⟨-, -, hstock⟩ :=
    Registry.serve_counts (φ := fun _ callback => burden callback) now reserved hd hq hne
  have hsignal := toil_signal (g := g) sent
  rw [hstock, hdone]
  simp only [finish, toil, effort]
  omega

private theorem serve_lowers (r : Registry) (now : Duration) (reserved : Bool) (q : Request)
    (ok sent : Bool) (hd : r.Distinct)
    (hpos : ∀ id, q = .deregister id → 0 < r.aliveOf id) :
    toil (signal g sent ++ finish g q ok (r.serve now reserved q).1) +
        (r.serve now reserved q).2.stock (fun _ callback => burden callback) <
      6 + load q + r.stock fun _ callback => burden callback := by
  have hsignal := toil_signal (g := g) sent
  rw [toil_append]
  cases q with
  | register period mode callback =>
    rcases r.serve_register_fst now reserved period mode callback with ⟨id, hans⟩ | hans
    · obtain ⟨-, -, -, hstock⟩ :=
        Registry.serve_registered_counts (φ := fun _ callback => burden callback) hans
      rw [hans, hstock]
      simp only [finish, toil, effort, load]
      omega
    · rw [hans, Registry.serve_refused (by simp [hans])]
      simp only [finish, toil, effort, load, burden]
      omega
  | deregister id =>
    obtain ⟨-, -, hstock⟩ := Registry.serve_deregister_counts
      (φ := fun _ callback => burden callback) now reserved hd (hpos id rfl)
    rw [Registry.serve_deregister]
    cases hcb : r.callbackOf id with
    | none =>
      simp only [hcb, Option.elim_none] at hstock
      simp only [finish, part, toil_append, toil, effort, load]
      omega
    | some callback =>
      simp only [hcb, Option.elim_some] at hstock
      simp only [finish, part, toil_append, toil, effort, load]
      omega
  | start id => exact idle_lowers r now reserved ok sent hd rfl (by simp) rfl
  | stop id => exact idle_lowers r now reserved ok sent hd rfl (by simp) rfl
  | reset id => exact idle_lowers r now reserved ok sent hd rfl (by simp) rfl
  | changePeriod id newPeriod => exact idle_lowers r now reserved ok sent hd rfl (by simp) rfl

end Toil

section Lowers

variable {max : Nat} {t : Thread} {w w' : Backend} {a : Action} {code rest : Code} {s s' : State}

private theorem reserve_frame (hslot : w'.slot = w.slot) (hservice : w'.service = w.service) :
    reserve w' = reserve w := by
  simp only [reserve, World.stock, Backend.view, hslot, hservice]

private theorem reserve_update {g : Nat} {x : TimerService} (hslot : w'.slot = w.slot)
    (hservice : w'.service = Function.update w.service g x)
    (hhand : x.hand = (w.service g).hand) :
    reserve w' + (if w.view.slot.service = some g then
        (w.service g).state.stock fun _ callback => burden callback else 0) =
      reserve w + (if w.view.slot.service = some g then
        x.state.stock fun _ callback => burden callback else 0) := by
  have hviewed : w'.view.services = Function.update w.view.services g x.view := by
    rw [← view_update w g x, ← hservice]
    rfl
  have hkept : w'.view.slot = w.view.slot := by
    simp only [Backend.view, hslot]
  have hsum := World.stock_of_update (φ := fun _ callback => burden callback) hkept hviewed
  have hbefore : (w.view.services g).stock (fun _ callback => burden callback) =
      (w.service g).state.stock (fun _ callback => burden callback) +
        (w.service g).hand.weight fun _ callback => burden callback := rfl
  have hafter : x.view.stock (fun _ callback => burden callback) =
      x.state.stock (fun _ callback => burden callback) +
        (w.service g).hand.weight fun _ callback => burden callback := by
    rw [← hhand]
    rfl
  rw [hbefore, hafter] at hsum
  unfold reserve
  by_cases hcurrent : w.view.slot.service = some g
  · rw [if_pos hcurrent, if_pos hcurrent] at hsum ⊢
    omega
  · rw [if_neg hcurrent, if_neg hcurrent] at hsum ⊢
    exact hsum

private theorem reserve_same {g : Nat} {x : TimerService} (hslot : w'.slot = w.slot)
    (hservice : w'.service = Function.update w.service g x)
    (hhand : x.hand = (w.service g).hand)
    (hstate : x.state.stock (fun _ callback => burden callback) =
      (w.service g).state.stock fun _ callback => burden callback) : reserve w' = reserve w := by
  have hsum := reserve_update hslot hservice hhand
  rw [hstate] at hsum
  omega

private theorem lower_of_same (hw : reserve w' = reserve w) (h : toil code < effort a) :
    toil code + reserve w' < effort a + reserve w := by
  rw [hw]
  exact Nat.add_lt_add_right h _

private theorem serve_step {g : Nat} {q : Request} {reserved worker : Bool} {now : Duration}
    {M : Multiset Token} (hinv : Inv s.shared.view M) (hM : Threads.Estate cargo s.code M)
    (hst : s.code t = .act (.serve g q reserved) :: rest)
    (hslot : s.shared.slot = .running g worker) (ok sent : Bool)
    (hkept : w'.slot = s.shared.slot)
    (hservice : w'.service = Function.update s.shared.service g
      { s.shared.service g with
        state := ((s.shared.service g).state.serve now reserved q).2 }) :
    toil (signal g sent ++ finish g q ok ((s.shared.service g).state.serve now reserved q).1) +
        reserve w' <
      effort (.serve g q reserved) + reserve s.shared := by
  have hdistinct : (s.shared.service g).state.Distinct := (hinv.sound g).wf.distinct
  have hpos : ∀ id, q = .deregister id → 0 < (s.shared.service g).state.aliveOf id := by
    rintro id rfl
    have hmem : .last (some g) id ∈ M := hM.mem_of_head hst (by simp [cargo, Request.tokens])
    obtain ⟨g', worker', -, hone, hg⟩ := hinv.entry_of_last hmem
    obtain rfl := hg g rfl
    exact Nat.lt_of_lt_of_eq Nat.one_pos hone.symm
  have hlt := serve_lowers (g := g) (s.shared.service g).state now reserved q ok sent hdistinct hpos
  have hcurrent : s.shared.view.slot.service = some g := by
    rw [Backend.view, hslot]
    rfl
  have hsum := reserve_update hkept hservice rfl
  rw [if_pos hcurrent, if_pos hcurrent] at hsum
  dsimp only at hsum
  change _ < 6 + load q + reserve s.shared
  omega

private theorem only_served (g : Nat) (q : Request) (ok sent : Bool) (o : Outcome) :
    Threads.Only (fun b => 0 < effort b) (signal g sent ++ finish g q ok o) := by
  refine Threads.only_append.2 ⟨?_, ?_⟩
  · cases sent <;> simp [signal, effort]
  · cases o with
    | removed callback => cases q <;> cases callback <;> simp [finish, part, effort, burden]
    | done | registered | refused => simp [finish, effort]

/-- A piece of a timer call pushes code that costs less than the piece itself, and that is made
of such pieces. -/
theorem Performs.lowers (hr : (system max).Reachable s) (hst : s.code t = .act a :: rest)
    (h : Performs max t s.shared a w' code) (ha : 0 < effort a) (haims : Aims s.shared a)
    (hstart : ∀ again id, a = .ensureWorker again id → code = [.unlock .control]) :
    toil code + reserve w' < effort a + reserve s.shared ∧
      Threads.Only (fun b => 0 < effort b) code := by
  obtain ⟨M, hM, hinv, -⟩ := inv_of_reachable hr
  cases h with
  | @acquire _ _ r period mode callback hr' =>
    refine ⟨lower_of_same (reserve_frame rfl rfl) ?_, by simp [withRegistry, effort]⟩
    rw [toil_withRegistry]
    simp only [load, effort]
    omega
  | acquireRefused =>
    refine ⟨lower_of_same (reserve_frame rfl rfl) ?_, by simp [effort]⟩
    simp only [toil, effort, burden]
    omega
  | ensureWorker => cases hstart _ _ rfl
  | createWorker => cases hstart _ _ rfl
  | noWorker => exact ⟨lower_of_same rfl (by simp [toil, effort]), by simp⟩
  | extract =>
    refine ⟨lower_of_same (reserve_same rfl rfl rfl rfl) ?_, by simp [effort]⟩
    simp only [toil, effort]
    omega
  | @turnDown _ _ q hslot =>
    refine ⟨lower_of_same rfl ?_, by cases q <;> simp [FreeRtosBackend.turnDown, effort]⟩
    cases q with
    | register period mode callback =>
      simp only [FreeRtosBackend.turnDown, toil, effort, load, burden]
      omega
    | _ => simp [FreeRtosBackend.turnDown, toil, effort, load]
  | request =>
    refine ⟨lower_of_same rfl ?_, by simp [effort]⟩
    simp only [toil, effort]
    omega
  | @serve _ _ g q reserved now hnow =>
    obtain ⟨worker, hslot⟩ := haims.2
    exact ⟨serve_step hinv hM hst hslot _ _ rfl rfl, only_served _ _ _ _ _⟩
  | signalWake =>
    exact ⟨lower_of_same (reserve_same rfl rfl rfl rfl) (by simp [toil, effort]), by simp⟩
  | returned => exact ⟨lower_of_same rfl (by simp [toil, effort]), by simp⟩
  | dropService =>
    exact ⟨lower_of_same (reserve_same rfl rfl rfl rfl) (by simp [toil, effort]), by simp⟩
  | @destroy _ _ g hrefs =>
    have hnil := timers_nil_of_destroy hr hst hrefs
    rw [hnil]
    refine ⟨lower_of_same (reserve_same rfl rfl rfl ?_) (by simp [dropAll, toil, effort]),
      by simp [dropAll]⟩
    rw [(Registry.counts_nil hnil).2.2]
    rfl
  | dropLease => exact ⟨lower_of_same (reserve_frame rfl rfl) (by simp [toil, effort]), by simp⟩
  | adopt => exact ⟨lower_of_same (reserve_frame rfl rfl) (by simp [toil, effort]), by simp⟩
  | dropClone => exact ⟨lower_of_same (reserve_frame rfl rfl) (by simp [toil, effort]), by simp⟩
  | dropLast =>
    refine ⟨lower_of_same (reserve_frame rfl rfl) ?_, by simp [withRegistry, effort]⟩
    rw [toil_withRegistry]
    simp [load, effort]
  | dropCallback =>
    refine ⟨lower_of_same rfl ?_, only_acts .dropHandle (fun _ => by simp [effort]) _⟩
    rw [toil_dropHandles]
    simp only [effort]
    omega
  | dropRemoved =>
    refine ⟨lower_of_same rfl ?_, Threads.only_append.2
      ⟨only_acts .dropHandle (fun _ => by simp [effort]) _, by simp [effort]⟩⟩
    rw [toil_append, toil_dropHandles]
    simp only [toil, effort, burden]
    omega
  | _ => exact absurd ha (Nat.lt_irrefl 0)

end Lowers

/-! ## Calls come to an end -/

section Progress

variable {max : Nat} {t : Thread} {a : Action} {rest : Code} {s s' : State} {k k' : Kernel}

private theorem acquire_total (max : Nat) (s : RuntimeState × Nat) :
    ∃ answer r, (lifecycleTable max).apply (.retry .acquire) s = some (answer, r) := by
  obtain ⟨state, n⟩ := s
  cases state with
  | running =>
    rw [Runtime.apply_acquire_running]
    by_cases hn : n < max
    · exact ⟨_, _, if_pos hn⟩
    · exact ⟨_, _, if_neg hn⟩
  | _ => exact ⟨.error .notInitialized, _, rfl⟩

private theorem leaseDrop_total (hst : s.code t = .act .dropLease :: rest)
    (hr : (system max).Reachable s) :
    ∃ r, (lifecycleTable max).apply (.retry .leaseDrop) s.shared.runtime = some (.ok (), r) := by
  obtain ⟨M, hM, hinv, -⟩ := inv_of_reachable hr
  have hmem : .lease none ∈ M := hM.mem_of_head hst (by simp [cargo])
  have hpos : 0 < s.shared.runtime.2 := hinv.leases_pos hmem Nat.one_pos
  have hrunning : s.shared.runtime.1 = .running := hinv.leased.running hpos
  obtain ⟨n, hn⟩ := Nat.exists_eq_succ_of_ne_zero hpos.ne'
  refine ⟨(.running, n), ?_⟩
  rw [← Prod.mk.eta (p := s.shared.runtime), hrunning, hn]
  rfl

private theorem strong_of_drop {id : Nat} (hst : s.code t = .act (.dropHandle id) :: rest)
    (hr : (system max).Reachable s) : 0 < s.shared.handles.strong id := by
  obtain ⟨M, hM, hinv, -⟩ := inv_of_reachable hr
  have hmem : .clone id ∈ M := hM.mem_of_head hst (by simp [cargo])
  have hle : Token.clones id (.clone id) ≤ tally (Token.clones id) M := le_tally hmem
  have hclones := hinv.enrolled.clones id
  simp only [Token.clones, if_true] at hle
  change 0 < s.shared.view.handles.strong id
  omega

private theorem performs_total (hr : (system max).Reachable s)
    (hst : s.code t = .act a :: rest) (ha : 0 < effort a) :
    ∃ w code, Performs max t s.shared a w code ∧
      ∀ again id, a = .ensureWorker again id → w = s.shared ∧ code = [.unlock .control] := by
  cases a with
  | acquire period mode callback =>
    obtain ⟨answer, r, happly⟩ := acquire_total max s.shared.runtime
    cases answer with
    | ok u => exact ⟨_, _, .acquire happly, by simp⟩
    | error e => exact ⟨_, _, .acquireRefused happly, by simp⟩
  | ensureWorker again id => exact ⟨_, _, .noWorker, by simp⟩
  | extract q =>
    by_cases hslot : ∃ g worker, s.shared.slot = .running g worker
    · obtain ⟨g, worker, hslot⟩ := hslot
      exact ⟨_, _, .extract hslot, by simp⟩
    · exact ⟨_, _, .turnDown fun g worker h => hslot ⟨g, worker, h⟩, by simp⟩
  | request g q => exact ⟨_, _, .request true, by simp⟩
  | serve g q reserved => exact ⟨_, _, .serve (Nat.le_refl _), by simp⟩
  | signalWake g => exact ⟨_, _, .signalWake, by simp⟩
  | returned g q ok => exact ⟨_, _, .returned, by simp⟩
  | dropService g =>
    by_cases hrefs : (s.shared.service g).refs = 1
    · exact ⟨_, _, .destroy hrefs, by simp⟩
    · exact ⟨_, _, .dropService hrefs, by simp⟩
  | dropLease =>
    obtain ⟨r, happly⟩ := leaseDrop_total hst hr
    exact ⟨_, _, .dropLease happly, by simp⟩
  | adopt id => exact ⟨_, _, .adopt, by simp⟩
  | dropHandle id =>
    have hpos := strong_of_drop hst hr
    by_cases hone : s.shared.handles.strong id = 1
    · exact ⟨_, _, .dropLast hone, by simp⟩
    · exact ⟨_, _, .dropClone (Nat.lt_of_le_of_ne hpos (Ne.symm hone)), by simp⟩
  | dropCallback callback => exact ⟨_, _, .dropCallback, by simp⟩
  | dropRemoved g id callback => exact ⟨_, _, .dropRemoved, by simp⟩
  | _ => exact absurd ha (Nat.lt_irrefl 0)

private theorem unscheduled_of_part {w : Backend} {code : Code}
    (hst : s.code t = .act a :: rest) (ha : 0 < effort a)
    (hstart : ∀ again id, a = .ensureWorker again id →
      w = s.shared ∧ code = [.unlock .control]) :
    Unscheduled s (t, .act a) (s.perform t w (code ++ rest)) := by
  cases a with
  | ensureWorker again id =>
    obtain ⟨rfl, rfl⟩ := hstart again id rfl
    have hcode : (s.perform t s.shared ([.unlock .control] ++ rest)).code t =
        .unlock .control :: rest := Function.update_self _ _ _
    refine ⟨rfl, ?_⟩
    rw [hcode, hst]
    rfl
  | checkScheduler | take | awaitCompletion => exact absurd ha (Nat.lt_irrefl 0)
  | _ => trivial

/-- The call has returned, and the scheduler is still suspended. -/
def Returned (t : Thread) (k : Kernel) : Prop :=
  k.dead = false ∧ k.suspended = some t ∧ k.InUser t

/-- A timer call of the task that has suspended the scheduler is under way, or has returned. -/
structure Calling (max : Nat) (t : Thread) (k : Kernel) : Prop where
  reachable : ((kernel max).restrict Considerate).Reachable k
  suspended : k.suspended = some t
  pending : ∃ pending a, Action.user a = true ∧ k.base.code t = pending ++ [.act a] ∧
    Threads.Only (fun b => 0 < effort b) pending

def remaining (t : Thread) (k : Kernel) : Nat := toil (k.base.code t) + reserve k.base.shared

theorem Calling.progress (h : Calling max t k) (hnot : ¬ Returned t k) :
    ∃ e k', (kernel max).step k e k' := by
  have hund := undisturbed_of_reachable h.reachable
  have hr := kernel_base (Lts.restrict_reachable h.reachable)
  obtain ⟨H, hsolo⟩ := hund.solo t h.suspended
  obtain ⟨pending, a, huser, hcode, honly⟩ := h.pending
  cases pending with
  | nil => exact absurd ⟨hund.alive, h.suspended, a, huser, hcode⟩ hnot
  | cons i rest =>
    cases i with
    | lock m =>
      have hfree := hsolo.free hcode
      exact ⟨_, _, .runAlone hund.alive h.suspended (.lock hcode hfree) trivial⟩
    | unlock m => exact ⟨_, _, .runAlone hund.alive h.suspended (.unlock hcode) trivial⟩
    | act b =>
      have hb := ((Threads.only_act b).1 honly).1
      obtain ⟨w, code, hex, hstart⟩ := performs_total hr hcode hb
      exact ⟨_, _, .runAlone hund.alive h.suspended (.act hcode hex)
        (unscheduled_of_part hcode hb hstart)⟩

private theorem Calling.run {i : Instr Lock Action} (h : Calling max t k)
    (hnot : ¬ Returned t k) (hs : (system max).step k.base (t, i) s')
    (hun : Unscheduled k.base (t, i) s') :
    (∃ pending a, Action.user a = true ∧ s'.code t = pending ++ [.act a] ∧
      Threads.Only (fun b => 0 < effort b) pending) ∧
    toil (s'.code t) + reserve s'.shared < remaining t k := by
  have hund := undisturbed_of_reachable h.reachable
  have hr := kernel_base (Lts.restrict_reachable h.reachable)
  obtain ⟨pending, a, huser, hcode, honly⟩ := h.pending
  cases pending with
  | nil => exact absurd ⟨hund.alive, h.suspended, a, huser, hcode⟩ hnot
  | cons j pending =>
    rw [List.cons_append] at hcode
    rw [remaining, hcode]
    cases hs with
    | @lock _ m rest hst hfree =>
      obtain ⟨rfl, rfl⟩ := List.cons.inj (hcode.symm.trans hst)
      have hnext : (k.base.take t m (pending ++ [.act a])).code t = pending ++ [.act a] :=
        Function.update_self _ _ _
      rw [hnext]
      refine ⟨⟨pending, a, huser, rfl, (Threads.only_lock m).1 honly⟩, ?_⟩
      change _ + reserve k.base.shared < _
      rw [toil]
      omega
    | @unlock _ m rest hst =>
      obtain ⟨rfl, rfl⟩ := List.cons.inj (hcode.symm.trans hst)
      have hnext : (k.base.release t m (pending ++ [.act a])).code t = pending ++ [.act a] :=
        Function.update_self _ _ _
      rw [hnext]
      refine ⟨⟨pending, a, huser, rfl, (Threads.only_unlock m).1 honly⟩, ?_⟩
      change _ + reserve k.base.shared < _
      rw [toil]
      omega
    | @act _ b rest code w hst hex =>
      obtain ⟨rfl, rfl⟩ := List.cons.inj (hcode.symm.trans hst)
      obtain ⟨hb, honly⟩ := (Threads.only_act b).1 honly
      have hnext : (k.base.perform t w (code ++ (pending ++ [.act a]))).code t =
          code ++ (pending ++ [.act a]) := Function.update_self _ _ _
      have haimed := hund.aimed t h.suspended
      rw [hst] at haimed
      obtain ⟨hlt, hparts⟩ := hex.lowers hr hst hb haimed.1 fun again id he => by
        subst he
        have htail := hun.2
        rw [hnext, hst] at htail
        exact List.append_cancel_right (htail.trans (by simp))
      rw [hnext]
      refine ⟨⟨code ++ pending, a, huser, by simp, Threads.only_append.2 ⟨hparts, honly⟩⟩, ?_⟩
      change _ + reserve w < _
      rw [toil_append, toil]
      omega

/-- However it goes on, the call of a task that has suspended the scheduler returns. -/
theorem Calling.inevitable (h : Calling max t k) :
    (kernel max).Inevitable Considerate (Returned t) k := by
  refine Lts.Inevitable.of_measure (I := Calling max t) (remaining t)
    (fun k h hnot => h.progress hnot) (fun k e k' h hnot hs hc => ?_) h
  have hreach := h.reachable.snoc ⟨hs, hc⟩
  cases hs with
  | run _ hnone _ => cases hnone.symm.trans h.suspended
  | @runAlone u i s' _ hsusp hstep hun =>
    obtain rfl : u = t := Option.some.inj (hsusp.symm.trans h.suspended)
    obtain ⟨hpending, hlt⟩ := h.run hnot hstep hun
    exact ⟨⟨hreach, h.suspended, hpending⟩, hlt⟩
  | suspend _ hnone _ => cases hnone.symm.trans h.suspended
  | @resume u halive hsusp huser =>
    obtain rfl : u = t := Option.some.inj (hsusp.symm.trans h.suspended)
    exact absurd ⟨halive, hsusp, huser⟩ hnot
  | @assertFails u g rest _ hsusp hst hheld =>
    obtain ⟨H, hsolo⟩ := (undisturbed_of_reachable h.reachable).solo u hsusp
    exact absurd (hsolo.free hst) hheld

end Progress

/-! ## The precondition table -/

section Table

variable {max : Nat} {t : Thread} {rest : Code} {k : Kernel} {g : Nat} {q : Request}
  {reserved : Bool}

structure Promised (max : Nat) (k : Kernel) : Prop where
  /-- `registry mutex dead` has not failed. -/
  alive : k.dead = false
  /-- It finds the slot and the registry mutex free. -/
  free : ∀ t m rest, k.suspended = some t → k.base.code t = .lock m :: rest →
    k.base.holder m = none
  /-- Its requests find the service, -/
  found : ∀ t q rest, k.suspended = some t → k.base.code t = .act (.extract q) :: rest →
    ∃ g worker, k.base.shared.slot = .running g worker
  /-- and are answered with `Ok`, a registration if there are memory and an identifier for it. -/
  answered : ∀ t g q reserved rest now, k.suspended = some t →
    k.base.code t = .act (.serve g q reserved) :: rest →
    (∀ period mode callback, q = .register period mode callback →
      reserved = true ∧ (k.base.shared.service g).state.nextId + 1 ≤ u64Max) →
    (k.base.shared.service g).state.succeeds now reserved q = true
  /-- A timer call that it makes returns. -/
  returns : ∀ t i a, k.suspended = some t → Action.user a = true →
    k.base.code t = intend i ++ [.act a] → (kernel max).Inevitable Considerate (Returned t) k

private theorem only_intend (i : Intent) :
    Threads.Only (fun b => 0 < effort b) (intend i) := by
  cases i with
  | request q => cases q <;> simp [intend, api, withRegistry, effort]
  | idle | dropHandle | dropCallback => simp [intend, effort]

private theorem found_of_aims {s : State} (hr : (system max).Reachable s)
    (hst : s.code t = .act (.extract q) :: rest) (haims : Answerable s.shared q) :
    ∃ g worker, s.shared.slot = .running g worker := by
  have hlife := lifecycle_consistent max hr
  cases q with
  | register period mode callback =>
    obtain ⟨M, hM, hinv, -⟩ := inv_of_reachable hr
    have hmem : .lease none ∈ M := hM.mem_of_head hst (by simp [cargo, Request.tokens])
    obtain ⟨-, g, worker, hslot, -⟩ := hlife.leased (hinv.leases_pos hmem Nat.one_pos)
    exact ⟨g, worker, hslot⟩
  | stop id =>
    obtain ⟨g, worker, hslot, -⟩ := hlife.handle id haims
    exact ⟨g, worker, hslot⟩
  | changePeriod id newPeriod =>
    obtain ⟨g, worker, hslot, -⟩ := hlife.handle id haims.2
    exact ⟨g, worker, hslot⟩
  | deregister id => exact hlife.found t id rest hst
  | start | reset => exact haims.elim

private theorem entry_of_strong {s : State} {id : Nat} {worker : Bool}
    (hr : (system max).Reachable s) (hpos : 0 < s.shared.handles.strong id)
    (hslot : s.shared.slot = .running g worker) :
    ∃ e, (s.shared.service g).state.timers.find? (TimerEntry.live id) = some e := by
  obtain ⟨g', worker', hslot', hone⟩ := (lifecycle_consistent max hr).handle id hpos
  obtain ⟨rfl, -⟩ := ServiceSlot.running.inj (hslot.symm.trans hslot')
  obtain ⟨e, he, hlive⟩ := List.countP_pos_iff.1 (hone ▸ Nat.one_pos)
  cases hfind : (s.shared.service g).state.timers.find? (TimerEntry.live id) with
  | some e' => exact ⟨e', rfl⟩
  | none => exact absurd hlive (List.find?_eq_none.1 hfind e he)

private theorem answered_of_aims {s : State} (hr : (system max).Reachable s)
    (hst : s.code t = .act (.serve g q reserved) :: rest)
    (haims : Aims s.shared (.serve g q reserved))
    (hroom : ∀ period mode callback, q = .register period mode callback →
      reserved = true ∧ (s.shared.service g).state.nextId + 1 ≤ u64Max) (now : Duration) :
    (s.shared.service g).state.succeeds now reserved q = true := by
  obtain ⟨hanswer, worker, hslot⟩ := haims
  cases q with
  | register period mode callback =>
    rw [Registry.succeeds, register_of_room mode callback hanswer (hroom _ _ _ rfl)]
    rfl
  | stop id =>
    obtain ⟨e, hfind⟩ := entry_of_strong hr hanswer hslot
    rw [Registry.succeeds, Registry.stop, Registry.onLive_fst, hfind]
    rfl
  | changePeriod id newPeriod =>
    obtain ⟨e, hfind⟩ := entry_of_strong hr hanswer.2 hslot
    rw [Registry.succeeds, Registry.changePeriod, Registry.onLive_fst, hfind]
    simp [TimerState.changePeriod, hanswer.1, Except.isOk, Except.toBool]
  | deregister id => exact (lifecycle_consistent max hr).deregistered t g id reserved rest now hst
  | start | reset => exact hanswer.elim

/-- In every run in which tasks are considerate about suspending the scheduler, a task that has
suspended it gets what it is promised. -/
theorem suspended_calls_kept (hr : ((kernel max).restrict Considerate).Reachable k) :
    Promised max k := by
  have hund := undisturbed_of_reachable hr
  have hbase := kernel_base (Lts.restrict_reachable hr)
  refine ⟨hund.alive, fun t m rest hsusp hst => ?_, fun t q rest hsusp hst => ?_,
    fun t g q reserved rest now hsusp hst hroom => ?_, fun t i a hsusp huser hst => ?_⟩
  · obtain ⟨H, hsolo⟩ := hund.solo t hsusp
    exact hsolo.free hst
  · have haimed := hund.aimed t hsusp
    rw [hst] at haimed
    exact found_of_aims hbase hst haimed.1
  · have haimed := hund.aimed t hsusp
    rw [hst] at haimed
    exact answered_of_aims hbase hst haimed.1 hroom now
  · have hcall : Calling max t k := ⟨hr, hsusp, intend i, a, huser, hst, only_intend i⟩
    exact hcall.inevitable

end Table

/-! ### Two tasks -/

section Runs

variable {max : Nat} {s : State}

private theorem considerate_of_running {k k' : Kernel} {l : Thread × Instr Lock Action}
    (h : k.suspended = none) : Considerate k (.run l) k' := by
  obtain ⟨t, i⟩ := l
  unfold Considerate
  split
  · rename_i he
    cases he
  · exact fun hne => absurd h hne
  · trivial

private theorem kernel_of_system (hr : (system max).Reachable s) :
    ((kernel max).restrict Considerate).Reachable ⟨s, none, false⟩ := by
  refine hr.invariant
    (I := fun s => ((kernel max).restrict Considerate).Reachable ⟨s, none, false⟩) ?_ ?_
  · intro s hstart
    exact .start ⟨hstart, rfl, rfl⟩
  · intro s l s' h hs
    exact h.snoc ⟨.run rfl rfl hs, considerate_of_running rfl⟩

private theorem stops_first {h : Handles} (hpos : 0 < h.owned 1) :
    Handles.Calls [] h (.request (.stop 1)) h := .stop (.inl hpos)

/-- Task 0 suspends the scheduler and stops its timer, and the call returns. -/
theorem suspended_calls_kept_stop :
    ∃ k, ((kernel 2).restrict Considerate).Reachable k ∧ k.suspended = some (.task 0) ∧
      k.base.code (.task 0) = intend (.request (.stop 1)) ++ [.act .application] ∧
      (kernel 2).Inevitable Considerate (Returned (.task 0)) k := by
  obtain ⟨tr, h, -⟩ := run_oneTimer
  have h := kernel_of_system h.reachable
  have h := h.snoc ⟨.suspend (t := .task 0) rfl rfl ⟨.application, rfl, rfl⟩, fun m => rfl⟩
  have h := h.snoc ⟨.runAlone (t := .task 0) rfl rfl
    (.act rfl (.application (stops_first (by decide)))) trivial, trivial⟩
  have hkept := suspended_calls_kept h
  exact ⟨_, h, rfl, rfl, hkept.returns (.task 0) (.request (.stop 1)) .application rfl rfl rfl⟩

/-- Task 0 is inside `with_lock` when task 1 suspends the scheduler and calls `stop`: the
assertion fails. -/
theorem suspended_stop_dies :
    ∃ k k', (kernel 2).Reachable k ∧ k.suspended = some (.task 1) ∧
      k.base.code (.task 1) =
        [.lock (.registry 0), .act (.request 0 (.stop 1)), .act .application] ∧
      k.base.holder (.registry 0) = some (.task 0) ∧
      (kernel 2).step k (.assertFails (.task 1)) k' ∧ k'.dead = true ∧ ¬ Promised 2 k' := by
  obtain ⟨tr, h, -⟩ := run_oneTimer
  have h := h.snoc (.act (t := .task 0) rfl (.application (stops_first (by decide))))
  have h := h.snoc (.lock (t := .task 0) rfl rfl)
  have h := h.snoc (.act (t := .task 0) rfl (.extract rfl))
  have h := h.snoc (.unlock (t := .task 0) rfl)
  have h := h.snoc (.lock (t := .task 0) rfl rfl)
  have h := Lts.restrict_reachable (kernel_of_system h.reachable)
  have h := h.snoc (.suspend (t := .task 1) rfl rfl ⟨.application, rfl, rfl⟩)
  have h := h.snoc (.runAlone (t := .task 1) rfl rfl
    (.act rfl (.application (stops_first (by decide)))) trivial)
  have h := h.snoc (.runAlone (t := .task 1) rfl rfl (.lock rfl rfl) trivial)
  have h := h.snoc (.runAlone (t := .task 1) rfl rfl (.act rfl (.extract rfl)) trivial)
  have h := h.snoc (.runAlone (t := .task 1) rfl rfl (.unlock rfl) trivial)
  refine ⟨_, _, h, rfl, rfl, rfl, .assertFails rfl rfl rfl nofun, rfl, fun hp => ?_⟩
  cases hp.alive

end Runs

end OsalRust.FreeRtosBackend
