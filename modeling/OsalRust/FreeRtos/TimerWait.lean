import OsalRust.FreeRtos.BackendLocks

/-!
# The wait of the FreeRTOS timer worker

Between its scan and its wait for the semaphore the worker does not hold the registry mutex.
Whoever changes the registry in that gap so that the deadline of the scan is too late, or asks
the service to stop, is still inside the mutex with the signal ahead of it, or has left the token
in the semaphore.
-/

namespace OsalRust.FreeRtosBackend

open OsalRust OsalRust.Framework OsalRust.Timer
open OsalRust.Runtime (RuntimeState lifecycleTable)

variable {max : Nat} {t : Thread} {w w' : Backend} {a : Action} {code rest : Code} {s s' : State}

/-! ### The signal -/

/-- Every signal of the code is given with the mutex of its service still to be given back. -/
def Announced : Code → Prop
  | .act (.signalWake g) :: rest => rest.head? = some (.unlock (.registry g)) ∧ Announced rest
  | _ :: rest => Announced rest
  | [] => True

section Announced

variable {g : Nat}

private theorem Announced.append (h : Announced code) (hr : Announced rest) :
    Announced (code ++ rest) := by
  induction code with
  | nil => exact hr
  | cons i code ih =>
    cases i with
    | lock m => exact ih h
    | unlock m => exact ih h
    | act a =>
      cases a with
      | signalWake g =>
        refine ⟨?_, ih h.2⟩
        cases code with
        | nil => cases h.1
        | cons j code => exact h.1
      | _ => exact ih h

private theorem Announced.tail {i : Instr Lock Action} (h : Announced (i :: rest)) :
    Announced rest := by
  cases i with
  | lock m => exact h
  | unlock m => exact h
  | act a =>
    cases a with
    | signalWake g => exact h.2
    | _ => exact h

private theorem announced_of_only (h : ∀ g, .act (.signalWake g) ∉ code) : Announced code := by
  induction code with
  | nil => trivial
  | cons i code ih =>
    have hcode : Announced code := ih fun g hg => h g (List.mem_cons_of_mem _ hg)
    cases i with
    | lock m => exact hcode
    | unlock m => exact hcode
    | act a =>
      cases a with
      | signalWake g => exact absurd List.mem_cons_self (h g)
      | _ => exact hcode

private theorem announced_dropAll (callbacks : List Callback) : Announced (dropAll callbacks) :=
  announced_of_only fun g hg => by simp [dropAll] at hg

private theorem announced_dropHandles (callback : Callback) : Announced (dropHandles callback) :=
  announced_of_only fun g hg => by simp [dropHandles] at hg

private theorem announced_finish (q : Request) (ok : Bool) (o : Outcome) :
    Announced (finish g q ok o) := by
  cases o with
  | removed callback => cases q <;> cases callback <;> trivial
  | done | registered | refused => trivial

private theorem finish_head {r : Registry} {now : Duration} {reserved : Bool} {q : Request}
    (ok : Bool) (h : r.succeeds now reserved q = true) :
    (finish g q ok (r.serve now reserved q).1).head? = some (.unlock (.registry g)) := by
  cases q with
  | register period mode callback =>
    change (r.register period mode callback reserved).1.isOk = true at h
    rw [Registry.serve]
    cases hr : (r.register period mode callback reserved).1 with
    | ok id => rfl
    | error e =>
      rw [hr] at h
      cases h
  | deregister id =>
    rw [Registry.serve]
    cases (r.deregister id).1 <;> rfl
  | start | stop | reset | changePeriod => rfl

private theorem announced_serve {r : Registry} {now : Duration} {reserved : Bool} (q : Request) :
    Announced (signal g (r.succeeds now reserved q && wakes q) ++
      finish g q (r.succeeds now reserved q) (r.serve now reserved q).1) := by
  cases hs : r.succeeds now reserved q && wakes q with
  | false => exact announced_finish _ _ _
  | true =>
    rw [Bool.and_eq_true] at hs
    exact ⟨finish_head _ hs.1, announced_finish _ _ _⟩

theorem Performs.announced (h : Performs max t w a w' code) : Announced code := by
  cases h with
  | @application _ _ i => cases i with
    | request q => cases q <;> trivial
    | idle | dropHandle | dropCallback => trivial
  | @callbackCalls _ _ _ _ _ i => cases i with
    | request q => cases q <;> trivial
    | idle | dropHandle | dropCallback => trivial
  | @turnDown _ _ q => cases q <;> trivial
  | serve => exact announced_serve _
  | @select _ _ _ _ selection r => cases selection with
    | none =>
      unfold dispatch
      cases earliest r <;> trivial
    | rescan | dispatch => trivial
  | @restore _ _ g id callback =>
    cases ((w.service g).state.restore id callback).1 <;> trivial
  | @takeTimeout _ _ _ deadline => cases deadline <;> trivial
  | dropCallback => exact announced_dropHandles _
  | dropRemoved => exact (announced_dropHandles _).append trivial
  | dropRetired => exact (announced_dropHandles _).append trivial
  | destroy => exact announced_dropAll _
  | checkTimersBusy => exact (announced_dropAll _).append trivial
  | checkTimers => exact (announced_dropAll _).append trivial
  | scan => exact (announced_dropAll _).append trivial
  | scanStop => exact (announced_dropAll _).append trivial
  | requestStop => exact ⟨rfl, trivial⟩
  | _ => trivial

end Announced

theorem holder_of_signal {g : Nat} (hr : (system max).Reachable s)
    (hst : s.code t = .act (.signalWake g) :: rest) : s.holder (.registry g) = some t := by
  have hann : ∀ u, Announced (s.code u) := by
    refine hr.invariant (I := fun s => ∀ u, Announced (s.code u)) ?_ ?_
    · rintro s ⟨now, rfl⟩ u
      cases u <;> trivial
    · exact fun s l s' h hs => Threads.shape_step h hs (fun _ _ => Announced.tail)
        (fun _ _ => Announced.append) fun hex => hex.announced
  have ht := hann t
  rw [hst] at ht
  obtain ⟨rest', rfl⟩ := List.head?_eq_some_iff.1 ht.1
  have hb := balanced_of_reachable hr g t
  rw [hst, balance_act rfl] at hb
  by_contra hne
  rw [if_neg hne] at hb
  simp [Threads.balance] at hb

/-! ### Deadlines -/

section Deadlines

variable {r : Registry} {now x : Duration} {reserved : Bool} {id z : Nat}

private theorem start_refused {st : TimerState} (hd : r.Distinct) (hs : r.HasState id st)
    (h : (r.start id now).1.isOk = false) : (st.start now).2 = st := by
  obtain ⟨e, he, hl, rfl⟩ := hs
  rw [Registry.start, Registry.onLive_fst] at h
  cases hfind : r.timers.find? (TimerEntry.live id) with
  | none => exact absurd hl (List.find?_eq_none.1 hfind e he)
  | some e' =>
    have hl' := List.find?_some hfind
    have hid : e'.id = e.id := (TimerEntry.live_iff.1 hl').1.trans (TimerEntry.live_iff.1 hl).1.symm
    obtain rfl := hd.eq_of_id (List.mem_of_find?_eq_some hfind) he hid
    rw [hfind] at h
    dsimp only at h
    rw [TimerState.start] at h ⊢
    cases hc : TimeConvert.checkedDeadline now e'.state.period with
    | ok d =>
      rw [hc] at h
      cases h
    | error err => rfl

theorem runs_of_silent {q : Request} (hd : r.Distinct)
    (h : (r.succeeds now reserved q && wakes q) = false)
    (hruns : (r.serve now reserved q).2.Runs z x) : r.Runs z x := by
  obtain ⟨st', hs', hx⟩ := hruns
  rcases Registry.hasState_serve hd hs' with ⟨-, hnone⟩ | ⟨-, hs⟩ | ⟨ht, hne, st, hs, rfl⟩
  · cases hnone.symm.trans hx
  · exact ⟨st', hs, hx⟩
  · cases q with
    | register => cases ht
    | deregister id =>
      obtain rfl := Option.some.inj ht
      exact absurd rfl hne
    | stop id => cases hx
    | changePeriod id period =>
      refine ⟨st, hs, ?_⟩
      rwa [Request.control, TimerState.changePeriod_deadline] at hx
    | start id =>
      obtain rfl := Option.some.inj ht
      have hfails : (r.start id now).1.isOk = false := (Bool.and_true _).symm.trans h
      rw [Request.control, start_refused hd hs hfails] at hx
      exact ⟨st, hs, hx⟩
    | reset id =>
      obtain rfl := Option.some.inj ht
      have hfails : (r.start id now).1.isOk = false := (Bool.and_true _).symm.trans h
      rw [Request.control, TimerState.reset_eq_start, start_refused hd hs hfails] at hx
      exact ⟨st, hs, hx⟩

theorem runs_retain : r.retain.2.Runs z x ↔ r.Runs z x := by
  simp only [Registry.Runs, Registry.hasState_retain]

private theorem foldl_least (ds : List Duration) (d : Duration) :
    ∀ x ∈ d :: ds, (ds.foldl (fun acc d => if d < acc then d else acc) d) ≤ x := by
  induction ds generalizing d with
  | nil =>
    intro x hx
    rw [List.mem_singleton.1 hx]
    exact Nat.le_refl _
  | cons y ds ih =>
    rw [List.foldl_cons]
    have hall := ih (if y < d then y else d)
    have hfirst := hall _ List.mem_cons_self
    have hboth : (if y < d then y else d) ≤ d ∧ (if y < d then y else d) ≤ y := by
      by_cases hy : y < d
      · rw [if_pos hy]
        exact ⟨Nat.le_of_lt hy, Nat.le_refl _⟩
      · rw [if_neg hy]
        exact ⟨Nat.le_refl _, Nat.le_of_not_lt hy⟩
    intro x hx
    rcases List.mem_cons.1 hx with rfl | hx
    · exact Nat.le_trans hfirst hboth.1
    · rcases List.mem_cons.1 hx with rfl | hx
      · exact Nat.le_trans hfirst hboth.2
      · exact hall x (List.mem_cons_of_mem _ hx)

theorem earliest_le (h : r.Runs z x) : ∃ d, earliest r = some d ∧ d ≤ x := by
  obtain ⟨st, ⟨e, he, hl, rfl⟩, hx⟩ := h
  have hlive : (!e.deleted) = true := by rw [(TimerEntry.live_iff.1 hl).2]; rfl
  have hmem : x ∈ (r.timers.filter (!·.deleted)).filterMap (·.state.deadline) :=
    List.mem_filterMap.2 ⟨e, List.mem_filter.2 ⟨he, hlive⟩, hx⟩
  unfold earliest
  cases hds : (r.timers.filter (!·.deleted)).filterMap (·.state.deadline) with
  | nil =>
    rw [hds] at hmem
    cases hmem
  | cons d ds =>
    rw [hds] at hmem
    exact ⟨_, rfl, foldl_least ds d x hmem⟩

end Deadlines

/-! ### What the worker waits for -/

/-- Waiting until `deadline`, or for ever, misses neither a stop request nor a running timer. -/
def Timely (deadline : Option Duration) (r : Registry) : Prop :=
  r.stopRequested = false ∧ ∀ id x, r.Runs id x → ∃ d, deadline = some d ∧ d ≤ x

/-- What the worker relies on after it has looked at the registry, unless it has been `roused`. -/
def Due (w : Backend) (roused : Nat → Prop) : Action → Prop
  | .select g => roused g ∨ (w.service g).state.stopRequested = false
  | .waitUntil g deadline => roused g ∨ Timely (some deadline) (w.service g).state
  | .take g deadline => roused g ∨ Timely deadline (w.service g).state
  | _ => True

/-- A change of the registry that leaves a timely deadline timely. -/
structure Calm (r r' : Registry) : Prop where
  stop : r'.stopRequested = r.stopRequested
  runs : ∀ id x, r'.Runs id x → r.Runs id x

section Effects

variable {g : Nat} {r r' : Registry} {deadline : Option Duration}

theorem Calm.refl (r : Registry) : Calm r r := ⟨rfl, fun _ _ => id⟩

theorem Calm.timely (h : Calm r r') (ht : Timely deadline r) : Timely deadline r' :=
  ⟨h.stop.trans ht.1, fun id x hx => ht.2 id x (h.runs id x hx)⟩

private theorem calm_retain : Calm r r.retain.2 := ⟨rfl, fun _ _ => runs_retain.1⟩

private theorem calm_clear : Calm r { r with timers := [] } := by
  refine ⟨rfl, fun id x hx => ?_⟩
  obtain ⟨st, ⟨e, he, -⟩, -⟩ := hx
  cases he

/-- The wake token of service `g` stays, and its registry is calm. -/
def Keeps (w w' : Backend) (g : Nat) : Prop :=
  ((w.service g).wake = true → (w'.service g).wake = true) ∧
    Calm (w.service g).state (w'.service g).state

private theorem keeps_of_service (h : w'.service = w.service) : Keeps w w' g := by
  unfold Keeps
  rw [h]
  exact ⟨id, .refl _⟩

private theorem keeps_adjust {h : Nat} {x : TimerService}
    (hs : w'.service = Function.update w.service h x)
    (hwake : (w.service h).wake = true → x.wake = true)
    (hcalm : Calm (w.service h).state x.state) : Keeps w w' g := by
  unfold Keeps
  rw [hs]
  by_cases hg : g = h
  · subst hg
    rw [Function.update_self]
    exact ⟨hwake, hcalm⟩
  · rw [Function.update_of_ne hg]
    exact ⟨id, .refl _⟩

private theorem keeps_other {h : Nat} {x : TimerService}
    (hs : w'.service = Function.update w.service h x) (hg : g ≠ h) : Keeps w w' g := by
  unfold Keeps
  rw [hs, Function.update_of_ne hg]
  exact ⟨id, .refl _⟩

private theorem serve_effect {h : Nat} {q : Request} {now : Duration} {reserved : Bool}
    (hd : (w.service h).state.Distinct) (ok : Bool) (o : Outcome)
    (hs : w'.service = Function.update w.service h
      { w.service h with state := ((w.service h).state.serve now reserved q).2 }) :
    (∃ tail, signal h ((w.service h).state.succeeds now reserved q && wakes q) ++ finish h q ok o =
      .act (.signalWake g) :: tail) ∨ Keeps w w' g := by
  by_cases hg : g = h
  · subst hg
    cases hsent : (w.service g).state.succeeds now reserved q && wakes q with
    | true => exact .inl ⟨_, rfl⟩
    | false =>
      refine .inr (keeps_adjust hs id ⟨Registry.serve_stopRequested, fun id x hx => ?_⟩)
      exact runs_of_silent hd hsent hx
  · exact .inr (keeps_other hs hg)

/-- What an action does to service `g` while its worker waits: it announces itself, or it is the
worker's own, or it gives no reason to wake up earlier. -/
theorem Performs.effect (h : Performs max t w a w' code)
    (hd : ∀ g, (w.service g).state.Distinct) (g : Nat) :
    (∃ tail, code = .act (.signalWake g) :: tail) ∨ (∃ x, .loop g x ∈ cargo a) ∨ Keeps w w' g := by
  cases h with
  | serve => exact (serve_effect (hd _) _ _ rfl).imp_right .inr
  | @requestStop _ _ h =>
    by_cases hg : g = h
    · subst hg
      exact .inl ⟨_, rfl⟩
    · exact .inr (.inr (keeps_other rfl hg))
  | @select _ _ h =>
    by_cases hg : g = h
    · subst hg
      exact .inr (.inl ⟨.idle, Multiset.mem_singleton_self _⟩)
    · exact .inr (.inr (keeps_other rfl hg))
  | @take _ _ h =>
    by_cases hg : g = h
    · subst hg
      exact .inr (.inl ⟨.idle, Multiset.mem_singleton_self _⟩)
    · exact .inr (.inr (keeps_other rfl hg))
  | @restore _ _ h id =>
    by_cases hg : g = h
    · subst hg
      exact .inr (.inl ⟨.running id, Multiset.mem_singleton_self _⟩)
    · exact .inr (.inr (keeps_other rfl hg))
  | signalWake => exact .inr (.inr (keeps_adjust rfl (fun _ => rfl) (.refl _)))
  | checkTimersBusy => exact .inr (.inr (keeps_adjust rfl id calm_retain))
  | checkTimers => exact .inr (.inr (keeps_adjust rfl id calm_retain))
  | scan => exact .inr (.inr (keeps_adjust rfl id calm_retain))
  | scanStop => exact .inr (.inr (keeps_adjust rfl id calm_retain))
  | destroy => exact .inr (.inr (keeps_adjust rfl id calm_clear))
  | createService => exact .inr (.inr (keeps_adjust rfl id (.refl _)))
  | stopSelf => exact .inr (.inr (keeps_adjust rfl id (.refl _)))
  | stop => exact .inr (.inr (keeps_adjust rfl id (.refl _)))
  | createWorker => exact .inr (.inr (keeps_adjust rfl id (.refl _)))
  | extract => exact .inr (.inr (keeps_adjust rfl id (.refl _)))
  | dropService => exact .inr (.inr (keeps_adjust rfl id (.refl _)))
  | worker => exact .inr (.inr (keeps_adjust rfl id (.refl _)))
  | begin => exact .inr (.inr (keeps_adjust rfl id (.refl _)))
  | callbackYields => exact .inr (.inr (keeps_adjust rfl id (.refl _)))
  | callbackCaptures => exact .inr (.inr (keeps_adjust rfl id (.refl _)))
  | complete => exact .inr (.inr (keeps_adjust rfl id (.refl _)))
  | _ => exact .inr (.inr (keeps_of_service rfl))

private theorem select_none {now : Duration} (h : r.select now = .ok (.none, r')) : r' = r := by
  rw [Registry.select] at h
  split at h
  · cases h
    rfl
  · split at h
    · cases h
    · split at h
      · split at h
        · cases h
        · cases h
      · cases h

private theorem due_waits {roused roused' : Nat → Prop} {x : TimerService}
    (hs : w'.service = Function.update w.service g x) (hx : x.state = (w.service g).state)
    (hrouse : roused g → roused' g)
    (ha : roused g ∨ (w.service g).state.stopRequested = false) :
    Threads.Only (Due w' roused') (dispatch g (w.service g).state .none) := by
  have hself : (w'.service g).state = (w.service g).state := by rw [hs, Function.update_self, hx]
  have hdue : roused' g ∨ Timely (earliest (w.service g).state) (w'.service g).state := by
    rw [hself]
    exact ha.imp hrouse fun hstop => ⟨hstop, fun id x => earliest_le⟩
  unfold dispatch
  cases hear : earliest (w.service g).state with
  | some d =>
    rw [hear] at hdue
    exact (Threads.only_unlock _).2 ((Threads.only_act _).2 ⟨hdue, Threads.only_nil⟩)
  | none =>
    rw [hear] at hdue
    exact (Threads.only_unlock _).2 ((Threads.only_act _).2 ⟨hdue, Threads.only_nil⟩)

/-- What the worker has just set out to do relies on what it has just read. -/
theorem Performs.due (h : Performs max t w a w' code) {roused roused' : Nat → Prop}
    (hkeep : ∀ g, ((w.service g).wake = true → (w'.service g).wake = true) → roused g → roused' g)
    (ha : Due w roused a) : Threads.Only (Due w' roused') code := by
  have hdropAll : ∀ cs, Threads.Only (Due w' roused') (dropAll cs) :=
    only_acts .dropCallback fun _ => trivial
  have hdropHandles : ∀ callback, Threads.Only (Due w' roused') (dropHandles callback) :=
    fun callback => only_acts .dropHandle (fun _ => trivial) callback.captures
  cases h with
  | @application _ _ i => cases i with
    | request q => cases q <;> simp [intend, api, withRegistry, Due]
    | idle | dropHandle | dropCallback => simp [intend, Due]
  | @callbackCalls _ _ _ _ _ i => cases i with
    | request q => cases q <;> simp [intend, api, withRegistry, Due]
    | idle | dropHandle | dropCallback => simp [intend, Due]
  | @turnDown _ _ q => cases q <;> simp [FreeRtosBackend.turnDown, Due]
  | @serve _ _ g q reserved now =>
    refine Threads.only_append.2 ⟨?_, ?_⟩
    · cases (w.service g).state.succeeds now reserved q && wakes q <;> simp [signal, Due]
    · cases ((w.service g).state.serve now reserved q).1 with
      | removed callback => cases q <;> cases callback <;> simp [finish, part, Due]
      | done | registered | refused => simp [finish, Due]
  | @select _ _ g now selection r hnow hsel =>
    cases selection with
    | dispatch | rescan => simp [dispatch, Due]
    | none =>
      obtain rfl := select_none hsel
      have hself := Function.update_self g
        { w.service g with hand := handOf (w.service g).hand .none } w.service
      refine due_waits rfl rfl (hkeep g fun hwake => ?_) ha
      rw [show Backend.service _ g = _ from hself]
      exact hwake
  | @restore _ _ g id callback =>
    cases ((w.service g).state.restore id callback).1 <;> simp [giveUp, Due]
  | @waitOn _ _ g deadline =>
    have hdue : roused g ∨ Timely (some deadline) (w.service g).state := ha
    exact (Threads.only_act _).2 ⟨hdue.imp_left (hkeep g id), Threads.only_nil⟩
  | @takeTimeout _ _ g deadline =>
    have hdue : roused g ∨ Timely deadline (w.service g).state := ha
    cases deadline with
    | none => exact (Threads.only_act _).2 ⟨hdue.imp_left (hkeep g id), Threads.only_nil⟩
    | some d => exact (Threads.only_act _).2 ⟨hdue.imp_left (hkeep g id), Threads.only_nil⟩
  | dropCallback => exact hdropHandles _
  | dropRemoved => exact Threads.only_append.2 ⟨hdropHandles _, by simp [Due]⟩
  | dropRetired => exact Threads.only_append.2 ⟨hdropHandles _, by simp [Due]⟩
  | destroy => exact hdropAll _
  | checkTimersBusy => exact Threads.only_append.2 ⟨hdropAll _, by simp [Due]⟩
  | checkTimers => exact Threads.only_append.2 ⟨hdropAll _, by simp [Due]⟩
  | @scan _ _ g hstop =>
    refine Threads.only_append.2 ⟨hdropAll _, (Threads.only_act _).2 ⟨.inr ?_, Threads.only_nil⟩⟩
    rw [show Backend.service _ g = _ from
      Function.update_self g { w.service g with state := (w.service g).state.retain.2 } w.service]
    exact hstop
  | scanStop => exact Threads.only_append.2 ⟨hdropAll _, by simp [Due]⟩
  | _ => simp [withRegistry, Due]

end Effects

/-! ### Runs -/

/-- The wake token of service `g` is there, or somebody is about to give it. -/
def Roused (s : State) (g : Nat) : Prop :=
  (s.shared.service g).wake = true ∨ ∃ u rest, s.code u = .act (.signalWake g) :: rest

/-- Everything that workers have set out to do is due. -/
def Watchful (s : State) : Prop := ∀ u, Threads.Only (Due s.shared (Roused s)) (s.code u)

def Action.watches : Action → Option Nat
  | .select g | .waitUntil g _ | .take g _ => some g
  | _ => none

section Runs

variable {g : Nat}

private theorem loop_of_watches {b : Action} (h : b.watches = some g) :
    Token.loop g .idle ∈ cargo b := by
  cases b with
  | select | waitUntil | take =>
    cases h
    exact Multiset.mem_singleton_self _
  | _ => cases h

private theorem Due.keep {R R' : Nat → Prop} {b : Action} (h : Due w R b)
    (hk : ∀ g, b.watches = some g →
      R' g ∨ (R g → R' g) ∧ Calm (w.service g).state (w'.service g).state) : Due w' R' b := by
  cases b with
  | select g =>
    rcases hk g rfl with hr | ⟨hr, hc⟩
    · exact .inl hr
    · exact h.imp hr hc.stop.trans
  | waitUntil g d =>
    rcases hk g rfl with hr | ⟨hr, hc⟩
    · exact .inl hr
    · exact h.imp hr hc.timely
  | take g d =>
    rcases hk g rfl with hr | ⟨hr, hc⟩
    · exact .inl hr
    · exact h.imp hr hc.timely
  | _ => trivial

private theorem Roused.keep {i : Instr Lock Action} {new : Code} (h : Roused s g)
    (hst : s.code t = i :: rest) (hcode : s'.code = Function.update s.code t new)
    (hwake : (s.shared.service g).wake = true → (s'.shared.service g).wake = true)
    (hsignal : i = .act (.signalWake g) → (s'.shared.service g).wake = true) : Roused s' g := by
  rcases h with h | ⟨u, tail, hu⟩
  · exact .inl (hwake h)
  · by_cases hut : u = t
    · subst hut
      rw [hst] at hu
      exact .inl (hsignal (List.cons.inj hu).1)
    · refine .inr ⟨u, tail, ?_⟩
      rw [hcode, Function.update_of_ne hut]
      exact hu

/-- A service has one worker, which is in one place. -/
private theorem loop_once {M : Multiset Token} (hM : Threads.Estate cargo s.code M)
    (hinv : Inv s.shared.view M) (hst : s.code t = .act a :: rest) {x y : Activity}
    (hx : Token.loop g x ∈ cargo a) {u : Thread} {b : Action}
    (hb : .act b ∈ if u = t then rest else s.code u) (hy : Token.loop g y ∈ cargo b) : False := by
  have hlife := (hinv.sound g).life
  have hle := Bool.toNat_le (s.shared.view.services g).spawned
  have hone : ∀ {N : Multiset Token} {z : Activity}, Token.loop g z ∈ N →
      1 ≤ tally (Token.loops g) N := by
    intro N z hz
    have h1 : Token.loops g (.loop g z) ≤ tally (Token.loops g) N := le_tally hz
    rwa [Token.loops, if_pos rfl] at h1
  have htwo : ∀ {N : Multiset Token}, cargo a + N ≤ M → Token.loop g y ∈ N → False := by
    intro N hN hyN
    obtain ⟨R, rfl⟩ := Multiset.le_iff_exists_add.1 hN
    rw [tally_add, tally_add] at hlife
    have h1 := hone hx
    have h2 := hone hyN
    omega
  by_cases hut : u = t
  · rw [if_pos hut] at hb
    have hown := hM.owns_le t
    rw [hst, Threads.owns_act] at hown
    exact htwo hown (Threads.mem_owns.2 ⟨b, hb, hy⟩)
  · rw [if_neg hut] at hb
    have hown := hM.owns_add_le hut
    rw [hst, Threads.owns_act] at hown
    have hle' : cargo a + Threads.owns cargo (s.code u) ≤ M :=
      (Multiset.add_le_add_right (Multiset.le_add_right _ _)).trans hown
    exact htwo hle' (Threads.mem_owns.2 ⟨b, hb, hy⟩)

private theorem step_signal (h : Performs max t w a w' code) (ha : a = .signalWake g) :
    (w'.service g).wake = true := by
  subst ha
  cases h
  rw [show Backend.service _ g = _ from
    Function.update_self g { w.service g with wake := true } w.service]

private theorem watchful_frame (h : Watchful s) {i : Instr Lock Action}
    (hst : s.code t = i :: rest) (hi : ∀ a, i ≠ .act a) (hshared : s'.shared = s.shared)
    (hcode : s'.code = Function.update s.code t rest) : Watchful s' := by
  intro u b hb
  have hold : .act b ∈ s.code u := by
    rw [hcode] at hb
    by_cases hut : u = t
    · subst hut
      rw [Function.update_self] at hb
      rw [hst]
      exact List.mem_cons_of_mem _ hb
    · rwa [Function.update_of_ne hut] at hb
  refine (h u b hold).keep fun g _ => .inr ⟨fun hr => ?_, by rw [hshared]; exact .refl _⟩
  exact hr.keep hst hcode (by rw [hshared]; exact id) fun he => absurd he (hi _)

private theorem watchful_act (hr : (system max).Reachable s) (h : Watchful s)
    (hst : s.code t = .act a :: rest) (hex : Performs max t s.shared a w' code) :
    Watchful (s.perform t w' (code ++ rest)) := by
  obtain ⟨M, hM, hinv, -⟩ := inv_of_reachable hr
  have hd : ∀ g, (s.shared.service g).state.Distinct := fun g => (hinv.sound g).wf.distinct
  have hroused : ∀ g, ((s.shared.service g).wake = true → (w'.service g).wake = true) →
      Roused s g → Roused (s.perform t w' (code ++ rest)) g :=
    fun g hw hr => hr.keep hst rfl hw fun he => step_signal hex (Instr.act.inj he)
  have hold : ∀ u b, .act b ∈ (if u = t then rest else s.code u) → Due s.shared (Roused s) b →
      Due w' (Roused (s.perform t w' (code ++ rest))) b := by
    intro u b hb hdue
    refine hdue.keep fun g hg => ?_
    rcases hex.effect hd g with ⟨tail, rfl⟩ | ⟨x, hx⟩ | ⟨hwake, hcalm⟩
    · exact .inl (.inr ⟨t, tail ++ rest, Function.update_self _ _ _⟩)
    · exact (loop_once hM hinv hst hx hb (loop_of_watches hg)).elim
    · exact .inr ⟨hroused g hwake, hcalm⟩
  intro u b hb
  by_cases hut : u = t
  · subst hut
    rw [show (s.perform u w' (code ++ rest)).code u = code ++ rest from
      Function.update_self _ _ _] at hb
    rcases List.mem_append.1 hb with hb | hb
    · exact hex.due hroused (h u a (hst ▸ List.mem_cons_self)) b hb
    · exact hold u b (by rwa [if_pos rfl]) (h u b (hst ▸ List.mem_cons_of_mem _ hb))
  · rw [show (s.perform t w' (code ++ rest)).code u = s.code u from
      Function.update_of_ne hut _ _] at hb
    exact hold u b (by rwa [if_neg hut]) (h u b hb)

theorem watchful_of_reachable (hr : (system max).Reachable s) : Watchful s := by
  obtain ⟨tr, s₀, h0, hs⟩ := hr
  refine hs.invariant ⟨[], s₀, h0, .refl _⟩ (I := fun _ s => Watchful s) ?_
    fun tr s l s' hr h hstep => ?_
  · obtain ⟨now, rfl⟩ := h0
    intro u
    cases u <;> simp [start, Due]
  · cases hstep with
    | lock hst hfree => exact watchful_frame h hst (fun _ => nofun) rfl rfl
    | unlock hst => exact watchful_frame h hst (fun _ => nofun) rfl rfl
    | act hst hex => exact watchful_act hr h hst hex

end Runs

def Waits (s : State) (t : Thread) (g : Nat) (deadline : Option Duration) : Prop :=
  (∃ rest, s.code t = .act (.take g deadline) :: rest) ∨
    ∃ d rest, deadline = some d ∧ s.code t = .act (.waitUntil g d) :: rest

/-- Whenever the worker is about to wait or waits, nobody is inside the registry mutex and there
is no token in the wake semaphore, it waits for the right thing: no stop is requested, every
timer has its callback, and no timer is due before the deadline of the wait. -/
theorem worker_never_oversleeps (hr : (system max).Reachable s) {g : Nat}
    {deadline : Option Duration} (hw : Waits s t g deadline)
    (hfree : s.holder (.registry g) = none) (hwake : (s.shared.service g).wake = false) :
    (s.shared.service g).state.stopRequested = false ∧
      (∀ e ∈ (s.shared.service g).state.timers, e.deleted = false → e.callback ≠ none) ∧
      ∀ id x, (s.shared.service g).state.Runs id x → ∃ d, deadline = some d ∧ d ≤ x := by
  have hnot : ¬ Roused s g := by
    rintro (hw' | ⟨u, rest, hu⟩)
    · cases hwake.symm.trans hw'
    · cases hfree.symm.trans (holder_of_signal hr hu)
  obtain ⟨b, hb, hg, htimely⟩ : ∃ b, .act b ∈ s.code t ∧ b.watches = some g ∧
      Timely deadline (s.shared.service g).state := by
    have hdue := watchful_of_reachable hr t
    rcases hw with ⟨rest, hst⟩ | ⟨d, rest, rfl, hst⟩
    · have hmem : .act (.take g deadline) ∈ s.code t := hst ▸ List.mem_cons_self
      exact ⟨_, hmem, rfl, (hdue _ hmem).resolve_left hnot⟩
    · have hmem : .act (.waitUntil g d) ∈ s.code t := hst ▸ List.mem_cons_self
      exact ⟨_, hmem, rfl, (hdue _ hmem).resolve_left hnot⟩
  obtain ⟨M, hM, hinv, -⟩ := inv_of_reachable hr
  have hidle : (s.shared.service g).hand = .idle :=
    hinv.activity g .idle (hM.mem_of_act hb (loop_of_watches hg))
  refine ⟨htimely.1, fun e he hd hnone => ?_, htimely.2⟩
  have hout := ((hinv.sound g).wf.resting e he hd).1 hnone
  rw [show (s.shared.view.services g).hand = .idle from hidle] at hout
  cases hout

/-- Two timers have been started; the worker has used up the token that their signals left, and
waits. -/
theorem worker_never_oversleeps_twoTimers :
    ∃ s, (system 2).Reachable s ∧ Waits s (.worker 0) 0 (some nanosecond) ∧
      s.holder (.registry 0) = none ∧ (s.shared.service 0).wake = false ∧
      ∀ id x, (s.shared.service 0).state.Runs id x → nanosecond ≤ x := by
  obtain ⟨tr, h, -⟩ := run_twoTimers
  have h := h.snoc (.act (t := .worker 0) rfl (.worker rfl))
  have h := h.snoc (.act (t := .worker 0) rfl .run)
  have h := h.snoc (.lock (t := .worker 0) rfl rfl)
  have h := h.snoc (.act (t := .worker 0) rfl (.scan rfl))
  have h := h.snoc (.act (t := .worker 0) rfl (.select (Nat.le_refl _) rfl))
  have h := h.snoc (.unlock (t := .worker 0) rfl)
  have h := h.snoc (.act (t := .worker 0) rfl (.waitOn (Nat.le_refl _) (by decide) rfl))
  have h := h.snoc (.act (t := .worker 0) rfl (.take rfl))
  have h := h.snoc (.act (t := .worker 0) rfl .run)
  have h := h.snoc (.lock (t := .worker 0) rfl rfl)
  have h := h.snoc (.act (t := .worker 0) rfl (.scan rfl))
  have h := h.snoc (.act (t := .worker 0) rfl (.select (Nat.le_refl _) rfl))
  have h := h.snoc (.unlock (t := .worker 0) rfl)
  refine ⟨_, h.reachable, .inr ⟨nanosecond, _, rfl, rfl⟩, rfl, rfl, fun id x hx => ?_⟩
  obtain ⟨d, hd, hle⟩ := (worker_never_oversleeps (t := .worker 0) h.reachable
    (.inr ⟨nanosecond, _, rfl, rfl⟩) rfl rfl).2.2 id x hx
  exact Option.some.inj hd ▸ hle

end OsalRust.FreeRtosBackend
