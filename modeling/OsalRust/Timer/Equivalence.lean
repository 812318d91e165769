import OsalRust.Mock.Dispatch
import OsalRust.Timer.Starting

/-!
# The three timer backends dispatch alike

An application that creates, controls and drops timers and moves the clock sees the same timers
fire in the same order on every backend. The mock keeps its entries in a vector that `swap_remove`
reorders, and selects by creation order; the services keep removed entries until their worker
purges them, and select by identifier. What they have in common is which timers are alive in which
states, and that is all the selection depends on.
-/

namespace OsalRust

open OsalRust.Timer OsalRust.Mock OsalRust.Timer.Registry

/-! ## The workers -/

/-- A selection, the callback and its return. The callback touches neither timers nor the clock. -/
def Timer.Registry.fire (r : Registry) (now : Duration) : Checked (Option Nat × Registry) :=
  match r.select now with
  | .error fault => .error fault
  | .ok (.dispatch id callback, taken) => .ok (some id, (taken.restore id callback).2)
  | .ok (.none, r') => .ok (none, r')
  | .ok (.rescan, r') => .ok (none, r')

/-- The identifiers that a worker fires until it waits or stops, and what it leaves of the
registry, with the clock held at an instant. -/
abbrev Worker := Duration → Nat → Registry → Option (Checked (List Nat × Registry))

def Worker.cons (fired : Option Nat) (rest : Checked (List Nat × Registry)) :
    Checked (List Nat × Registry) :=
  rest.map fun run => (fired.toList ++ run.1, run.2)

def PosixTimerService.run : Worker
  | _, 0, _ => none
  | now, fuel + 1, r =>
    if r.stopRequested then some (.ok ([], r))
    else
      match r.retain.2.earliest with
      | none => some (.ok ([], r.retain.2))
      | some deadline =>
        if deadline ≤ now then
          match r.retain.2.fire now with
          | .error fault => some (.error fault)
          | .ok (fired, r') => (run now fuel r').map (Worker.cons fired)
        else some (.ok ([], r.retain.2))

/-- `TimerService::run` of the FreeRTOS backend. A selection without a callback to run is a
rescan, or there is nothing to do but wait. -/
def FreeRtosTimerService.run : Worker
  | _, 0, _ => none
  | now, fuel + 1, r =>
    if r.retain.2.stopRequested then some (.ok ([], r.retain.2))
    else
      match r.retain.2.select now with
      | .error fault => some (.error fault)
      | .ok (.dispatch id callback, taken) =>
        (run now fuel (taken.restore id callback).2).map (Worker.cons (some id))
      | .ok (.rescan, r') => run now fuel r'
      | .ok (.none, r') => some (.ok ([], r'))

/-! ## Applications -/

/-- The calls of an application. A timer is named by its place in the order of creation; its last
handle is the only one. -/
inductive TimerCall where
  | new (period : Duration) (mode : TimerMode)
  | start (timer : Nat)
  | stop (timer : Nat)
  | reset (timer : Nat)
  | changePeriod (timer : Nat) (newPeriod : Duration)
  | drop (timer : Nat)

inductive TimerEvent where
  | call (c : TimerCall)
  | advance (instant : Duration)

def TimerCall.creates : TimerCall → Nat
  | .new _ _ => 1
  | _ => 0

def creations : List TimerEvent → Nat
  | [] => 0
  | .call c :: events => c.creates + creations events
  | .advance _ :: events => creations events

def TimerCall.op : TimerCall → MockTimer.Op
  | .new period mode => .new period mode ⟨[]⟩
  | .start timer => .start timer
  | .stop timer => .stop timer
  | .reset timer => .reset timer
  | .changePeriod timer newPeriod => .changePeriod timer newPeriod
  | .drop timer => .drop timer

def quiet : MockTimer.Callbacks := fun _ _ _ callback => ([], callback)

/-- An application on the mock: the creation orders of the timers that fire, and the state at the
end. -/
def MockTimer.Clock.play (fuel : Nat) :
    List TimerEvent → Clock → Option (Checked (List Nat × Clock))
  | [], w => some (.ok ([], w))
  | .call c :: events, w =>
    match w.perform c.op with
    | .error fault => some (.error fault)
    | .ok w' => play fuel events w'
  | .advance instant :: events, w =>
    match advanceAndDispatch quiet (instant.saturatingSub w.rt.now) fuel w with
    | none => none
    | some run =>
      match run.halt with
      | .deadlocked => none
      | .panicked fault => some (.error fault)
      | .returned =>
        (play fuel events run.last).map fun rest => rest.map fun found =>
          (run.rounds.filterMap (fun r => r.fired.map (·.2)) ++ found.1, found.2)

def movedTo (now instant : Duration) : Duration := if now ≤ instant then instant else now

/-- The timers of a service, as an application has them: the registry, the identifiers in the
handles, how many handles there have been, and the clock. -/
structure ServiceTimers where
  registry : Registry
  id : Nat → Nat
  made : Nat
  now : Duration

namespace ServiceTimers

def init : ServiceTimers where
  registry := Registry.new
  id := fun _ => 0
  made := 0
  now := Duration.zero

/-- The calls, with room in the registry. `new` and `change_period` refuse a zero period before
they go to the service. -/
def perform (s : ServiceTimers) : TimerCall → ServiceTimers
  | .new period mode =>
    if period = Duration.zero then s
    else
      match s.registry.register period mode ⟨[]⟩ true with
      | (.error _, registry) => { s with registry }
      | (.ok id, registry) =>
        { s with registry, id := Function.update s.id s.made id, made := s.made + 1 }
  | .start timer => { s with registry := (s.registry.start (s.id timer) s.now).2 }
  | .stop timer => { s with registry := (s.registry.stop (s.id timer)).2 }
  | .reset timer => { s with registry := (s.registry.reset (s.id timer) s.now).2 }
  | .changePeriod timer newPeriod =>
    if newPeriod = Duration.zero then s
    else { s with registry := (s.registry.changePeriod (s.id timer) newPeriod).2 }
  | .drop timer => { s with registry := (s.registry.deregister (s.id timer)).2 }

/-- An application on a service: the identifiers of the timers that fire, and the state at the
end. The worker runs until it waits after every advance. -/
def play (worker : Worker) (fuel : Nat) :
    List TimerEvent → ServiceTimers → Option (Checked (List Nat × ServiceTimers))
  | [], s => some (.ok ([], s))
  | .call c :: events, s => play worker fuel events (s.perform c)
  | .advance instant :: events, s =>
    match worker (movedTo s.now instant) fuel s.registry with
    | none => none
    | some (.error fault) => some (.error fault)
    | some (.ok (fired, registry)) =>
      (play worker fuel events { s with registry, now := movedTo s.now instant }).map fun rest =>
        rest.map fun found => (fired ++ found.1, found.2)

end ServiceTimers

/-! ## Waiting for the earliest deadline -/

private def earlier (acc : Option Duration) (e : TimerEntry) : Option Duration :=
  match e.state.deadline, acc with
  | none, _ => acc
  | some d, none => some d
  | some d, some cur => if d < cur then some d else acc

private theorem foldl_earlier (timers : List TimerEntry) (acc : Option Duration) :
    (∀ d, (acc = some d ∨ ∃ e ∈ timers, e.state.deadline = some d) →
      ∃ least, timers.foldl earlier acc = some least ∧ least ≤ d) ∧
    ∀ d, timers.foldl earlier acc = some d → acc = some d ∨ ∃ e ∈ timers, e.state.deadline = some d := by
  induction timers generalizing acc with
  | nil =>
    refine ⟨?_, fun d hd => .inl hd⟩
    rintro d (hd | ⟨e, he, -⟩)
    · exact ⟨d, hd, Nat.le_refl _⟩
    · cases he
  | cons e timers ih =>
    rw [List.foldl_cons]
    obtain ⟨hle, hmem⟩ := ih (earlier acc e)
    have hstep : (∀ d, (acc = some d ∨ e.state.deadline = some d) →
        ∃ least, earlier acc e = some least ∧ least ≤ d) ∧
        ∀ d, earlier acc e = some d → acc = some d ∨ e.state.deadline = some d := by
      unfold earlier
      cases hd : e.state.deadline with
      | none =>
        refine ⟨fun d h => ?_, fun d h => .inl h⟩
        rcases h with h | h
        · exact ⟨d, h, Nat.le_refl _⟩
        · cases h
      | some d₁ =>
        cases acc with
        | none =>
          refine ⟨fun d h => ?_, fun d h => .inr h⟩
          rcases h with h | h
          · cases h
          · exact ⟨d, h, Nat.le_refl _⟩
        | some cur =>
          dsimp only
          by_cases hlt : d₁ < cur
          · rw [if_pos hlt]
            refine ⟨fun d h => ⟨d₁, rfl, ?_⟩, fun d h => .inr h⟩
            rcases h with h | h
            · obtain rfl := Option.some.inj h
              exact Nat.le_of_lt hlt
            · obtain rfl := Option.some.inj h
              exact Nat.le_refl _
          · rw [if_neg hlt]
            refine ⟨fun d h => ⟨cur, rfl, ?_⟩, fun d h => .inl h⟩
            rcases h with h | h
            · obtain rfl := Option.some.inj h
              exact Nat.le_refl _
            · obtain rfl := Option.some.inj h
              exact Nat.le_of_not_lt hlt
    refine ⟨fun d h => ?_, fun d hd => ?_⟩
    · have hcases : (acc = some d ∨ e.state.deadline = some d) ∨
          ∃ e ∈ timers, e.state.deadline = some d := by
        rcases h with h | ⟨e', he', h⟩
        · exact .inl (.inl h)
        · rcases List.mem_cons.1 he' with rfl | he'
          · exact .inl (.inr h)
          · exact .inr ⟨e', he', h⟩
      rcases hcases with h | h
      · obtain ⟨least, hleast, hle'⟩ := hstep.1 d h
        obtain ⟨least', hleast', hle''⟩ := hle least (.inl hleast)
        exact ⟨least', hleast', Nat.le_trans hle'' hle'⟩
      · exact hle d (.inr h)
    · rcases hmem d hd with h | ⟨e', he', h⟩
      · rcases hstep.2 d h with h | h
        · exact .inl h
        · exact .inr ⟨e, List.mem_cons_self, h⟩
      · exact .inr ⟨e', List.mem_cons_of_mem _ he', h⟩

theorem Timer.Registry.earliest_spec (r : Registry) :
    (∀ e ∈ r.timers, ∀ d, e.state.deadline = some d →
      ∃ least, r.earliest = some least ∧ least ≤ d) ∧
    ∀ d, r.earliest = some d → ∃ e ∈ r.timers, e.state.deadline = some d := by
  obtain ⟨hle, hmem⟩ := foldl_earlier r.timers none
  refine ⟨fun e he d hd => hle d (.inr ⟨e, he, hd⟩), fun d hd => ?_⟩
  rcases hmem d hd with h | h
  · cases h
  · exact h

/-! ## Selections agree -/

/-- The same timers are alive, in the same states. The service counts from one. -/
def SameTimers (rt : MockTimeRuntime) (r : Registry) : Prop :=
  ∀ i s, rt.HasState i s ↔ r.HasState (i + 1) s

variable {rt : MockTimeRuntime} {r r' : Registry} {z : Nat} {state : TimerState}

theorem SameTimers.mock (h : SameTimers rt r) (hr : r.Wf none) (hs : r.HasState z state) :
    ∃ i, z = i + 1 ∧ rt.HasState i state := by
  obtain ⟨e, he, hl, rfl⟩ := hs
  have hz : z = (z - 1) + 1 := by
    have hpos := (hr.bounded e he).1
    rw [(TimerEntry.live_iff.1 hl).1] at hpos
    omega
  exact ⟨z - 1, hz, (h _ _).2 ⟨e, he, hz ▸ hl, rfl⟩⟩

theorem hasState_fired {e : TimerEntry} {now : Duration} {callback : Callback} (hr : r.Wf none)
    (he : e ∈ r.timers) :
    ((r.adjust e.id (Registry.takenOut now)).restore e.id callback).2.HasState z state ↔
      ∃ s, r.HasState z s ∧ (if z = e.id then (s.advanceOnExpiry now).2 else s) = state := by
  rw [(hr.takenOut he).hasState_restore, hasState_adjust (f := Registry.takenOut now) fun _ => rfl]
  constructor
  · rintro (⟨hne, hs⟩ | ⟨rfl, e', he', hl, -, rfl⟩)
    · exact ⟨state, hs, if_neg hne⟩
    · exact ⟨e'.state, ⟨e', he', hl, rfl⟩, if_pos rfl⟩
  · rintro ⟨s, hs, rfl⟩
    by_cases hz : z = e.id
    · obtain ⟨e', he', hl, rfl⟩ := hs
      refine .inr ⟨hz, e', he', hz ▸ hl, (TimerEntry.live_iff.1 hl).2, ?_⟩
      rw [if_pos hz]
      rfl
    · rw [if_neg hz]
      exact .inl ⟨hz, hs⟩

/-- Both registries select nothing, or the same timer; afterwards the same timers are alive in the
same states. -/
theorem select_agrees (hrt : rt.Wf none) (hr : r.Wf none) (hsame : SameTimers rt r) :
    (rt.takeNextExpired = .ok (none, rt) ∧ r.select rt.now = .ok (.none, r) ∧
      ∀ z s d, r.HasState z s → s.deadline = some d → rt.now < d) ∨
    ∃ e ∈ rt.timers, ∃ cb d cb' taken, e.state.deadline = some d ∧ d ≤ rt.now ∧
      rt.takeNextExpired =
        .ok (some (e.key, cb), rt.adjust e.key (MockTimeRuntime.takenOut rt.now)) ∧
      (∀ o s d', rt.HasState o s → s.deadline = some d' → ¬ KeyLt d' o d e.creationOrder) ∧
      r.select rt.now = .ok (.dispatch (e.creationOrder + 1) cb', taken) ∧
      (taken.restore (e.creationOrder + 1) cb').2.Wf none ∧
      (taken.restore (e.creationOrder + 1) cb').2.nextId = r.nextId ∧
      (taken.restore (e.creationOrder + 1) cb').2.stopRequested = r.stopRequested ∧
      SameTimers (rt.adjust e.key (MockTimeRuntime.takenOut rt.now))
        (taken.restore (e.creationOrder + 1) cb').2 := by
  obtain ⟨selection, r', hsel⟩ := r.select_ok rt.now
  rcases hr.select_cases hsel with ⟨rfl, rfl, hquiet⟩ |
    ⟨e', he', cb', d', hd', -, hdl', hle', rfl, rfl, hleast'⟩
  · have hnone : ∀ z s d, r'.HasState z s → s.deadline = some d → rt.now < d := by
      rintro z s d ⟨e, he, hl, rfl⟩ hd
      exact hquiet e he (TimerEntry.live_iff.1 hl).2 d hd
    rcases hrt.takeNextExpired_cases with ⟨htake, -⟩ | ⟨e, he, cb, d, -, hd, hle, -, -⟩
    · exact .inl ⟨htake, hsel, hnone⟩
    · have hlt := hnone _ _ d ((hsame _ _).1 ⟨e, he, rfl, rfl⟩) hd
      exact absurd hle (Nat.not_le.2 hlt)
  · obtain ⟨i, hi, hs'⟩ := hsame.mock hr (hasState_of_mem he' hd')
    rcases hrt.takeNextExpired_cases with ⟨-, hquiet⟩ | ⟨e, he, cb, d, -, hd, hle, htake, hleast⟩
    · exact absurd hle' (Nat.not_le.2 (hquiet i _ d' hs' hdl'))
    · -- neither of the two selected timers comes before the other
      have horder : e'.id = e.creationOrder + 1 := by
        obtain ⟨e₁, he₁, hl₁, hs₁⟩ := (hsame _ _).1 ⟨e, he, rfl, rfl⟩
        have hmock := hleast i _ d' hs' hdl'
        have hservice := hleast' e₁ he₁ (TimerEntry.live_iff.1 hl₁).2 d (hs₁ ▸ hd)
        rw [(TimerEntry.live_iff.1 hl₁).1] at hservice
        unfold KeyLt at hmock hservice
        omega
      refine .inr ⟨e, he, cb, d, cb', _, hd, hle, htake, hleast, horder ▸ hsel, ?_, ?_, ?_, ?_⟩
      all_goals rw [← horder]
      · exact (hr.takenOut he').restore
      · rw [restore_snd (hr.takenOut he').distinct]
        rfl
      · rw [restore_snd (hr.takenOut he').distinct]
        rfl
      · intro o s
        rw [hrt.hasState_takenOut he, hasState_fired hr he', horder]
        simp only [Nat.succ.injEq, hsame o]

/-! ## Draining -/

/-- What the loops of the two workers have in common, with no callback out and the worker not asked
to stop. -/
structure Drains (worker : Worker) : Prop where
  idle : ∀ {now : Duration} {fuel : Nat} {r : Registry}, r.Wf none → r.stopRequested = false →
    r.retain.2.select now = .ok (.none, r.retain.2) →
    (∀ z s d, r.retain.2.HasState z s → s.deadline = some d → now < d) →
    worker now (fuel + 1) r = some (.ok ([], r.retain.2))
  fires : ∀ {now : Duration} {fuel id : Nat} {callback : Callback} {r taken : Registry},
    r.Wf none → r.stopRequested = false →
    r.retain.2.select now = .ok (.dispatch id callback, taken) →
    worker now (fuel + 1) r =
      (worker now fuel (taken.restore id callback).2).map (Worker.cons (some id))

theorem FreeRtosTimerService.run_drains : Drains FreeRtosTimerService.run where
  idle := by
    intro now fuel r _ hstop hsel _
    rw [run, if_neg (by rw [show r.retain.2.stopRequested = r.stopRequested from rfl, hstop]; nofun),
      hsel]
  fires := by
    intro now fuel id callback r taken _ hstop hsel
    rw [run, if_neg (by rw [show r.retain.2.stopRequested = r.stopRequested from rfl, hstop]; nofun),
      hsel]

theorem PosixTimerService.run_drains : Drains PosixTimerService.run where
  idle := by
    intro now fuel r hr hstop _ hquiet
    rw [run, if_neg (by rw [hstop]; nofun)]
    cases hear : r.retain.2.earliest with
    | none => rfl
    | some deadline =>
      obtain ⟨e, he, hd⟩ := r.retain.2.earliest_spec.2 deadline hear
      have hlive : e.deleted = false := by
        simpa using (List.mem_filter.1 he).2
      have hlt := hquiet _ _ _ (hasState_of_mem he hlive) hd
      exact if_neg (Nat.not_le.2 hlt)
  fires := by
    intro now fuel id callback r taken hr hstop hsel
    rw [run, if_neg (by rw [hstop]; nofun)]
    rcases hr.retain.select_cases hsel with ⟨hnone, -⟩ | ⟨e, he, cb, d, -, -, hd, hle, -⟩
    · cases hnone
    · obtain ⟨least, hear, hleast⟩ := r.retain.2.earliest_spec.1 e he d hd
      have hdue : least ≤ now := Nat.le_trans hleast hle
      rw [hear]
      dsimp only
      rw [if_pos hdue, Registry.fire, hsel]

theorem restoreCallback_takenOut (hrt : rt.Wf none) {e : MockTimerEntry} (he : e ∈ rt.timers)
    (callback : Callback) :
    ((rt.adjust e.key (MockTimeRuntime.takenOut rt.now)).restoreCallback e.key callback).1 =
      none := by
  refine (MockTimeRuntime.restoreCallback_fst _ _ _).1.2 ?_
  have hlive := MockTimerEntry.live_iff.2 ⟨rfl, hrt.present e he⟩
  have hmem : MockTimeRuntime.takenOut rt.now e ∈
      (rt.adjust e.key (MockTimeRuntime.takenOut rt.now)).timers :=
    List.mem_map.2 ⟨e, he, if_pos hlive⟩
  have hfind : List.find? (MockTimerEntry.live (MockTimeRuntime.takenOut rt.now e).key) _ = _ :=
    (hrt.takenOut e).find?_of_mem hmem
  exact ⟨_, hfind, rfl⟩

structure Paired (w : MockTimer.Clock) (r : Registry) : Prop where
  mock : w.rt.Wf none
  service : r.Wf none
  running : r.stopRequested = false
  next : r.nextId = w.rt.nextId
  same : SameTimers w.rt r

theorem Paired.retain {w : MockTimer.Clock} (h : Paired w r) : Paired w r.retain.2 :=
  ⟨h.mock, h.service.retain, h.running, h.next, fun i s => (h.same i s).trans hasState_retain.symm⟩

structure Kept (w w' : MockTimer.Clock) : Prop where
  handles : w'.handles = w.handles
  key : w'.key = w.key
  made : w'.made = w.made
  now : w'.rt.now = w.rt.now
  epoch : w'.rt.epoch = w.rt.epoch
  order : w'.rt.nextCreationOrder = w.rt.nextCreationOrder
  alive : ∀ i, (∃ s, w'.rt.HasState i s) ↔ ∃ s, w.rt.HasState i s

theorem Kept.trans {w₁ w₂ w₃ : MockTimer.Clock} (h : Kept w₁ w₂) (h' : Kept w₂ w₃) : Kept w₁ w₃ :=
  ⟨h'.handles.trans h.handles, h'.key.trans h.key, h'.made.trans h.made, h'.now.trans h.now,
    h'.epoch.trans h.epoch, h'.order.trans h.order, fun i => (h'.alive i).trans (h.alive i)⟩

theorem kept_turn {w : MockTimer.Clock} (h : w.rt.Wf none) {e : MockTimerEntry}
    (he : e ∈ w.rt.timers) (callback : Callback) :
    Kept w { w with runtime := some ((w.rt.adjust e.key
      (MockTimeRuntime.takenOut w.rt.now)).restoreCallback e.key callback).2 } := by
  have hrest := (h.takenOut e).restoreCallback_snd e.key callback
  refine ⟨rfl, rfl, rfl, ?_, ?_, ?_, fun i => ?_⟩
  · exact congrArg (·.now) hrest
  · exact congrArg (·.epoch) hrest
  · exact congrArg (·.nextCreationOrder) hrest
  · constructor
    · rintro ⟨s, hs⟩
      obtain ⟨s', hs', -⟩ :=
        (h.hasState_takenOut he).1 (((h.takenOut e).hasState_restoreCallback _ _).1 hs)
      exact ⟨s', hs'⟩
    · rintro ⟨s, hs⟩
      exact ⟨_, ((h.takenOut e).hasState_restoreCallback _ _).2
        ((h.hasState_takenOut he).2 ⟨s, hs, rfl⟩)⟩

/-- After an advance the mock and a worker fire the same timers, one after the other. -/
theorem drain_agrees {worker : Worker} (hworker : Drains worker) {w : MockTimer.Clock}
    (h : Paired w r) (n : Nat) :
    ∃ (run : MockTimer.Run) (fired : List Nat) (r' : Registry),
      (∀ fuel, w.rt.dueOrders.card < fuel → MockTimer.dispatch quiet fuel n w = some run ∧
        worker w.rt.now fuel r = some (.ok (fired.map (· + 1), r'))) ∧
      run.halt = .returned ∧ run.rounds.filterMap (fun r => r.fired.map (·.2)) = fired ∧
      Paired run.last r' ∧ Kept w run.last := by
  induction hm : w.rt.dueOrders.card using Nat.strong_induction_on generalizing w r n with
  | _ m ih =>
  subst hm
  rcases select_agrees h.mock h.retain.service h.retain.same with ⟨htake, hsel, hquiet⟩ |
    ⟨e, he, cb, d, cb', taken, hd, hle, htake, hleast, hsel, hwf, hnext, hstop, hsame⟩
  · refine ⟨⟨.returned, [], w⟩, [], r.retain.2, fun fuel hfuel => ?_, rfl, rfl, h.retain,
      ⟨rfl, rfl, rfl, rfl, rfl, rfl, fun _ => Iff.rfl⟩⟩
    obtain ⟨fuel, rfl⟩ := Nat.exists_eq_add_of_lt hfuel
    refine ⟨?_, hworker.idle h.service h.running hsel hquiet⟩
    rw [MockTimer.dispatch, htake]
  have hturn := kept_turn h.mock he cb
  obtain ⟨hmock, -, hcard⟩ :=
    MockTimer.calms_restored h.mock he hd hle hleast (h.mock.takenOut e).calms cb
  have hrest := (h.mock.takenOut e).restoreCallback_snd e.key cb
  have hpaired : Paired { w with runtime := some ((w.rt.adjust e.key
      (MockTimeRuntime.takenOut w.rt.now)).restoreCallback e.key cb).2 }
      (taken.restore (e.creationOrder + 1) cb').2 := by
    refine ⟨hmock, hwf, hstop.trans h.running, ?_, fun i s => ?_⟩
    · exact (hnext.trans h.next).trans (congrArg (·.nextId) hrest).symm
    · exact ((h.mock.takenOut e).hasState_restoreCallback _ _).trans (hsame i s)
  obtain ⟨run, fired, r', hrun, hhalt, hfired, hpaired', hkept⟩ := ih _ hcard hpaired (n + 1) rfl
  refine ⟨run.cons ⟨w.rt, e.key, { w with runtime := some (w.rt.adjust e.key
    (MockTimeRuntime.takenOut w.rt.now)) }, cb⟩, e.creationOrder :: fired, r',
    fun fuel hfuel => ?_, hhalt, ?_, hpaired', hturn.trans hkept⟩
  · obtain ⟨fuel, rfl⟩ := Nat.exists_eq_add_of_lt hfuel
    obtain ⟨hrun₁, hrun₂⟩ := hrun (w.rt.dueOrders.card + fuel) (by omega)
    constructor
    · have hback : ((MockTimer.Clock.rt { w with runtime := some (w.rt.adjust e.key
          (MockTimeRuntime.takenOut w.rt.now)) }).restoreCallback e.key cb).1 = none :=
        restoreCallback_takenOut h.mock he cb
      rw [MockTimer.dispatch_turn htake rfl (show (quiet n _ e.key cb).2 = cb from rfl), hback]
      exact congrArg (Option.map _) hrun₁
    · rw [hworker.fires h.service h.running hsel, ← hturn.now]
      exact (congrArg (Option.map _) hrun₂).trans rfl
  · have hround : ∀ w', MockTimer.Round.fired ⟨w.rt, e.key, w', cb⟩ =
        some (d, e.creationOrder) := fun w' => by
      rw [MockTimer.Round.fired, h.mock.find?_of_mem he, Option.bind_some, hd]
      rfl
    rw [MockTimer.Run.cons, List.filterMap_cons, hround, hfired]
    rfl

/-! ## Calls -/

/-- An application on the mock and on a service, between two events. -/
structure Agree (w : MockTimer.Clock) (s : ServiceTimers) : Prop extends Paired w s.registry where
  now : s.now = w.rt.now
  epoch : w.rt.epoch = 1
  order : w.rt.nextCreationOrder = w.made
  made : s.made = w.made
  keys : ∀ i, w.key i = if i < w.made then ⟨1, i + 1⟩ else ⟨0, 0⟩
  ids : ∀ i, s.id i = if i < w.made then i + 1 else 0
  strong : ∀ i, w.handles.strong i = 1 ∧ (∃ state, w.rt.HasState i state) ∨
    w.handles.strong i = 0 ∧ ¬ ∃ state, w.rt.HasState i state

theorem agree_init : Agree MockTimer.start.shared ServiceTimers.init where
  mock := MockTimeRuntime.wf_new
  service := wf_new
  running := rfl
  next := rfl
  same _ _ := iff_of_false (fun ⟨_, he, _⟩ => by cases he) fun ⟨_, he, _⟩ => by cases he
  now := rfl
  epoch := rfl
  order := rfl
  made := rfl
  keys _ := rfl
  ids _ := rfl
  strong _ := .inr ⟨rfl, fun ⟨_, _, he, _⟩ => by cases he⟩

variable {w w' : MockTimer.Clock} {s : ServiceTimers}

theorem Agree.key_iff (h : Agree w s) (i o : Nat) :
    w.key i = ⟨w.rt.epoch, o + 1⟩ ↔ o + 1 = s.id i := by
  rw [h.keys, h.ids, h.epoch]
  split
  · rw [MockTimerKey.mk.injEq]
    omega
  · rw [MockTimerKey.mk.injEq]
    omega

theorem hasState_onState (id : Nat) (f : TimerState → TimerState) :
    (r.adjust id fun e => { e with state := f e.state }).HasState z state ↔
      ∃ st, r.HasState z st ∧ (if z = id then f st else st) = state := by
  rw [hasState_adjust (f := fun e => { e with state := f e.state }) fun _ => rfl]
  constructor
  · rintro (⟨hne, hs⟩ | ⟨rfl, e, he, hl, -, rfl⟩)
    · exact ⟨state, hs, if_neg hne⟩
    · exact ⟨e.state, ⟨e, he, hl, rfl⟩, if_pos rfl⟩
  · rintro ⟨st, hs, rfl⟩
    by_cases hz : z = id
    · obtain ⟨e, he, hl, rfl⟩ := hs
      rw [if_pos hz]
      exact .inr ⟨hz, e, he, hz ▸ hl, (TimerEntry.live_iff.1 hl).2, rfl⟩
    · rw [if_neg hz]
      exact .inl ⟨hz, hs⟩

theorem Agree.control (h : Agree w s) (i : Nat) (f : TimerState → TimerState) {registry : Registry}
    (hreg : registry = s.registry.adjust (s.id i) fun e => { e with state := f e.state }) :
    Agree (w.withRuntime (·.onLive (w.key i) f)) { s with registry } := by
  subst hreg
  have hfields := w.rt.onLive_now (w.key i) f
  have hadjust := h.mock.onLive_eq (w.key i) f
  have halive : ∀ o, (∃ state, (w.rt.onLive (w.key i) f).HasState o state) ↔
      ∃ state, w.rt.HasState o state := by
    intro o
    constructor
    · rintro ⟨state, hs⟩
      obtain ⟨st, hst, -⟩ := (h.mock.hasState_onLive _ f).1 hs
      exact ⟨st, hst⟩
    · rintro ⟨state, hs⟩
      exact ⟨_, (h.mock.hasState_onLive _ f).2 ⟨state, hs, rfl⟩⟩
  exact
    { mock := h.mock.onLive _ f
      service := h.service.onState f
      running := h.running
      next := h.next.trans (congrArg (·.nextId) hadjust).symm
      same := fun o state => by
        refine (h.mock.hasState_onLive _ f).trans ?_
        rw [hasState_onState]
        simp only [h.key_iff, h.same o]
      now := h.now.trans hfields.1.symm
      epoch := hfields.2.trans h.epoch
      order := (congrArg (·.nextCreationOrder) hadjust).trans h.order
      made := h.made
      keys := h.keys
      ids := h.ids
      strong := fun o => by
        have hstrong := h.strong o
        rwa [← halive o] at hstrong }

private theorem exists_mem_concat {α : Type} {P : α → Prop} {xs : List α} {x : α} :
    (∃ y ∈ xs ++ [x], P y) ↔ (∃ y ∈ xs, P y) ∨ P x := by
  simp only [List.mem_append, List.mem_singleton, or_and_right, exists_or, exists_eq_left]

theorem Agree.new (h : Agree w s) {period : Duration} (hp : period ≠ Duration.zero)
    (mode : TimerMode) (hid : w.rt.nextId < u64Max) {rt' : MockTimeRuntime} {key : MockTimerKey}
    (hreg : w.rt.registerTimer period mode ⟨[]⟩ = .ok (key, rt')) :
    Agree { runtime := some rt', handles := w.handles.adopt w.made,
            key := Function.update w.key w.made key, made := w.made + 1 }
      (s.perform (.new period mode)) := by
  have hmock := h.mock.calms_registerTimer hp hreg
  obtain ⟨rfl, rfl⟩ : (⟨w.rt.epoch, w.rt.nextId⟩ : MockTimerKey) = key ∧ _ = rt' := by
    rcases w.rt.registerTimer_cases hp mode ⟨[]⟩ with ⟨he, -⟩ | ⟨-, hok⟩
    · rw [hreg] at he
      cases he
    · exact Prod.mk.inj (Except.ok.inj (hok.symm.trans hreg))
  have hnext : w.rt.nextId = w.made + 1 := h.mock.next.trans (congrArg (· + 1) h.order)
  have hservice : s.registry.register period mode ⟨[]⟩ true = (.ok s.registry.nextId,
      { s.registry with
        timers := s.registry.timers ++ [{ id := s.registry.nextId,
                                          state := ⟨mode, period, none, hp⟩,
                                          callback := some ⟨[]⟩, deleted := false }]
        nextId := s.registry.nextId + 1 }) := by
    have hroom : s.registry.nextId + 1 ≤ u64Max := by
      rw [h.next]
      exact hid
    rw [Registry.register, TimerState.new_eq_ok hp]
    simp only [Bool.true_eq_false, if_false, if_pos hroom]
  have hwf := h.service.register period mode ⟨[]⟩ true
  rw [hservice] at hwf
  rw [ServiceTimers.perform, if_neg hp, hservice]
  have hnone : ∀ state, ¬ w.rt.HasState w.made state := by
    rintro state ⟨e, he, ho, -⟩
    have hlt := h.mock.bounded e he
    rw [h.order, ho] at hlt
    exact Nat.lt_irrefl _ hlt
  have hmade : ∀ (o : Nat) (state : TimerState),
      (∃ e ∈ w.rt.timers ++ [(⟨⟨w.rt.epoch, w.rt.nextId⟩, ⟨mode, period, none, hp⟩, some ⟨[]⟩,
        w.rt.nextCreationOrder, false⟩ : MockTimerEntry)], e.creationOrder = o ∧ e.state = state) ↔
      w.rt.HasState o state ∨ w.made = o ∧ ⟨mode, period, none, hp⟩ = state := by
    intro o state
    rw [exists_mem_concat, ← h.order]
    rfl
  refine
    { mock := hmock.wf
      service := hwf
      running := h.running
      next := congrArg (· + 1) h.next
      same := fun o state => ?_
      now := h.now
      epoch := h.epoch
      order := congrArg (· + 1) h.order
      made := congrArg (· + 1) h.made
      keys := fun i => ?_
      ids := fun i => ?_
      strong := fun i => ?_ }
  · refine (hmade o state).trans ?_
    unfold Registry.HasState
    rw [exists_mem_concat, h.same, TimerEntry.live_iff, h.next, hnext]
    refine or_congr Iff.rfl ?_
    simp
  · dsimp only
    rw [h.epoch, hnext]
    by_cases hi : i = w.made
    · subst hi
      rw [Function.update_self, if_pos (Nat.lt_succ_self _)]
    · rw [Function.update_of_ne hi, h.keys]
      split <;> split <;> first | rfl | omega
  · dsimp only
    rw [h.next, hnext, h.made]
    by_cases hi : i = w.made
    · subst hi
      rw [Function.update_self, if_pos (Nat.lt_succ_self _)]
    · rw [Function.update_of_ne hi, h.ids]
      split <;> split <;> first | rfl | omega
  · by_cases hi : i = w.made
    · subst hi
      exact .inl ⟨by simp [Handles.adopt], _, (hmade w.made _).2 (.inr ⟨rfl, rfl⟩)⟩
    · have hother : (w.handles.adopt w.made).strong i = w.handles.strong i :=
        Function.update_of_ne hi _ _
      rcases h.strong i with ⟨hone, state, hs⟩ | ⟨hzero, hdead⟩
      · exact .inl ⟨hother.trans hone, state, (hmade i state).2 (.inl hs)⟩
      · refine .inr ⟨hother.trans hzero, ?_⟩
        rintro ⟨state, hs⟩
        rcases (hmade i state).1 hs with hs | ⟨rfl, -⟩
        · exact hdead ⟨state, hs⟩
        · exact hi rfl

theorem Agree.drop (h : Agree w s) (i : Nat) :
    ∃ w', w.perform (.drop i) = .ok w' ∧ w'.made = w.made ∧ Agree w' (s.perform (.drop i)) := by
  have hgone : ∀ o state, (s.perform (.drop i)).registry.HasState (o + 1) state ↔
      o + 1 ≠ s.id i ∧ s.registry.HasState (o + 1) state := by
    intro o state
    rw [ServiceTimers.perform, deregister_snd h.service.distinct,
      hasState_adjust (f := fun e => { e with deleted := true, state := e.state.stop, callback := none })
        fun _ => rfl]
    simp
  have hservice : (s.registry.deregister (s.id i)).2.nextId = s.registry.nextId ∧
      (s.registry.deregister (s.id i)).2.stopRequested = s.registry.stopRequested := by
    rw [deregister_snd h.service.distinct]
    exact ⟨rfl, rfl⟩
  have hrelease : ∀ o, o ≠ i → (w.handles.release i).strong o = w.handles.strong o :=
    fun o ho => Function.update_of_ne ho _ _
  have hdown : (w.handles.release i).strong i = w.handles.strong i - 1 := Function.update_self _ _ _
  rcases h.strong i with ⟨hone, hlive⟩ | ⟨hzero, hdead⟩
  · have hrt : w.runtime = some w.rt := by
      cases hruntime : w.runtime with
      | none =>
        obtain ⟨state, e, he, -⟩ := hlive
        rw [MockTimer.Clock.rt, hruntime] at he
        cases he
      | some rt => rw [MockTimer.Clock.rt, hruntime, Option.getD_some]
    refine ⟨{ w with runtime := some (w.rt.removeTimer (w.key i)).2,
                     handles := w.handles.release i }, ?_, rfl, ?_⟩
    · rw [MockTimer.Clock.perform, if_pos hone]
      nth_rewrite 1 [hrt]
      rfl
    obtain ⟨timers, htimers⟩ : ∃ timers, (w.rt.removeTimer (w.key i)).2 = { w.rt with timers } := by
      rcases h.mock.removeTimer_cases (w.key i) with ⟨hr, -⟩ | ⟨e, timers, hr, -⟩
      · exact ⟨w.rt.timers, congrArg Prod.snd hr⟩
      · exact ⟨timers, congrArg Prod.snd hr⟩
    have hleft : ∀ o state, (w.rt.removeTimer (w.key i)).2.HasState o state ↔
        o + 1 ≠ s.id i ∧ w.rt.HasState o state := by
      intro o state
      rw [h.mock.hasState_removeTimer, ne_eq, h.key_iff]
    exact
      { mock := h.mock.removeTimer _
        service := h.service.deregister
        running := hservice.2.trans h.running
        next := (hservice.1.trans h.next).trans (congrArg (·.nextId) htimers).symm
        same := fun o state => by
          rw [hgone, ← h.same]
          exact hleft o state
        now := h.now.trans (congrArg (·.now) htimers).symm
        epoch := (congrArg (·.epoch) htimers).trans h.epoch
        order := (congrArg (·.nextCreationOrder) htimers).trans h.order
        made := h.made
        keys := h.keys
        ids := h.ids
        strong := fun o => by
          by_cases ho : o = i
          · subst ho
            refine .inr ⟨by rw [hdown]; omega, ?_⟩
            rintro ⟨state, hs⟩
            obtain ⟨hne, e, he, horder, -⟩ := (hleft o state).1 hs
            have hmade : o < w.made := h.order ▸ horder ▸ h.mock.bounded e he
            exact hne (by rw [h.ids, if_pos hmade])
          · rw [hrelease o ho]
            have hne : o + 1 ≠ s.id i := by
              rw [h.ids]
              split <;> omega
            have hsame : (∃ state, (w.rt.removeTimer (w.key i)).2.HasState o state) ↔
                ∃ state, w.rt.HasState o state :=
              exists_congr fun state => (hleft o state).trans (and_iff_right hne)
            have hstrong := h.strong o
            rwa [← hsame] at hstrong }
  · refine ⟨{ w with handles := w.handles.release i }, if_neg (by omega), rfl, ?_⟩
    exact
      { mock := h.mock
        service := h.service.deregister
        running := hservice.2.trans h.running
        next := hservice.1.trans h.next
        same := fun o state => by
          rw [hgone, ← h.same]
          refine ⟨fun hs => ⟨fun ho => ?_, hs⟩, fun hs => hs.2⟩
          have hkey := (h.key_iff i o).2 ho
          rw [h.keys, h.epoch] at hkey
          split at hkey
          · obtain rfl : i = o := Nat.succ.inj (MockTimerKey.mk.inj hkey).2
            exact hdead ⟨state, hs⟩
          · cases hkey
        now := h.now
        epoch := h.epoch
        order := h.order
        made := h.made
        keys := h.keys
        ids := h.ids
        strong := fun o => by
          by_cases ho : o = i
          · subst ho
            exact .inr ⟨by rw [hdown]; omega, hdead⟩
          · rw [hrelease o ho]
            exact h.strong o }

/-- A call does the same on both sides. The mock aborts when it runs out of numbers for timers. -/
theorem Agree.perform (h : Agree w s) (c : TimerCall) :
    (w.perform c.op = .error .arithmeticOverflow ∧ u64Max ≤ w.made + c.creates) ∨
      ∃ w', w.perform c.op = .ok w' ∧ w'.made ≤ w.made + c.creates ∧ Agree w' (s.perform c) := by
  cases c with
  | new period mode =>
    by_cases hp : period = Duration.zero
    · refine .inr ⟨w, if_pos hp, Nat.le_add_right _ _, ?_⟩
      rw [ServiceTimers.perform, if_pos hp]
      exact h
    · have hnext : w.rt.nextId = w.made + 1 := h.mock.next.trans (congrArg (· + 1) h.order)
      rcases w.rt.registerTimer_cases hp mode ⟨[]⟩ with ⟨he, hfull⟩ | ⟨hid, hok⟩
      · refine .inl ⟨?_, ?_⟩
        · rw [TimerCall.op, MockTimer.Clock.perform, if_neg hp, he]
          rfl
        · rw [h.order, hnext] at hfull
          simp only [TimerCall.creates]
          omega
      · refine .inr ⟨_, ?_, Nat.le_refl _, h.new hp mode hid hok⟩
        rw [TimerCall.op, MockTimer.Clock.perform, if_neg hp, hok]
        rfl
  | start i =>
    refine .inr ⟨_, rfl, Nat.le_refl _, ?_⟩
    exact h.control i _ (by rw [Registry.start, onLive_snd h.service.distinct, h.now])
  | stop i =>
    refine .inr ⟨_, rfl, Nat.le_refl _, ?_⟩
    exact h.control i _ (by rw [Registry.stop, onLive_snd h.service.distinct])
  | reset i =>
    refine .inr ⟨_, rfl, Nat.le_refl _, ?_⟩
    exact h.control i _ (by rw [Registry.reset, onLive_snd h.service.distinct, h.now])
  | changePeriod i newPeriod =>
    by_cases hp : newPeriod = Duration.zero
    · refine .inr ⟨w, if_pos hp, Nat.le_refl _, ?_⟩
      rw [ServiceTimers.perform, if_pos hp]
      exact h
    · refine .inr ⟨_, if_neg hp, Nat.le_refl _, ?_⟩
      rw [ServiceTimers.perform, if_neg hp]
      exact h.control i _ (by rw [Registry.changePeriod, onLive_snd h.service.distinct])
  | drop i =>
    obtain ⟨w', hw', hmade, hagree⟩ := h.drop i
    exact .inr ⟨w', hw', hmade.le, hagree⟩

/-! ## Runs -/

theorem saturatingAdd_saturatingSub (now instant : Duration) :
    saturatingAdd now (instant.saturatingSub now) = movedTo now instant := by
  obtain ⟨now, hnow⟩ := now
  obtain ⟨instant, hinstant⟩ := instant
  have hfits : now + (instant - now) ≤ durationMaxNanos := by omega
  unfold saturatingAdd Duration.checkedAdd Duration.saturatingSub movedTo
  rw [dif_pos hfits, Option.getD_some]
  by_cases hle : (⟨now, hnow⟩ : Duration) ≤ ⟨instant, hinstant⟩
  · rw [if_pos hle, Duration.mk.injEq]
    exact Nat.add_sub_cancel' hle
  · have hlt : instant < now := Nat.lt_of_not_le hle
    rw [if_neg hle, Duration.mk.injEq]
    exact Nat.add_eq_left.2 (Nat.sub_eq_zero_of_le hlt.le)

theorem Agree.advance {worker : Worker} (hworker : Drains worker) (h : Agree w s)
    (instant : Duration) :
    ∃ (k : Nat) (run : MockTimer.Run) (fired : List Nat) (r' : Registry),
      (∀ fuel, k ≤ fuel →
        MockTimer.advanceAndDispatch quiet (instant.saturatingSub w.rt.now) fuel w = some run ∧
        worker (movedTo s.now instant) fuel s.registry = some (.ok (fired.map (· + 1), r'))) ∧
      run.halt = .returned ∧ run.rounds.filterMap (fun r => r.fired.map (·.2)) = fired ∧
      run.last.made = w.made ∧
      Agree run.last { s with registry := r', now := movedTo s.now instant } := by
  have hnow : (w.rt.advanceTime (instant.saturatingSub w.rt.now)).now = movedTo w.rt.now instant :=
    saturatingAdd_saturatingSub w.rt.now instant
  have hpaired : Paired (w.withRuntime (·.advanceTime (instant.saturatingSub w.rt.now)))
      s.registry :=
    ⟨MockTimer.wf_advanceTime h.mock _, h.service, h.running, h.next, h.same⟩
  obtain ⟨run, fired, r', hrun, hhalt, hfired, hpaired', hkept⟩ := drain_agrees hworker hpaired 0
  refine ⟨(w.rt.advanceTime (instant.saturatingSub w.rt.now)).dueOrders.card + 1, run, fired, r',
    fun fuel hfuel => ?_, hhalt, hfired, hkept.made, ?_⟩
  · rw [h.now, ← hnow]
    exact hrun fuel hfuel
  · exact
      { toPaired := hpaired'
        now := (congrArg (movedTo · instant) h.now).trans (hnow.symm.trans hkept.now.symm)
        epoch := hkept.epoch.trans h.epoch
        order := (hkept.order.trans h.order).trans hkept.made.symm
        made := h.made.trans hkept.made.symm
        keys := fun i => by
          rw [hkept.key, hkept.made]
          exact h.keys i
        ids := fun i => by
          rw [hkept.made]
          exact h.ids i
        strong := fun i => by
          rw [hkept.handles, hkept.alive i]
          exact h.strong i }

/-- A run on the mock and on a service. -/
theorem Agree.play {worker : Worker} (hworker : Drains worker) (h : Agree w s)
    (events : List TimerEvent) :
    (u64Max ≤ w.made + creations events ∧
      ∃ k, ∀ fuel, k ≤ fuel → w.play fuel events = some (.error .arithmeticOverflow)) ∨
    ∃ (k : Nat) (fired : List Nat) (w' : MockTimer.Clock) (s' : ServiceTimers),
      (∀ fuel, k ≤ fuel → w.play fuel events = some (.ok (fired, w')) ∧
        s.play worker fuel events = some (.ok (fired.map (· + 1), s'))) ∧ Agree w' s' := by
  induction events generalizing w s with
  | nil => exact .inr ⟨0, [], w, s, fun _ _ => ⟨rfl, rfl⟩, h⟩
  | cons event events ih =>
    cases event with
    | call c =>
      rcases h.perform c with ⟨hfault, hfull⟩ | ⟨w', hw', hmade, hagree⟩
      · refine .inl ⟨?_, 0, fun fuel _ => ?_⟩
        · rw [creations]
          omega
        · rw [MockTimer.Clock.play, hfault]
      · rcases ih hagree with ⟨hfull, k, hk⟩ | ⟨k, fired, w'', s'', hk, hagree'⟩
        · refine .inl ⟨?_, k, fun fuel hfuel => ?_⟩
          · rw [creations]
            omega
          · rw [MockTimer.Clock.play, hw']
            exact hk fuel hfuel
        · refine .inr ⟨k, fired, w'', s'', fun fuel hfuel => ⟨?_, (hk fuel hfuel).2⟩, hagree'⟩
          rw [MockTimer.Clock.play, hw']
          exact (hk fuel hfuel).1
    | advance instant =>
      obtain ⟨k₁, run, fired₁, r', hrun, hhalt, hfired, hmade, hagree⟩ := h.advance hworker instant
      rcases ih hagree with ⟨hfull, k, hk⟩ | ⟨k, fired, w'', s'', hk, hagree'⟩
      · refine .inl ⟨?_, max k₁ k, fun fuel hfuel => ?_⟩
        · rw [creations]
          omega
        · rw [MockTimer.Clock.play, (hrun fuel (by omega)).1]
          simp only [hhalt, hk fuel (by omega)]
          rfl
      · refine .inr ⟨max k₁ k, fired₁ ++ fired, w'', s'', fun fuel hfuel => ⟨?_, ?_⟩, hagree'⟩
        · rw [MockTimer.Clock.play, (hrun fuel (by omega)).1]
          simp only [hhalt, (hk fuel (by omega)).1, hfired]
          rfl
        · rw [ServiceTimers.play, (hrun fuel (by omega)).2]
          simp only [(hk fuel (by omega)).2, List.map_append]
          rfl

/-- Every application sees the same timers fire in the same order on the three backends, and the
same timers alive in the same states at the end, unless it creates so many timers that the mock
runs out of numbers and aborts. The timers are numbered by their creation, from zero on the mock
and from one on the services. -/
theorem timers_dispatch_identically (events : List TimerEvent) :
    (u64Max ≤ creations events ∧ ∃ k, ∀ fuel, k ≤ fuel →
      MockTimer.start.shared.play fuel events = some (.error .arithmeticOverflow)) ∨
    ∃ (k : Nat) (fired : List Nat) (w : MockTimer.Clock) (p f : ServiceTimers),
      (∀ fuel, k ≤ fuel →
        MockTimer.start.shared.play fuel events = some (.ok (fired, w)) ∧
        ServiceTimers.init.play PosixTimerService.run fuel events =
          some (.ok (fired.map (· + 1), p)) ∧
        ServiceTimers.init.play FreeRtosTimerService.run fuel events =
          some (.ok (fired.map (· + 1), f))) ∧
      (∀ i state, w.rt.HasState i state ↔ p.registry.HasState (i + 1) state) ∧
      (∀ i state, w.rt.HasState i state ↔ f.registry.HasState (i + 1) state) ∧
      p.made = w.made ∧ f.made = w.made ∧
      ∀ i, i < w.made → w.key i = ⟨1, i + 1⟩ ∧ p.id i = i + 1 ∧ f.id i = i + 1 := by
  rcases agree_init.play PosixTimerService.run_drains events with ⟨hfull, hk⟩ |
    ⟨k, fired, w, p, hk, hp⟩
  · exact .inl ⟨by simpa [MockTimer.start] using hfull, hk⟩
  rcases agree_init.play FreeRtosTimerService.run_drains events with ⟨hfull, hk'⟩ |
    ⟨k', fired', w', f, hk', hf⟩
  · exact .inl ⟨by simpa [MockTimer.start] using hfull, hk'⟩
  obtain ⟨rfl, rfl⟩ : fired = fired' ∧ w = w' := by
    have hsame := (hk (max k k') (Nat.le_max_left _ _)).1.symm.trans
      (hk' (max k k') (Nat.le_max_right _ _)).1
    exact Prod.mk.inj (Except.ok.inj (Option.some.inj hsame))
  refine .inr ⟨max k k', fired, w, p, f, fun fuel hfuel => ?_, hp.same, hf.same, hp.made, hf.made,
    fun i hi => ⟨?_, ?_, ?_⟩⟩
  · have hfuel₁ := hk fuel (by omega)
    have hfuel₂ := hk' fuel (by omega)
    exact ⟨hfuel₁.1, hfuel₁.2, hfuel₂.2⟩
  · rw [hp.keys, if_pos hi]
  · rw [hp.ids, if_pos hi]
  · rw [hf.ids, if_pos hi]

end OsalRust
