import OsalRust.Mock.RuntimeInvariant
import OsalRust.Mock.Timer

/-!
# Dispatch of the mock timers

One call of `advance_and_dispatch` by a single thread, with callbacks that do what they like to
timers, handles and the runtime, except move the clock. The calls a callback makes are a list; a
destructor that runs in it, such as that of a removed timer's callback, is more calls of the list.

A callback that returns to find its timer gone is dropped by `restore_callback` with the lock
held. If it has captured the last clone of a handle, the destructor of that handle spins on the
lock forever.
-/

namespace OsalRust.MockTimer

open OsalRust OsalRust.Timer OsalRust.Timer.Registry OsalRust.Mock

/-- What a callback, or application code between two dispatches, does to the timers. Timers are
named by their handles. -/
inductive Op where
  | new (period : Duration) (mode : TimerMode) (callback : Callback)
  | start (handle : Nat)
  | stop (handle : Nat)
  | reset (handle : Nat)
  | changePeriod (handle : Nat) (newPeriod : Duration)
  | clone (handle : Nat)
  | drop (handle : Nat)
  | resetRuntime

namespace Clock

def withRuntime (w : Clock) (f : MockTimeRuntime → MockTimeRuntime) : Clock :=
  { w with runtime := some (f w.rt) }

/-- The calls, one by one. The drop of a last clone deregisters the timer. -/
def perform (w : Clock) : Op → Checked Clock
  | .new period mode callback =>
    if period = Duration.zero then .ok w
    else do
      let (key, rt) ← w.rt.registerTimer period mode callback
      return { runtime := some rt, handles := w.handles.adopt w.made,
               key := Function.update w.key w.made key, made := w.made + 1 }
  | .start handle => .ok (w.withRuntime (·.startTimer (w.key handle)))
  | .stop handle => .ok (w.withRuntime (·.stopTimer (w.key handle)))
  | .reset handle => .ok (w.withRuntime (·.resetTimer (w.key handle)))
  | .changePeriod handle newPeriod =>
    if newPeriod = Duration.zero then .ok w
    else .ok (w.withRuntime (·.changePeriod (w.key handle) newPeriod))
  | .clone handle => .ok { w with handles := w.handles.clone handle }
  | .drop handle =>
    if w.handles.strong handle = 1 then
      .ok { w with runtime := w.runtime.map fun rt => (rt.removeTimer (w.key handle)).2
                   handles := w.handles.release handle }
    else .ok { w with handles := w.handles.release handle }
  | .resetRuntime => .ok (w.withRuntime fun rt => rt.resetAndDetach.2)

def performAll (w : Clock) : List Op → Checked Clock
  | [] => .ok w
  | op :: ops => do (← w.perform op).performAll ops

end Clock

/-- The callbacks: what the `n`-th one to run does, in the state it finds, and the closure as it
leaves it. -/
abbrev Callbacks := Nat → Clock → MockTimerKey → Callback → List Op × Callback

/-- The drop of captured handles inside the lock: the last clone of a handle locks again. -/
def dropInside : List Nat → Handles → Option Handles
  | [], h => some h
  | handle :: captures, h =>
    if h.strong handle = 1 then none else dropInside captures (h.release handle)

/-- One turn of the loop: the runtime when the timer was selected, the timer, and the state and
the closure when its callback returned. -/
structure Round where
  before : MockTimeRuntime
  key : MockTimerKey
  atReturn : Clock
  returned : Callback

inductive Halt where
  | returned
  | deadlocked
  | panicked (fault : Fault)
  deriving DecidableEq

structure Run where
  halt : Halt
  rounds : List Round
  last : Clock

def Run.cons (round : Round) (run : Run) : Run := { run with rounds := round :: run.rounds }

/-- The loop of `advance_and_dispatch`. -/
def dispatch (callbacks : Callbacks) : Nat → Nat → Clock → Option Run
  | 0, _, _ => none
  | fuel + 1, n, w =>
    match w.rt.takeNextExpired with
    | .error fault => some ⟨.panicked fault, [], w⟩
    | .ok (none, _) => some ⟨.returned, [], w⟩
    | .ok (some (key, callback), rt) =>
      let taken := { w with runtime := some rt }
      match taken.performAll (callbacks n taken key callback).1 with
      | .error fault => some ⟨.panicked fault, [], taken⟩
      | .ok w' =>
        let returned := (callbacks n taken key callback).2
        let round : Round := ⟨w.rt, key, w', returned⟩
        let restored := w'.withRuntime fun rt => (rt.restoreCallback key returned).2
        match (w'.rt.restoreCallback key returned).1 with
        | none => (dispatch callbacks fuel (n + 1) restored).map (Run.cons round)
        | some callback =>
          match dropInside callback.captures w'.handles with
          | none => some ⟨.deadlocked, [round], w'⟩
          | some handles =>
            (dispatch callbacks fuel (n + 1) { restored with handles }).map (Run.cons round)

def advanceAndDispatch (callbacks : Callbacks) (d : Duration) (fuel : Nat) (w : Clock) :
    Option Run :=
  dispatch callbacks fuel 0 (w.withRuntime (·.advanceTime d))

/-- The states between two dispatches. -/
inductive Reachable : Clock → Prop
  | start : Reachable start.shared
  | perform {w w' : Clock} {op : Op} : Reachable w → w.perform op = .ok w' → Reachable w'
  | dispatch {w : Clock} {callbacks : Callbacks} {d : Duration} {fuel : Nat} {run : Run} :
      Reachable w → advanceAndDispatch callbacks d fuel w = some run → run.halt = .returned →
      Reachable run.last

/-! ## What the calls do to expired timers -/

variable {w w' : Clock} {out : Option MockTimerKey}

theorem Clock.perform_spec (h : w.rt.Wf out) (op : Op) :
    w.perform op = .error .arithmeticOverflow ∨
      ∃ w', w.perform op = .ok w' ∧ w.rt.Calms w'.rt out := by
  cases op with
  | new period mode callback =>
    by_cases hp : period = Duration.zero
    · exact .inr ⟨w, if_pos hp, h.calms⟩
    · rw [perform, if_neg hp]
      cases hr : w.rt.registerTimer period mode callback with
      | error fault =>
        rcases w.rt.registerTimer_cases hp mode callback with ⟨he, -⟩ | ⟨-, hok⟩
        · rw [hr] at he
          exact .inl (congrArg Except.error (Except.error.inj he))
        · rw [hr] at hok
          cases hok
      | ok answer => exact .inr ⟨_, rfl, h.calms_registerTimer hp hr⟩
  | start handle => exact .inr ⟨_, rfl, h.calms_startTimer _⟩
  | stop handle => exact .inr ⟨_, rfl, h.calms_stopTimer _⟩
  | reset handle => exact .inr ⟨_, rfl, h.calms_startTimer _⟩
  | changePeriod handle newPeriod =>
    by_cases hp : newPeriod = Duration.zero
    · exact .inr ⟨w, if_pos hp, h.calms⟩
    · exact .inr ⟨_, if_neg hp, h.calms_changePeriod _ _⟩
  | clone handle => exact .inr ⟨_, rfl, h.calms⟩
  | drop handle =>
    by_cases hlast : w.handles.strong handle = 1
    · refine .inr ⟨_, if_pos hlast, ?_⟩
      cases hrt : w.runtime with
      | none =>
        simp only [Clock.rt, hrt, Option.map_none] at h ⊢
        exact h.calms
      | some rt =>
        simp only [Clock.rt, hrt, Option.map_some, Option.getD_some] at h ⊢
        exact h.calms_removeTimer _
    · exact .inr ⟨_, if_neg hlast, h.calms⟩
  | resetRuntime => exact .inr ⟨_, rfl, MockTimeRuntime.calms_resetAndDetach _ _⟩

theorem Clock.performAll_spec (h : w.rt.Wf out) (ops : List Op) :
    w.performAll ops = .error .arithmeticOverflow ∨
      ∃ w', w.performAll ops = .ok w' ∧ w.rt.Calms w'.rt out := by
  induction ops generalizing w with
  | nil => exact .inr ⟨w, rfl, h.calms⟩
  | cons op ops ih =>
    rw [performAll]
    rcases Clock.perform_spec h op with hp | ⟨w₁, hp, hcalms⟩
    · rw [hp]
      exact .inl rfl
    · rw [hp]
      rcases ih hcalms.wf with hrest | ⟨w₂, hrest, hcalms'⟩
      · exact .inl hrest
      · exact .inr ⟨w₂, hrest, hcalms.trans hcalms'⟩

/-! ## Callbacks that are dropped inside the lock -/

/-- Some handle has no clone left but those among the captures. -/
def OwnsLast (h : Handles) (captures : List Nat) : Prop :=
  ∃ handle ∈ captures, 0 < h.strong handle ∧ h.strong handle ≤ captures.count handle

theorem dropInside_eq_none {captures : List Nat} {h : Handles} :
    dropInside captures h = none ↔ OwnsLast h captures := by
  induction captures generalizing h with
  | nil => exact iff_of_false nofun fun ⟨_, hmem, _⟩ => by cases hmem
  | cons c captures ih =>
    rw [dropInside]
    have hcount : ∀ x, (c :: captures).count x = captures.count x + if x = c then 1 else 0 := by
      intro x
      rw [List.count_cons]
      by_cases hx : x = c
      · simp [hx]
      · simp [hx, Ne.symm hx]
    have hstrong : ∀ x, (h.release c).strong x = if x = c then h.strong x - 1 else h.strong x := by
      intro x
      by_cases hx : x = c
      · simp [Handles.release, hx]
      · simp [Handles.release, hx]
    split
    · rename_i hone
      refine iff_of_true rfl ⟨c, List.mem_cons_self, by omega, ?_⟩
      rw [hcount c, if_pos rfl]
      omega
    · rename_i hone
      rw [ih]
      constructor
      · rintro ⟨x, hx, hpos, hle⟩
        refine ⟨x, List.mem_cons_of_mem _ hx, ?_⟩
        rw [hstrong] at hpos hle
        rw [hcount]
        by_cases hxc : x = c
        · simp only [if_pos hxc] at hpos hle ⊢
          omega
        · simp only [if_neg hxc] at hpos hle ⊢
          omega
      · rintro ⟨x, hx, hpos, hle⟩
        rw [hcount] at hle
        by_cases hxc : x = c
        · subst hxc
          rw [if_pos rfl] at hle
          refine ⟨x, List.count_pos_iff.1 (by omega), ?_⟩
          rw [hstrong, if_pos rfl]
          omega
        · rw [if_neg hxc] at hle
          refine ⟨x, (List.mem_cons.1 hx).resolve_left hxc, ?_⟩
          rw [hstrong, if_neg hxc]
          exact ⟨hpos, hle⟩

namespace Round

/-- The deadline and the creation order of the timer, when it was selected. -/
def fired (r : Round) : Option (Duration × Nat) :=
  (r.before.timers.find? (MockTimerEntry.live r.key)).bind fun e =>
    e.state.deadline.map fun d => (d, e.creationOrder)

/-- The callback returns to find its timer gone, and owns the last clone of a handle. -/
def Trapped (r : Round) : Prop :=
  ¬ r.atReturn.rt.Awaits r.key ∧ OwnsLast r.atReturn.handles r.returned.captures

/-- If the timer is still registered when its callback returns, it has a callback afterwards: the
closure that returned, unless it has one already. -/
def Restored (r : Round) : Prop :=
  ∀ e, r.atReturn.rt.timers.find? (MockTimerEntry.live r.key) = some e →
    ((r.atReturn.rt.restoreCallback r.key r.returned).2.timers.find?
      (MockTimerEntry.live r.key)).bind (·.callback) = some (e.callback.getD r.returned)

theorem restored (r : Round) : r.Restored := by
  intro e he
  obtain ⟨timers, hu, hfind⟩ := updateFirst_of_find?
    (f := fun e : MockTimerEntry =>
      if e.callback.isNone then
        ((none : Option Callback), { e with callback := some r.returned })
      else (some r.returned, e)) he
    (by
      have hlive : MockTimerEntry.live r.key e = true := List.find?_some he
      split <;> exact hlive)
  simp only [MockTimeRuntime.restoreCallback, hu, hfind, Option.bind_some]
  cases hc : e.callback with
  | none => simp
  | some held => simp [hc]

end Round

/-! ## The loop -/

/-- What a run of the loop from a state is like, with the deadlines and creation orders of the
timers that fired. -/
structure Sound (w : Clock) (run : Run) (fired : List (Duration × Nat)) : Prop where
  fired_eq : run.rounds.map Round.fired = fired.map some
  ids : run.rounds.map (·.key.id) = fired.map (·.2 + 1)
  due : ∀ p ∈ fired, w.rt.DueAt p.2 p.1
  once : (fired.map (·.2)).Nodup
  increasing : fired.Pairwise fun p q => KeyLt p.1 p.2 q.1 q.2
  settled : run.halt = .returned → run.last.rt.Wf none ∧ ∀ order d, ¬ run.last.rt.DueAt order d
  trapped : run.halt = .deadlocked ↔ ∃ r ∈ run.rounds, r.Trapped
  panics : ∀ fault, run.halt = .panicked fault → fault = .arithmeticOverflow

theorem Sound.cons {run : Run} {fired : List (Duration × Nat)} {round : Round} {d : Duration}
    {order : Nat} (h : Sound w' run fired) (hfired : round.fired = some (d, order))
    (hid : round.key.id = order + 1) (hdue : w.rt.DueAt order d)
    (hlater : ∀ o d', w'.rt.DueAt o d' → w.rt.DueAt o d' ∧ o ≠ order ∧ KeyLt d order d' o)
    (hfree : ¬ round.Trapped) : Sound w (run.cons round) ((d, order) :: fired) where
  fired_eq := by
    rw [Run.cons, List.map_cons, List.map_cons, h.fired_eq, hfired]
  ids := by
    rw [Run.cons, List.map_cons, List.map_cons, h.ids, hid]
  due := List.forall_mem_cons.2 ⟨hdue, fun p hp => (hlater p.2 p.1 (h.due p hp)).1⟩
  once := by
    rw [List.map_cons, List.nodup_cons]
    refine ⟨fun hmem => ?_, h.once⟩
    obtain ⟨p, hp, ho⟩ := List.mem_map.1 hmem
    exact (hlater p.2 p.1 (h.due p hp)).2.1 ho
  increasing := List.pairwise_cons.2
    ⟨fun p hp => (hlater p.2 p.1 (h.due p hp)).2.2, h.increasing⟩
  settled := h.settled
  trapped := by
    refine h.trapped.trans ?_
    simp only [Run.cons, List.exists_mem_cons_iff, hfree, false_or]
  panics := h.panics

theorem dueAt_takenOut {rt : MockTimeRuntime} (h : rt.Wf none) {e : MockTimerEntry}
    (he : e ∈ rt.timers) {d : Duration} (hd : e.state.deadline = some d) (hle : d ≤ rt.now)
    (hleast : ∀ o s d', rt.HasState o s → s.deadline = some d' → ¬ KeyLt d' o d e.creationOrder)
    {o : Nat} {d' : Duration}
    (hdue : (rt.adjust e.key (MockTimeRuntime.takenOut rt.now)).DueAt o d') :
    rt.DueAt o d' ∧ o ≠ e.creationOrder ∧ KeyLt d e.creationOrder d' o := by
  obtain ⟨s', hs', hd', hle'⟩ := hdue
  obtain ⟨s, hs, rfl⟩ := (h.hasState_takenOut he).1 hs'
  have hne : o ≠ e.creationOrder := by
    intro ho
    obtain ⟨e', he', ho', rfl⟩ := hs
    obtain rfl := h.eq_of_order he' he (ho'.trans ho)
    rw [if_pos ho] at hd'
    exact absurd hle' (Nat.not_le.2 (TimerState.lt_of_advanceOnExpiry
      (MockTimeRuntime.advanceOnExpiry_fst hd hle) hd'))
  rw [if_neg hne] at hd'
  refine ⟨⟨s, hs, hd', hle'⟩, hne, ?_⟩
  have hnot := hleast o s d' hs hd'
  unfold KeyLt at hnot ⊢
  omega

theorem calms_restored {rt rt' : MockTimeRuntime} (h : rt.Wf none) {e : MockTimerEntry}
    (he : e ∈ rt.timers) {d : Duration} (hd : e.state.deadline = some d) (hle : d ≤ rt.now)
    (hleast : ∀ o s d', rt.HasState o s → s.deadline = some d' → ¬ KeyLt d' o d e.creationOrder)
    (hcalms : (rt.adjust e.key (MockTimeRuntime.takenOut rt.now)).Calms rt' (some e.key))
    (returned : Callback) :
    (rt'.restoreCallback e.key returned).2.Wf none ∧
      (∀ o d', (rt'.restoreCallback e.key returned).2.DueAt o d' →
        rt.DueAt o d' ∧ o ≠ e.creationOrder ∧ KeyLt d e.creationOrder d' o) ∧
      (rt'.restoreCallback e.key returned).2.dueOrders.card < rt.dueOrders.card := by
  have hlater : ∀ o d', (rt'.restoreCallback e.key returned).2.DueAt o d' →
      rt.DueAt o d' ∧ o ≠ e.creationOrder ∧ KeyLt d e.creationOrder d' o := by
    rintro o d' ⟨s, hs, hd', hle'⟩
    rw [(rt'.restoreCallback_now e.key returned).1] at hle'
    have hdue : rt'.DueAt o d' := ⟨s, (hcalms.wf.hasState_restoreCallback _ _).1 hs, hd', hle'⟩
    exact dueAt_takenOut h he hd hle hleast (hcalms.due o d' hdue)
  refine ⟨hcalms.wf.restoreCallback returned, hlater, Finset.card_lt_card ?_⟩
  rw [Finset.ssubset_iff_of_subset fun o ho => ?_]
  · refine ⟨e.creationOrder, MockTimeRuntime.mem_dueOrders.2 ⟨d, e.state, ⟨e, he, rfl, rfl⟩, hd, hle⟩,
      fun hmem => ?_⟩
    obtain ⟨d', hdue⟩ := MockTimeRuntime.mem_dueOrders.1 hmem
    exact (hlater _ d' hdue).2.1 rfl
  · obtain ⟨d', hdue⟩ := MockTimeRuntime.mem_dueOrders.1 ho
    exact MockTimeRuntime.mem_dueOrders.2 ⟨d', (hlater o d' hdue).1⟩

theorem dispatch_turn {callbacks : Callbacks} {key : MockTimerKey} {cb returned : Callback}
    {rt : MockTimeRuntime} {n fuel : Nat}
    (htake : w.rt.takeNextExpired = .ok (some (key, cb), rt))
    (hops : Clock.performAll { w with runtime := some rt }
      (callbacks n { w with runtime := some rt } key cb).1 = .ok w')
    (hreturned : (callbacks n { w with runtime := some rt } key cb).2 = returned) :
    dispatch callbacks (fuel + 1) n w =
      match (w'.rt.restoreCallback key returned).1 with
      | none =>
        (dispatch callbacks fuel (n + 1)
          (w'.withRuntime fun rt => (rt.restoreCallback key returned).2)).map
            (Run.cons ⟨w.rt, key, w', returned⟩)
      | some callback =>
        match dropInside callback.captures w'.handles with
        | none => some ⟨.deadlocked, [⟨w.rt, key, w', returned⟩], w'⟩
        | some handles =>
          (dispatch callbacks fuel (n + 1)
            { w'.withRuntime fun rt => (rt.restoreCallback key returned).2 with handles }).map
              (Run.cons ⟨w.rt, key, w', returned⟩) := by
  rw [dispatch, htake]
  simp only [hops, hreturned]

/-- The loop comes to an end: each turn takes a timer off the expired ones, and no call of a
callback adds one. -/
theorem dispatch_sound (callbacks : Callbacks) (h : w.rt.Wf none) (n : Nat) :
    ∃ run fired, (∀ fuel, w.rt.dueOrders.card < fuel → dispatch callbacks fuel n w = some run) ∧
      Sound w run fired := by
  induction hm : w.rt.dueOrders.card using Nat.strong_induction_on generalizing w n with
  | _ m ih =>
  subst hm
  rcases h.takeNextExpired_cases with ⟨htake, hquiet⟩ | ⟨e, he, cb, d, hcb, hd, hle, htake, hleast⟩
  · refine ⟨⟨.returned, [], w⟩, [], fun fuel hfuel => ?_, ⟨rfl, rfl, nofun, List.nodup_nil,
      List.Pairwise.nil, fun _ => ⟨h, ?_⟩, iff_of_false nofun (by simp), nofun⟩⟩
    · obtain ⟨fuel, rfl⟩ := Nat.exists_eq_add_of_lt hfuel
      rw [dispatch, htake]
    · rintro o d ⟨s, hs, hd, hle⟩
      exact absurd hle (Nat.not_le.2 (hquiet o s d hs hd))
  let taken : Clock := { w with runtime := some (w.rt.adjust e.key (MockTimeRuntime.takenOut w.rt.now)) }
  have htaken : taken.rt.Wf (some e.key) := h.takenOut e
  have hdue : w.rt.DueAt e.creationOrder d := ⟨e.state, ⟨e, he, rfl, rfl⟩, hd, hle⟩
  have hid : e.key.id = e.creationOrder + 1 := by rw [h.keyed e he]
  rcases Clock.performAll_spec htaken (callbacks n taken e.key cb).1 with hops | ⟨w', hops, hcalms⟩
  · refine ⟨⟨.panicked .arithmeticOverflow, [], taken⟩, [], fun fuel hfuel => ?_, ⟨rfl, rfl, nofun,
      List.nodup_nil, List.Pairwise.nil, nofun, iff_of_false nofun (by simp), ?_⟩⟩
    · obtain ⟨fuel, rfl⟩ := Nat.exists_eq_add_of_lt hfuel
      rw [dispatch, htake]
      simp only [taken] at hops
      simp only [hops]
      rfl
    · rintro fault hfault
      exact (Halt.panicked.inj hfault).symm
  obtain ⟨returned, hreturned⟩ : ∃ c, (callbacks n taken e.key cb).2 = c := ⟨_, rfl⟩
  obtain ⟨hwf, hlater, hcard⟩ := calms_restored h he hd hle hleast hcalms returned
  have hfired : Round.fired ⟨w.rt, e.key, w', returned⟩ = some (d, e.creationOrder) := by
    rw [Round.fired, h.find?_of_mem he, Option.bind_some, hd]
    rfl
  obtain ⟨hawaits, hkept⟩ := w'.rt.restoreCallback_fst e.key returned
  rcases hkept with hback | hlost
  · obtain ⟨run, fired, hrun, hsound⟩ :=
      ih _ hcard (w := w'.withRuntime fun rt => (rt.restoreCallback e.key returned).2) hwf (n + 1) rfl
    refine ⟨run.cons ⟨w.rt, e.key, w', returned⟩, (d, e.creationOrder) :: fired,
      fun fuel hfuel => ?_, hsound.cons hfired hid hdue hlater fun ht => ht.1 (hawaits.1 hback)⟩
    obtain ⟨fuel, rfl⟩ := Nat.exists_eq_add_of_lt hfuel
    rw [dispatch_turn htake hops hreturned, hback]
    dsimp only
    rw [hrun _ (by omega)]
    rfl
  have hgone : ¬ w'.rt.Awaits e.key := fun ha => by
    rw [hawaits.2 ha] at hlost
    cases hlost
  cases hdrop : dropInside returned.captures w'.handles with
  | none =>
    refine ⟨⟨.deadlocked, [⟨w.rt, e.key, w', returned⟩], w'⟩, [(d, e.creationOrder)],
      fun fuel hfuel => ?_, ?_⟩
    · obtain ⟨fuel, rfl⟩ := Nat.exists_eq_add_of_lt hfuel
      rw [dispatch_turn htake hops hreturned, hlost]
      dsimp only
      rw [hdrop]
    · refine ⟨by simp [hfired], by simp [hid], by simpa using hdue, List.nodup_singleton _,
        List.pairwise_singleton _ _, nofun, iff_of_true rfl ⟨_, List.mem_singleton_self _, ?_⟩, nofun⟩
      exact ⟨hgone, dropInside_eq_none.1 hdrop⟩
  | some handles =>
    obtain ⟨run, fired, hrun, hsound⟩ := ih _ hcard
      (w := { w'.withRuntime fun rt => (rt.restoreCallback e.key returned).2 with handles })
      hwf (n + 1) rfl
    refine ⟨run.cons ⟨w.rt, e.key, w', returned⟩, (d, e.creationOrder) :: fired,
      fun fuel hfuel => ?_, hsound.cons hfired hid hdue hlater fun ht => ?_⟩
    · obtain ⟨fuel, rfl⟩ := Nat.exists_eq_add_of_lt hfuel
      rw [dispatch_turn htake hops hreturned, hlost]
      dsimp only
      rw [hdrop]
      dsimp only
      rw [hrun _ (by omega)]
      rfl
    · rw [dropInside_eq_none.2 ht.2] at hdrop
      cases hdrop

theorem dispatch_succ {callbacks : Callbacks} {fuel n : Nat} {run : Run}
    (h : dispatch callbacks fuel n w = some run) :
    dispatch callbacks (fuel + 1) n w = some run := by
  induction fuel generalizing n w run with
  | zero => cases h
  | succ fuel ih =>
    unfold dispatch at h ⊢
    split at h
    · exact h
    · exact h
    · dsimp only at h ⊢
      split at h
      · exact h
      · split at h
        · obtain ⟨run', hrun', rfl⟩ := Option.map_eq_some_iff.1 h
          rw [ih hrun', Option.map_some]
        · split at h
          · exact h
          · obtain ⟨run', hrun', rfl⟩ := Option.map_eq_some_iff.1 h
            rw [ih hrun', Option.map_some]

theorem dispatch_mono {callbacks : Callbacks} {fuel fuel' n : Nat} {run : Run}
    (h : dispatch callbacks fuel n w = some run) (hle : fuel ≤ fuel') :
    dispatch callbacks fuel' n w = some run := by
  induction hle with
  | refl => exact h
  | step _ ih => exact dispatch_succ ih

theorem wf_advanceTime {rt : MockTimeRuntime} (h : rt.Wf out) (d : Duration) :
    (rt.advanceTime d).Wf out :=
  ⟨h.next, h.distinct, h.keyed, h.bounded, h.present, h.resting⟩

theorem Reachable.wf (h : Reachable w) : w.rt.Wf none := by
  induction h with
  | start => exact MockTimeRuntime.wf_new
  | perform hw hop ih =>
    rcases Clock.perform_spec ih _ with hfault | ⟨w', hop', hcalms⟩
    · rw [hfault] at hop
      cases hop
    · rw [hop'] at hop
      obtain rfl := Except.ok.inj hop
      exact hcalms.wf
  | @dispatch w callbacks d fuel run hw hrun hhalt ih =>
    obtain ⟨run', fired, hrun', hsound⟩ :=
      dispatch_sound (w := w.withRuntime (·.advanceTime d)) callbacks (wf_advanceTime ih d) 0
    have hlarge := hrun' _ (Nat.lt_of_lt_of_le (Nat.lt_succ_self _) (Nat.le_max_left _ fuel))
    rw [dispatch_mono hrun (Nat.le_max_right _ fuel)] at hlarge
    obtain rfl := Option.some.inj hlarge
    exact (hsound.settled hhalt).1

/-- `advance_and_dispatch` fires each expired timer once, in the order of deadlines and creation,
leaves none that has expired, and restores the callbacks of the timers that are still there. It
comes to an end, unless a callback returns to find its timer gone and owns the last clone of a
handle. -/
theorem advanceAndDispatch_in_order (h : Reachable w) (callbacks : Callbacks) (d : Duration) :
    ∃ (run : Run) (fired : List (Duration × Nat)),
      (∀ fuel, w.rt.timers.length < fuel → advanceAndDispatch callbacks d fuel w = some run) ∧
      run.rounds.map Round.fired = fired.map some ∧
      (run.rounds.map (·.key)).Nodup ∧
      (∀ p ∈ fired, p.1 ≤ (w.rt.advanceTime d).now) ∧
      fired.Pairwise (fun p q => KeyLt p.1 p.2 q.1 q.2) ∧
      (∀ r ∈ run.rounds, r.Restored) ∧
      (run.halt = .returned → ∀ e ∈ run.last.rt.timers, e.callback.isSome ∧
        ∀ deadline, e.state.deadline = some deadline → run.last.rt.now < deadline) ∧
      (∀ fault, run.halt = .panicked fault → fault = .arithmeticOverflow) ∧
      (run.halt ≠ .deadlocked ↔ ∀ r ∈ run.rounds, ¬ r.Trapped) := by
  obtain ⟨run, fired, hrun, hsound⟩ :=
    dispatch_sound (w := w.withRuntime (·.advanceTime d)) callbacks (wf_advanceTime h.wf d) 0
  refine ⟨run, fired, fun fuel hfuel => hrun fuel ?_, hsound.fired_eq, ?_, ?_, hsound.increasing,
    fun r _ => r.restored, fun hhalt e he => ?_, hsound.panics, ?_⟩
  · exact Nat.lt_of_le_of_lt (MockTimeRuntime.dueOrders_card_le _) hfuel
  · have hids : (run.rounds.map (·.key.id)).Nodup := by
      rw [hsound.ids, show (fun p : Duration × Nat => p.2 + 1) = (· + 1) ∘ (·.2) from rfl,
        ← List.map_map]
      exact hsound.once.map (add_left_injective 1)
    exact List.Nodup.of_map (·.id) (by rw [List.map_map]; exact hids)
  · rintro p hp
    obtain ⟨s, -, -, hle⟩ := hsound.due p hp
    exact hle
  · obtain ⟨hwf, hquiet⟩ := hsound.settled hhalt
    refine ⟨?_, fun deadline hd => ?_⟩
    · rw [Option.isSome_iff_ne_none]
      intro hnone
      have hout := hwf.resting e he hnone
      cases hout
    · by_contra hlt
      exact hquiet e.creationOrder deadline
        ⟨e.state, ⟨e, he, rfl, rfl⟩, hd, Nat.le_of_not_lt hlt⟩
  · rw [ne_eq, hsound.trapped]
    simp

def pair : Checked Clock :=
  start.shared.performAll
    [.new (.fromNanos 1) .oneShot ⟨[]⟩, .start 0, .new (.fromNanos 1) .periodic ⟨[0]⟩, .start 1]

theorem pair_reachable {w : Clock} (hw : pair = .ok w) : Reachable w := by
  obtain rfl := Except.ok.inj hw
  have hfirst : Reachable _ := .perform (.perform .start
    (rfl : Clock.perform _ (.new (.fromNanos 1) .oneShot ⟨[]⟩) = .ok _))
    (rfl : Clock.perform _ (.start 0) = .ok _)
  exact .perform (.perform hfirst
    (rfl : Clock.perform _ (.new (.fromNanos 1) .periodic ⟨[0]⟩) = .ok _))
    (rfl : Clock.perform _ (.start 1) = .ok _)

/-- Both fire, the one that was created first before the other. -/
theorem advanceAndDispatch_in_order_pair :
    ∃ w, pair = .ok w ∧ Reachable w ∧ ∃ (run : Run) (fired : List (Duration × Nat)),
      (∀ fuel, w.rt.timers.length < fuel →
        advanceAndDispatch (fun _ _ _ cb => ([], cb)) (.fromNanos 5) fuel w = some run) ∧
      run.rounds.map Round.fired = fired.map some ∧
      (run.halt ≠ .deadlocked ↔ ∀ r ∈ run.rounds, ¬ r.Trapped) := by
  obtain ⟨w, hw⟩ : ∃ w, pair = .ok w := ⟨_, rfl⟩
  have hreach := pair_reachable hw
  obtain ⟨run, fired, hrun, hfired, -, -, -, -, -, -, htrapped⟩ :=
    advanceAndDispatch_in_order hreach (fun _ _ _ cb => ([], cb)) (.fromNanos 5)
  exact ⟨w, hw, hreach, run, fired, hrun, hfired, htrapped⟩

/-- The callback of the second timer drops the last handle of that timer. The first timer fires,
then the second one; `restore_callback` drops the closure of the second, and with it the last
clone of the first, while it holds the lock. -/
theorem advanceAndDispatch_spins :
    ∃ w, pair = .ok w ∧ Reachable w ∧ ∀ fuel,
      (advanceAndDispatch (fun n _ _ cb => (if n = 1 then [.drop 1] else [], cb)) (.fromNanos 1)
        (fuel + 2) w).map (·.halt) = some .deadlocked := by
  obtain ⟨w, hw⟩ : ∃ w, pair = .ok w := ⟨_, rfl⟩
  refine ⟨w, hw, pair_reachable hw, fun fuel => ?_⟩
  obtain rfl := Except.ok.inj hw
  rfl

end OsalRust.MockTimer
