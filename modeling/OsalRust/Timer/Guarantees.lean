import OsalRust.FreeRtos.Backend
import OsalRust.Posix.Backend

/-!
# Guarantees of the timer services

What the FreeRTOS and the POSIX backend promise alike. Both are systems of threads that refine the
machine of the exchanges, so a law of that machine, or of the dispatcher of each service, holds in
every run of either: a due timer is bypassed at most once by each timer ahead of it, callbacks are
conserved while they are executed, a halted timer stays silent, and a shutdown leaves nothing
behind.
-/

namespace OsalRust.Timer

open OsalRust OsalRust.Framework

/-- A backend as a system of threads that follows the machine of the exchanges, with those of its
actions that the guarantees speak about: the execution of a callback and the return of a request. -/
structure Implementation where
  Thread : Type
  Lock : Type
  Action : Type
  Shared : Type
  lts : Lts (Threads Thread Lock Action Shared) (Thread × Instr Lock Action)
  view : Shared → World
  cargo : Action → Multiset Token
  event : Thread × Instr Lock Action → Label
  callback : Nat → Nat → Action
  returned : Nat → Request → Bool → Action
  cargo_callback : ∀ g id, cargo (callback g id) = {.loop g (.running id)}
  event_returned : ∀ t g q ok, event (t, .act (returned g q ok)) = .tau
  starts : ∀ {s}, lts.init s →
    (∀ t, Threads.owns cargo (s.code t) = 0) ∧ machine.init (view s.shared, 0)
  follows : ∀ {s tr s' M}, lts.Reachable s → Threads.Estate cargo s.code M → lts.Steps s tr s' →
    ∃ M', Threads.Estate cargo s'.code M' ∧
      machine.Steps (view s.shared, M) (tr.map event) (view s'.shared, M')

inductive Port where
  | freeRtos
  | posix

/-- The backend of a port; `max` is the greatest lease count. -/
def Port.backend (max : Nat) : Port → Implementation
  | .freeRtos =>
    { Thread := FreeRtosBackend.Thread
      Lock := FreeRtosBackend.Lock
      Action := FreeRtosBackend.Action
      Shared := FreeRtosBackend.Backend
      lts := FreeRtosBackend.system max
      view := FreeRtosBackend.Backend.view
      cargo := FreeRtosBackend.cargo
      event := FreeRtosBackend.event
      callback := .callback
      returned := .returned
      cargo_callback := fun _ _ => rfl
      event_returned := fun _ _ _ _ => rfl
      starts := FreeRtosBackend.start_machine
      follows := fun _ => FreeRtosBackend.steps_machine }
  | .posix =>
    { Thread := PosixBackend.Thread
      Lock := PosixBackend.Lock
      Action := PosixBackend.Action
      Shared := PosixBackend.Backend
      lts := PosixBackend.system max
      view := PosixBackend.Backend.view
      cargo := PosixBackend.cargo
      event := PosixBackend.event
      callback := .callback
      returned := .returned
      cargo_callback := fun _ _ => rfl
      event_returned := fun _ _ _ _ => rfl
      starts := PosixBackend.start_machine
      follows := PosixBackend.steps_machine }

namespace Implementation

variable (b : Implementation)

abbrev State := Threads b.Thread b.Lock b.Action b.Shared

abbrev Step := b.Thread × Instr b.Lock b.Action

def dispatcher (g : Nat) (s : b.State) : Dispatcher := (b.view s.shared).dispatcher g

def eventAt (g : Nat) (l : b.Step) : Event := (b.event l).at g

variable {b} {s s' : b.State} {tr : List b.Step} {l : b.Step} {g id : Nat}

theorem run (hr : b.lts.Run tr s) :
    ∃ M, Threads.Estate b.cargo s.code M ∧ machine.Run (tr.map b.event) (b.view s.shared, M) := by
  obtain ⟨s₀, h0, hs⟩ := hr
  obtain ⟨hnone, hinit⟩ := b.starts h0
  obtain ⟨M, hM, hsteps⟩ := b.follows (.start h0) (Threads.Estate.empty hnone) hs
  exact ⟨M, hM, _, hinit, hsteps⟩

theorem inv (hr : b.lts.Reachable s) :
    ∃ M, Threads.Estate b.cargo s.code M ∧ Inv (b.view s.shared) M := by
  obtain ⟨tr, hr⟩ := hr
  obtain ⟨M, hM, hrun⟩ := run hr
  exact ⟨M, hM, machine_inv hrun⟩

theorem wf (hr : b.lts.Reachable s) (g : Nat) : (b.dispatcher g s).Wf := by
  obtain ⟨M, -, hinv⟩ := inv hr
  exact (hinv.sound g).wf

theorem dispatch_steps (hr : b.lts.Reachable s) (hs : b.lts.Steps s tr s') (g : Nat) :
    Dispatcher.lts.Steps (b.dispatcher g s) (tr.map (b.eventAt g)) (b.dispatcher g s') := by
  obtain ⟨M, hM, hinv⟩ := inv hr
  obtain ⟨M', -, hsteps⟩ := b.follows hr hM hs
  have hd := (machine_dispatch hsteps hinv g).2
  rw [List.map_map] at hd
  exact hd

theorem dispatch (hr : b.lts.Reachable s) (hs : b.lts.step s l s') (g : Nat) :
    Dispatcher.Step (b.dispatcher g s) (b.eventAt g l) (b.dispatcher g s') :=
  (dispatch_steps hr ((Lts.Steps.refl s).snoc hs) g).single

/-- Only one thread executes a callback, of any service. -/
theorem callback_unique (hr : b.lts.Reachable s) {t t' : b.Thread} {g' id' : Nat}
    (hc : .act (b.callback g id) ∈ s.code t) (hc' : .act (b.callback g' id') ∈ s.code t') :
    t = t' ∧ g = g' ∧ id = id' := by
  obtain ⟨M, hM, hinv⟩ := inv hr
  have htoken : .loop g (.running id) ∈ M := hM.mem_of_act hc (by simp [b.cargo_callback])
  have htoken' : .loop g' (.running id') ∈ M := hM.mem_of_act hc' (by simp [b.cargo_callback])
  have hslot := hinv.current_of_loop htoken
  rw [hinv.current_of_loop htoken'] at hslot
  obtain rfl : g' = g := Option.some.inj hslot
  obtain ⟨cb, hhand⟩ := hinv.activity _ _ htoken
  obtain ⟨cb', hhand'⟩ := hinv.activity _ _ htoken'
  rw [hhand] at hhand'
  obtain ⟨rfl, -⟩ := Hand.running.inj hhand'
  refine ⟨?_, rfl, rfl⟩
  -- two threads would own two loops of one service
  by_contra hne
  have hle := hM.owns_add_le (Ne.symm hne)
  have hboth : {.loop g' (.running id)} + {.loop g' (.running id)} ≤ M := by
    refine le_trans (add_le_add ?_ ?_) hle
    · exact b.cargo_callback g' id ▸ Threads.cargo_le_owns hc
    · exact b.cargo_callback g' id ▸ Threads.cargo_le_owns hc'
  obtain ⟨R, rfl⟩ := Multiset.le_iff_exists_add.mp hboth
  rw [add_assoc] at hinv
  exact hinv.loop_alone.2 (.running id) (by simp)

/-- A dormant timer stays silent until a start or a reset has made it run. -/
theorem dormant_steps {x : Nat} (hr : b.lts.Reachable s)
    (hd : Dispatcher.Dormant x (b.dispatcher g s)) (hs : b.lts.Steps s tr s') :
    (Dispatcher.Dormant x (b.dispatcher g s') ∧ ∀ l ∈ tr, b.eventAt g l ≠ .begin x) ∨
      ∃ a start c s₁ s₂ dl, tr = a ++ start :: c ∧ b.lts.Steps s a s₁ ∧
        b.lts.step s₁ start s₂ ∧ (b.eventAt g start).starts x = true ∧
        (b.dispatcher g s₂).registry.Runs x dl := by
  induction hs with
  | refl => exact .inl ⟨hd, by simp⟩
  | @snoc s₁ s₂ tr l hp hstep ih =>
    rcases ih with ⟨hd₁, hno⟩ | ⟨a, start, c, u, v, dl, rfl, hrest⟩
    · obtain ⟨hne, hd₂ | ⟨hstarts, dl, hruns⟩⟩ := hd₁.step (dispatch (hr.steps hp) hstep g)
      · refine .inl ⟨hd₂, fun l' hl' => ?_⟩
        rcases List.mem_append.mp hl' with hl' | hl'
        · exact hno l' hl'
        · exact List.mem_singleton.mp hl' ▸ hne
      · exact .inr ⟨tr, l, [], s₁, s₂, dl, rfl, hp, hstep, hstarts, hruns⟩
    · exact .inr ⟨a, start, c ++ [l], u, v, dl, by simp, hrest⟩

theorem quiet_steps (hr : b.lts.Reachable s) (hq : (b.view s.shared).Quiet)
    (hs : b.lts.Steps s tr s') (hno : ∀ l ∈ tr, b.event l ≠ .initialized) :
    (b.view s'.shared).Quiet := by
  obtain ⟨M, hM, hinv⟩ := inv hr
  obtain ⟨M', -, hsteps⟩ := b.follows hr hM hs
  refine machine_quiet hsteps hinv hq fun hmem => ?_
  obtain ⟨l, hl, he⟩ := List.mem_map.mp hmem
  exact hno l hl he

theorem dormant_of_quiet (hr : b.lts.Reachable s) (hq : (b.view s.shared).Quiet) (g x : Nat) :
    Dispatcher.Dormant x (b.dispatcher g s) := by
  refine ⟨wf hr g, ?_, ?_⟩
  · rintro dl ⟨state, ⟨e, he, -⟩, -⟩
    rw [dispatcher, World.dispatcher, hq.timers g] at he
    cases he
  · intro callback htaken
    rw [dispatcher, World.dispatcher, hq.hand g] at htaken
    cases htaken

end Implementation

/-! ## Bounded bypass -/

def Registry.others (r : Registry) (x : Nat) : List TimerEntry :=
  r.timers.filter fun e => !e.deleted && e.id != x

theorem Dispatcher.Ahead.mem_others {d : Dispatcher} {x y : Nat} {D : Duration}
    (h : d.Ahead x D y) (hwf : d.Wf) (hx : d.registry.Runs x D) :
    y ∈ (d.registry.others x).map (·.id) := by
  obtain ⟨dl, ⟨state, hstate, hdl⟩, hkey⟩ := h
  have hne : y ≠ x := by
    rintro rfl
    obtain ⟨state', hstate', hD⟩ := hx
    obtain rfl := hwf.distinct.state_unique hstate hstate'
    rw [hdl] at hD
    obtain rfl := Option.some.inj hD
    unfold Registry.KeyLt at hkey
    omega
  obtain ⟨e, he, hl, -⟩ := hstate
  obtain ⟨rfl, hlive⟩ := TimerEntry.live_iff.mp hl
  refine List.mem_map.mpr ⟨e, List.mem_filter.mpr ⟨he, ?_⟩, rfl⟩
  simp [hlive, hne]

/-- Bounded bypass. A scan has found the deadline `D` of the running timer `x` passed. As long as
nobody starts, resets, stops or deregisters `x`, the callbacks that begin before its own are those
of timers that were ahead of it at the scan, each at most once, so at most one for each other live
timer. -/
theorem dispatch_bounded_bypass (port : Port) (max : Nat) {s₀ s₁ s₂ : (port.backend max).State}
    {scan : (port.backend max).Step} {tr : List (port.backend max).Step} {g x : Nat} {D : Duration}
    (hr : (port.backend max).lts.Reachable s₀)
    (hx : ((port.backend max).dispatcher g s₀).registry.Runs x D)
    (hscan : (port.backend max).lts.step s₀ scan s₁)
    (hselect : (port.backend max).event scan = .service g .select)
    (hD : D ≤ ((port.backend max).dispatcher g s₁).now)
    (hs : (port.backend max).lts.Steps s₁ tr s₂)
    (hquiet : ∀ l ∈ tr, ((port.backend max).eventAt g l).starts x = false ∧
      ((port.backend max).eventAt g l).halts x = false)
    (hfresh : x ∉ Event.begun (tr.map ((port.backend max).eventAt g))) :
    (Event.begun (tr.map ((port.backend max).eventAt g))).Nodup ∧
    (∀ y ∈ Event.begun (tr.map ((port.backend max).eventAt g)),
      ∃ dl, ((port.backend max).dispatcher g s₀).registry.Runs y dl ∧
        Registry.KeyLt dl y D x) ∧
    (Event.begun (tr.map ((port.backend max).eventAt g))).length ≤
      (((port.backend max).dispatcher g s₀).registry.others x).length := by
  generalize port.backend max = b at *
  have hwf := b.wf hr g
  have hstep := b.dispatch hr hscan g
  have hevent : b.eventAt g scan = .select := by
    rw [Implementation.eventAt, hselect, Label.at, if_pos rfl]
  rw [hevent] at hstep
  have hsteps := b.dispatch_steps (hr.snoc hscan) hs g
  have hquiet' : ∀ ev ∈ tr.map (b.eventAt g), ev.starts x = false ∧ ev.halts x = false := by
    intro ev hev
    obtain ⟨l, hl, rfl⟩ := List.mem_map.mp hev
    exact hquiet l hl
  obtain ⟨hnodup, hahead⟩ := Dispatcher.bounded_bypass hwf hx hstep hD hsteps hquiet' hfresh
  refine ⟨hnodup, hahead, ?_⟩
  have hsub : Event.begun (tr.map (b.eventAt g)) ⊆
      ((b.dispatcher g s₀).registry.others x).map (·.id) :=
    fun y hy => Dispatcher.Ahead.mem_others (hahead y hy) hwf hx
  have hlength := (List.subperm_of_subset hnodup hsub).length_le
  rwa [List.length_map] at hlength

/-- Two timers are due at once: the first one is dispatched before the second, which it was ahead
of. -/
theorem dispatch_bounded_bypass_two :
    ∃ (s₀ s₁ s₂ : (Port.freeRtos.backend 2).State) (scan : (Port.freeRtos.backend 2).Step)
      (tr : List (Port.freeRtos.backend 2).Step),
      (Port.freeRtos.backend 2).lts.Reachable s₀ ∧ (Port.freeRtos.backend 2).lts.step s₀ scan s₁ ∧
      (Port.freeRtos.backend 2).lts.Steps s₁ tr s₂ ∧
      Event.begun (tr.map ((Port.freeRtos.backend 2).eventAt 0)) = [1] ∧
      [1].length ≤ (((Port.freeRtos.backend 2).dispatcher 0 s₀).registry.others 2).length := by
  obtain ⟨tr, h, -⟩ := FreeRtosBackend.run_twoTimers
  have h := h.snoc (.act (t := .worker 0) rfl (.worker rfl))
  have h := h.snoc (.act (t := .worker 0) rfl .run)
  have h := h.snoc (.lock (t := .worker 0) rfl rfl)
  have h := h.snoc (.act (t := .worker 0) rfl (.scan rfl))
  obtain ⟨hscan, h₁⟩ := h.extend (.act (t := .worker 0) rfl
    (@FreeRtosBackend.Performs.select _ _ _ _ FreeRtosBackend.nanosecond _ _ (by decide) rfl))
  obtain ⟨hunlock, h₂⟩ := h₁.extend (.unlock (t := .worker 0) rfl)
  obtain ⟨hbegin, -⟩ := h₂.extend (.act (t := .worker 0) rfl (.begin rfl))
  have hs := ((Lts.Steps.refl _).snoc hunlock).snoc hbegin
  refine ⟨_, _, _, _, _, h.reachable, hscan, hs, rfl, ?_⟩
  refine (dispatch_bounded_bypass .freeRtos 2 (x := 2) (D := FreeRtosBackend.nanosecond) h.reachable
    ⟨_, ⟨_, List.mem_cons_of_mem _ List.mem_cons_self, rfl, rfl⟩, rfl⟩ hscan rfl (Nat.le_refl _) hs
    (fun l hl => ?_) (by decide)).2.2
  rcases List.mem_append.mp hl with hl | hl
  · obtain rfl := List.mem_singleton.mp hl
    exact ⟨rfl, rfl⟩
  · obtain rfl := List.mem_singleton.mp hl
    exact ⟨rfl, rfl⟩

/-! ## Take, execute, restore -/

/-- Callbacks are conserved and timer states are not overwritten, after the steps `tr` that led to
`s`. -/
structure Implementation.Conserves (b : Implementation) (tr : List b.Step) (s : b.State) :
    Prop where
  /-- Identifiers are distinct and below the next one, live entries have their callbacks but the
  one that is out, and deleted entries have neither callback nor deadline. -/
  registry : ∀ g, (b.dispatcher g s).registry.Wf (b.dispatcher g s).hand.out
  /-- Taking a callback out does not fail. -/
  select : ∀ g now, ∃ selection r, (b.dispatcher g s).registry.select now = .ok (selection, r)
  /-- Restoring changes nothing but the callback of the timer's live entry. -/
  restore : ∀ g id l s', b.lts.step s l s' → b.event l = .service g (.restore id) →
    ∃ callback, (b.dispatcher g s).hand = .running id callback ∧
      b.dispatcher g s' =
        { b.dispatcher g s with
          registry := (b.dispatcher g s).registry.adjust id
            fun e => { e with callback := some callback }
          hand := .idle }
  /-- After a callback the timer's state is what the advance of the scan and then the requests
  served since have made of it. -/
  state : ∀ g id callback scan s₁ body s₂ last s₃, b.lts.step s scan s₁ →
    b.event scan = .service g .select → (b.dispatcher g s₁).hand = .taken id callback →
    b.lts.Steps s₁ body s₂ → (∀ l ∈ body, ∀ i, b.eventAt g l ≠ .restore i) →
    b.lts.step s₂ last s₃ → b.event last = .service g (.restore id) →
    ∀ state₃, (b.dispatcher g s₃).registry.HasState id state₃ →
    ∃ state ops, (b.dispatcher g s).registry.HasState id state ∧
      ops.map Prod.fst = Dispatcher.controls id (body.map (b.eventAt g)) ∧
      Dispatcher.Readings (b.dispatcher g s₁).now (b.dispatcher g s₃).now ops ∧
      state₃ = Dispatcher.replay (state.advanceOnExpiry (b.dispatcher g s₁).now).2 ops
  /-- A registered closure is kept by the service, owned by a thread that is going to drop it, or
  has been dropped once. -/
  dropped : ∀ g id, 0 < id → id < (b.dispatcher g s).registry.nextId →
    ∃ M, Threads.Estate b.cargo s.code M ∧
      ((b.view s.shared).services g).keeps id + tally (Token.departing g id) M +
        (tr.map b.event).count (.drop g id) = 1
  /-- No callback runs concurrently with itself, nor with another one. -/
  alone : ∀ t t' g g' id id', .act (b.callback g id) ∈ s.code t →
    .act (b.callback g' id') ∈ s.code t' → t = t' ∧ g = g' ∧ id = id'

section Conservation

variable {b : Implementation} {s s₁ s₂ s₃ : b.State} {g id : Nat}

theorem Implementation.restore_eq (hr : b.lts.Reachable s) {l : b.Step}
    (hs : b.lts.step s l s₁) (hl : b.event l = .service g (.restore id)) :
    ∃ callback, (b.dispatcher g s).hand = .running id callback ∧
      b.dispatcher g s₁ =
        { b.dispatcher g s with
          registry := (b.dispatcher g s).registry.adjust id
            fun e => { e with callback := some callback }
          hand := .idle } := by
  have hstep := b.dispatch hr hs g
  rw [Implementation.eventAt, hl, Label.at, if_pos rfl] at hstep
  exact (b.wf hr g).restore_eq hstep

theorem Implementation.state_of_replay (hr : b.lts.Reachable s) {scan last : b.Step}
    {body : List b.Step} {callback : Callback} (hscan : b.lts.step s scan s₁)
    (hselect : b.event scan = .service g .select)
    (hhand : (b.dispatcher g s₁).hand = .taken id callback) (hbody : b.lts.Steps s₁ body s₂)
    (hout : ∀ l ∈ body, ∀ i, b.eventAt g l ≠ .restore i) (hlast : b.lts.step s₂ last s₃)
    (hrestore : b.event last = .service g (.restore id)) {state₃ : TimerState}
    (hstate₃ : (b.dispatcher g s₃).registry.HasState id state₃) :
    ∃ state ops, (b.dispatcher g s).registry.HasState id state ∧
      ops.map Prod.fst = Dispatcher.controls id (body.map (b.eventAt g)) ∧
      Dispatcher.Readings (b.dispatcher g s₁).now (b.dispatcher g s₃).now ops ∧
      state₃ = Dispatcher.replay (state.advanceOnExpiry (b.dispatcher g s₁).now).2 ops := by
  have hr₁ := hr.snoc hscan
  have hstep := b.dispatch hr hscan g
  rw [Implementation.eventAt, hselect, Label.at, if_pos rfl] at hstep
  obtain ⟨state, hstate, hstate₁⟩ := (b.wf hr g).taken_state hstep hhand
  have hevent : b.eventAt g last = .restore id := by
    rw [Implementation.eventAt, hrestore, Label.at, if_pos rfl]
  have hbusy : ∀ ev ∈ body.map (b.eventAt g), ev ≠ .select := by
    refine (Dispatcher.Steps.busy (b.dispatch_steps hr₁ hbody g) (by simp [hhand]) ?_).2
    intro ev hev
    obtain ⟨l, hl, rfl⟩ := List.mem_map.mp hev
    exact hout l hl
  have hsteps := b.dispatch_steps hr₁ (hbody.snoc hlast) g
  rw [List.map_append, List.map_singleton, hevent] at hsteps
  have hscans : ∀ ev ∈ body.map (b.eventAt g) ++ [.restore id], ev ≠ .select := by
    intro ev hev
    rcases List.mem_append.mp hev with hev | hev
    · exact hbusy ev hev
    · simp [List.mem_singleton.mp hev]
  have hlt : id < (b.dispatcher g s₁).registry.nextId := by
    refine (b.wf hr₁ g).out_lt id ?_
    rw [hhand]
    rfl
  obtain ⟨state', ops, hstate', hops, hread, hreplay⟩ :=
    (b.wf hr₁ g).replay_steps hsteps hscans hlt hstate₃
  obtain rfl := (b.wf hr₁ g).distinct.state_unique hstate₁ hstate'
  refine ⟨state, ops, hstate, ?_, hread, hreplay⟩
  rw [hops, Dispatcher.controls, List.filterMap_append]
  simp

/-- Take-execute-restore, for both backends and every interleaving. -/
theorem callbacks_conserved (port : Port) (max : Nat) {tr : List (port.backend max).Step}
    {s : (port.backend max).State} (hr : (port.backend max).lts.Run tr s) :
    (port.backend max).Conserves tr s := by
  generalize port.backend max = b at *
  have hreach := hr.reachable
  refine ⟨b.wf hreach, fun g now => Registry.select_ok _ now, fun g id l s' => b.restore_eq hreach,
    ?_, ?_, fun t t' g g' id id' => b.callback_unique hreach⟩
  · intro g id callback scan s₁ body s₂ last s₃ hscan hselect hhand hbody hout hlast hrestore
      state₃ hstate₃
    exact b.state_of_replay hreach hscan hselect hhand hbody hout hlast hrestore hstate₃
  · intro g id hid hlt
    obtain ⟨M, hM, hrun⟩ := b.run hr
    refine ⟨M, hM, ?_⟩
    rw [machine_closures hrun hid]
    exact if_pos hlt

/-- The worker has taken the first timer's callback out and is executing it. -/
theorem callbacks_conserved_executing :
    ∃ tr s, (Port.freeRtos.backend 2).lts.Run tr s ∧
      (((Port.freeRtos.backend 2).dispatcher 0 s).hand = .running 1 ⟨[]⟩) ∧
      (Port.freeRtos.backend 2).Conserves tr s := by
  obtain ⟨tr, h, -⟩ := FreeRtosBackend.run_twoTimers
  have h := h.snoc (.act (t := .worker 0) rfl (.worker rfl))
  have h := h.snoc (.act (t := .worker 0) rfl .run)
  have h := h.snoc (.lock (t := .worker 0) rfl rfl)
  have h := h.snoc (.act (t := .worker 0) rfl (.scan rfl))
  have h := h.snoc (.act (t := .worker 0) rfl
    (@FreeRtosBackend.Performs.select _ _ _ _ FreeRtosBackend.nanosecond _ _ (by decide) rfl))
  have h := h.snoc (.unlock (t := .worker 0) rfl)
  have h := h.snoc (.act (t := .worker 0) rfl (.begin rfl))
  exact ⟨_, _, h, rfl, callbacks_conserved .freeRtos 2 h⟩

end Conservation

/-! ## Halted timers -/

/-- Once a stop or the drop of the last handle of a timer has returned successfully, and as long
as the timer is not started or reset afterwards, its callback does not begin. -/
def Implementation.HaltsBegins (b : Implementation) (tr : List b.Step) : Prop :=
  ∀ before t g q x after, tr = before ++ (t, .act (b.returned g q true)) :: after →
    q.halts x = true → (∀ l ∈ after, (b.eventAt g l).starts x = false) →
    ∀ l ∈ after, b.eventAt g l ≠ .begin x

/-- When the stop or the drop returns, the worker does not hold the callback, taken out and not
entered yet, and no overlapping call has set the timer running again. -/
def Implementation.Halted (b : Implementation) (s : b.State) (l : b.Step) (_ : b.State) : Prop :=
  ∀ t g q x, l = (t, .act (b.returned g q true)) → q.halts x = true →
    (∀ callback, (b.dispatcher g s).hand ≠ .taken x callback) ∧
      ∀ dl, ¬ (b.dispatcher g s).registry.Runs x dl

theorem halted_timer_silent (port : Port) (max : Nat) {tr : List (port.backend max).Step}
    {s : (port.backend max).State}
    (hr : ((port.backend max).lts.restrict (port.backend max).Halted).Run tr s) :
    (port.backend max).HaltsBegins tr := by
  generalize port.backend max = b at *
  rintro before t g q x after rfl hq hquiet l hl
  obtain ⟨s₁, s₂, hrun, ⟨hstep, hhalted⟩, hafter⟩ := hr.split
  have hr₁ := Lts.restrict_reachable hrun.reachable
  obtain ⟨huntaken, hstopped⟩ := hhalted t g q x rfl hq
  have hdormant : Dispatcher.Dormant x (b.dispatcher g s₁) := ⟨b.wf hr₁ g, hstopped, huntaken⟩
  have hreturn : b.eventAt g (t, .act (b.returned g q true)) = .tick := by
    rw [Implementation.eventAt, b.event_returned]
    rfl
  obtain ⟨-, hdormant₂ | ⟨hstarts, -⟩⟩ := hdormant.step (b.dispatch hr₁ hstep g)
  · rcases b.dormant_steps (hr₁.snoc hstep) hdormant₂ (Lts.restrict_steps hafter) with
      ⟨-, hno⟩ | ⟨a, start, c, -, -, -, rfl, -, -, hstarts, -⟩
    · exact hno l hl
    · rw [hquiet start (by simp)] at hstarts
      cases hstarts
  · rw [hreturn] at hstarts
    cases hstarts

theorem Implementation.restrict_run {b : Implementation} {tr : List b.Step} {s : b.State}
    (hr : b.lts.Run tr s)
    (hun : ∀ t g q x, (t, .act (b.returned g q true)) ∈ tr → q.halts x = false) :
    (b.lts.restrict b.Halted).Run tr s := by
  obtain ⟨s₀, h0, hs⟩ := hr
  refine ⟨s₀, h0, ?_⟩
  induction hs with
  | refl => exact .refl _
  | @snoc s₁ s₂ tr l hp hstep ih =>
    refine (ih fun t g q x hmem => hun t g q x (List.mem_append_left _ hmem)).snoc ⟨hstep, ?_⟩
    rintro t g q x rfl hq
    rw [hun t g q x (by simp)] at hq
    cases hq

/-- The first of two started timers is stopped while the worker exists. -/
theorem halted_timer_silent_stopped :
    ∃ tr tr' s, (Port.freeRtos.backend 2).lts.Run tr
        (FreeRtosBackend.resting FreeRtosBackend.twoTimers) ∧
      (∃ dl, ((Port.freeRtos.backend 2).dispatcher 0
        (FreeRtosBackend.resting FreeRtosBackend.twoTimers)).registry.Runs 1 dl) ∧
      (FreeRtosBackend.twoTimers.service 0).created = true ∧
      ((Port.freeRtos.backend 2).lts.restrict (Port.freeRtos.backend 2).Halted).Run
        (tr ++ tr' ++ [(.task 0, .act (.returned 0 (.stop 1) true))]) s ∧
      (Port.freeRtos.backend 2).HaltsBegins
        (tr ++ tr' ++ [(.task 0, .act (.returned 0 (.stop 1) true))]) := by
  obtain ⟨tr, h, hun⟩ := FreeRtosBackend.run_twoTimers
  have hr := Implementation.restrict_run (b := Port.freeRtos.backend 2) h
    fun t g q x hmem => hun t g q true x hmem
  have hstop : Handles.Calls [] FreeRtosBackend.twoTimers.handles (.request (.stop 1))
      FreeRtosBackend.twoTimers.handles := .stop (.inl (by decide))
  have hsteps : ((Port.freeRtos.backend 2).lts.restrict (Port.freeRtos.backend 2).Halted).Steps
      (FreeRtosBackend.resting FreeRtosBackend.twoTimers) [] _ := .refl _
  have hsteps := hsteps.snoc ⟨.act (t := .task 0) rfl (.application hstop), nofun⟩
  have hsteps := hsteps.snoc ⟨.lock (t := .task 0) rfl rfl, nofun⟩
  have hsteps := hsteps.snoc ⟨.act (t := .task 0) rfl (.extract rfl), nofun⟩
  have hsteps := hsteps.snoc ⟨.unlock (t := .task 0) rfl, nofun⟩
  have hsteps := hsteps.snoc ⟨.lock (t := .task 0) rfl rfl, nofun⟩
  have hsteps := hsteps.snoc ⟨.act (t := .task 0) rfl (.request true), nofun⟩
  have hsteps := hsteps.snoc ⟨.act (t := .task 0) rfl (.serve (Nat.le_refl _)), nofun⟩
  have hsteps := hsteps.snoc ⟨.act (t := .task 0) rfl .signalWake, nofun⟩
  have hsteps := hsteps.snoc ⟨.unlock (t := .task 0) rfl, nofun⟩
  have hsteps := hsteps.snoc ⟨.act (t := .task 0) rfl (.dropService (by decide)), nofun⟩
  have hstopped := (hr.steps hsteps).snoc ⟨.act (t := .task 0) rfl .returned, ?_⟩
  · exact ⟨tr, _, _, h, ⟨_, _, ⟨_, List.mem_cons_self, rfl, rfl⟩, rfl⟩, rfl, hstopped,
      halted_timer_silent .freeRtos 2 hstopped⟩
  · rintro t g q x hl hq
    cases hl
    obtain rfl : 1 = x := by simpa [Request.halts] using hq
    refine ⟨fun callback hhand => ?_, ?_⟩
    · cases hhand
    · rintro dl ⟨state, ⟨e, he, hlive, rfl⟩, hdl⟩
      rcases List.mem_cons.mp he with rfl | he
      · cases hdl
      · obtain rfl := List.mem_singleton.mp he
        cases hlive

theorem Implementation.not_haltsBegins (b : Implementation) {tr : List b.Step} {t : b.Thread}
    {g x : Nat} {q : Request} {e : b.Step} (hq : q.halts x = true)
    (he : b.eventAt g e = .begin x) :
    ¬ b.HaltsBegins (tr ++ [(t, .act (b.returned g q true))] ++ [e]) := by
  intro hhalts
  refine hhalts tr t g q x [e] (List.append_assoc _ _ _) hq (fun l hl => ?_) e
    List.mem_cons_self he
  rw [List.mem_singleton.mp hl, he]
  rfl

/-- The worker has taken a callback out and released its mutex; the timer is stopped by the
application, and the callback begins after the stop has returned. -/
theorem halted_timer_begins :
    (∃ tr s, (Port.freeRtos.backend 2).lts.Run tr s ∧
      ¬ (Port.freeRtos.backend 2).HaltsBegins tr) ∧
    ∃ tr s, (Port.posix.backend 2).lts.Run tr s ∧ ¬ (Port.posix.backend 2).HaltsBegins tr := by
  constructor
  · obtain ⟨tr, h, -⟩ := FreeRtosBackend.run_twoTimers
    have h := h.snoc (.act (t := .worker 0) rfl (.worker rfl))
    have h := h.snoc (.act (t := .worker 0) rfl .run)
    have h := h.snoc (.lock (t := .worker 0) rfl rfl)
    have h := h.snoc (.act (t := .worker 0) rfl (.scan rfl))
    have h := h.snoc (.act (t := .worker 0) rfl
      (@FreeRtosBackend.Performs.select _ _ _ _ FreeRtosBackend.nanosecond _ _ (by decide) rfl))
    have h := h.snoc (.unlock (t := .worker 0) rfl)
    have hstop : Handles.Calls [] FreeRtosBackend.twoTimers.handles (.request (.stop 1))
        FreeRtosBackend.twoTimers.handles := .stop (.inl (by decide))
    have h := h.snoc (.act (t := .task 0) rfl (.application hstop))
    have h := h.snoc (.lock (t := .task 0) rfl rfl)
    have h := h.snoc (.act (t := .task 0) rfl (.extract rfl))
    have h := h.snoc (.unlock (t := .task 0) rfl)
    have h := h.snoc (.lock (t := .task 0) rfl rfl)
    have h := h.snoc (.act (t := .task 0) rfl (.request true))
    have h := h.snoc (.act (t := .task 0) rfl (.serve (Nat.le_refl _)))
    have h := h.snoc (.act (t := .task 0) rfl .signalWake)
    have h := h.snoc (.unlock (t := .task 0) rfl)
    have h := h.snoc (.act (t := .task 0) rfl (.dropService (by decide)))
    have h := h.snoc (.act (t := .task 0) rfl .returned)
    have h := h.snoc (.act (t := .worker 0) rfl (.begin rfl))
    exact ⟨_, _, h, (Port.freeRtos.backend 2).not_haltsBegins (x := 1) rfl rfl⟩
  · obtain ⟨tr, h⟩ := PosixBackend.run_oneTimer
    have h := h.snoc (.act (t := .worker 0) rfl (.worker rfl))
    have h := h.snoc (.act (t := .worker 0) rfl .run)
    have h := h.snoc (.lock (t := .worker 0) rfl rfl)
    have h := h.snoc (.act (t := .worker 0) rfl (.goOn rfl))
    have h := h.snoc (.act (t := .worker 0) rfl .scan)
    have h := h.snoc (.act (t := .worker 0) rfl
      (@PosixBackend.Performs.inspect _ _ _ _ PosixBackend.nanosecond (by decide)))
    have h := h.snoc (.unlock (t := .worker 0) rfl)
    have h := h.snoc (.lock (t := .worker 0) rfl rfl)
    have h := h.snoc (.act (t := .worker 0) rfl (.select (Nat.le_refl _) rfl))
    have h := h.snoc (.unlock (t := .worker 0) rfl)
    have hstop : Handles.Calls [] PosixBackend.oneTimer.handles (.request (.stop 1))
        PosixBackend.oneTimer.handles := .stop (.inl (by decide))
    have h := h.snoc (.act (t := .application 0) rfl (.application hstop))
    have h := h.snoc (.act (t := .application 0) rfl (.withControl _))
    have h := h.snoc (.lock (t := .application 0) rfl rfl)
    have h := h.snoc (.act (t := .application 0) rfl (.lookUp rfl))
    have h := h.snoc (.lock (t := .application 0) rfl rfl)
    have h := h.snoc (.act (t := .application 0) rfl (.serve (Nat.le_refl _)))
    have h := h.snoc (.unlock (t := .application 0) rfl)
    have h := h.snoc (.unlock (t := .application 0) rfl)
    have h := h.snoc (.act (t := .application 0) rfl .returned)
    have h := h.snoc (.act (t := .worker 0) rfl (.begin rfl))
    exact ⟨_, _, h, (Port.posix.backend 2).not_haltsBegins (x := 1) rfl rfl⟩

/-! ## Shutting down -/

section Shutdown

variable {b : Implementation} {tr mid : List b.Step} {l e : b.Step} {s : b.State} {g id : Nat}

theorem Implementation.quiet_of_shut (hr : b.lts.Run (tr ++ [l]) s) (hl : b.event l = .shut) :
    (b.view s.shared).Quiet ∧ (∀ t g id, .act (b.callback g id) ∉ s.code t) ∧
      ∀ g id, 0 < id → id < (b.dispatcher g s).registry.nextId →
        ((tr ++ [l]).map b.event).count (.drop g id) = 1 := by
  obtain ⟨M, hM, hrun⟩ := b.run hr
  rw [List.map_append, List.map_singleton, hl] at hrun
  obtain ⟨hquiet, hdropped⟩ := machine_shut hrun
  refine ⟨hquiet, fun t g id hmem => ?_, fun g id hid hlt => ?_⟩
  · have htoken : .loop g (.running id) ∈ M := hM.mem_of_act hmem (by simp [b.cargo_callback])
    obtain ⟨callback, hhand⟩ := (machine_inv hrun).activity _ _ htoken
    rw [hquiet.hand g] at hhand
    cases hhand
  · rw [List.map_append, List.map_singleton, hl]
    exact hdropped g id hid hlt

theorem Implementation.begins_after_shut (hr : b.lts.Run (tr ++ l :: (mid ++ [e])) s)
    (hl : b.event l = .shut) (he : b.event e = .service g (.begin id)) :
    ∃ a i c start d s₁ s₂ dl, mid = a ++ i :: (c ++ start :: d) ∧ b.event i = .initialized ∧
      b.lts.Run (tr ++ l :: (a ++ i :: c)) s₁ ∧ b.lts.step s₁ start s₂ ∧
      (b.eventAt g start).starts id = true ∧ (b.dispatcher g s₂).registry.Runs id dl := by
  obtain ⟨s₀, s₁, hrun, hstep, htail⟩ := hr.split
  have hr₁ := (hrun.snoc hstep).reachable
  have hq₁ := (b.quiet_of_shut (hrun.snoc hstep) hl).1
  obtain ⟨s₂, s₃, hmid, hbegin, -⟩ := htail.split
  have hevent : b.eventAt g e = .begin id := by
    rw [Implementation.eventAt, he, Label.at, if_pos rfl]
  have htaken := b.dispatch (hr₁.steps hmid) hbegin g
  rw [hevent] at htaken
  obtain ⟨callback, hhand⟩ := htaken.taken_of_begin
  by_cases hinit : .initialized ∈ mid.map b.event
  · obtain ⟨a, i, c, rfl, hi, hfirst⟩ : ∃ a i c, mid = a ++ i :: c ∧ b.event i = .initialized ∧
        ∀ l ∈ a, b.event l ≠ .initialized := by
      obtain ⟨first, last, hsplit, hno⟩ := List.eq_append_cons_of_mem hinit
      obtain ⟨a, rest, rfl, rfl, hrest⟩ := List.map_eq_append_iff.mp hsplit
      obtain ⟨i, c, rfl, hi, -⟩ := List.map_eq_cons_iff.mp hrest
      exact ⟨a, i, c, rfl, hi, fun l hl' he' => hno (he' ▸ List.mem_map_of_mem hl')⟩
    obtain ⟨s₄, s₅, ha, hready, hc⟩ := hmid.split
    have hr₄ := hr₁.steps ha
    have hq₄ := b.quiet_steps hr₁ hq₁ ha hfirst
    have htick : b.eventAt g i = .tick := by
      rw [Implementation.eventAt, hi]
      rfl
    obtain ⟨-, hd₅ | ⟨hstarts, -⟩⟩ :=
      (b.dormant_of_quiet hr₄ hq₄ g id).step (b.dispatch hr₄ hready g)
    · rcases b.dormant_steps (hr₄.snoc hready) hd₅ hc with
        ⟨hd₂, -⟩ | ⟨c, start, d, u, v, dl, rfl, hsteps, hstart, hstarts, hruns⟩
      · exact absurd hhand (hd₂.untaken callback)
      · refine ⟨a, i, c, start, d, u, v, dl, rfl, hi, ?_, hstart, hstarts, hruns⟩
        have hrun' := (((hrun.snoc hstep).steps ha).snoc hready).steps hsteps
        simpa using hrun'
    · rw [htick] at hstarts
      cases hstarts
  · have hno : ∀ l ∈ mid, b.event l ≠ .initialized := fun l hl' hi =>
      hinit (List.mem_map.mpr ⟨l, hl', hi⟩)
    have hq₂ := b.quiet_steps hr₁ hq₁ hmid hno
    exact absurd hhand ((b.dormant_of_quiet (hr₁.steps hmid) hq₂ g id).untaken callback)

/-- Shutdown quiesces the timer service, in every run of either backend and any number of cycles.
When `shutdown` has returned no callback is being executed and every closure registered before has
been dropped, once; no callback begins until a later `initialize` has returned and its timer has
been started; and no two callbacks are ever executed at the same time. -/
theorem shutdown_quiesces (port : Port) (max : Nat) :
    (∀ tr l s, (port.backend max).lts.Run (tr ++ [l]) s → (port.backend max).event l = .shut →
      (∀ t g id, .act ((port.backend max).callback g id) ∉ s.code t) ∧
      ∀ g id, 0 < id → id < ((port.backend max).dispatcher g s).registry.nextId →
        ((tr ++ [l]).map (port.backend max).event).count (.drop g id) = 1) ∧
    (∀ tr l mid e s g id, (port.backend max).lts.Run (tr ++ l :: (mid ++ [e])) s →
      (port.backend max).event l = .shut →
      (port.backend max).event e = .service g (.begin id) →
      ∃ a i c start d s₁ s₂ dl, mid = a ++ i :: (c ++ start :: d) ∧
        (port.backend max).event i = .initialized ∧
        (port.backend max).lts.Run (tr ++ l :: (a ++ i :: c)) s₁ ∧
        (port.backend max).lts.step s₁ start s₂ ∧
        ((port.backend max).eventAt g start).starts id = true ∧
        ((port.backend max).dispatcher g s₂).registry.Runs id dl) ∧
    ∀ s t t' g g' id id', (port.backend max).lts.Reachable s →
      .act ((port.backend max).callback g id) ∈ s.code t →
      .act ((port.backend max).callback g' id') ∈ s.code t' → t = t' ∧ g = g' ∧ id = id' := by
  refine ⟨fun tr l s hr hl => ?_, fun tr l mid e s g id hr hl he => ?_,
    fun s t t' g g' id id' hr hc hc' => ?_⟩
  · exact ((port.backend max).quiet_of_shut hr hl).2
  · exact Implementation.begins_after_shut hr hl he
  · exact Implementation.callback_unique hr hc hc'

/-- One timer is created and dropped, and the runtime shut down. -/
theorem shutdown_quiesces_dropped :
    ∃ tr l s, (Port.freeRtos.backend 2).lts.Run (tr ++ [l]) s ∧
      (Port.freeRtos.backend 2).event l = .shut ∧
      ((tr ++ [l]).map (Port.freeRtos.backend 2).event).count (.drop 0 1) = 1 := by
  obtain ⟨tr, h, -⟩ := FreeRtosBackend.run_oneTimer
  have hdrop : Handles.Calls [] FreeRtosBackend.oneTimer.handles (.dropHandle 1)
      (FreeRtosBackend.oneTimer.handles.give 1) := .drop (by decide)
  have h := h.snoc (.act (t := .task 0) rfl (.application hdrop))
  have h := h.snoc (.act (t := .task 0) rfl (.dropLast rfl))
  have h := h.snoc (.lock (t := .task 0) rfl rfl)
  have h := h.snoc (.act (t := .task 0) rfl (.extract rfl))
  have h := h.snoc (.unlock (t := .task 0) rfl)
  have h := h.snoc (.lock (t := .task 0) rfl rfl)
  have h := h.snoc (.act (t := .task 0) rfl (.request true))
  have h := h.snoc (.act (t := .task 0) rfl (.serve (Nat.le_refl _)))
  have h := h.snoc (.act (t := .task 0) rfl .signalWake)
  have h := h.snoc (.unlock (t := .task 0) rfl)
  have h := h.snoc (.act (t := .task 0) rfl (.dropService (by decide)))
  have h := h.snoc (.act (t := .task 0) rfl .dropRemoved)
  have h := h.snoc (.act (t := .task 0) rfl (.dropLease rfl))
  have h := h.snoc (.act (t := .task 0) rfl .returned)
  have h := h.snoc (.act (t := .task 0) rfl (.applicationCalls .shutdownRuntime))
  have h := h.snoc (.act (t := .task 0) rfl (.beginShutdown rfl))
  have h := h.snoc (.lock (t := .task 0) rfl rfl)
  have h := h.snoc (.act (t := .task 0) rfl (.preflight rfl))
  have h := h.snoc (.unlock (t := .task 0) rfl)
  have h := h.snoc (.act (t := .task 0) rfl .checkScheduler)
  have h := h.snoc (.lock (t := .task 0) rfl rfl)
  have h := h.snoc (.act (t := .task 0) rfl (.stop rfl (by simp)))
  have h := h.snoc (.lock (t := .task 0) rfl rfl)
  have h := h.snoc (.act (t := .task 0) rfl (.checkTimers rfl))
  have h := h.snoc (.act (t := .task 0) rfl .requestStop)
  have h := h.snoc (.act (t := .task 0) rfl .signalWake)
  have h := h.snoc (.unlock (t := .task 0) rfl)
  have h := h.snoc (.act (t := .task 0) rfl (.stopping rfl))
  have h := h.snoc (.unlock (t := .task 0) rfl)
  have h := h.snoc (.act (t := .task 0) rfl (.awaitCompletion (by simp)))
  have h := h.snoc (.act (t := .task 0) rfl (.dropService (by decide)))
  have h := h.snoc (.lock (t := .task 0) rfl rfl)
  have h := h.snoc (.act (t := .task 0) rfl (.cleanUp rfl))
  have h := h.snoc (.act (t := .task 0) rfl (.destroy rfl))
  have h := h.snoc (.unlock (t := .task 0) rfl)
  have h := h.snoc (.act (t := .task 0) rfl .clearCapabilities)
  have h := h.snoc (.act (t := .task 0) rfl (.commitShutdown rfl))
  refine ⟨_, _, _, h, rfl, ?_⟩
  exact ((shutdown_quiesces .freeRtos 2).1 _ _ _ h rfl).2 0 1 (by decide) (by decide)

end Shutdown

end OsalRust.Timer
