import OsalRust.Framework.Lts
import OsalRust.Timer.RegistryInvariant

/-!
# Dispatching

A timer service seen from its registry: what the callers' requests and the worker do to the
entries, and what the worker has in hand. This is the machine that both backends run under
their locks. It knows no threads; the requests come in any order.

Three results are proved of it once and used for both backends: which entries a step leaves and
how their states move, that a due timer is bypassed at most once by each timer ahead of it, and
that a stopped timer whose callback has not been taken out does not begin.
-/

namespace OsalRust.Timer

open OsalRust OsalRust.Framework

/-- The callback that the worker has taken out: selected but not entered yet, or entered. -/
inductive Hand where
  | idle
  | taken (id : Nat) (callback : Callback)
  | running (id : Nat) (callback : Callback)
  deriving DecidableEq

def Hand.out : Hand → Option Nat
  | .idle => none
  | .taken id _ | .running id _ => some id

structure Dispatcher where
  registry : Registry
  hand : Hand
  now : Duration

/-- `halt` is the stop request of a shutdown, `release` the drop of a reference to the service,
and `tick` a reading of the clock elsewhere. -/
inductive Event where
  | serve (q : Request) (reserved : Bool)
  | purge
  | select
  | begin (id : Nat)
  | adapt
  | restore (id : Nat)
  | halt
  | release
  | tick
  deriving DecidableEq

namespace Dispatcher

inductive Step : Dispatcher → Event → Dispatcher → Prop
  | serve {d : Dispatcher} {q : Request} {reserved : Bool} {now : Duration} : d.now ≤ now →
      Step d (.serve q reserved) { d with registry := (d.registry.serve now reserved q).2, now }
  | purge {d : Dispatcher} : Step d .purge { d with registry := d.registry.retain.2 }
  | select {d : Dispatcher} {now : Duration} {id : Nat} {callback : Callback} {r : Registry} :
      d.hand = .idle → d.now ≤ now → d.registry.select now = .ok (.dispatch id callback, r) →
      Step d .select { registry := r, hand := .taken id callback, now }
  | selectNone {d : Dispatcher} {now : Duration} {selection : Registry.Selection} {r : Registry} :
      d.hand = .idle → d.now ≤ now → d.registry.select now = .ok (selection, r) →
      (∀ id callback, selection ≠ .dispatch id callback) →
      Step d .select { d with registry := r, now }
  | begin {d : Dispatcher} {id : Nat} {callback : Callback} : d.hand = .taken id callback →
      Step d (.begin id) { d with hand := .running id callback }
  | adapt {d : Dispatcher} {id : Nat} {callback callback' : Callback} :
      d.hand = .running id callback → Step d .adapt { d with hand := .running id callback' }
  | restore {d : Dispatcher} {id : Nat} {callback : Callback} : d.hand = .running id callback →
      Step d (.restore id)
        { d with registry := (d.registry.restore id callback).2, hand := .idle }
  | halt {d : Dispatcher} :
      Step d .halt { d with registry := { d.registry with stopRequested := true } }
  | release {d : Dispatcher} : Step d .release d
  | destroy {d : Dispatcher} : (∀ e ∈ d.registry.timers, e.deleted = true) →
      Step d .release { d with registry := { d.registry with timers := [] } }
  | tick {d : Dispatcher} {now : Duration} : d.now ≤ now → Step d .tick { d with now }

def Wf (d : Dispatcher) : Prop := d.registry.Wf d.hand.out

def lts : Lts Dispatcher Event where
  init d := d.registry = Registry.new ∧ d.hand = .idle
  step := Step

variable {d d' d₁ : Dispatcher} {ev : Event} {x : Nat}

theorem Wf.step (h : d.Wf) (hs : Step d ev d') : d'.Wf := by
  cases hs with
  | @serve q reserved now hnow => exact Registry.Wf.serve h now reserved q
  | purge => exact Registry.Wf.retain h
  | select hidle hnow hsel =>
    rw [Wf, hidle] at h
    rcases Registry.Wf.select_cases h hsel with ⟨hno, -, -⟩ | ⟨e, he, cb, dl, -, -, -, -, hsel', hr, -⟩
    · cases hno
    · cases hsel'
      rw [hr]
      exact Registry.Wf.takenOut h he
  | selectNone hidle hnow hsel hnone =>
    have h' := h
    rw [Wf, hidle] at h'
    rcases Registry.Wf.select_cases h' hsel with ⟨-, rfl, -⟩ | ⟨e, he, cb, dl, -, -, -, -, hsel', -, -⟩
    · exact h
    · exact absurd hsel' (hnone _ _)
  | begin hhand =>
    rw [Wf, hhand] at h
    exact h
  | adapt hhand =>
    rw [Wf, hhand] at h
    exact h
  | restore hhand =>
    rw [Wf, hhand] at h
    exact Registry.Wf.restore h
  | halt => exact Registry.Wf.halt h
  | release => exact h
  | destroy => exact Registry.Wf.clear h
  | tick => exact h

theorem Wf.steps {tr : List Event} (h : d.Wf) (hs : lts.Steps d tr d') : d'.Wf := by
  induction hs with
  | refl => exact h
  | snoc _ hstep ih => exact ih.step hstep

theorem Step.now_le (hs : Step d ev d') : d.now ≤ d'.now := by
  cases hs with
  | serve h | select _ h | selectNone _ h | tick h => exact h
  | purge | begin | adapt | restore | halt | release | destroy => exact Nat.le_refl _

theorem Step.taken_of_begin {id : Nat} (hs : Step d (.begin id) d') :
    ∃ callback, d.hand = .taken id callback := by
  cases hs with
  | begin hhand => exact ⟨_, hhand⟩

/-! ## What a step does to the timers -/

end Dispatcher

/-- The request starts the timer, or moves its deadline. -/
def Request.starts (id : Nat) : Request → Bool
  | .start i | .reset i => i == id
  | _ => false

/-- The request stops the timer for good or until it is started again. -/
def Request.halts (id : Nat) : Request → Bool
  | .stop i | .deregister i => i == id
  | _ => false

namespace Event

def starts (id : Nat) : Event → Bool
  | .serve q _ => q.starts id
  | _ => false

def halts (id : Nat) : Event → Bool
  | .serve q _ => q.halts id
  | _ => false

def begun : List Event → List Nat :=
  List.filterMap fun
    | .begin id => some id
    | _ => none

@[simp] theorem begun_nil : begun [] = [] := rfl

@[simp] theorem begun_append (tr tr' : List Event) : begun (tr ++ tr') = begun tr ++ begun tr' :=
  List.filterMap_append

end Event

theorem Request.deadline_of_control {q : Request} {id : Nat} {now dl : Duration}
    {state : TimerState} (hq : q.target = some id)
    (h : (q.control now state).deadline = some dl) :
    state.deadline = some dl ∨ (now < dl ∧ q.starts id = true) := by
  cases q with
  | register => cases hq
  | start i =>
    obtain rfl := Option.some.inj hq
    rcases state.start_cases now with he | ⟨d, hlt, he⟩
    · exact .inl (by rwa [control, he] at h)
    · rw [control, he] at h
      obtain rfl := Option.some.inj h
      exact .inr ⟨hlt, by simp [starts]⟩
  | reset i =>
    obtain rfl := Option.some.inj hq
    rcases state.start_cases now with he | ⟨d, hlt, he⟩
    · exact .inl (by rwa [control, TimerState.reset_eq_start, he] at h)
    · rw [control, TimerState.reset_eq_start, he] at h
      obtain rfl := Option.some.inj h
      exact .inr ⟨hlt, by simp [starts]⟩
  | stop i => cases h
  | changePeriod i newPeriod => exact .inl (by simpa [control] using h)
  | deregister i => cases h

theorem Request.control_deadline_of_untouched {q : Request} {id : Nat} (now : Duration)
    (state : TimerState) (hq : q.target = some id) (hs : q.starts id = false)
    (hh : q.halts id = false) : (q.control now state).deadline = state.deadline := by
  cases q with
  | register => rfl
  | changePeriod i newPeriod => simp [control]
  | start i | reset i =>
    obtain rfl := Option.some.inj hq
    simp [starts] at hs
  | stop i | deregister i =>
    obtain rfl := Option.some.inj hq
    simp [halts] at hh

namespace Dispatcher

variable {d d' d₀ d₁ d₂ : Dispatcher} {ev : Event} {tr : List Event} {x : Nat} {D : Duration}

/-- What a step with the event `ev` did to the live timer `z`: its request was served, it was
taken out for dispatch, or its state is as it was. -/
inductive Moved (d : Dispatcher) (ev : Event) (d' : Dispatcher) (z : Nat) (state : TimerState) :
    TimerState → Prop
  | served {q : Request} {reserved : Bool} : ev = .serve q reserved → q.target = some z →
      q ≠ .deregister z → Moved d ev d' z state (q.control d'.now state)
  | taken {callback : Callback} : ev = .select → d.hand = .idle → d'.hand = .taken z callback →
      (state.advanceOnExpiry d'.now).1 = true →
      Moved d ev d' z state (state.advanceOnExpiry d'.now).2
  | same : (∀ q reserved, ev = .serve q reserved → q.target ≠ some z) →
      (∀ callback, d'.hand = .taken z callback → d.hand = .taken z callback) →
      Moved d ev d' z state state

/-- A selection finds that nothing has expired, or takes out the callback of the expired timer
with the least key. -/
theorem Wf.select_cases (h : d.Wf) (hs : Step d .select d') :
    d.hand = .idle ∧
    ((d'.hand = .idle ∧ d'.registry = d.registry ∧
        ∀ z dl, d.registry.Runs z dl → d'.now < dl) ∨
      ∃ e ∈ d.registry.timers, ∃ callback dl, e.deleted = false ∧ e.callback = some callback ∧
        e.state.deadline = some dl ∧ dl ≤ d'.now ∧ d'.hand = .taken e.id callback ∧
        d'.registry = d.registry.adjust e.id (Registry.takenOut d'.now) ∧
        ∀ z dl', d.registry.Runs z dl' → ¬ Registry.KeyLt dl' z dl e.id) := by
  have hruns : ∀ {z dl}, d.registry.Runs z dl →
      ∃ e ∈ d.registry.timers, e.id = z ∧ e.deleted = false ∧ e.state.deadline = some dl := by
    rintro z dl ⟨state, ⟨e, he, hl, rfl⟩, hdl⟩
    exact ⟨e, he, (TimerEntry.live_iff.mp hl).1, (TimerEntry.live_iff.mp hl).2, hdl⟩
  cases hs with
  | select hidle hnow hsel =>
    rw [Wf, hidle] at h
    rcases Registry.Wf.select_cases h hsel with
      ⟨hno, -, -⟩ | ⟨e, he, cb, dl, hd, hcb, hdl, hle, hsel', hr, hmin⟩
    · cases hno
    · cases hsel'
      refine ⟨hidle, .inr ⟨e, he, _, dl, hd, hcb, hdl, hle, rfl, hr, ?_⟩⟩
      intro z dl' hz
      obtain ⟨e', he', rfl, hd', hdl'⟩ := hruns hz
      exact hmin e' he' hd' dl' hdl'
  | selectNone hidle hnow hsel hnone =>
    rw [Wf, hidle] at h
    rcases Registry.Wf.select_cases h hsel with
      ⟨-, rfl, hlate⟩ | ⟨e, he, cb, dl, -, -, -, -, hsel', -, -⟩
    · refine ⟨hidle, .inl ⟨hidle, rfl, ?_⟩⟩
      intro z dl hz
      obtain ⟨e', he', rfl, hd', hdl'⟩ := hruns hz
      exact hlate e' he' hd' dl hdl'
    · exact absurd hsel' (hnone _ _)

private theorem advanceOnExpiry_fst {state : TimerState} {now dl : Duration}
    (hdl : state.deadline = some dl) (hle : dl ≤ now) : (state.advanceOnExpiry now).1 = true := by
  simp only [TimerState.advanceOnExpiry, hdl, hle, if_true]
  split
  · rfl
  · split <;> rfl

private theorem registry_of_quiet (hs : Step d ev d') (hserve : ∀ q reserved, ev ≠ .serve q reserved)
    (hselect : ev ≠ .select) (h : d.Wf) {z : Nat} {state : TimerState} :
    (d'.registry.HasState z state ↔ d.registry.HasState z state) ∧
      ∀ callback, d'.hand = .taken z callback → d.hand = .taken z callback := by
  cases hs with
  | serve => exact absurd rfl (hserve _ _)
  | select | selectNone => exact absurd rfl hselect
  | purge => exact ⟨Registry.hasState_retain, fun _ hd => hd⟩
  | begin hhand | adapt hhand =>
    refine ⟨Iff.rfl, fun _ hd => ?_⟩
    cases hd
  | restore hhand =>
    rw [Wf, hhand] at h
    refine ⟨Registry.Wf.hasState_restore h, fun _ hd => ?_⟩
    cases hd
  | halt => exact ⟨Iff.rfl, fun _ hd => hd⟩
  | release => exact ⟨Iff.rfl, fun _ hd => hd⟩
  | destroy hall =>
    refine ⟨⟨?_, ?_⟩, fun _ hd => hd⟩
    · rintro ⟨e, he, -⟩
      cases he
    · rintro ⟨e, he, hl, -⟩
      have hdel := hall e he
      rw [(TimerEntry.live_iff.mp hl).2] at hdel
      cases hdel
  | tick => exact ⟨Iff.rfl, fun _ hd => hd⟩

theorem Wf.origin (h : d.Wf) (hs : Step d ev d') {z : Nat} {state' : TimerState}
    (hz : d'.registry.HasState z state') :
    (∃ state, d.registry.HasState z state ∧ Moved d ev d' z state state') ∨
      (z = d.registry.nextId ∧ state'.deadline = none) := by
  by_cases hserve : ∃ q reserved, ev = .serve q reserved
  · obtain ⟨q, reserved, rfl⟩ := hserve
    cases hs with
    | serve hnow =>
      rcases Registry.hasState_serve h.distinct hz with hnew | ⟨hne, hs⟩ | ⟨ht, hq, st, hs, rfl⟩
      · exact .inr hnew
      · refine .inl ⟨state', hs, .same ?_ fun _ hd => hd⟩
        rintro q' reserved' he
        cases he
        exact hne
      · exact .inl ⟨st, hs, .served rfl ht hq⟩
  by_cases hselect : ev = .select
  · subst hselect
    obtain ⟨hidle, ⟨hhand, hr, -⟩ | ⟨e, he, cb, dl, hd, hcb, hdl, hle, hhand, hr, -⟩⟩ :=
      h.select_cases hs
    · rw [hr] at hz
      refine .inl ⟨state', hz, .same (fun _ _ he => by cases he) fun _ hd => ?_⟩
      rw [hhand] at hd
      cases hd
    · rw [hr, Registry.hasState_adjust (f := Registry.takenOut d'.now) fun _ => rfl] at hz
      rcases hz with ⟨hne, hz⟩ | ⟨rfl, e', he', hl, -, rfl⟩
      · refine .inl ⟨state', hz, .same (fun _ _ he => by cases he) fun _ hd => ?_⟩
        rw [hhand] at hd
        cases hd
        exact absurd rfl hne
      · obtain rfl := h.distinct.eq_of_id he' he (TimerEntry.live_iff.mp hl).1
        exact .inl ⟨e'.state, ⟨e', he', hl, rfl⟩,
          .taken rfl hidle hhand (advanceOnExpiry_fst hdl hle)⟩
  · have hq : ∀ q reserved, ev ≠ .serve q reserved := fun q reserved he => hserve ⟨q, reserved, he⟩
    obtain ⟨hiff, hhand⟩ := registry_of_quiet hs hq hselect h (z := z)
    exact .inl ⟨state', hiff.mp hz, .same (fun q reserved he => absurd he (hq q reserved)) hhand⟩

theorem Wf.alive (h : d.Wf) (hs : Step d ev d') {z : Nat} {state : TimerState}
    (hz : d.registry.HasState z state) (hev : ∀ reserved, ev ≠ .serve (.deregister z) reserved) :
    ∃ state', d'.registry.HasState z state' := by
  by_cases hserve : ∃ q reserved, ev = .serve q reserved
  · obtain ⟨q, reserved, rfl⟩ := hserve
    cases hs with
    | @serve _ _ now hnow =>
      by_cases ht : q.target = some z
      · obtain ⟨e, he, hl, rfl⟩ := hz
        have hd : (q.apply now e).deleted = false := by
          cases q with
          | deregister i =>
            obtain rfl := Option.some.inj ht
            exact absurd rfl (hev reserved)
          | register | start | stop | reset | changePeriod => exact (TimerEntry.live_iff.mp hl).2
        refine ⟨(q.apply now e).state, ?_⟩
        rw [Registry.serve_snd now reserved h.distinct ht,
          Registry.hasState_adjust fun e => q.apply_id now e]
        exact .inr ⟨rfl, e, he, hl, hd, rfl⟩
      · exact ⟨state, Registry.hasState_serve_of_ne reserved h.distinct ht hz⟩
  by_cases hselect : ev = .select
  · subst hselect
    obtain ⟨-, ⟨-, hr, -⟩ | ⟨e, he, cb, dl, hd, -, -, -, -, hr, -⟩⟩ := h.select_cases hs
    · exact ⟨state, hr ▸ hz⟩
    · have hiff : ∀ {st}, d'.registry.HasState z st ↔ _ :=
        fun {st} => hr ▸ Registry.hasState_adjust (f := Registry.takenOut d'.now)
          fun _ => rfl
      by_cases hze : z = e.id
      · subst hze
        exact ⟨_, hiff.mpr (.inr ⟨rfl, e, he, TimerEntry.live_iff.mpr ⟨rfl, hd⟩, hd, rfl⟩)⟩
      · exact ⟨state, hiff.mpr (.inl ⟨hze, hz⟩)⟩
  · have hq : ∀ q reserved, ev ≠ .serve q reserved := fun q reserved he => hserve ⟨q, reserved, he⟩
    exact ⟨state, (registry_of_quiet hs hq hselect h).1.mpr hz⟩

/-- A deadline after a step was there before it, or lies after the instant of the step: then the
timer was started by it, or was running and has been taken out. -/
theorem Wf.runs_origin (h : d.Wf) (hs : Step d ev d') {z : Nat} {dl : Duration}
    (hz : d'.registry.Runs z dl) :
    (d.registry.Runs z dl ∧ ∀ callback, d'.hand = .taken z callback → d.hand = .taken z callback) ∨
      (d'.now < dl ∧ (ev.starts z = true ∨ ∃ dl₀, d.registry.Runs z dl₀)) := by
  obtain ⟨state', hz', hdl⟩ := hz
  rcases h.origin hs hz' with ⟨state, hz, hm⟩ | ⟨-, hnone⟩
  · cases hm with
    | @served q reserved he ht hq =>
      subst he
      rcases Request.deadline_of_control ht hdl with hold | ⟨hlt, hst⟩
      · refine .inl ⟨⟨state, hz, hold⟩, ?_⟩
        cases hs
        exact fun _ hd => hd
      · exact .inr ⟨hlt, .inl hst⟩
    | taken he hidle hhand hadv =>
      refine .inr ⟨TimerState.lt_of_advanceOnExpiry hadv hdl, .inr ?_⟩
      cases hold : state.deadline with
      | none => simp [TimerState.advanceOnExpiry, hold] at hadv
      | some dl₀ => exact ⟨dl₀, state, hz, hold⟩
    | same hserve hhand => exact .inl ⟨⟨state', hz, hdl⟩, hhand⟩
  · rw [hnone] at hdl
    cases hdl

theorem Wf.runs_step (h : d.Wf) (hs : Step d ev d') (hx : d.registry.Runs x D)
    (hstarts : ev.starts x = false) (hhalts : ev.halts x = false) :
    d'.registry.Runs x D ∨ ∃ callback, d.hand = .idle ∧ d'.hand = .taken x callback := by
  obtain ⟨state, hx, hdl⟩ := hx
  have hev : ∀ reserved, ev ≠ .serve (.deregister x) reserved := by
    rintro reserved rfl
    simp [Event.halts, Request.halts] at hhalts
  obtain ⟨state', hx'⟩ := h.alive hs hx hev
  rcases h.origin hs hx' with ⟨st, hst, hm⟩ | ⟨hnew, -⟩
  · obtain rfl := h.distinct.state_unique hx hst
    cases hm with
    | @served q reserved he ht hq =>
      subst he
      refine .inl ⟨_, hx', ?_⟩
      rw [Request.control_deadline_of_untouched d'.now state ht hstarts hhalts]
      exact hdl
    | taken he hidle hhand hadv => exact .inr ⟨_, hidle, hhand⟩
    | same => exact .inl ⟨state, hx', hdl⟩
  · exact absurd (Registry.Wf.lt_nextId h hx) (hnew ▸ Nat.lt_irrefl _)

/-! ## Bounded bypass -/

/-- The timer whose callback has been taken out and has not begun. -/
def pending (d : Dispatcher) : List Nat :=
  match d.hand with
  | .taken id _ => [id]
  | _ => []

def Ahead (d₀ : Dispatcher) (x : Nat) (D : Duration) (y : Nat) : Prop :=
  ∃ dl, d₀.registry.Runs y dl ∧ Registry.KeyLt dl y D x

/-- The invariant of the bypass: what has been dispatched since the scan was ahead of `x` and is
no longer, and `x` is next after those that still are. -/
structure Bypass (d₀ : Dispatcher) (x : Nat) (D : Duration) (tr : List Event) (d : Dispatcher) :
    Prop where
  wf : d.Wf
  fresh : x ∉ Event.begun tr
  nodup : (Event.begun tr ++ d.pending).Nodup
  ahead : ∀ y ∈ Event.begun tr ++ d.pending, y ≠ x → Ahead d₀ x D y
  due : (∃ callback, d.hand = .taken x callback) ∨
    (d.registry.Runs x D ∧ D ≤ d.now ∧
      ∀ y dl, d.registry.Runs y dl → Registry.KeyLt dl y D x →
        y ∉ Event.begun tr ++ d.pending ∧ d₀.registry.Runs y dl)

theorem Step.pending_eq (hs : Step d ev d') :
    Event.begun [ev] ++ d'.pending = d.pending ∨
      (ev = .select ∧ d.hand = .idle ∧ ∃ id callback, d'.hand = .taken id callback) := by
  cases hs with
  | select hidle hnow hsel => exact .inr ⟨rfl, hidle, _, _, rfl⟩
  | begin hhand | adapt hhand | restore hhand => exact .inl (by simp [pending, hhand, Event.begun])
  | serve | purge | selectNone | halt | release | destroy | tick =>
    exact .inl (by simp [pending, Event.begun])

private theorem KeyLt.lt_of_le {a b : Duration} {i j : Nat} {now : Duration}
    (h : Registry.KeyLt a i b j) (hb : b ≤ now) : ¬ now < a := by
  intro hlt
  have hb' : b.nanos ≤ now.nanos := hb
  have hlt' : now.nanos < a.nanos := hlt
  unfold Registry.KeyLt at h
  omega

private theorem KeyLt.of_not {a b : Duration} {i j : Nat} (h : ¬ Registry.KeyLt b j a i)
    (hne : i ≠ j) : Registry.KeyLt a i b j := by
  unfold Registry.KeyLt at *
  omega

private theorem Bypass.select (h : Bypass d₀ x D tr d) (hs : Step d .select d') :
    Bypass d₀ x D (tr ++ [.select]) d' := by
  have hbegun : Event.begun (tr ++ [Event.select]) = Event.begun tr := by simp [Event.begun]
  have hwf' := h.wf.step hs
  have hnow := hs.now_le
  obtain ⟨hidle, hcases⟩ := h.wf.select_cases hs
  have hpend : d.pending = [] := by simp [pending, hidle]
  rcases h.due with ⟨cb, hhand⟩ | ⟨hx, hD, hlater⟩
  · rw [hidle] at hhand
    cases hhand
  have hD' : D ≤ d'.now := Nat.le_trans hD hnow
  rcases hcases with ⟨hhand, hr, hlate⟩ | ⟨e, he, cb, dl, hd, hcb, hdl, hle, hhand, hr, hmin⟩
  · exact absurd (hlate x D hx) (Nat.not_lt_of_le hD')
  have hy : d.registry.Runs e.id dl := ⟨e.state, Registry.hasState_of_mem he hd, hdl⟩
  have hpend' : d'.pending = [e.id] := by simp [pending, hhand]
  by_cases hex : e.id = x
  · refine ⟨hwf', hbegun ▸ h.fresh, ?_, ?_, .inl ⟨cb, hex ▸ hhand⟩⟩
    · rw [hbegun, hpend', hex, List.nodup_append_comm]
      exact List.nodup_cons.mpr ⟨h.fresh, by simpa [hpend] using h.nodup⟩
    · intro y hy' hne
      rw [hbegun, hpend', List.mem_append, List.mem_singleton] at hy'
      rcases hy' with hy' | rfl
      · exact h.ahead y (List.mem_append_left _ hy') hne
      · exact absurd hex hne
  · have hkey : Registry.KeyLt dl e.id D x := KeyLt.of_not (hmin x D hx) hex
    obtain ⟨hfresh, hold⟩ := hlater e.id dl hy hkey
    refine ⟨hwf', hbegun ▸ h.fresh, ?_, ?_, .inr ⟨?_, hD', ?_⟩⟩
    · rw [hbegun, hpend', List.nodup_append_comm]
      exact List.nodup_cons.mpr ⟨fun hmem => hfresh (List.mem_append_left _ hmem),
        by simpa [hpend] using h.nodup⟩
    · intro y hy' hne
      rw [hbegun, hpend', List.mem_append, List.mem_singleton] at hy'
      rcases hy' with hy' | rfl
      · exact h.ahead y (List.mem_append_left _ hy') hne
      · exact ⟨dl, hold, hkey⟩
    · rcases h.wf.runs_step hs hx rfl rfl with hx' | ⟨cb', -, hhand'⟩
      · exact hx'
      · rw [hhand] at hhand'
        cases hhand'
        exact absurd rfl hex
    · intro y dl' hy' hkey'
      rcases h.wf.runs_origin hs hy' with ⟨hy₀, hnot⟩ | ⟨hlt, -⟩
      · obtain ⟨hfresh', hold'⟩ := hlater y dl' hy₀ hkey'
        refine ⟨?_, hold'⟩
        rw [hbegun, hpend', List.mem_append, List.mem_singleton, not_or]
        refine ⟨fun hmem => hfresh' (List.mem_append_left _ hmem), ?_⟩
        rintro rfl
        have := hnot cb hhand
        rw [hidle] at this
        cases this
      · exact absurd hlt (KeyLt.lt_of_le hkey' hD')

private theorem Step.hand_of_taken (hs : Step d ev d') {callback : Callback}
    (hhand : d.hand = .taken x callback) : d'.hand = .taken x callback ∨ ev = .begin x := by
  cases hs with
  | select hidle | selectNone hidle =>
    rw [hhand] at hidle
    cases hidle
  | begin hhand' =>
    rw [hhand] at hhand'
    cases hhand'
    exact .inr rfl
  | adapt hhand' | restore hhand' =>
    rw [hhand] at hhand'
    cases hhand'
  | serve | purge | halt | release | destroy | tick => exact .inl hhand

private theorem Bypass.step (h : Bypass d₀ x D tr d) (hs : Step d ev d')
    (hstarts : ev.starts x = false) (hhalts : ev.halts x = false) (hbegin : ev ≠ .begin x) :
    Bypass d₀ x D (tr ++ [ev]) d' := by
  by_cases hselect : ev = .select
  · subst hselect
    exact h.select hs
  have hpend : Event.begun (tr ++ [ev]) ++ d'.pending = Event.begun tr ++ d.pending := by
    rcases hs.pending_eq with heq | ⟨he, -, -⟩
    · rw [Event.begun_append, List.append_assoc, heq]
    · exact absurd he hselect
  have hfresh : x ∉ Event.begun (tr ++ [ev]) := by
    rw [Event.begun_append, List.mem_append, not_or]
    refine ⟨h.fresh, ?_⟩
    cases ev <;> simp [Event.begun] at hbegin ⊢
    exact Ne.symm hbegin
  refine ⟨h.wf.step hs, hfresh, hpend ▸ h.nodup, hpend ▸ h.ahead, ?_⟩
  rcases h.due with ⟨cb, hhand⟩ | ⟨hx, hD, hlater⟩
  · rcases hs.hand_of_taken hhand with hhand' | he
    · exact .inl ⟨cb, hhand'⟩
    · exact absurd he hbegin
  · have hD' : D ≤ d'.now := Nat.le_trans hD hs.now_le
    rcases h.wf.runs_step hs hx hstarts hhalts with hx' | ⟨cb, -, hhand'⟩
    · refine .inr ⟨hx', hD', fun y dl hy hkey => ?_⟩
      rcases h.wf.runs_origin hs hy with ⟨hy₀, -⟩ | ⟨hlt, -⟩
      · rw [hpend]
        exact hlater y dl hy₀ hkey
      · exact absurd hlt (KeyLt.lt_of_le hkey hD')
    · exact .inl ⟨cb, hhand'⟩

private theorem Bypass.steps (h : Bypass d₀ x D [] d) (hs : lts.Steps d tr d')
    (hquiet : ∀ ev ∈ tr, ev.starts x = false ∧ ev.halts x = false) (hx : x ∉ Event.begun tr) :
    Bypass d₀ x D tr d' := by
  induction hs with
  | refl => exact h
  | @snoc d₁ d₂ tr ev hp hstep ih =>
    have hev := hquiet ev (by simp)
    rw [Event.begun_append, List.mem_append, not_or] at hx
    have hb := ih (fun ev hmem => hquiet ev (List.mem_append_left _ hmem)) hx.1
    refine hb.step hstep hev.1 hev.2 ?_
    rintro rfl
    exact hx.2 (by simp [Event.begun])

/-- Bounded bypass. Once a scan has found the deadline of a running timer passed, and as long as
the timer is neither started again nor halted, the callbacks that begin before its own are those
of timers that were ahead of it then, each at most once. -/
theorem bounded_bypass (hwf : d₀.Wf) (hx : d₀.registry.Runs x D) (hscan : Step d₀ .select d₁)
    (hD : D ≤ d₁.now) (hs : lts.Steps d₁ tr d₂)
    (hquiet : ∀ ev ∈ tr, ev.starts x = false ∧ ev.halts x = false) (hfresh : x ∉ Event.begun tr) :
    (Event.begun tr).Nodup ∧ ∀ y ∈ Event.begun tr, Ahead d₀ x D y := by
  have hstart : Bypass d₀ x D [] { d₀ with now := d₁.now } := by
    have hidle := (hwf.select_cases hscan).1
    refine ⟨hwf, by simp, by simp [pending, hidle], by simp [pending, hidle], .inr ⟨hx, hD, ?_⟩⟩
    intro y dl hy hkey
    exact ⟨by simp [pending, hidle], hy⟩
  have hscan' : Step { d₀ with now := d₁.now } .select d₁ := by
    cases hscan with
    | select hidle hnow hsel => exact .select hidle (Nat.le_refl _) hsel
    | @selectNone now selection r hidle hnow hsel hnone =>
      exact .selectNone (d := { d₀ with now }) hidle (Nat.le_refl _) hsel hnone
  have hfirst := hstart.select hscan'
  have hrun : Bypass d₀ x D [] d₁ :=
    ⟨hfirst.wf, hfirst.fresh, hfirst.nodup, hfirst.ahead, hfirst.due⟩
  have hb := hrun.steps hs hquiet hfresh
  refine ⟨(List.nodup_append.mp hb.nodup).1, fun y hy => ?_⟩
  refine hb.ahead y (List.mem_append_left _ hy) ?_
  rintro rfl
  exact hfresh hy

/-! ## Halted timers -/

theorem Wf.starts_of_runs (h : d.Wf) (hs : Step d ev d') (hx : ∀ dl, ¬ d.registry.Runs x dl)
    {dl : Duration} (hrun : d'.registry.Runs x dl) : ev.starts x = true := by
  rcases h.runs_origin hs hrun with ⟨hold, -⟩ | ⟨-, hst | ⟨dl₀, hold⟩⟩
  · exact absurd hold (hx dl)
  · exact hst
  · exact absurd hold (hx dl₀)

/-- Timer `x` is not running and its callback has not been taken out. -/
structure Dormant (x : Nat) (d : Dispatcher) : Prop where
  wf : d.Wf
  halted : ∀ dl, ¬ d.registry.Runs x dl
  untaken : ∀ callback, d.hand ≠ .taken x callback

/-- The callback of a dormant timer does not begin, and the timer stays dormant until it has been
started. -/
theorem Dormant.step (h : Dormant x d) (hs : Step d ev d') :
    ev ≠ .begin x ∧
      (Dormant x d' ∨ ev.starts x = true ∧ ∃ dl, d'.registry.Runs x dl) := by
  refine ⟨?_, ?_⟩
  · rintro rfl
    obtain ⟨callback, hhand⟩ := hs.taken_of_begin
    exact h.untaken callback hhand
  by_cases hrun : ∃ dl, d'.registry.Runs x dl
  · obtain ⟨dl, hdl⟩ := hrun
    exact .inr ⟨h.wf.starts_of_runs hs h.halted hdl, dl, hdl⟩
  refine .inl ⟨h.wf.step hs, fun dl hdl => hrun ⟨dl, hdl⟩, fun cb hhand' => ?_⟩
  by_cases hselect : ev = .select
  · subst hselect
    obtain ⟨-, ⟨hidle', -, -⟩ | ⟨e, he, cb', dl, hd, -, hdl, -, hhand, -, -⟩⟩ :=
      h.wf.select_cases hs
    · rw [hidle'] at hhand'
      cases hhand'
    · rw [hhand] at hhand'
      cases hhand'
      exact h.halted dl ⟨e.state, Registry.hasState_of_mem he hd, hdl⟩
  · cases hs with
    | select | selectNone => exact hselect rfl
    | begin | adapt | restore => cases hhand'
    | serve | purge | halt | release | destroy | tick => exact h.untaken cb hhand'

/-! ## Restoring a callback -/

theorem Wf.restore_eq (h : d.Wf) {id : Nat} (hs : Step d (.restore id) d') :
    ∃ callback, d.hand = .running id callback ∧
      d' = { d with
        registry := d.registry.adjust id fun e => { e with callback := some callback }
        hand := .idle } := by
  cases hs with
  | @restore _ cb hhand =>
    refine ⟨cb, hhand, ?_⟩
    rw [Registry.restore_snd h.distinct]
    congr 1
    rw [Wf, hhand] at h
    simp only [Registry.adjust]
    congr 1
    apply List.map_congr_left
    intro e he
    by_cases hl : e.live id = true
    · obtain ⟨hid, hd⟩ := TimerEntry.live_iff.mp hl
      have hnone : e.callback = none := (h.resting e he hd).mpr (by rw [hid]; rfl)
      simp [hl, Registry.putBack, hnone]
    · simp [hl]

theorem Step.nextId_le (hs : Step d ev d') (h : d.Wf) : d.registry.nextId ≤ d'.registry.nextId := by
  cases hs with
  | @serve q reserved now hnow =>
    cases ht : q.target with
    | none =>
      rcases Registry.serve_register_snd (r := d.registry) now reserved ht with
        ⟨he, -⟩ | ⟨_, _, -, -, he⟩
      · rw [he]
      · rw [he]
        exact Nat.le_succ _
    | some id =>
      rw [Registry.serve_snd now reserved h.distinct ht]
      exact Nat.le_refl _
  | select hidle hnow hsel =>
    obtain ⟨-, ⟨-, hr, -⟩ | ⟨e, he, cb, dl, -, -, -, -, -, hr, -⟩⟩ :=
      h.select_cases (.select hidle hnow hsel)
    · exact Nat.le_of_eq (congrArg Registry.nextId hr).symm
    · exact Nat.le_of_eq (congrArg Registry.nextId hr).symm
  | selectNone hidle hnow hsel hnone =>
    obtain ⟨-, ⟨-, hr, -⟩ | ⟨e, he, cb, dl, -, -, -, -, hhand, -, -⟩⟩ :=
      h.select_cases (.selectNone hidle hnow hsel hnone)
    · exact Nat.le_of_eq (congrArg Registry.nextId hr).symm
    · rw [hidle] at hhand
      cases hhand
  | restore hhand =>
    rw [Registry.restore_snd h.distinct]
    exact Nat.le_refl _
  | purge | begin | adapt | halt | release | destroy | tick => exact Nat.le_refl _

def controls (x : Nat) : List Event → List Request :=
  List.filterMap fun
    | .serve q _ => if q.target = some x then some q else none
    | _ => none

def replay (state : TimerState) (ops : List (Request × Duration)) : TimerState :=
  ops.foldl (fun state op => op.1.control op.2 state) state

/-- The readings of the clock lie between two instants and do not decrease. -/
def Readings (first last : Duration) (ops : List (Request × Duration)) : Prop :=
  (ops.map Prod.snd).Pairwise (· ≤ ·) ∧ ∀ op ∈ ops, first ≤ op.2 ∧ op.2 ≤ last

theorem Readings.mono {first last last' : Duration} {ops : List (Request × Duration)}
    (h : Readings first last ops) (hle : last ≤ last') : Readings first last' ops :=
  ⟨h.1, fun op hop => ⟨(h.2 op hop).1, Nat.le_trans (h.2 op hop).2 hle⟩⟩

theorem Steps.now_le (hs : lts.Steps d tr d') : d.now ≤ d'.now := by
  induction hs with
  | refl => exact Nat.le_refl _
  | snoc _ hstep ih => exact Nat.le_trans ih (Step.now_le hstep)

theorem Readings.snoc {first last now : Duration} {ops : List (Request × Duration)} (q : Request)
    (h : Readings first last ops) (hfirst : first ≤ now) (hle : last ≤ now) :
    Readings first now (ops ++ [(q, now)]) := by
  refine ⟨?_, ?_⟩
  · rw [List.map_append, List.pairwise_append]
    refine ⟨h.1, by simp, ?_⟩
    intro a ha b hb
    obtain ⟨op, hop, rfl⟩ := List.mem_map.mp ha
    obtain rfl : b = now := by simpa using hb
    exact Nat.le_trans (h.2 op hop).2 hle
  · intro op hop
    rcases List.mem_append.mp hop with hop | hop
    · exact ⟨(h.2 op hop).1, Nat.le_trans (h.2 op hop).2 hle⟩
    · obtain rfl := List.mem_singleton.mp hop
      exact ⟨hfirst, Nat.le_refl _⟩

/-- Between two scans a timer's state is what the requests about it make of it, in the order in
which they were served. -/
theorem Wf.replay_steps (h : d.Wf) (hs : lts.Steps d tr d') (hscan : ∀ ev ∈ tr, ev ≠ .select)
    (hx : x < d.registry.nextId) {state' : TimerState} (hx' : d'.registry.HasState x state') :
    ∃ state ops, d.registry.HasState x state ∧ ops.map Prod.fst = controls x tr ∧
      Readings d.now d'.now ops ∧ state' = replay state ops := by
  suffices hall : x < d'.registry.nextId ∧ ∀ state', d'.registry.HasState x state' →
      ∃ state ops, d.registry.HasState x state ∧ ops.map Prod.fst = controls x tr ∧
        Readings d.now d'.now ops ∧ state' = replay state ops from hall.2 state' hx'
  clear hx'
  induction hs with
  | refl =>
    refine ⟨hx, fun state' hx' => ⟨state', [], hx', rfl, ⟨by simp, by simp⟩, rfl⟩⟩
  | @snoc d₁ d₂ tr ev hp hstep ih =>
    obtain ⟨hlt, hold⟩ := ih fun ev hmem => hscan ev (List.mem_append_left _ hmem)
    have hwf₁ := h.steps hp
    refine ⟨Nat.lt_of_lt_of_le hlt (Step.nextId_le hstep hwf₁), fun state' hx' => ?_⟩
    have hnow := Step.now_le hstep
    rcases hwf₁.origin hstep hx' with ⟨state₁, hx₁, hm⟩ | ⟨hnew, -⟩
    · obtain ⟨state, ops, hx₀, hops, hread, rfl⟩ := hold state₁ hx₁
      cases hm with
      | @served q reserved he ht hq =>
        subst he
        refine ⟨state, ops ++ [(q, d₂.now)], hx₀, ?_, ?_, ?_⟩
        · rw [List.map_append, hops, controls, List.filterMap_append]
          simp [ht]
        · exact hread.snoc q (Nat.le_trans (Steps.now_le hp) hnow) hnow
        · simp [replay]
      | taken he => exact absurd he (hscan ev (by simp))
      | same hne hhand =>
        refine ⟨state, ops, hx₀, ?_, hread.mono hnow, rfl⟩
        rw [hops, controls, List.filterMap_append]
        cases ev with
        | serve q reserved => simp [hne q reserved rfl]
        | purge | select | begin | adapt | restore | halt | release | tick => simp
    · exact absurd hlt (hnew ▸ Nat.lt_irrefl _)

theorem Step.busy (hs : Step d ev d') (hbusy : d.hand ≠ .idle) (hev : ∀ id, ev ≠ .restore id) :
    d'.hand ≠ .idle ∧ ev ≠ .select := by
  cases hs with
  | select hidle | selectNone hidle => exact absurd hidle hbusy
  | begin | adapt => exact ⟨by simp, by simp⟩
  | restore => exact absurd rfl (hev _)
  | serve | purge | halt | release | destroy | tick => exact ⟨hbusy, by simp⟩

theorem Steps.busy (hs : lts.Steps d tr d') (hbusy : d.hand ≠ .idle)
    (hev : ∀ ev ∈ tr, ∀ id, ev ≠ .restore id) : d'.hand ≠ .idle ∧ ∀ ev ∈ tr, ev ≠ .select := by
  induction hs with
  | refl => exact ⟨hbusy, by simp⟩
  | @snoc d₁ d₂ tr ev hp hstep ih =>
    obtain ⟨hbusy₁, hno⟩ := ih fun ev hmem => hev ev (List.mem_append_left _ hmem)
    obtain ⟨hbusy₂, hne⟩ := Step.busy hstep hbusy₁ (hev ev (by simp))
    refine ⟨hbusy₂, fun ev' hmem => ?_⟩
    rcases List.mem_append.mp hmem with hmem | hmem
    · exact hno ev' hmem
    · exact List.mem_singleton.mp hmem ▸ hne

theorem Wf.taken_state (h : d.Wf) (hs : Step d .select d') {callback : Callback}
    (hhand : d'.hand = .taken x callback) :
    ∃ state, d.registry.HasState x state ∧
      d'.registry.HasState x (state.advanceOnExpiry d'.now).2 := by
  obtain ⟨-, ⟨hidle', -, -⟩ | ⟨e, he, cb', dl, hd, -, hdl, -, hhand', hr, -⟩⟩ := h.select_cases hs
  · rw [hidle'] at hhand
    cases hhand
  · rw [hhand'] at hhand
    cases hhand
    refine ⟨e.state, Registry.hasState_of_mem he hd, ?_⟩
    rw [hr, Registry.hasState_adjust (f := Registry.takenOut d'.now) fun _ => rfl]
    exact .inr ⟨rfl, e, he, TimerEntry.live_iff.mpr ⟨rfl, hd⟩, hd, rfl⟩

end Dispatcher

end OsalRust.Timer
