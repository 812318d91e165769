import OsalRust.Framework.Ownership
import OsalRust.Shared.Runtime
import OsalRust.Timer.Dispatch
import OsalRust.Timer.RegistryCount

/-!
# Timer backend

What the POSIX and the FreeRTOS backend have in common: the state of the runtime, the service
slot, one timer service for each successful `initialize`, the leases and the timer handles. The
threads appear only by the tokens that their code owns. A step exchanges tokens and changes the
state; both backends refine this machine, and what they promise is proved of it.

Every piece of a call that must not get lost owns a token: the transition guard of `initialize`
and `shutdown` with the progress of the call, a lease outside of a handle, a closure on its way
into or out of the registry, a handle being built or dropped, a reference to a service, and the
worker's loop with what it has in hand.
-/

namespace OsalRust.Timer

open OsalRust OsalRust.Framework OsalRust.Runtime

/-- `ServiceSlot`, with the service by its number. A running service has a worker or does not
have one yet; a stopping one is kept by the slot or only known to it. -/
inductive Slot where
  | stopped
  | running (g : Nat) (worker : Bool)
  | stopping (g : Nat) (kept : Bool)
  deriving DecidableEq

def Slot.service : Slot → Option Nat
  | .stopped => none
  | .running g _ | .stopping g _ => some g

def Slot.holds (slot : Slot) (g : Nat) : Nat :=
  match slot with
  | .stopped => 0
  | .running h _ => if h = g then 1 else 0
  | .stopping h kept => if h = g ∧ kept = true then 1 else 0

/-- A timer service: its registry, what its worker has in hand, the references to it, and the
life of its worker, which is spawned, is ready until it first runs, and finishes. -/
structure Service where
  registry : Registry
  hand : Hand
  refs : Nat
  spawned : Bool
  ready : Bool
  finished : Bool

def Service.new : Service where
  registry := Registry.new
  hand := .idle
  refs := 0
  spawned := false
  ready := false
  finished := false

/-- The state of a backend. `leases` is the count of the runtime word, `objects` how many of
these leases belong to objects other than timers. What a backend sets up besides the timer
service is `configured`. -/
structure World where
  state : RuntimeState
  leases : Nat
  objects : Nat
  configured : Bool
  slot : Slot
  services : Nat → Service
  created : Nat
  handles : Handles
  now : Duration

/-- How far the call has come that owns the transition guard. -/
inductive Phase where
  | create
  | started
  | ready
  | stop
  | checking (g : Nat)
  | cleared (g : Nat)
  | halted (g : Nat)
  | draining (g : Nat) (worker : Bool)
  | drained (g : Nat)
  | stopped
  | closed
  deriving DecidableEq

/-- What the loop of a worker is at. -/
inductive Activity where
  | idle
  | taken (id : Nat)
  | running (id : Nat)
  | retiring (id : Nat) (callback : Callback)
  | stopping
  deriving DecidableEq

/-- What the threads own. A lease or a deregistration that has reached a service is bound to it;
`last` is a handle whose last clone is gone and whose timer is still registered, `removed` the
closure of a deregistered timer with the timer's lease. -/
inductive Token where
  | transition (phase : Phase)
  | lease (g : Option Nat)
  | closure (callback : Callback)
  | fresh (id : Nat)
  | clone (id : Nat)
  | last (g : Option Nat) (id : Nat)
  | removed (g id : Nat) (callback : Callback)
  | ref (g : Nat)
  | uses (g : Nat)
  | loop (g : Nat) (activity : Activity)
  deriving DecidableEq

/-- A token that exists only if service `g` does. -/
def Token.Knows (g : Nat) : Token → Prop
  | .ref h | .uses h | .loop h _ | .lease (some h) | .last (some h) _ => h = g
  | .transition (.checking h) | .transition (.cleared h) | .transition (.halted h)
  | .transition (.draining h _) | .transition (.drained h) => h = g
  | _ => False

/-- What happens in a step, as far as it is told: an event of a service, the drop of a
registered closure, and the successful ends of `initialize` and `shutdown`. -/
inductive Label where
  | service (g : Nat) (event : Event)
  | drop (g id : Nat)
  | initialized
  | shut
  | tau
  deriving DecidableEq

def Label.Blends (l : Label) : Prop := l ≠ .initialized ∧ l ≠ .shut

def clones (callback : Callback) : Multiset Token := (callback.captures : Multiset Nat).map .clone

def closures (callbacks : List Callback) : Multiset Token :=
  (callbacks : Multiset Callback).map .closure

def Intent.tokens : Intent → Multiset Token
  | .request (.register _ _ callback) | .dropCallback callback => {.closure callback}
  | .dropHandle id => {.clone id}
  | _ => 0

/-- What a request owns on its way to a service, and once it has found one. -/
def Request.tokens (g : Option Nat) : Request → Multiset Token
  | .register _ _ callback => {.lease g} + {.closure callback}
  | .deregister id => {.last g id}
  | _ => 0

/-- What a deregistration owns once the registry has given the closure up. -/
def parting (g id : Nat) : Option Callback → Multiset Token
  | some callback => {.removed g id callback}
  | none => {.lease none}

def Outcome.tokens (g : Nat) (q : Request) : Outcome → Multiset Token
  | .registered id => {.fresh id}
  | .refused callback => {.lease none} + {.closure callback}
  | .removed callback =>
    match q with
    | .deregister id => parting g id callback
    | _ => 0
  | .done => 0

def Request.leftovers : Request → Multiset Token
  | .register _ _ callback => {.lease none} + {.closure callback}
  | .deregister _ => {.lease none}
  | _ => 0

/-- The worker's loop once the registry has been offered the callback back. -/
def returning (g id : Nat) : Option Callback → Multiset Token
  | some callback => {.loop g (.retiring id callback)}
  | none => {.loop g .idle}

namespace World

def init (now : Duration) : World where
  state := .uninitialized
  leases := 0
  objects := 0
  configured := false
  slot := .stopped
  services := fun _ => Service.new
  created := 0
  handles := Handles.empty
  now := now

def adjust (w : World) (g : Nat) (f : Service → Service) : World :=
  { w with services := Function.update w.services g (f (w.services g)) }

def serve (w : World) (g : Nat) (now : Duration) (reserved : Bool) (q : Request) : World :=
  { w.adjust g fun s => { s with registry := (s.registry.serve now reserved q).2 } with now }

end World

open World in
/-- The exchanges: the state and the tokens before, what happens, and the state and the tokens
after. Tokens that take no part in an exchange are framed out, and unlabelled exchanges may come
right before or after another one that is not the end of a transition. -/
inductive Exchange : World → Multiset Token → Label → World → Multiset Token → Prop
  | idle {w c} : Exchange w c .tau w c
  | frame {w c l w' p} (R) : Exchange w c l w' p → Exchange w (c + R) l w' (p + R)
  | before {w c w₁ c₁ l w' p} : l.Blends → Exchange w c .tau w₁ c₁ → Exchange w₁ c₁ l w' p →
      Exchange w c l w' p
  | after {w c l w₁ c₁ w' p} : l.Blends → Exchange w c l w₁ c₁ → Exchange w₁ c₁ .tau w' p →
      Exchange w c l w' p
  | beginInitialize {w} : w.state = .uninitialized →
      Exchange w 0 .tau { w with state := .initializing } {.transition .create}
  | create {w} : w.slot = .stopped →
      Exchange w {.transition .create} .tau
        { w.adjust w.created fun s => { s with refs := 1 } with
          slot := .running w.created false, created := w.created + 1 }
        {.transition .started}
  | configure {w} :
      Exchange w {.transition .started} .tau { w with configured := true } {.transition .ready}
  | commitInitialize {w} : w.state = .initializing →
      Exchange w {.transition .ready} .initialized { w with state := .running } 0
  | rollbackInitialize {w} : w.state = .initializing →
      Exchange w {.transition .create} .tau { w with state := .uninitialized } 0
  | beginShutdown {w} : w.state = .running → w.leases = 0 →
      Exchange w 0 .tau { w with state := .shuttingDown } {.transition .stop}
  | check {w g worker} : w.slot = .running g worker →
      Exchange w {.transition .stop} .tau w {.transition (.checking g)}
  | refuse {w g} : Exchange w {.transition (.checking g)} .tau w {.transition .stop}
  | clear {w g} : (w.services g).registry.timers = [] →
      Exchange w {.transition (.checking g)} .tau w {.transition (.cleared g)}
  | halt {w g} :
      Exchange w {.transition (.cleared g)} (.service g .halt)
        (w.adjust g fun s => { s with registry := { s.registry with stopRequested := true } })
        {.transition (.halted g)}
  | stopping {w g worker kept} : w.slot = .running g worker →
      Exchange w {.transition (.halted g)} .tau { w with slot := .stopping g kept }
        ({.transition (.draining g worker)} + if kept = true then 0 else {.ref g})
  | drained {w g worker} : (worker = true → (w.services g).finished = true) →
      Exchange w {.transition (.draining g worker)} .tau w {.transition (.drained g)}
  | cleanUp {w g h kept} : w.slot = .stopping h kept →
      Exchange w {.transition (.drained g)} .tau { w with slot := .stopped }
        ({.transition .stopped} + if kept = true then {.ref h} else 0)
  | deconfigure {w} :
      Exchange w {.transition .stopped} .tau { w with configured := false } {.transition .closed}
  | commitShutdown {w} : w.state = .shuttingDown →
      Exchange w {.transition .closed} .shut { w with state := .uninitialized } 0
  | rollbackShutdown {w} : w.state = .shuttingDown →
      Exchange w {.transition .stop} .tau { w with state := .running } 0
  | acquire {w} : w.state = .running →
      Exchange w 0 .tau { w with leases := w.leases + 1 } {.lease none}
  | dropLease {w} : w.state = .running →
      Exchange w {.lease none} .tau { w with leases := w.leases - 1 } 0
  | acquireObject {w} : w.state = .running →
      Exchange w 0 .tau { w with leases := w.leases + 1, objects := w.objects + 1 } 0
  | dropObject {w} : w.state = .running → 0 < w.objects →
      Exchange w 0 .tau { w with leases := w.leases - 1, objects := w.objects - 1 } 0
  | bindLease {w g worker} : w.slot = .running g worker →
      Exchange w {.lease none} .tau w {.lease (some g)}
  | unbindLease {w g} : Exchange w {.lease (some g)} .tau w {.lease none}
  | bindLast {w g worker id} : w.slot = .running g worker →
      Exchange w {.last none id} .tau w {.last (some g) id}
  | share {w g worker} : w.slot = .running g worker →
      Exchange w 0 .tau (w.adjust g fun s => { s with refs := s.refs + 1 }) {.ref g}
  | use {w g worker} : w.slot = .running g worker → Exchange w 0 .tau w {.uses g}
  | unuse {w g} : Exchange w {.uses g} .tau w 0
  | release {w g} :
      Exchange w {.ref g} (.service g .release)
        (w.adjust g fun s => { s with refs := s.refs - 1 }) 0
  | destroy {w g} : (w.services g).refs = 1 →
      Exchange w {.ref g} (.service g .release)
        (w.adjust g fun s => { s with refs := 0, registry := { s.registry with timers := [] } })
        (closures ((w.services g).registry.timers.filterMap (·.callback)))
  | serve {w g x q reserved now} : x.Knows g → w.now ≤ now →
      (∀ id, q ≠ .deregister id) →
      (∀ id, ((w.services g).registry.serve now reserved q).1 ≠ .registered id) →
      Exchange w {x} (.service g (.serve q reserved)) (w.serve g now reserved q) {x}
  | enroll {w g period mode callback reserved now id} : w.now ≤ now →
      ((w.services g).registry.serve now reserved (.register period mode callback)).1 =
        .registered id →
      Exchange w ({.lease (some g)} + {.closure callback})
        (.service g (.serve (.register period mode callback) reserved))
        (w.serve g now reserved (.register period mode callback)) {.fresh id}
  | remove {w g id reserved now} : w.now ≤ now →
      Exchange w {.last (some g) id} (.service g (.serve (.deregister id) reserved))
        (w.serve g now reserved (.deregister id))
        (parting g id ((w.services g).registry.callbackOf id))
  | turnDown {w id} : (∀ g worker, w.slot ≠ .running g worker) →
      Exchange w {.last none id} .tau w {.lease none}
  | call {w i h} : Handles.Calls [] w.handles i h →
      Exchange w 0 .tau { w with handles := h } i.tokens
  | adopt {w id} :
      Exchange w {.fresh id} .tau { w with handles := w.handles.adopt id } 0
  | dropClone {w id} : 1 < w.handles.strong id →
      Exchange w {.clone id} .tau { w with handles := w.handles.release id } 0
  | dropLast {w id} : w.handles.strong id = 1 →
      Exchange w {.clone id} .tau { w with handles := w.handles.release id } {.last none id}
  | dropClosure {w callback} : Exchange w {.closure callback} .tau w (clones callback)
  | dropRemoved {w g id callback} :
      Exchange w {.removed g id callback} (.drop g id) w (clones callback + {.lease none})
  | dropRetired {w g id callback} :
      Exchange w {.loop g (.retiring id callback)} (.drop g id) w
        (clones callback + {.loop g .idle})
  | spawn {w g} : w.slot = .running g false →
      Exchange w 0 .tau
        { w.adjust g fun s => { s with refs := s.refs + 1, spawned := true, ready := true } with
          slot := .running g true } 0
  | startWorker {w g} : (w.services g).ready = true →
      Exchange w 0 .tau (w.adjust g fun s => { s with ready := false }) {.loop g .idle}
  | purge {w g x} : x.Knows g →
      Exchange w {x} (.service g .purge)
        (w.adjust g fun s => { s with registry := s.registry.retain.2 })
        ({x} + closures (w.services g).registry.retain.1)
  | select {w g now id callback r} : w.now ≤ now →
      (w.services g).registry.select now = .ok (.dispatch id callback, r) →
      Exchange w {.loop g .idle} (.service g .select)
        { w.adjust g fun s => { s with registry := r, hand := .taken id callback } with now }
        {.loop g (.taken id)}
  | selectNone {w g now selection r} : w.now ≤ now →
      (w.services g).registry.select now = .ok (selection, r) →
      (∀ id callback, selection ≠ .dispatch id callback) →
      Exchange w {.loop g .idle} (.service g .select)
        { w.adjust g fun s => { s with registry := r } with now } {.loop g .idle}
  | begin {w g id callback} : (w.services g).hand = .taken id callback →
      Exchange w {.loop g (.taken id)} (.service g (.begin id))
        (w.adjust g fun s => { s with hand := .running id callback }) {.loop g (.running id)}
  | tick {w g now} : w.now ≤ now →
      Exchange w {.loop g .idle} (.service g .tick) { w with now } {.loop g .idle}
  | callbackIdle {w g id callback} : (w.services g).hand = .running id callback →
      Exchange w {.loop g (.running id)} (.service g .adapt) w {.loop g (.running id)}
  | callbackCall {w g id callback i h} : (w.services g).hand = .running id callback →
      Handles.Calls callback.captures w.handles i h →
      Exchange w {.loop g (.running id)} (.service g .adapt) { w with handles := h }
        ({.loop g (.running id)} + i.tokens)
  | callbackYields {w g id callback captured} : (w.services g).hand = .running id callback →
      captured ∈ callback.captures →
      Exchange w {.loop g (.running id)} (.service g .adapt)
        { w.adjust g fun s => { s with hand := .running id ⟨callback.captures.erase captured⟩ } with
          handles := w.handles.gain captured }
        {.loop g (.running id)}
  | callbackCaptures {w g id callback captured} : (w.services g).hand = .running id callback →
      0 < w.handles.owned captured →
      Exchange w {.loop g (.running id)} (.service g .adapt)
        { w.adjust g fun s => { s with hand := .running id ⟨captured :: callback.captures⟩ } with
          handles := w.handles.give captured }
        {.loop g (.running id)}
  | restore {w g id callback} : (w.services g).hand = .running id callback →
      Exchange w {.loop g (.running id)} (.service g (.restore id))
        (w.adjust g fun s =>
          { s with registry := (s.registry.restore id callback).2, hand := .idle })
        (returning g id ((w.services g).registry.restore id callback).1)
  | observeStop {w g} : (w.services g).registry.stopRequested = true →
      Exchange w {.loop g .idle} .tau w {.loop g .stopping}
  | finish {w g} :
      Exchange w {.loop g .stopping} .tau (w.adjust g fun s => { s with finished := true })
        {.ref g}

namespace Exchange

variable {w : World} {g : Nat} {worker : Bool} {q : Request} {reserved : Bool} {now : Duration}
  {x : Token}

theorem of_tokens {w' : World} {c c' p p' : Multiset Token} {l : Label} (h : Exchange w c l w' p)
    (hc : c = c') (hp : p = p') : Exchange w c' l w' p' := by
  subst hc hp
  exact h

theorem bind (q : Request) (hslot : w.slot = .running g worker) :
    Exchange w (q.tokens none) .tau w (q.tokens (some g)) := by
  cases q with
  | register => exact .frame _ (.bindLease hslot)
  | deregister => exact .bindLast hslot
  | start | stop | reset | changePeriod => exact .idle

theorem turnDown_request (q : Request) (hslot : ∀ g worker, w.slot ≠ .running g worker) :
    Exchange w (q.tokens none) .tau w q.leftovers := by
  cases q with
  | deregister => exact .turnDown hslot
  | register | start | stop | reset | changePeriod => exact .idle

theorem request (q : Request) (reserved : Bool) (hx : x.Knows g) (hnow : w.now ≤ now) :
    Exchange w (q.tokens (some g) + {x}) (.service g (.serve q reserved))
      (w.serve g now reserved q)
      (((w.services g).registry.serve now reserved q).1.tokens g q + {x}) := by
  have hother : (∀ id, q ≠ .deregister id) →
      (∀ id, ((w.services g).registry.serve now reserved q).1 ≠ .registered id) →
      Exchange w (q.tokens (some g) + {x}) (.service g (.serve q reserved))
        (w.serve g now reserved q) (q.tokens (some g) + {x}) := by
    intro hq hnew
    rw [add_comm _ ({x} : Multiset Token)]
    exact .frame _ (.serve hx hnow hq hnew)
  cases q with
  | register period mode callback =>
    rcases (w.services g).registry.serve_register_fst now reserved period mode callback with
      ⟨id, hans⟩ | hans
    · rw [hans]
      exact .frame _ (.enroll hnow hans)
    · rw [hans]
      refine .after (by simp [Label.Blends]) (hother (by simp) (by simp [hans])) ?_
      exact .frame _ (.frame _ .unbindLease)
  | deregister id =>
    rw [Registry.serve_deregister]
    exact .frame _ (.remove hnow)
  | start | stop | reset | changePeriod => exact hother (by simp) (by simp [Registry.serve])

end Exchange

/-- The machine of the exchanges, from the runtime before its first `initialize`. -/
def machine : Lts (World × Multiset Token) Label where
  init s := ∃ now, s = (World.init now, 0)
  step s l s' := Exchange s.1 s.2 l s'.1 s'.2

end OsalRust.Timer
