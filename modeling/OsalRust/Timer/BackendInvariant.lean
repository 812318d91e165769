import OsalRust.Timer.Backend

/-!
# Invariant of a timer backend

The state of the runtime, the slot and the service agree; each service accounts for its
references and its worker's loop; the leases are those of live timers, of other objects and of
the calls under way; and every handle stands for one live entry of the running service and
counts its clones. Each exchange keeps all of it, so every reachable state has it.
-/

namespace OsalRust.Timer

open OsalRust OsalRust.Framework OsalRust.Runtime

def tally (f : Token → Nat) (M : Multiset Token) : Nat := (M.map f).sum

section Tally

variable {f : Token → Nat} {M N : Multiset Token} {x : Token}

@[simp] theorem tally_zero : tally f 0 = 0 := by simp [tally]

@[simp] theorem tally_add : tally f (M + N) = tally f M + tally f N := by simp [tally]

@[simp] theorem tally_cons : tally f (x ::ₘ M) = f x + tally f M := by simp [tally]

@[simp] theorem tally_singleton : tally f {x} = f x := by simp [tally]

theorem le_tally (h : x ∈ M) : f x ≤ tally f M :=
  Multiset.single_le_sum (fun _ _ => Nat.zero_le _) _ (Multiset.mem_map_of_mem f h)

theorem tally_eq_zero (h : ∀ x ∈ M, f x = 0) : tally f M = 0 := by
  rw [tally, Multiset.sum_eq_zero_iff]
  intro n hn
  obtain ⟨x, hx, rfl⟩ := Multiset.mem_map.mp hn
  exact h x hx

theorem exists_of_tally_pos (h : 0 < tally f M) : ∃ x ∈ M, 0 < f x := by
  by_contra hno
  have hzero : tally f M = 0 := by
    refine tally_eq_zero fun x hx => ?_
    by_contra hne
    exact hno ⟨x, hx, Nat.pos_of_ne_zero hne⟩
  omega

end Tally

namespace Token

def guards : Token → Nat
  | .transition _ => 1
  | _ => 0

def loops (g : Nat) : Token → Nat
  | .loop h _ => if h = g then 1 else 0
  | _ => 0

def refs (g : Nat) : Token → Nat
  | .ref h => if h = g then 1 else 0
  | _ => 0

def leases : Token → Nat
  | .lease _ | .removed _ _ _ => 1
  | _ => 0

/-- Handles that stand for a registered timer without being alive. -/
def entries (id : Nat) : Token → Nat
  | .fresh i | .last _ i => if i = id then 1 else 0
  | _ => 0

/-- Clones of a handle, on their own or in a closure. -/
def clones (id : Nat) : Token → Nat
  | .clone i => if i = id then 1 else 0
  | .closure callback | .removed _ _ callback | .loop _ (.retiring _ callback) =>
    callback.captures.count id
  | _ => 0

def Bound (g : Nat) : Token → Prop
  | .lease (some h) | .last (some h) _ => h = g
  | _ => False

end Token

@[simp] theorem tally_clones (f : Token → Nat) (callback : Callback) :
    tally f (clones callback) = (callback.captures.map fun id => f (.clone id)).sum := by
  simp [tally, clones, Function.comp_def]

def Hand.weight (φ : Nat → Callback → Nat) : Hand → Nat
  | .idle => 0
  | .taken id callback | .running id callback => φ id callback

def Service.stock (φ : Nat → Callback → Nat) (s : Service) : Nat :=
  s.registry.stock φ + s.hand.weight φ

namespace World

def Serving (w : World) : Prop :=
  ∃ g worker, w.slot = .running g worker ∧ (w.services g).registry.stopRequested = false

def alive (w : World) : Nat :=
  match w.slot with
  | .running g _ => (w.services g).registry.alive
  | _ => 0

def aliveOf (w : World) (id : Nat) : Nat :=
  match w.slot with
  | .running g _ => (w.services g).registry.aliveOf id
  | _ => 0

def stock (φ : Nat → Callback → Nat) (w : World) : Nat :=
  match w.slot.service with
  | some g => (w.services g).stock φ
  | none => 0

end World

def Phase.Fits (w : World) : Phase → Prop
  | .create => w.state = .initializing ∧ w.slot = .stopped
  | .started | .ready => w.state = .initializing ∧ w.Serving
  | .stop => w.state = .shuttingDown ∧ w.Serving
  | .checking g => w.state = .shuttingDown ∧
      ∃ worker, w.slot = .running g worker ∧ (w.services g).registry.stopRequested = false
  | .cleared g => w.state = .shuttingDown ∧ (w.services g).registry.timers = [] ∧
      ∃ worker, w.slot = .running g worker ∧ (w.services g).registry.stopRequested = false
  | .halted g => w.state = .shuttingDown ∧
      ∃ worker, w.slot = .running g worker ∧ (w.services g).registry.stopRequested = true
  | .draining g worker => w.state = .shuttingDown ∧ (∃ kept, w.slot = .stopping g kept) ∧
      worker = (w.services g).spawned
  | .drained g => w.state = .shuttingDown ∧ (∃ kept, w.slot = .stopping g kept) ∧
      ((w.services g).spawned = true → (w.services g).finished = true)
  | .stopped | .closed => w.state = .shuttingDown ∧ w.slot = .stopped

def Activity.Fits (s : Service) : Activity → Prop
  | .idle | .retiring _ _ => s.hand = .idle
  | .taken id => ∃ callback, s.hand = .taken id callback
  | .running id => ∃ callback, s.hand = .running id callback
  | .stopping => s.hand = .idle ∧ s.registry.stopRequested = true

/-- The runtime state, the slot and the services agree. -/
structure Staged (w : World) (M : Multiset Token) : Prop where
  guard : tally Token.guards M =
    if w.state = .initializing ∨ w.state = .shuttingDown then 1 else 0
  fits : ∀ phase, .transition phase ∈ M → phase.Fits w
  running : w.state = .running → w.Serving
  uninitialized : w.state = .uninitialized → w.slot = .stopped
  known : ∀ x ∈ M, ∀ g, x.Knows g → g < w.created
  current : ∀ g, w.slot.service = some g → g < w.created
  fresh : ∀ g, w.created ≤ g → w.services g = Service.new
  manned : ∀ g worker, w.slot = .running g worker → worker = (w.services g).spawned
  halted : ∀ g, g < w.created → (∀ worker, w.slot ≠ .running g worker) →
    (w.services g).registry.stopRequested = true
  ended : ∀ g, w.slot.service ≠ some g → (w.services g).spawned = true →
    (w.services g).finished = true

/-- A service with `held` references in the slot, `refs` elsewhere, and `loops` loops of its
worker. -/
structure Service.Sound (s : Service) (held refs loops : Nat) : Prop where
  wf : s.registry.Wf s.hand.out
  life : loops + s.ready.toNat + s.finished.toNat = s.spawned.toNat
  resting : loops = 0 → s.hand = .idle
  counted : s.refs = held + refs + loops + s.ready.toNat
  emptied : s.registry.stopRequested = true → s.registry.timers = []

structure Leased (w : World) (M : Multiset Token) : Prop where
  count : w.leases = w.objects + tally Token.leases M + w.alive
  running : 0 < w.leases → w.state = .running
  bound : ∀ x ∈ M, ∀ g, x.Bound g → ∃ worker, w.slot = .running g worker

structure Enrolled (w : World) (M : Multiset Token) : Prop where
  entry : ∀ id, min (w.handles.strong id) 1 + tally (Token.entries id) M =
    w.aliveOf id
  clones : ∀ id, w.handles.strong id = w.handles.owned id + tally (Token.clones id) M +
    w.stock fun _ callback => callback.captures.count id

structure Inv (w : World) (M : Multiset Token) : Prop where
  staged : Staged w M
  sound : ∀ g, (w.services g).Sound (w.slot.holds g) (tally (Token.refs g) M)
    (tally (Token.loops g) M)
  activity : ∀ g a, .loop g a ∈ M → a.Fits (w.services g)
  leased : Leased w M
  enrolled : Enrolled w M

theorem inv_init (now : Duration) : Inv (World.init now) 0 where
  staged := by
    constructor <;> simp [World.init, Slot.service, Service.new]
  sound g := by
    refine ⟨Registry.wf_new, rfl, fun _ => rfl, ?_, ?_⟩
    · simp [World.init, Service.new, Slot.holds]
    · intro h
      cases h
  activity g a h := by simp at h
  leased := by constructor <;> simp [World.init, World.alive]
  enrolled := by
    constructor <;> simp [World.init, World.aliveOf, World.stock, Slot.service, Handles.empty]

/-! ## What the invariant says of single tokens -/

section Facts

variable {w : World} {M R : Multiset Token} {g : Nat}

theorem Staged.alone {phase : Phase} (h : Staged w ({.transition phase} + R)) (q : Phase) :
    .transition q ∉ R := by
  intro hq
  have hle : 1 ≤ tally Token.guards R := le_tally (f := Token.guards) hq
  have hguard := h.guard
  simp only [tally_add, tally_singleton, Token.guards] at hguard
  split at hguard <;> omega

theorem Staged.untouched (h : Staged w M) (hi : w.state ≠ .initializing)
    (hs : w.state ≠ .shuttingDown) (q : Phase) : .transition q ∉ M := by
  intro hq
  have hle : 1 ≤ tally Token.guards M := le_tally (f := Token.guards) hq
  have hguard := h.guard
  rw [if_neg (by simp [hi, hs])] at hguard
  omega

theorem Inv.loop_alone {a : Activity} (h : Inv w ({.loop g a} + R)) :
    tally (Token.loops g) R = 0 ∧ ∀ b, .loop g b ∉ R := by
  have hlife := (h.sound g).life
  have hspawned := Bool.toNat_le (w.services g).spawned
  simp only [tally_add, tally_singleton, Token.loops, if_true] at hlife
  have hzero : tally (Token.loops g) R = 0 := by omega
  refine ⟨hzero, fun b hb => ?_⟩
  have hle : Token.loops g (.loop g b) ≤ tally (Token.loops g) R := le_tally hb
  simp only [Token.loops, if_true] at hle
  omega

/-- A worker that has not finished belongs to the service in the slot. -/
theorem Inv.current_of_loop {a : Activity} (h : Inv w M) (ha : .loop g a ∈ M) :
    w.slot.service = some g := by
  by_contra hne
  have hlife := (h.sound g).life
  have hle : Token.loops g (.loop g a) ≤ tally (Token.loops g) M := le_tally ha
  simp only [Token.loops, if_true] at hle
  have hspawned : (w.services g).spawned = true := by
    cases hs : (w.services g).spawned with
    | true => rfl
    | false =>
      simp only [hs, Bool.toNat_false] at hlife
      omega
  have hfin := h.staged.ended g hne hspawned
  simp only [hspawned, hfin, Bool.toNat_true] at hlife
  omega

/-- A service that is not the running one has no timers left. -/
theorem Inv.timers_nil (h : Inv w M) (hg : ∀ worker, w.slot ≠ .running g worker) :
    (w.services g).registry.timers = [] := by
  by_cases hlt : g < w.created
  · exact (h.sound g).emptied (h.staged.halted g hlt hg)
  · rw [h.staged.fresh g (Nat.le_of_not_lt hlt)]
    rfl

theorem Inv.known_of_slot {worker : Bool} (h : Inv w M) (hslot : w.slot = .running g worker) :
    g < w.created :=
  h.staged.current g (by rw [hslot]; rfl)

theorem Inv.leases_pos {x : Token} (h : Inv w M) (hx : x ∈ M) (hl : 0 < x.leases) :
    0 < w.leases := by
  have hle : x.leases ≤ tally Token.leases M := le_tally hx
  have hcount := h.leased.count
  omega

theorem Inv.aliveOf_le_one (h : Inv w M) (id : Nat) : w.aliveOf id ≤ 1 := by
  rw [World.aliveOf]
  split
  · exact Registry.aliveOf_le_one (h.sound _).wf.distinct
  · exact Nat.zero_le 1

theorem Inv.leases_of_aliveOf {id : Nat} (h : Inv w M) (hpos : 0 < w.aliveOf id) :
    0 < w.leases := by
  have hcount := h.leased.count
  have hle : w.aliveOf id ≤ w.alive := by
    rw [World.aliveOf, World.alive]
    split
    · exact Registry.aliveOf_le_alive
    · exact Nat.le_refl _
  omega

end Facts

/-! ## Exchanges that leave the slot alone -/

section Transfer

variable {w w' : World} {c p R : Multiset Token} {g : Nat} {s' : Service}

structure Service.Like (s s' : Service) : Prop where
  stop : s'.registry.stopRequested = s.registry.stopRequested
  spawned : s'.spawned = s.spawned
  finished : s.finished = true → s'.finished = true

theorem Service.Like.refl (s : Service) : s.Like s := ⟨rfl, rfl, id⟩

/-- The parts of the state that only `initialize`, `shutdown` and the creation of a worker
change. -/
structure World.Like (w w' : World) : Prop where
  state : w'.state = w.state
  slot : w'.slot = w.slot
  created : w'.created = w.created
  services : ∀ g, (w.services g).Like (w'.services g)
  fresh : ∀ g, w.created ≤ g → w'.services g = w.services g
  cleared : ∀ g, w.state = .shuttingDown → (w.services g).registry.timers = [] →
    (w'.services g).registry.timers = []

theorem World.Like.of_services (hstate : w'.state = w.state) (hslot : w'.slot = w.slot)
    (hcreated : w'.created = w.created) (hservices : w'.services = w.services) : w.Like w' where
  state := hstate
  slot := hslot
  created := hcreated
  services g := by
    rw [hservices]
    exact .refl _
  fresh g _ := by rw [hservices]
  cleared g _ h := by rwa [hservices]

theorem World.Like.adjust (hstate : w'.state = w.state) (hslot : w'.slot = w.slot)
    (hcreated : w'.created = w.created)
    (hservices : w'.services = Function.update w.services g s')
    (hg : g < w.created) (hlike : (w.services g).Like s')
    (hcleared : w.state = .shuttingDown → (w.services g).registry.timers = [] →
      s'.registry.timers = []) : w.Like w' where
  state := hstate
  slot := hslot
  created := hcreated
  services h := by
    rw [hservices]
    by_cases hh : h = g
    · subst hh
      simpa using hlike
    · rw [Function.update_of_ne hh]
      exact .refl _
  fresh h hle := by
    rw [hservices, Function.update_of_ne (by omega)]
  cleared h hst ht := by
    rw [hservices]
    by_cases hh : h = g
    · subst hh
      simpa using hcleared hst ht
    · rwa [Function.update_of_ne hh]

theorem World.Like.serving (h : w.Like w') (hs : w.Serving) : w'.Serving := by
  obtain ⟨g, worker, hslot, hstop⟩ := hs
  exact ⟨g, worker, h.slot.trans hslot, (h.services g).stop.trans hstop⟩

theorem Phase.Fits.like {phase : Phase} (h : phase.Fits w) (hl : w.Like w') : phase.Fits w' := by
  cases phase with
  | create | stopped | closed => exact ⟨hl.state.trans h.1, hl.slot.trans h.2⟩
  | started | ready | stop => exact ⟨hl.state.trans h.1, hl.serving h.2⟩
  | checking g | halted g =>
    obtain ⟨hst, worker, hslot, hstop⟩ := h
    exact ⟨hl.state.trans hst, worker, hl.slot.trans hslot, (hl.services g).stop.trans hstop⟩
  | cleared g =>
    obtain ⟨hst, ht, worker, hslot, hstop⟩ := h
    exact ⟨hl.state.trans hst, hl.cleared g hst ht, worker, hl.slot.trans hslot,
      (hl.services g).stop.trans hstop⟩
  | draining g worker =>
    obtain ⟨hst, ⟨kept, hslot⟩, hworker⟩ := h
    exact ⟨hl.state.trans hst, ⟨kept, hl.slot.trans hslot⟩,
      hworker.trans (hl.services g).spawned.symm⟩
  | drained g =>
    obtain ⟨hst, ⟨kept, hslot⟩, hfinished⟩ := h
    refine ⟨hl.state.trans hst, ⟨kept, hl.slot.trans hslot⟩, fun hs => ?_⟩
    rw [(hl.services g).spawned] at hs
    exact (hl.services g).finished (hfinished hs)

theorem Staged.like (h : Staged w (c + R)) (hl : w.Like w')
    (hguard : tally Token.guards p = tally Token.guards c)
    (hfits : ∀ phase, .transition phase ∈ p → phase.Fits w')
    (hknown : ∀ x ∈ p, ∀ g, x.Knows g → g < w.created) : Staged w' (p + R) where
  guard := by
    have hg := h.guard
    rw [tally_add] at hg ⊢
    rw [hguard, hl.state]
    exact hg
  fits phase hmem := by
    rcases Multiset.mem_add.mp hmem with hmem | hmem
    · exact hfits phase hmem
    · exact (h.fits phase (Multiset.mem_add.mpr (.inr hmem))).like hl
  running hst := hl.serving (h.running (hl.state ▸ hst))
  uninitialized hst := hl.slot.trans (h.uninitialized (hl.state ▸ hst))
  known x hx g hk := by
    rw [hl.created]
    rcases Multiset.mem_add.mp hx with hx | hx
    · exact hknown x hx g hk
    · exact h.known x (Multiset.mem_add.mpr (.inr hx)) g hk
  current g hg := by
    rw [hl.slot] at hg
    rw [hl.created]
    exact h.current g hg
  fresh g hg := by
    rw [hl.created] at hg
    rw [hl.fresh g hg]
    exact h.fresh g hg
  manned g worker hs := by
    rw [hl.slot] at hs
    rw [(hl.services g).spawned]
    exact h.manned g worker hs
  halted g hg hs := by
    rw [hl.created] at hg
    rw [hl.slot] at hs
    rw [(hl.services g).stop]
    exact h.halted g hg hs
  ended g hs hsp := by
    rw [hl.slot] at hs
    rw [(hl.services g).spawned] at hsp
    exact (hl.services g).finished (h.ended g hs hsp)

theorem Leased.like (h : Leased w (c + R)) (hl : w.Like w') (hleases : w'.leases = w.leases)
    (hobjects : w'.objects = w.objects) (halive : w'.alive = w.alive)
    (htokens : tally Token.leases p = tally Token.leases c)
    (hbound : ∀ x ∈ p, ∀ g, x.Bound g → ∃ worker, w.slot = .running g worker) :
    Leased w' (p + R) where
  count := by
    have hcount := h.count
    rw [tally_add] at hcount ⊢
    rw [hleases, hobjects, halive, htokens]
    exact hcount
  running hpos := hl.state.trans (h.running (hleases ▸ hpos))
  bound x hx g hb := by
    rw [hl.slot]
    rcases Multiset.mem_add.mp hx with hx | hx
    · exact hbound x hx g hb
    · exact h.bound x (Multiset.mem_add.mpr (.inr hx)) g hb

theorem Enrolled.like (h : Enrolled w (c + R)) (hhandles : w'.handles = w.handles)
    (halive : ∀ id, w'.aliveOf id = w.aliveOf id)
    (hentries : ∀ id, tally (Token.entries id) p = tally (Token.entries id) c)
    (hclones : ∀ id, tally (Token.clones id) p +
        w'.stock (fun _ callback => callback.captures.count id) =
      tally (Token.clones id) c + w.stock fun _ callback => callback.captures.count id) :
    Enrolled w' (p + R) where
  entry id := by
    have hentry := h.entry id
    rw [tally_add] at hentry ⊢
    rw [hhandles, halive, hentries]
    exact hentry
  clones id := by
    have hcl := h.clones id
    have heq := hclones id
    rw [tally_add] at hcl ⊢
    rw [hhandles]
    omega

theorem Activity.Fits.mono {a : Activity} {s s' : Service} (h : a.Fits s) (hhand : s'.hand = s.hand)
    (hstop : s.registry.stopRequested = true → s'.registry.stopRequested = true) : a.Fits s' := by
  cases a with
  | idle | retiring => exact hhand.trans h
  | taken id | running id =>
    obtain ⟨cb, hcb⟩ := h
    exact ⟨cb, hhand.trans hcb⟩
  | stopping => exact ⟨hhand.trans h.1, hstop h.2⟩

theorem World.counts_of_update (hslot : w'.slot = w.slot)
    (hservices : w'.services = Function.update w.services g s')
    (halive : s'.registry.alive = (w.services g).registry.alive)
    (haliveOf : ∀ id, s'.registry.aliveOf id = (w.services g).registry.aliveOf id) :
    w'.alive = w.alive ∧ ∀ id, w'.aliveOf id = w.aliveOf id := by
  rw [World.alive, World.alive, hslot, hservices]
  refine ⟨?_, fun id => ?_⟩
  · split
    · rename_i h worker _
      by_cases hh : h = g
      · subst hh
        simpa using halive
      · rw [Function.update_of_ne hh]
    · rfl
  · rw [World.aliveOf, World.aliveOf, hslot, hservices]
    split
    · rename_i h worker _
      by_cases hh : h = g
      · subst hh
        simpa using haliveOf id
      · rw [Function.update_of_ne hh]
    · rfl

theorem World.stock_of_update {φ : Nat → Callback → Nat} (hslot : w'.slot = w.slot)
    (hservices : w'.services = Function.update w.services g s') :
    w'.stock φ + (if w.slot.service = some g then (w.services g).stock φ else 0) =
      w.stock φ + (if w.slot.service = some g then s'.stock φ else 0) := by
  rw [World.stock, World.stock, hslot, hservices]
  cases hcur : w.slot.service with
  | none => simp
  | some h =>
    by_cases hh : h = g
    · subst hh
      simp [Nat.add_comm]
    · simp [hh]

theorem Inv.exchange (h : Inv w (c + R)) (hl : w.Like w') (hservices : w'.services = w.services)
    (hguard : tally Token.guards p = tally Token.guards c)
    (hfits : ∀ phase, .transition phase ∈ p → phase.Fits w')
    (hknown : ∀ x ∈ p, ∀ g, x.Knows g → g < w.created)
    (hrefs : ∀ g, tally (Token.refs g) p = tally (Token.refs g) c)
    (hloops : ∀ g, tally (Token.loops g) p = tally (Token.loops g) c)
    (hact : ∀ g a, .loop g a ∈ p → a.Fits (w.services g))
    (hleased : Leased w' (p + R)) (henrolled : Enrolled w' (p + R)) : Inv w' (p + R) where
  staged := h.staged.like hl hguard hfits hknown
  sound g := by
    have hsound := h.sound g
    rw [tally_add, tally_add] at hsound ⊢
    rw [hservices, hl.slot, hrefs, hloops]
    exact hsound
  activity g a hmem := by
    rw [hservices]
    rcases Multiset.mem_add.mp hmem with hmem | hmem
    · exact hact g a hmem
    · exact h.activity g a (Multiset.mem_add.mpr (.inr hmem))
  leased := hleased
  enrolled := henrolled

theorem Inv.swap (h : Inv w (c + R))
    (hguard : tally Token.guards p = tally Token.guards c)
    (hfits : ∀ phase, .transition phase ∈ p → phase.Fits w)
    (hknown : ∀ x ∈ p, ∀ g, x.Knows g → g < w.created)
    (hrefs : ∀ g, tally (Token.refs g) p = tally (Token.refs g) c)
    (hloops : ∀ g, tally (Token.loops g) p = tally (Token.loops g) c)
    (hact : ∀ g a, .loop g a ∈ p → a.Fits (w.services g))
    (hleases : tally Token.leases p = tally Token.leases c)
    (hbound : ∀ x ∈ p, ∀ g, x.Bound g → ∃ worker, w.slot = .running g worker)
    (hentries : ∀ id, tally (Token.entries id) p = tally (Token.entries id) c)
    (hclones : ∀ id, tally (Token.clones id) p = tally (Token.clones id) c) : Inv w (p + R) := by
  have hl : w.Like w := .of_services rfl rfl rfl rfl
  refine h.exchange hl rfl hguard hfits hknown hrefs hloops hact ?_ ?_
  · exact h.leased.like hl rfl rfl rfl hleases hbound
  · exact h.enrolled.like rfl (fun _ => rfl) hentries fun id => by rw [hclones id]

theorem Inv.service (h : Inv w (c + R)) (hl : w.Like w')
    (hservices : w'.services = Function.update w.services g s')
    (hguard : tally Token.guards p = tally Token.guards c)
    (hfits : ∀ phase, .transition phase ∈ p → phase.Fits w')
    (hknown : ∀ x ∈ p, ∀ g, x.Knows g → g < w.created)
    (hsound : s'.Sound (w.slot.holds g) (tally (Token.refs g) (p + R))
      (tally (Token.loops g) (p + R)))
    (hother : ∀ i, i ≠ g → tally (Token.refs i) p = tally (Token.refs i) c ∧
      tally (Token.loops i) p = tally (Token.loops i) c)
    (hact : ∀ a, .loop g a ∈ p + R → a.Fits s') (hact' : ∀ i, i ≠ g → ∀ a, .loop i a ∉ p)
    (hleased : Leased w' (p + R)) (henrolled : Enrolled w' (p + R)) : Inv w' (p + R) where
  staged := h.staged.like hl hguard hfits hknown
  sound i := by
    by_cases hi : i = g
    · subst hi
      rw [hservices, hl.slot, Function.update_self]
      exact hsound
    · have hi' := h.sound i
      rw [tally_add, tally_add] at hi' ⊢
      rw [hservices, hl.slot, Function.update_of_ne hi, (hother i hi).1, (hother i hi).2]
      exact hi'
  activity i a hmem := by
    by_cases hi : i = g
    · subst hi
      rw [hservices, Function.update_self]
      exact hact a hmem
    · rw [hservices, Function.update_of_ne hi]
      rcases Multiset.mem_add.mp hmem with hmem | hmem
      · exact absurd hmem (hact' i hi a)
      · exact h.activity i a (Multiset.mem_add.mpr (.inr hmem))
  leased := hleased
  enrolled := henrolled

theorem Inv.aside (h : Inv w R) (configured : Bool) (now : Duration) :
    Inv { w with configured, now } R := by
  have hl : w.Like { w with configured, now } := .of_services rfl rfl rfl rfl
  rw [← zero_add R] at h ⊢
  refine h.exchange hl rfl rfl (by simp) (by simp) (fun _ => rfl) (fun _ => rfl) (by simp) ?_ ?_
  · exact h.leased.like hl rfl rfl rfl rfl (by simp)
  · exact h.enrolled.like rfl (fun _ => rfl) (fun _ => rfl) fun _ => rfl

end Transfer

section Swaps

variable {w : World} {R : Multiset Token} {g id : Nat} {callback : Callback}

theorem Inv.transition {phase phase' : Phase} (h : Inv w ({.transition phase} + R))
    (hfits : phase'.Fits w) (hknown : ∀ g, (Token.transition phase').Knows g → g < w.created) :
    Inv w ({.transition phase'} + R) := by
  refine h.swap ?_ ?_ ?_ ?_ ?_ ?_ ?_ ?_ ?_ ?_
  · simp [Token.guards]
  · intro q hq
    obtain rfl : q = phase' := by simpa using hq
    exact hfits
  · intro x hx g hk
    obtain rfl := Multiset.mem_singleton.mp hx
    exact hknown g hk
  · simp [Token.refs]
  · simp [Token.loops]
  · simp
  · simp [Token.leases]
  · simp [Token.Bound]
  · simp [Token.entries]
  · simp [Token.clones]

theorem Inv.fits {phase : Phase} (h : Inv w ({.transition phase} + R)) : phase.Fits w :=
  h.staged.fits phase (by simp)

theorem Inv.knows {x : Token} (h : Inv w ({x} + R)) (hk : x.Knows g) : g < w.created :=
  h.staged.known x (by simp) g hk

theorem Inv.rebind {x y : Token} (h : Inv w ({x} + R))
    (hx : (∃ b, x = .lease b) ∧ (∃ b, y = .lease b) ∨ ∃ i, (∃ b, x = .last b i) ∧ ∃ b, y = .last b i)
    (hy : ∀ g, y.Bound g → ∃ worker, w.slot = .running g worker) : Inv w ({y} + R) := by
  have hknown : ∀ g, y.Knows g → g < w.created := by
    intro g hk
    have hb : y.Bound g := by
      rcases hx with ⟨-, b, rfl⟩ | ⟨i, -, b, rfl⟩ <;> cases b <;> exact hk
    obtain ⟨worker, hslot⟩ := hy g hb
    exact h.known_of_slot hslot
  refine h.swap ?_ ?_ ?_ ?_ ?_ ?_ ?_ ?_ ?_ ?_
  · rcases hx with ⟨⟨_, rfl⟩, _, rfl⟩ | ⟨_, ⟨_, rfl⟩, _, rfl⟩ <;> rfl
  · intro q hq
    rcases hx with ⟨-, _, rfl⟩ | ⟨_, -, _, rfl⟩ <;> simp at hq
  · intro z hz g hk
    obtain rfl := Multiset.mem_singleton.mp hz
    exact hknown g hk
  · rcases hx with ⟨⟨_, rfl⟩, _, rfl⟩ | ⟨_, ⟨_, rfl⟩, _, rfl⟩ <;> simp [Token.refs]
  · rcases hx with ⟨⟨_, rfl⟩, _, rfl⟩ | ⟨_, ⟨_, rfl⟩, _, rfl⟩ <;> simp [Token.loops]
  · intro g a ha
    rcases hx with ⟨-, _, rfl⟩ | ⟨_, -, _, rfl⟩ <;> simp at ha
  · rcases hx with ⟨⟨_, rfl⟩, _, rfl⟩ | ⟨_, ⟨_, rfl⟩, _, rfl⟩ <;> simp [Token.leases]
  · intro z hz g hb
    obtain rfl := Multiset.mem_singleton.mp hz
    exact hy g hb
  · rcases hx with ⟨⟨_, rfl⟩, _, rfl⟩ | ⟨_, ⟨_, rfl⟩, _, rfl⟩ <;> simp [Token.entries]
  · rcases hx with ⟨⟨_, rfl⟩, _, rfl⟩ | ⟨_, ⟨_, rfl⟩, _, rfl⟩ <;> simp [Token.clones]

private theorem sum_count (captures : List Nat) (id : Nat) :
    (captures.map fun i => if i = id then 1 else 0).sum = captures.count id := by
  induction captures with
  | nil => rfl
  | cons i captures ih =>
    rw [List.map_cons, List.sum_cons, ih, List.count_cons, Nat.add_comm]
    simp

/-- A closure is dropped: its captures become clones of their own, and the rest of what its
owner had stays. -/
theorem Inv.open {x : Token} {Y : Multiset Token} (h : Inv w ({x} + R))
    (hx : ∀ id, x.clones id = callback.captures.count id + tally (Token.clones id) Y)
    (hguard : tally Token.guards Y = x.guards) (hlease : tally Token.leases Y = x.leases)
    (hrefs : ∀ g, tally (Token.refs g) Y = x.refs g)
    (hloops : ∀ g, tally (Token.loops g) Y = x.loops g)
    (hentries : ∀ id, tally (Token.entries id) Y = x.entries id)
    (hY : ∀ y ∈ Y, (∀ phase, y ≠ .transition phase) ∧ (∀ g, y.Knows g → x.Knows g) ∧
      (∀ g, ¬ y.Bound g) ∧ ∀ g a, y = .loop g a → a.Fits (w.services g)) :
    Inv w (clones callback + Y + R) := by
  have hmem : ∀ z, z ∈ clones callback + Y → (∃ id, z = .clone id) ∨ z ∈ Y := by
    intro z hz
    rcases Multiset.mem_add.mp hz with hz | hz
    · obtain ⟨id, -, rfl⟩ := Multiset.mem_map.mp hz
      exact .inl ⟨id, rfl⟩
    · exact .inr hz
  refine h.swap ?_ ?_ ?_ ?_ ?_ ?_ ?_ ?_ ?_ ?_
  · simpa [Token.guards] using hguard
  · intro q hq
    rcases hmem _ hq with ⟨id, he⟩ | hy
    · cases he
    · exact absurd rfl ((hY _ hy).1 q)
  · intro z hz g hk
    rcases hmem z hz with ⟨id, rfl⟩ | hy
    · cases hk
    · exact h.knows ((hY z hy).2.1 g hk)
  · intro g
    simpa [Token.refs] using hrefs g
  · intro g
    simpa [Token.loops] using hloops g
  · intro g a ha
    rcases hmem _ ha with ⟨id, he⟩ | hy
    · cases he
    · exact (hY _ hy).2.2.2 g a rfl
  · simpa [Token.leases] using hlease
  · intro z hz g hb
    rcases hmem z hz with ⟨id, rfl⟩ | hy
    · cases hb
    · exact absurd hb ((hY z hy).2.2.1 g)
  · intro id
    simpa [Token.entries] using hentries id
  · intro id
    have hsum : (callback.captures.map fun i => Token.clones id (.clone i)).sum =
        callback.captures.count id := sum_count callback.captures id
    rw [tally_add, tally_clones, hsum, tally_singleton, hx]

end Swaps

end OsalRust.Timer
