import OsalRust.Timer.BackendExchanges

/-!
# Laws of a timer backend

What the machine of the exchanges promises over whole runs. Each service, seen alone, is a
dispatcher: the projection carries the results about dispatching over to every backend. Over the
whole machine, every registered closure is in exactly one place until it is dropped, callbacks
of different services never run at the same time, and a shutdown leaves nothing behind.
-/

namespace OsalRust.Timer

open OsalRust OsalRust.Framework OsalRust.Runtime

/-! ## Each service is a dispatcher -/

def World.dispatcher (w : World) (g : Nat) : Dispatcher where
  registry := (w.services g).registry
  hand := (w.services g).hand
  now := w.now

def Label.at (g : Nat) : Label → Event
  | .service h event => if h = g then event else .tick
  | _ => .tick

section Projection

variable {w w' : World} {c p R : Multiset Token} {l : Label} {s' : Service} {i : Nat}

theorem World.dispatcher_of_update (g : Nat)
    (hservices : w'.services = Function.update w.services i s') :
    w'.dispatcher g = { w.dispatcher g with now := w'.now } ∨
      g = i ∧ w'.dispatcher g = ⟨s'.registry, s'.hand, w'.now⟩ := by
  by_cases hg : g = i
  · subst hg
    exact .inr ⟨rfl, by simp [World.dispatcher, hservices]⟩
  · exact .inl (by simp [World.dispatcher, hservices, hg])

theorem Exchange.dispatcher_eq (hx : Exchange w c l w' p) (hl : ∀ h e, l ≠ .service h e) (g : Nat) :
    w'.dispatcher g = w.dispatcher g := by
  have clerical : ∀ {w w' : World} {s' : Service} (i : Nat),
      w'.services = Function.update w.services i s' → w'.now = w.now →
      s'.registry = (w.services i).registry → s'.hand = (w.services i).hand →
      w'.dispatcher g = w.dispatcher g := by
    intro w w' s' i hservices hnow hr hh
    rcases World.dispatcher_of_update g hservices with hd | ⟨rfl, hd⟩
    · rw [hd, hnow]
      rfl
    · rw [hd, hr, hh, hnow]
      rfl
  induction hx with
  | frame _ _ ih => exact ih hl
  | before _ _ _ ih₁ ih₂ => exact (ih₂ hl).trans (ih₁ (by simp))
  | after _ _ _ ih₁ ih₂ => exact (ih₂ (by simp)).trans (ih₁ hl)
  | @create w => exact clerical w.created rfl rfl rfl rfl
  | @share w g => exact clerical g rfl rfl rfl rfl
  | @spawn w g => exact clerical g rfl rfl rfl rfl
  | @startWorker w g => exact clerical g rfl rfl rfl rfl
  | @finish w g => exact clerical g rfl rfl rfl rfl
  | halt | release | destroy | serve | enroll | remove | purge | select | selectNone | begin
  | tick | callbackIdle | callbackCall | callbackYields | callbackCaptures | restore =>
    exact absurd rfl (hl _ _)
  | idle | beginInitialize | configure | commitInitialize | rollbackInitialize | beginShutdown
  | check | refuse | clear | stopping | drained | cleanUp | deconfigure | commitShutdown
  | rollbackShutdown | acquire | dropLease | acquireObject | dropObject | bindLease | unbindLease
  | bindLast | use | unuse | turnDown | call | adopt | dropClone | dropLast | dropClosure
  | dropRemoved | dropRetired | observeStop => rfl

/-- A step of one dispatcher is a reading of the clock for the others. -/
theorem World.dispatch_of_update {e : Event} (g : Nat)
    (hservices : w'.services = Function.update w.services i s') (hnow : w.now ≤ w'.now)
    (hstep : Dispatcher.Step (w.dispatcher i) e ⟨s'.registry, s'.hand, w'.now⟩) :
    Dispatcher.Step (w.dispatcher g) ((Label.service i e).at g) (w'.dispatcher g) := by
  by_cases hg : i = g
  · subst hg
    have hd : w'.dispatcher i = ⟨s'.registry, s'.hand, w'.now⟩ := by
      simp [World.dispatcher, hservices]
    simpa [Label.at, hd] using hstep
  · rcases World.dispatcher_of_update g hservices with hd | ⟨hgi, -⟩
    · rw [hd, Label.at, if_neg hg]
      exact .tick hnow
    · exact absurd hgi.symm hg

private theorem Exchange.dispatch_service {e : Event} (hx : Exchange w c l w' p)
    (hl : l = .service i e) (g : Nat) :
    ∀ R, Inv w (c + R) → Dispatcher.Step (w.dispatcher g) (l.at g) (w'.dispatcher g) := by
  have idle_of_loop : ∀ {w : World} {i : Nat} {R : Multiset Token},
      Inv w ({.loop i .idle} + R) → (w.dispatcher i).hand = .idle := by
    intro w i R h
    exact h.activity i .idle (Multiset.mem_add.mpr (.inl (Multiset.mem_singleton_self _)))
  have update_self : ∀ (w : World) (i : Nat),
      w.services = Function.update w.services i (w.services i) := by
    intro w i
    rw [Function.update_eq_self]
  induction hx with
  | frame R' _ ih =>
    intro R h
    rw [add_assoc] at h
    exact ih hl (R' + R) h
  | before _ h₁ h₂ _ ih₂ =>
    intro R h
    rw [← h₁.dispatcher_eq (by simp) g]
    exact ih₂ hl R (h₁.inv R h)
  | after _ h₁ h₂ ih₁ _ =>
    intro R h
    rw [h₂.dispatcher_eq (by simp) g]
    exact ih₁ hl R h
  | halt => exact fun R h => World.dispatch_of_update g rfl (Nat.le_refl _) .halt
  | release => exact fun R h => World.dispatch_of_update g rfl (Nat.le_refl _) .release
  | destroy hrefs =>
    intro R h
    have hnil := (h.destroy hrefs).1
    refine World.dispatch_of_update g rfl (Nat.le_refl _) (.destroy ?_)
    simp [World.dispatcher, hnil]
  | serve _ hnow _ _ => exact fun R h => World.dispatch_of_update g rfl hnow (.serve hnow)
  | enroll hnow _ => exact fun R h => World.dispatch_of_update g rfl hnow (.serve hnow)
  | remove hnow => exact fun R h => World.dispatch_of_update g rfl hnow (.serve hnow)
  | purge => exact fun R h => World.dispatch_of_update g rfl (Nat.le_refl _) .purge
  | select hnow hsel =>
    exact fun R h => World.dispatch_of_update g rfl hnow (.select (idle_of_loop h) hnow hsel)
  | selectNone hnow hsel hnone =>
    exact fun R h => World.dispatch_of_update g rfl hnow
      (.selectNone (idle_of_loop h) hnow hsel hnone)
  | begin hhand => exact fun R h => World.dispatch_of_update g rfl (Nat.le_refl _) (.begin hhand)
  | tick hnow => exact fun R h => World.dispatch_of_update g (update_self _ _) hnow (.tick hnow)
  | callbackIdle hhand | callbackCall hhand =>
    intro R h
    refine World.dispatch_of_update g (update_self _ _) (Nat.le_refl _) ?_
    rw [hhand]
    exact .adapt hhand
  | callbackYields hhand | callbackCaptures hhand =>
    exact fun R h => World.dispatch_of_update g rfl (Nat.le_refl _) (.adapt hhand)
  | restore hhand =>
    exact fun R h => World.dispatch_of_update g rfl (Nat.le_refl _) (.restore hhand)
  | _ => cases hl

/-- An exchange on a service is a step of its dispatcher. -/
theorem Exchange.dispatch (hx : Exchange w c l w' p) (g : Nat) (h : Inv w (c + R)) :
    Dispatcher.Step (w.dispatcher g) (l.at g) (w'.dispatcher g) := by
  cases l with
  | service i e => exact hx.dispatch_service rfl g R h
  | drop | initialized | shut | tau =>
    rw [hx.dispatcher_eq (by simp) g]
    exact .tick (Nat.le_refl _)

/-- Every run segment of the machine is one of each dispatcher. -/
theorem machine_dispatch {s s' : World × Multiset Token} {tr : List Label}
    (hs : machine.Steps s tr s') (h : Inv s.1 s.2) (g : Nat) :
    Inv s'.1 s'.2 ∧
      Dispatcher.lts.Steps (s.1.dispatcher g) (tr.map (Label.at g)) (s'.1.dispatcher g) := by
  induction hs with
  | refl => exact ⟨h, .refl _⟩
  | snoc _ hstep ih =>
    obtain ⟨hinv, hsteps⟩ := ih
    rw [← add_zero (Prod.snd _)] at hinv
    have hinv' := hstep.inv 0 hinv
    rw [add_zero] at hinv'
    refine ⟨hinv', ?_⟩
    rw [List.map_append]
    exact hsteps.snoc (hstep.dispatch g hinv)

end Projection

/-! ## Every closure is in one place -/

/-- The closure registered as `id` with service `g` is on its way out. -/
def Token.departing (g id : Nat) : Token → Nat
  | .removed h i _ | .loop h (.retiring i _) => if h = g ∧ i = id then 1 else 0
  | _ => 0

def Service.keeps (s : Service) (id : Nat) : Nat := s.stock fun i _ => if i = id then 1 else 0

/-- The identifier has been given out, or is the one that never is. -/
def Service.issued (s : Service) (id : Nat) : Nat := if id < s.registry.nextId then 1 else 0

def Label.drops (g id : Nat) (l : Label) : Nat := if l = .drop g id then 1 else 0

section Closures

variable {w w' : World} {c p R : Multiset Token} {l : Label} {g id : Nat}

@[simp] private theorem departing_clones (callback : Callback) :
    tally (Token.departing g id) (clones callback) = 0 := by
  simp [Token.departing]

private theorem departing_intent (i : Intent) : tally (Token.departing g id) i.tokens = 0 := by
  cases i with
  | request q => cases q <;> simp [Intent.tokens, Token.departing]
  | dropCallback | dropHandle | idle => simp [Intent.tokens, Token.departing]

/-- No closure of timer `id` of service `g` comes or goes in an exchange, unless it is registered
or dropped. -/
private def Accounted (g id : Nat) (w : World) (c : Multiset Token) (l : Label) (w' : World)
    (p : Multiset Token) : Prop :=
  (w'.services g).keeps id + tally (Token.departing g id) p + l.drops g id +
      (w.services g).issued id =
    (w.services g).keeps id + tally (Token.departing g id) c + (w'.services g).issued id

private theorem Accounted.update {s' : Service} (i : Nat)
    (hservices : w'.services = Function.update w.services i s')
    (hown : s'.keeps id + tally (Token.departing i id) p + l.drops i id +
        (w.services i).issued id =
      (w.services i).keeps id + tally (Token.departing i id) c + s'.issued id)
    (hother : i ≠ g →
      tally (Token.departing g id) p + l.drops g id = tally (Token.departing g id) c) :
    Accounted g id w c l w' p := by
  unfold Accounted
  by_cases hi : g = i
  · subst hi
    rw [hservices, Function.update_self]
    exact hown
  · have htokens := hother (Ne.symm hi)
    rw [hservices, Function.update_of_ne hi]
    omega

private theorem Accounted.enroll {i new : Nat} {period : Duration} {mode : TimerMode}
    {callback : Callback} {reserved : Bool} {now : Duration}
    (hnew : ((w.services i).registry.serve now reserved (.register period mode callback)).1 =
      .registered new) :
    Accounted g id w ({.lease (some i)} + {.closure callback})
      (.service i (.serve (.register period mode callback) reserved))
      (w.serve i now reserved (.register period mode callback)) {.fresh new} := by
  obtain ⟨rfl, -, -, hstock⟩ := Registry.serve_registered_counts
    (φ := fun i _ => if i = id then 1 else 0) hnew
  have hnext := Registry.serve_registered_nextId hnew
  refine .update i rfl ?_ fun _ => by simp [Token.departing, Label.drops]
  simp only [tally_add, tally_singleton, Token.departing, Label.drops, Service.keeps,
    Service.issued, Service.stock, hstock, hnext, reduceCtorEq, if_false]
  split <;> split <;> split <;> omega

private theorem Accounted.remove {i z : Nat} {reserved : Bool} {now : Duration}
    (h : Inv w ({.last (some i) z} + R)) :
    Accounted g id w {.last (some i) z} (.service i (.serve (.deregister z) reserved))
      (w.serve i now reserved (.deregister z))
      (parting i z ((w.services i).registry.callbackOf z)) := by
  obtain ⟨worker, hslot⟩ := h.leased.bound (.last (some i) z) (by simp) i rfl
  have hpos : 0 < (w.services i).registry.aliveOf z := by
    have hpos := h.aliveOf_of_last
    simpa [World.aliveOf, hslot] using hpos
  have hdistinct := (h.sound i).wf.distinct
  have hstock := (Registry.serve_deregister_counts
    (φ := fun i _ => if i = id then 1 else 0) now reserved hdistinct hpos).2.2
  have hnext : ((w.services i).registry.serve now reserved (.deregister z)).2.nextId =
      (w.services i).registry.nextId := by
    rw [Registry.serve_snd now reserved hdistinct rfl]
    rfl
  cases hcb : (w.services i).registry.callbackOf z with
  | none =>
    rw [hcb, Option.elim_none] at hstock
    refine .update i rfl ?_ fun _ => by simp [parting, Token.departing, Label.drops]
    simp only [parting, tally_singleton, Token.departing, Label.drops, Service.keeps,
      Service.issued, Service.stock, hnext, reduceCtorEq, if_false]
    omega
  | some callback =>
    rw [hcb, Option.elim_some] at hstock
    refine .update i rfl ?_ fun hi => by simp [parting, Token.departing, Label.drops, hi]
    simp only [parting, tally_singleton, Token.departing, Label.drops, Service.keeps,
      Service.issued, Service.stock, hnext, reduceCtorEq, if_false, true_and]
    omega

private theorem Accounted.select {i z : Nat} {now : Duration} {callback : Callback} {r : Registry}
    (h : Inv w ({.loop i .idle} + R))
    (hsel : (w.services i).registry.select now = .ok (.dispatch z callback, r)) :
    Accounted g id w {.loop i .idle} (.service i .select)
      { w.adjust i fun s => { s with registry := r, hand := .taken z callback } with now }
      {.loop i (.taken z)} := by
  have hidle : (w.services i).hand = .idle := h.activity i .idle (by simp)
  have hwf := (h.sound i).wf
  rw [hidle] at hwf
  rcases hwf.select_cases hsel with ⟨hno, -, -⟩ | ⟨e, he, cb, dl, hd, hcb, -, -, hs, hr, -⟩
  · cases hno
  cases hs
  have hstock := (Registry.takenOut_counts (φ := fun i _ => if i = id then 1 else 0) now
    hwf.distinct he hd hcb).2.2
  rw [← hr] at hstock
  have hnext : r.nextId = (w.services i).registry.nextId := by
    rw [hr]
    rfl
  refine .update i rfl ?_ fun _ => by simp [Token.departing, Label.drops]
  simp only [tally_singleton, Token.departing, Label.drops, Service.keeps, Service.issued,
    Service.stock, Hand.weight, hidle, hnext, reduceCtorEq, if_false]
  omega

private theorem Accounted.restore {i z : Nat} {callback : Callback}
    (h : Inv w ({.loop i (.running z)} + R)) (hhand : (w.services i).hand = .running z callback) :
    Accounted g id w {.loop i (.running z)} (.service i (.restore z))
      (w.adjust i fun s =>
        { s with registry := (s.registry.restore z callback).2, hand := .idle })
      (returning i z ((w.services i).registry.restore z callback).1) := by
  have hwf := (h.sound i).wf
  rw [hhand] at hwf
  have hstock := (Registry.restore_counts
    (φ := fun i _ => if i = id then 1 else 0) callback hwf).2.2
  have hnext : ((w.services i).registry.restore z callback).2.nextId =
      (w.services i).registry.nextId := by
    rw [Registry.restore_snd hwf.distinct]
    rfl
  cases hrest : ((w.services i).registry.restore z callback).1 with
  | none =>
    rw [hrest, Option.elim_none] at hstock
    refine .update i rfl ?_ fun _ => by simp [returning, Token.departing, Label.drops]
    simp only [returning, tally_singleton, Token.departing, Label.drops, Service.keeps,
      Service.issued, Service.stock, Hand.weight, hhand, hnext, reduceCtorEq, if_false]
    omega
  | some cb =>
    rw [hrest, Option.elim_some] at hstock
    refine .update i rfl ?_ fun hi => by simp [returning, Token.departing, Label.drops, hi]
    simp only [returning, tally_singleton, Token.departing, Label.drops, Service.keeps,
      Service.issued, Service.stock, Hand.weight, hhand, hnext, reduceCtorEq, if_false, true_and]
    omega

private theorem Exchange.closures_step (hx : Exchange w c l w' p) (g id : Nat) :
    ∀ R, Inv w (c + R) → Accounted g id w c l w' p := by
  induction hx with
  | frame R' _ ih =>
    intro R h
    rw [add_assoc] at h
    have hstep := ih (R' + R) h
    unfold Accounted at hstep ⊢
    rw [tally_add, tally_add]
    omega
  | before _ h₁ h₂ ih₁ ih₂ =>
    intro R h
    have hfirst := ih₁ R h
    have hsecond := ih₂ R (h₁.inv R h)
    unfold Accounted at hfirst hsecond ⊢
    simp only [Label.drops, reduceCtorEq, if_false] at hfirst
    omega
  | after _ h₁ h₂ ih₁ ih₂ =>
    intro R h
    have hfirst := ih₁ R h
    have hsecond := ih₂ R (h₁.inv R h)
    unfold Accounted at hfirst hsecond ⊢
    simp only [Label.drops, reduceCtorEq, if_false] at hsecond
    omega
  | @create w =>
    intro R h
    refine .update w.created rfl ?_ fun _ => by simp [Token.departing, Label.drops]
    simp [Token.departing, Label.drops, Service.keeps, Service.issued, Service.stock]
  | @share w i | @release w i | @startWorker w i | @finish w i =>
    intro R h
    refine .update i rfl ?_ fun _ => by simp [Token.departing, Label.drops]
    simp [Token.departing, Label.drops, Service.keeps, Service.issued, Service.stock]
  | @spawn w i =>
    intro R h
    refine .update i rfl ?_ fun _ => by simp [Label.drops]
    simp [Label.drops, Service.keeps, Service.issued, Service.stock]
  | @halt w i =>
    intro R h
    refine .update i rfl ?_ fun _ => by simp [Token.departing, Label.drops]
    simp [Token.departing, Label.drops, Service.keeps, Service.issued, Service.stock,
      Registry.stock, Registry.weigh]
  | @destroy w i hrefs =>
    intro R h
    have hnil := (h.destroy hrefs).1
    refine .update i rfl ?_ fun _ => by simp [hnil, closures, Token.departing, Label.drops]
    simp [hnil, closures, Token.departing, Label.drops, Service.keeps, Service.issued,
      Service.stock, Registry.stock, Registry.weigh]
  | @serve w i x q reserved now hk hnow hq hnew =>
    intro R h
    obtain ⟨-, -, hstock, hnext⟩ :=
      Registry.serve_counts_of_idle (h.sound i).wf.distinct hq hnew
    refine .update i rfl ?_ fun _ => by simp [Label.drops]
    simp [Label.drops, Service.keeps, Service.issued, Service.stock, hstock, hnext]
  | enroll _ hnew => exact fun R h => .enroll hnew
  | remove => exact fun R h => .remove h
  | @purge w i x hk =>
    intro R h
    have hclean := (h.sound i).wf.clean
    have hstock := (Registry.retain_counts
      (φ := fun i _ => if i = id then 1 else 0) hclean).2.2
    refine .update i rfl ?_ fun _ => by
      simp [hclean.retain_fst, closures, Label.drops]
    have hnext : (w.services i).registry.retain.2.nextId = (w.services i).registry.nextId := rfl
    simp [hclean.retain_fst, closures, Label.drops, Service.keeps, Service.issued, Service.stock,
      hstock, hnext]
  | select _ hsel => exact fun R h => .select h hsel
  | @selectNone w i now selection r hnow hsel hnone =>
    intro R h
    have hidle : (w.services i).hand = .idle := h.activity i .idle (by simp)
    have hwf := (h.sound i).wf
    rw [hidle] at hwf
    rcases hwf.select_cases hsel with ⟨-, rfl, -⟩ | ⟨e, he, cb, dl, -, -, -, -, hs, -, -⟩
    · refine .update i rfl ?_ fun _ => by simp [Label.drops]
      simp [Label.drops, Service.keeps, Service.issued, Service.stock]
    · exact absurd hs (hnone _ _)
  | @begin w i z callback hhand =>
    intro R h
    refine .update i rfl ?_ fun _ => by simp [Token.departing, Label.drops]
    simp [Token.departing, Label.drops, Service.keeps, Service.issued, Service.stock, hhand,
      Hand.weight]
  | @callbackYields w i z callback captured hhand | @callbackCaptures w i z callback captured hhand =>
    intro R h
    refine .update i rfl ?_ fun _ => by simp [Token.departing, Label.drops]
    simp [Token.departing, Label.drops, Service.keeps, Service.issued, Service.stock, hhand,
      Hand.weight]
  | restore hhand => exact fun R h => .restore h hhand
  | call =>
    intro R h
    simp [Accounted, departing_intent, Label.drops]
  | callbackCall =>
    intro R h
    simp [Accounted, departing_intent, Label.drops, Token.departing]
  | dropRemoved | dropRetired =>
    intro R h
    simp [Accounted, Label.drops, Token.departing]
  | @stopping w i worker kept | @cleanUp w i j kept =>
    intro R h
    cases kept <;> simp [Accounted, Label.drops, Token.departing]
  | idle =>
    intro R h
    simp [Accounted, Label.drops]
  | beginInitialize | configure | commitInitialize | rollbackInitialize | beginShutdown
  | check | refuse | clear | drained | deconfigure | commitShutdown
  | rollbackShutdown | acquire | dropLease | acquireObject | dropObject | bindLease | unbindLease
  | bindLast | use | unuse | turnDown | adopt | dropClone | dropLast | dropClosure
  | observeStop | tick | callbackIdle =>
    intro R h
    simp [Accounted, Label.drops, Token.departing]

/-- Every registered closure is in an entry of its service, in the hand of the worker, on its
way out, or has been dropped, and only one of these. -/
theorem machine_closures {tr : List Label} {s : World × Multiset Token} (hr : machine.Run tr s)
    (hid : 0 < id) :
    (s.1.services g).keeps id + tally (Token.departing g id) s.2 + tr.count (.drop g id) =
      (s.1.services g).issued id := by
  obtain ⟨s₀, ⟨now, rfl⟩, hs⟩ := hr
  induction hs with
  | refl =>
    have hnot : ¬ id < 1 := by omega
    simp [World.init, Service.new, Service.keeps, Service.issued, Service.stock, Registry.new,
      Registry.stock, Registry.weigh, Hand.weight, hnot]
  | @snoc s₁ s₂ tr l hp hstep ih =>
    have hinv := machine_inv ⟨_, ⟨now, rfl⟩, hp⟩
    rw [← add_zero s₁.2] at hinv
    have hclosures := hstep.closures_step g id 0 hinv
    unfold Accounted at hclosures
    have hcount : (tr ++ [l]).count (.drop g id) = tr.count (.drop g id) + l.drops g id := by
      rw [List.count_append, List.count_singleton, Label.drops]
      simp
    rw [hcount]
    omega

end Closures

/-! ## What is configured besides -/

def Phase.configured : Phase → Bool
  | .create | .started | .closed => false
  | _ => true

/-- The rest of the backend is configured while the runtime is running, and not while it is
uninitialized. -/
structure Configured (w : World) (M : Multiset Token) : Prop where
  fits : ∀ phase, .transition phase ∈ M → w.configured = phase.configured
  running : w.state = .running → w.configured = true
  uninitialized : w.state = .uninitialized → w.configured = false

section Configuration

variable {w w' : World} {c p R : Multiset Token} {l : Label}

private theorem Configured.same (h : Configured w (c + R)) (hc : w'.configured = w.configured)
    (hs : w'.state = w.state) (hp : ∀ phase, .transition phase ∈ p →
      ∃ q, .transition q ∈ c ∧ q.configured = phase.configured) : Configured w' (p + R) where
  fits phase hmem := by
    rw [hc]
    rcases Multiset.mem_add.mp hmem with hmem | hmem
    · obtain ⟨q, hq, he⟩ := hp phase hmem
      rw [← he]
      exact h.fits q (Multiset.mem_add.mpr (.inl hq))
    · exact h.fits phase (Multiset.mem_add.mpr (.inr hmem))
  running hrun := by
    rw [hc]
    exact h.running (hs ▸ hrun)
  uninitialized hun := by
    rw [hc]
    exact h.uninitialized (hs ▸ hun)

private theorem not_transition_clones (callback : Callback) (phase : Phase) :
    .transition phase ∉ clones callback := by
  simp [clones]

private theorem not_transition_closures (callbacks : List Callback) (phase : Phase) :
    .transition phase ∉ closures callbacks := by
  simp [closures]

private theorem not_transition_intent (i : Intent) (phase : Phase) :
    .transition phase ∉ i.tokens := by
  cases i with
  | request q => cases q <;> simp [Intent.tokens]
  | dropCallback | dropHandle | idle => simp [Intent.tokens]

private theorem Exchange.configured (hx : Exchange w c l w' p) :
    ∀ R, Inv w (c + R) → Configured w (c + R) → Configured w' (p + R) := by
  have ends : ∀ {w : World} {phase : Phase} {R : Multiset Token} {state : RuntimeState},
      Inv w ({.transition phase} + R) → Configured w ({.transition phase} + R) →
      (state = .running → phase.configured = true) →
      (state = .uninitialized → phase.configured = false) →
      Configured { w with state } (0 + R) := by
    intro w phase R state h hc hrun hun
    have hphase := hc.fits phase (by simp)
    refine ⟨fun q hq => ?_, fun hst => ?_, fun hst => ?_⟩
    · rw [zero_add] at hq
      exact absurd hq (h.staged.alone q)
    · exact hphase.trans (hrun hst)
    · exact hphase.trans (hun hst)
  induction hx with
  | frame R' _ ih =>
    intro R h hc
    rw [add_assoc] at h hc ⊢
    exact ih (R' + R) h hc
  | before _ h₁ _ ih₁ ih₂ => exact fun R h hc => ih₂ R (h₁.inv R h) (ih₁ R h hc)
  | after _ h₁ _ ih₁ ih₂ => exact fun R h hc => ih₂ R (h₁.inv R h) (ih₁ R h hc)
  | beginInitialize hst =>
    intro R h hc
    rw [zero_add] at h hc
    have hold := hc.uninitialized hst
    refine ⟨fun phase hmem => ?_, by simp, by simp⟩
    rcases Multiset.mem_add.mp hmem with hmem | hmem
    · cases Multiset.mem_singleton.mp hmem
      exact hold
    · exact absurd hmem (h.staged.untouched (by simp [hst]) (by simp [hst]) phase)
  | beginShutdown hst =>
    intro R h hc
    rw [zero_add] at h hc
    have hold := hc.running hst
    refine ⟨fun phase hmem => ?_, by simp, by simp⟩
    rcases Multiset.mem_add.mp hmem with hmem | hmem
    · cases Multiset.mem_singleton.mp hmem
      exact hold
    · exact absurd hmem (h.staged.untouched (by simp [hst]) (by simp [hst]) phase)
  | commitInitialize | rollbackInitialize | commitShutdown | rollbackShutdown =>
    exact fun R h hc => ends h hc (by simp [Phase.configured]) (by simp [Phase.configured])
  | configure =>
    intro R h hc
    have hst := h.fits.1
    refine ⟨fun phase hmem => ?_, fun _ => rfl, fun hun => ?_⟩
    · rcases Multiset.mem_add.mp hmem with hmem | hmem
      · cases Multiset.mem_singleton.mp hmem
        rfl
      · exact absurd hmem (h.staged.alone phase)
    · rw [hst] at hun
      cases hun
  | deconfigure =>
    intro R h hc
    have hst := h.fits.1
    refine ⟨fun phase hmem => ?_, fun hrun => ?_, fun _ => rfl⟩
    · rcases Multiset.mem_add.mp hmem with hmem | hmem
      · cases Multiset.mem_singleton.mp hmem
        rfl
      · exact absurd hmem (h.staged.alone phase)
    · rw [hst] at hrun
      cases hrun
  | @stopping w i worker kept | @cleanUp w i j kept =>
    exact fun R h hc => hc.same rfl rfl (by cases kept <;> simp [Phase.configured])
  | @remove w i z reserved now hnow =>
    refine fun R h hc => hc.same rfl rfl ?_
    cases (w.services i).registry.callbackOf z <;> simp [parting]
  | @restore w i z callback hhand =>
    refine fun R h hc => hc.same rfl rfl ?_
    cases ((w.services i).registry.restore z callback).1 <;> simp [returning]
  | idle => exact fun R h hc => hc
  | serve => exact fun R h hc => hc.same rfl rfl fun phase hmem => ⟨phase, hmem, rfl⟩
  | purge =>
    refine fun R h hc => hc.same rfl rfl fun phase hmem => ?_
    rcases Multiset.mem_add.mp hmem with hmem | hmem
    · exact ⟨phase, hmem, rfl⟩
    · exact absurd hmem (not_transition_closures _ phase)
  | _ =>
    exact fun R h hc => hc.same rfl rfl (by
      simp [Phase.configured, not_transition_clones, not_transition_closures,
        not_transition_intent])

theorem machine_configured {tr : List Label} {s : World × Multiset Token}
    (hr : machine.Run tr s) : Configured s.1 s.2 := by
  refine (hr.induct (I := fun _ s => Configured s.1 s.2) ?_ ?_)
  · rintro s ⟨now, rfl⟩
    exact ⟨by simp, by simp [World.init], by simp [World.init]⟩
  · intro tr s l s' hrun hc hstep
    have hinv := machine_inv hrun
    rw [← add_zero s.2] at hinv hc
    have hc' := hstep.configured 0 hinv hc
    rwa [add_zero] at hc'

end Configuration

/-! ## Callbacks do not overlap -/

section Shutdown

variable {w w' : World} {c p R M : Multiset Token} {l : Label} {g h : Nat}

theorem Inv.current_of_hand (hinv : Inv w M) (hhand : (w.services g).hand ≠ .idle) :
    w.slot.service = some g := by
  have hpos : 0 < tally (Token.loops g) M := by
    by_contra hzero
    exact hhand ((hinv.sound g).resting (by omega))
  obtain ⟨x, hx, hloop⟩ := exists_of_tally_pos hpos
  cases x with
  | loop i a =>
    obtain rfl : i = g := by
      by_contra hne
      simp [Token.loops, hne] at hloop
    exact hinv.current_of_loop hx
  | _ => simp [Token.loops] at hloop

/-- Two workers never have a callback in hand at the same time. -/
theorem Inv.hand_unique (hinv : Inv w M) (hg : (w.services g).hand ≠ .idle)
    (hh : (w.services h).hand ≠ .idle) : g = h := by
  have hslot := hinv.current_of_hand hg
  rw [hinv.current_of_hand hh] at hslot
  exact (Option.some.inj hslot).symm

/-! ## Stop requests -/

theorem Dispatcher.Step.stop_mono {d d' : Dispatcher} {ev : Event} (hs : d.Step ev d') (hwf : d.Wf)
    (h : d.registry.stopRequested = true) : d'.registry.stopRequested = true := by
  cases hs with
  | serve => exact Registry.serve_stopRequested.trans h
  | select hidle hnow hsel =>
    rw [Dispatcher.Wf, hidle] at hwf
    rcases Registry.Wf.select_cases hwf hsel with ⟨-, rfl, -⟩ | ⟨e, -, -, -, -, -, -, -, -, rfl, -⟩
    · exact h
    · exact h
  | selectNone hidle hnow hsel =>
    rw [Dispatcher.Wf, hidle] at hwf
    rcases Registry.Wf.select_cases hwf hsel with ⟨-, rfl, -⟩ | ⟨e, -, -, -, -, -, -, -, -, rfl, -⟩
    · exact h
    · exact h
  | @restore id callback hhand =>
    change ((d.registry.restore id callback).2).stopRequested = true
    rw [Registry.restore_snd hwf.distinct]
    exact h
  | halt => rfl
  | purge | begin | adapt | release | destroy | tick => exact h

/-! ## Handles -/

theorem Inv.entry_of_handle {id : Nat} (hinv : Inv w M) (hpos : 0 < w.handles.strong id) :
    ∃ g worker, w.slot = .running g worker ∧ (w.services g).registry.aliveOf id = 1 := by
  have hentry := hinv.enrolled.entry id
  have hle := hinv.aliveOf_le_one id
  have halive : w.aliveOf id = 1 := by omega
  rw [World.aliveOf] at halive
  split at halive
  · rename_i g worker hslot
    exact ⟨g, worker, hslot, halive⟩
  · cases halive

theorem Inv.entry_of_last {id : Nat} {o : Option Nat} (hinv : Inv w M) (hmem : .last o id ∈ M) :
    ∃ g worker, w.slot = .running g worker ∧ (w.services g).registry.aliveOf id = 1 ∧
      ∀ h, o = some h → g = h := by
  have hle : Token.entries id (.last o id) ≤ tally (Token.entries id) M := le_tally hmem
  have hentry := hinv.enrolled.entry id
  have hone := hinv.aliveOf_le_one id
  simp only [Token.entries, if_true] at hle
  have halive : w.aliveOf id = 1 := by omega
  rw [World.aliveOf] at halive
  split at halive
  · rename_i g worker hslot
    refine ⟨g, worker, hslot, halive, ?_⟩
    rintro h rfl
    obtain ⟨worker', hslot'⟩ := hinv.leased.bound _ hmem h rfl
    rw [hslot] at hslot'
    exact (Slot.running.inj hslot').1
  · cases halive

/-! ## Shutting down -/

/-- Before an `initialize` has succeeded there is nothing to dispatch. -/
structure World.Quiet (w : World) : Prop where
  state : w.state = .uninitialized ∨ w.state = .initializing
  hand : ∀ g, (w.services g).hand = .idle
  timers : ∀ g, (w.services g).registry.timers = []

theorem Inv.quiet_of_stopped (hinv : Inv w M) (hst : w.state = .uninitialized) : w.Quiet := by
  have hslot := hinv.staged.uninitialized hst
  refine ⟨.inl hst, fun g => ?_, fun g => ?_⟩
  · by_contra hne
    have hcur := hinv.current_of_hand hne
    rw [hslot] at hcur
    cases hcur
  · refine hinv.timers_nil fun worker hrun => ?_
    rw [hslot] at hrun
    cases hrun

theorem Exchange.state_of_shut (hx : Exchange w c l w' p) (hl : l = .shut) :
    w'.state = .uninitialized := by
  induction hx with
  | frame _ _ ih => exact ih hl
  | before hb | after hb => exact absurd hl hb.2
  | commitShutdown => rfl
  | _ => cases hl

theorem Exchange.state_of_quiet (hx : Exchange w c l w' p) (hl : l ≠ .initialized)
    (hs : w.state = .uninitialized ∨ w.state = .initializing) :
    w'.state = .uninitialized ∨ w'.state = .initializing := by
  induction hx with
  | frame _ _ ih => exact ih hl hs
  | before _ _ _ ih₁ ih₂ => exact ih₂ hl (ih₁ (by simp) hs)
  | after _ _ _ ih₁ ih₂ => exact ih₂ (by simp) (ih₁ hl hs)
  | commitInitialize => exact absurd rfl hl
  | beginInitialize => exact .inr rfl
  | rollbackInitialize | commitShutdown => exact .inl rfl
  | beginShutdown hst | rollbackShutdown hst => simp [hst] at hs
  | _ => exact hs

private theorem Dispatcher.Step.barren {d d' : Dispatcher} {ev : Event} (hs : d.Step ev d')
    (hwf : d.Wf) (hidle : d.hand = .idle) (hnil : d.registry.timers = []) :
    d'.hand = .idle ∧ (d'.registry.timers = [] ∨ ∃ e ∈ d'.registry.timers, e.deleted = false) := by
  cases hs with
  | @serve q reserved now hnow =>
    refine ⟨hidle, ?_⟩
    cases ht : q.target with
    | none =>
      rcases Registry.serve_register_snd (r := d.registry) now reserved ht with
        ⟨he, -⟩ | ⟨state, callback, -, -, he⟩
      · exact .inl (by rw [he, hnil])
      · exact .inr (by simp [he])
    | some id =>
      rw [Registry.serve_snd now reserved hwf.distinct ht]
      exact .inl (by simp [Registry.adjust, hnil])
  | purge => exact ⟨hidle, .inl (by simp [Registry.retain, hnil])⟩
  | select hidle' hnow hsel =>
    have hcases := hwf.select_cases (.select hidle' hnow hsel)
    obtain ⟨-, ⟨hno, -, -⟩ | ⟨e, he, -⟩⟩ := hcases
    · cases hno
    · rw [hnil] at he
      cases he
  | selectNone hidle' hnow hsel hnone =>
    have hcases := hwf.select_cases (.selectNone hidle' hnow hsel hnone)
    obtain ⟨-, ⟨-, hr, -⟩ | ⟨e, he, -⟩⟩ := hcases
    · exact ⟨hidle, .inl (hr ▸ hnil)⟩
    · rw [hnil] at he
      cases he
  | begin hhand | adapt hhand | restore hhand =>
    rw [hidle] at hhand
    cases hhand
  | halt | release | tick => exact ⟨hidle, .inl hnil⟩
  | destroy => exact ⟨hidle, .inl rfl⟩

theorem Exchange.quiet (hx : Exchange w c l w' p) (hl : l ≠ .initialized) (hinv : Inv w (c + R))
    (hq : w.Quiet) : w'.Quiet := by
  have hinv' := hx.inv R hinv
  have hstate := hx.state_of_quiet hl hq.state
  have hleases : w'.leases = 0 := by
    refine hinv'.no_leases ?_
    rcases hstate with hs | hs <;> simp [hs]
  -- a timer registered in this exchange would hold a lease
  have hdead : ∀ g, ∀ e ∈ (w'.services g).registry.timers, e.deleted = true := by
    intro g e he
    by_contra hlive
    rw [Bool.not_eq_true] at hlive
    have hstate' : (w'.services g).registry.HasState e.id e.state :=
      Registry.hasState_of_mem he hlive
    have hpos : 0 < w'.aliveOf e.id := by
      by_cases hrun : ∃ worker, w'.slot = .running g worker
      · obtain ⟨worker, hslot⟩ := hrun
        simpa [World.aliveOf, hslot] using Registry.aliveOf_pos.mpr ⟨_, hstate'⟩
      · rw [hinv'.timers_nil fun worker hslot => hrun ⟨worker, hslot⟩] at he
        cases he
    have := hinv'.leases_of_aliveOf hpos
    omega
  have hstep : ∀ g, (w'.services g).hand = .idle ∧ ((w'.services g).registry.timers = [] ∨
      ∃ e ∈ (w'.services g).registry.timers, e.deleted = false) := by
    intro g
    exact (hx.dispatch g hinv).barren (hinv.sound g).wf (hq.hand g) (hq.timers g)
  refine ⟨hstate, fun g => (hstep g).1, fun g => ?_⟩
  rcases (hstep g).2 with hnil | ⟨e, he, hlive⟩
  · exact hnil
  · rw [hdead g e he] at hlive
    cases hlive

/-- As long as no `initialize` succeeds, nothing is dispatched. -/
theorem machine_quiet {s s' : World × Multiset Token} {tr : List Label}
    (hs : machine.Steps s tr s') (hinv : Inv s.1 s.2) (hq : s.1.Quiet)
    (hno : .initialized ∉ tr) : s'.1.Quiet := by
  induction hs with
  | refl => exact hq
  | @snoc s₁ s₂ tr l hp hstep ih =>
    rw [List.mem_append, List.mem_singleton, not_or] at hno
    have hinv₁ := (machine_dispatch hp hinv 0).1
    rw [← add_zero s₁.2] at hinv₁
    exact Exchange.quiet hstep (Ne.symm hno.2) hinv₁ (ih hno.1)

theorem Inv.departing_zero (hinv : Inv w M) (hst : w.state = .uninitialized) (g id : Nat) :
    tally (Token.departing g id) M = 0 := by
  apply tally_eq_zero
  intro x hx
  cases x with
  | removed i z callback =>
    have hpos := hinv.leases_pos hx Nat.one_pos
    rw [hinv.no_leases (by simp [hst])] at hpos
    cases hpos
  | loop i a =>
    have hcur := hinv.current_of_loop hx
    rw [hinv.staged.uninitialized hst] at hcur
    cases hcur
  | _ => rfl

/-- When `shutdown` succeeds, nothing is dispatched and every registered closure has been
dropped. -/
theorem machine_shut {tr : List Label} {s : World × Multiset Token}
    (hr : machine.Run (tr ++ [.shut]) s) :
    s.1.Quiet ∧ ∀ g id, 0 < id → id < (s.1.services g).registry.nextId →
      (tr ++ [Label.shut]).count (.drop g id) = 1 := by
  have hinv := machine_inv hr
  have hst : s.1.state = .uninitialized := by
    obtain ⟨s₁, -, hstep⟩ := hr.last
    exact Exchange.state_of_shut hstep rfl
  have hq := hinv.quiet_of_stopped hst
  refine ⟨hq, fun g id hid hlt => ?_⟩
  have hlaw := machine_closures (g := g) hr hid
  have hkeeps : (s.1.services g).keeps id = 0 := by
    rw [Service.keeps, Service.stock, hq.hand g, (Registry.counts_nil (hq.timers g)).2.2]
    rfl
  have hissued : (s.1.services g).issued id = 1 := if_pos hlt
  rw [hkeeps, hinv.departing_zero hst g id, hissued] at hlaw
  omega

end Shutdown

end OsalRust.Timer
