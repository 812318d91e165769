import OsalRust.Posix.Backend

/-!
# Laws of the POSIX backend

The runtime word, the slot with its generation, and the worker of each generation. `shutdown`
marks the slot, releases the control mutex to join the worker, and takes it again; what it finds
then is what it left, in every interleaving, and each worker is joined once, by another thread.
-/

namespace OsalRust.PosixBackend

open OsalRust OsalRust.Framework OsalRust.Timer
open OsalRust.Runtime (RuntimeState lifecycleTable)

section Lifecycle

variable {max : Nat} {t : Thread} {w w' : Backend} {a : Action} {code : Code} {s s' : State}
  {l : Thread × Instr Lock Action}

theorem inv_of_reachable (hr : (system max).Reachable s) :
    ∃ M, Threads.Estate cargo s.code M ∧ Inv s.shared.view M := by
  obtain ⟨tr, s₀, h0, hs⟩ := hr
  obtain ⟨hnone, hinit⟩ := start_machine h0
  obtain ⟨M, hM, hsteps⟩ := steps_machine (.start h0) (Threads.Estate.empty hnone) hs
  exact ⟨M, hM, machine_inv ⟨_, hinit, hsteps⟩⟩

/-! ### Changes of the slot -/

def ServiceSlot.service : ServiceSlot → Option Nat
  | .stopped => none
  | .running g _ | .stopping g _ => some g

def ServiceSlot.generation : ServiceSlot → Option Nat
  | .stopped => none
  | .running _ generation | .stopping _ generation => some generation

@[simp] theorem view_service (slot : ServiceSlot) : slot.view.service = slot.service := by
  cases slot <;> rfl

/-- What an action does to the slot, the count of the services and the joined workers: nothing,
or one of the four steps of a service's life that `initialize` and `shutdown` take. -/
inductive Change (w w' : Backend) : Action → Prop
  | same {a : Action} : w'.slot = w.slot → w'.services = w.services →
      w'.nextGeneration = w.nextGeneration →
      (∀ g, (w'.service g).joined = (w.service g).joined) → Change w w' a
  | create : w.slot = .stopped → w'.slot = .running w.services w.nextGeneration →
      w'.services = w.services + 1 → w'.nextGeneration = w.nextGeneration + 1 →
      (∀ g, (w'.service g).joined = (w.service g).joined) → Change w w' (.control .create)
  | replace {g generation current : Nat} : w.slot = .running g current →
      w'.slot = .stopping g generation → w'.services = w.services →
      w'.nextGeneration = w.nextGeneration →
      (∀ h, (w'.service h).joined = (w.service h).joined) →
      Change w w' (.replaceSlot g generation)
  | join {g generation : Nat} : w'.slot = w.slot → w'.services = w.services →
      w'.nextGeneration = w.nextGeneration →
      (∀ h, (w'.service h).joined = if h = g then true else (w.service h).joined) →
      Change w w' (.join g generation)
  | cleanUp {g generation service : Nat} : w.slot = .stopping service generation →
      w'.slot = .stopped → w'.services = w.services → w'.nextGeneration = w.nextGeneration →
      (∀ h, (w'.service h).joined = (w.service h).joined) →
      Change w w' (.control (.cleanUp g generation))

private theorem joined_adjust {g : Nat} {f : TimerService → TimerService}
    (hf : (f (w.service g)).joined = (w.service g).joined) (h : Nat) :
    ((w.adjust g f).service h).joined = (w.service h).joined := by
  by_cases hg : h = g
  · subst hg
    change (Function.update w.service h (f (w.service h)) h).joined = _
    rw [Function.update_self]
    exact hf
  · change (Function.update w.service g (f (w.service g)) h).joined = _
    rw [Function.update_of_ne hg]

theorem Performs.change (h : Performs max t w a w' code) : Change w w' a := by
  cases h with
  | create hslot =>
    refine .create hslot rfl rfl rfl fun h => ?_
    exact joined_adjust (f := fun s => { s with refs := 2, life := .ready }) rfl h
  | replaceSlot hslot => exact .replace hslot rfl rfl rfl fun _ => rfl
  | join =>
    refine .join rfl rfl rfl fun h => ?_
    simp only [Backend.adjust, Function.update_apply]
    split <;> rfl
  | cleanUp hslot => exact .cleanUp hslot rfl rfl rfl fun _ => rfl
  | stopSelf | stop | checkTimersBusy | checkTimers | requestStop | dropService | destroy | scan
  | begin | restore | worker | leave | ended => exact .same rfl rfl rfl (joined_adjust rfl)
  | serve | select | callbackYields | callbackCaptures =>
    refine .same rfl rfl rfl fun h => ?_
    simp only [Backend.adjust, Function.update_apply]
    split
    · rename_i hg
      rw [hg]
    · rfl
  | _ => exact .same rfl rfl rfl fun _ => rfl

/-! ### Generations -/

/-- Service `g` has the generation `g + 1`. -/
structure Backend.Numbered (w : Backend) : Prop where
  next : w.nextGeneration = w.services + 1
  slot : ∀ g generation, w.slot.service = some g → w.slot.generation = some generation →
    generation = g + 1

/-- What a thread knows that runs a guarded piece of code: the control mutex exists, it is not the
worker that it is about to join, and its generation is that of the service. -/
def Known (w : Backend) (t : Thread) : Action → Prop
  | .withControl (.cleanUp g generation) | .control (.cleanUp g generation) =>
    w.controlReady = true ∧ generation = g + 1 ∧ (w.service g).joined = true
  | .control _ => w.controlReady = true
  | .checkTimers g generation | .requestStop g generation | .replaceSlot g generation
  | .join g generation => w.controlReady = true ∧ generation = g + 1 ∧ t ≠ .worker g
  | _ => True

theorem known_of_unguarded {b : Action} (h : b.guarded = false) : Known w t b := by
  cases b with
  | control | checkTimers | requestStop | replaceSlot | join => cases h
  | withControl s =>
    cases s with
    | cleanUp => cases h
    | create | lookUp | stop => trivial
  | _ => trivial

theorem Change.numbered (h : Change w w' a) (hn : w.Numbered) (ha : Known w t a) :
    w'.Numbered := by
  cases h with
  | same hslot hservices hnext => exact ⟨by rw [hnext, hservices, hn.next], by rw [hslot]; exact hn.slot⟩
  | create hstopped hslot hservices hnext =>
    refine ⟨by rw [hnext, hservices, hn.next], ?_⟩
    rw [hslot]
    rintro g generation hg hgen
    obtain rfl := Option.some.inj hg
    obtain rfl := Option.some.inj hgen
    exact hn.next
  | replace hrunning hslot hservices hnext =>
    refine ⟨by rw [hnext, hservices, hn.next], ?_⟩
    rw [hslot]
    rintro g generation hg hgen
    obtain rfl := Option.some.inj hg
    obtain rfl := Option.some.inj hgen
    exact ha.2.1
  | join hslot hservices hnext => exact ⟨by rw [hnext, hservices, hn.next], by rw [hslot]; exact hn.slot⟩
  | cleanUp hstopping hslot hservices hnext =>
    refine ⟨by rw [hnext, hservices, hn.next], ?_⟩
    rw [hslot]
    rintro g generation hg
    cases hg

theorem Change.joined_mono (h : Change w w' a) {g : Nat} (hj : (w.service g).joined = true) :
    (w'.service g).joined = true := by
  cases h with
  | same _ _ _ hjoined | create _ _ _ _ hjoined | replace _ _ _ _ hjoined
  | cleanUp _ _ _ _ hjoined => rw [hjoined, hj]
  | join _ _ _ hjoined =>
    rw [hjoined]
    split
    · rfl
    · exact hj

theorem Known.mono {b : Action} (hready : w.controlReady = true → w'.controlReady = true)
    (hjoined : ∀ g, (w.service g).joined = true → (w'.service g).joined = true)
    (h : Known w t b) : Known w' t b := by
  cases b with
  | withControl s =>
    cases s with
    | cleanUp g => exact ⟨hready h.1, h.2.1, hjoined g h.2.2⟩
    | create | lookUp | stop => trivial
  | control s =>
    cases s with
    | cleanUp g => exact ⟨hready h.1, h.2.1, hjoined g h.2.2⟩
    | create | lookUp | stop => exact hready h
  | checkTimers | requestStop | replaceSlot | join => exact ⟨hready h.1, h.2⟩
  | _ => trivial

theorem Performs.known (h : Performs max t w a w' code) (hn : w.Numbered) (ha : Known w t a) :
    Threads.Only (Known w' t) code := by
  intro b hb
  cases hguarded : b.guarded with
  | false => exact known_of_unguarded hguarded
  | true =>
    have hready := h.controlReady
    cases h.follows b hb hguarded with
    | @control s hr =>
      cases s with
      | cleanUp g => exact ⟨hr, ha.2.1, h.change.joined_mono ha.2.2⟩
      | create | lookUp | stop => exact hr
    | check hslot hself =>
      exact ⟨hready ha, hn.slot _ _ (by rw [hslot]; rfl) (by rw [hslot]; rfl), hself⟩
    | request | replace | join => exact ⟨hready ha.1, ha.2⟩
    | cleanUp hj => exact ⟨hready ha.1, ha.2.1, hj⟩

/-- Every thread knows where it is, and the slot has the generation of its service. -/
def Orderly (s : State) : Prop := s.shared.Numbered ∧ Threads.Assigned Known s

theorem Orderly.step (h : Orderly s) (hs : (system max).step s l s') : Orderly s' := by
  obtain ⟨hn, hcode⟩ := h
  refine ⟨?_, ?_⟩
  · cases hs with
    | lock | unlock => exact hn
    | act hst hex => exact hex.change.numbered hn (hcode.head hst)
  · have hs' : Threads.Step (fun t w a w' code => Performs max t w a w' code ∧ w.Numbered) s l s' := by
      cases hs with
      | lock hst hfree => exact .lock hst hfree
      | unlock hst => exact .unlock hst
      | act hst hex => exact .act hst ⟨hex, hn⟩
    exact hcode.step hs'
      (fun hex _ _ _ => Known.mono hex.1.controlReady fun g => hex.1.change.joined_mono)
      (fun hex ha => hex.1.known hex.2 ha)

theorem orderly_of_reachable (hr : (system max).Reachable s) : Orderly s := by
  refine hr.invariant ?_ fun s l s' hs => hs.step
  rintro s ⟨now, rfl⟩
  refine ⟨⟨rfl, fun g generation hg => by cases hg⟩, fun t => ?_⟩
  cases t <;> simp [start, Known]

/-! ### Joining -/

/-- A `shutdown` has joined the worker of service `g` and is going to clean up after it. -/
def CleansUp (s : State) (g : Nat) : Prop :=
  ∃ t generation, .act (.withControl (.cleanUp g generation)) ∈ s.code t ∨
    .act (.control (.cleanUp g generation)) ∈ s.code t

/-- The workers of past services have been joined; one whose service is in the slot only if the
slot is about to be cleaned up. -/
structure Joins (s : State) : Prop where
  past : ∀ g, g < s.shared.services → s.shared.slot.service ≠ some g →
    (s.shared.service g).joined = true
  known : ∀ g, (s.shared.service g).joined = true → g < s.shared.services
  present : ∀ g, (s.shared.service g).joined = true → s.shared.slot.service = some g →
    CleansUp s g

theorem CleansUp.drained {M : Multiset Token} {g : Nat} (h : CleansUp s g)
    (hM : Threads.Estate cargo s.code M) : .transition (.drained g) ∈ M := by
  obtain ⟨t, generation, hmem | hmem⟩ := h
  · exact hM.mem_of_act hmem (by simp [cargo, Section.cargo])
  · exact hM.mem_of_act hmem (by simp [cargo, Section.cargo])

/-- The clean-up goes on until it has emptied the slot. -/
theorem CleansUp.act {rest : Code} {g : Nat} (h : CleansUp s g) (hst : s.code t = .act a :: rest)
    (hex : Performs max t s.shared a w code) (hslot : w.slot ≠ .stopped) :
    CleansUp (s.perform t w (code ++ rest)) g := by
  obtain ⟨u, generation, hmem⟩ := h
  by_cases hut : u = t
  · subst hut
    have hcode : (s.perform u w (code ++ rest)).code u = code ++ rest := Function.update_self _ _ _
    refine ⟨u, generation, ?_⟩
    rw [hcode]
    rw [hst] at hmem
    rcases hmem with hmem | hmem
    · rcases List.mem_cons.mp hmem with hhead | hrest
      · obtain rfl := Instr.act.inj hhead
        cases hex with
        | withControl => exact .inr (by simp)
        | withControlFails _ hnone => cases hnone
      · exact .inl (List.mem_append_right _ hrest)
    · rcases List.mem_cons.mp hmem with hhead | hrest
      · obtain rfl := Instr.act.inj hhead
        cases hex with
        | cleanUp => exact absurd rfl hslot
      · exact .inr (List.mem_append_right _ hrest)
  · have hcode : (s.perform t w (code ++ rest)).code u = s.code u := Function.update_of_ne hut _ _
    exact ⟨u, generation, by rwa [hcode]⟩

theorem CleansUp.of_code {g : Nat} (h : CleansUp s g)
    (hcode : ∀ t a, .act a ∈ s.code t → .act a ∈ s'.code t) :
    CleansUp s' g := by
  obtain ⟨t, generation, hmem | hmem⟩ := h
  · exact ⟨t, generation, .inl (hcode t _ hmem)⟩
  · exact ⟨t, generation, .inr (hcode t _ hmem)⟩

theorem slot_service_of_fits {g : Nat} {M : Multiset Token} (hinv : Inv s.shared.view M)
    (hmem : .transition (.drained g) ∈ M ∨ .transition (.draining g true) ∈ M) :
    s.shared.slot.service = some g := by
  obtain ⟨kept, hslot⟩ : ∃ kept, s.shared.view.slot = .stopping g kept := by
    rcases hmem with hmem | hmem
    · exact (hinv.staged.fits _ hmem).2.1
    · exact (hinv.staged.fits _ hmem).2.1
  rw [← view_service]
  change s.shared.view.slot.service = some g
  rw [hslot]
  rfl

theorem Joins.step (h : Joins s) (hr : (system max).Reachable s) (hs : (system max).step s l s') :
    Joins s' := by
  obtain ⟨M, hM, hinv⟩ := inv_of_reachable hr
  have hknown := (orderly_of_reachable hr).2
  have others : ∀ (t : Thread) (i : Instr Lock Action) (rest : Code), s.code t = i :: rest →
      (∀ a, i ≠ .act a) → ∀ u a, .act a ∈ s.code u → .act a ∈ Function.update s.code t rest u := by
    intro t i rest hst hi u a hmem
    by_cases hut : u = t
    · subst hut
      rw [Function.update_self]
      rw [hst] at hmem
      rcases List.mem_cons.mp hmem with rfl | hmem
      · exact absurd rfl (hi a)
      · exact hmem
    · rwa [Function.update_of_ne hut]
  cases hs with
  | @lock t m rest hst hfree =>
    exact ⟨h.past, h.known, fun g hj hg => (h.present g hj hg).of_code (others t _ rest hst (by simp))⟩
  | @unlock t m rest hst =>
    exact ⟨h.past, h.known, fun g hj hg => (h.present g hj hg).of_code (others t _ rest hst (by simp))⟩
  | @act t a rest code w hst hex =>
    have token : ∀ {x}, x ∈ cargo a → x ∈ M := fun hx =>
      hM.mem_of_head hst hx
    have stays : ∀ g, CleansUp s g → w.slot.service = some g →
        CleansUp (s.perform t w (code ++ rest)) g := by
      intro g hc hg
      refine hc.act hst hex ?_
      intro hstopped
      rw [hstopped] at hg
      cases hg
    cases hex.change with
    | same hslot hservices hnext hjoined =>
      refine ⟨fun g hg hne => ?_, fun g hj => ?_, fun g hj hg => ?_⟩
      · exact (hjoined g).trans (h.past g (hservices ▸ hg) (hslot ▸ hne))
      · exact hservices ▸ h.known g ((hjoined g).symm.trans hj)
      · exact stays g (h.present g ((hjoined g).symm.trans hj) (hslot ▸ hg)) hg
    | create hstopped hslot hservices hnext hjoined =>
      refine ⟨fun g hg hne => ?_, fun g hj => ?_, fun g hj hg => ?_⟩
      · refine (hjoined g).trans (h.past g ?_ (by rw [hstopped]; simp [ServiceSlot.service]))
        have hne' : g ≠ s.shared.services := by
          rintro rfl
          refine hne ?_
          change w.slot.service = _
          rw [hslot]
          rfl
        have hlt : g < s.shared.services + 1 := hservices ▸ hg
        omega
      · have hlt := h.known g ((hjoined g).symm.trans hj)
        exact Nat.lt_of_lt_of_eq (Nat.lt_succ_of_lt hlt) hservices.symm
      · have hgs : w.slot.service = some g := hg
        rw [hslot] at hgs
        obtain rfl := Option.some.inj hgs
        exact absurd (h.known _ ((hjoined _).symm.trans hj)) (Nat.lt_irrefl _)
    | @replace g generation current hrunning hslot hservices hnext hjoined =>
      have hsame : w.slot.service = s.shared.slot.service := by rw [hslot, hrunning]; rfl
      refine ⟨fun i hi hne => ?_, fun i hj => ?_, fun i hj hi => ?_⟩
      · exact (hjoined i).trans (h.past i (hservices ▸ hi) (hsame ▸ hne))
      · exact hservices ▸ h.known i ((hjoined i).symm.trans hj)
      · exact stays i (h.present i ((hjoined i).symm.trans hj) (hsame ▸ hi)) hi
    | @join g generation hslot hservices hnext hjoined =>
      have htoken : .transition (.draining g true) ∈ M := token (by simp [cargo])
      refine ⟨fun i hi hne => ?_, fun i hj => ?_, fun i hj hi => ?_⟩
      · refine (hjoined i).trans ?_
        split
        · rfl
        · exact h.past i (hservices ▸ hi) (hslot ▸ hne)
      · refine hservices ▸ ?_
        have hj' := (hjoined i).symm.trans hj
        split at hj'
        · rename_i hig
          exact hinv.staged.known _ htoken i hig.symm
        · exact h.known i hj'
      · have hj' := (hjoined i).symm.trans hj
        split at hj'
        · rename_i hig
          subst hig
          cases hex with
          | join => exact ⟨t, generation, .inl (by simp [Threads.perform])⟩
        · exact stays i (h.present i hj' (hslot ▸ hi)) hi
    | @cleanUp g generation service hstopping hslot hservices hnext hjoined =>
      refine ⟨fun i hi hne => ?_, fun i hj => ?_, fun i hj hi => ?_⟩
      · refine (hjoined i).trans ?_
        by_cases hig : i = g
        · subst hig
          exact (hknown.head hst).2.2
        · refine h.past i (hservices ▸ hi) ?_
          rw [slot_service_of_fits hinv (g := g) (.inl (token (by simp [cargo, Section.cargo])))]
          intro he
          exact hig (Option.some.inj he).symm
      · exact hservices ▸ h.known i ((hjoined i).symm.trans hj)
      · have hi' : w.slot.service = some i := hi
        rw [hslot] at hi'
        cases hi'

theorem joins_of_reachable (hr : (system max).Reachable s) : Joins s := by
  obtain ⟨tr, hr⟩ := hr
  refine hr.induct (I := fun _ s => Joins s) ?_ fun tr s l s' hrun h hs => h.step hrun.reachable hs
  rintro s ⟨now, rfl⟩
  refine ⟨fun g hg => ?_, fun g hj => ?_, fun g hj => ?_⟩
  · cases hg
  · cases hj
  · cases hj

theorem drained_ne_draining {M : Multiset Token} {w : World} {g : Nat} (hinv : Inv w M)
    (hdrained : .transition (.drained g) ∈ M) : .transition (.draining g true) ∉ M := by
  intro hdraining
  obtain ⟨R, rfl⟩ := Multiset.exists_cons_of_mem hdrained
  have hmem : .transition (.draining g true) ∈ R := by
    simpa using hdraining
  exact Staged.alone (w := w) (R := R) (by simpa using hinv.staged) _ hmem

theorem unjoined_of_running (hr : (system max).Reachable s) {g generation : Nat}
    (hslot : s.shared.slot = .running g generation) : (s.shared.service g).joined = false := by
  obtain ⟨M, hM, hinv⟩ := inv_of_reachable hr
  rw [← Bool.not_eq_true]
  intro hj
  have hc := (joins_of_reachable hr).present g hj (by rw [hslot]; rfl)
  obtain ⟨kept, hstopping⟩ := (hinv.staged.fits _ (hc.drained hM)).2.1
  rw [Backend.view, hslot] at hstopping
  cases hstopping

/-- Whoever is about to join a worker has not been joined before, and is not that worker. -/
theorem unjoined_of_join (hr : (system max).Reachable s) {rest : Code} {g generation : Nat}
    (hst : s.code t = .act (.join g generation) :: rest) :
    t ≠ .worker g ∧ (s.shared.service g).joined = false := by
  obtain ⟨M, hM, hinv⟩ := inv_of_reachable hr
  refine ⟨((orderly_of_reachable hr).2.head hst).2.2, ?_⟩
  have hdraining : .transition (.draining g true) ∈ M :=
    hM.mem_of_head hst (by simp [cargo])
  rw [← Bool.not_eq_true]
  intro hj
  have hc := (joins_of_reachable hr).present g hj (slot_service_of_fits hinv (.inr hdraining))
  exact drained_ne_draining hinv (hc.drained hM) hdraining

/-! ### The worker's life -/

/-- The worker has left its loop. -/
def Life.over : Life → Bool
  | .leaving | .ended => true
  | .unborn | .ready | .alive => false

theorem Performs.life (h : Performs max t w a w' code) {g : Nat}
    (hover : (w'.service g).life.over = true) :
    (w.service g).life.over = true ∨ a = .leave g := by
  have kept : ∀ {i : Nat} {s : TimerService}, w'.service = Function.update w.service i s →
      s.life = (w.service i).life → (w.service g).life.over = true := by
    intro i s hservice hlife
    rw [hservice] at hover
    by_cases hg : g = i
    · subst hg
      rw [Function.update_self, hlife] at hover
      exact hover
    · rwa [Function.update_of_ne hg] at hover
  have changed : ∀ {i : Nat} {s : TimerService}, g ≠ i →
      w'.service = Function.update w.service i s → (w.service g).life.over = true := by
    intro i s hg hservice
    rwa [hservice, Function.update_of_ne hg] at hover
  cases h with
  | create =>
    by_cases hg : g = w.services
    · subst hg
      simp [Backend.adjust, Life.over] at hover
    · exact .inl (changed hg rfl)
  | @worker _ _ i hlife =>
    by_cases hg : g = i
    · subst hg
      simp [Backend.adjust, Life.over] at hover
    · exact .inl (changed hg rfl)
  | @leave _ _ i hlife =>
    by_cases hg : g = i
    · subst hg
      exact .inr rfl
    · exact .inl (changed hg rfl)
  | @ended _ _ i hlife =>
    by_cases hg : g = i
    · subst hg
      exact .inl (by rw [hlife]; rfl)
    · exact .inl (changed hg rfl)
  | stopSelf | stop | checkTimersBusy | checkTimers | requestStop | dropService | destroy | scan
  | begin | restore | join | serve | select | callbackYields | callbackCaptures =>
    exact .inl (kept rfl rfl)
  | _ => exact .inl hover

/-- A worker leaves its loop only when it has been asked to stop. -/
theorem stopped_of_over (hr : (system max).Reachable s) (g : Nat) :
    (s.shared.service g).life.over = true → (s.shared.service g).state.stopRequested = true := by
  obtain ⟨tr, hr⟩ := hr
  refine hr.induct (I := fun _ s => (s.shared.service g).life.over = true →
    (s.shared.service g).state.stopRequested = true) ?_ fun tr s l s' hrun ih hs => ?_
  · rintro s ⟨now, rfl⟩ hover
    cases hover
  · obtain ⟨M, hM, hinv⟩ := inv_of_reachable hrun.reachable
    obtain ⟨M', -, hsteps⟩ := steps_machine hrun.reachable hM ((Lts.Steps.refl s).snoc hs)
    have hdispatch := (machine_dispatch hsteps hinv g).2.single
    have hmono := hdispatch.stop_mono (hinv.sound g).wf
    cases hs with
    | lock | unlock => exact ih
    | @act t a rest code w hst hex =>
      intro hover
      rcases hex.life hover with hold | rfl
      · exact hmono (ih hold)
      · have htoken : .loop g .stopping ∈ M :=
          hM.mem_of_head hst (by simp [cargo])
        exact hmono (hinv.activity g _ htoken).2

/-! ### Consistency -/

/-- The timer service runs and nobody has asked it to stop; its worker has been spawned, has not
left its loop, and has not been joined. -/
def Backend.Operational (w : Backend) : Prop :=
  ∃ g generation, w.slot = .running g generation ∧
    (w.service g).state.stopRequested = false ∧ (w.service g).joined = false ∧
    ((w.service g).life = .ready ∨ (w.service g).life = .alive)

theorem slot_of_view {g : Nat} {worker : Bool} (h : w.view.slot = .running g worker) :
    ∃ generation, w.slot = .running g generation ∧ worker = true := by
  cases hs : w.slot with
  | running g' generation =>
    rw [Backend.view, hs] at h
    cases h
    exact ⟨generation, rfl, rfl⟩
  | stopped | stopping =>
    rw [Backend.view, hs] at h
    cases h

theorem stopped_of_view (h : w.view.slot = .stopped) : w.slot = .stopped := by
  cases hs : w.slot with
  | stopped => rfl
  | running | stopping =>
    rw [Backend.view, hs] at h
    cases h

theorem operational_of_serving (hr : (system max).Reachable s) (h : s.shared.view.Serving) :
    s.shared.Operational := by
  obtain ⟨M, hM, hinv⟩ := inv_of_reachable hr
  obtain ⟨g, worker, hview, hstop⟩ := h
  obtain ⟨generation, hslot, rfl⟩ := slot_of_view hview
  refine ⟨g, generation, hslot, hstop, unjoined_of_running hr hslot, ?_⟩
  have hspawned : decide ((s.shared.service g).life ≠ .unborn) = true :=
    (hinv.staged.manned g true hview).symm
  have hover := stopped_of_over hr g
  cases hlife : (s.shared.service g).life with
  | ready => exact .inl rfl
  | alive => exact .inr rfl
  | unborn => simp [hlife] at hspawned
  | leaving | ended =>
    rw [hlife] at hover
    have hstop' : (s.shared.service g).state.stopRequested = false := hstop
    rw [hover rfl] at hstop'
    cases hstop'

def joins (g : Nat) : List (Thread × Instr Lock Action) → Nat :=
  List.countP fun
    | (_, .act (.join h _)) => h == g
    | _ => false

theorem joins_eq {tr : List (Thread × Instr Lock Action)} (hr : (system max).Run tr s) (g : Nat) :
    joins g tr = (s.shared.service g).joined.toNat := by
  refine hr.induct (I := fun tr s => joins g tr = (s.shared.service g).joined.toNat) ?_
    fun tr s l s' hrun ih hs => ?_
  · rintro s ⟨now, rfl⟩
    rfl
  · rw [joins, List.countP_append, ← joins, ih]
    cases hs with
    | lock | unlock => rfl
    | @act t a rest code w hst hex =>
      have hone : joins g [(t, .act a)] + (s.shared.service g).joined.toNat =
          (w.service g).joined.toNat := by
        by_cases ha : ∃ generation, a = .join g generation
        · obtain ⟨generation, rfl⟩ := ha
          cases hex with
          | join _ hj => simp [joins, Backend.adjust, hj]
        · have hzero : joins g [(t, .act a)] = 0 := by
            cases a with
            | join h generation =>
              have hne : h ≠ g := fun hg => ha ⟨generation, hg ▸ rfl⟩
              simp [joins, hne]
            | _ => rfl
          rw [hzero, zero_add]
          cases hex.change with
          | same _ _ _ hjoined | create _ _ _ _ hjoined | replace _ _ _ _ hjoined
          | cleanUp _ _ _ _ hjoined => rw [hjoined]
          | @join h generation _ _ _ hjoined =>
            rw [hjoined, if_neg]
            exact fun hg => ha ⟨generation, hg ▸ rfl⟩
      exact (Nat.add_comm _ _).trans hone

/-- The pieces of the lifecycle agree after the steps `tr` that led to `s`, no transition from
there leaves them in disagreement, and none of its panics is reached. -/
structure Lifecycle (max : Nat) (tr : List (Thread × Instr Lock Action)) (s : State) : Prop where
  running : s.shared.runtime.1 = .running → s.shared.Operational
  leased : 0 < s.shared.runtime.2 → s.shared.Operational
  uninitialized : s.shared.runtime.1 = .uninitialized → s.shared.slot = .stopped
  /-- An `initialize` or a `shutdown` that does not get to begin changes nothing. -/
  initializeRefused : ∀ t s', (system max).step s (t, .act (.runtime .initializeRuntime)) s' →
    s.shared.runtime.1 ≠ .uninitialized → s'.shared = s.shared
  shutdownRefused : ∀ t s', (system max).step s (t, .act (.runtime .shutdownRuntime)) s' →
    s.shared.runtime ≠ (.running, 0) → s'.shared = s.shared
  /-- One that has begun and fails is rolled back. -/
  initializeFails : ∀ t s', (system max).step s (t, .act .rollbackInitialize) s' →
    s'.shared.runtime.1 = .uninitialized ∧ s'.shared.slot = .stopped
  shutdownFails : ∀ t s', (system max).step s (t, .act .rollbackShutdown) s' →
    s'.shared.runtime.1 = .running ∧ s'.shared.Operational
  /-- The next generation is taken by an `initialize` that goes on to its commit, and the
  generations go up by one with each service. -/
  nextGeneration : ∀ l s', (system max).step s l s' →
    s'.shared.nextGeneration = s.shared.nextGeneration ∨
      s'.shared.nextGeneration = s.shared.nextGeneration + 1 ∧
        ∃ t rest, l = (t, .act (.control .create)) ∧
          s'.code t = .unlock .control :: .act .commitInitialize :: rest ∧
          s'.shared.slot = .running s.shared.services s.shared.nextGeneration
  generation : s.shared.nextGeneration = s.shared.services + 1 ∧
    ∀ g, s.shared.slot.service = some g → s.shared.slot.generation = some (g + 1)
  /-- Every worker is joined at most once, and a past one exactly once. -/
  joinedOnce : ∀ g, joins g tr ≤ 1
  joinedPast : ∀ g, g < s.shared.services → s.shared.slot.service ≠ some g → joins g tr = 1
  /-- `try_join` is called on another thread, which has not been joined. -/
  join : ∀ t g generation rest, s.code t = .act (.join g generation) :: rest →
    t ≠ .worker g ∧ (s.shared.service g).joined = false
  /-- The control mutex is there for the last phase of `shutdown`, and the slot as it was left. -/
  available : ∀ t g generation rest,
    s.code t = .act (.withControl (.cleanUp g generation)) :: rest → s.shared.controlReady = true
  cleanUp : ∀ t g generation rest, s.code t = .act (.control (.cleanUp g generation)) :: rest →
    s.shared.slot = .stopping g generation

theorem lifecycle_agrees (max : Nat) {tr : List (Thread × Instr Lock Action)} {s : State}
    (hr : (system max).Run tr s) : Lifecycle max tr s := by
  have hreach := hr.reachable
  obtain ⟨M, hM, hinv⟩ := inv_of_reachable hreach
  obtain ⟨hnumbered, hknown⟩ := orderly_of_reachable hreach
  have hrunning : s.shared.runtime.1 = .running → s.shared.Operational := fun hst =>
    operational_of_serving hreach (hinv.staged.running hst)
  have token : ∀ {t a rest}, s.code t = .act a :: rest → ∀ {x}, x ∈ cargo a → x ∈ M := by
    intro t a rest hst x hx
    exact hM.mem_of_head hst hx
  have hgeneration : ∀ g, s.shared.slot.service = some g →
      s.shared.slot.generation = some (g + 1) := by
    intro g hg
    cases hslot : s.shared.slot with
    | stopped =>
      rw [hslot] at hg
      cases hg
    | running i generation | stopping i generation =>
      rw [hslot] at hg
      have hgen := hnumbered.slot g generation (by rw [hslot]; exact hg) (by rw [hslot]; rfl)
      rw [hgen]
      rfl
  refine ⟨hrunning, fun hl => hrunning (hinv.leased.running hl), fun hst => ?_, fun t s' hs hst => ?_,
    fun t s' hs hst => ?_, fun t s' hs => ?_, fun t s' hs => ?_, fun l s' hs => ?_,
    ⟨hnumbered.next, hgeneration⟩, fun g => ?_, fun g hg hne => ?_,
    fun t g generation rest hst => unjoined_of_join hreach hst,
    fun t g generation rest hst => (hknown.head hst).1, fun t g generation rest hst => ?_⟩
  · exact stopped_of_view (hinv.staged.uninitialized hst)
  · cases hs with
    | act hcode hex =>
      cases hex with
      | beginInitialize htable => exact absurd (Runtime.swap_of_table htable).1 hst
      | initializeRefused htable =>
        obtain rfl := Runtime.error_of_table htable
        rfl
  · cases hs with
    | act hcode hex =>
      cases hex with
      | beginShutdown htable => exact absurd (Runtime.beginShutdown_of_table htable).1 hst
      | shutdownRefused htable =>
        obtain rfl := Runtime.error_of_table htable
        rfl
  · cases hs with
    | act hcode hex =>
      have hfits := hinv.staged.fits _ (token hcode (x := .transition .create) (by simp [cargo]))
      cases hex with
      | rollbackInitialize htable =>
        obtain ⟨-, rfl⟩ := Runtime.swap_of_table htable
        exact ⟨rfl, stopped_of_view hfits.2⟩
  · cases hs with
    | act hcode hex =>
      have hfits := hinv.staged.fits _ (token hcode (x := .transition .stop) (by simp [cargo]))
      have hop := operational_of_serving hreach hfits.2
      cases hex with
      | rollbackShutdown htable =>
        obtain ⟨-, rfl⟩ := Runtime.swap_of_table htable
        exact ⟨rfl, hop⟩
  · cases hs with
    | lock | unlock => exact .inl rfl
    | @act t a rest code w hst hex =>
      cases hex.change with
      | same _ _ hnext | replace _ _ _ hnext | join _ _ hnext | cleanUp _ _ _ hnext =>
        exact .inl hnext
      | create hstopped hslot _ hnext =>
        refine .inr ⟨hnext, t, rest, rfl, ?_, hslot⟩
        cases hex with
        | create => simp [Threads.perform]
        | createFails => exact absurd hnext (by simp)
  · rw [joins_eq hr g]
    exact Bool.toNat_le _
  · rw [joins_eq hr g, (joins_of_reachable hreach).past g hg hne]
    rfl
  · have hdrained := token hst (x := .transition (.drained g)) (by simp [cargo, Section.cargo])
    have hservice := slot_service_of_fits hinv (.inl hdrained)
    have hgen := (hknown.head hst).2.1
    obtain ⟨kept, hstopping⟩ := (hinv.staged.fits _ hdrained).2.1
    cases hslot : s.shared.slot with
    | stopping i current =>
      rw [hslot] at hservice
      obtain rfl := Option.some.inj hservice
      have hcur := hnumbered.slot i current (by rw [hslot]; rfl) (by rw [hslot]; rfl)
      rw [hcur, hgen]
    | stopped | running =>
      rw [Backend.view, hslot] at hstopping
      cases hstopping

/-- A timer exists and has been started. -/
theorem lifecycle_agrees_started :
    ∃ tr, (system 2).Run tr (resting oneTimer) ∧ oneTimer.runtime = (.running, 1) ∧
      Lifecycle 2 tr (resting oneTimer) := by
  obtain ⟨tr, h⟩ := run_oneTimer
  exact ⟨tr, h, rfl, lifecycle_agrees 2 h⟩

/-- A second `initialize` is answered with an error and leaves the slot running, and a `shutdown`
before the first `initialize` leaves it stopped. -/
theorem lifecycle_fails_without_rollback :
    (∃ s s', (system 2).Reachable s ∧
      (lifecycleTable 2).apply (.swap .beginInitialize) s.shared.runtime =
        some (.error .alreadyInitialized, s.shared.runtime) ∧
      (system 2).step s (.application 1, .act (.runtime .initializeRuntime)) s' ∧
      s'.shared.slot ≠ .stopped) ∧
    ∃ s s', (system 2).Reachable s ∧
      (lifecycleTable 2).apply (.retry .beginShutdown) s.shared.runtime =
        some (.error .notInitialized, s.shared.runtime) ∧
      (system 2).step s (.application 1, .act (.runtime .shutdownRuntime)) s' ∧
      s'.shared.slot = .stopped := by
  constructor
  · obtain ⟨tr, h⟩ := run_initialized
    have h := h.snoc (.act (t := .application 1) rfl (.applicationCalls .initializeRuntime))
    exact ⟨_, _, h.reachable, rfl, Threads.Step.act rfl (.initializeRefused rfl), by decide⟩
  · have h : (system 2).Run [] (start Duration.zero) := Lts.Run.start ⟨_, rfl⟩
    have h := h.snoc (.act (t := .application 1) rfl (.applicationCalls .shutdownRuntime))
    exact ⟨_, _, h.reachable, rfl, Threads.Step.act rfl (.shutdownRefused rfl), rfl⟩

end Lifecycle

end OsalRust.PosixBackend
