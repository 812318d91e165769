import Mathlib.Logic.Function.Basic
import OsalRust.Framework.Lts

/-!
# Lazy one-time initialisation

A cell that is initialised on first use, guarded by a word with three values. A thread that
exchanges the word from uninitialized to initializing owns the cell until its final store: it
creates the value and writes it, or rolls back. The other threads only look at the word. The
machine here keeps where each thread is, and nothing of the code that brings it there; an
implementation refines it by a map from its program points to these roles.
-/

namespace OsalRust.Framework

universe u v w

inductive InitState where
  | uninitialized
  | initializing
  | ready
  deriving DecidableEq

/-- Where a thread is. It owns the cell from `creating` to its final store; with `ready` it has
seen or stored that the cell is ready, and with `answered` it has the content of the cell. -/
inductive InitRole (κ : Type v) where
  | outside
  | creating
  | created (key : κ)
  | written (key : κ)
  | failing
  | ready
  | answered (value : Option κ)

/-- The thread is between winning the exchange and its final store. -/
def InitRole.Owns {κ : Type v} : InitRole κ → Prop
  | .creating | .created _ | .written _ | .failing => True
  | .outside | .ready | .answered _ => False

/-- The word, the cell and the threads; `made` are the keys that have been created. -/
structure LazyCell (ι : Type u) (κ : Type v) where
  state : InitState
  cell : Option κ
  made : List κ
  role : ι → InitRole κ

namespace LazyCell

variable {ι : Type u} {κ : Type v} [DecidableEq ι]

def goto (s : LazyCell ι κ) (t : ι) (r : InitRole κ) : LazyCell ι κ :=
  { s with role := Function.update s.role t r }

inductive Step : LazyCell ι κ → ι → LazyCell ι κ → Prop
  | tau {s : LazyCell ι κ} {t : ι} : s.role t = .outside → Step s t s
  | win {s : LazyCell ι κ} {t : ι} : s.state = .uninitialized → s.role t = .outside →
      Step s t { s.goto t .creating with state := .initializing }
  | create {s : LazyCell ι κ} {t : ι} (key : κ) : s.role t = .creating →
      Step s t { s.goto t (.created key) with made := s.made ++ [key] }
  | createFails {s : LazyCell ι κ} {t : ι} : s.role t = .creating → Step s t (s.goto t .failing)
  | write {s : LazyCell ι κ} {t : ι} {key : κ} : s.role t = .created key →
      Step s t { s.goto t (.written key) with cell := some key }
  | publish {s : LazyCell ι κ} {t : ι} {key : κ} : s.role t = .written key →
      Step s t { s.goto t (.answered (some key)) with state := .ready }
  | publishReady {s : LazyCell ι κ} {t : ι} {key : κ} : s.role t = .written key →
      Step s t { s.goto t .ready with state := .ready }
  | rollBack {s : LazyCell ι κ} {t : ι} : s.role t = .failing →
      Step s t { s.goto t .outside with state := .uninitialized }
  | see {s : LazyCell ι κ} {t : ι} : s.state = .ready → s.role t = .outside →
      Step s t (s.goto t .ready)
  | read {s : LazyCell ι κ} {t : ι} : s.role t = .ready → Step s t (s.goto t (.answered s.cell))
  | leave {s : LazyCell ι κ} {t : ι} : ¬ (s.role t).Owns → Step s t (s.goto t .outside)

def machine (ι : Type u) (κ : Type v) [DecidableEq ι] : Lts (LazyCell ι κ) ι where
  init s := s.state = .uninitialized ∧ s.cell = none ∧ s.made = [] ∧ ∀ t, s.role t = .outside
  step := Step

/-- What has been created and written when a thread is where it is. -/
def Holds (s : LazyCell ι κ) : InitRole κ → Prop
  | .creating | .failing => s.made = [] ∧ s.cell = none
  | .created key => s.made = [key] ∧ s.cell = none
  | .written key => s.made = [key] ∧ s.cell = some key
  | .answered value => ∃ key, value = some key ∧ s.made = [key] ∧ s.state = .ready
  | .ready => s.state = .ready
  | .outside => True

omit [DecidableEq ι] in
theorem Holds.made_le {s : LazyCell ι κ} {r : InitRole κ} (h : s.Holds r) (hr : r.Owns) :
    s.made.length ≤ 1 := by
  cases r with
  | creating | failing =>
    rw [h.1]
    exact Nat.zero_le 1
  | created | written =>
    rw [h.1]
    exact Nat.le_refl 1
  | outside | ready | answered => exact hr.elim

/-- The owner is alone, the word says whether there is one, and every thread is where the word
and the cell allow it to be. -/
structure Inv (s : LazyCell ι κ) : Prop where
  owner : ∀ t, (s.role t).Owns →
    s.state = .initializing ∧ ∀ u, (s.role u).Owns → u = t
  owned : s.state = .initializing → ∃ t, (s.role t).Owns
  fresh : s.state = .uninitialized → s.made = [] ∧ s.cell = none
  ready : s.state = .ready → ∃ key, s.made = [key] ∧ s.cell = some key
  holds : ∀ t, s.Holds (s.role t)

section Laws

variable {s s' : LazyCell ι κ} {t u : ι} {r : InitRole κ}

@[simp] theorem goto_self : (s.goto t r).role t = r := Function.update_self _ _ _

theorem goto_of_ne (h : u ≠ t) : (s.goto t r).role u = s.role u := Function.update_of_ne h _ _

namespace Inv

omit [DecidableEq ι] in
theorem outside (h : Inv s) (hs : s.state ≠ .ready) (hu : ¬ (s.role u).Owns) :
    s.role u = .outside := by
  have hholds := h.holds u
  cases hr : s.role u with
  | outside => rfl
  | creating => exact absurd (hr ▸ trivial) hu
  | created key => exact absurd (hr ▸ trivial) hu
  | written key => exact absurd (hr ▸ trivial) hu
  | failing => exact absurd (hr ▸ trivial) hu
  | ready =>
    rw [hr] at hholds
    exact absurd hholds hs
  | answered value =>
    rw [hr] at hholds
    obtain ⟨key, -, -, hready⟩ := hholds
    exact absurd hready hs

omit [DecidableEq ι] in
theorem alone (h : Inv s) (ht : (s.role t).Owns) (hne : u ≠ t) : s.role u = .outside := by
  obtain ⟨hinit, honly⟩ := h.owner t ht
  refine h.outside (by rw [hinit]; nofun) fun hu => hne (honly u hu)

theorem of_alone (hrole : s'.role = Function.update s.role t r)
    (halone : ∀ u, u ≠ t → s.role u = .outside) (howner : r.Owns ↔ s'.state = .initializing)
    (hfresh : s'.state = .uninitialized → s'.made = [] ∧ s'.cell = none)
    (hready : s'.state = .ready → ∃ key, s'.made = [key] ∧ s'.cell = some key)
    (hholds : s'.Holds r) : Inv s' := by
  have hself : s'.role t = r := by rw [hrole, Function.update_self]
  have hother : ∀ u, u ≠ t → s'.role u = .outside := by
    intro u hu
    rw [hrole, Function.update_of_ne hu]
    exact halone u hu
  have honly : ∀ u, (s'.role u).Owns → u = t := by
    intro u hu
    by_contra hne
    rw [hother u hne] at hu
    exact hu
  refine ⟨fun u hu => ?_, fun hinit => ⟨t, ?_⟩, hfresh, hready, fun u => ?_⟩
  · obtain rfl := honly u hu
    rw [hself] at hu
    exact ⟨howner.1 hu, honly⟩
  · rw [hself]
    exact howner.2 hinit
  · by_cases hu : u = t
    · rw [hu, hself]
      exact hholds
    · rw [hother u hu]
      trivial

theorem move (h : Inv s) (ht : ¬ (s.role t).Owns) (hr : ¬ r.Owns) (hholds : s.Holds r) :
    Inv (s.goto t r) := by
  have howns : ∀ u, ((s.goto t r).role u).Owns ↔ (s.role u).Owns := by
    intro u
    by_cases hu : u = t
    · rw [hu, goto_self]
      exact ⟨fun h => absurd h hr, fun h => absurd h ht⟩
    · rw [goto_of_ne hu]
  refine ⟨fun u hu => ?_, fun hinit => ?_, h.fresh, h.ready, fun u => ?_⟩
  · obtain ⟨hinit, honly⟩ := h.owner u ((howns u).1 hu)
    exact ⟨hinit, fun v hv => honly v ((howns v).1 hv)⟩
  · obtain ⟨u, hu⟩ := h.owned hinit
    exact ⟨u, (howns u).2 hu⟩
  · by_cases hu : u = t
    · rw [hu, goto_self]
      exact hholds
    · rw [goto_of_ne hu]
      exact h.holds u

theorem step (h : Inv s) (hs : Step s t s') : Inv s' := by
  have hholds := h.holds t
  cases hs with
  | tau => exact h
  | win hstate hrole =>
    have hnot : ∀ u, ¬ (s.role u).Owns := by
      intro u hu
      cases hstate.symm.trans (h.owner u hu).1
    refine of_alone rfl (fun u _ => h.outside (by rw [hstate]; nofun) (hnot u))
      ⟨fun _ => rfl, fun _ => trivial⟩ nofun nofun ?_
    exact h.fresh hstate
  | create key hrole =>
    have howns : (s.role t).Owns := hrole ▸ trivial
    obtain ⟨hinit, -⟩ := h.owner t howns
    rw [hrole] at hholds
    obtain ⟨hmade, hcell⟩ := hholds
    refine of_alone rfl (fun u hu => h.alone howns hu) ⟨fun _ => hinit, fun _ => trivial⟩
      (fun hu => ?_) (fun hr => ?_) ⟨?_, hcell⟩
    · cases hinit.symm.trans hu
    · cases hinit.symm.trans hr
    · change s.made ++ [key] = [key]
      rw [hmade, List.nil_append]
  | createFails hrole =>
    have howns : (s.role t).Owns := hrole ▸ trivial
    obtain ⟨hinit, -⟩ := h.owner t howns
    rw [hrole] at hholds
    refine of_alone rfl (fun u hu => h.alone howns hu) ⟨fun _ => hinit, fun _ => trivial⟩
      h.fresh h.ready hholds
  | write hrole =>
    have howns : (s.role t).Owns := hrole ▸ trivial
    obtain ⟨hinit, -⟩ := h.owner t howns
    rw [hrole] at hholds
    refine of_alone rfl (fun u hu => h.alone howns hu) ⟨fun _ => hinit, fun _ => trivial⟩
      (fun hu => ?_) (fun hr => ?_) ⟨hholds.1, rfl⟩
    · cases hinit.symm.trans hu
    · cases hinit.symm.trans hr
  | @publish key hrole =>
    have howns : (s.role t).Owns := hrole ▸ trivial
    rw [hrole] at hholds
    exact of_alone rfl (fun u hu => h.alone howns hu) ⟨nofun, nofun⟩ nofun (fun _ => ⟨key, hholds⟩)
      ⟨key, rfl, hholds.1, rfl⟩
  | @publishReady key hrole =>
    have howns : (s.role t).Owns := hrole ▸ trivial
    rw [hrole] at hholds
    exact of_alone rfl (fun u hu => h.alone howns hu) ⟨nofun, nofun⟩ nofun (fun _ => ⟨key, hholds⟩)
      rfl
  | rollBack hrole =>
    have howns : (s.role t).Owns := hrole ▸ trivial
    rw [hrole] at hholds
    exact of_alone rfl (fun u hu => h.alone howns hu) ⟨nofun, nofun⟩ (fun _ => hholds) nofun trivial
  | see hstate hrole => exact h.move (hrole ▸ id) id hstate
  | read hrole =>
    rw [hrole] at hholds
    obtain ⟨key, hmade, hcell⟩ := h.ready hholds
    exact h.move (hrole ▸ id) id ⟨key, hcell, hmade, hholds⟩
  | leave hnot => exact h.move hnot id trivial

end Inv

theorem inv_of_reachable (hr : (machine ι κ).Reachable s) : Inv s := by
  refine hr.invariant (I := Inv) ?_ fun s t s' h hs => h.step hs
  rintro s ⟨hstate, hcell, hmade, hrole⟩
  refine ⟨fun t ht => ?_, fun hinit => ?_, fun _ => ⟨hmade, hcell⟩, fun hready => ?_, fun t => ?_⟩
  · rw [hrole] at ht
    exact ht.elim
  · cases hstate.symm.trans hinit
  · cases hstate.symm.trans hready
  · rw [hrole]
    trivial

/-- Once it is ready, the word stays so: only an owner stores to it. -/
theorem Inv.ready_step (h : Inv s) (hready : s.state = .ready) (hs : Step s t s') :
    s'.state = .ready := by
  have hnot : ¬ (s.role t).Owns := fun ht => by cases hready.symm.trans (h.owner t ht).1
  cases hs with
  | tau => exact hready
  | win hstate => cases hready.symm.trans hstate
  | create key hrole => exact hready
  | createFails hrole => exact hready
  | write hrole => exact hready
  | publish hrole => rfl
  | publishReady hrole => rfl
  | rollBack hrole => exact absurd (hrole ▸ trivial) hnot
  | see => exact hready
  | read => exact hready
  | leave => exact hready

theorem step_of_failing (hrole : s.role t = .failing) (hs : Step s t s') :
    s'.state = .uninitialized ∧ ¬ (s'.role t).Owns := by
  cases hs with
  | rollBack => exact ⟨rfl, by rw [goto_self]; exact id⟩
  | tau h => cases hrole.symm.trans h
  | win _ h => cases hrole.symm.trans h
  | create _ h => cases hrole.symm.trans h
  | createFails h => cases hrole.symm.trans h
  | write h => cases hrole.symm.trans h
  | publish h => cases hrole.symm.trans h
  | publishReady h => cases hrole.symm.trans h
  | see _ h => cases hrole.symm.trans h
  | read h => cases hrole.symm.trans h
  | leave h => exact absurd (hrole ▸ trivial) h

end Laws

/-! ## Implementations -/

section Refinement

variable {σ : Type w} {M : Lts σ ι} {view : σ → LazyCell ι κ}

structure Refines (M : Lts σ ι) (view : σ → LazyCell ι κ) : Prop where
  init : ∀ s, M.init s → (machine ι κ).init (view s)
  step : ∀ s t s', M.step s t s' → (machine ι κ).step (view s) t (view s')

/-- What the initialisation of a cell promises, for every interleaving. -/
structure Safe (M : Lts σ ι) (view : σ → LazyCell ι κ) : Prop where
  exclusive : ∀ s, M.Reachable s → ∀ t u, ((view s).role t).Owns → ((view s).role u).Owns → t = u
  once : ∀ s, M.Reachable s → (view s).made.length ≤ 1
  readable : ∀ s, M.Reachable s → ∀ t, (view s).role t = .ready →
    ∃ key, (view s).made = [key] ∧ (view s).cell = some key
  answered : ∀ s, M.Reachable s → ∀ t value, (view s).role t = .answered value →
    ∃ key, value = some key ∧ (view s).made = [key]
  rolledBack : ∀ s t s', M.Reachable s → (view s).role t = .failing → M.step s t s' →
    (view s').state = .uninitialized ∧ ¬ ((view s').role t).Owns
  forever : ∀ s, M.Reachable s → (view s).state = .ready →
    ∀ tr s', M.Steps s tr s' → (view s').state = .ready

theorem Refines.inv (h : Refines M view) {s : σ} (hr : M.Reachable s) : Inv (view s) := by
  obtain ⟨tr, hrun⟩ := hr
  exact inv_of_reachable ⟨tr, hrun.map view h.init fun s t s' _ hs => h.step s t s' hs⟩

theorem Refines.safe (h : Refines M view) : Safe M view where
  exclusive s hr t u ht hu := ((h.inv hr).owner u hu).2 t ht
  once s hr := by
    have hinv := h.inv hr
    cases hstate : (view s).state with
    | uninitialized => rw [(hinv.fresh hstate).1]; exact Nat.zero_le 1
    | ready =>
      obtain ⟨key, hmade, -⟩ := hinv.ready hstate
      rw [hmade]
      exact Nat.le_refl 1
    | initializing =>
      obtain ⟨t, ht⟩ := hinv.owned hstate
      exact (hinv.holds t).made_le ht
  readable s hr t ht := by
    have hinv := h.inv hr
    have hholds := hinv.holds t
    rw [ht] at hholds
    exact hinv.ready hholds
  answered s hr t value ht := by
    have hholds := (h.inv hr).holds t
    rw [ht] at hholds
    obtain ⟨key, hvalue, hmade, -⟩ := hholds
    exact ⟨key, hvalue, hmade⟩
  rolledBack s t s' _ hfail hs := step_of_failing hfail (h.step s t s' hs)
  forever s hr hready tr s' hs :=
    hs.invariant (I := fun _ s' => (view s').state = .ready) hr hready
      fun _ s₁ t s₂ hr₁ h₁ hs₁ => (h.inv hr₁).ready_step h₁ (h.step s₁ t s₂ hs₁)

end Refinement

end LazyCell

end OsalRust.Framework
