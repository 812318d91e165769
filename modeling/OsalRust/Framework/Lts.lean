import Mathlib.Data.List.Induction

/-!
# Labelled transition systems

Every concurrent component of this development is an interleaving of atomic steps. This
module supplies runs with their labels, the invariant rules over whole runs, the restriction
of a system to steps that meet a condition, and refinement by a state map.
-/

namespace OsalRust.Framework

universe u v w

structure Lts (σ : Type u) (ℓ : Type v) where
  init : σ → Prop
  step : σ → ℓ → σ → Prop

namespace Lts

variable {σ : Type u} {τ : Type w} {ℓ : Type v}

inductive Steps (M : Lts σ ℓ) : σ → List ℓ → σ → Prop
  | refl (s : σ) : Steps M s [] s
  | snoc {s s' s'' : σ} {tr : List ℓ} {l : ℓ} :
      Steps M s tr s' → M.step s' l s'' → Steps M s (tr ++ [l]) s''

def Run (M : Lts σ ℓ) (tr : List ℓ) (s : σ) : Prop := ∃ s₀, M.init s₀ ∧ M.Steps s₀ tr s

def Reachable (M : Lts σ ℓ) (s : σ) : Prop := ∃ tr, M.Run tr s

/-- The system that keeps only the steps meeting a condition on the state before, the label
and the state after. -/
def restrict (M : Lts σ ℓ) (C : σ → ℓ → σ → Prop) : Lts σ ℓ where
  init := M.init
  step s l s' := M.step s l s' ∧ C s l s'

variable {M : Lts σ ℓ} {N : Lts τ ℓ} {s s' s'' : σ} {tr tr' : List ℓ} {l : ℓ}

theorem Run.start (h : M.init s) : M.Run [] s := ⟨s, h, .refl s⟩

theorem Run.snoc (h : M.Run tr s) (hs : M.step s l s') : M.Run (tr ++ [l]) s' := by
  obtain ⟨s₀, h0, hr⟩ := h
  exact ⟨s₀, h0, hr.snoc hs⟩

/-- A step from the end of a run, and the run that it makes. -/
theorem Run.extend (h : M.Run tr s) (hs : M.step s l s') : M.step s l s' ∧ M.Run (tr ++ [l]) s' :=
  ⟨hs, h.snoc hs⟩

theorem Steps.cons (hs : M.step s l s') (h : M.Steps s' tr s'') : M.Steps s (l :: tr) s'' := by
  induction h with
  | refl => exact (Steps.refl s).snoc hs
  | snoc _ hl ih => exact ih.snoc hl

theorem Run.steps (h : M.Run tr s) (hs : M.Steps s tr' s') : M.Run (tr ++ tr') s' := by
  induction hs with
  | refl => rwa [List.append_nil]
  | snoc _ hl ih =>
    rw [← List.append_assoc]
    exact ih.snoc hl

theorem Run.reachable (h : M.Run tr s) : M.Reachable s := ⟨tr, h⟩

theorem Reachable.start (h : M.init s) : M.Reachable s := ⟨[], Run.start h⟩

theorem Reachable.snoc (h : M.Reachable s) (hs : M.step s l s') : M.Reachable s' := by
  obtain ⟨tr, hr⟩ := h
  exact ⟨tr ++ [l], hr.snoc hs⟩

theorem Steps.split (h : M.Steps s (tr ++ l :: tr') s') :
    ∃ s₁ s₂, M.Steps s tr s₁ ∧ M.step s₁ l s₂ ∧ M.Steps s₂ tr' s' := by
  induction tr' using List.reverseRecOn generalizing s' with
  | nil =>
    generalize he : tr ++ [l] = whole at h
    cases h with
    | refl => simp at he
    | @snoc s₁ _ first last hp hs =>
      obtain ⟨rfl, hl⟩ := List.append_inj' he rfl
      obtain rfl : l = last := by simpa using hl
      exact ⟨s₁, s', hp, hs, .refl s'⟩
  | append_singleton mid last ih =>
    generalize he : tr ++ l :: (mid ++ [last]) = whole at h
    cases h with
    | refl => simp at he
    | @snoc s₃ _ first last' hp hs =>
      have he' : (tr ++ l :: mid) ++ [last] = first ++ [last'] := by simpa using he
      obtain ⟨rfl, hl⟩ := List.append_inj' he' rfl
      obtain rfl : last = last' := by simpa using hl
      obtain ⟨s₁, s₂, h₁, h₂, h₃⟩ := ih hp
      exact ⟨s₁, s₂, h₁, h₂, h₃.snoc hs⟩

theorem Steps.eq_of_nil (h : M.Steps s [] s') : s = s' := by
  generalize he : ([] : List ℓ) = whole at h
  cases h with
  | refl => rfl
  | snoc => simp at he

theorem Steps.single (h : M.Steps s [l] s') : M.step s l s' := by
  have hsplit : M.Steps s ([] ++ l :: []) s' := h
  obtain ⟨s₁, s₂, h₁, hl, h₂⟩ := hsplit.split
  rw [h₁.eq_of_nil, ← h₂.eq_of_nil]
  exact hl

theorem Run.last (h : M.Run (tr ++ [l]) s) : ∃ s₁, M.Run tr s₁ ∧ M.step s₁ l s := by
  obtain ⟨s₀, h0, hs⟩ := h
  generalize he : tr ++ [l] = whole at hs
  cases hs with
  | refl => simp at he
  | @snoc s₁ _ first last hp hl =>
    obtain ⟨rfl, hlast⟩ := List.append_inj' he rfl
    obtain rfl : l = last := by simpa using hlast
    exact ⟨s₁, ⟨s₀, h0, hp⟩, hl⟩

theorem Run.split (h : M.Run (tr ++ l :: tr') s) :
    ∃ s₁ s₂, M.Run tr s₁ ∧ M.step s₁ l s₂ ∧ M.Steps s₂ tr' s := by
  obtain ⟨s₀, hi, hs⟩ := h
  obtain ⟨s₁, s₂, h₁, h₂, h₃⟩ := hs.split
  exact ⟨s₁, s₂, ⟨s₀, hi, h₁⟩, h₂, h₃⟩

theorem Reachable.steps (h : M.Reachable s) (hs : M.Steps s tr s') : M.Reachable s' := by
  induction hs with
  | refl => exact h
  | snoc _ hl ih => exact ih.snoc hl

/-- A relation between the labels so far and the state holds after every run, if it holds at
the start and every step from a reachable state extends it. -/
theorem Run.induct {I : List ℓ → σ → Prop} (h0 : ∀ s, M.init s → I [] s)
    (hstep : ∀ tr s l s', M.Run tr s → I tr s → M.step s l s' → I (tr ++ [l]) s')
    (h : M.Run tr s) : I tr s := by
  obtain ⟨s₀, hi, hr⟩ := h
  induction hr with
  | refl => exact h0 _ hi
  | snoc hp hs ih => exact hstep _ _ _ _ ⟨s₀, hi, hp⟩ ih hs

/-- The invariant rule. -/
theorem Reachable.invariant {I : σ → Prop} (h0 : ∀ s, M.init s → I s)
    (hstep : ∀ s l s', I s → M.step s l s' → I s') (h : M.Reachable s) : I s := by
  obtain ⟨tr, hr⟩ := h
  exact hr.induct (I := fun _ s => I s) h0 (fun _ s l s' _ hi hs => hstep s l s' hi hs)

/-- A label that cannot occur before `D` holds, once `D` is stable: after it, `D` holds. -/
theorem Run.stable_of_mem {D Q : σ → Prop} {L : ℓ → Prop} (h0 : ∀ s, M.init s → Q s)
    (hD : ∀ s l s', D s → M.step s l s' → D s')
    (hQ : ∀ s l s', M.Reachable s → ¬ D s → Q s → M.step s l s' → Q s' ∧ ¬ L l)
    (h : M.Run tr s) (hl : l ∈ tr) (hL : L l) : D s := by
  have hinv : D s ∨ Q s ∧ ∀ l ∈ tr, ¬ L l := by
    refine h.induct (I := fun tr s => D s ∨ Q s ∧ ∀ l ∈ tr, ¬ L l)
      (fun s hi => .inr ⟨h0 s hi, nofun⟩) fun tr s l s' hrun hi hs => ?_
    by_cases hd : D s
    · exact .inl (hD s l s' hd hs)
    · obtain ⟨hq, hno⟩ := hi.resolve_left hd
      obtain ⟨hq', hl⟩ := hQ s l s' hrun.reachable hd hq hs
      refine .inr ⟨hq', fun k hk => ?_⟩
      rcases List.mem_append.1 hk with hk | hk
      · exact hno k hk
      · rwa [List.mem_singleton.1 hk]
  exact hinv.resolve_right fun hr => hr.2 l hl hL

/-- What every step from a reachable state preserves holds after every segment. -/
theorem Steps.invariant {I : List ℓ → σ → Prop} (hr : M.Reachable s) (h0 : I [] s)
    (hstep : ∀ tr s' l s'', M.Reachable s' → I tr s' → M.step s' l s'' → I (tr ++ [l]) s'')
    (h : M.Steps s tr s') : I tr s' := by
  induction h with
  | refl => exact h0
  | snoc hp hs ih => exact hstep _ _ _ _ (hr.steps hp) ih hs

theorem restrict_steps {C : σ → ℓ → σ → Prop} (h : (M.restrict C).Steps s tr s') :
    M.Steps s tr s' := by
  induction h with
  | refl => exact .refl _
  | snoc _ hs ih => exact ih.snoc hs.1

theorem restrict_reachable {C : σ → ℓ → σ → Prop} (h : (M.restrict C).Reachable s) :
    M.Reachable s := by
  obtain ⟨tr, s₀, hi, hs⟩ := h
  exact ⟨tr, s₀, hi, restrict_steps hs⟩

/-- Refinement by a state map: if every step from a reachable state is a step of the other
system between the images, then every run is a run of the other system with the same labels. -/
theorem Run.map (f : σ → τ) (h0 : ∀ s, M.init s → N.init (f s))
    (hstep : ∀ s l s', M.Reachable s → M.step s l s' → N.step (f s) l (f s'))
    (h : M.Run tr s) : N.Run tr (f s) :=
  h.induct (I := fun tr s => N.Run tr (f s)) (fun s hi => .start (h0 s hi))
    (fun _ s l s' hr hi hs => hi.snoc (hstep s l s' hr.reachable hs))

end Lts

end OsalRust.Framework
