import Mathlib.Logic.Function.Basic
import Mathlib.Data.List.Basic
import OsalRust.Framework.Lts

/-!
# Lock discipline

Threads run stacks of instructions that take locks, release locks and perform actions on a
shared state. An action pushes more instructions, which is how a call, a callback or a
destructor runs on the thread that triggers it. A discipline says with which locks each action
runs, orders the locks, and prices the critical sections; if every action pushes code that
follows the discipline, then so does every thread in every run, no thread waits for a lock it
holds, and the holders of locks are never all blocked.
-/

namespace OsalRust.Framework

universe u v w x

inductive Instr (μ : Type u) (α : Type v) where
  | lock (m : μ)
  | unlock (m : μ)
  | act (a : α)

@[ext] structure Threads (ι : Type w) (μ : Type u) (α : Type v) (σ : Type x) where
  shared : σ
  holder : μ → Option ι
  code : ι → List (Instr μ α)

/-- What performing an action does: the shared state after it and the code it pushes. -/
abbrev Exec (ι : Type w) (μ : Type u) (α : Type v) (σ : Type x) :=
  ι → σ → α → σ → List (Instr μ α) → Prop

variable {ι : Type w} {μ : Type u} {α : Type v} {σ : Type x}

namespace Threads

variable [DecidableEq ι] [DecidableEq μ]

def take (s : Threads ι μ α σ) (t : ι) (m : μ) (rest : List (Instr μ α)) : Threads ι μ α σ :=
  { s with holder := Function.update s.holder m (some t),
           code := Function.update s.code t rest }

def release (s : Threads ι μ α σ) (t : ι) (m : μ) (rest : List (Instr μ α)) :
    Threads ι μ α σ :=
  { s with holder := Function.update s.holder m none,
           code := Function.update s.code t rest }

def perform (s : Threads ι μ α σ) (t : ι) (w : σ) (code : List (Instr μ α)) :
    Threads ι μ α σ :=
  { s with shared := w, code := Function.update s.code t code }

/-- One instruction of one thread. A lock is taken only when it is free, by anyone: these are
non-recursive locks. -/
inductive Step (exec : Exec ι μ α σ) : Threads ι μ α σ → ι × Instr μ α → Threads ι μ α σ → Prop
  | lock {s : Threads ι μ α σ} {t : ι} {m : μ} {rest : List (Instr μ α)} :
      s.code t = .lock m :: rest → s.holder m = none →
      Step exec s (t, .lock m) (s.take t m rest)
  | unlock {s : Threads ι μ α σ} {t : ι} {m : μ} {rest : List (Instr μ α)} :
      s.code t = .unlock m :: rest → Step exec s (t, .unlock m) (s.release t m rest)
  | act {s : Threads ι μ α σ} {t : ι} {a : α} {rest code : List (Instr μ α)} {w : σ} :
      s.code t = .act a :: rest → exec t s.shared a w code →
      Step exec s (t, .act a) (s.perform t w (code ++ rest))

def system (exec : Exec ι μ α σ) (init : Threads ι μ α σ → Prop) :
    Lts (Threads ι μ α σ) (ι × Instr μ α) where
  init := init
  step := Step exec

omit [DecidableEq ι] [DecidableEq μ] in
theorem run_of_eq {ℓ : Type*} {M : Lts (Threads ι μ α σ) ℓ} {tr : List ℓ}
    {s s' : Threads ι μ α σ} (h : M.Run tr s) (hshared : s.shared = s'.shared)
    (hholder : s.holder = s'.holder) (hcode : s.code = s'.code) : M.Run tr s' :=
  Threads.ext hshared hholder hcode ▸ h

end Threads

/-- A lock discipline. Only the tracked locks are accounted for; a thread takes them in the
order of their ranks, performs an action `a` with exactly the locks `pre a` held, innermost
first, and leaves a critical section within `budget` of its own steps, where an action and the
code it pushes count as `weight a` of them. -/
structure Discipline (μ : Type u) (α : Type v) where
  tracked : μ → Bool
  rank : μ → Nat
  valid : α → Prop
  pre : α → List μ
  weight : α → Nat
  budget : Nat

namespace Discipline

variable (D : Discipline μ α)

/-- Own steps that a thread holding `H` takes at most until it holds no lock. -/
def cost : List μ → List (Instr μ α) → Nat
  | [], _ => 0
  | _ :: _, [] => 0
  | h :: H, .lock m :: rest => 1 + cost (if D.tracked m then m :: h :: H else h :: H) rest
  | h :: H, .unlock m :: rest => 1 + cost (if D.tracked m then H else h :: H) rest
  | _ :: _, .act a :: _ => D.weight a

/-- Code that a thread holding `H` may run under the discipline. The code an action pushes
releases what the action was performed with, so what follows the action starts with no lock. -/
def Typed : List μ → List (Instr μ α) → Prop
  | H, [] => H = []
  | H, .lock m :: rest =>
    if D.tracked m then
      (∀ h ∈ H, D.rank h < D.rank m) ∧ (H = [] → D.cost [m] rest ≤ D.budget) ∧
        Typed (m :: H) rest
    else Typed H rest
  | H, .unlock m :: rest =>
    if D.tracked m then ∃ H', H = m :: H' ∧ Typed H' rest else Typed H rest
  | H, .act a :: rest => D.valid a ∧ H = D.pre a ∧ Typed [] rest

@[simp] theorem cost_nil_left (code : List (Instr μ α)) : D.cost [] code = 0 := by
  cases code <;> rfl

variable {D} {H : List μ} {m : μ} {a : α} {code rest : List (Instr μ α)}

theorem typed_lock (hm : D.tracked m = true) :
    D.Typed H (.lock m :: rest) ↔
      (∀ h ∈ H, D.rank h < D.rank m) ∧ (H = [] → D.cost [m] rest ≤ D.budget) ∧
        D.Typed (m :: H) rest := by
  simp only [Typed, hm, if_true]

theorem typed_lock_untracked (hm : D.tracked m = false) :
    D.Typed H (.lock m :: rest) ↔ D.Typed H rest := by
  simp only [Typed, hm, Bool.false_eq_true, if_false]

theorem typed_unlock (hm : D.tracked m = true) :
    D.Typed H (.unlock m :: rest) ↔ ∃ H', H = m :: H' ∧ D.Typed H' rest := by
  simp only [Typed, hm, if_true]

theorem typed_unlock_untracked (hm : D.tracked m = false) :
    D.Typed H (.unlock m :: rest) ↔ D.Typed H rest := by
  simp only [Typed, hm, Bool.false_eq_true, if_false]

theorem typed_act :
    D.Typed H (.act a :: rest) ↔ D.valid a ∧ H = D.pre a ∧ D.Typed [] rest := Iff.rfl

theorem cost_lock (hH : H ≠ []) :
    D.cost H (.lock m :: rest) = 1 + D.cost (if D.tracked m then m :: H else H) rest := by
  obtain ⟨top, H, rfl⟩ := List.exists_cons_of_ne_nil hH
  rfl

theorem cost_unlock (hH : H ≠ []) :
    D.cost H (.unlock m :: rest) = 1 + D.cost (if D.tracked m then H.tail else H) rest := by
  obtain ⟨top, H, rfl⟩ := List.exists_cons_of_ne_nil hH
  rfl

theorem cost_act (hH : H ≠ []) : D.cost H (.act a :: rest) = D.weight a := by
  obtain ⟨top, H, rfl⟩ := List.exists_cons_of_ne_nil hH
  rfl

theorem Typed.cost_append (h : D.Typed H code) (rest : List (Instr μ α)) :
    D.cost H (code ++ rest) = D.cost H code := by
  induction code generalizing H with
  | nil =>
    obtain rfl : H = [] := h
    simp
  | cons i code ih =>
    by_cases hH : H = []
    · subst hH
      simp
    cases i with
    | lock m =>
      rw [List.cons_append, cost_lock hH, cost_lock hH]
      cases hm : D.tracked m with
      | true => simp only [if_true, ih ((typed_lock hm).mp h).2.2]
      | false => simp only [Bool.false_eq_true, if_false, ih ((typed_lock_untracked hm).mp h)]
    | unlock m =>
      rw [List.cons_append, cost_unlock hH, cost_unlock hH]
      cases hm : D.tracked m with
      | true =>
        obtain ⟨H', rfl, ht⟩ := (typed_unlock hm).mp h
        simp only [if_true, List.tail_cons, ih ht]
      | false =>
        simp only [Bool.false_eq_true, if_false, ih ((typed_unlock_untracked hm).mp h)]
    | act a => rw [List.cons_append, cost_act hH, cost_act hH]

theorem typed_acts {β : Type*} {f : β → α} (h : ∀ b, D.valid (f b) ∧ [] = D.pre (f b))
    (bs : List β) : D.Typed [] (bs.map fun b => .act (f b)) := by
  induction bs with
  | nil => rfl
  | cons b bs ih => exact ⟨(h b).1, (h b).2, ih⟩

/-- Code pushed by an action runs in front of what was to follow it. -/
theorem Typed.append (h : D.Typed H code) (hr : D.Typed [] rest) : D.Typed H (code ++ rest) := by
  induction code generalizing H with
  | nil =>
    obtain rfl : H = [] := h
    exact hr
  | cons i code ih =>
    rw [List.cons_append]
    cases i with
    | lock m =>
      cases hm : D.tracked m with
      | true =>
        obtain ⟨hrank, hcost, ht⟩ := (typed_lock hm).mp h
        refine (typed_lock hm).mpr ⟨hrank, fun he => ?_, ih ht⟩
        subst he
        rw [ht.cost_append]
        exact hcost rfl
      | false => exact (typed_lock_untracked hm).mpr (ih ((typed_lock_untracked hm).mp h))
    | unlock m =>
      cases hm : D.tracked m with
      | true =>
        obtain ⟨H', he, ht⟩ := (typed_unlock hm).mp h
        exact (typed_unlock hm).mpr ⟨H', he, ih ht⟩
      | false => exact (typed_unlock_untracked hm).mpr (ih ((typed_unlock_untracked hm).mp h))
    | act a =>
      obtain ⟨hv, hp, ht⟩ := typed_act.mp h
      exact typed_act.mpr ⟨hv, hp, ih ht⟩

/-- Thread `t` holds exactly the tracked locks `H`, innermost first, and its code follows the
discipline from there. -/
structure Follows (D : Discipline μ α) (s : Threads ι μ α σ) (t : ι) (H : List μ) : Prop where
  typed : D.Typed H (s.code t)
  cost_le : D.cost H (s.code t) ≤ D.budget
  nodup : H.Nodup
  held : ∀ m, D.tracked m = true → (m ∈ H ↔ s.holder m = some t)

def Lawful (D : Discipline μ α) (s : Threads ι μ α σ) : Prop := ∀ t, ∃ H, D.Follows s t H

/-- The actions keep the discipline: from a shared state meeting `W`, an allowed action pushes
code for the locks it was performed with, which costs less than the action. -/
structure Sound (D : Discipline μ α) (exec : Exec ι μ α σ) (W : σ → Prop)
    (allowed : σ → α → Prop) : Prop where
  keeps : ∀ {t w a w' code}, W w → allowed w a → D.valid a → exec t w a w' code →
    W w' ∧ D.Typed (D.pre a) code
  cheaper : ∀ {t w a w' code}, W w → allowed w a → D.valid a → D.pre a ≠ [] →
    exec t w a w' code → D.cost (D.pre a) code < D.weight a

def AllowedStep (allowed : σ → α → Prop) (s : Threads ι μ α σ) (l : ι × Instr μ α)
    (_ : Threads ι μ α σ) : Prop :=
  ∀ a, l.2 = .act a → allowed s.shared a

section Steps

variable {exec : Exec ι μ α σ} {W : σ → Prop} {allowed : σ → α → Prop}
  {s s' : Threads ι μ α σ} {t u : ι} {i : Instr μ α} {K : List μ}

private theorem Typed.not_mem_of_lock (hm : D.tracked m = true)
    (h : D.Typed H (.lock m :: rest)) : m ∉ H := by
  intro hmem
  exact absurd (((typed_lock hm).mp h).1 m hmem) (Nat.lt_irrefl _)

private theorem Follows.next (ht : D.Follows s t H) (hstack : s'.code t = code)
    (hty : D.Typed K code) (hn : K.Nodup)
    (hheld : ∀ m, D.tracked m = true → (m ∈ K ↔ s'.holder m = some t))
    (hdec : H ≠ [] → D.cost K code < D.cost H (s.code t))
    (hopen : H = [] → D.cost K code ≤ D.budget) :
    ∃ H', D.Follows s' t H' ∧ (H ≠ [] → D.cost H' (s'.code t) < D.cost H (s.code t)) := by
  subst hstack
  refine ⟨K, ⟨hty, ?_, hn, hheld⟩, hdec⟩
  by_cases hH : H = []
  · exact hopen hH
  · exact Nat.le_trans (Nat.le_of_lt (hdec hH)) ht.cost_le

variable [DecidableEq ι] [DecidableEq μ]

private theorem Follows.frame (hu : D.Follows s u K) (ht : D.Follows s t H) (hne : t ≠ u)
    (hs : Threads.Step exec s (u, i) s') : D.Follows s' t H := by
  cases hs with
  | @lock _ m rest hst hfree =>
    have hstack : (s.take u m rest).code t = s.code t := Function.update_of_ne hne _ _
    refine ⟨hstack ▸ ht.typed, hstack ▸ ht.cost_le, ht.nodup, fun k hk => ?_⟩
    rw [ht.held k hk]
    by_cases hkm : k = m
    · subst hkm
      simp [Threads.take, hfree, Ne.symm hne]
    · simp [Threads.take, hkm]
  | @unlock _ m rest hst =>
    have hstack : (s.release u m rest).code t = s.code t := Function.update_of_ne hne _ _
    refine ⟨hstack ▸ ht.typed, hstack ▸ ht.cost_le, ht.nodup, fun k hk => ?_⟩
    rw [ht.held k hk]
    by_cases hkm : k = m
    · subst hkm
      have hmem : k ∈ K := by
        have hty := hu.typed
        rw [hst] at hty
        obtain ⟨H', rfl, -⟩ := (typed_unlock hk).mp hty
        exact List.mem_cons_self
      have hholder := (hu.held k hk).mp hmem
      simp [Threads.release, hholder, Ne.symm hne]
    · simp [Threads.release, hkm]
  | @act _ a rest code w hst hex =>
    have hstack : (s.perform u w (code ++ rest)).code t = s.code t :=
      Function.update_of_ne hne _ _
    exact ⟨hstack ▸ ht.typed, hstack ▸ ht.cost_le, ht.nodup, ht.held⟩

private theorem Follows.take (ht : D.Follows s t H) (hst : s.code t = .lock m :: rest) :
    ∃ H', D.Follows (s.take t m rest) t H' ∧
      (H ≠ [] → D.cost H' ((s.take t m rest).code t) < D.cost H (s.code t)) := by
  have hcode : (s.take t m rest).code t = rest := Function.update_self _ _ _
  have hty := ht.typed
  rw [hst] at hty
  cases hm : D.tracked m with
  | true =>
    have hnot := hty.not_mem_of_lock hm
    obtain ⟨-, hopen, hty⟩ := (typed_lock hm).mp hty
    apply ht.next hcode hty (List.nodup_cons.mpr ⟨hnot, ht.nodup⟩)
    · intro k hk
      rw [List.mem_cons, ht.held k hk]
      by_cases hkm : k = m <;> simp [Threads.take, hkm]
    · intro hH
      rw [hst, cost_lock hH, if_pos hm]
      omega
    · intro hH
      subst hH
      exact hopen rfl
  | false =>
    have hm' : ¬ D.tracked m = true := by simp [hm]
    apply ht.next hcode ((typed_lock_untracked hm).mp hty) ht.nodup
    · intro k hk
      have hkm : k ≠ m := fun he => hm' (he ▸ hk)
      simp [Threads.take, hkm, ht.held k hk]
    · intro hH
      rw [hst, cost_lock hH, if_neg hm']
      omega
    · intro hH
      simp [hH]

private theorem Follows.release (ht : D.Follows s t H) (hst : s.code t = .unlock m :: rest) :
    ∃ H', D.Follows (s.release t m rest) t H' ∧
      (H ≠ [] → D.cost H' ((s.release t m rest).code t) < D.cost H (s.code t)) := by
  have hcode : (s.release t m rest).code t = rest := Function.update_self _ _ _
  have hty := ht.typed
  rw [hst] at hty
  cases hm : D.tracked m with
  | true =>
    obtain ⟨H', rfl, hrest⟩ := (typed_unlock hm).mp hty
    obtain ⟨hnot, hn⟩ := List.nodup_cons.mp ht.nodup
    apply ht.next hcode hrest hn
    · intro k hk
      by_cases hkm : k = m
      · subst hkm
        simp [Threads.release, hnot]
      · have hk' := ht.held k hk
        rw [List.mem_cons, or_iff_right hkm] at hk'
        simp [Threads.release, hkm, hk']
    · intro hH
      rw [hst, cost_unlock hH, if_pos hm, List.tail_cons]
      omega
    · intro hH
      exact absurd hH (List.cons_ne_nil _ _)
  | false =>
    have hm' : ¬ D.tracked m = true := by simp [hm]
    apply ht.next hcode ((typed_unlock_untracked hm).mp hty) ht.nodup
    · intro k hk
      have hkm : k ≠ m := fun he => hm' (he ▸ hk)
      simp [Threads.release, hkm, ht.held k hk]
    · intro hH
      rw [hst, cost_unlock hH, if_neg hm']
      omega
    · intro hH
      simp [hH]

omit [DecidableEq μ] in
private theorem Follows.perform (hD : D.Sound exec W allowed) (hW : W s.shared)
    (ht : D.Follows s t H) {w : σ} (hst : s.code t = .act a :: rest)
    (hex : exec t s.shared a w code) (ha : allowed s.shared a) :
    W w ∧ ∃ H', D.Follows (s.perform t w (code ++ rest)) t H' ∧
      (H ≠ [] → D.cost H' ((s.perform t w (code ++ rest)).code t) < D.cost H (s.code t)) := by
  have hcode : (s.perform t w (code ++ rest)).code t = code ++ rest := Function.update_self _ _ _
  have hty := ht.typed
  rw [hst] at hty
  obtain ⟨hv, rfl, hrest⟩ := typed_act.mp hty
  obtain ⟨hW', hpushed⟩ := hD.keeps hW ha hv hex
  refine ⟨hW', ?_⟩
  apply ht.next hcode (hpushed.append hrest) ht.nodup ht.held
  · intro hH
    rw [hst, hpushed.cost_append, cost_act hH]
    exact hD.cheaper hW ha hv hH hex
  · intro hH
    simp [hH]

private theorem Follows.own (hD : D.Sound exec W allowed) (hW : W s.shared)
    (ht : D.Follows s t H) (hs : Threads.Step exec s (t, i) s')
    (ha : AllowedStep allowed s (t, i) s') :
    W s'.shared ∧ ∃ H', D.Follows s' t H' ∧
      (H ≠ [] → D.cost H' (s'.code t) < D.cost H (s.code t)) := by
  cases hs with
  | lock hst hfree => exact ⟨hW, ht.take hst⟩
  | unlock hst => exact ⟨hW, ht.release hst⟩
  | act hst hex => exact ht.perform hD hW hst hex (ha _ rfl)

theorem Lawful.step (hD : D.Sound exec W allowed) (hW : W s.shared) (hl : D.Lawful s)
    {l : ι × Instr μ α} (hs : Threads.Step exec s l s') (ha : AllowedStep allowed s l s') :
    W s'.shared ∧ D.Lawful s' := by
  obtain ⟨u, i⟩ := l
  obtain ⟨K, hu⟩ := hl u
  obtain ⟨hW', K', hu', -⟩ := hu.own hD hW hs ha
  refine ⟨hW', fun t => ?_⟩
  by_cases htu : t = u
  · subst htu
    exact ⟨K', hu'⟩
  · obtain ⟨H, ht⟩ := hl t
    exact ⟨H, hu.frame ht htu hs⟩

/-- Every thread follows the discipline in every state of every run whose actions are
allowed. -/
theorem Sound.lawful (hD : D.Sound exec W allowed) {init : Threads ι μ α σ → Prop}
    (hinit : ∀ s, init s → W s.shared ∧ D.Lawful s)
    (hr : ((Threads.system exec init).restrict (AllowedStep allowed)).Reachable s) :
    W s.shared ∧ D.Lawful s := by
  apply hr.invariant (I := fun s => W s.shared ∧ D.Lawful s) hinit
  rintro s l s' ⟨hW, hl⟩ ⟨hs, ha⟩
  exact hl.step hD hW hs ha

/-- While a thread holds a lock throughout a run segment, it takes at most `budget` steps. -/
theorem Sound.section_short (hD : D.Sound exec W allowed) {init C : Threads ι μ α σ → Prop}
    (hC : ∀ s, C s → ∃ m, D.tracked m = true ∧ s.holder m = some t)
    (hW : W s.shared) (hl : D.Lawful s) {tr : List (ι × Instr μ α)}
    (hr : (((Threads.system exec init).restrict (AllowedStep allowed)).restrict
      (fun s₁ _ _ => C s₁)).Steps s tr s') :
    (tr.filter (fun l => decide (l.1 = t))).length ≤ D.budget := by
  suffices h : W s'.shared ∧ D.Lawful s' ∧ ∃ H, D.Follows s' t H ∧
      (tr.filter (fun l => decide (l.1 = t))).length + D.cost H (s'.code t) ≤ D.budget by
    obtain ⟨-, -, H, -, hle⟩ := h
    omega
  induction hr with
  | refl =>
    obtain ⟨H, ht⟩ := hl t
    exact ⟨hW, hl, H, ht, by simpa using ht.cost_le⟩
  | @snoc s₁ s₂ tr l hp hs ih =>
    obtain ⟨hW₁, hl₁, H, ht, hle⟩ := ih
    obtain ⟨⟨hstep, ha⟩, hc⟩ := hs
    obtain ⟨m, hm, hheld⟩ := hC s₁ hc
    obtain ⟨hW₂, hl₂⟩ := hl₁.step hD hW₁ hstep ha
    refine ⟨hW₂, hl₂, ?_⟩
    obtain ⟨u, i⟩ := l
    have hH : H ≠ [] := List.ne_nil_of_mem ((ht.held m hm).mpr hheld)
    by_cases hu : u = t
    · subst hu
      obtain ⟨-, H', ht', hdec⟩ := ht.own hD hW₁ hstep ha
      have hlt := hdec hH
      refine ⟨H', ht', ?_⟩
      rw [List.filter_append, List.length_append]
      simp only [decide_true, List.filter_cons_of_pos, List.filter_nil, List.length_singleton]
      omega
    · obtain ⟨K, hK⟩ := hl₁ u
      have ht' := hK.frame ht (Ne.symm hu) hstep
      have hsame : s₂.code t = s₁.code t := by
        cases hstep <;> exact Function.update_of_ne (Ne.symm hu) _ _
      refine ⟨H, ht', ?_⟩
      rw [List.filter_append, hsame]
      simpa [hu] using hle

end Steps

section Consequences

variable {s : Threads ι μ α σ} {t : ι} {exec : Exec ι μ α σ}

theorem Lawful.holder_iff_of_act (hl : D.Lawful s) (hst : s.code t = .act a :: rest)
    (hm : D.tracked m = true) : s.holder m = some t ↔ m ∈ D.pre a := by
  obtain ⟨H, ht⟩ := hl t
  have hty := ht.typed
  rw [hst] at hty
  obtain ⟨-, rfl, -⟩ := typed_act.mp hty
  exact (ht.held m hm).symm

theorem Lawful.valid_of_act (hl : D.Lawful s) (hst : s.code t = .act a :: rest) :
    D.valid a := by
  obtain ⟨H, ht⟩ := hl t
  have hty := ht.typed
  rw [hst] at hty
  exact (typed_act.mp hty).1

theorem Lawful.holder_ne_of_lock (hl : D.Lawful s) (hst : s.code t = .lock m :: rest)
    (hm : D.tracked m = true) : s.holder m ≠ some t := by
  obtain ⟨H, ht⟩ := hl t
  have hty := ht.typed
  rw [hst] at hty
  exact fun hh => hty.not_mem_of_lock hm ((ht.held m hm).mpr hh)

theorem Lawful.holder_ne_of_act (hl : D.Lawful s) (hst : s.code t = .act a :: rest)
    (hpre : D.pre a = []) (hm : D.tracked m = true) : s.holder m ≠ some t := by
  intro hh
  have hmem := (hl.holder_iff_of_act hst hm).mp hh
  rw [hpre] at hmem
  exact absurd hmem List.not_mem_nil

variable [DecidableEq ι] [DecidableEq μ] {s' : Threads ι μ α σ} {allowed : σ → α → Prop}
  {P : α → Prop}

/-- If every action that is not allowed starts by pushing one of the actions `P` with a lock
held, then a step after which no thread is about to perform one of these with a lock held was
allowed. -/
theorem Lawful.allowedStep_of_unlocked (hl : D.Lawful s)
    (hbad : ∀ {t w a w' code}, D.valid a → ¬ allowed w a → exec t w a w' code →
      ∃ b tail m, code = .act b :: tail ∧ P b ∧ D.tracked m = true ∧ m ∈ D.pre a)
    {l : ι × Instr μ α} (hs : Threads.Step exec s l s')
    (hunlocked : ∀ t b rest, s'.code t = .act b :: rest → P b →
      ∀ m, D.tracked m = true → s'.holder m ≠ some t) : AllowedStep allowed s l s' := by
  intro a ha
  by_contra hnot
  cases hs with
  | lock | unlock => cases ha
  | @act t _ rest code w hst hex =>
    cases ha
    obtain ⟨b, tail, m, rfl, hb, hm, hmem⟩ := hbad (hl.valid_of_act hst) hnot hex
    have hheld : s.holder m = some t := (hl.holder_iff_of_act hst hm).mpr hmem
    exact hunlocked t b _ (Function.update_self _ _ _) hb m hm hheld

/-- The holders of locks are never all blocked: if a lock is held, then a thread that holds a
lock can take a step. -/
theorem Lawful.progress (hl : D.Lawful s) (hall : ∀ m, D.tracked m = true) (bound : Nat)
    (hbound : ∀ m, D.rank m ≤ bound)
    (htotal : ∀ t w a, D.valid a → D.pre a ≠ [] → ∃ w' code, exec t w a w' code)
    (hm : s.holder m = some t) :
    ∃ u k l s', s.holder k = some u ∧ Threads.Step exec s (u, l) s' := by
  -- the holder of a lock is blocked only on a lock of higher rank
  induction hn : bound - D.rank m using Nat.strongRecOn generalizing m t with
  | _ n ih =>
    obtain ⟨H, ht⟩ := hl t
    have hmem : m ∈ H := (ht.held m (hall m)).mpr hm
    have hty := ht.typed
    cases hst : s.code t with
    | nil =>
      rw [hst] at hty
      obtain rfl : H = [] := hty
      exact absurd hmem List.not_mem_nil
    | cons i rest =>
      rw [hst] at hty
      cases i with
      | lock k =>
        cases hk : s.holder k with
        | none => exact ⟨t, m, _, _, hm, .lock hst hk⟩
        | some u =>
          have hlt := ((typed_lock (hall k)).mp hty).1 m hmem
          have hle := hbound k
          exact ih _ (by omega) hk rfl
      | unlock k => exact ⟨t, m, _, _, hm, .unlock hst⟩
      | act a =>
        obtain ⟨hv, rfl, -⟩ := typed_act.mp hty
        obtain ⟨w', code, hex⟩ := htotal t s.shared a hv (List.ne_nil_of_mem hmem)
        exact ⟨t, m, _, _, hm, .act hst hex⟩

end Consequences

end Discipline

end OsalRust.Framework
