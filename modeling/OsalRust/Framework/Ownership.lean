import Mathlib.Algebra.BigOperators.Group.Finset.Basic
import Mathlib.Algebra.Order.Group.Multiset
import OsalRust.Framework.LockDiscipline

/-!
# Ownership

The instructions that a thread has yet to run own things: a reference, a permission, a closure
to be dropped. What an action owns is a multiset of tokens, and performing the action exchanges
its tokens for those of the code that it pushes. The tokens of all threads together then follow
the shared state like a second component of it, and a system of threads refines a machine that
knows only the shared state and the tokens, and neither locks nor the order of the code.

The last part follows one lock: how often a stretch of code releases it more often than it takes
it, which says who holds the lock when an action is performed.
-/

namespace OsalRust.Framework

universe u v w x y z

namespace Threads

variable {ι : Type w} {μ : Type u} {α : Type v} {σ : Type x} {τ : Type y}

def owns (cargo : α → Multiset τ) : List (Instr μ α) → Multiset τ
  | [] => 0
  | .act a :: rest => cargo a + owns cargo rest
  | .lock _ :: rest | .unlock _ :: rest => owns cargo rest

section Owns

variable {cargo : α → Multiset τ} {code rest : List (Instr μ α)}

@[simp] theorem owns_nil : owns cargo ([] : List (Instr μ α)) = 0 := rfl

@[simp] theorem owns_act (a : α) : owns cargo (.act a :: rest) = cargo a + owns cargo rest := rfl

@[simp] theorem owns_lock (m : μ) : owns cargo (.lock m :: rest) = owns cargo rest := rfl

@[simp] theorem owns_unlock (m : μ) : owns cargo (.unlock m :: rest) = owns cargo rest := rfl

@[simp] theorem owns_append : owns cargo (code ++ rest) = owns cargo code + owns cargo rest := by
  induction code with
  | nil => simp
  | cons i code ih => cases i <;> simp [ih, add_assoc]

theorem owns_acts {β : Type*} {f : β → α} {g : β → τ} (h : ∀ b, cargo (f b) = {g b})
    (bs : List β) :
    owns cargo (bs.map fun b => (.act (f b) : Instr μ α)) = (bs : Multiset β).map g := by
  induction bs with
  | nil => rfl
  | cons b bs ih =>
    rw [List.map_cons, owns_act, ih, h, ← Multiset.cons_coe, Multiset.map_cons,
      Multiset.singleton_add]

theorem mem_owns {x : τ} : x ∈ owns cargo code ↔ ∃ a, .act a ∈ code ∧ x ∈ cargo a := by
  induction code with
  | nil => simp
  | cons i code ih => cases i <;> simp [ih]

theorem cargo_le_owns {a : α} (h : .act a ∈ code) : cargo a ≤ owns cargo code := by
  induction code with
  | nil => cases h
  | cons i code ih =>
    rcases List.mem_cons.mp h with rfl | hmem
    · exact Multiset.le_add_right _ _
    · cases i with
      | act b => exact (ih hmem).trans (Multiset.le_add_left _ _)
      | lock m | unlock m => exact ih hmem

end Owns

/-- The tokens `M` are what the threads own together. All but finitely many threads own
nothing. -/
def Estate (cargo : α → Multiset τ) (code : ι → List (Instr μ α)) (M : Multiset τ) : Prop :=
  ∃ F : Finset ι, (∀ t, t ∉ F → owns cargo (code t) = 0) ∧ M = ∑ t ∈ F, owns cargo (code t)

namespace Estate

variable {cargo : α → Multiset τ} {code : ι → List (Instr μ α)} {M : Multiset τ}

theorem empty (h : ∀ t, owns cargo (code t) = 0) : Estate cargo code 0 :=
  ⟨∅, fun t _ => h t, by simp⟩

theorem update [DecidableEq ι] (h : Estate cargo code M) (t : ι) (new : List (Instr μ α)) :
    ∃ R, M = owns cargo (code t) + R ∧
      Estate cargo (Function.update code t new) (owns cargo new + R) := by
  obtain ⟨F, hF, rfl⟩ := h
  have hrest : ∀ u ∈ F.erase t, owns cargo (Function.update code t new u) = owns cargo (code u) := by
    intro u hu
    rw [Function.update_of_ne (Finset.ne_of_mem_erase hu)]
  refine ⟨∑ u ∈ F.erase t, owns cargo (code u), ?_, insert t F, ?_, ?_⟩
  · by_cases ht : t ∈ F
    · rw [Finset.add_sum_erase F (fun u => owns cargo (code u)) ht]
    · rw [hF t ht, zero_add, Finset.erase_eq_of_notMem ht]
  · intro u hu
    rw [Finset.mem_insert, not_or] at hu
    rw [Function.update_of_ne hu.1]
    exact hF u hu.2
  · have hins : insert t F = insert t (F.erase t) := by
      ext u
      by_cases hu : u = t <;> simp [hu]
    rw [hins, Finset.sum_insert (Finset.notMem_erase t F), Function.update_self,
      Finset.sum_congr rfl hrest]

theorem owns_le (h : Estate cargo code M) (t : ι) : owns cargo (code t) ≤ M := by
  classical
  obtain ⟨R, rfl, -⟩ := h.update t []
  exact Multiset.le_add_right _ _

theorem owns_add_le (h : Estate cargo code M) {t u : ι} (hne : u ≠ t) :
    owns cargo (code t) + owns cargo (code u) ≤ M := by
  classical
  obtain ⟨R, rfl, hR⟩ := h.update t []
  have hle := hR.owns_le u
  rw [Function.update_of_ne hne, owns_nil, zero_add] at hle
  exact Multiset.add_le_add_left hle

theorem mem_of_act (h : Estate cargo code M) {t : ι} {a : α} (ha : .act a ∈ code t) {x : τ}
    (hx : x ∈ cargo a) : x ∈ M :=
  Multiset.mem_of_le (h.owns_le t) (Multiset.mem_of_le (cargo_le_owns ha) hx)

theorem mem_of_head (h : Estate cargo code M) {t : ι} {a : α} {rest : List (Instr μ α)}
    (hst : code t = .act a :: rest) {x : τ} (hx : x ∈ cargo a) : x ∈ M :=
  h.mem_of_act (hst ▸ List.mem_cons_self) hx

end Estate

section Refinement

variable {σ' : Type z} {ℓ : Type y} {exec : Exec ι μ α σ} {init : Threads ι μ α σ → Prop}
  {cargo : α → Multiset τ} {N : Lts (σ' × Multiset τ) ℓ} {view : σ → σ'}
  {event : ι × Instr μ α → ℓ}

/-- The machine `N` on the shared state and the tokens allows whatever the threads do: taking
or releasing a lock changes nothing, and an action exchanges its tokens. -/
structure Settles (exec : Exec ι μ α σ) (cargo : α → Multiset τ) (N : Lts (σ' × Multiset τ) ℓ)
    (view : σ → σ') (event : ι × Instr μ α → ℓ) : Prop where
  lock : ∀ t m w M, N.step (w, M) (event (t, .lock m)) (w, M)
  unlock : ∀ t m w M, N.step (w, M) (event (t, .unlock m)) (w, M)
  act : ∀ {t w a w' code} R, exec t w a w' code →
    N.step (view w, cargo a + R) (event (t, .act a)) (view w', owns cargo code + R)

variable [DecidableEq ι] [DecidableEq μ] {s s' : Threads ι μ α σ} {M : Multiset τ}
  {tr : List (ι × Instr μ α)} {l : ι × Instr μ α}

theorem Settles.step (h : Settles exec cargo N view event) (hM : Estate cargo s.code M)
    (hs : Step exec s l s') :
    ∃ M', Estate cargo s'.code M' ∧ N.step (view s.shared, M) (event l) (view s'.shared, M') := by
  cases hs with
  | @lock t m rest hst hfree =>
    obtain ⟨R, rfl, hR⟩ := hM.update t rest
    rw [hst]
    exact ⟨_, hR, h.lock _ _ _ _⟩
  | @unlock t m rest hst =>
    obtain ⟨R, rfl, hR⟩ := hM.update t rest
    rw [hst]
    exact ⟨_, hR, h.unlock _ _ _ _⟩
  | @act t a rest code w hst hex =>
    obtain ⟨R, rfl, hR⟩ := hM.update t (code ++ rest)
    refine ⟨_, hR, ?_⟩
    rw [hst, owns_act, owns_append, add_assoc, add_assoc]
    exact h.act _ hex

theorem Settles.steps (h : Settles exec cargo N view event) (hM : Estate cargo s.code M)
    (hs : (system exec init).Steps s tr s') :
    ∃ M', Estate cargo s'.code M' ∧
      N.Steps (view s.shared, M) (tr.map event) (view s'.shared, M') := by
  induction hs with
  | refl => exact ⟨M, hM, .refl _⟩
  | snoc _ hl ih =>
    obtain ⟨M₁, hM₁, hsteps⟩ := ih
    obtain ⟨M₂, hM₂, hstep⟩ := h.step hM₁ hl
    refine ⟨M₂, hM₂, ?_⟩
    rw [List.map_append]
    exact hsteps.snoc hstep

/-- An invariant of the shared state may be assumed wherever an action is performed. -/
theorem steps_of_invariant {I : σ → Prop} (hI : ∀ s, (system exec init).Reachable s → I s.shared)
    (hr : (system exec init).Reachable s) (hs : (system exec init).Steps s tr s') :
    (system (fun t w a w' code => exec t w a w' code ∧ I w) init).Steps s tr s' := by
  induction hs with
  | refl => exact .refl _
  | snoc hp hstep ih =>
    refine ih.snoc ?_
    cases hstep with
    | lock hst hfree => exact .lock hst hfree
    | unlock hst => exact .unlock hst
    | act hst hex => exact .act hst ⟨hex, hI _ (hr.steps hp)⟩

end Refinement

/-! ## Who performs what -/

def Only (P : α → Prop) (code : List (Instr μ α)) : Prop := ∀ a, .act a ∈ code → P a

section Only

variable {P : α → Prop} {code rest : List (Instr μ α)}

@[simp] theorem only_nil : Only P ([] : List (Instr μ α)) := by
  intro a ha
  cases ha

@[simp] theorem only_act (a : α) : Only P (.act a :: rest) ↔ P a ∧ Only P rest := by
  simp [Only]

@[simp] theorem only_lock (m : μ) : Only P (.lock m :: rest) ↔ Only P rest := by
  simp [Only]

@[simp] theorem only_unlock (m : μ) : Only P (.unlock m :: rest) ↔ Only P rest := by
  simp [Only]

@[simp] theorem only_append : Only P (code ++ rest) ↔ Only P code ∧ Only P rest := by
  simp [Only, or_imp, forall_and]

theorem Only.mono {Q : α → Prop} (h : Only P code) (hPQ : ∀ a, P a → Q a) : Only Q code :=
  fun a ha => hPQ a (h a ha)

end Only

section Shape

variable [DecidableEq ι] [DecidableEq μ] {exec : Exec ι μ α σ} {s s' : Threads ι μ α σ}
  {l : ι × Instr μ α} {P : σ → ι → α → Prop}

def Assigned (P : σ → ι → α → Prop) (s : Threads ι μ α σ) : Prop :=
  ∀ t, Only (P s.shared t) (s.code t)

omit [DecidableEq ι] [DecidableEq μ] in
theorem Assigned.head (h : Assigned P s) {t : ι} {a : α} {rest : List (Instr μ α)}
    (hst : s.code t = .act a :: rest) : P s.shared t a :=
  h t a (hst ▸ List.mem_cons_self)

/-- What a thread may perform it may still perform after the steps of others, and so may it
perform what it has just pushed. -/
theorem Assigned.step (h : Assigned P s) (hs : Step exec s l s')
    (hkeep : ∀ {t w a w' code}, exec t w a w' code → P w t a → ∀ u b, P w u b → P w' u b)
    (hpush : ∀ {t w a w' code}, exec t w a w' code → P w t a → Only (P w' t) code) :
    Assigned P s' := by
  have frame : ∀ (w : σ) (t : ι) (new : List (Instr μ α)),
      (∀ u b, P s.shared u b → P w u b) → Only (P w t) new →
      ∀ u, Only (P w u) (Function.update s.code t new u) := by
    intro w t new hw hnew u
    by_cases hut : u = t
    · subst hut
      rw [Function.update_self]
      exact hnew
    · rw [Function.update_of_ne hut]
      exact (h u).mono (hw u)
  cases hs with
  | @lock t m rest hst hfree =>
    exact frame _ t rest (fun _ _ => id) fun b hb => h t b (hst ▸ List.mem_cons_of_mem _ hb)
  | @unlock t m rest hst =>
    exact frame _ t rest (fun _ _ => id) fun b hb => h t b (hst ▸ List.mem_cons_of_mem _ hb)
  | @act t a rest code w hst hex =>
    have hkept := hkeep hex (h.head hst)
    refine frame w t (code ++ rest) hkept (only_append.mpr ⟨hpush hex (h.head hst), ?_⟩)
    exact fun b hb => hkept t b (h t b (hst ▸ List.mem_cons_of_mem _ hb))

theorem shape_step {C : List (Instr μ α) → Prop} (h : ∀ t, C (s.code t)) (hs : Step exec s l s')
    (htail : ∀ i rest, C (i :: rest) → C rest) (happend : ∀ code rest, C code → C rest → C (code ++ rest))
    (hpush : ∀ {t w a w' code}, exec t w a w' code → C code) : ∀ t, C (s'.code t) := by
  have frame : ∀ (t : ι) (new : List (Instr μ α)), C new → ∀ u, C (Function.update s.code t new u) := by
    intro t new hnew u
    by_cases hut : u = t
    · subst hut
      rwa [Function.update_self]
    · rw [Function.update_of_ne hut]
      exact h u
  have later : ∀ (t : ι) (i : Instr μ α) (rest : List (Instr μ α)), s.code t = i :: rest → C rest :=
    fun t i rest hst => htail i rest (hst ▸ h t)
  cases hs with
  | @lock t m rest hst hfree => exact frame t rest (later t _ rest hst)
  | @unlock t m rest hst => exact frame t rest (later t _ rest hst)
  | @act t a rest code w hst hex =>
    exact frame t (code ++ rest) (happend _ _ (hpush hex) (later t _ rest hst))

end Shape

/-! ## One lock -/

section Balance

variable [DecidableEq μ]

/-- How often a stretch of code that starts with the lock `m` taken `n` times has it taken at
the end, where performing an action `a` and the code it pushes releases it `owed a` times. -/
def balance (owed : α → Nat) (m : μ) : Nat → List (Instr μ α) → Option Nat
  | n, [] => some n
  | n, .lock k :: rest => balance owed m (if k = m then n + 1 else n) rest
  | n, .unlock k :: rest =>
    if k = m then
      match n with
      | 0 => none
      | n + 1 => balance owed m n rest
    else balance owed m n rest
  | n, .act a :: rest => if owed a ≤ n then balance owed m (n - owed a) rest else none

variable {owed : α → Nat} {m : μ} {code rest : List (Instr μ α)} {n k : Nat}

theorem balance_append (h : balance owed m n code = some k) :
    balance owed m n (code ++ rest) = balance owed m k rest := by
  induction code generalizing n with
  | nil =>
    obtain rfl : n = k := by simpa [balance] using h
    rfl
  | cons i code ih =>
    rw [List.cons_append]
    cases i with
    | lock j => exact ih h
    | unlock j =>
      by_cases hj : j = m
      · cases n with
        | zero => simp [balance, hj] at h
        | succ n =>
          simp only [balance, if_pos hj] at h ⊢
          exact ih h
      · simp only [balance, if_neg hj] at h ⊢
        exact ih h
    | act a =>
      by_cases ha : owed a ≤ n
      · simp only [balance, if_pos ha] at h ⊢
        exact ih h
      · simp [balance, ha] at h

theorem balance_add (j : Nat) (h : balance owed m n code = some k) :
    balance owed m (n + j) code = some (k + j) := by
  induction code generalizing n with
  | nil =>
    obtain rfl : n = k := by simpa [balance] using h
    rfl
  | cons i code ih =>
    cases i with
    | lock l =>
      simp only [balance] at h ⊢
      have hn : (if l = m then n + j + 1 else n + j) = (if l = m then n + 1 else n) + j := by
        split <;> omega
      rw [hn]
      exact ih h
    | unlock l =>
      by_cases hl : l = m
      · cases n with
        | zero => simp [balance, hl] at h
        | succ n =>
          simp only [balance, if_pos hl, Nat.succ_add] at h ⊢
          exact ih h
      · simp only [balance, if_neg hl] at h ⊢
        exact ih h
    | act a =>
      by_cases ha : owed a ≤ n
      · simp only [balance, if_pos ha, if_pos (Nat.le_add_right_of_le ha)] at h ⊢
        rw [Nat.sub_add_comm ha]
        exact ih h
      · simp [balance, ha] at h

variable [DecidableEq ι]

/-- The lock `m` is held by the thread whose code releases it once more than it takes it. -/
def Balanced (owed : α → Nat) (m : μ) (s : Threads ι μ α σ) : Prop :=
  ∀ t, balance owed m (if s.holder m = some t then 1 else 0) (s.code t) = some 0

variable {exec : Exec ι μ α σ} {s s' : Threads ι μ α σ} {l : ι × Instr μ α} {t : ι} {a : α}

theorem Balanced.holder_of_unlock (h : Balanced owed m s) (hst : s.code t = .unlock m :: rest) :
    s.holder m = some t := by
  by_contra hne
  have ht := h t
  rw [hst, if_neg hne] at ht
  simp [balance] at ht

theorem Balanced.step (h : Balanced owed m s) (hs : Step exec s l s')
    (hpush : ∀ {t w a w' code}, exec t w a w' code → balance owed m (owed a) code = some 0) :
    Balanced owed m s' := by
  intro u
  have hu := h u
  cases hs with
  | @lock t k rest hst hfree =>
    by_cases hut : u = t
    · subst hut
      rw [hst] at hu
      by_cases hk : k = m
      · subst hk
        simpa [take, balance, hfree] using hu
      · simpa [take, balance, hk, Ne.symm hk] using hu
    · by_cases hk : k = m
      · subst hk
        simpa [take, hut, Ne.symm hut, hfree] using hu
      · simpa [take, hut, Ne.symm hk] using hu
  | @unlock t k rest hst =>
    by_cases hut : u = t
    · subst hut
      by_cases hk : k = m
      · subst hk
        rw [hst, h.holder_of_unlock hst] at hu
        simpa [release, balance] using hu
      · rw [hst] at hu
        simpa [release, balance, hk, Ne.symm hk] using hu
    · by_cases hk : k = m
      · subst hk
        have hheld := h.holder_of_unlock hst
        simpa [release, hut, Ne.symm hut, hheld] using hu
      · simpa [release, hut, Ne.symm hk] using hu
  | @act t a rest code w hst hex =>
    by_cases hut : u = t
    · subst hut
      have hcode : (s.perform u w (code ++ rest)).code u = code ++ rest := Function.update_self _ _ _
      rw [hcode]
      change balance owed m (if s.holder m = some u then 1 else 0) (code ++ rest) = some 0
      generalize (if s.holder m = some u then 1 else 0) = n at hu ⊢
      rw [hst, balance] at hu
      by_cases ha : owed a ≤ n
      · rw [if_pos ha] at hu
        have hpushed := balance_add (n - owed a) (hpush hex)
        rw [Nat.add_sub_cancel' ha, Nat.zero_add] at hpushed
        rw [balance_append hpushed]
        exact hu
      · simp [ha] at hu
    · have hcode : (s.perform t w (code ++ rest)).code u = s.code u := Function.update_of_ne hut _ _
      rw [hcode]
      exact hu

end Balance

end Threads

end OsalRust.Framework
