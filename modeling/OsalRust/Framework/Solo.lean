import OsalRust.Framework.LockDiscipline

/-!
# A thread on its own

A thread that runs while all others stand still gets every lock that nobody holds. If nobody
held one when it began, and its code nests its critical sections and never takes a lock twice,
then it never finds a lock taken. If a measure goes down with each of its steps, it gets to
where it wants to be.
-/

namespace OsalRust.Framework

universe u v w x

/-! ## Locks -/

namespace Threads

variable {ι : Type w} {μ : Type u} {α : Type v} {σ : Type x}

/-- Code that a thread runs with the locks `H` held, innermost first. It takes no lock that it
holds, gives the locks back in order and ends without one. An action with `locks a = some L` is
performed with exactly `L` held, and the code that it pushes gives all of `L` back; an action
with `none` leaves the locks alone. -/
def Nested (locks : α → Option (List μ)) : List μ → List (Instr μ α) → Prop
  | H, [] => H = []
  | H, .lock m :: rest => m ∉ H ∧ Nested locks (m :: H) rest
  | H, .unlock m :: rest => ∃ H', H = m :: H' ∧ Nested locks H' rest
  | H, .act a :: rest =>
    match locks a with
    | none => Nested locks H rest
    | some L => H = L ∧ Nested locks [] rest

def Pushes (locks : α → Option (List μ)) (a : α) (code : List (Instr μ α)) : Prop :=
  match locks a with
  | none => code = []
  | some L => Nested locks L code

variable {locks : α → Option (List μ)} {H : List μ} {a : α} {code rest : List (Instr μ α)}

theorem nested_act_none (ha : locks a = none) :
    Nested locks H (.act a :: rest) ↔ Nested locks H rest := by
  simp only [Nested, ha]

theorem nested_act_some {L : List μ} (ha : locks a = some L) :
    Nested locks H (.act a :: rest) ↔ H = L ∧ Nested locks [] rest := by
  simp only [Nested, ha]

theorem Nested.append (h : Nested locks H code) (hr : Nested locks [] rest) :
    Nested locks H (code ++ rest) := by
  induction code generalizing H with
  | nil =>
    obtain rfl : H = [] := h
    exact hr
  | cons i code ih =>
    rw [List.cons_append]
    cases i with
    | lock m => exact ⟨h.1, ih h.2⟩
    | unlock m =>
      obtain ⟨H', rfl, hcode⟩ := h
      exact ⟨H', rfl, ih hcode⟩
    | act a =>
      cases ha : locks a with
      | none =>
        rw [nested_act_none ha] at h ⊢
        exact ih h
      | some L =>
        rw [nested_act_some ha] at h ⊢
        exact ⟨h.1, ih h.2⟩

/-- The thread `t` holds the locks `H` and runs nested code, and no other thread holds a lock. -/
structure Solo [DecidableEq μ] (locks : α → Option (List μ)) (s : Threads ι μ α σ) (t : ι)
    (H : List μ) : Prop where
  nested : Nested locks H (s.code t)
  nodup : H.Nodup
  holder : ∀ m, s.holder m = if m ∈ H then some t else none

section Steps

variable [DecidableEq ι] [DecidableEq μ] {exec : Exec ι μ α σ} {s s' : Threads ι μ α σ} {t : ι}
  {m : μ} {i : Instr μ α}

omit [DecidableEq ι] in
theorem Solo.free (h : Solo locks s t H) (hst : s.code t = .lock m :: rest) :
    s.holder m = none := by
  have hnested := h.nested
  rw [hst] at hnested
  rw [h.holder m, if_neg hnested.1]

private theorem Solo.take (h : Solo locks s t H) (hst : s.code t = .lock m :: rest) :
    Solo locks (s.take t m rest) t (m :: H) := by
  have hnested := h.nested
  rw [hst] at hnested
  refine ⟨?_, List.nodup_cons.2 ⟨hnested.1, h.nodup⟩, fun k => ?_⟩
  · have hcode : (s.take t m rest).code t = rest := Function.update_self _ _ _
    rw [hcode]
    exact hnested.2
  · by_cases hk : k = m
    · subst hk
      simp [Threads.take]
    · simp [Threads.take, hk, h.holder k]

private theorem Solo.release (h : Solo locks s t H) (hst : s.code t = .unlock m :: rest) :
    ∃ H', Solo locks (s.release t m rest) t H' := by
  have hnested := h.nested
  rw [hst] at hnested
  obtain ⟨H', rfl, hrest⟩ := hnested
  obtain ⟨hnot, hnodup⟩ := List.nodup_cons.1 h.nodup
  refine ⟨H', ?_, hnodup, fun k => ?_⟩
  · have hcode : (s.release t m rest).code t = rest := Function.update_self _ _ _
    rw [hcode]
    exact hrest
  · by_cases hk : k = m
    · subst hk
      simp [Threads.release, hnot]
    · simp [Threads.release, hk, h.holder k]

private theorem Solo.perform {w : σ} (h : Solo locks s t H) (hst : s.code t = .act a :: rest)
    (hpush : Pushes locks a code) : Solo locks (s.perform t w (code ++ rest)) t H := by
  have hnested := h.nested
  rw [hst] at hnested
  refine ⟨?_, h.nodup, h.holder⟩
  have hcode : (s.perform t w (code ++ rest)).code t = code ++ rest := Function.update_self _ _ _
  rw [hcode]
  unfold Pushes at hpush
  cases ha : locks a with
  | none =>
    rw [ha] at hpush
    rw [nested_act_none ha] at hnested
    rw [hpush]
    exact hnested
  | some L =>
    rw [ha] at hpush
    rw [nested_act_some ha] at hnested
    obtain ⟨rfl, hrest⟩ := hnested
    exact hpush.append hrest

theorem Solo.step (h : Solo locks s t H) (hs : Step exec s (t, i) s')
    (hpush : ∀ a w code, i = .act a → exec t s.shared a w code → Pushes locks a code) :
    ∃ H', Solo locks s' t H' := by
  cases hs with
  | lock hst hfree => exact ⟨_, h.take hst⟩
  | unlock hst => exact h.release hst
  | act hst hex => exact ⟨_, h.perform hst (hpush _ _ _ rfl hex)⟩

end Steps

end Threads

/-! ## Getting there -/

namespace Lts

variable {σ : Type u} {ℓ : Type v} {M : Lts σ ℓ} {C : σ → ℓ → σ → Prop} {P : σ → Prop} {s : σ}

/-- However the system goes on from `s` with steps that meet `C`, it gets to a state with `P`,
and it is not stuck before. -/
inductive Inevitable (M : Lts σ ℓ) (C : σ → ℓ → σ → Prop) (P : σ → Prop) : σ → Prop
  | now {s : σ} : P s → Inevitable M C P s
  | later {s : σ} : (∃ l s', M.step s l s') →
      (∀ l s', M.step s l s' → C s l s' → Inevitable M C P s') → Inevitable M C P s

/-- A measure that every step lowers until `P` holds. -/
theorem Inevitable.of_measure {I : σ → Prop} (f : σ → Nat)
    (hprogress : ∀ s, I s → ¬ P s → ∃ l s', M.step s l s')
    (hlower : ∀ s l s', I s → ¬ P s → M.step s l s' → C s l s' → I s' ∧ f s' < f s)
    (h : I s) : M.Inevitable C P s := by
  induction hn : f s using Nat.strongRecOn generalizing s with
  | _ n ih =>
    subst hn
    by_cases hp : P s
    · exact .now hp
    · refine .later (hprogress s h hp) fun l s' hs hc => ?_
      obtain ⟨h', hlt⟩ := hlower s l s' h hp hs hc
      exact ih _ hlt h' rfl

end Lts

end OsalRust.Framework
