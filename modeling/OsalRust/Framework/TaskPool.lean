import Mathlib.Data.Fintype.Card
import Mathlib.Algebra.BigOperators.Group.Finset.Piecewise

/-!
# Counting tasks by phase

A pool of tasks is a function from task names to phases. A step of the interleaving changes
the phase of one task, so a count of tasks changes by what that one task contributes.
-/

namespace OsalRust.Framework

variable {ι α : Type*} [Fintype ι]

def tally (p : α → Bool) (tasks : ι → α) : Nat :=
  (Finset.univ.filter fun i => p (tasks i) = true).card

theorem tally_update [DecidableEq ι] (p : α → Bool) (tasks : ι → α) (t : ι) (a : α) :
    tally p (Function.update tasks t a) + (p (tasks t)).toNat =
      tally p tasks + (p a).toNat := by
  have hsum (g : ι → α) : tally p g = ∑ i, (p (g i)).toNat := by
    simp only [tally, Finset.card_filter]
    apply Finset.sum_congr rfl
    intro i _
    cases p (g i) <;> rfl
  have hsplit (g : ι → α) :
      ∑ i, (p (g i)).toNat = (p (g t)).toNat + ∑ i ∈ Finset.univ.erase t, (p (g i)).toNat :=
    (Finset.add_sum_erase _ _ (Finset.mem_univ t)).symm
  have hrest : ∑ i ∈ Finset.univ.erase t, (p (Function.update tasks t a i)).toNat =
      ∑ i ∈ Finset.univ.erase t, (p (tasks i)).toNat := by
    apply Finset.sum_congr rfl
    intro i hi
    rw [Function.update_of_ne (Finset.ne_of_mem_erase hi)]
  rw [hsum, hsum, hsplit (Function.update tasks t a), hsplit tasks, hrest, Function.update_self]
  omega

theorem tally_pos {p : α → Bool} {tasks : ι → α} {t : ι} (h : p (tasks t) = true) :
    0 < tally p tasks :=
  Finset.card_pos.mpr ⟨t, Finset.mem_filter.mpr ⟨Finset.mem_univ t, h⟩⟩

theorem tally_eq_zero {p : α → Bool} {tasks : ι → α} (h : ∀ t, p (tasks t) = false) :
    tally p tasks = 0 := by
  simp [tally, h]

theorem tally_lt {p q : α → Bool} {tasks : ι → α} {t : ι} (h : ∀ a, p a = true → q a = true)
    (hp : p (tasks t) = false) (hq : q (tasks t) = true) : tally p tasks < tally q tasks := by
  apply Finset.card_lt_card
  constructor
  · intro i hi
    exact Finset.mem_filter.mpr ⟨Finset.mem_univ i, h _ (Finset.mem_filter.mp hi).2⟩
  · intro hsub
    have hmem := hsub (Finset.mem_filter.mpr ⟨Finset.mem_univ t, hq⟩)
    rw [(Finset.mem_filter.mp hmem).2] at hp
    contradiction

theorem tally_mono {p : α → Bool} {tasks tasks' : ι → α}
    (h : ∀ t, p (tasks t) = true → p (tasks' t) = true) : tally p tasks ≤ tally p tasks' := by
  apply Finset.card_le_card
  intro t ht
  exact Finset.mem_filter.mpr ⟨Finset.mem_univ t, h t (Finset.mem_filter.mp ht).2⟩

theorem tally_lt_of {p : α → Bool} {tasks tasks' : ι → α} {t : ι}
    (h : ∀ t, p (tasks t) = true → p (tasks' t) = true) (hp : p (tasks t) = false)
    (hp' : p (tasks' t) = true) : tally p tasks < tally p tasks' := by
  apply Finset.card_lt_card
  constructor
  · intro u hu
    exact Finset.mem_filter.mpr ⟨Finset.mem_univ u, h u (Finset.mem_filter.mp hu).2⟩
  · intro hsub
    have hmem := hsub (Finset.mem_filter.mpr ⟨Finset.mem_univ t, hp'⟩)
    rw [(Finset.mem_filter.mp hmem).2] at hp
    contradiction

theorem tally_or (p q : α → Bool) (tasks : ι → α) (h : ∀ a, p a = true → q a = false) :
    tally (fun a => p a || q a) tasks = tally p tasks + tally q tasks := by
  classical
  unfold tally
  rw [← Finset.card_union_of_disjoint]
  · congr 1
    ext i
    simp
  · rw [Finset.disjoint_filter]
    intro i _ hp hq
    rw [h _ hp] at hq
    contradiction

end OsalRust.Framework
