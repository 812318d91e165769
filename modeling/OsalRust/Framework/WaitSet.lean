import OsalRust.Framework.TaskPool

/-!
# Waiting on a condition variable

Tasks wait under a lock for items of a shared resource on a condition variable. A signal moves
waiting tasks to the woken ones, which look at the resource again once they hold the lock. No
wakeup is lost if, while some task waits, the items are at most the woken tasks; this module
says which moves keep that, whatever the resource and the tasks are.
-/

namespace OsalRust.Framework.WaitSet

/-- Where one task stands: waiting on the variable, past the wait and going to look at the
resource again, or neither. -/
inductive Stage where
  | outside
  | waiting
  | woken
  deriving DecidableEq

section Pool

variable {ι α : Type*} [Fintype ι]

def woken (stage : α → Stage) (tasks : ι → α) : Nat :=
  tally (fun a => decide (stage a = .woken)) tasks

/-- While a task waits, every item has a woken task to take it. -/
def Served (stage : α → Stage) (tasks : ι → α) (items : Nat) : Prop :=
  (∃ t, stage (tasks t) = .waiting) → items ≤ woken stage tasks

variable {stage : α → Stage} {tasks tasks' : ι → α} {items items' : Nat}

theorem served_zero : Served stage tasks 0 := fun _ => Nat.zero_le _

/-- One task moves. Unless no item is left, it does not start to wait, and a woken task that
stops being one takes an item with it. -/
theorem Served.update [DecidableEq ι] (h : Served stage tasks items) {t : ι} {a : α}
    (hmove : items' = 0 ∨ stage a ≠ .waiting ∧
      items' + (decide (stage (tasks t) = .woken)).toNat ≤
        items + (decide (stage a = .woken)).toNat) :
    Served stage (Function.update tasks t a) items' := by
  rcases hmove with rfl | ⟨hstage, hle⟩
  · exact served_zero
  · rintro ⟨u, hu⟩
    have hne : u ≠ t := by
      rintro rfl
      rw [Function.update_self] at hu
      exact hstage hu
    rw [Function.update_of_ne hne] at hu
    have hbefore := h ⟨u, hu⟩
    have hcount := tally_update (fun a => decide (stage a = .woken)) tasks t a
    unfold woken at hbefore ⊢
    omega

/-- Some of the waiting tasks are woken and nothing else changes. -/
def Wakes (stage : α → Stage) (tasks tasks' : ι → α) : Prop :=
  ∀ t, stage (tasks' t) = stage (tasks t) ∨
    stage (tasks t) = .waiting ∧ stage (tasks' t) = .woken

omit [Fintype ι] in
theorem Wakes.waiting (h : Wakes stage tasks tasks') {t : ι}
    (ht : stage (tasks' t) = .waiting) : stage (tasks t) = .waiting := by
  rcases h t with heq | ⟨hw, -⟩
  · rw [← heq]
    exact ht
  · exact hw

omit [Fintype ι] in
theorem Wakes.woken (h : Wakes stage tasks tasks') {t : ι}
    (ht : stage (tasks t) = .woken) : stage (tasks' t) = .woken := by
  rcases h t with heq | ⟨-, hw⟩
  · rw [heq]
    exact ht
  · exact hw

theorem Served.wakes (h : Served stage tasks items) (hw : Wakes stage tasks tasks') :
    Served stage tasks' items := by
  rintro ⟨t, ht⟩
  calc items ≤ WaitSet.woken stage tasks := h ⟨t, hw.waiting ht⟩
    _ ≤ WaitSet.woken stage tasks' :=
      tally_mono fun u hu => by
        simp only [decide_eq_true_eq] at hu ⊢
        exact hw.woken hu

theorem Served.signal (h : Served stage tasks items) (hw : Wakes stage tasks tasks')
    (hone : (∃ t, stage (tasks t) = .waiting) →
      ∃ t, stage (tasks t) = .waiting ∧ stage (tasks' t) = .woken) :
    Served stage tasks' (items + 1) := by
  rintro ⟨t, ht⟩
  have hbefore := h ⟨t, hw.waiting ht⟩
  obtain ⟨u, hu, hu'⟩ := hone ⟨t, hw.waiting ht⟩
  have hlt : WaitSet.woken stage tasks < WaitSet.woken stage tasks' := by
    apply tally_lt_of (t := u)
    · intro v hv
      simp only [decide_eq_true_eq] at hv ⊢
      exact hw.woken hv
    · simp [hu]
    · simp [hu']
  omega

end Pool

end OsalRust.Framework.WaitSet
