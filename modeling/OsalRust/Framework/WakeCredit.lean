import Mathlib.Tactic
import OsalRust.Framework.TaskPool

/-!
# The waiter-credit protocol

Tasks wait for items of a shared resource on a counting semaphore. Under a lock the resource
counts its registered waiters and the wake tokens posted but not yet confirmed; the semaphore
is taken outside the lock. The counters of one direction move as below, whatever the resource
is, and the invariant links them to the tasks in each stage of the wait.
-/

namespace OsalRust.Framework.WakeCredit

/-- The counters of one direction. The lock counts `waiters` and the `credits` for tokens posted
and not yet confirmed, the semaphore counts its `tokens`. Of the registered tasks some are
`waiting` for a token, some took one and have not confirmed it (`woken`), and some gave up
waiting (`expired`); those `rechecking` confirmed a token and have not looked at the `items`
again, which are what a task of this direction could take now. -/
@[ext] structure Counters where
  waiters : Nat
  credits : Nat
  tokens : Nat
  waiting : Nat
  woken : Nat
  expired : Nat
  rechecking : Nat
  items : Nat
  closed : Bool

inductive Stage where
  | outside
  | waiting
  | woken
  | expired
  | rechecking
  deriving DecidableEq

namespace Counters

def leave (c : Counters) : Stage → Counters
  | .outside => c
  | .waiting => { c with waiting := c.waiting - 1 }
  | .woken => { c with woken := c.woken - 1 }
  | .expired => { c with expired := c.expired - 1 }
  | .rechecking => { c with rechecking := c.rechecking - 1 }

def enter (c : Counters) : Stage → Counters
  | .outside => c
  | .waiting => { c with waiting := c.waiting + 1 }
  | .woken => { c with woken := c.woken + 1 }
  | .expired => { c with expired := c.expired + 1 }
  | .rechecking => { c with rechecking := c.rechecking + 1 }

end Counters

section Pool

variable {ι α : Type*} [Fintype ι]

def inStage (stage : α → Stage) (g : Stage) (tasks : ι → α) : Nat :=
  tally (fun a => decide (stage a = g)) tasks

/-- The counters of a pool of tasks beside the lock's and the semaphore's own. -/
def Counters.ofPool (stage : α → Stage) (tasks : ι → α) (waiters credits tokens items : Nat)
    (closed : Bool) : Counters where
  waiters := waiters
  credits := credits
  tokens := tokens
  waiting := inStage stage .waiting tasks
  woken := inStage stage .woken tasks
  expired := inStage stage .expired tasks
  rechecking := inStage stage .rechecking tasks
  items := items
  closed := closed

theorem inStage_pos {stage : α → Stage} {g : Stage} {tasks : ι → α} {t : ι}
    (h : stage (tasks t) = g) : 0 < inStage stage g tasks :=
  tally_pos (t := t) (by simp [h])

theorem ofPool_update [DecidableEq ι] (stage : α → Stage) (tasks : ι → α) (t : ι) (a : α)
    (waiters credits tokens items : Nat) (closed : Bool) :
    Counters.ofPool stage (Function.update tasks t a) waiters credits tokens items closed =
      ((Counters.ofPool stage tasks waiters credits tokens items closed).leave
        (stage (tasks t))).enter (stage a) := by
  have hcount (g : Stage) : inStage stage g (Function.update tasks t a) +
      (decide (stage (tasks t) = g)).toNat =
        inStage stage g tasks + (decide (stage a = g)).toNat :=
    tally_update _ tasks t a
  have hw := hcount .waiting
  have hk := hcount .woken
  have he := hcount .expired
  have hr := hcount .rechecking
  have hpos : 0 < inStage stage (stage (tasks t)) tasks := inStage_pos rfl
  cases hold : stage (tasks t) <;> cases hnew : stage a <;>
    simp only [hold, hnew, reduceCtorEq, decide_false, decide_true, Bool.toNat_true,
      Bool.toNat_false, Nat.add_zero] at hw hk he hr hpos <;>
    simp only [Counters.ofPool, Counters.leave, Counters.enter, Counters.mk.injEq, true_and,
      and_true] <;>
    omega

end Pool

/-- The moves of one direction. `again` says that the task looks at the resource after it
confirmed a token, so it leaves the re-checking stage. -/
inductive Move : Counters → Counters → Prop
  | idle (c : Counters) : Move c c
  | register (c : Counters) (again : Bool) (hitems : c.items = 0) (hopen : c.closed = false)
      (hagain : again.toNat ≤ c.rechecking) :
      Move c { c with waiters := c.waiters + 1, waiting := c.waiting + 1,
                      rechecking := c.rechecking - again.toNat }
  | giveUpEmpty (c : Counters) (again : Bool) (hitems : c.items = 0 ∨ c.closed = true)
      (hagain : again.toNat ≤ c.rechecking) :
      Move c { c with rechecking := c.rechecking - again.toNat }
  | consume (c : Counters) (again : Bool) (hitems : 0 < c.items)
      (hagain : again.toNat ≤ c.rechecking) :
      Move c { c with items := c.items - 1, rechecking := c.rechecking - again.toNat }
  | produceSignal (c : Counters) (hwait : c.credits < c.waiters) :
      Move c { c with items := c.items + 1, credits := c.credits + 1, tokens := c.tokens + 1 }
  | produceSilent (c : Counters) (hwait : c.waiters ≤ c.credits) :
      Move c { c with items := c.items + 1 }
  | take (c : Counters) (htokens : 0 < c.tokens) (hwaiting : 0 < c.waiting) :
      Move c { c with tokens := c.tokens - 1, waiting := c.waiting - 1, woken := c.woken + 1 }
  | expire (c : Counters) (hwaiting : 0 < c.waiting) :
      Move c { c with waiting := c.waiting - 1, expired := c.expired + 1 }
  | confirm (c : Counters) (hwoken : 0 < c.woken) :
      Move c { c with credits := c.credits - 1, waiters := c.waiters - 1, woken := c.woken - 1,
                      rechecking := c.rechecking + 1 }
  | raceToken (c : Counters) (htokens : 0 < c.tokens) (hexpired : 0 < c.expired) :
      Move c { c with tokens := c.tokens - 1, credits := c.credits - 1, waiters := c.waiters - 1,
                      expired := c.expired - 1, rechecking := c.rechecking + 1 }
  | timeout (c : Counters) (htokens : c.tokens = 0) (hexpired : 0 < c.expired) :
      Move c { c with waiters := c.waiters - 1, expired := c.expired - 1 }
  | close (c : Counters) :
      Move c { c with tokens := c.tokens + (c.waiters - c.credits), credits := c.waiters,
                      closed := true }

structure Inv (c : Counters) : Prop where
  waiters_eq : c.waiters = c.waiting + c.woken + c.expired
  credits_eq : c.credits = c.tokens + c.woken
  credits_le : c.credits ≤ c.waiters
  no_lost_wakeup : c.closed = false → c.credits < c.waiters → c.items ≤ c.credits + c.rechecking
  closed_granted : c.closed = true → c.credits = c.waiters

theorem Inv.move {c c' : Counters} (h : Inv c) (hm : Move c c') : Inv c' := by
  obtain ⟨hw, hc, hle, hopen, hclosed⟩ := h
  cases hm with
  | idle => exact ⟨hw, hc, hle, hopen, hclosed⟩
  | register again hitems ho hagain =>
    refine ⟨?_, ?_, ?_, ?_, ?_⟩ <;> simp only [ho, Bool.false_eq_true, false_implies] <;> omega
  | giveUpEmpty again hitems hagain =>
    refine ⟨hw, hc, hle, ?_, hclosed⟩
    intro ho hlt
    rcases hitems with hz | hcl
    · simp only [hz]
      omega
    · rw [hcl] at ho
      contradiction
  | consume again hitems hagain =>
    refine ⟨hw, hc, hle, ?_, hclosed⟩
    intro ho hlt
    have hb := hopen ho hlt
    have hbit := Bool.toNat_le again
    simp only
    omega
  | produceSignal hwait =>
    refine ⟨hw, ?_, ?_, ?_, ?_⟩
    · simp only
      omega
    · simp only
      omega
    · intro ho _
      have hb := hopen ho hwait
      simp only
      omega
    · intro hcl
      have := hclosed hcl
      omega
  | produceSilent hwait =>
    refine ⟨hw, hc, hle, ?_, hclosed⟩
    intro _ hlt
    exact absurd hlt (Nat.not_lt.mpr hwait)
  | take htokens hwaiting =>
    refine ⟨?_, ?_, hle, hopen, hclosed⟩ <;> simp only <;> omega
  | expire hwaiting =>
    refine ⟨?_, hc, hle, hopen, hclosed⟩
    simp only
    omega
  | confirm hwoken =>
    refine ⟨?_, ?_, ?_, ?_, ?_⟩
    · simp only
      omega
    · simp only
      omega
    · simp only
      omega
    · intro ho hlt
      simp only at hlt ⊢
      have hb := hopen ho (by omega)
      omega
    · intro hcl
      have := hclosed hcl
      simp only
      omega
  | raceToken htokens hexpired =>
    refine ⟨?_, ?_, ?_, ?_, ?_⟩
    · simp only
      omega
    · simp only
      omega
    · simp only
      omega
    · intro ho hlt
      simp only at hlt ⊢
      have hb := hopen ho (by omega)
      omega
    · intro hcl
      have := hclosed hcl
      simp only
      omega
  | timeout htokens hexpired =>
    refine ⟨?_, hc, ?_, ?_, ?_⟩
    · simp only
      omega
    · simp only
      omega
    · intro ho hlt
      simp only at hlt ⊢
      exact hopen ho (by omega)
    · intro hcl
      have := hclosed hcl
      omega
  | close =>
    refine ⟨hw, ?_, Nat.le_refl _, ?_, fun _ => rfl⟩
    · simp only
      omega
    · intro ho
      contradiction

/-- With no token in flight and none being re-checked, a registered task means that there is
no item and that the resource is open. -/
theorem Inv.quiet {c : Counters} (h : Inv c) (htokens : c.tokens = 0) (hwoken : c.woken = 0)
    (hre : c.rechecking = 0) (hreg : 0 < c.waiters) : c.closed = false ∧ c.items = 0 := by
  have hcredits : c.credits = 0 := by rw [h.credits_eq, htokens, hwoken]
  cases hcl : c.closed with
  | true =>
    have := h.closed_granted hcl
    omega
  | false =>
    have := h.no_lost_wakeup hcl (by omega)
    exact ⟨rfl, by omega⟩

/-- On a closed resource a registered task that holds no token finds one in the semaphore. -/
theorem Inv.closed_token {c : Counters} (h : Inv c) (hcl : c.closed = true)
    (hexpired : 0 < c.expired) : 0 < c.tokens := by
  have h1 := h.closed_granted hcl
  have h2 := h.waiters_eq
  have h3 := h.credits_eq
  omega

end OsalRust.Framework.WakeCredit
