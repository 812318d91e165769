import OsalRust.FreeRtos.BackendLaws

/-!
# The locks of the FreeRTOS backend

Which pieces of code run with the spin lock of the slot or with a registry mutex held and give it
back. A thread whose code owes a lock is the one that holds it, so nobody releases a lock of
somebody else.
-/

namespace OsalRust.FreeRtosBackend

open OsalRust OsalRust.Framework OsalRust.Timer
open OsalRust.Runtime (RuntimeState lifecycleTable)

variable {max : Nat} {t : Thread} {w w' : Backend} {a : Action} {code rest : Code} {s s' : State}

theorem only_acts {P : Action → Prop} {α : Type} (f : α → Action) (h : ∀ x, P (f x))
    (xs : List α) : Threads.Only P (xs.map fun x => (.act (f x) : Instr Lock Action)) := by
  intro b hb
  obtain ⟨x, -, hx⟩ := List.mem_map.1 hb
  cases hx
  exact h x

/-! ### Code that leaves a lock alone -/

section Neutral

variable {owe : Action → Nat} {m : Lock} {n : Nat}

theorem balance_act (ha : owe a = 0) :
    Threads.balance owe m n (.act a :: rest) = Threads.balance owe m n rest := by
  rw [Threads.balance, ha, if_pos (Nat.zero_le n), Nat.sub_zero]

private theorem balance_acts {α : Type} (f : α → Action) (h : ∀ x, owe (f x) = 0)
    (xs : List α) :
    Threads.balance owe m n (xs.map (fun x => .act (f x)) ++ rest) =
      Threads.balance owe m n rest := by
  induction xs with
  | nil => rfl
  | cons x xs ih =>
    rw [List.map_cons, List.cons_append, balance_act (h x)]
    exact ih

private theorem balance_dropAll (h : ∀ callback, owe (.dropCallback callback) = 0)
    (callbacks : List Callback) :
    Threads.balance owe m n (dropAll callbacks ++ rest) = Threads.balance owe m n rest :=
  balance_acts .dropCallback h callbacks

private theorem balance_dropHandles (h : ∀ id, owe (.dropHandle id) = 0) (callback : Callback) :
    Threads.balance owe m n (dropHandles callback ++ rest) = Threads.balance owe m n rest :=
  balance_acts .dropHandle h callback.captures

end Neutral

/-! ### The registry mutex -/

/-- The actions that run with the mutex of service `g` held and give it back. -/
def owed (g : Nat) : Action → Nat
  | .request h _ | .serve h _ _ | .checkTimers h | .requestStop h | .scan h | .select h
  | .restore h _ => if h = g then 1 else 0
  | _ => 0

section Balance

variable {g n : Nat}

private theorem balance_intend (i : Intent) :
    Threads.balance (owed g) (.registry g) 0 (intend i ++ rest) =
      Threads.balance (owed g) (.registry g) 0 rest := by
  cases i with
  | request q => cases q <;> simp [intend, api, withRegistry, Threads.balance, owed]
  | idle | dropHandle | dropCallback => simp [intend, Threads.balance, owed]

private theorem balance_unlock {h : Nat} :
    Threads.balance (owed g) (.registry g) (if h = g then 1 else 0) (.unlock (.registry h) :: rest) =
      Threads.balance (owed g) (.registry g) 0 rest := by
  by_cases hg : h = g
  · simp [Threads.balance, hg]
  · simp [Threads.balance, hg]

private theorem balance_owed {h : Nat} (ha : owed g a = if h = g then 1 else 0) :
    Threads.balance (owed g) (.registry g) (if h = g then 1 else 0) (.act a :: rest) =
      Threads.balance (owed g) (.registry g) 0 rest := by
  rw [Threads.balance, ha, if_pos le_rfl, Nat.sub_self]

private theorem balance_withRegistry (q : Request) :
    Threads.balance (owed g) (.registry g) 0 (withRegistry q) = some 0 := by
  simp [withRegistry, Threads.balance, owed]

private theorem balance_finish {h : Nat} (q : Request) (ok : Bool) (o : Outcome) :
    Threads.balance (owed g) (.registry g) (if h = g then 1 else 0) (finish h q ok o) = some 0 := by
  cases o with
  | done => exact balance_unlock
  | registered => exact balance_unlock
  | refused callback =>
    rw [finish, balance_act rfl]
    exact balance_unlock
  | removed callback =>
    rw [finish, List.cons_append, List.cons_append, balance_unlock]
    cases q <;> cases callback <;> rfl

private theorem balance_signal {h : Nat} (sent : Bool) :
    Threads.balance (owed g) (.registry g) n (signal h sent ++ rest) =
      Threads.balance (owed g) (.registry g) n rest := by
  cases sent with
  | true => exact balance_act rfl
  | false => rfl

private theorem balance_dispatch {h : Nat} (r : Registry) (selection : Registry.Selection) :
    Threads.balance (owed g) (.registry g) (if h = g then 1 else 0) (dispatch h r selection) =
      some 0 := by
  cases selection with
  | dispatch => exact balance_unlock
  | rescan => exact balance_unlock
  | none =>
    unfold dispatch
    cases earliest r <;> exact balance_unlock

private theorem balance_giveUp {h : Nat} (id : Nat) (callback : Option Callback) :
    Threads.balance (owed g) (.registry g) (if h = g then 1 else 0) (giveUp h id callback) =
      some 0 := by
  cases callback <;> exact balance_unlock

theorem Performs.balanced (h : Performs max t w a w' code) (g : Nat) :
    Threads.balance (owed g) (.registry g) (owed g a) code = some 0 := by
  cases h with
  | application => exact balance_intend _
  | callbackCalls => exact balance_intend _
  | @turnDown _ _ q => cases q <;> rfl
  | acquire => exact balance_withRegistry _
  | ensureWorker => exact balance_withRegistry _
  | createWorker => exact balance_withRegistry _
  | dropLast => exact balance_withRegistry _
  | serve => exact (balance_signal _).trans (balance_finish _ _ _)
  | select => exact balance_dispatch _ _
  | restore => exact balance_giveUp _ _
  | @takeTimeout _ _ _ deadline => cases deadline <;> rfl
  | @dropCallback _ _ callback =>
    rw [← List.append_nil (dropHandles callback)]
    exact balance_dropHandles (fun _ => rfl) callback
  | dropRemoved => exact balance_dropHandles (fun _ => rfl) _
  | dropRetired => exact balance_dropHandles (fun _ => rfl) _
  | @destroy _ _ g =>
    rw [← List.append_nil (dropAll ((w.service g).state.timers.filterMap (·.callback)))]
    exact balance_dropAll (fun _ => rfl) _
  | checkTimersBusy => exact (balance_dropAll (fun _ => rfl) _).trans balance_unlock
  | checkTimers => exact (balance_dropAll (fun _ => rfl) _).trans (balance_owed rfl)
  | scan => exact (balance_dropAll (fun _ => rfl) _).trans (balance_owed rfl)
  | scanStop => exact (balance_dropAll (fun _ => rfl) _).trans balance_unlock
  | requestStop => exact (balance_act rfl).trans balance_unlock
  | _ => simp [Threads.balance, owed]

end Balance

theorem balanced_of_reachable (hr : (system max).Reachable s) (g : Nat) :
    Threads.Balanced (owed g) (.registry g) s := by
  refine hr.invariant (I := fun s => Threads.Balanced (owed g) (.registry g) s) ?_ ?_
  · rintro s ⟨now, rfl⟩ u
    cases u <;> rfl
  · exact fun s l s' h hs => h.step hs fun hex => hex.balanced g

/-! ### The spin lock of the slot -/

/-- The actions that run with the slot borrowed and give it back. -/
def owedControl : Action → Nat
  | .createService | .preflight | .stop | .checkTimers _ | .requestStop _ | .stopping _
  | .cleanUp _ | .ensureWorker _ _ | .extract _ => 1
  | _ => 0

section Control

variable {n : Nat}

private theorem control_intend (i : Intent) :
    Threads.balance owedControl .control 0 (intend i ++ rest) =
      Threads.balance owedControl .control 0 rest := by
  cases i with
  | request q => cases q <;> simp [intend, api, withRegistry, Threads.balance, owedControl]
  | idle | dropHandle | dropCallback => simp [intend, Threads.balance, owedControl]

private theorem control_finish {h : Nat} (q : Request) (ok : Bool) (o : Outcome) :
    Threads.balance owedControl .control 0 (finish h q ok o) = some 0 := by
  cases o with
  | removed callback => cases q <;> cases callback <;> rfl
  | done | registered | refused => rfl

theorem Performs.balanced_control (h : Performs max t w a w' code) :
    Threads.balance owedControl .control (owedControl a) code = some 0 := by
  cases h with
  | application => exact control_intend _
  | callbackCalls => exact control_intend _
  | @turnDown _ _ q => cases q <;> rfl
  | @serve _ _ g q reserved now =>
    cases (w.service g).state.succeeds now reserved q && wakes q <;> exact control_finish _ _ _
  | @select _ _ g now selection r => cases selection with
    | none =>
      unfold dispatch
      cases earliest r <;> rfl
    | rescan | dispatch => rfl
  | @restore _ _ g id callback => cases ((w.service g).state.restore id callback).1 <;> rfl
  | @takeTimeout _ _ _ deadline => cases deadline <;> rfl
  | @dropCallback _ _ callback =>
    rw [← List.append_nil (dropHandles callback)]
    exact balance_dropHandles (fun _ => rfl) callback
  | dropRemoved => exact balance_dropHandles (fun _ => rfl) _
  | dropRetired => exact balance_dropHandles (fun _ => rfl) _
  | @destroy _ _ g =>
    rw [← List.append_nil (dropAll ((w.service g).state.timers.filterMap (·.callback)))]
    exact balance_dropAll (fun _ => rfl) _
  | checkTimersBusy => exact balance_dropAll (fun _ => rfl) _
  | checkTimers => exact balance_dropAll (fun _ => rfl) _
  | scan => exact balance_dropAll (fun _ => rfl) _
  | scanStop => exact balance_dropAll (fun _ => rfl) _
  | _ => rfl

end Control

theorem balancedControl_of_reachable (hr : (system max).Reachable s) :
    Threads.Balanced owedControl .control s := by
  refine hr.invariant (I := fun s => Threads.Balanced owedControl .control s) ?_ ?_
  · rintro s ⟨now, rfl⟩ u
    cases u <;> rfl
  · exact fun s l s' h hs => h.step hs fun hex => hex.balanced_control

end OsalRust.FreeRtosBackend
