import OsalRust.Api.Basic

/-!
# Wait budgets of the FreeRTOS backend

A queue call may wait several times within one timeout. `WaitBudget` keeps one absolute
deadline across the waits; `prepare_blocking` is called before a caller registers, so that a
configuration error leaves no waiter behind.
-/

namespace OsalRust.FreeRtos

/-- `sys::SchedulerState`, as the calling task observes it. -/
inductive SchedulerState where
  | notStarted
  | running
  | suspended
  | unknown (raw : Nat)
  deriving DecidableEq

inductive WaitBudget where
  | noWait
  | zero
  | finite (duration : Duration) (deadline : Option Duration) (prepared : Bool)
  | forever (prepared : Bool)
  deriving DecidableEq

def ensureBlockingAllowed : SchedulerState → Result Unit
  | .running => .ok ()
  | .notStarted => .error .notInitialized
  | .suspended => .error .busy
  | .unknown _ => .error (.internal "unknown FreeRTOS scheduler state")

namespace WaitBudget

def new : Timeout → WaitBudget
  | .noWait => .noWait
  | .after d => if d = Duration.zero then .zero else .finite d none false
  | .forever => .forever false

/-- `prepare_blocking`: the budget after a successful preflight at clock value `now`. -/
def prepareBlocking (scheduler : SchedulerState) (now : Duration) : WaitBudget → Result WaitBudget
  | .noWait => .ok .noWait
  | .zero => .ok .zero
  | .finite duration deadline _ => do
    ensureBlockingAllowed scheduler
    match deadline with
    | some value => return .finite duration (some value) true
    | none =>
      match now.checkedAdd duration with
      | some value => return .finite duration (some value) true
      | none => .error .overflow
  | .forever _ => do
    ensureBlockingAllowed scheduler
    return .forever true

/-- The loop of `wait_once` may give up without a token: only a finite budget does, after a
clock reading at or past its deadline. -/
def expired (now : Duration) : WaitBudget → Bool
  | .finite _ (some deadline) _ => decide (deadline ≤ now)
  | _ => false

end WaitBudget

end OsalRust.FreeRtos
