import OsalRust.Framework.Lts
import OsalRust.FreeRtos.Wait

/-!
# The FreeRTOS task

`TaskIdentity` and `TaskCompletion` are shared between the public handles, `spawn` and the start
payload that the trampoline owns. The atomics and the bit of the event group are single steps;
the trampoline, `spawn` and each joiner are program counters whose phases say which references
they hold. Joiners are tasks other than this one, so the self-join guard lets them pass. The last
reference to the completion deletes the event group, the last one to the identity releases the
runtime lease.
-/

namespace OsalRust.FreeRtos.Task

open Framework

inductive CompletionState where
  | running
  | finished
  deriving DecidableEq

/-- Where the task is. `unborn` and `discarded` are the start payload before `xTaskCreate` and
after its failure; `entry` is the user's function; `notified` follows the completion bit, `freed`
and `released` the drops of the payload's identity and completion. -/
inductive Trampoline where
  | unborn
  | discarded
  | start
  | installed
  | entry
  | returned
  | left
  | cleared
  | coded
  | finished
  | notified
  | freed
  | released
  | deleted
  | panicked
  deriving DecidableEq

inductive Spawner where
  | creating
  | created
  | leaving (e : Error)
  | done
  | failed (e : Error)
  deriving DecidableEq

namespace Trampoline

/-- The payload's reference to the identity, which holds the runtime lease. -/
def identityRefs : Trampoline → Nat
  | .discarded | .freed | .released | .deleted => 0
  | _ => 1

def completionRefs : Trampoline → Nat
  | .discarded | .released | .deleted => 0
  | _ => 1

end Trampoline

def Spawner.refs : Spawner → Nat
  | .done | .failed _ => 0
  | _ => 1

inductive JoinPanic where
  | takeInvalid
  | bitBeforeFinished
  deriving DecidableEq

/-- Where a joiner is: before the first `finished_code`, between its two loads (`reading`), past
it without a code (`missed`), at the top of a round of `wait_once`, before its clock reading, in
the native wait, or past the wait, before the last `finished_code`. -/
inductive Joiner where
  | idle
  | enter (timeout : Timeout)
  | reading
  | missed (timeout : Timeout)
  | attempt (deadline : Option Duration)
  | checking (deadline : Duration)
  | blocked (deadline : Option Duration)
  | acquired
  | unavailable
  | returned (r : Result ExitCode)
  | panicked (p : JoinPanic)
  deriving DecidableEq

namespace Joiner

/-- The call is in progress, and borrows a handle. -/
def active : Joiner → Bool
  | .idle | .returned _ => false
  | _ => true

/-- The next operation is on the event group. -/
def usesGroup : Joiner → Bool
  | .attempt _ | .blocked _ => true
  | _ => false

/-- Inside `wait_once`. -/
def waits : Joiner → Bool
  | .attempt _ | .checking _ | .blocked _ => true
  | _ => false

end Joiner

def polls (timeout : Timeout) : Prop := timeout = .noWait ∨ timeout = .after Duration.zero

instance (timeout : Timeout) : Decidable (polls timeout) :=
  inferInstanceAs (Decidable (_ ∨ _))

def deadlineOf : WaitBudget → Option Duration
  | .finite _ deadline _ => deadline
  | _ => none

/-- The task with its joiners. `closing` counts the handles whose identity has been dropped and
whose completion has not; `deletions` counts the calls of `event_group_delete`; `live` is the
share of the task in `LIVE_COUNT`, `current` its TLS identity. `late` records, for the current
call of a joiner, whether `Finished` was stored before it began, or before its wait ended. -/
structure System (ι : Type) where
  state : CompletionState
  exitCode : ExitCode
  completed : Bool
  deletions : Nat
  current : Bool
  live : Nat
  task : Trampoline
  spawner : Spawner
  handles : Nat
  closing : Nat
  now : Duration
  joiners : ι → Joiner
  late : ι → Bool

namespace System

variable {ι : Type}

def identityRefs (s : System ι) : Nat := s.handles + s.spawner.refs + s.task.identityRefs

def completionRefs (s : System ι) : Nat :=
  s.handles + s.closing + s.spawner.refs + s.task.completionRefs

/-- After a reference to the completion has been given up. -/
def settle (s : System ι) : System ι :=
  if s.completionRefs = 0 then { s with deletions := s.deletions + 1 } else s

def move [DecidableEq ι] (s : System ι) (t : ι) (p : Joiner) : System ι :=
  { s with joiners := Function.update s.joiners t p }

def endWait [DecidableEq ι] (s : System ι) (t : ι) (p : Joiner) : System ι :=
  { s.move t p with late := Function.update s.late t (decide (s.state = .finished)) }

end System

inductive Event (ι : Type) where
  | invoke (t : ι) (timeout : Timeout)
  | joiner (t : ι)
  | ret (t : ι) (r : Result ExitCode)
  | dropped
  | internal

/-- The answer of `finished_code` to its first load. -/
def afterLoad (miss : Joiner) : CompletionState → Joiner
  | .finished => .reading
  | .running => miss

def take (deletions : Nat) (completed : Bool) : Except JoinPanic Bool :=
  if deletions ≠ 0 then .error .takeInvalid else .ok completed

/-- The opportunistic take of a round does not tell `Invalid` from `Timeout`. -/
def takeNow (deletions : Nat) (completed : Bool) : Bool :=
  match take deletions completed with
  | .ok b => b
  | .error _ => false

variable {ι : Type} [DecidableEq ι]

/-- The steps. `code` is the exit code that the trampoline publishes, `SUCCESS` in the source. -/
inductive Step (c : TickSource) (code : ExitCode) : System ι → Event ι → System ι → Prop
  | createFailed (s : System ι) (e : Error) (h : s.spawner = .creating) :
      Step c code s .internal { s with spawner := .leaving e, task := .discarded }
  | create (s : System ι) (h : s.spawner = .creating) :
      Step c code s .internal { s with spawner := .created, task := .start }
  | spawned (s : System ι) (h : s.spawner = .created) :
      Step c code s .internal { s with spawner := .done, handles := 1 }
  | spawnFailed (s : System ι) (e : Error) (h : s.spawner = .leaving e) :
      Step c code s .internal { s with spawner := .failed e }.settle
  | install (s : System ι) (h : s.task = .start) :
      Step c code s .internal { s with task := .installed, current := true }
  | countUp (s : System ι) (h : s.task = .installed) :
      Step c code s .internal { s with task := .entry, live := s.live + 1 }
  | entryReturns (s : System ι) (h : s.task = .entry) :
      Step c code s .internal { s with task := .returned }
  | countDown (s : System ι) (h : s.task = .returned) :
      Step c code s .internal { s with task := .left, live := s.live - 1 }
  | clear (s : System ι) (h : s.task = .left) :
      Step c code s .internal { s with task := .cleared, current := false }
  | storeCode (s : System ι) (h : s.task = .cleared) :
      Step c code s .internal { s with task := .coded, exitCode := code }
  | storeFinished (s : System ι) (h : s.task = .coded) :
      Step c code s .internal { s with task := .finished, state := .finished }
  | setBit (s : System ι) (h : s.task = .finished) (hd : s.deletions = 0) :
      Step c code s .internal { s with task := .notified, completed := true }
  | setBitFails (s : System ι) (h : s.task = .finished) (hd : s.deletions ≠ 0) :
      Step c code s .internal { s with task := .panicked }
  | dropIdentity (s : System ι) (h : s.task = .notified) :
      Step c code s .internal { s with task := .freed }
  | dropCompletion (s : System ι) (h : s.task = .freed) :
      Step c code s .internal { s with task := .released }.settle
  | delete (s : System ι) (h : s.task = .released) :
      Step c code s .internal { s with task := .deleted }
  | clone (s : System ι) (h : 0 < s.handles) :
      Step c code s .internal { s with handles := s.handles + 1 }
  /-- The handle that is dropped is not borrowed by a joiner. -/
  | drop (s : System ι) (h : 0 < s.handles)
      (hb : (∃ t, (s.joiners t).active = true) → 1 < s.handles) :
      Step c code s .dropped { s with handles := s.handles - 1, closing := s.closing + 1 }
  | close (s : System ι) (h : 0 < s.closing) :
      Step c code s .internal { s with closing := s.closing - 1 }.settle
  | invoke (s : System ι) (t : ι) (timeout : Timeout) (h : s.joiners t = .idle)
      (hh : 0 < s.handles) :
      Step c code s (.invoke t timeout) (s.endWait t (.enter timeout))
  | load (s : System ι) (t : ι) (timeout : Timeout) (h : s.joiners t = .enter timeout) :
      Step c code s (.joiner t) (s.move t (afterLoad (.missed timeout) s.state))
  | read (s : System ι) (t : ι) (h : s.joiners t = .reading) :
      Step c code s (.joiner t) (s.move t (.returned (.ok s.exitCode)))
  | poll (s : System ι) (t : ι) (timeout : Timeout) (h : s.joiners t = .missed timeout)
      (hp : polls timeout) :
      Step c code s (.joiner t) (s.move t (.returned (.error .timeout)))
  | prepare (s : System ι) (t : ι) (timeout : Timeout) (scheduler : SchedulerState)
      (budget : WaitBudget) (h : s.joiners t = .missed timeout) (hp : ¬ polls timeout)
      (hb : (WaitBudget.new timeout).prepareBlocking scheduler s.now = .ok budget) :
      Step c code s (.joiner t) (s.move t (.attempt (deadlineOf budget)))
  | unprepared (s : System ι) (t : ι) (timeout : Timeout) (scheduler : SchedulerState) (e : Error)
      (h : s.joiners t = .missed timeout) (hp : ¬ polls timeout)
      (hb : (WaitBudget.new timeout).prepareBlocking scheduler s.now = .error e) :
      Step c code s (.joiner t) (s.move t (.returned (.error e)))
  | attempt (s : System ι) (t : ι) (deadline : Duration)
      (h : s.joiners t = .attempt (some deadline))
      (hb : takeNow s.deletions s.completed = true) :
      Step c code s (.joiner t) (s.endWait t .acquired)
  | attemptFails (s : System ι) (t : ι) (deadline : Duration)
      (h : s.joiners t = .attempt (some deadline))
      (hb : takeNow s.deletions s.completed = false) :
      Step c code s (.joiner t) (s.move t (.checking deadline))
  | expired (s : System ι) (t : ι) (deadline : Duration) (h : s.joiners t = .checking deadline)
      (hd : deadline ≤ s.now) : Step c code s (.joiner t) (s.endWait t .unavailable)
  | block (s : System ι) (t : ι) (deadline : Duration) (n : Nat)
      (h : s.joiners t = .checking deadline) (hd : ¬ deadline ≤ s.now)
      (hn : c.nativeTicks deadline s.now = .ok n) :
      Step c code s (.joiner t) (s.move t (.blocked (some deadline)))
  | unblockable (s : System ι) (t : ι) (deadline : Duration) (e : Error)
      (h : s.joiners t = .checking deadline) (hd : ¬ deadline ≤ s.now)
      (hn : c.nativeTicks deadline s.now = .error e) :
      Step c code s (.joiner t) (s.endWait t (.returned (.error e)))
  | blockForever (s : System ι) (t : ι) (h : s.joiners t = .attempt none) :
      Step c code s (.joiner t) (s.move t (.blocked none))
  | wake (s : System ι) (t : ι) (deadline : Option Duration) (h : s.joiners t = .blocked deadline)
      (hb : take s.deletions s.completed = .ok true) :
      Step c code s (.joiner t) (s.endWait t .acquired)
  /-- The native wait may end without the bit at any time. -/
  | elapse (s : System ι) (t : ι) (deadline : Option Duration)
      (h : s.joiners t = .blocked deadline) (hd : s.deletions = 0) :
      Step c code s (.joiner t) (s.move t (.attempt deadline))
  | invalid (s : System ι) (t : ι) (deadline : Option Duration) (p : JoinPanic)
      (h : s.joiners t = .blocked deadline) (hb : take s.deletions s.completed = .error p) :
      Step c code s (.joiner t) (s.move t (.panicked p))
  | loadAcquired (s : System ι) (t : ι) (h : s.joiners t = .acquired) :
      Step c code s (.joiner t) (s.move t (afterLoad (.panicked .bitBeforeFinished) s.state))
  | loadUnavailable (s : System ι) (t : ι) (h : s.joiners t = .unavailable) :
      Step c code s (.joiner t) (s.move t (afterLoad (.returned (.error .timeout)) s.state))
  | ret (s : System ι) (t : ι) (r : Result ExitCode) (h : s.joiners t = .returned r) :
      Step c code s (.ret t r) (s.move t .idle)
  | tick (s : System ι) (now : Duration) (h : s.now ≤ now) :
      Step c code s .internal { s with now }

/-- A task as `spawn` builds it, before `xTaskCreate`. -/
def Init (s : System ι) : Prop :=
  s.state = .running ∧ s.completed = false ∧ s.deletions = 0 ∧ s.current = false ∧ s.live = 0 ∧
    s.task = .unborn ∧ s.spawner = .creating ∧ s.handles = 0 ∧ s.closing = 0 ∧
    ∀ t, s.joiners t = .idle ∧ s.late t = false

def taskLts (ι : Type) [DecidableEq ι] (c : TickSource) (code : ExitCode) :
    Lts (System ι) (Event ι) where
  init := Init
  step := Step c code

end OsalRust.FreeRtos.Task
