import OsalRust.Framework.Lts
import OsalRust.Posix.Queue

/-!
# The POSIX task

`PosixTaskInner` is shared between the public handles, the spawning thread and the trampoline of
the task's own thread. A task is modelled from the point where `spawn` has built it: the spawner
and the trampoline are program counters whose phases also say how many references they hold, and
a joiner is its critical sections, the waits between them and the `pthread_join` outside the
mutex. Joiners are threads other than the task, so the self-join guard lets them pass. Whoever
gives up the last reference runs the `Drop` that detaches a thread which nobody joined.
-/

namespace OsalRust.Posix.Task

open Framework

inductive JoinState where
  | running
  | finished (code : ExitCode)
  | joining (code : ExitCode)
  | joined (code : ExitCode)
  deriving DecidableEq

inductive StartupState where
  | pending
  | ready
  | failed (e : Error)
  deriving DecidableEq

/-- The cell of the thread handle: nothing, a handle, or a handle whose thread has been joined,
which `try_join` leaves until the cell is emptied. -/
inductive Cell where
  | empty
  | handle
  | spent
  deriving DecidableEq

/-- Where the task's thread is. `unborn` and `discarded` are the payload box before
`pthread_create` and after its failure; `left` follows the drop of the live token; `finished`
lies between `set_finished` and the broadcast; the context guard goes before the payload. -/
inductive Trampoline where
  | unborn
  | discarded
  | start
  | failing (e : Error)
  | failed (e : Error)
  | entered
  | entry
  | left
  | finished
  | notified
  | cleared
  | released (started : Bool)
  | exited (started : Bool)
  deriving DecidableEq

/-- Where `spawn` is: before `pthread_create`, before it stores the handle, in `wait_startup`,
on the path of a failed startup, or returned. -/
inductive Spawner where
  | creating
  | created
  | waiting
  | taking (e : Error)
  | reaping (e : Error)
  | leaving (e : Error)
  | done
  | failed (e : Error)
  deriving DecidableEq

/-- The references to the inner object that the trampoline holds: the payload's and, once the
identity is installed, the context guard's. -/
def Trampoline.refs : Trampoline → Nat
  | .unborn | .start | .failing _ | .failed _ | .cleared => 1
  | .entered | .entry | .left | .finished | .notified => 2
  | .discarded | .released _ | .exited _ => 0

def Spawner.refs : Spawner → Nat
  | .done | .failed _ => 0
  | _ => 1

/-- Where a joiner is: before its deadline (`enter`), before a section of its loop, inside the
wait, or past it after a wakeup or after `ETIMEDOUT`; `reaping` and `reaped` are the two halves
of `do_pthread_join`. -/
inductive Joiner where
  | idle
  | enter (timeout : Timeout)
  | ready (deadline : Option Timespec)
  | blocked (deadline : Option Timespec)
  | woken (deadline : Option Timespec)
  | timedOut
  | reaping
  | reaped (r : Result Unit)
  | returned (r : Result ExitCode)
  deriving DecidableEq

namespace Joiner

/-- The call is in progress, and borrows a handle. -/
def active : Joiner → Bool
  | .idle | .returned _ => false
  | _ => true

def inReap : Joiner → Bool
  | .reaping | .reaped _ => true
  | _ => false

def isBlocked : Joiner → Bool
  | .blocked _ => true
  | _ => false

def wake : Joiner → Joiner
  | .blocked deadline => .woken deadline
  | p => p

/-- About to enter a section of the loop. -/
def loops : Joiner → Bool
  | .ready _ | .woken _ => true
  | _ => false

def deadline : Joiner → Option Timespec
  | .ready deadline | .woken deadline => deadline
  | _ => none

end Joiner

/-! ### The sections of `join_inner` and `do_pthread_join` -/

/-- The section of a `NoWait` join. -/
def look : JoinState → Result ExitCode
  | .joined code | .finished code => .ok code
  | _ => .error .timeout

/-- What one round of the loop of a waiting join finds. -/
inductive Claim where
  | cached (code : ExitCode)
  | mine
  | wait
  deriving DecidableEq

def claim : JoinState → JoinState × Claim
  | .joined code => (.joined code, .cached code)
  | .finished code => (.joining code, .mine)
  | .joining code => (.joining code, .wait)
  | .running => (.running, .wait)

/-- The code that `do_pthread_join` reads back under the mutex. -/
def JoinState.code : JoinState → ExitCode
  | .finished code | .joining code | .joined code => code
  | .running => ExitCode.success

/-- `try_join` on the cell; `joins` says whether `pthread_join` succeeds. -/
def tryJoin (joins : Bool) : Cell → Cell × Result Unit
  | .empty => (.empty, .ok ())
  | .handle =>
    if joins then (.spent, .ok ()) else (.handle, .error (.internal "pthread_join failed"))
  | .spent => (.spent, .error (.internal "already joined"))

/-- The section of `do_pthread_join` after `try_join`. -/
def conclude (r : Result Unit) (st : JoinState) : JoinState × Result ExitCode :=
  match r with
  | .ok () => (.joined st.code, .ok st.code)
  | .error e => (.finished st.code, .error e)

/-! ### The system -/

/-- The task with its joiners. `joins` and `detaches` count the successful `pthread_join` and
`pthread_detach` calls on its thread; `late` records, for the current call of each joiner,
whether the code had been published when it began. -/
structure System (ι : Type) where
  join : JoinState
  startup : StartupState
  cell : Cell
  task : Trampoline
  spawner : Spawner
  handles : Nat
  joins : Nat
  detaches : Nat
  now : Timespec
  joiners : ι → Joiner
  late : ι → Bool

namespace System

variable {ι : Type}

/-- The strong count of the inner object. -/
def refs (s : System ι) : Nat := s.handles + s.spawner.refs + s.task.refs

/-- Emptying the cell drops what it held: a thread that was not joined is detached. -/
def emptyCell (s : System ι) : System ι :=
  { s with cell := .empty, detaches := s.detaches + if s.cell = .handle then 1 else 0 }

/-- After a reference has been given up: the last one drops the inner object. -/
def settle (s : System ι) : System ι := if s.refs = 0 then s.emptyCell else s

/-- `broadcast`. -/
def wakeAll (s : System ι) : System ι := { s with joiners := fun t => (s.joiners t).wake }

def move [DecidableEq ι] (s : System ι) (t : ι) (p : Joiner) : System ι :=
  { s with joiners := Function.update s.joiners t p }

end System

inductive Event (ι : Type) where
  | invoke (t : ι) (timeout : Timeout)
  | published
  | look (t : ι)
  | overflow (t : ι)
  | expire (t : ι)
  | joined (t : ι)
  | joinFailed (t : ι)
  | recovered (t : ι)
  | dropped
  | ret (t : ι) (r : Result ExitCode)
  | internal

def Claim.joiner (deadline : Option Timespec) : Claim → Joiner
  | .cached code => .returned (.ok code)
  | .mine => .reaping
  | .wait => .blocked deadline

variable {ι : Type} [DecidableEq ι]

/-- The steps. `code` is the exit code that the trampoline publishes, `SUCCESS` in the source. -/
inductive Step (timeMax : Nat) (code : ExitCode) : System ι → Event ι → System ι → Prop
  | createFailed (s : System ι) (e : Error) (h : s.spawner = .creating) :
      Step timeMax code s .internal { s with spawner := .leaving e, task := .discarded }
  | create (s : System ι) (h : s.spawner = .creating) :
      Step timeMax code s .internal { s with spawner := .created, task := .start }
  | store (s : System ι) (h : s.spawner = .created) :
      Step timeMax code s .internal { s with spawner := .waiting, cell := .handle }
  | spawned (s : System ι) (h : s.spawner = .waiting) (hs : s.startup = .ready) :
      Step timeMax code s .internal { s with spawner := .done, handles := 1 }
  | startFailed (s : System ι) (e : Error) (h : s.spawner = .waiting) (hs : s.startup = .failed e) :
      Step timeMax code s .internal { s with spawner := .taking e }
  | takeHandle (s : System ι) (e : Error) (h : s.spawner = .taking e) (hc : s.cell = .handle) :
      Step timeMax code s .internal { s with spawner := .reaping e, cell := .empty }
  | reapFailed (s : System ι) (e : Error) (b : Bool) (h : s.spawner = .reaping e)
      (ht : s.task = .exited b) :
      Step timeMax code s .internal { s with spawner := .leaving e, joins := s.joins + 1 }
  | spawnFailed (s : System ι) (e : Error) (h : s.spawner = .leaving e) :
      Step timeMax code s .internal { s with spawner := .failed e }.settle
  | enterContext (s : System ι) (h : s.task = .start) :
      Step timeMax code s .internal { s with task := .entered }
  | contextFailed (s : System ι) (e : Error) (h : s.task = .start) :
      Step timeMax code s .internal { s with task := .failing e }
  | publishReady (s : System ι) (h : s.task = .entered) :
      Step timeMax code s .internal { s with task := .entry, startup := .ready }.wakeAll
  | publishFailed (s : System ι) (e : Error) (h : s.task = .failing e) :
      Step timeMax code s .internal { s with task := .failed e, startup := .failed e }.wakeAll
  | entryReturns (s : System ι) (h : s.task = .entry) :
      Step timeMax code s .internal { s with task := .left }
  | setFinished (s : System ι) (h : s.task = .left) :
      Step timeMax code s .published { s with task := .finished, join := .finished code }
  | notify (s : System ι) (h : s.task = .finished) :
      Step timeMax code s .internal { s with task := .notified }.wakeAll
  | clearContext (s : System ι) (h : s.task = .notified) :
      Step timeMax code s .internal { s with task := .cleared }.settle
  | release (s : System ι) (h : s.task = .cleared) :
      Step timeMax code s .internal { s with task := .released true }.settle
  | releaseFailed (s : System ι) (e : Error) (h : s.task = .failed e) :
      Step timeMax code s .internal { s with task := .released false }.settle
  | terminate (s : System ι) (b : Bool) (h : s.task = .released b) :
      Step timeMax code s .internal { s with task := .exited b }
  | clone (s : System ι) (h : 0 < s.handles) :
      Step timeMax code s .internal { s with handles := s.handles + 1 }
  /-- The handle that is dropped is not borrowed by a joiner. -/
  | drop (s : System ι) (h : 0 < s.handles)
      (hb : (∃ t, (s.joiners t).active = true) → 1 < s.handles) :
      Step timeMax code s .dropped { s with handles := s.handles - 1 }.settle
  | invoke (s : System ι) (t : ι) (timeout : Timeout) (h : s.joiners t = .idle)
      (hh : 0 < s.handles) :
      Step timeMax code s (.invoke t timeout)
        { s.move t (.enter timeout) with
          late := Function.update s.late t (decide (s.join ≠ .running)) }
  | look (s : System ι) (t : ι) (h : s.joiners t = .enter .noWait) :
      Step timeMax code s (.look t) (s.move t (.returned (look s.join)))
  | overflow (s : System ι) (t : ι) (d : Duration) (e : Error) (h : s.joiners t = .enter (.after d))
      (hd : checkedAbsDeadline timeMax s.now d = .error e) :
      Step timeMax code s (.overflow t) (s.move t (.returned (.error e)))
  | deadline (s : System ι) (t : ι) (d : Duration) (deadline : Timespec)
      (h : s.joiners t = .enter (.after d))
      (hd : checkedAbsDeadline timeMax s.now d = .ok deadline) :
      Step timeMax code s .internal (s.move t (.ready (some deadline)))
  | forever (s : System ι) (t : ι) (h : s.joiners t = .enter .forever) :
      Step timeMax code s .internal (s.move t (.ready none))
  | round (s : System ι) (t : ι) (st : JoinState) (c : Claim) (h : (s.joiners t).loops = true)
      (hc : claim s.join = (st, c)) :
      Step timeMax code s .internal
        { s.move t (c.joiner (s.joiners t).deadline) with join := st }
  | spurious (s : System ι) (t : ι) (deadline : Option Timespec)
      (h : s.joiners t = .blocked deadline) :
      Step timeMax code s .internal (s.move t (.woken deadline))
  /-- The wait reports `ETIMEDOUT`, possibly after a wakeup. -/
  | expire (s : System ι) (t : ι) (deadline : Timespec)
      (h : s.joiners t = .blocked (some deadline) ∨ s.joiners t = .woken (some deadline))
      (hd : timespecGe s.now deadline = true) :
      Step timeMax code s (.expire t) (s.move t .timedOut)
  | timeout (s : System ι) (t : ι) (h : s.joiners t = .timedOut) :
      Step timeMax code s .internal (s.move t (.returned (.error .timeout)))
  /-- `pthread_join` succeeds only on a thread that has terminated. -/
  | reap (s : System ι) (t : ι) (b : Bool) (h : s.joiners t = .reaping) (ht : s.task = .exited b) :
      Step timeMax code s (.joined t)
        { s.move t (.reaped (tryJoin true s.cell).2) with
          cell := (tryJoin true s.cell).1
          joins := s.joins + if s.cell = .handle then 1 else 0 }
  | reapFails (s : System ι) (t : ι) (h : s.joiners t = .reaping) :
      Step timeMax code s (.joinFailed t)
        { s.move t (.reaped (tryJoin false s.cell).2) with cell := (tryJoin false s.cell).1 }
  | conclude (s : System ι) (t : ι) (h : s.joiners t = .reaped (.ok ())) :
      Step timeMax code s .internal
        ({ s with join := (conclude (.ok ()) s.join).1 }.emptyCell.move t
          (.returned (conclude (.ok ()) s.join).2)).wakeAll
  | recover (s : System ι) (t : ι) (e : Error) (h : s.joiners t = .reaped (.error e)) :
      Step timeMax code s (.recovered t)
        ({ s with join := (conclude (.error e) s.join).1 }.move t
          (.returned (conclude (.error e) s.join).2)).wakeAll
  | ret (s : System ι) (t : ι) (r : Result ExitCode) (h : s.joiners t = .returned r) :
      Step timeMax code s (.ret t r) (s.move t .idle)
  | tick (s : System ι) (now : Timespec) (h : timespecGe now s.now = true) :
      Step timeMax code s .internal { s with now }

/-- A task as `spawn` builds it, before `pthread_create`. -/
def Init (s : System ι) : Prop :=
  s.join = .running ∧ s.startup = .pending ∧ s.cell = .empty ∧ s.task = .unborn ∧
    s.spawner = .creating ∧ s.handles = 0 ∧ s.joins = 0 ∧ s.detaches = 0 ∧
    ∀ t, s.joiners t = .idle ∧ s.late t = false

def taskLts (ι : Type) [DecidableEq ι] (timeMax : Nat) (code : ExitCode) :
    Lts (System ι) (Event ι) where
  init := Init
  step := Step timeMax code

end OsalRust.Posix.Task
