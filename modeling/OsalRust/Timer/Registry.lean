import OsalRust.Portable.TimerState

/-!
# Timer registry

The registry that the POSIX and the FreeRTOS timer service both keep behind a mutex: the
entries with their callbacks, the operations of the timer API on it, and what the worker does
to it. What becomes of a callback (it stays with the entry, it is handed to the worker, it is
handed back, it is left to its owner) is in the results, since a callback owns what it
captures, and dropping it runs the destructors of that.

The second part models the users of the registry: the shared handles of timers, who owns them,
and the calls that application code and callbacks make through them.
-/

namespace OsalRust.Timer

open OsalRust

/-- `TimerCallback`: a closure, by the timer handles it has captured. -/
structure Callback where
  captures : List Nat
  deriving DecidableEq

structure TimerEntry where
  id : Nat
  state : TimerState
  callback : Option Callback
  deleted : Bool
  deriving DecidableEq

/-- `TimerServiceState`. -/
structure Registry where
  timers : List TimerEntry
  nextId : Nat
  stopRequested : Bool
  deriving DecidableEq

def u64Max : Nat := 2 ^ 64 - 1

/-- `iter_mut().find(p)` followed by an update of the element found. -/
def updateFirst {α β : Type} (p : α → Bool) (f : α → β × α) : List α → Option (β × List α)
  | [] => none
  | x :: xs =>
    if p x then some ((f x).1, (f x).2 :: xs)
    else (updateFirst p f xs).map fun found => (found.1, x :: found.2)

namespace TimerEntry

def live (id : Nat) (e : TimerEntry) : Bool := e.id == id && !e.deleted

end TimerEntry

namespace Registry

def new : Registry := { timers := [], nextId := 1, stopRequested := false }

/-- The body shared by the operations on a live timer. -/
def onLive {β : Type} (r : Registry) (id : Nat) (f : TimerEntry → Result β × TimerEntry) :
    Result β × Registry :=
  match updateFirst (TimerEntry.live id) f r.timers with
  | some (result, timers) => (result, { r with timers })
  | none => (.error .notFound, r)

/-- `register`. The FreeRTOS service reserves room for the entry first and `reserved` is the
allocator's answer; the POSIX service pushes without asking. On an error the callback is still
the caller's. -/
def register (r : Registry) (period : Duration) (mode : TimerMode) (callback : Callback)
    (reserved : Bool) : Result Nat × Registry :=
  match TimerState.new period mode with
  | .error _ => (.error .invalidParameter, r)
  | .ok state =>
    if reserved = false then (.error .outOfMemory, r)
    else if r.nextId + 1 ≤ u64Max then
      (.ok r.nextId,
        { r with
          timers := r.timers ++ [{ id := r.nextId, state, callback := some callback,
                                   deleted := false }]
          nextId := r.nextId + 1 })
    else (.error .overflow, r)

def start (r : Registry) (id : Nat) (now : Duration) : Result Unit × Registry :=
  r.onLive id fun e => ((e.state.start now).1, { e with state := (e.state.start now).2 })

def stop (r : Registry) (id : Nat) : Result Unit × Registry :=
  r.onLive id fun e => (.ok (), { e with state := e.state.stop })

def reset (r : Registry) (id : Nat) (now : Duration) : Result Unit × Registry :=
  r.onLive id fun e => ((e.state.reset now).1, { e with state := (e.state.reset now).2 })

def changePeriod (r : Registry) (id : Nat) (newPeriod : Duration) : Result Unit × Registry :=
  r.onLive id fun e =>
    ((e.state.changePeriod newPeriod).1, { e with state := (e.state.changePeriod newPeriod).2 })

/-- `deregister`, with the callback that leaves the entry. -/
def deregister (r : Registry) (id : Nat) : Result (Option Callback) × Registry :=
  r.onLive id fun e =>
    (.ok e.callback, { e with deleted := true, state := e.state.stop, callback := none })

/-- `timers.retain(|e| !e.deleted)`, with the callbacks that die with the removed entries. -/
def retain (r : Registry) : List Callback × Registry :=
  ((r.timers.filter (·.deleted)).filterMap (·.callback),
    { r with timers := r.timers.filter (!·.deleted) })

def earliest (r : Registry) : Option Duration :=
  r.timers.foldl
    (fun acc e =>
      match e.state.deadline, acc with
      | none, _ => acc
      | some d, none => some d
      | some d, some cur => if d < cur then some d else acc)
    none

structure Candidate where
  idx : Nat
  deadline : Duration
  id : Nat
  deriving DecidableEq

namespace Candidate

def before (a b : Candidate) : Bool :=
  decide (a.deadline < b.deadline) || (a.deadline == b.deadline && decide (a.id < b.id))

end Candidate

def candidate (now : Duration) (e : TimerEntry) (idx : Nat) : Option Candidate :=
  if !e.deleted && e.callback.isSome then
    match e.state.deadline with
    | some d => if d ≤ now then some { idx, deadline := d, id := e.id } else none
    | none => none
  else none

def candidates (r : Registry) (now : Duration) : List Candidate :=
  r.timers.zipIdx.filterMap fun p => candidate now p.1 p.2

/-- `min_by_key`: the first of the least candidates. -/
def best : List Candidate → Option Candidate
  | [] => none
  | c :: cs => some (cs.foldl (fun acc c => if c.before acc then c else acc) c)

inductive Selection where
  | none
  | rescan
  | dispatch (id : Nat) (callback : Callback)
  deriving DecidableEq

/-- The selection of `dispatch_one`: the expired timer with the least deadline is advanced and
its callback taken out. Indexing the entries and unwrapping the callback are the faults. -/
def select (r : Registry) (now : Duration) : Checked (Selection × Registry) :=
  match best (r.candidates now) with
  | none => .ok (.none, r)
  | some c =>
    match r.timers[c.idx]? with
    | none => .error .indexOutOfBounds
    | some e =>
      if (e.state.advanceOnExpiry now).1 then
        match e.callback with
        | none => .error .assertionFailed
        | some callback =>
          let taken := { e with state := (e.state.advanceOnExpiry now).2, callback := none }
          .ok (.dispatch e.id callback, { r with timers := r.timers.set c.idx taken })
      else .ok (.rescan, r)

/-- The restoring half of `dispatch_one`: what remains is the callback that was not taken
back. -/
def restore (r : Registry) (id : Nat) (callback : Callback) : Option Callback × Registry :=
  match updateFirst (TimerEntry.live id)
      (fun e =>
        if e.callback.isNone then ((none : Option Callback), { e with callback := some callback })
        else (some callback, e))
      r.timers with
  | some (rest, timers) => (rest, { r with timers })
  | none => (some callback, r)

def callbackOf (r : Registry) (id : Nat) : Option Callback :=
  (r.timers.find? (TimerEntry.live id)).bind (·.callback)

def Clean (r : Registry) : Prop := ∀ e ∈ r.timers, e.deleted = true → e.callback = none

theorem clean_new : Clean new := by
  intro e he
  cases he

end Registry

section UpdateFirst

variable {α β : Type} {p : α → Bool} {f : α → β × α}

theorem updateFirst_fst (xs : List α) :
    (updateFirst p f xs).map Prod.fst = (xs.find? p).map fun x => (f x).1 := by
  induction xs with
  | nil => rfl
  | cons x xs ih =>
    by_cases hx : p x = true
    · simp [updateFirst, hx]
    · simpa [updateFirst, hx, Function.comp_def] using ih

theorem forall_of_updateFirst {P : α → Prop} {xs ys : List α} {b : β}
    (hf : ∀ x, p x = true → P x → P (f x).2) (hxs : ∀ x ∈ xs, P x)
    (h : updateFirst p f xs = some (b, ys)) : ∀ y ∈ ys, P y := by
  induction xs generalizing b ys with
  | nil => cases h
  | cons x xs ih =>
    have hx : P x := hxs x List.mem_cons_self
    have hrest : ∀ y ∈ xs, P y := fun y hy => hxs y (List.mem_cons_of_mem _ hy)
    by_cases hp : p x = true
    · obtain ⟨-, rfl⟩ : (f x).1 = b ∧ (f x).2 :: xs = ys := by simpa [updateFirst, hp] using h
      exact List.forall_mem_cons.mpr ⟨hf x hp hx, hrest⟩
    · obtain ⟨b', ys', hu, -, rfl⟩ :
          ∃ b' ys', updateFirst p f xs = some (b', ys') ∧ b' = b ∧ x :: ys' = ys := by
        simpa [updateFirst, hp] using h
      exact List.forall_mem_cons.mpr ⟨hx, ih hrest hu⟩

end UpdateFirst

namespace Registry

variable {r r' : Registry} {id : Nat} {callback : Callback} {now : Duration}

theorem Clean.onLive {β : Type} {f : TimerEntry → Result β × TimerEntry} (h : r.Clean)
    (hf : ∀ e, TimerEntry.live id e = true → (f e).2.deleted = true → (f e).2.callback = none) :
    (r.onLive id f).2.Clean := by
  rw [Registry.onLive]
  split
  · rename_i result timers hu
    exact forall_of_updateFirst (fun e he _ => hf e he) h hu
  · exact h

private theorem not_deleted_of_live {e : TimerEntry} (h : TimerEntry.live id e = true) :
    e.deleted = false := by
  simp only [TimerEntry.live, Bool.and_eq_true, Bool.not_eq_true'] at h
  exact h.2

private theorem Clean.onLive_of_deleted_eq {β : Type} {f : TimerEntry → Result β × TimerEntry}
    (h : r.Clean) (hf : ∀ e, (f e).2.deleted = e.deleted) : (r.onLive id f).2.Clean := by
  apply h.onLive
  intro e he hd
  rw [hf, not_deleted_of_live he] at hd
  cases hd

theorem Clean.start (h : r.Clean) : (r.start id now).2.Clean :=
  h.onLive_of_deleted_eq fun _ => rfl

theorem Clean.stop (h : r.Clean) : (r.stop id).2.Clean :=
  h.onLive_of_deleted_eq fun _ => rfl

theorem Clean.reset (h : r.Clean) : (r.reset id now).2.Clean :=
  h.onLive_of_deleted_eq fun _ => rfl

theorem Clean.changePeriod {newPeriod : Duration} (h : r.Clean) :
    (r.changePeriod id newPeriod).2.Clean :=
  h.onLive_of_deleted_eq fun _ => rfl

theorem Clean.deregister (h : r.Clean) : (r.deregister id).2.Clean :=
  h.onLive fun _ _ _ => rfl

theorem Clean.register {period : Duration} {mode : TimerMode} {reserved : Bool} (h : r.Clean) :
    (r.register period mode callback reserved).2.Clean := by
  rw [Registry.register]
  split
  · exact h
  split
  · exact h
  split
  · intro e he hd
    rcases List.mem_append.mp he with he | he
    · exact h e he hd
    · obtain rfl := List.mem_singleton.mp he
      cases hd
  · exact h

theorem Clean.retain (h : r.Clean) : r.retain.2.Clean :=
  fun e he => h e (List.mem_of_mem_filter he)

/-- No callback dies when a clean registry is purged of its deleted entries. -/
theorem Clean.retain_fst (h : r.Clean) : r.retain.1 = [] := by
  rw [Registry.retain, List.filterMap_eq_nil_iff]
  intro e he
  obtain ⟨hmem, hd⟩ := List.mem_filter.mp he
  exact h e hmem hd

theorem Clean.restore (h : r.Clean) : (r.restore id callback).2.Clean := by
  rw [Registry.restore]
  split
  · rename_i rest timers hu
    refine forall_of_updateFirst (fun e he hc => ?_) h hu
    split
    · intro hd
      rw [not_deleted_of_live he] at hd
      cases hd
    · exact hc
  · exact h

theorem Clean.select (h : r.Clean) {selection : Selection}
    (hs : r.select now = .ok (selection, r')) : r'.Clean := by
  rw [Registry.select] at hs
  split at hs
  · cases hs
    exact h
  split at hs
  · cases hs
  split at hs
  · split at hs
    · cases hs
    · cases hs
      intro e he hd
      rcases List.mem_or_eq_of_mem_set he with he | rfl
      · exact h e he hd
      · rfl
  · cases hs
    exact h

theorem best_mem {cs : List Candidate} {c : Candidate} (h : best cs = some c) : c ∈ cs := by
  cases cs with
  | nil => cases h
  | cons first cs =>
    obtain rfl := Option.some.inj h
    induction cs generalizing first with
    | nil => exact List.mem_cons_self
    | cons second cs ih =>
      rw [List.foldl_cons]
      have hmem := ih (if second.before first then second else first) rfl
      rcases List.mem_cons.mp hmem with hmem | hmem
      · rw [hmem]
        split <;> simp
      · exact List.mem_cons_of_mem _ (List.mem_cons_of_mem _ hmem)

private theorem entry_of_mem_candidates {c : Candidate} (h : c ∈ r.candidates now) :
    ∃ e cb, r.timers[c.idx]? = some e ∧ e.callback = some cb := by
  obtain ⟨⟨e, idx⟩, hmem, hc⟩ := List.mem_filterMap.mp h
  have hget : r.timers[idx]? = some e := List.mem_zipIdx_iff_getElem?.mp hmem
  simp only [candidate] at hc
  split at hc
  · rename_i hlive
    obtain ⟨cb, hcb⟩ := Option.isSome_iff_exists.mp (Bool.and_eq_true_iff.mp hlive).2
    split at hc
    · split at hc
      · obtain rfl := Option.some.inj hc
        exact ⟨e, cb, hget, hcb⟩
      · cases hc
    · cases hc
  · cases hc

/-- Selecting never indexes out of bounds and never unwraps a missing callback. -/
theorem select_ok (r : Registry) (now : Duration) :
    ∃ selection r', r.select now = .ok (selection, r') := by
  rw [select]
  cases hbest : best (r.candidates now) with
  | none => exact ⟨_, _, rfl⟩
  | some c =>
    obtain ⟨e, cb, hget, hcb⟩ := entry_of_mem_candidates (best_mem hbest)
    simp only [hget, hcb]
    split
    · exact ⟨_, _, rfl⟩
    · exact ⟨_, _, rfl⟩

theorem deregister_fst : (r.deregister id).1 =
    match r.timers.find? (TimerEntry.live id) with
    | some e => .ok e.callback
    | none => .error .notFound := by
  have hfst := updateFirst_fst (p := TimerEntry.live id)
    (f := fun e : TimerEntry => ((.ok e.callback : Result (Option Callback)),
      { e with deleted := true, state := e.state.stop, callback := none })) r.timers
  unfold Registry.deregister Registry.onLive
  cases hfind : r.timers.find? (TimerEntry.live id) with
  | none =>
    rw [hfind, Option.map_none, Option.map_eq_none_iff] at hfst
    rw [hfst]
  | some e =>
    rw [hfind, Option.map_some, Option.map_eq_some_iff] at hfst
    obtain ⟨⟨b, ys⟩, hu, hb⟩ := hfst
    rw [hu]
    exact hb

end Registry

inductive Request where
  | register (period : Duration) (mode : TimerMode) (callback : Callback)
  | start (id : Nat)
  | stop (id : Nat)
  | reset (id : Nat)
  | changePeriod (id : Nat) (newPeriod : Duration)
  | deregister (id : Nat)
  deriving DecidableEq

/-- What a request leaves to be done with callbacks and handles once it has been served. -/
inductive Outcome where
  | done
  | registered (id : Nat)
  | refused (callback : Callback)
  | removed (callback : Option Callback)
  deriving DecidableEq

namespace Registry

def serve (r : Registry) (now : Duration) (reserved : Bool) : Request → Outcome × Registry
  | .register period mode callback =>
    let answer := r.register period mode callback reserved
    (match answer.1 with
      | .ok id => .registered id
      | .error _ => .refused callback,
    answer.2)
  | .start id => (.done, (r.start id now).2)
  | .stop id => (.done, (r.stop id).2)
  | .reset id => (.done, (r.reset id now).2)
  | .changePeriod id newPeriod => (.done, (r.changePeriod id newPeriod).2)
  | .deregister id =>
    let answer := r.deregister id
    (match answer.1 with
      | .ok callback => .removed callback
      | .error _ => .removed none,
    answer.2)

def succeeds (r : Registry) (now : Duration) (reserved : Bool) : Request → Bool
  | .register period mode callback => (r.register period mode callback reserved).1.isOk
  | .start id => (r.start id now).1.isOk
  | .stop id => (r.stop id).1.isOk
  | .reset id => (r.reset id now).1.isOk
  | .changePeriod id newPeriod => (r.changePeriod id newPeriod).1.isOk
  | .deregister id => (r.deregister id).1.isOk

variable {r : Registry} {now : Duration} {reserved : Bool}

theorem Clean.serve (h : r.Clean) (q : Request) : (r.serve now reserved q).2.Clean := by
  cases q with
  | register period mode callback => exact h.register
  | start id => exact h.start
  | stop id => exact h.stop
  | reset id => exact h.reset
  | changePeriod id newPeriod => exact h.changePeriod
  | deregister id => exact h.deregister

theorem serve_deregister (id : Nat) :
    (r.serve now reserved (.deregister id)).1 = .removed (r.callbackOf id) := by
  simp only [serve, deregister_fst, callbackOf]
  cases r.timers.find? (TimerEntry.live id) <;> rfl

/-- A registration with a valid period succeeds exactly if there is room for the entry and an
identifier left. -/
theorem serve_register {period : Duration} {mode : TimerMode} {callback : Callback}
    (hp : period ≠ Duration.zero) :
    (r.serve now reserved (.register period mode callback)).1 =
      if reserved = true ∧ r.nextId < u64Max then .registered r.nextId else .refused callback := by
  simp only [serve, register, TimerState.new_eq_ok hp]
  cases reserved with
  | false => simp
  | true =>
    by_cases hid : r.nextId < u64Max
    · simp [hid, Nat.succ_le_of_lt hid]
    · simp [hid]

end Registry

/-- The handles of the timers: the strong count of each shared handle, and how many of its
clones application code owns. The other clones are captured by callbacks. -/
structure Handles where
  strong : Nat → Nat
  owned : Nat → Nat

/-- What a call made by application code or by a callback sets off. -/
inductive Intent where
  | idle
  | request (q : Request)
  | dropHandle (id : Nat)
  | dropCallback (callback : Callback)
  deriving DecidableEq

namespace Handles

def empty : Handles := { strong := fun _ => 0, owned := fun _ => 0 }

def adopt (h : Handles) (id : Nat) : Handles :=
  { strong := Function.update h.strong id 1
    owned := Function.update h.owned id (h.owned id + 1) }

def clone (h : Handles) (id : Nat) : Handles :=
  { strong := Function.update h.strong id (h.strong id + 1)
    owned := Function.update h.owned id (h.owned id + 1) }

def release (h : Handles) (id : Nat) : Handles :=
  { h with strong := Function.update h.strong id (h.strong id - 1) }

/-- A clone leaves the ownership of application code. -/
def give (h : Handles) (id : Nat) : Handles :=
  { h with owned := Function.update h.owned id (h.owned id - 1) }

/-- A clone that a callback captured moves to application code. -/
def gain (h : Handles) (id : Nat) : Handles :=
  { h with owned := Function.update h.owned id (h.owned id + 1) }

/-- The clones moved into a new closure. -/
def capture (h : Handles) (captures : List Nat) : Handles :=
  { h with owned := fun id => h.owned id - captures.count id }

/-- Code with the given captures at hand can reach a clone of the timer's handle. -/
def Reaches (h : Handles) (captures : List Nat) (id : Nat) : Prop :=
  0 < h.owned id ∨ id ∈ captures

/-- The calls of application code, or of a callback with the given captures. `new` validates
the period and acquires a runtime lease before it goes to the service, and drops its callback
if either fails; `change_period` refuses a zero period itself. -/
inductive Calls (captures : List Nat) : Handles → Intent → Handles → Prop
  | newRefused {h : Handles} {moved : List Nat} : (∀ id, moved.count id ≤ h.owned id) →
      Calls captures h (.dropCallback ⟨moved⟩) (h.capture moved)
  | new {h : Handles} {moved : List Nat} {period : Duration} {mode : TimerMode} :
      (∀ id, moved.count id ≤ h.owned id) → period ≠ Duration.zero →
      Calls captures h (.request (.register period mode ⟨moved⟩)) (h.capture moved)
  | start {h : Handles} {id : Nat} : h.Reaches captures id →
      Calls captures h (.request (.start id)) h
  | stop {h : Handles} {id : Nat} : h.Reaches captures id →
      Calls captures h (.request (.stop id)) h
  | reset {h : Handles} {id : Nat} : h.Reaches captures id →
      Calls captures h (.request (.reset id)) h
  | changePeriod {h : Handles} {id : Nat} {newPeriod : Duration} : h.Reaches captures id →
      newPeriod ≠ Duration.zero → Calls captures h (.request (.changePeriod id newPeriod)) h
  | changePeriodZero {h : Handles} {id : Nat} : h.Reaches captures id → Calls captures h .idle h
  | clone {h : Handles} {id : Nat} : h.Reaches captures id → Calls captures h .idle (h.clone id)
  | drop {h : Handles} {id : Nat} : 0 < h.owned id →
      Calls captures h (.dropHandle id) (h.give id)

end Handles

/-- The requests that the callers send: the periods have been validated. -/
def Request.Valid : Request → Prop
  | .register period _ _ => period ≠ Duration.zero
  | .changePeriod _ newPeriod => newPeriod ≠ Duration.zero
  | _ => True

theorem Handles.Calls.valid {captures : List Nat} {h h' : Handles} {q : Request}
    (hc : Handles.Calls captures h (.request q) h') : q.Valid := by
  cases hc with
  | new _ hp => exact hp
  | changePeriod _ hp => exact hp
  | start | stop | reset => trivial

end OsalRust.Timer
