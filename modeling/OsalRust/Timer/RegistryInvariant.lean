import OsalRust.Timer.Registry

/-!
# Registry invariant

What holds of a timer registry between two critical sections, given whose callback the worker
has out: identifiers are distinct and below the next one, deleted entries are stopped and hold
no callback, and every other entry holds its callback unless it is the one that is out. Distinct
identifiers turn the operations, which update the first entry they find, into pointwise updates;
the lemmas of this module describe every operation that way once.
-/

namespace OsalRust.Timer

open OsalRust

section UpdateFirst

variable {α β : Type} {p : α → Bool} {f : α → β × α}

/-- Where at most one element qualifies, updating the first is updating all. -/
theorem updateFirst_elim {xs : List α} (h : xs.Pairwise fun x y => ¬ (p x = true ∧ p y = true)) :
    (updateFirst p f xs).elim xs Prod.snd = xs.map fun x => if p x then (f x).2 else x := by
  induction xs with
  | nil => rfl
  | cons x xs ih =>
    obtain ⟨hx, hxs⟩ := List.pairwise_cons.mp h
    by_cases hp : p x = true
    · have hrest : xs.map (fun y => if p y then (f y).2 else y) = xs := by
        conv_rhs => rw [← List.map_id xs]
        apply List.map_congr_left
        intro y hy
        have hy' : ¬ p y = true := fun hpy => hx y hy ⟨hp, hpy⟩
        simp [hy']
      simp [updateFirst, hp, hrest]
    · have ih := ih hxs
      cases hu : updateFirst p f xs with
      | none =>
        rw [hu] at ih
        simpa [updateFirst, hp, hu] using ih
      | some found =>
        rw [hu] at ih
        simpa [updateFirst, hp, hu] using ih

end UpdateFirst

namespace TimerEntry

theorem live_iff {id : Nat} {e : TimerEntry} :
    e.live id = true ↔ e.id = id ∧ e.deleted = false := by
  simp [live]

end TimerEntry

namespace Registry

def Distinct (r : Registry) : Prop := (r.timers.map (·.id)).Nodup

def adjust (r : Registry) (id : Nat) (f : TimerEntry → TimerEntry) : Registry :=
  { r with timers := r.timers.map fun e => if e.live id then f e else e }

variable {r r' : Registry} {id : Nat} {callback : Callback} {now : Duration}

@[simp] theorem adjust_nextId (r : Registry) (id : Nat) (f : TimerEntry → TimerEntry) :
    (r.adjust id f).nextId = r.nextId := rfl

@[simp] theorem adjust_stopRequested (r : Registry) (id : Nat) (f : TimerEntry → TimerEntry) :
    (r.adjust id f).stopRequested = r.stopRequested := rfl

theorem Distinct.eq_of_id {e e' : TimerEntry} (h : r.Distinct) (he : e ∈ r.timers)
    (he' : e' ∈ r.timers) (hid : e.id = e'.id) : e = e' :=
  List.inj_on_of_nodup_map h he he' hid

theorem Distinct.pairwise (h : r.Distinct) (id : Nat) :
    r.timers.Pairwise fun x y => ¬ (x.live id = true ∧ y.live id = true) := by
  have hne : r.timers.Pairwise fun x y => x.id ≠ y.id := List.pairwise_map.mp h
  refine hne.imp ?_
  rintro x y hxy ⟨hx, hy⟩
  exact hxy ((TimerEntry.live_iff.mp hx).1.trans (TimerEntry.live_iff.mp hy).1.symm)

theorem onLive_snd {β : Type} {f : TimerEntry → Result β × TimerEntry} (h : r.Distinct) :
    (r.onLive id f).2 = r.adjust id fun e => (f e).2 := by
  have hmap := updateFirst_elim (f := f) (h.pairwise id)
  rw [onLive, adjust, ← hmap]
  cases updateFirst (TimerEntry.live id) f r.timers <;> rfl

theorem onLive_fst {β : Type} {f : TimerEntry → Result β × TimerEntry} :
    (r.onLive id f).1 =
      match r.timers.find? (TimerEntry.live id) with
      | some e => (f e).1
      | none => .error .notFound := by
  have hfst := updateFirst_fst (p := TimerEntry.live id) (f := f) r.timers
  rw [onLive]
  cases hfind : r.timers.find? (TimerEntry.live id) with
  | none =>
    rw [hfind, Option.map_none, Option.map_eq_none_iff] at hfst
    rw [hfst]
  | some e =>
    rw [hfind, Option.map_some, Option.map_eq_some_iff] at hfst
    obtain ⟨⟨b, ys⟩, hu, hb⟩ := hfst
    rw [hu]
    exact hb

def putBack (callback : Callback) (e : TimerEntry) : TimerEntry :=
  if e.callback.isNone then { e with callback := some callback } else e

theorem restore_snd (h : r.Distinct) :
    (r.restore id callback).2 = r.adjust id (putBack callback) := by
  have hmap := updateFirst_elim
    (f := fun e : TimerEntry =>
      if e.callback.isNone then ((none : Option Callback), { e with callback := some callback })
      else (some callback, e)) (h.pairwise id)
  rw [restore, adjust]
  simp only [putBack]
  have hif : ∀ e : TimerEntry,
      (if e.callback.isNone then ((none : Option Callback), { e with callback := some callback })
        else (some callback, e)).2 =
      if e.callback.isNone then { e with callback := some callback } else e := by
    intro e
    split <;> rfl
  simp only [hif] at hmap
  rw [← hmap]
  split
  · rename_i rest timers hu
    rw [hu]
    rfl
  · rename_i hu
    rw [hu]
    rfl

theorem restore_fst :
    (r.restore id callback).1 =
      match r.timers.find? (TimerEntry.live id) with
      | some e => if e.callback.isNone then none else some callback
      | none => some callback := by
  have hfst := updateFirst_fst (p := TimerEntry.live id)
    (f := fun e : TimerEntry =>
      if e.callback.isNone then ((none : Option Callback), { e with callback := some callback })
      else (some callback, e)) r.timers
  rw [restore]
  cases hfind : r.timers.find? (TimerEntry.live id) with
  | none =>
    rw [hfind, Option.map_none, Option.map_eq_none_iff] at hfst
    rw [hfst]
  | some e =>
    rw [hfind, Option.map_some, Option.map_eq_some_iff] at hfst
    obtain ⟨⟨rest, ys⟩, hu, hb⟩ := hfst
    rw [hu]
    simp only at hb ⊢
    rw [hb]
    split <;> rfl

/-! ## The invariant -/

/-- The registry while the callback of the timer `out`, if any, is with the worker. -/
structure Wf (r : Registry) (out : Option Nat) : Prop where
  distinct : r.Distinct
  next_pos : 1 ≤ r.nextId
  bounded : ∀ e ∈ r.timers, 1 ≤ e.id ∧ e.id < r.nextId
  out_lt : ∀ id, out = some id → id < r.nextId
  retired : ∀ e ∈ r.timers, e.deleted = true → e.callback = none ∧ e.state.deadline = none
  resting : ∀ e ∈ r.timers, e.deleted = false → (e.callback = none ↔ out = some e.id)

variable {out out' : Option Nat}

theorem wf_new : Wf new none where
  distinct := List.nodup_nil
  next_pos := Nat.le_refl 1
  bounded e he := by cases he
  out_lt id h := by cases h
  retired e he := by cases he
  resting e he := by cases he

theorem Wf.clean (h : r.Wf out) : r.Clean := fun e he hd => (h.retired e he hd).1

/-- An update of one entry keeps the invariant if it keeps the entry's part of it, and if the
callback that is out changes for that entry only. -/
theorem Wf.adjust (h : r.Wf out) {f : TimerEntry → TimerEntry}
    (hid : ∀ e, (f e).id = e.id) (hlt : ∀ y, out' = some y → y < r.nextId)
    (hout : ∀ e ∈ r.timers, e.deleted = false → e.id ≠ id →
      (out' = some e.id ↔ out = some e.id))
    (hretired : ∀ e ∈ r.timers, e.live id = true → (f e).deleted = true →
      (f e).callback = none ∧ (f e).state.deadline = none)
    (hresting : ∀ e ∈ r.timers, e.live id = true → (f e).deleted = false →
      ((f e).callback = none ↔ out' = some e.id)) :
    (r.adjust id f).Wf out' := by
  have hids : ∀ e : TimerEntry, (if e.live id = true then f e else e).id = e.id := by
    intro e
    split
    · exact hid e
    · rfl
  refine ⟨?_, h.next_pos, ?_, hlt, ?_, ?_⟩
  · have hmap : (r.adjust id f).timers.map (·.id) = r.timers.map (·.id) := by
      rw [Registry.adjust, List.map_map]
      exact List.map_congr_left fun e _ => hids e
    rw [Distinct, hmap]
    exact h.distinct
  · intro e he
    obtain ⟨e, hmem, rfl⟩ := List.mem_map.mp he
    rw [hids]
    exact h.bounded e hmem
  · intro e he
    obtain ⟨e, hmem, rfl⟩ := List.mem_map.mp he
    by_cases hl : e.live id = true
    · simpa only [hl, if_true] using hretired e hmem hl
    · simpa only [if_neg hl] using h.retired e hmem
  · intro e he
    obtain ⟨e, hmem, rfl⟩ := List.mem_map.mp he
    by_cases hl : e.live id = true
    · simpa only [hl, if_true, hid] using hresting e hmem hl
    · simp only [if_neg hl]
      intro hd
      have hne : e.id ≠ id := fun he => hl (TimerEntry.live_iff.mpr ⟨he, hd⟩)
      exact (h.resting e hmem hd).trans (hout e hmem hd hne).symm

theorem Wf.onState (h : r.Wf out) (g : TimerState → TimerState) :
    (r.adjust id fun e => { e with state := g e.state }).Wf out := by
  apply h.adjust
  · intro e
    rfl
  · exact h.out_lt
  · intro e _ _ _
    rfl
  · intro e _ hl hd
    rw [(TimerEntry.live_iff.mp hl).2] at hd
    cases hd
  · intro e he hl hd
    exact h.resting e he hd

theorem deregister_snd (h : r.Distinct) :
    (r.deregister id).2 = r.adjust id fun e =>
      { e with deleted := true, state := e.state.stop, callback := none } :=
  onLive_snd h

theorem Wf.deregister (h : r.Wf out) : (r.deregister id).2.Wf out := by
  rw [deregister_snd h.distinct]
  apply h.adjust
  · intro e
    rfl
  · exact h.out_lt
  · intro e _ _ _
    rfl
  · intro e _ _ _
    exact ⟨rfl, rfl⟩
  · intro e _ _ hd
    cases hd

theorem register_snd (period : Duration) (mode : TimerMode) (callback : Callback)
    (reserved : Bool) :
    ((r.register period mode callback reserved).2 = r ∧
      ∃ e, (r.register period mode callback reserved).1 = .error e) ∨
    ∃ state : TimerState, state.deadline = none ∧
      (r.register period mode callback reserved).1 = .ok r.nextId ∧
      (r.register period mode callback reserved).2 =
        { r with timers := r.timers ++ [{ id := r.nextId, state, callback := some callback,
                                          deleted := false }]
                 nextId := r.nextId + 1 } := by
  rw [register]
  cases hs : TimerState.new period mode with
  | error e => exact .inl ⟨rfl, _, rfl⟩
  | ok state =>
    have hd : state.deadline = none := by
      rw [TimerState.new] at hs
      split at hs
      · cases hs
      · cases hs
        rfl
    cases reserved with
    | false => exact .inl ⟨rfl, _, rfl⟩
    | true =>
      by_cases hid : r.nextId + 1 ≤ u64Max
      · exact .inr ⟨state, hd, by simp [hid], by simp [hid]⟩
      · exact .inl ⟨by simp [hid], _, by simp [hid]; rfl⟩

theorem Wf.register (h : r.Wf out) (period : Duration) (mode : TimerMode) (callback : Callback)
    (reserved : Bool) : (r.register period mode callback reserved).2.Wf out := by
  rcases r.register_snd period mode callback reserved with ⟨he, -⟩ | ⟨state, -, -, he⟩
  · rw [he]
    exact h
  rw [he]
  refine ⟨?_, Nat.succ_pos _, ?_, ?_, ?_, ?_⟩
  · rw [Distinct, List.map_append, List.map_singleton, List.nodup_append_comm]
    refine List.nodup_cons.mpr ⟨?_, h.distinct⟩
    intro hmem
    obtain ⟨e, hmem, hid⟩ := List.mem_map.mp hmem
    exact absurd (h.bounded e hmem).2 (by simp [hid])
  · intro e hmem
    rcases List.mem_append.mp hmem with hmem | hmem
    · have hb := h.bounded e hmem
      exact ⟨hb.1, Nat.lt_succ_of_lt hb.2⟩
    · rw [List.mem_singleton.mp hmem]
      exact ⟨h.next_pos, Nat.lt_succ_self _⟩
  · intro y hy
    exact Nat.lt_succ_of_lt (h.out_lt y hy)
  · intro e hmem hd
    rcases List.mem_append.mp hmem with hmem | hmem
    · exact h.retired e hmem hd
    · rw [List.mem_singleton.mp hmem] at hd
      cases hd
  · intro e hmem hd
    rcases List.mem_append.mp hmem with hmem | hmem
    · exact h.resting e hmem hd
    · rw [List.mem_singleton.mp hmem]
      constructor
      · intro hc
        cases hc
      · intro ho
        exact absurd (h.out_lt _ ho) (Nat.lt_irrefl _)

end Registry

def Request.target : Request → Option Nat
  | .register _ _ _ => none
  | .start id | .stop id | .reset id | .changePeriod id _ | .deregister id => some id

/-- What a request does to the state of its timer when it is served at an instant. -/
def Request.control (now : Duration) : Request → TimerState → TimerState
  | .register _ _ _, state => state
  | .start _, state => (state.start now).2
  | .stop _, state => state.stop
  | .reset _, state => (state.reset now).2
  | .changePeriod _ newPeriod, state => (state.changePeriod newPeriod).2
  | .deregister _, state => state.stop

def Request.apply (now : Duration) (q : Request) (e : TimerEntry) : TimerEntry :=
  match q with
  | .deregister _ => { e with deleted := true, state := q.control now e.state, callback := none }
  | _ => { e with state := q.control now e.state }

@[simp] theorem Request.apply_id (now : Duration) (q : Request) (e : TimerEntry) :
    (q.apply now e).id = e.id := by
  cases q <;> rfl

@[simp] theorem Request.apply_state (now : Duration) (q : Request) (e : TimerEntry) :
    (q.apply now e).state = q.control now e.state := by
  cases q <;> rfl

namespace Registry

variable {r : Registry} {id : Nat} {out : Option Nat}

theorem serve_snd {q : Request} (now : Duration) (reserved : Bool) (h : r.Distinct)
    (hq : q.target = some id) :
    (r.serve now reserved q).2 = r.adjust id (q.apply now) := by
  cases q with
  | register => cases hq
  | start | stop | reset | changePeriod | deregister =>
    obtain rfl := Option.some.inj hq
    exact onLive_snd h

theorem serve_register_fst (r : Registry) (now : Duration) (reserved : Bool) (period : Duration)
    (mode : TimerMode) (callback : Callback) :
    (∃ id, (r.serve now reserved (.register period mode callback)).1 = .registered id) ∨
      (r.serve now reserved (.register period mode callback)).1 = .refused callback := by
  cases hans : (r.register period mode callback reserved).1 with
  | ok id => exact .inl ⟨id, by simp only [serve, hans]⟩
  | error e => exact .inr (by simp only [serve, hans])

theorem serve_register_snd {q : Request} (now : Duration) (reserved : Bool)
    (hq : q.target = none) :
    ((r.serve now reserved q).2 = r ∧ ∃ callback, (r.serve now reserved q).1 = .refused callback) ∨
    ∃ (state : TimerState) (callback : Callback), state.deadline = none ∧
      (r.serve now reserved q).1 = .registered r.nextId ∧
      (r.serve now reserved q).2 =
        { r with timers := r.timers ++ [{ id := r.nextId, state, callback := some callback,
                                          deleted := false }]
                 nextId := r.nextId + 1 } := by
  cases q with
  | register period mode callback =>
    rcases r.register_snd period mode callback reserved with ⟨he, e, hr⟩ | ⟨state, hd, hr, he⟩
    · exact .inl ⟨he, callback, by simp only [serve, hr]⟩
    · exact .inr ⟨state, callback, hd, by simp only [serve, hr], he⟩
  | start | stop | reset | changePeriod | deregister => cases hq

theorem Wf.serve (h : r.Wf out) (now : Duration) (reserved : Bool) (q : Request) :
    (r.serve now reserved q).2.Wf out := by
  cases ht : q.target with
  | none =>
    cases q with
    | register period mode callback => exact h.register period mode callback reserved
    | start | stop | reset | changePeriod | deregister => cases ht
  | some id =>
    cases q with
    | register => cases ht
    | deregister id => exact h.deregister
    | start | stop | reset | changePeriod =>
      rw [serve_snd now reserved h.distinct ht]
      exact h.onState (Request.control now _)

variable {r' : Registry} {callback : Callback} {now : Duration}

theorem Wf.retain (h : r.Wf out) : r.retain.2.Wf out where
  distinct := List.Nodup.sublist (List.Sublist.map _ List.filter_sublist) h.distinct
  next_pos := h.next_pos
  bounded e he := h.bounded e (List.mem_of_mem_filter he)
  out_lt := h.out_lt
  retired e he := h.retired e (List.mem_of_mem_filter he)
  resting e he := h.resting e (List.mem_of_mem_filter he)

theorem Wf.halt (h : r.Wf out) : Wf { r with stopRequested := true } out :=
  ⟨h.distinct, h.next_pos, h.bounded, h.out_lt, h.retired, h.resting⟩

theorem Wf.clear (h : r.Wf out) : Wf { r with timers := [] } out where
  distinct := List.nodup_nil
  next_pos := h.next_pos
  bounded e he := by cases he
  out_lt := h.out_lt
  retired e he := by cases he
  resting e he := by cases he

theorem Wf.restore (h : r.Wf (some id)) : (r.restore id callback).2.Wf none := by
  rw [restore_snd h.distinct]
  have hnone : ∀ e ∈ r.timers, e.live id = true → e.callback = none := by
    intro e he hl
    obtain ⟨hid, hd⟩ := TimerEntry.live_iff.mp hl
    exact (h.resting e he hd).mpr (by rw [hid])
  apply h.adjust
  · intro e
    rw [putBack]
    split <;> rfl
  · intro y hy
    cases hy
  · intro e _ _ hne
    simp [Ne.symm hne]
  · intro e he hl hd
    simp only [putBack, hnone e he hl, Option.isNone_none, if_true] at hd
    rw [(TimerEntry.live_iff.mp hl).2] at hd
    cases hd
  · intro e he hl _
    simp [putBack, hnone e he hl]

theorem Wf.restore_fst (h : r.Wf (some id)) :
    (r.restore id callback).1 =
      if (r.timers.find? (TimerEntry.live id)).isSome then none else some callback := by
  rw [Registry.restore_fst]
  cases hfind : r.timers.find? (TimerEntry.live id) with
  | none => rfl
  | some e =>
    obtain ⟨hid, hd⟩ := TimerEntry.live_iff.mp (List.find?_some hfind)
    have hnone : e.callback = none :=
      (h.resting e (List.mem_of_find?_eq_some hfind) hd).mpr (by rw [hid])
    simp [hnone]

/-! ## Selection -/

/-- The order of the keys `(deadline, id)` by which timers are selected. -/
def KeyLt (d : Duration) (id : Nat) (d' : Duration) (id' : Nat) : Prop :=
  d.nanos < d'.nanos ∨ (d.nanos = d'.nanos ∧ id < id')

theorem Candidate.before_iff {a b : Candidate} :
    a.before b = true ↔ KeyLt a.deadline a.id b.deadline b.id := by
  have heq : a.deadline = b.deadline ↔ a.deadline.nanos = b.deadline.nanos := by
    constructor
    · intro h
      rw [h]
    · intro h
      cases ha : a.deadline
      cases hb : b.deadline
      simp_all
  simp only [Candidate.before, KeyLt, Bool.or_eq_true, decide_eq_true_eq, Bool.and_eq_true,
    beq_iff_eq, heq]
  rfl

theorem best_minimal {cs : List Candidate} {c c' : Candidate} (h : best cs = some c)
    (hc : c' ∈ cs) : ¬ KeyLt c'.deadline c'.id c.deadline c.id := by
  cases cs with
  | nil => cases hc
  | cons first cs =>
    obtain rfl := Option.some.inj h
    suffices hfold : ∀ (rest : List Candidate) (acc : Candidate),
        (∀ c ∈ acc :: rest, ¬ KeyLt c.deadline c.id
          (rest.foldl (fun acc c => if c.before acc then c else acc) acc).deadline
          (rest.foldl (fun acc c => if c.before acc then c else acc) acc).id) from
      hfold cs first c' hc
    intro rest
    induction rest with
    | nil =>
      intro acc c hc
      obtain rfl := List.mem_singleton.mp hc
      simp [KeyLt]
    | cons next rest ih =>
      intro acc c hc
      rw [List.foldl_cons]
      by_cases hb : next.before acc = true
      · rw [if_pos hb]
        have hdown := Candidate.before_iff.mp hb
        rcases List.mem_cons.mp hc with rfl | hc
        · have hnext := ih next next List.mem_cons_self
          intro hlt
          apply hnext
          unfold KeyLt at *
          omega
        · exact ih next c hc
      · rw [if_neg hb]
        have hup := mt Candidate.before_iff.mpr hb
        rcases List.mem_cons.mp hc with rfl | hc
        · exact ih c c List.mem_cons_self
        rcases List.mem_cons.mp hc with rfl | hc
        · have hacc := ih acc acc List.mem_cons_self
          intro hlt
          apply hacc
          unfold KeyLt at *
          omega
        · exact ih acc c (List.mem_cons_of_mem _ hc)

theorem mem_candidates {c : Candidate} :
    c ∈ r.candidates now ↔ ∃ e cb, r.timers[c.idx]? = some e ∧ e.deleted = false ∧
      e.callback = some cb ∧ e.state.deadline = some c.deadline ∧ c.deadline ≤ now ∧
      e.id = c.id := by
  constructor
  · intro h
    obtain ⟨⟨e, idx⟩, hmem, hc⟩ := List.mem_filterMap.mp h
    have hget : r.timers[idx]? = some e := List.mem_zipIdx_iff_getElem?.mp hmem
    simp only [candidate] at hc
    split at hc
    · rename_i hlive
      obtain ⟨hd, hcb⟩ := Bool.and_eq_true_iff.mp hlive
      obtain ⟨cb, hcb⟩ := Option.isSome_iff_exists.mp hcb
      split at hc
      · rename_i d hdl
        split at hc
        · rename_i hle
          obtain rfl := Option.some.inj hc
          exact ⟨e, cb, hget, by simpa using hd, hcb, hdl, hle, rfl⟩
        · cases hc
      · cases hc
    · cases hc
  · rintro ⟨e, cb, hget, hd, hcb, hdl, hle, hid⟩
    refine List.mem_filterMap.mpr ⟨⟨e, c.idx⟩, List.mem_zipIdx_iff_getElem?.mpr hget, ?_⟩
    simp [candidate, hd, hcb, hdl, hle, hid]

def takenOut (now : Duration) (e : TimerEntry) : TimerEntry :=
  { e with state := (e.state.advanceOnExpiry now).2, callback := none }

theorem set_eq_adjust (now : Duration) {e : TimerEntry} {idx : Nat} (h : r.Distinct)
    (hget : r.timers[idx]? = some e) (hd : e.deleted = false) :
    r.timers.set idx (takenOut now e) = (r.adjust e.id (takenOut now)).timers := by
  have hlt : idx < r.timers.length := (List.getElem?_eq_some_iff.mp hget).1
  have hval : r.timers[idx] = e := (List.getElem?_eq_some_iff.mp hget).2
  apply List.ext_getElem
  · simp [adjust]
  intro n hn hn'
  have hn₀ : n < r.timers.length := by simpa using hn
  simp only [adjust, List.getElem_map, List.getElem_set]
  by_cases hni : idx = n
  · subst hni
    have hl : (r.timers[idx]).live e.id = true := by
      rw [hval]
      exact TimerEntry.live_iff.mpr ⟨rfl, hd⟩
    rw [if_pos rfl, if_pos hl, hval]
  · rw [if_neg hni, if_neg]
    intro hl
    have hid : (r.timers[n]).id = (r.timers[idx]).id := by
      rw [hval]
      exact (TimerEntry.live_iff.mp hl).1
    have hnd := List.nodup_iff_injective_getElem.mp h
    have := @hnd ⟨n, by simpa using hn₀⟩ ⟨idx, by simpa using hlt⟩ (by simpa using hid)
    exact hni (by simpa using this.symm)

private theorem exists_candidate (h : r.Wf none) {e : TimerEntry} {d : Duration}
    (he : e ∈ r.timers) (hd : e.deleted = false) (hdl : e.state.deadline = some d) (hle : d ≤ now) :
    ∃ idx, (⟨idx, d, e.id⟩ : Candidate) ∈ r.candidates now := by
  obtain ⟨idx, hget⟩ := List.mem_iff_getElem?.mp he
  have hsome : e.callback ≠ none := fun hn => by
    have := (h.resting e he hd).mp hn
    cases this
  obtain ⟨cb, hcb⟩ := Option.ne_none_iff_exists'.mp hsome
  exact ⟨idx, mem_candidates.mpr ⟨e, cb, hget, hd, hcb, hdl, hle, rfl⟩⟩

/-- Selecting with no callback out either finds that nothing has expired, or takes out the
callback of the expired timer with the least key. -/
theorem Wf.select_cases (h : r.Wf none) {selection : Selection}
    (hs : r.select now = .ok (selection, r')) :
    (selection = .none ∧ r' = r ∧
      ∀ e ∈ r.timers, e.deleted = false → ∀ d, e.state.deadline = some d → now < d) ∨
    ∃ e ∈ r.timers, ∃ cb d, e.deleted = false ∧ e.callback = some cb ∧
      e.state.deadline = some d ∧ d ≤ now ∧ selection = .dispatch e.id cb ∧
      r' = r.adjust e.id (takenOut now) ∧
      ∀ e' ∈ r.timers, e'.deleted = false → ∀ d', e'.state.deadline = some d' →
        ¬ KeyLt d' e'.id d e.id := by
  rw [Registry.select] at hs
  cases hbest : best (r.candidates now) with
  | none =>
    rw [hbest] at hs
    obtain ⟨rfl, rfl⟩ : Selection.none = selection ∧ r = r' := by simpa using hs
    refine .inl ⟨rfl, rfl, fun e he hd d hdl => ?_⟩
    by_contra hlt
    obtain ⟨idx, hmem⟩ := exists_candidate h he hd hdl (Nat.le_of_not_lt hlt)
    cases hcs : r.candidates now with
    | nil =>
      rw [hcs] at hmem
      cases hmem
    | cons c cs =>
      rw [hcs] at hbest
      cases hbest
  | some c =>
    obtain ⟨e, cb, hget, hd, hcb, hdl, hle, hid⟩ := mem_candidates.mp (best_mem hbest)
    have hadv : (e.state.advanceOnExpiry now).1 = true := by
      simp only [TimerState.advanceOnExpiry, hdl, hle, if_true]
      split
      · rfl
      · split <;> rfl
    rw [hbest] at hs
    simp only [hget, hadv, hcb, if_true] at hs
    obtain ⟨rfl, rfl⟩ := Prod.mk.inj (Except.ok.inj hs)
    refine .inr ⟨e, List.mem_of_getElem? hget, cb, c.deadline, hd, hcb, hdl, hle, rfl, ?_, ?_⟩
    · have hset := set_eq_adjust (r := r) now h.distinct hget hd
      exact congrArg (fun timers => { r with timers }) hset
    · intro e' he' hd' d' hdl' hlt
      rw [hid] at hlt
      have hle' : d' ≤ now := by
        change d'.nanos ≤ now.nanos
        have : c.deadline.nanos ≤ now.nanos := hle
        unfold KeyLt at hlt
        omega
      obtain ⟨idx, hmem⟩ := exists_candidate h he' hd' hdl' hle'
      exact best_minimal hbest hmem hlt

theorem Wf.takenOut (h : r.Wf none) {e : TimerEntry} (he : e ∈ r.timers) :
    (r.adjust e.id (takenOut now)).Wf (some e.id) := by
  apply h.adjust
  · intro e
    rfl
  · intro y hy
    obtain rfl := Option.some.inj hy
    exact (h.bounded e he).2
  · intro e' _ _ hne
    simp [Ne.symm hne]
  · intro e' _ hl hd'
    rw [Registry.takenOut, (TimerEntry.live_iff.mp hl).2] at hd'
    cases hd'
  · intro e' _ hl _
    simp [Registry.takenOut, (TimerEntry.live_iff.mp hl).1]

/-! ## States of live timers -/

def HasState (r : Registry) (id : Nat) (state : TimerState) : Prop :=
  ∃ e ∈ r.timers, e.live id = true ∧ e.state = state

def Runs (r : Registry) (id : Nat) (deadline : Duration) : Prop :=
  ∃ state, r.HasState id state ∧ state.deadline = some deadline

variable {z : Nat} {state state' : TimerState} {f : TimerEntry → TimerEntry}

theorem Distinct.state_unique (h : r.Distinct) (hs : r.HasState id state)
    (hs' : r.HasState id state') : state = state' := by
  obtain ⟨e, he, hl, rfl⟩ := hs
  obtain ⟨e', he', hl', rfl⟩ := hs'
  have hid : e.id = e'.id :=
    (TimerEntry.live_iff.mp hl).1.trans (TimerEntry.live_iff.mp hl').1.symm
  rw [h.eq_of_id he he' hid]

theorem hasState_of_mem {e : TimerEntry} (he : e ∈ r.timers) (hd : e.deleted = false) :
    r.HasState e.id e.state :=
  ⟨e, he, TimerEntry.live_iff.mpr ⟨rfl, hd⟩, rfl⟩

theorem hasState_adjust (hid : ∀ e, (f e).id = e.id) :
    (r.adjust id f).HasState z state ↔
      (z ≠ id ∧ r.HasState z state) ∨
      (z = id ∧ ∃ e ∈ r.timers, e.live id = true ∧ (f e).deleted = false ∧ (f e).state = state) := by
  constructor
  · rintro ⟨e', he', hl', rfl⟩
    obtain ⟨e, he, rfl⟩ := List.mem_map.mp he'
    by_cases hl : e.live id = true
    · simp only [if_pos hl] at hl' ⊢
      obtain ⟨hz, hd⟩ := TimerEntry.live_iff.mp hl'
      rw [hid] at hz
      exact .inr ⟨hz.symm.trans (TimerEntry.live_iff.mp hl).1, e, he, hl, hd, rfl⟩
    · simp only [if_neg hl] at hl' ⊢
      refine .inl ⟨?_, e, he, hl', rfl⟩
      rintro rfl
      exact hl hl'
  · rintro (⟨hne, e, he, hl, rfl⟩ | ⟨rfl, e, he, hl, hd, rfl⟩)
    · have hl' : ¬ e.live id = true := fun h =>
        hne ((TimerEntry.live_iff.mp hl).1.symm.trans (TimerEntry.live_iff.mp h).1)
      refine ⟨e, List.mem_map.mpr ⟨e, he, ?_⟩, hl, rfl⟩
      rw [if_neg hl']
    · refine ⟨f e, List.mem_map.mpr ⟨e, he, ?_⟩, ?_, rfl⟩
      · rw [if_pos hl]
      · exact TimerEntry.live_iff.mpr ⟨(hid e).trans (TimerEntry.live_iff.mp hl).1, hd⟩

@[simp] theorem hasState_retain : r.retain.2.HasState z state ↔ r.HasState z state := by
  constructor
  · rintro ⟨e, he, hl, hs⟩
    exact ⟨e, List.mem_of_mem_filter he, hl, hs⟩
  · rintro ⟨e, he, hl, hs⟩
    refine ⟨e, List.mem_filter.mpr ⟨he, ?_⟩, hl, hs⟩
    simp [(TimerEntry.live_iff.mp hl).2]

theorem Wf.lt_nextId (h : r.Wf out) (hs : r.HasState id state) : id < r.nextId := by
  obtain ⟨e, he, hl, -⟩ := hs
  rw [← (TimerEntry.live_iff.mp hl).1]
  exact (h.bounded e he).2

theorem Wf.hasState_restore (h : r.Wf (some id)) :
    (r.restore id callback).2.HasState z state ↔ r.HasState z state := by
  have hput : ∀ e, (putBack callback e).id = e.id ∧ (putBack callback e).deleted = e.deleted ∧
      (putBack callback e).state = e.state := by
    intro e
    rw [putBack]
    split <;> exact ⟨rfl, rfl, rfl⟩
  rw [restore_snd h.distinct, hasState_adjust fun e => (hput e).1]
  constructor
  · rintro (⟨-, hs⟩ | ⟨rfl, e, he, hl, -, rfl⟩)
    · exact hs
    · exact ⟨e, he, hl, ((hput e).2.2).symm⟩
  · rintro ⟨e, he, hl, rfl⟩
    by_cases hz : z = id
    · subst hz
      exact .inr ⟨rfl, e, he, hl, (hput e).2.1.trans (TimerEntry.live_iff.mp hl).2, (hput e).2.2⟩
    · exact .inl ⟨hz, e, he, hl, rfl⟩

theorem hasState_serve_of_ne {q : Request} (reserved : Bool) (h : r.Distinct)
    (hq : q.target ≠ some z) (hs : r.HasState z state) :
    (r.serve now reserved q).2.HasState z state := by
  cases ht : q.target with
  | none =>
    rcases serve_register_snd (r := r) now reserved ht with ⟨he, -⟩ | ⟨st, cb, -, -, he⟩
    · rw [he]
      exact hs
    · obtain ⟨e, hmem, hl, rfl⟩ := hs
      rw [he]
      exact ⟨e, List.mem_append_left _ hmem, hl, rfl⟩
  | some id =>
    rw [serve_snd now reserved h ht, hasState_adjust fun e => q.apply_id now e]
    refine .inl ⟨?_, hs⟩
    rintro rfl
    exact hq ht

/-- A live timer after a request was served: it is new and stopped, or the request was about it,
or the request left it alone. -/
theorem hasState_serve {q : Request} {reserved : Bool} (h : r.Distinct)
    (hs : (r.serve now reserved q).2.HasState z state') :
    (z = r.nextId ∧ state'.deadline = none) ∨
    (q.target ≠ some z ∧ r.HasState z state') ∨
    (q.target = some z ∧ q ≠ .deregister z ∧
      ∃ state, r.HasState z state ∧ state' = q.control now state) := by
  cases ht : q.target with
  | none =>
    rcases serve_register_snd (r := r) now reserved ht with ⟨he, -⟩ | ⟨st, cb, hd, -, he⟩
    · rw [he] at hs
      exact .inr (.inl ⟨by simp, hs⟩)
    · rw [he] at hs
      obtain ⟨e, hmem, hl, rfl⟩ := hs
      rcases List.mem_append.mp hmem with hmem | hmem
      · exact .inr (.inl ⟨by simp, e, hmem, hl, rfl⟩)
      · rw [List.mem_singleton.mp hmem] at hl ⊢
        exact .inl ⟨(TimerEntry.live_iff.mp hl).1.symm, hd⟩
  | some id =>
    rw [serve_snd now reserved h ht, hasState_adjust fun e => q.apply_id now e] at hs
    rcases hs with ⟨hne, hs⟩ | ⟨rfl, e, he, hl, hd, rfl⟩
    · exact .inr (.inl ⟨fun hz => hne (Option.some.inj hz).symm, hs⟩)
    · refine .inr (.inr ⟨rfl, ?_, e.state, ⟨e, he, hl, rfl⟩, q.apply_state now e⟩)
      rintro rfl
      cases hd

end Registry

end OsalRust.Timer
