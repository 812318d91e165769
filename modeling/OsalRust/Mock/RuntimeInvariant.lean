import Mathlib.Data.Finset.Card
import Mathlib.Data.List.Perm.Basic
import OsalRust.Mock.TimeRuntime
import OsalRust.Timer.RegistryInvariant

/-!
# Invariant of the mock time runtime

Between two dispatches every entry of the mock registry holds its callback, and while a callback
runs its own entry is the only one that may not. Keys follow from creation orders within an epoch,
so a timer is named by its creation order, and each operation is described by what it does to the
states of the timers. `swap_remove` permutes the entries, which none of these descriptions sees.
-/

namespace OsalRust.Timer

section UpdateFirst

variable {α β : Type} {p : α → Bool} {f : α → β × α}

theorem updateFirst_eq_none {xs : List α} (h : xs.find? p = none) : updateFirst p f xs = none := by
  have hfst := updateFirst_fst (f := f) (p := p) xs
  rw [h] at hfst
  exact Option.map_eq_none_iff.1 hfst

theorem updateFirst_of_find? {xs : List α} {x : α} (h : xs.find? p = some x)
    (hp : p (f x).2 = true) :
    ∃ ys, updateFirst p f xs = some ((f x).1, ys) ∧ ys.find? p = some (f x).2 := by
  induction xs with
  | nil => cases h
  | cons y xs ih =>
    cases hy : p y with
    | true =>
      rw [List.find?_cons, hy] at h
      obtain rfl := Option.some.inj h
      exact ⟨(f y).2 :: xs, by rw [updateFirst, if_pos hy], by rw [List.find?_cons, hp]⟩
    | false =>
      rw [List.find?_cons, hy] at h
      obtain ⟨ys, hu, hfind⟩ := ih h
      refine ⟨y :: ys, ?_, ?_⟩
      · rw [updateFirst, if_neg (by simp [hy]), hu]
        rfl
      · rw [List.find?_cons, hy]
        exact hfind

end UpdateFirst

end OsalRust.Timer

namespace OsalRust.Mock

open OsalRust OsalRust.Timer OsalRust.Timer.Registry

theorem MockTimerEntry.live_iff {key : MockTimerKey} {e : MockTimerEntry} :
    e.live key = true ↔ e.key = key ∧ e.deleted = false := by
  simp [MockTimerEntry.live]

namespace MockTimeRuntime

/-- What is kept while the callback of `out` runs. -/
structure Wf (rt : MockTimeRuntime) (out : Option MockTimerKey) : Prop where
  next : rt.nextId = rt.nextCreationOrder + 1
  distinct : (rt.timers.map (·.creationOrder)).Nodup
  keyed : ∀ e ∈ rt.timers, e.key = ⟨rt.epoch, e.creationOrder + 1⟩
  bounded : ∀ e ∈ rt.timers, e.creationOrder < rt.nextCreationOrder
  present : ∀ e ∈ rt.timers, e.deleted = false
  resting : ∀ e ∈ rt.timers, e.callback = none → out = some e.key

def HasState (rt : MockTimeRuntime) (order : Nat) (state : TimerState) : Prop :=
  ∃ e ∈ rt.timers, e.creationOrder = order ∧ e.state = state

def adjust (rt : MockTimeRuntime) (key : MockTimerKey) (f : MockTimerEntry → MockTimerEntry) :
    MockTimeRuntime :=
  { rt with timers := rt.timers.map fun e => if e.live key then f e else e }

@[simp] theorem adjust_epoch (rt : MockTimeRuntime) (key : MockTimerKey)
    (f : MockTimerEntry → MockTimerEntry) : (rt.adjust key f).epoch = rt.epoch := rfl

@[simp] theorem adjust_now (rt : MockTimeRuntime) (key : MockTimerKey)
    (f : MockTimerEntry → MockTimerEntry) : (rt.adjust key f).now = rt.now := rfl

@[simp] theorem adjust_nextCreationOrder (rt : MockTimeRuntime) (key : MockTimerKey)
    (f : MockTimerEntry → MockTimerEntry) :
    (rt.adjust key f).nextCreationOrder = rt.nextCreationOrder := rfl

variable {rt rt' : MockTimeRuntime} {out out' : Option MockTimerKey} {key : MockTimerKey}
  {order : Nat} {state state' : TimerState} {callback : Callback}

theorem wf_new : new.Wf none where
  next := rfl
  distinct := List.nodup_nil
  keyed e he := by cases he
  bounded e he := by cases he
  present e he := by cases he
  resting e he := by cases he

theorem Wf.eq_of_order (h : rt.Wf out) {e e' : MockTimerEntry} (he : e ∈ rt.timers)
    (he' : e' ∈ rt.timers) (ho : e.creationOrder = e'.creationOrder) : e = e' :=
  List.inj_on_of_nodup_map h.distinct he he' ho

theorem Wf.eq_of_key (h : rt.Wf out) {e e' : MockTimerEntry} (he : e ∈ rt.timers)
    (he' : e' ∈ rt.timers) (hk : e.key = e'.key) : e = e' := by
  rw [h.keyed e he, h.keyed e' he', MockTimerKey.mk.injEq] at hk
  exact h.eq_of_order he he' (Nat.succ.inj hk.2)

theorem Wf.live_iff (h : rt.Wf out) {e : MockTimerEntry} (he : e ∈ rt.timers) :
    e.live key = true ↔ key = ⟨rt.epoch, e.creationOrder + 1⟩ := by
  rw [MockTimerEntry.live_iff, h.keyed e he]
  exact ⟨fun hl => hl.1.symm, fun hk => ⟨hk.symm, h.present e he⟩⟩

theorem Wf.pairwise (h : rt.Wf out) (key : MockTimerKey) :
    rt.timers.Pairwise fun x y => ¬ (x.live key = true ∧ y.live key = true) := by
  have hne : rt.timers.Pairwise fun x y => x.creationOrder ≠ y.creationOrder :=
    List.pairwise_map.mp h.distinct
  refine hne.imp_of_mem ?_
  rintro x y hx hy hxy ⟨hlx, hly⟩
  have hkey := ((h.live_iff hx).1 hlx).symm.trans ((h.live_iff hy).1 hly)
  rw [MockTimerKey.mk.injEq] at hkey
  exact hxy (Nat.succ.inj hkey.2)

theorem Wf.onLive_eq (h : rt.Wf out) (key : MockTimerKey) (f : TimerState → TimerState) :
    rt.onLive key f = rt.adjust key fun e => { e with state := f e.state } := by
  have hmap := updateFirst_elim
    (f := fun e : MockTimerEntry => ((), { e with state := f e.state })) (h.pairwise key)
  rw [onLive, adjust, ← hmap]
  cases updateFirst (MockTimerEntry.live key)
    (fun e : MockTimerEntry => ((), { e with state := f e.state })) rt.timers <;> rfl

def putBack (callback : Callback) (e : MockTimerEntry) : MockTimerEntry :=
  if e.callback.isNone then { e with callback := some callback } else e

theorem Wf.restoreCallback_snd (h : rt.Wf out) (key : MockTimerKey) (callback : Callback) :
    (rt.restoreCallback key callback).2 = rt.adjust key (putBack callback) := by
  have hmap := updateFirst_elim
    (f := fun e : MockTimerEntry =>
      if e.callback.isNone then ((none : Option Callback), { e with callback := some callback })
      else (some callback, e)) (h.pairwise key)
  have hput : ∀ e : MockTimerEntry,
      (if e.callback.isNone then
        ((none : Option Callback), { e with callback := some callback })
      else (some callback, e)).2 = putBack callback e := by
    intro e
    rw [putBack]
    split <;> rfl
  simp only [hput] at hmap
  rw [restoreCallback, adjust, ← hmap]
  cases updateFirst (MockTimerEntry.live key) _ rt.timers <;> rfl

theorem Wf.find?_of_mem (h : rt.Wf out) {e : MockTimerEntry} (he : e ∈ rt.timers) :
    rt.timers.find? (MockTimerEntry.live e.key) = some e := by
  have hlive := MockTimerEntry.live_iff.2 ⟨rfl, h.present e he⟩
  cases hfind : rt.timers.find? (MockTimerEntry.live e.key) with
  | none => exact absurd hlive (List.find?_eq_none.1 hfind e he)
  | some e' =>
    have hkey := (MockTimerEntry.live_iff.1 (List.find?_some hfind)).1
    rw [h.eq_of_key (List.mem_of_find?_eq_some hfind) he hkey]

/-! ## Updates of one entry -/

theorem Wf.adjust (h : rt.Wf out) {f : MockTimerEntry → MockTimerEntry}
    (hkey : ∀ e, (f e).key = e.key) (horder : ∀ e, (f e).creationOrder = e.creationOrder)
    (hdeleted : ∀ e, (f e).deleted = e.deleted)
    (hout : ∀ e ∈ rt.timers, e.callback = none → e.live key = false → out' = some e.key)
    (hcallback : ∀ e ∈ rt.timers, e.live key = true → (f e).callback = none → out' = some e.key) :
    (rt.adjust key f).Wf out' := by
  have horders : (fun e => (if e.live key then f e else e).creationOrder) =
      fun e : MockTimerEntry => e.creationOrder := by
    funext e
    split
    · exact horder e
    · rfl
  refine ⟨h.next, ?_, ?_, ?_, ?_, ?_⟩
  · simp only [MockTimeRuntime.adjust, List.map_map, Function.comp_def, horders]
    exact h.distinct
  all_goals
    intro e' he'
    obtain ⟨e, he, rfl⟩ := List.mem_map.1 he'
    cases hl : e.live key
  · simpa [hl] using h.keyed e he
  · simpa [hl, hkey, horder] using h.keyed e he
  · simpa [hl] using h.bounded e he
  · simpa [hl, horder] using h.bounded e he
  · simpa [hl] using h.present e he
  · simpa [hl, hdeleted] using h.present e he
  · simpa [hl] using fun hc => hout e he hc hl
  · simpa [hl, hkey] using hcallback e he hl

theorem Wf.hasState_adjust (h : rt.Wf out) {f : MockTimerEntry → MockTimerEntry}
    {g : TimerState → TimerState} (horder : ∀ e, (f e).creationOrder = e.creationOrder)
    (hstate : ∀ e ∈ rt.timers, e.live key = true → (f e).state = g e.state) :
    (rt.adjust key f).HasState order state ↔
      ∃ s, rt.HasState order s ∧ (if key = ⟨rt.epoch, order + 1⟩ then g s else s) = state := by
  constructor
  · rintro ⟨e', he', ho, rfl⟩
    obtain ⟨e, he, rfl⟩ := List.mem_map.1 he'
    cases hl : e.live key with
    | false =>
      simp only [hl, Bool.false_eq_true, if_false] at ho ⊢
      refine ⟨e.state, ⟨e, he, ho, rfl⟩, if_neg fun hk => ?_⟩
      rw [(h.live_iff he).2 (ho ▸ hk)] at hl
      cases hl
    | true =>
      simp only [hl, if_true, horder] at ho ⊢
      refine ⟨e.state, ⟨e, he, ho, rfl⟩, ?_⟩
      rw [if_pos (ho ▸ (h.live_iff he).1 hl), hstate e he hl]
  · rintro ⟨s, ⟨e, he, ho, rfl⟩, hs⟩
    refine ⟨_, List.mem_map.2 ⟨e, he, rfl⟩, ?_⟩
    cases hl : e.live key with
    | false =>
      rw [if_neg fun hk => by rw [(h.live_iff he).2 (ho ▸ hk)] at hl; cases hl] at hs
      simpa using ⟨ho, hs⟩
    | true =>
      rw [if_pos (ho ▸ (h.live_iff he).1 hl), ← hstate e he hl] at hs
      simpa [horder] using ⟨ho, hs⟩

theorem Wf.onLive (h : rt.Wf out) (key : MockTimerKey) (f : TimerState → TimerState) :
    (rt.onLive key f).Wf out := by
  rw [h.onLive_eq key f]
  exact h.adjust (fun _ => rfl) (fun _ => rfl) (fun _ => rfl) (fun e he hc _ => h.resting e he hc)
    fun e he _ hc => h.resting e he hc

theorem Wf.hasState_onLive (h : rt.Wf out) (key : MockTimerKey) (f : TimerState → TimerState) :
    (rt.onLive key f).HasState order state ↔
      ∃ s, rt.HasState order s ∧ (if key = ⟨rt.epoch, order + 1⟩ then f s else s) = state := by
  rw [h.onLive_eq key f]
  exact h.hasState_adjust (fun _ => rfl) fun _ _ _ => rfl

theorem onLive_now (rt : MockTimeRuntime) (key : MockTimerKey) (f : TimerState → TimerState) :
    (rt.onLive key f).now = rt.now ∧ (rt.onLive key f).epoch = rt.epoch := by
  rw [MockTimeRuntime.onLive]
  split <;> exact ⟨rfl, rfl⟩

/-! ## Restoring, registering, removing, resetting -/

private theorem putBack_fields (callback : Callback) (e : MockTimerEntry) :
    (putBack callback e).key = e.key ∧ (putBack callback e).creationOrder = e.creationOrder ∧
      (putBack callback e).deleted = e.deleted ∧ (putBack callback e).state = e.state ∧
      (putBack callback e).callback ≠ none := by
  rw [putBack]
  split
  · exact ⟨rfl, rfl, rfl, rfl, nofun⟩
  · rename_i hc
    exact ⟨rfl, rfl, rfl, rfl, fun hn => hc (by rw [hn]; rfl)⟩

theorem Wf.restoreCallback (h : rt.Wf (some key)) (callback : Callback) :
    (rt.restoreCallback key callback).2.Wf none := by
  rw [h.restoreCallback_snd]
  refine h.adjust (fun e => (putBack_fields callback e).1) (fun e => (putBack_fields callback e).2.1)
    (fun e => (putBack_fields callback e).2.2.1) (fun e he hc hl => ?_)
    fun e _ _ hc => ((putBack_fields callback e).2.2.2.2 hc).elim
  rw [MockTimerEntry.live_iff.2 ⟨(Option.some.inj (h.resting e he hc)).symm, h.present e he⟩] at hl
  cases hl

theorem Wf.hasState_restoreCallback (h : rt.Wf out) (key : MockTimerKey) (callback : Callback) :
    (rt.restoreCallback key callback).2.HasState order state ↔ rt.HasState order state := by
  rw [h.restoreCallback_snd, h.hasState_adjust (g := id)
    (fun e => (putBack_fields callback e).2.1) fun e _ _ => (putBack_fields callback e).2.2.2.1]
  constructor
  · rintro ⟨s, hs, rfl⟩
    rwa [id, ite_self]
  · exact fun hs => ⟨state, hs, ite_self _⟩

theorem restoreCallback_now (rt : MockTimeRuntime) (key : MockTimerKey) (callback : Callback) :
    (rt.restoreCallback key callback).2.now = rt.now ∧
      (rt.restoreCallback key callback).2.epoch = rt.epoch := by
  rw [MockTimeRuntime.restoreCallback]
  split <;> exact ⟨rfl, rfl⟩

theorem registerTimer_cases (rt : MockTimeRuntime) {period : Duration}
    (hp : period ≠ Duration.zero) (mode : TimerMode) (callback : Callback) :
    rt.registerTimer period mode callback = .error .arithmeticOverflow ∧
        (u64Max ≤ rt.nextId ∨ u64Max ≤ rt.nextCreationOrder) ∨
      rt.nextId < u64Max ∧ rt.registerTimer period mode callback = .ok (⟨rt.epoch, rt.nextId⟩,
        { rt with
          nextId := rt.nextId + 1, nextCreationOrder := rt.nextCreationOrder + 1
          timers := rt.timers ++ [{ key := ⟨rt.epoch, rt.nextId⟩,
                                    state := ⟨mode, period, none, hp⟩, callback := some callback,
                                    creationOrder := rt.nextCreationOrder, deleted := false }] }) := by
  by_cases hid : rt.nextId < u64Max
  · by_cases hord : rt.nextCreationOrder < u64Max
    · refine .inr ⟨hid, ?_⟩
      simp only [registerTimer, succU64, if_pos hid, if_pos hord, TimerState.new_eq_ok hp]
      rfl
    · refine .inl ⟨?_, .inr (Nat.le_of_not_lt hord)⟩
      simp only [registerTimer, succU64, if_pos hid, if_neg hord]
      rfl
  · refine .inl ⟨?_, .inl (Nat.le_of_not_lt hid)⟩
    simp only [registerTimer, succU64, if_neg hid]
    rfl

theorem Wf.register (h : rt.Wf out) {e : MockTimerEntry}
    (hkey : e.key = ⟨rt.epoch, rt.nextId⟩) (ho : e.creationOrder = rt.nextCreationOrder)
    (hd : e.deleted = false) (hc : e.callback ≠ none) :
    Wf { rt with
      nextId := rt.nextId + 1, nextCreationOrder := rt.nextCreationOrder + 1
      timers := rt.timers ++ [e] } out where
  next := congrArg (· + 1) h.next
  distinct := by
    rw [List.map_append, List.map_singleton, List.nodup_append]
    refine ⟨h.distinct, List.nodup_singleton _, ?_⟩
    rintro a ha b hb rfl
    obtain ⟨e', he', rfl⟩ := List.mem_map.1 ha
    have hlt := h.bounded e' he'
    rw [List.mem_singleton.1 hb, ho] at hlt
    exact Nat.lt_irrefl _ hlt
  keyed := by
    intro e' he'
    rcases List.mem_append.1 he' with he' | he'
    · exact h.keyed e' he'
    · obtain rfl := List.mem_singleton.1 he'
      rw [hkey, ho, h.next]
  bounded := by
    intro e' he'
    rcases List.mem_append.1 he' with he' | he'
    · exact Nat.lt_succ_of_lt (h.bounded e' he')
    · obtain rfl := List.mem_singleton.1 he'
      exact ho ▸ Nat.lt_succ_self _
  present := by
    intro e' he'
    rcases List.mem_append.1 he' with he' | he'
    · exact h.present e' he'
    · obtain rfl := List.mem_singleton.1 he'
      exact hd
  resting := by
    intro e' he' hn
    rcases List.mem_append.1 he' with he' | he'
    · exact h.resting e' he' hn
    · obtain rfl := List.mem_singleton.1 he'
      exact (hc hn).elim

theorem swapRemove_perm {α : Type} {xs : List α} {i : Nat} {x : α} (h : xs[i]? = some x) :
    (x :: swapRemove xs i).Perm xs := by
  rcases List.eq_nil_or_concat' xs with rfl | ⟨ys, last, rfl⟩
  · cases h
  obtain ⟨hi, rfl⟩ := List.getElem?_eq_some_iff.1 h
  rw [swapRemove, List.getLast?_concat]
  have hlen : i < ys.length + 1 := by simpa using hi
  rcases Nat.lt_or_eq_of_le (Nat.le_of_lt_succ hlen) with hlt | rfl
  · dsimp only
    rw [List.set_append_left _ _ hlt, List.dropLast_concat, List.getElem_append_left hlt]
    -- both elements to the front, and their places exchanged
    refine ((List.set_perm_cons_eraseIdx hlt last).cons _).trans ?_
    refine (List.Perm.swap _ _ _).trans ?_
    refine ((List.getElem_cons_eraseIdx_perm hlt).cons _).trans ?_
    exact (List.perm_append_singleton last ys).symm
  · dsimp only
    rw [List.set_append_right _ _ (Nat.le_refl _)]
    simpa using (List.perm_append_singleton last ys).symm

/-- Removing a timer takes its entry out and permutes the others. -/
theorem Wf.removeTimer_cases (h : rt.Wf out) (key : MockTimerKey) :
    (rt.removeTimer key = (none, rt) ∧ ∀ e ∈ rt.timers, e.key ≠ key) ∨
      ∃ e timers, rt.removeTimer key = (some e, { rt with timers }) ∧
        (e :: timers).Perm rt.timers ∧ e.key = key := by
  rw [MockTimeRuntime.removeTimer]
  cases hfind : rt.timers.findIdx? (MockTimerEntry.live key) with
  | none =>
    refine .inl ⟨rfl, fun e he hk => ?_⟩
    have hdead := List.findIdx?_eq_none_iff.1 hfind e he
    rw [MockTimerEntry.live_iff.2 ⟨hk, h.present e he⟩] at hdead
    cases hdead
  | some i =>
    obtain ⟨hi, hlive, -⟩ := List.findIdx?_eq_some_iff_getElem.1 hfind
    refine .inr ⟨rt.timers[i], swapRemove rt.timers i, ?_, ?_, ?_⟩
    · simp only [List.getElem?_eq_getElem hi]
    · exact swapRemove_perm (List.getElem?_eq_getElem hi)
    · exact (MockTimerEntry.live_iff.1 hlive).1

theorem Wf.sublist (h : rt.Wf out) {e : MockTimerEntry} {timers : List MockTimerEntry}
    (hperm : (e :: timers).Perm rt.timers) : Wf { rt with timers } out := by
  have hmem : ∀ e' ∈ timers, e' ∈ rt.timers := fun e' he' =>
    hperm.subset (List.mem_cons_of_mem _ he')
  refine ⟨h.next, ?_, fun e' he' => h.keyed e' (hmem e' he'),
    fun e' he' => h.bounded e' (hmem e' he'), fun e' he' => h.present e' (hmem e' he'),
    fun e' he' => h.resting e' (hmem e' he')⟩
  have hnodup : ((e :: timers).map (·.creationOrder)).Nodup :=
    (hperm.map (·.creationOrder)).nodup_iff.2 h.distinct
  exact (List.nodup_cons.1 hnodup).2

theorem Wf.removeTimer (h : rt.Wf out) (key : MockTimerKey) : (rt.removeTimer key).2.Wf out := by
  rcases h.removeTimer_cases key with ⟨hr, -⟩ | ⟨e, timers, hr, hperm, -⟩
  · rw [hr]
    exact h
  · rw [hr]
    exact h.sublist hperm

theorem Wf.hasState_removeTimer (h : rt.Wf out) (key : MockTimerKey) :
    (rt.removeTimer key).2.HasState order state ↔
      key ≠ ⟨rt.epoch, order + 1⟩ ∧ rt.HasState order state := by
  rcases h.removeTimer_cases key with ⟨hr, hnone⟩ | ⟨e, timers, hr, hperm, hkey⟩
  · rw [hr]
    refine ⟨fun hs => ⟨?_, hs⟩, fun hs => hs.2⟩
    rintro rfl
    obtain ⟨e, he, rfl, -⟩ := hs
    exact hnone e he (h.keyed e he)
  · rw [hr]
    have he : e ∈ rt.timers := hperm.subset List.mem_cons_self
    have hnodup : ((e :: timers).map (·.creationOrder)).Nodup :=
      (hperm.map (·.creationOrder)).nodup_iff.2 h.distinct
    constructor
    · rintro ⟨e', he', rfl, hs⟩
      refine ⟨fun hk => ?_, e', hperm.subset (List.mem_cons_of_mem _ he'), rfl, hs⟩
      have hmem : e' ∈ rt.timers := hperm.subset (List.mem_cons_of_mem _ he')
      obtain rfl := h.eq_of_key hmem he ((h.keyed e' hmem).trans (hk.symm.trans hkey.symm))
      exact (List.nodup_cons.1 hnodup).1 (List.mem_map.2 ⟨e', he', rfl⟩)
    · rintro ⟨hk, e', he', rfl, hs⟩
      rcases List.mem_cons.1 (hperm.symm.subset he') with rfl | hrest
      · exact (hk (hkey.symm.trans (h.keyed e' he))).elim
      · exact ⟨e', hrest, rfl, hs⟩

theorem Wf.resetAndDetach (rt : MockTimeRuntime) (out : Option MockTimerKey) :
    rt.resetAndDetach.2.Wf out where
  next := rfl
  distinct := List.nodup_nil
  keyed e he := by cases he
  bounded e he := by cases he
  present e he := by cases he
  resting e he := by cases he

/-! ## Selection -/

def takenOut (now : Duration) (e : MockTimerEntry) : MockTimerEntry :=
  { e with state := (e.state.advanceOnExpiry now).2, callback := none }

theorem mem_candidates {c : Registry.Candidate} :
    c ∈ rt.timers.zipIdx.filterMap (fun p => candidate rt.now p.1 p.2) ↔
      ∃ e cb, rt.timers[c.idx]? = some e ∧ e.deleted = false ∧ e.callback = some cb ∧
        e.state.deadline = some c.deadline ∧ c.deadline ≤ rt.now ∧ e.creationOrder = c.id := by
  constructor
  · intro h
    obtain ⟨⟨e, idx⟩, hmem, hc⟩ := List.mem_filterMap.1 h
    have hget : rt.timers[idx]? = some e := List.mem_zipIdx_iff_getElem?.1 hmem
    simp only [candidate] at hc
    split at hc
    · cases hc
    · rename_i hlive
      obtain ⟨hd, hn⟩ := Bool.or_eq_false_iff.1 (Bool.eq_false_of_not_eq_true hlive)
      obtain ⟨cb, hcb⟩ := Option.isSome_iff_exists.1 (Option.isNone_eq_false_iff.1 hn)
      split at hc
      · rename_i d hdl
        split at hc
        · rename_i hle
          obtain rfl := Option.some.inj hc
          exact ⟨e, cb, hget, hd, hcb, hdl, hle, rfl⟩
        · cases hc
      · cases hc
  · rintro ⟨e, cb, hget, hd, hcb, hdl, hle, hid⟩
    refine List.mem_filterMap.2 ⟨⟨e, c.idx⟩, List.mem_zipIdx_iff_getElem?.2 hget, ?_⟩
    simp [candidate, hd, hcb, hdl, hle, hid]

theorem Wf.set_eq_adjust (h : rt.Wf out) {e : MockTimerEntry} {idx : Nat}
    (hget : rt.timers[idx]? = some e) (f : MockTimerEntry → MockTimerEntry) :
    rt.timers.set idx (f e) = (rt.adjust e.key f).timers := by
  obtain ⟨hlt, rfl⟩ := List.getElem?_eq_some_iff.1 hget
  apply List.ext_getElem
  · simp [MockTimeRuntime.adjust]
  intro n hn hn'
  have hn₀ : n < rt.timers.length := by simpa using hn
  simp only [MockTimeRuntime.adjust, List.getElem_map, List.getElem_set]
  by_cases hni : idx = n
  · subst hni
    have hl : (rt.timers[idx]).live (rt.timers[idx]).key = true :=
      MockTimerEntry.live_iff.2 ⟨rfl, h.present _ (List.getElem_mem hlt)⟩
    rw [if_pos rfl, if_pos hl]
  · rw [if_neg hni, if_neg]
    intro hl
    have heq := h.eq_of_key (List.getElem_mem hn₀) (List.getElem_mem hlt)
      (MockTimerEntry.live_iff.1 hl).1
    have hnd := List.nodup_iff_injective_getElem.1 h.distinct
    have hfin := @hnd ⟨n, by simpa using hn₀⟩ ⟨idx, by simpa using hlt⟩
      (by simpa using congrArg (·.creationOrder) heq)
    exact hni (by simpa using hfin.symm)

private theorem Wf.exists_candidate (h : rt.Wf none) {d : Duration}
    (hs : rt.HasState order state) (hdl : state.deadline = some d) (hle : d ≤ rt.now) :
    ∃ idx, (⟨idx, d, order⟩ : Registry.Candidate) ∈
      rt.timers.zipIdx.filterMap fun p => candidate rt.now p.1 p.2 := by
  obtain ⟨e, he, ho, rfl⟩ := hs
  obtain ⟨idx, hget⟩ := List.mem_iff_getElem?.1 he
  have hsome : e.callback ≠ none := fun hn => by
    have hout := h.resting e he hn
    cases hout
  obtain ⟨cb, hcb⟩ := Option.ne_none_iff_exists'.1 hsome
  exact ⟨idx, mem_candidates.2 ⟨e, cb, hget, h.present e he, hcb, hdl, hle, ho⟩⟩

theorem advanceOnExpiry_fst {s : TimerState} {d now : Duration}
    (hd : s.deadline = some d) (hle : d ≤ now) : (s.advanceOnExpiry now).1 = true := by
  simp only [TimerState.advanceOnExpiry, hd, hle, if_true]
  split
  · rfl
  · split <;> rfl

/-- With no callback out, either nothing has expired, or the expired timer with the least
deadline, and the earliest created of these, is advanced and its callback taken out. -/
theorem Wf.takeNextExpired_cases (h : rt.Wf none) :
    (rt.takeNextExpired = .ok (none, rt) ∧
      ∀ o s d, rt.HasState o s → s.deadline = some d → rt.now < d) ∨
    ∃ e ∈ rt.timers, ∃ cb d, e.callback = some cb ∧ e.state.deadline = some d ∧ d ≤ rt.now ∧
      rt.takeNextExpired = .ok (some (e.key, cb), rt.adjust e.key (takenOut rt.now)) ∧
      ∀ o s d', rt.HasState o s → s.deadline = some d' → ¬ KeyLt d' o d e.creationOrder := by
  rw [takeNextExpired]
  cases hbest : best (rt.timers.zipIdx.filterMap fun p => candidate rt.now p.1 p.2) with
  | none =>
    refine .inl ⟨rfl, fun o s d hs hd => ?_⟩
    by_contra hlt
    obtain ⟨idx, hmem⟩ := h.exists_candidate hs hd (Nat.le_of_not_lt hlt)
    cases hcs : rt.timers.zipIdx.filterMap fun p => candidate rt.now p.1 p.2 with
    | nil =>
      rw [hcs] at hmem
      cases hmem
    | cons c cs =>
      rw [hcs] at hbest
      cases hbest
  | some c =>
    obtain ⟨e, cb, hget, hd, hcb, hdl, hle, hid⟩ := mem_candidates.1 (best_mem hbest)
    refine .inr ⟨e, List.mem_of_getElem? hget, cb, c.deadline, hcb, hdl, hle, ?_, ?_⟩
    · simp only [hget, advanceOnExpiry_fst hdl hle, hcb, if_true]
      have hset := h.set_eq_adjust hget (takenOut rt.now)
      exact congrArg (fun timers => Except.ok (some (e.key, cb), { rt with timers })) hset
    · intro o s d' hs hd' hlt
      rw [hid] at hlt
      have hle' : d' ≤ rt.now := by
        change d'.nanos ≤ rt.now.nanos
        have : c.deadline.nanos ≤ rt.now.nanos := hle
        unfold KeyLt at hlt
        omega
      obtain ⟨idx, hmem⟩ := h.exists_candidate hs hd' hle'
      exact best_minimal hbest hmem hlt

theorem Wf.takenOut (h : rt.Wf none) (e : MockTimerEntry) :
    (rt.adjust e.key (takenOut rt.now)).Wf (some e.key) := by
  refine h.adjust (fun _ => rfl) (fun _ => rfl) (fun _ => rfl) (fun e' he' hc _ => ?_)
    fun e' _ hl _ => congrArg some (MockTimerEntry.live_iff.1 hl).1.symm
  have hout := h.resting e' he' hc
  cases hout

theorem Wf.hasState_takenOut (h : rt.Wf none) {e : MockTimerEntry} (he : e ∈ rt.timers) :
    (rt.adjust e.key (MockTimeRuntime.takenOut rt.now)).HasState order state ↔
      ∃ s, rt.HasState order s ∧
        (if order = e.creationOrder then (s.advanceOnExpiry rt.now).2 else s) = state := by
  have hkey : e.key = ⟨rt.epoch, order + 1⟩ ↔ order = e.creationOrder := by
    rw [h.keyed e he, MockTimerKey.mk.injEq]
    omega
  have hadjust : (rt.adjust e.key (MockTimeRuntime.takenOut rt.now)).HasState order state ↔
      ∃ s, rt.HasState order s ∧
        (if e.key = ⟨rt.epoch, order + 1⟩ then (s.advanceOnExpiry rt.now).2 else s) = state :=
    h.hasState_adjust (fun _ => rfl) fun _ _ _ => rfl
  simpa only [hkey] using hadjust

/-! ## Expired timers -/

def DueAt (rt : MockTimeRuntime) (order : Nat) (d : Duration) : Prop :=
  ∃ s, rt.HasState order s ∧ s.deadline = some d ∧ d ≤ rt.now

/-- The invariant holds afterwards, and nothing has expired that had not expired before. -/
structure Calms (rt rt' : MockTimeRuntime) (out : Option MockTimerKey) : Prop where
  wf : rt'.Wf out
  due : ∀ order d, rt'.DueAt order d → rt.DueAt order d

theorem Wf.calms (h : rt.Wf out) : rt.Calms rt out := ⟨h, fun _ _ hd => hd⟩

theorem Calms.trans {rt₁ rt₂ rt₃ : MockTimeRuntime} (h : rt₁.Calms rt₂ out)
    (h' : rt₂.Calms rt₃ out) : rt₁.Calms rt₃ out :=
  ⟨h'.wf, fun order d hd => h.due order d (h'.due order d hd)⟩

theorem Wf.calms_onLive (h : rt.Wf out) (key : MockTimerKey) {f : TimerState → TimerState}
    (hf : ∀ s d, (f s).deadline = some d → d ≤ rt.now → s.deadline = some d) :
    rt.Calms (rt.onLive key f) out := by
  refine ⟨h.onLive key f, ?_⟩
  rintro order d ⟨s', hs', hd, hle⟩
  rw [(onLive_now rt key f).1] at hle
  obtain ⟨s, hs, rfl⟩ := (h.hasState_onLive key f).1 hs'
  refine ⟨s, hs, ?_, hle⟩
  split at hd
  · exact hf s d hd hle
  · exact hd

theorem Wf.calms_startTimer (h : rt.Wf out) (key : MockTimerKey) :
    rt.Calms (rt.startTimer key) out := by
  refine h.calms_onLive key fun s d hd hle => ?_
  rcases s.start_cases rt.now with hs | ⟨d', hlt, hs⟩
  · rwa [hs] at hd
  · rw [hs] at hd
    obtain rfl := Option.some.inj hd
    exact absurd hle (Nat.not_le.2 hlt)

theorem Wf.calms_stopTimer (h : rt.Wf out) (key : MockTimerKey) :
    rt.Calms (rt.stopTimer key) out :=
  h.calms_onLive key fun _ _ hd => by cases hd

theorem Wf.calms_changePeriod (h : rt.Wf out) (key : MockTimerKey) (newPeriod : Duration) :
    rt.Calms (rt.changePeriod key newPeriod) out :=
  h.calms_onLive key fun s _ hd _ => by rwa [s.changePeriod_deadline] at hd

theorem Wf.calms_removeTimer (h : rt.Wf out) (key : MockTimerKey) :
    rt.Calms (rt.removeTimer key).2 out := by
  refine ⟨h.removeTimer key, ?_⟩
  rintro order d ⟨s, hs, hd, hle⟩
  refine ⟨s, ((h.hasState_removeTimer key).1 hs).2, hd, ?_⟩
  rcases h.removeTimer_cases key with ⟨hr, -⟩ | ⟨e, timers, hr, -⟩
  · rwa [hr] at hle
  · rwa [hr] at hle

theorem calms_resetAndDetach (rt : MockTimeRuntime) (out : Option MockTimerKey) :
    rt.Calms rt.resetAndDetach.2 out :=
  ⟨Wf.resetAndDetach rt out, fun _ _ ⟨_, ⟨_, he, _⟩, _⟩ => by cases he⟩

theorem Wf.calms_registerTimer (h : rt.Wf out) {period : Duration} (hp : period ≠ Duration.zero)
    {mode : TimerMode} {callback : Callback}
    (hr : rt.registerTimer period mode callback = .ok (key, rt')) : rt.Calms rt' out := by
  rcases rt.registerTimer_cases hp mode callback with ⟨he, -⟩ | ⟨-, hok⟩
  · rw [he] at hr
    cases hr
  · rw [hok] at hr
    obtain ⟨-, rfl⟩ := Prod.mk.inj (Except.ok.inj hr)
    refine ⟨h.register rfl rfl rfl nofun, ?_⟩
    rintro order d ⟨s, ⟨e, he, ho, rfl⟩, hd, hle⟩
    rcases List.mem_append.1 he with he | he
    · exact ⟨e.state, ⟨e, he, ho, rfl⟩, hd, hle⟩
    · obtain rfl := List.mem_singleton.1 he
      cases hd

def dueOrders (rt : MockTimeRuntime) : Finset Nat :=
  ((rt.timers.filter fun e =>
    match e.state.deadline with
    | some d => decide (d ≤ rt.now)
    | none => false).map (·.creationOrder)).toFinset

theorem mem_dueOrders : order ∈ rt.dueOrders ↔ ∃ d, rt.DueAt order d := by
  simp only [dueOrders, List.mem_toFinset, List.mem_map, List.mem_filter]
  constructor
  · rintro ⟨e, ⟨he, hdue⟩, ho⟩
    cases hd : e.state.deadline with
    | none => simp [hd] at hdue
    | some d =>
      rw [hd] at hdue
      exact ⟨d, e.state, ⟨e, he, ho, rfl⟩, hd, of_decide_eq_true hdue⟩
  · rintro ⟨d, s, ⟨e, he, ho, rfl⟩, hd, hle⟩
    exact ⟨e, ⟨he, by rw [hd]; exact decide_eq_true hle⟩, ho⟩

theorem dueOrders_card_le (rt : MockTimeRuntime) : rt.dueOrders.card ≤ rt.timers.length := by
  refine (List.toFinset_card_le _).trans ?_
  rw [List.length_map]
  exact List.length_filter_le _ _

end MockTimeRuntime

end OsalRust.Mock
