import OsalRust.Timer.RegistryInvariant

/-!
# Counting in the registry

How many timers are alive, how many of one identifier, and how much the callbacks in the
registry weigh. All three are sums over the entries, and the operations change them by what they
do to one entry.
-/

namespace OsalRust.Timer.Registry

open OsalRust

def weigh (v : TimerEntry → Nat) (r : Registry) : Nat := (r.timers.map v).sum

variable {r r' : Registry} {id z : Nat} {callback : Callback} {now : Duration}
  {v : TimerEntry → Nat} {f : TimerEntry → TimerEntry} {φ : Nat → Callback → Nat}

private theorem sum_adjust {xs : List TimerEntry}
    (h : xs.Pairwise fun x y => ¬ (x.live id = true ∧ y.live id = true)) :
    ((xs.map fun e => if e.live id then f e else e).map v).sum +
        (xs.find? (TimerEntry.live id)).elim 0 v =
      (xs.map v).sum + (xs.find? (TimerEntry.live id)).elim 0 (fun e => v (f e)) := by
  induction xs with
  | nil => rfl
  | cons x xs ih =>
    obtain ⟨hx, hxs⟩ := List.pairwise_cons.mp h
    by_cases hl : x.live id = true
    · have hrest : (xs.map fun e => if e.live id then f e else e) = xs := by
        conv_rhs => rw [← List.map_id xs]
        apply List.map_congr_left
        intro y hy
        have hy' : ¬ y.live id = true := fun hy' => hx y hy ⟨hl, hy'⟩
        simp [hy']
      simp only [List.map_cons, hrest, hl, if_true, List.sum_cons, List.find?_cons_of_pos,
        Option.elim_some]
      omega
    · have ih := ih hxs
      simp only [List.map_cons, if_neg hl, List.sum_cons, List.find?_cons_of_neg hl]
      omega

theorem weigh_adjust (id : Nat) (h : r.Distinct) :
    (r.adjust id f).weigh v + (r.timers.find? (TimerEntry.live id)).elim 0 v =
      r.weigh v + (r.timers.find? (TimerEntry.live id)).elim 0 (fun e => v (f e)) :=
  sum_adjust (h.pairwise id)

theorem weigh_adjust_of_eq (h : r.Distinct)
    (hv : ∀ e ∈ r.timers, e.live id = true → v (f e) = v e) :
    (r.adjust id f).weigh v = r.weigh v := by
  have hsum := weigh_adjust (f := f) (v := v) id h
  cases hfind : r.timers.find? (TimerEntry.live id) with
  | none => simpa [hfind] using hsum
  | some e =>
    have he := hv e (List.mem_of_find?_eq_some hfind) (List.find?_some hfind)
    simp only [hfind, Option.elim_some, he] at hsum
    omega

theorem weigh_retain (hv : ∀ e ∈ r.timers, e.deleted = true → v e = 0) :
    r.retain.2.weigh v = r.weigh v := by
  rw [weigh, weigh, retain]
  generalize r.timers = xs at hv
  induction xs with
  | nil => rfl
  | cons x xs ih =>
    have ih := ih fun e he => hv e (List.mem_cons_of_mem _ he)
    by_cases hd : x.deleted = true
    · simp only [List.filter_cons, hd, Bool.not_true, Bool.false_eq_true, if_false, List.map_cons,
        List.sum_cons, hv x List.mem_cons_self hd, ih, Nat.zero_add]
    · simp only [List.filter_cons, hd, Bool.not_false, if_true, List.map_cons, List.sum_cons, ih]

theorem find_of_mem (h : r.Distinct) {e : TimerEntry} (he : e ∈ r.timers)
    (hd : e.deleted = false) : r.timers.find? (TimerEntry.live e.id) = some e := by
  have hl : e.live e.id = true := TimerEntry.live_iff.mpr ⟨rfl, hd⟩
  cases hfind : r.timers.find? (TimerEntry.live e.id) with
  | none => exact absurd hl (by simpa using List.find?_eq_none.mp hfind e he)
  | some e' =>
    have hid := (TimerEntry.live_iff.mp (List.find?_some hfind)).1
    rw [h.eq_of_id (List.mem_of_find?_eq_some hfind) he hid]

/-! ## The three counts -/

def alive (r : Registry) : Nat := r.weigh fun e => if e.deleted then 0 else 1

def aliveOf (r : Registry) (id : Nat) : Nat := r.weigh fun e => if e.live id then 1 else 0

def stock (φ : Nat → Callback → Nat) (r : Registry) : Nat :=
  r.weigh fun e => e.callback.elim 0 (φ e.id)

theorem aliveOf_pos : 0 < r.aliveOf id ↔ ∃ state, r.HasState id state := by
  simp only [aliveOf, weigh, List.sum_pos_iff_exists_pos_nat, List.mem_map]
  constructor
  · rintro ⟨n, ⟨e, he, rfl⟩, hpos⟩
    by_cases hl : e.live id = true
    · exact ⟨e.state, e, he, hl, rfl⟩
    · simp [hl] at hpos
  · rintro ⟨state, e, he, hl, -⟩
    exact ⟨1, ⟨e, he, by simp [hl]⟩, Nat.one_pos⟩

theorem aliveOf_eq_countP (r : Registry) (id : Nat) :
    r.aliveOf id = r.timers.countP (TimerEntry.live id) := by
  rw [aliveOf, weigh]
  induction r.timers with
  | nil => rfl
  | cons e es ih =>
    rw [List.map_cons, List.sum_cons, List.countP_cons, ih]
    exact Nat.add_comm _ _

theorem succeeds_deregister {now : Duration} {reserved : Bool} (hpos : 0 < r.aliveOf id) :
    r.succeeds now reserved (.deregister id) = true := by
  obtain ⟨state, e, he, hl, -⟩ := aliveOf_pos.mp hpos
  rw [succeeds, deregister_fst]
  cases hfind : r.timers.find? (TimerEntry.live id) with
  | none =>
    rw [List.find?_eq_none] at hfind
    exact absurd hl (hfind e he)
  | some e' => rfl

theorem aliveOf_le_alive : r.aliveOf id ≤ r.alive := by
  apply List.sum_le_sum
  intro e he
  cases hd : e.deleted <;> simp [TimerEntry.live, hd]
  split <;> simp

private theorem aliveOf_eq {e : TimerEntry} (h : r.Distinct) (he : e ∈ r.timers)
    (hd : e.deleted = false) : r.aliveOf e.id = 1 := by
  have hsum := weigh_adjust (v := fun e' => if e'.live e.id then 1 else 0)
    (f := fun e' => { e' with deleted := true }) e.id h
  have hfind := find_of_mem h he hd
  have hl : e.live e.id = true := TimerEntry.live_iff.mpr ⟨rfl, hd⟩
  have hzero : (r.adjust e.id fun e' => { e' with deleted := true }).weigh
      (fun e' => if e'.live e.id then 1 else 0) = 0 := by
    rw [weigh, List.sum_eq_zero_iff]
    intro n hn
    obtain ⟨e', he', rfl⟩ := List.mem_map.mp hn
    obtain ⟨e₀, -, rfl⟩ := List.mem_map.mp he'
    by_cases hl₀ : e₀.live e.id = true
    · simp only [if_pos hl₀]
      simp [TimerEntry.live]
    · simp [hl₀]
  rw [hzero, hfind] at hsum
  simp only [Option.elim_some, hl, if_true] at hsum
  have hdel : TimerEntry.live e.id { e with deleted := true } = false := by simp [TimerEntry.live]
  rw [hdel] at hsum
  simpa [aliveOf] using hsum.symm

theorem aliveOf_le_one (h : r.Distinct) : r.aliveOf id ≤ 1 := by
  by_cases hpos : 0 < r.aliveOf id
  · obtain ⟨state, e, he, hl, -⟩ := aliveOf_pos.mp hpos
    obtain ⟨rfl, hd⟩ := TimerEntry.live_iff.mp hl
    rw [aliveOf_eq h he hd]
  · omega

theorem counts_adjust (id : Nat) (h : r.Distinct) (hid : ∀ e, (f e).id = e.id)
    (hd : ∀ e, e.live id = true → (f e).deleted = e.deleted) :
    (r.adjust id f).alive = r.alive ∧ ∀ z, (r.adjust id f).aliveOf z = r.aliveOf z := by
  refine ⟨weigh_adjust_of_eq h fun e _ hl => by rw [hd e hl], fun z => ?_⟩
  refine weigh_adjust_of_eq h fun e _ hl => ?_
  have hlive : (f e).live z = e.live z := by simp only [TimerEntry.live, hid, hd e hl]
  rw [hlive]

theorem stock_adjust (h : r.Distinct) (hid : ∀ e, (f e).id = e.id)
    (hc : ∀ e, e.live id = true → (f e).callback = e.callback) :
    (r.adjust id f).stock φ = r.stock φ :=
  weigh_adjust_of_eq h fun e _ hl => by rw [hc e hl, hid]

section Serve

variable {q : Request} {reserved : Bool}

theorem serve_counts (now : Duration) (reserved : Bool) (h : r.Distinct) (hq : q.target = some id) (hne : q ≠ .deregister id) :
    (r.serve now reserved q).2.alive = r.alive ∧
      (∀ z, (r.serve now reserved q).2.aliveOf z = r.aliveOf z) ∧
      (r.serve now reserved q).2.stock φ = r.stock φ := by
  have hkeep : ∀ e, (q.apply now e).deleted = e.deleted ∧ (q.apply now e).callback = e.callback := by
    intro e
    cases q with
    | deregister i =>
      obtain rfl := Option.some.inj hq
      exact absurd rfl hne
    | register | start | stop | reset | changePeriod => exact ⟨rfl, rfl⟩
  rw [serve_snd now reserved h hq]
  obtain ⟨halive, haliveOf⟩ := counts_adjust id h (q.apply_id now) fun e _ => (hkeep e).1
  exact ⟨halive, haliveOf, stock_adjust h (q.apply_id now) fun e _ => (hkeep e).2⟩

theorem serve_deregister_counts (now : Duration) (reserved : Bool) (h : r.Distinct) (hpos : 0 < r.aliveOf id) :
    (r.serve now reserved (.deregister id)).2.alive + 1 = r.alive ∧
      (∀ z, (r.serve now reserved (.deregister id)).2.aliveOf z + (if z = id then 1 else 0) =
        r.aliveOf z) ∧
      (r.serve now reserved (.deregister id)).2.stock φ + (r.callbackOf id).elim 0 (φ id) =
        r.stock φ := by
  obtain ⟨state, e, he, hl, -⟩ := aliveOf_pos.mp hpos
  obtain ⟨rfl, hd⟩ := TimerEntry.live_iff.mp hl
  have hfind := find_of_mem h he hd
  rw [serve_snd now reserved h rfl]
  refine ⟨?_, fun z => ?_, ?_⟩
  · have hsum := weigh_adjust (f := (Request.deregister e.id).apply now)
      (v := fun e => if e.deleted then 0 else 1) e.id h
    rw [hfind] at hsum
    simpa [Request.apply, hd, alive] using hsum
  · have hsum := weigh_adjust (f := (Request.deregister e.id).apply now)
      (v := fun e' => if e'.live z then 1 else 0) e.id h
    rw [hfind] at hsum
    by_cases hz : z = e.id
    · subst hz
      simpa [Request.apply, hd, hl, aliveOf, TimerEntry.live] using hsum
    · simpa [Request.apply, hd, aliveOf, TimerEntry.live, hz, Ne.symm hz] using hsum
  · have hsum := weigh_adjust (f := (Request.deregister e.id).apply now)
      (v := fun e => e.callback.elim 0 (φ e.id)) e.id h
    rw [hfind] at hsum
    simpa [Request.apply, stock, callbackOf, hfind] using hsum

theorem serve_registered_counts {period : Duration} {mode : TimerMode} {new : Nat}
    (hnew : (r.serve now reserved (.register period mode callback)).1 = .registered new) :
    new = r.nextId ∧
      (r.serve now reserved (.register period mode callback)).2.alive = r.alive + 1 ∧
      (∀ z, (r.serve now reserved (.register period mode callback)).2.aliveOf z =
        r.aliveOf z + (if z = new then 1 else 0)) ∧
      (r.serve now reserved (.register period mode callback)).2.stock φ =
        r.stock φ + φ new callback := by
  rcases r.register_snd period mode callback reserved with ⟨-, e, hr⟩ | ⟨state, -, hr, he⟩
  · simp [serve, hr] at hnew
  · obtain rfl : r.nextId = new := by simpa [serve, hr] using hnew
    simp only [serve, he, alive, aliveOf, stock, weigh, List.map_append, List.sum_append]
    refine ⟨trivial, by simp, fun z => ?_, by simp⟩
    by_cases hz : z = r.nextId
    · simp [TimerEntry.live, hz]
    · simp [TimerEntry.live, hz, Ne.symm hz]

theorem serve_registered_nextId {period : Duration} {mode : TimerMode} {new : Nat}
    (hnew : (r.serve now reserved (.register period mode callback)).1 = .registered new) :
    (r.serve now reserved (.register period mode callback)).2.nextId = r.nextId + 1 := by
  rcases r.register_snd period mode callback reserved with ⟨-, e, hr⟩ | ⟨state, -, hr, he⟩
  · simp [serve, hr] at hnew
  · rw [serve, he]

theorem serve_refused {period : Duration} {mode : TimerMode}
    (hnew : ∀ new, (r.serve now reserved (.register period mode callback)).1 ≠ .registered new) :
    (r.serve now reserved (.register period mode callback)).2 = r := by
  rcases r.register_snd period mode callback reserved with ⟨he, -⟩ | ⟨state, -, hr, he⟩
  · exact he
  · exact absurd (by simp [serve, hr]) (hnew r.nextId)

theorem serve_counts_of_idle (h : r.Distinct) (hq : ∀ id, q ≠ .deregister id)
    (hnew : ∀ new, (r.serve now reserved q).1 ≠ .registered new) :
    (r.serve now reserved q).2.alive = r.alive ∧
      (∀ z, (r.serve now reserved q).2.aliveOf z = r.aliveOf z) ∧
      (∀ φ, (r.serve now reserved q).2.stock φ = r.stock φ) ∧
      (r.serve now reserved q).2.nextId = r.nextId := by
  cases ht : q.target with
  | none =>
    rcases serve_register_snd (r := r) now reserved ht with ⟨he, -⟩ | ⟨_, _, -, hr, -⟩
    · rw [he]
      exact ⟨rfl, fun _ => rfl, fun _ => rfl, rfl⟩
    · exact absurd hr (hnew _)
  | some id =>
    have hall := fun φ => serve_counts (φ := φ) now reserved h ht (hq id)
    refine ⟨(hall fun _ _ => 0).1, (hall fun _ _ => 0).2.1, fun φ => (hall φ).2.2, ?_⟩
    rw [serve_snd now reserved h ht]
    rfl

@[simp] theorem serve_stopRequested :
    (r.serve now reserved q).2.stopRequested = r.stopRequested := by
  have honLive : ∀ {β : Type} {id : Nat} {f : TimerEntry → Result β × TimerEntry},
      (r.onLive id f).2.stopRequested = r.stopRequested := by
    intro β id f
    rw [onLive]
    split <;> rfl
  cases q with
  | register period mode callback =>
    change (r.register period mode callback reserved).2.stopRequested = r.stopRequested
    rcases r.register_snd period mode callback reserved with ⟨he, -⟩ | ⟨state, -, hr, he⟩
    · rw [he]
    · rw [he]
  | start | stop | reset | changePeriod | deregister => exact honLive

theorem serve_nil (h : r.Distinct) (hnil : r.timers = [])
    (hnew : ∀ id, (r.serve now reserved q).1 ≠ .registered id) :
    (r.serve now reserved q).2.timers = [] := by
  cases ht : q.target with
  | none =>
    rcases serve_register_snd (r := r) now reserved ht with ⟨he, -⟩ | ⟨_, _, -, hr, -⟩
    · rw [he, hnil]
    · exact absurd hr (hnew _)
  | some id =>
    rw [serve_snd now reserved h ht, adjust, hnil]
    rfl

end Serve

theorem retain_counts (h : r.Clean) :
    r.retain.2.alive = r.alive ∧ (∀ z, r.retain.2.aliveOf z = r.aliveOf z) ∧
      r.retain.2.stock φ = r.stock φ := by
  refine ⟨weigh_retain fun e _ hd => by simp [hd], fun z => ?_, weigh_retain fun e he hd => ?_⟩
  · exact weigh_retain fun e _ hd => by simp [TimerEntry.live, hd]
  · simp [h e he hd]

theorem takenOut_counts {e : TimerEntry} (now : Duration) (h : r.Distinct) (he : e ∈ r.timers)
    (hd : e.deleted = false) (hcb : e.callback = some callback) :
    (r.adjust e.id (takenOut now)).alive = r.alive ∧
      (∀ z, (r.adjust e.id (takenOut now)).aliveOf z = r.aliveOf z) ∧
      (r.adjust e.id (takenOut now)).stock φ + φ e.id callback = r.stock φ := by
  obtain ⟨halive, haliveOf⟩ := counts_adjust (f := takenOut now) e.id h (fun _ => rfl)
    fun _ _ => rfl
  refine ⟨halive, haliveOf, ?_⟩
  have hsum := weigh_adjust (f := takenOut now)
    (v := fun e => e.callback.elim 0 (φ e.id)) e.id h
  rw [find_of_mem h he hd] at hsum
  simpa [takenOut, stock, hcb] using hsum

theorem restore_counts (callback : Callback) (h : r.Wf (some id)) :
    (r.restore id callback).2.alive = r.alive ∧
      (∀ z, (r.restore id callback).2.aliveOf z = r.aliveOf z) ∧
      (r.restore id callback).2.stock φ + (r.restore id callback).1.elim 0 (φ id) =
        r.stock φ + φ id callback := by
  have hput : ∀ e, (putBack callback e).id = e.id ∧ (putBack callback e).deleted = e.deleted := by
    intro e
    rw [putBack]
    split <;> exact ⟨rfl, rfl⟩
  rw [restore_snd h.distinct]
  obtain ⟨halive, haliveOf⟩ := counts_adjust id h.distinct (fun e => (hput e).1)
    fun e _ => (hput e).2
  refine ⟨halive, haliveOf, ?_⟩
  have hsum := weigh_adjust (f := putBack callback)
    (v := fun e => e.callback.elim 0 (φ e.id)) id h.distinct
  rw [h.restore_fst]
  cases hfind : r.timers.find? (TimerEntry.live id) with
  | none => simpa [hfind, stock] using hsum
  | some e =>
    obtain ⟨hid, hd⟩ := TimerEntry.live_iff.mp (List.find?_some hfind)
    have hnone : e.callback = none :=
      (h.resting e (List.mem_of_find?_eq_some hfind) hd).mpr (by rw [hid])
    simpa [hfind, putBack, hnone, stock, hid] using hsum

theorem counts_nil (h : r.timers = []) :
    r.alive = 0 ∧ (∀ z, r.aliveOf z = 0) ∧ r.stock φ = 0 := by
  simp [alive, aliveOf, stock, weigh, h]

end OsalRust.Timer.Registry
