import OsalRust.Timer.BackendInvariant

/-!
# Exchanges keep the invariant

One lemma for each exchange of a timer backend, and from them: every reachable state has the
invariant.
-/

namespace OsalRust.Timer

open OsalRust OsalRust.Framework OsalRust.Runtime

/-! ## Exchanges of one service -/

section Services

variable {w w' : World} {c R : Multiset Token} {g id : Nat} {callback : Callback} {r : Registry}

theorem Inv.registry (h : Inv w (c + R)) (hg : g < w.created) (now : Duration)
    (hwf : r.Wf (w.services g).hand.out)
    (hstop : r.stopRequested = (w.services g).registry.stopRequested)
    (hnil : (w.services g).registry.timers = [] → r.timers = [])
    (halive : r.alive = (w.services g).registry.alive)
    (haliveOf : ∀ id, r.aliveOf id = (w.services g).registry.aliveOf id)
    (hstock : ∀ φ, r.stock φ = (w.services g).registry.stock φ) :
    Inv { w.adjust g fun s => { s with registry := r } with now } (c + R) := by
  have hl : w.Like { w.adjust g fun s => { s with registry := r } with now } :=
    .adjust rfl rfl rfl rfl hg ⟨hstop, rfl, id⟩ fun _ => hnil
  have hservices : ({ w.adjust g fun s => { s with registry := r } with now } : World).services =
      Function.update w.services g { w.services g with registry := r } := rfl
  obtain ⟨hw, hw'⟩ := World.counts_of_update hl.slot hservices halive haliveOf
  have hsound := h.sound g
  refine ⟨h.staged.like hl rfl ?_ ?_, ?_, ?_, h.leased.like hl rfl rfl hw rfl ?_, ?_⟩
  · intro phase hmem
    exact (h.staged.fits phase (Multiset.mem_add.mpr (.inl hmem))).like hl
  · intro x hx i hk
    exact h.staged.known x (Multiset.mem_add.mpr (.inl hx)) i hk
  · intro i
    by_cases hi : i = g
    · subst hi
      change Service.Sound (Function.update w.services i _ i) _ _ _
      rw [Function.update_self]
      refine ⟨hwf, hsound.life, hsound.resting, hsound.counted, fun hs => ?_⟩
      exact hnil (hsound.emptied (hstop ▸ hs))
    · change Service.Sound (Function.update w.services g _ i) _ _ _
      rw [Function.update_of_ne hi]
      exact h.sound i
  · intro i a hmem
    have ha := h.activity i a hmem
    change a.Fits (Function.update w.services g _ i)
    by_cases hi : i = g
    · subst hi
      rw [Function.update_self]
      exact ha.mono rfl fun hs => hstop.trans hs
    · rwa [Function.update_of_ne hi]
  · intro x hx i hb
    exact h.leased.bound x (Multiset.mem_add.mpr (.inl hx)) i hb
  · refine h.enrolled.like rfl hw' (fun _ => rfl) fun id => ?_
    have hsum := World.stock_of_update (φ := fun _ callback => callback.captures.count id)
      hl.slot hservices
    have hsame : Service.stock (fun _ callback => callback.captures.count id)
        { w.services g with registry := r } =
        (w.services g).stock fun _ callback => callback.captures.count id := by
      simp [Service.stock, hstock]
    rw [hsame] at hsum
    omega

theorem Inv.serve {x : Token} {q : Request} {reserved : Bool} {now : Duration}
    (h : Inv w ({x} + R)) (hx : x.Knows g) (hq : ∀ id, q ≠ .deregister id)
    (hnew : ∀ id, ((w.services g).registry.serve now reserved q).1 ≠ .registered id) :
    Inv (w.serve g now reserved q) ({x} + R) := by
  have hwf := (h.sound g).wf
  have hnil := fun ht => Registry.serve_nil hwf.distinct ht hnew
  obtain ⟨halive, haliveOf, hstock, -⟩ := Registry.serve_counts_of_idle hwf.distinct hq hnew
  exact h.registry (h.knows hx) now (hwf.serve now reserved q) Registry.serve_stopRequested hnil
    halive haliveOf hstock

theorem Inv.purge {x : Token} (h : Inv w ({x} + R)) (hx : x.Knows g) :
    (w.services g).registry.retain.1 = [] ∧
      Inv (w.adjust g fun s => { s with registry := s.registry.retain.2 }) ({x} + R) := by
  have hwf := (h.sound g).wf
  have hcounts := fun φ => Registry.retain_counts (φ := φ) hwf.clean
  refine ⟨hwf.clean.retain_fst, ?_⟩
  refine h.registry (h.knows hx) w.now hwf.retain rfl ?_ (hcounts fun _ _ => 0).1
    (hcounts fun _ _ => 0).2.1 fun φ => (hcounts φ).2.2
  intro hnil
  simp [Registry.retain, hnil]

theorem Inv.selectNone {selection : Registry.Selection} {now : Duration}
    (h : Inv w ({.loop g .idle} + R))
    (hsel : (w.services g).registry.select now = .ok (selection, r))
    (hnone : ∀ id callback, selection ≠ .dispatch id callback) :
    Inv { w.adjust g fun s => { s with registry := r } with now } ({.loop g .idle} + R) := by
  have hwf := (h.sound g).wf
  have hidle : (w.services g).hand = .idle := h.activity g .idle (by simp)
  obtain rfl : r = (w.services g).registry := by
    rw [hidle] at hwf
    rcases hwf.select_cases hsel with ⟨-, hr, -⟩ | ⟨e, he, cb, dl, -, -, -, -, hs, -, -⟩
    · exact hr
    · exact absurd hs (hnone _ _)
  exact h.registry (h.knows rfl) now hwf rfl id rfl (fun _ => rfl) fun _ => rfl

theorem Inv.work {a b : Activity} {s' : Service} (h : Inv w ({.loop g a} + R))
    (hl : w.Like w') (hservices : w'.services = Function.update w.services g s')
    (hwf : s'.registry.Wf s'.hand.out)
    (hnil : (w.services g).registry.timers = [] → s'.registry.timers = [])
    (hrest : s'.refs = (w.services g).refs ∧ s'.ready = (w.services g).ready ∧
      s'.finished = (w.services g).finished)
    (halive : s'.registry.alive = (w.services g).registry.alive)
    (haliveOf : ∀ id, s'.registry.aliveOf id = (w.services g).registry.aliveOf id)
    (hleases : w'.leases = w.leases) (hobjects : w'.objects = w.objects) (hb : b.Fits s')
    (henrolled : Enrolled w' ({.loop g b} + R)) : Inv w' ({.loop g b} + R) := by
  obtain ⟨hzero, halone⟩ := h.loop_alone
  obtain ⟨hw, -⟩ := World.counts_of_update hl.slot hservices halive haliveOf
  have hsound := h.sound g
  have hlike := hl.services g
  rw [hservices, Function.update_self] at hlike
  simp only [tally_add, tally_singleton, Token.refs, Token.loops, if_true, hzero] at hsound
  refine h.service hl hservices ?_ ?_ ?_ ?_ ?_ ?_ ?_ ?_ henrolled
  · simp [Token.guards]
  · simp
  · intro x hx i hk
    obtain rfl := Multiset.mem_singleton.mp hx
    exact h.staged.known (.loop g a) (by simp) i hk
  · simp only [tally_add, tally_singleton, Token.refs, Token.loops, if_true, hzero]
    refine ⟨hwf, ?_, ?_, ?_, ?_⟩
    · rw [hrest.2.1, hrest.2.2, hlike.spawned]
      exact hsound.life
    · intro h0
      cases h0
    · rw [hrest.1, hrest.2.1]
      exact hsound.counted
    · intro hs
      rw [hlike.stop] at hs
      exact hnil (hsound.emptied hs)
  · intro i hi
    simp [Token.refs, Token.loops]
  · intro a' ha'
    rcases Multiset.mem_add.mp ha' with ha' | ha'
    · obtain rfl : a' = b := by simpa using ha'
      exact hb
    · exact absurd ha' (halone a')
  · intro i hi a' ha'
    simp [hi] at ha'
  · refine h.leased.like hl hleases hobjects hw ?_ ?_
    · simp [Token.leases]
    · simp [Token.Bound]

theorem Inv.work_enrolled {a b : Activity} {s' : Service} (h : Inv w ({.loop g a} + R))
    (hslot : w'.slot = w.slot) (hservices : w'.services = Function.update w.services g s')
    (halive : s'.registry.alive = (w.services g).registry.alive)
    (haliveOf : ∀ id, s'.registry.aliveOf id = (w.services g).registry.aliveOf id)
    (hhandles : w'.handles = w.handles)
    (hstock : ∀ id, Token.clones id (.loop g b) +
        s'.stock (fun _ callback => callback.captures.count id) =
      Token.clones id (.loop g a) +
        (w.services g).stock fun _ callback => callback.captures.count id) :
    Enrolled w' ({.loop g b} + R) := by
  obtain ⟨-, hw'⟩ := World.counts_of_update hslot hservices halive haliveOf
  have hcur : w.slot.service = some g := h.current_of_loop (a := a) (by simp)
  refine h.enrolled.like hhandles hw' ?_ fun id => ?_
  · simp [Token.entries]
  · have hsum := World.stock_of_update (φ := fun _ callback => callback.captures.count id)
      hslot hservices
    have hid := hstock id
    simp only [hcur, if_true] at hsum
    rw [tally_singleton, tally_singleton]
    omega

theorem Inv.select {now : Duration} (h : Inv w ({.loop g .idle} + R))
    (hsel : (w.services g).registry.select now = .ok (.dispatch id callback, r)) :
    Inv { w.adjust g fun s => { s with registry := r, hand := .taken id callback } with now }
      ({.loop g (.taken id)} + R) := by
  have hwf := (h.sound g).wf
  have hidle : (w.services g).hand = .idle := h.activity g .idle (by simp)
  rw [hidle] at hwf
  rcases hwf.select_cases hsel with ⟨hno, -, -⟩ | ⟨e, he, cb, dl, hd, hcb, -, -, hs, hr, -⟩
  · cases hno
  cases hs
  have hcounts := fun φ => Registry.takenOut_counts (φ := φ) now hwf.distinct he hd hcb
  rw [← hr] at hcounts
  have hl : w.Like { w.adjust g fun s =>
      { s with registry := r, hand := .taken e.id callback } with now } := by
    refine .adjust rfl rfl rfl rfl (h.knows rfl) ⟨?_, rfl, fun hf => hf⟩ fun _ hnil => ?_
    · rw [hr]
      rfl
    · rw [hnil] at he
      cases he
  refine h.work hl rfl ?_ ?_ ⟨rfl, rfl, rfl⟩ (hcounts fun _ _ => 0).1 (hcounts fun _ _ => 0).2.1
    rfl rfl ⟨callback, rfl⟩ ?_
  · rw [hr]
    exact hwf.takenOut he
  · intro hnil
    rw [hnil] at he
    cases he
  · refine h.work_enrolled rfl rfl (hcounts fun _ _ => 0).1 (hcounts fun _ _ => 0).2.1 rfl ?_
    intro i
    have hstock := (hcounts fun _ callback => callback.captures.count i).2.2
    simp only [Token.clones, Service.stock, Hand.weight, hidle] at hstock ⊢
    omega

theorem Inv.begin (h : Inv w ({.loop g (.taken id)} + R))
    (hhand : (w.services g).hand = .taken id callback) :
    Inv (w.adjust g fun s => { s with hand := .running id callback })
      ({.loop g (.running id)} + R) := by
  have hwf := (h.sound g).wf
  rw [hhand] at hwf
  have hl : w.Like (w.adjust g fun s => { s with hand := .running id callback }) :=
    .adjust rfl rfl rfl rfl (h.knows rfl) ⟨rfl, rfl, fun hf => hf⟩ fun _ hnil => hnil
  refine h.work hl rfl hwf (fun hnil => hnil) ⟨rfl, rfl, rfl⟩ rfl (fun _ => rfl) rfl rfl
    ⟨callback, rfl⟩ ?_
  refine h.work_enrolled rfl rfl rfl (fun _ => rfl) rfl fun i => ?_
  simp [Token.clones, Service.stock, Hand.weight, hhand]

theorem Inv.restore (h : Inv w ({.loop g (.running id)} + R))
    (hhand : (w.services g).hand = .running id callback) :
    Inv (w.adjust g fun s =>
        { s with registry := (s.registry.restore id callback).2, hand := .idle })
      (returning g id ((w.services g).registry.restore id callback).1 + R) := by
  have hwf := (h.sound g).wf
  rw [hhand] at hwf
  have hcounts := fun φ => Registry.restore_counts (φ := φ) callback hwf
  have hnil : (w.services g).registry.timers = [] →
      ((w.services g).registry.restore id callback).2.timers = [] := by
    intro hnil
    rw [Registry.restore_snd hwf.distinct, Registry.adjust, hnil]
    rfl
  have hl : w.Like (w.adjust g fun s =>
      { s with registry := (s.registry.restore id callback).2, hand := .idle }) := by
    refine .adjust rfl rfl rfl rfl (h.knows rfl) ⟨?_, rfl, fun hf => hf⟩ fun _ => hnil
    change ((w.services g).registry.restore id callback).2.stopRequested = _
    rw [Registry.restore_snd hwf.distinct]
    rfl
  have hwork : ∀ b : Activity, b.Fits { w.services g with
        registry := ((w.services g).registry.restore id callback).2, hand := .idle } →
      (∀ i, Token.clones i (.loop g b) =
        ((w.services g).registry.restore id callback).1.elim 0 fun cb => cb.captures.count i) →
      Inv (w.adjust g fun s =>
        { s with registry := (s.registry.restore id callback).2, hand := .idle })
        ({.loop g b} + R) := by
    intro b hb hclones
    refine h.work hl rfl hwf.restore hnil ⟨rfl, rfl, rfl⟩ (hcounts fun _ _ => 0).1
      (hcounts fun _ _ => 0).2.1 rfl rfl hb ?_
    refine h.work_enrolled rfl rfl (hcounts fun _ _ => 0).1 (hcounts fun _ _ => 0).2.1 rfl ?_
    intro i
    have hstock := (hcounts fun _ callback => callback.captures.count i).2.2
    have hi := hclones i
    simp only [Service.stock, Hand.weight, hhand, Token.clones] at hstock hi ⊢
    omega
  cases hrest : ((w.services g).registry.restore id callback).1 with
  | none => exact hwork .idle rfl fun i => by simp [Token.clones, hrest]
  | some cb => exact hwork (.retiring id cb) rfl fun i => by simp [Token.clones, hrest]

/-- A callback that is running trades clones with application code. -/
theorem Inv.adapt {callback' : Callback} {handles : Handles}
    (h : Inv w ({.loop g (.running id)} + R))
    (hhand : (w.services g).hand = .running id callback) (hstrong : handles.strong = w.handles.strong)
    (hcount : ∀ i, handles.owned i + callback'.captures.count i =
      w.handles.owned i + callback.captures.count i) :
    Inv { w.adjust g fun s => { s with hand := .running id callback' } with handles }
      ({.loop g (.running id)} + R) := by
  have hwf := (h.sound g).wf
  rw [hhand] at hwf
  have hl : w.Like { w.adjust g fun s => { s with hand := .running id callback' } with handles } :=
    .adjust rfl rfl rfl rfl (h.knows rfl) ⟨rfl, rfl, fun hf => hf⟩ fun _ hnil => hnil
  have hcur : w.slot.service = some g := h.current_of_loop (a := .running id) (by simp)
  generalize hw' : { w.adjust g fun s => { s with hand := .running id callback' } with handles } = w'
    at hl ⊢
  have hservices : w'.services =
      Function.update w.services g { w.services g with hand := .running id callback' } := by
    rw [← hw']
    rfl
  have hhandles : w'.handles = handles := by rw [← hw']
  have hleases : w'.leases = w.leases ∧ w'.objects = w.objects := by
    rw [← hw']
    exact ⟨rfl, rfl⟩
  refine h.work hl hservices hwf (fun hnil => hnil) ⟨rfl, rfl, rfl⟩ rfl (fun _ => rfl) hleases.1
    hleases.2 ⟨callback', rfl⟩ ⟨fun i => ?_, fun i => ?_⟩
  · obtain ⟨-, halive⟩ := World.counts_of_update hl.slot hservices rfl fun _ => rfl
    rw [halive, hhandles, hstrong]
    exact h.enrolled.entry i
  · have hsum := World.stock_of_update (φ := fun _ callback => callback.captures.count i)
      hl.slot hservices
    have hclones := h.enrolled.clones i
    have hi := hcount i
    simp only [hcur, if_true, Service.stock, Hand.weight, hhand] at hsum
    rw [hhandles, hstrong]
    omega

theorem Inv.enroll {period : Duration} {mode : TimerMode} {reserved : Bool} {now : Duration}
    (h : Inv w ({.lease (some g)} + {.closure callback} + R))
    (hnew : ((w.services g).registry.serve now reserved (.register period mode callback)).1 =
      .registered id) :
    Inv (w.serve g now reserved (.register period mode callback)) ({.fresh id} + R) := by
  obtain ⟨worker, hslot⟩ := h.leased.bound (.lease (some g)) (by simp) g rfl
  have hrun : w.state = .running :=
    h.leased.running (h.leases_pos (x := .lease (some g)) (by simp) Nat.one_pos)
  have hsound := h.sound g
  have hwf := hsound.wf
  obtain ⟨g', worker', hslot', hstop⟩ := h.staged.running hrun
  obtain ⟨rfl, -⟩ : g = g' ∧ worker = worker' := by simpa [hslot] using hslot'
  have hcounts := fun φ => Registry.serve_registered_counts
    (φ := φ) hnew
  have hstop' : ((w.services g).registry.serve now reserved
      (.register period mode callback)).2.stopRequested = false :=
    Registry.serve_stopRequested.trans hstop
  have hl : w.Like (w.serve g now reserved (.register period mode callback)) := by
    refine .adjust rfl rfl rfl rfl (h.known_of_slot hslot)
      ⟨Registry.serve_stopRequested, rfl, fun hf => hf⟩ fun hst => ?_
    rw [hrun] at hst
    cases hst
  have halive : (w.serve g now reserved (.register period mode callback)).alive = w.alive + 1 := by
    simp only [World.alive, World.serve, World.adjust, hslot, Function.update_self]
    exact (hcounts fun _ _ => 0).2.1
  have haliveOf : ∀ i, (w.serve g now reserved (.register period mode callback)).aliveOf i =
      w.aliveOf i + if i = id then 1 else 0 := by
    intro i
    simp only [World.aliveOf, World.serve, World.adjust, hslot, Function.update_self]
    exact (hcounts fun _ _ => 0).2.2.1 i
  have hstock : ∀ φ, (w.serve g now reserved (.register period mode callback)).stock φ =
      w.stock φ + φ id callback := by
    intro φ
    have heq := (hcounts φ).2.2.2
    simp only [World.stock, World.serve, World.adjust, hslot, Slot.service, Function.update_self,
      Service.stock]
    omega
  refine h.service hl rfl ?_ ?_ ?_ ?_ ?_ ?_ ?_ ?_ ?_
  · simp [Token.guards]
  · simp
  · simp [Token.Knows]
  · simp only [tally_add, tally_singleton, Token.refs, Token.loops, Nat.zero_add] at hsound ⊢
    refine ⟨hwf.serve now reserved _, hsound.life, hsound.resting, hsound.counted, fun hs => ?_⟩
    rw [hstop'] at hs
    cases hs
  · simp [Token.refs, Token.loops]
  · intro a ha
    have ha' : .loop g a ∈ R := by simpa using ha
    refine (h.activity g a (Multiset.mem_add.mpr (.inr ha'))).mono rfl fun hs => ?_
    rw [hstop] at hs
    cases hs
  · simp
  · refine ⟨?_, fun _ => hrun, ?_⟩
    · have hcount := h.leased.count
      rw [halive]
      simp only [tally_add, tally_singleton, Token.leases] at hcount ⊢
      change w.leases = w.objects + _ + _
      omega
    · intro x hx i hb
      rcases Multiset.mem_add.mp hx with hx | hx
      · obtain rfl := Multiset.mem_singleton.mp hx
        cases hb
      · exact h.leased.bound x (Multiset.mem_add.mpr (.inr hx)) i hb
  · refine ⟨fun i => ?_, fun i => ?_⟩
    · have hentry := h.enrolled.entry i
      rw [haliveOf]
      simp only [tally_add, tally_singleton, Token.entries, Nat.zero_add] at hentry ⊢
      change min (w.handles.strong i) 1 + _ = _
      by_cases hi : i = id
      · subst hi
        simp only [if_true]
        omega
      · simp only [if_neg hi, if_neg (Ne.symm hi)]
        omega
    · have hclones := h.enrolled.clones i
      rw [hstock]
      simp only [tally_add, tally_singleton, Token.clones, Nat.zero_add] at hclones ⊢
      change w.handles.strong i = w.handles.owned i + _ + _
      omega

theorem Inv.aliveOf_of_last {b : Option Nat} (h : Inv w ({.last b id} + R)) : 0 < w.aliveOf id := by
  have hentry := h.enrolled.entry id
  simp only [tally_add, tally_singleton, Token.entries, if_true] at hentry
  omega

theorem World.running_of_aliveOf (hpos : 0 < w.aliveOf id) :
    ∃ g worker, w.slot = .running g worker ∧ 0 < (w.services g).registry.aliveOf id := by
  rw [World.aliveOf] at hpos
  split at hpos
  · rename_i g worker hslot
    exact ⟨g, worker, hslot, hpos⟩
  · omega

theorem Inv.remove {reserved : Bool} {now : Duration} (h : Inv w ({.last (some g) id} + R)) :
    Inv (w.serve g now reserved (.deregister id))
      (parting g id ((w.services g).registry.callbackOf id) + R) := by
  obtain ⟨worker, hslot⟩ := h.leased.bound (.last (some g) id) (by simp) g rfl
  have hpos : 0 < (w.services g).registry.aliveOf id := by
    have hpos := h.aliveOf_of_last
    simpa [World.aliveOf, hslot] using hpos
  have hrun : w.state = .running := h.leased.running (h.leases_of_aliveOf h.aliveOf_of_last)
  have hsound := h.sound g
  have hwf := hsound.wf
  have hcounts := fun φ => Registry.serve_deregister_counts
    (φ := φ) now reserved hwf.distinct hpos
  have hl : w.Like (w.serve g now reserved (.deregister id)) := by
    refine .adjust rfl rfl rfl rfl (h.known_of_slot hslot)
      ⟨Registry.serve_stopRequested, rfl, fun hf => hf⟩ fun hst => ?_
    rw [hrun] at hst
    cases hst
  have halive : (w.serve g now reserved (.deregister id)).alive + 1 = w.alive := by
    simp only [World.alive, World.serve, World.adjust, hslot, Function.update_self]
    exact (hcounts fun _ _ => 0).1
  have haliveOf : ∀ i, (w.serve g now reserved (.deregister id)).aliveOf i +
      (if i = id then 1 else 0) = w.aliveOf i := by
    intro i
    simp only [World.aliveOf, World.serve, World.adjust, hslot, Function.update_self]
    exact (hcounts fun _ _ => 0).2.1 i
  have hstock : ∀ φ, (w.serve g now reserved (.deregister id)).stock φ +
      ((w.services g).registry.callbackOf id).elim 0 (φ id) = w.stock φ := by
    intro φ
    have heq := (hcounts φ).2.2
    simp only [World.stock, World.serve, World.adjust, hslot, Slot.service, Function.update_self,
      Service.stock]
    omega
  generalize hcb : (w.services g).registry.callbackOf id = cb at *
  have hparting : ∀ x ∈ parting g id cb, x = .lease none ∨ ∃ c, x = .removed g id c := by
    intro x hx
    cases cb with
    | none => exact .inl (Multiset.mem_singleton.mp hx)
    | some c => exact .inr ⟨c, Multiset.mem_singleton.mp hx⟩
  have htally : ∀ {f : Token → Nat}, f (.lease none) = 0 → (∀ c, f (.removed g id c) = 0) →
      tally f (parting g id cb) = 0 := by
    intro f h₁ h₂
    refine tally_eq_zero fun x hx => ?_
    rcases hparting x hx with rfl | ⟨c, rfl⟩
    · exact h₁
    · exact h₂ c
  refine h.service hl rfl ?_ ?_ ?_ ?_ ?_ ?_ ?_ ?_ ?_
  · rw [htally rfl fun _ => rfl]
    rfl
  · intro phase hmem
    rcases hparting _ hmem with he | ⟨c, he⟩ <;> cases he
  · intro x hx i hk
    rcases hparting x hx with rfl | ⟨c, rfl⟩ <;> cases hk
  · simp only [tally_add, tally_singleton, Token.refs, Token.loops, Nat.zero_add] at hsound ⊢
    rw [htally rfl fun _ => rfl, htally rfl fun _ => rfl, Nat.zero_add, Nat.zero_add]
    refine ⟨hwf.deregister, hsound.life, hsound.resting, hsound.counted, fun hs => ?_⟩
    have hnil := hsound.emptied (Registry.serve_stopRequested.symm.trans hs)
    rw [(Registry.counts_nil (φ := fun _ _ => 0) hnil).2.1 id] at hpos
    exact absurd hpos (Nat.lt_irrefl 0)
  · intro i _
    rw [htally rfl fun _ => rfl, htally rfl fun _ => rfl]
    exact ⟨rfl, rfl⟩
  · intro a ha
    rcases Multiset.mem_add.mp ha with ha | ha
    · rcases hparting _ ha with he | ⟨c, he⟩ <;> cases he
    · refine (h.activity g a (Multiset.mem_add.mpr (.inr ha))).mono rfl fun hs => ?_
      exact Registry.serve_stopRequested.trans hs
  · intro i _ a ha
    rcases hparting _ ha with he | ⟨c, he⟩ <;> cases he
  · refine ⟨?_, fun _ => hrun, ?_⟩
    · have hcount := h.leased.count
      have hone : tally Token.leases (parting g id cb) = 1 := by cases cb <;> rfl
      rw [tally_add, hone]
      simp only [tally_add, tally_singleton, Token.leases] at hcount
      change w.leases = w.objects + _ + _
      omega
    · intro x hx i hb
      rcases Multiset.mem_add.mp hx with hx | hx
      · rcases hparting x hx with rfl | ⟨c, rfl⟩ <;> cases hb
      · exact h.leased.bound x (Multiset.mem_add.mpr (.inr hx)) i hb
  · refine ⟨fun i => ?_, fun i => ?_⟩
    · have hentry := h.enrolled.entry i
      have hi := haliveOf i
      rw [tally_add, htally rfl fun _ => rfl, Nat.zero_add]
      simp only [tally_add, tally_singleton, Token.entries] at hentry
      change min (w.handles.strong i) 1 + _ = _
      by_cases hid : i = id
      · subst hid
        simp only [if_true] at hentry hi
        omega
      · simp only [if_neg hid, if_neg (Ne.symm hid)] at hentry hi
        omega
    · have hclones := h.enrolled.clones i
      have hi := hstock fun _ callback => callback.captures.count i
      have hcl : tally (Token.clones i) (parting g id cb) =
          cb.elim 0 fun callback => callback.captures.count i := by
        cases cb <;> simp [parting, Token.clones]
      rw [tally_add, hcl]
      simp only [tally_add, tally_singleton, Token.clones, Nat.zero_add] at hclones
      change w.handles.strong i = w.handles.owned i + _ + _
      omega

/-- A token of the references to service `g` and of its worker's loop. -/
private def Clerical (g : Nat) (M : Multiset Token) : Prop :=
  ∀ x ∈ M, x = .ref g ∨ x = .loop g .idle ∨ x = .loop g .stopping

private theorem Clerical.tally {M : Multiset Token} (h : Clerical g M) {f : Token → Nat}
    (href : f (.ref g) = 0) (hidle : f (.loop g .idle) = 0) (hstop : f (.loop g .stopping) = 0) :
    tally f M = 0 := by
  refine tally_eq_zero fun x hx => ?_
  rcases h x hx with rfl | rfl | rfl
  · exact href
  · exact hidle
  · exact hstop

private theorem Inv.clerical {p : Multiset Token} {s' : Service} (h : Inv w (c + R))
    (hg : g < w.created) (hc : Clerical g c) (hp : Clerical g p)
    (hregistry : s'.registry = (w.services g).registry) (hhand : s'.hand = (w.services g).hand)
    (hspawned : s'.spawned = (w.services g).spawned)
    (hfinished : (w.services g).finished = true → s'.finished = true)
    (hlife : tally (Token.loops g) (p + R) + s'.ready.toNat + s'.finished.toNat = s'.spawned.toNat)
    (hcounted : s'.refs = w.slot.holds g + tally (Token.refs g) (p + R) +
      tally (Token.loops g) (p + R) + s'.ready.toNat)
    (hresting : tally (Token.loops g) (p + R) = 0 → (w.services g).hand = .idle)
    (hact : ∀ a, .loop g a ∈ p → a.Fits (w.services g)) :
    Inv (w.adjust g fun _ => s') (p + R) := by
  have hl : w.Like (w.adjust g fun _ => s') :=
    .adjust rfl rfl rfl rfl hg ⟨by rw [hregistry], hspawned, hfinished⟩ fun _ ht => by rwa [hregistry]
  have hservices : (w.adjust g fun _ => s').services = Function.update w.services g s' := rfl
  obtain ⟨hw, hw'⟩ := World.counts_of_update hl.slot hservices (by rw [hregistry])
    (fun _ => by rw [hregistry])
  have hsound := h.sound g
  have hzero : ∀ {f : Token → Nat}, f (.ref g) = 0 → f (.loop g .idle) = 0 →
      f (.loop g .stopping) = 0 → tally f p = tally f c := by
    intro f h₁ h₂ h₃
    rw [hp.tally h₁ h₂ h₃, hc.tally h₁ h₂ h₃]
  refine h.service hl rfl (hzero rfl rfl rfl) ?_ ?_ ?_ ?_ ?_ ?_ ?_ ?_
  · intro phase hmem
    rcases hp _ hmem with he | he | he <;> cases he
  · intro x hx i hk
    rcases hp x hx with rfl | rfl | rfl <;> exact hk ▸ hg
  · refine ⟨?_, hlife, ?_, hcounted, ?_⟩
    · rw [hregistry, hhand]
      exact hsound.wf
    · intro h0
      rw [hhand]
      exact hresting h0
    · intro hs
      rw [hregistry] at hs ⊢
      exact hsound.emptied hs
  · intro i hi
    refine ⟨hzero ?_ rfl rfl, hzero rfl ?_ ?_⟩ <;> simp [Token.refs, Token.loops, Ne.symm hi]
  · intro a ha
    rcases Multiset.mem_add.mp ha with ha | ha
    · exact (hact a ha).mono hhand fun hs => by rwa [hregistry]
    · exact (h.activity g a (Multiset.mem_add.mpr (.inr ha))).mono hhand fun hs => by rwa [hregistry]
  · intro i hi a ha
    rcases hp _ ha with he | he | he <;> cases he <;> exact hi rfl
  · refine h.leased.like hl rfl rfl hw (hzero rfl rfl rfl) fun x hx i hb => ?_
    rcases hp x hx with rfl | rfl | rfl <;> cases hb
  · refine h.enrolled.like rfl hw' (fun _ => hzero rfl rfl rfl) fun id => ?_
    have hsum := World.stock_of_update (φ := fun _ callback => callback.captures.count id)
      hl.slot hservices
    have hsame : s'.stock (fun _ callback => callback.captures.count id) =
        (w.services g).stock fun _ callback => callback.captures.count id := by
      rw [Service.stock, Service.stock, hregistry, hhand]
    rw [hsame] at hsum
    have htok : tally (Token.clones id) p = tally (Token.clones id) c := hzero rfl rfl rfl
    omega

theorem Inv.share {worker : Bool} (h : Inv w (0 + R)) (hslot : w.slot = .running g worker) :
    Inv (w.adjust g fun s => { s with refs := s.refs + 1 }) ({.ref g} + R) := by
  have hsound := h.sound g
  rw [zero_add] at hsound
  refine h.clerical (h.known_of_slot hslot) (by simp [Clerical]) (by simp [Clerical]) rfl rfl rfl id
    ?_ ?_ ?_ (by simp)
  · simpa [Token.loops] using hsound.life
  · have hcounted := hsound.counted
    simp only [tally_add, tally_singleton, Token.refs, Token.loops, if_true]
    omega
  · intro h0
    exact hsound.resting (by simpa [Token.loops] using h0)

theorem Inv.release (h : Inv w ({.ref g} + R)) :
    Inv (w.adjust g fun s => { s with refs := s.refs - 1 }) (0 + R) := by
  have hsound := h.sound g
  simp only [tally_add, tally_singleton, Token.refs, Token.loops, if_true, Nat.zero_add] at hsound
  refine h.clerical (h.knows rfl) (by simp [Clerical]) (by simp [Clerical]) rfl rfl rfl id
    ?_ ?_ ?_ (by simp)
  · simpa using hsound.life
  · have hcounted := hsound.counted
    simp only [zero_add]
    omega
  · intro h0
    exact hsound.resting (by simpa using h0)

theorem Inv.startWorker (h : Inv w (0 + R)) (hready : (w.services g).ready = true) :
    Inv (w.adjust g fun s => { s with ready := false }) ({.loop g .idle} + R) := by
  have hsound := h.sound g
  rw [zero_add] at hsound
  have hspawned := Bool.toNat_le (w.services g).spawned
  have hlife := hsound.life
  have hcounted := hsound.counted
  rw [hready, Bool.toNat_true] at hlife hcounted
  have hzero : tally (Token.loops g) R = 0 := by omega
  have hg : g < w.created := by
    by_contra hge
    rw [h.staged.fresh g (Nat.le_of_not_lt hge)] at hready
    cases hready
  refine h.clerical hg (by simp [Clerical]) (by simp [Clerical]) rfl rfl rfl id ?_ ?_ ?_ ?_
  · simp only [tally_add, tally_singleton, Token.loops, if_true, Bool.toNat_false]
    omega
  · simp only [tally_add, tally_singleton, Token.refs, Token.loops, if_true, Bool.toNat_false]
    omega
  · intro h0
    simp [Token.loops] at h0
  · intro a ha
    obtain rfl : a = .idle := by simpa using ha
    exact hsound.resting hzero

theorem Inv.finish (h : Inv w ({.loop g .stopping} + R)) :
    Inv (w.adjust g fun s => { s with finished := true }) ({.ref g} + R) := by
  have hsound := h.sound g
  obtain ⟨hzero, -⟩ := h.loop_alone
  have hspawned := Bool.toNat_le (w.services g).spawned
  have hlife := hsound.life
  have hcounted := hsound.counted
  simp only [tally_add, tally_singleton, Token.refs, Token.loops, if_true, hzero] at hlife hcounted
  have hhand : (w.services g).hand = .idle := (h.activity g .stopping (by simp)).1
  refine h.clerical (h.knows rfl) (by simp [Clerical]) (by simp [Clerical]) rfl rfl rfl (fun _ => rfl)
    ?_ ?_ (fun _ => hhand) (by simp)
  · simp only [tally_add, tally_singleton, Token.loops, hzero, Bool.toNat_true]
    omega
  · simp only [tally_add, tally_singleton, Token.refs, Token.loops, if_true, hzero]
    omega

/-- The last reference to a service is dropped long after its registry has been emptied. -/
theorem Inv.destroy (h : Inv w ({.ref g} + R)) (hrefs : (w.services g).refs = 1) :
    (w.services g).registry.timers = [] ∧
      Inv (w.adjust g fun s => { s with refs := 0, registry := { s.registry with timers := [] } })
        (0 + R) := by
  have hcounted := (h.sound g).counted
  simp only [tally_add, tally_singleton, Token.refs, if_true] at hcounted
  have hslot : ∀ worker, w.slot ≠ .running g worker := by
    intro worker hs
    have hheld : w.slot.holds g = 1 := by simp [Slot.holds, hs]
    omega
  have hnil := h.timers_nil hslot
  refine ⟨hnil, ?_⟩
  have hrel := h.release
  have hs : { w.services g with refs := 0, registry := { (w.services g).registry with timers := [] } } =
      { w.services g with refs := (w.services g).refs - 1 } := by
    rw [hrefs, ← hnil]
  rwa [World.adjust, hs]

end Services

/-! ## Leases and handles -/

section Personal

variable {w : World} {c p R : Multiset Token} {g id : Nat} {callback : Callback}

theorem Inv.acquire (h : Inv w (0 + R)) (hrun : w.state = .running) :
    Inv { w with leases := w.leases + 1 } ({.lease none} + R) := by
  have hcount := h.leased.count
  rw [zero_add] at hcount
  refine h.exchange (.of_services rfl rfl rfl rfl) rfl ?_ ?_ ?_ ?_ ?_ ?_ ?_ ?_
  · simp [Token.guards]
  · simp
  · simp [Token.Knows]
  · simp [Token.refs]
  · simp [Token.loops]
  · simp
  · refine ⟨?_, fun _ => hrun, ?_⟩
    · simp only [tally_add, tally_singleton, Token.leases]
      change w.leases + 1 = w.objects + _ + w.alive
      omega
    · intro x hx i hb
      rcases Multiset.mem_add.mp hx with hx | hx
      · obtain rfl := Multiset.mem_singleton.mp hx
        cases hb
      · exact h.leased.bound x (Multiset.mem_add.mpr (.inr hx)) i hb
  · refine h.enrolled.like rfl (fun _ => rfl) ?_ ?_
    · simp [Token.entries]
    · simp [Token.clones]
      exact fun _ => rfl

theorem Inv.dropLease (h : Inv w ({.lease none} + R)) :
    Inv { w with leases := w.leases - 1 } (0 + R) := by
  have hcount := h.leased.count
  simp only [tally_add, tally_singleton, Token.leases] at hcount
  refine h.exchange (.of_services rfl rfl rfl rfl) rfl ?_ ?_ ?_ ?_ ?_ ?_ ?_ ?_
  · simp [Token.guards]
  · simp
  · simp
  · simp [Token.refs]
  · simp [Token.loops]
  · simp
  · refine ⟨?_, fun _ => ?_, ?_⟩
    · simp only [zero_add]
      change w.leases - 1 = w.objects + _ + w.alive
      omega
    · exact h.leased.running (by omega)
    · intro x hx i hb
      rw [zero_add] at hx
      exact h.leased.bound x (Multiset.mem_add.mpr (.inr hx)) i hb
  · refine h.enrolled.like rfl (fun _ => rfl) ?_ ?_
    · simp [Token.entries]
    · simp [Token.clones]
      exact fun _ => rfl

theorem Inv.objects {leases objects : Nat} (h : Inv w R) (hrun : w.state = .running)
    (hcount : leases + w.objects = w.leases + objects) :
    Inv { w with leases, objects } R := by
  rw [← zero_add R] at h ⊢
  refine h.exchange (.of_services rfl rfl rfl rfl) rfl rfl ?_ ?_ (fun _ => rfl) (fun _ => rfl) ?_ ?_ ?_
  · simp
  · simp
  · simp
  · refine ⟨?_, fun _ => hrun, fun x hx i hb => h.leased.bound x hx i hb⟩
    have hold := h.leased.count
    change leases = objects + _ + w.alive
    omega
  · exact h.enrolled.like rfl (fun _ => rfl) (fun _ => rfl) fun _ => rfl

/-- Tokens of handles and closures that no service knows. -/
def Personal (M : Multiset Token) : Prop :=
  ∀ x ∈ M, (∃ i, x = .fresh i ∨ x = .clone i ∨ x = .last none i) ∨ ∃ callback, x = .closure callback

theorem Personal.tally {M : Multiset Token} (h : Personal M) {f : Token → Nat}
    (hfresh : ∀ i, f (.fresh i) = 0) (hclone : ∀ i, f (.clone i) = 0)
    (hlast : ∀ i, f (.last none i) = 0) (hclosure : ∀ callback, f (.closure callback) = 0) :
    tally f M = 0 := by
  refine tally_eq_zero fun x hx => ?_
  rcases h x hx with ⟨i, rfl | rfl | rfl⟩ | ⟨cb, rfl⟩
  · exact hfresh i
  · exact hclone i
  · exact hlast i
  · exact hclosure cb

theorem Inv.handles {handles : Handles} (h : Inv w (c + R)) (hc : Personal c) (hp : Personal p)
    (hentry : ∀ i, min (handles.strong i) 1 + tally (Token.entries i) p =
      min (w.handles.strong i) 1 + tally (Token.entries i) c)
    (hclones : ∀ i, handles.strong i + w.handles.owned i + tally (Token.clones i) c =
      w.handles.strong i + handles.owned i + tally (Token.clones i) p) :
    Inv { w with handles } (p + R) := by
  have hzero : ∀ {f : Token → Nat}, (∀ i, f (.fresh i) = 0) → (∀ i, f (.clone i) = 0) →
      (∀ i, f (.last none i) = 0) → (∀ callback, f (.closure callback) = 0) →
      tally f p = tally f c := by
    intro f h₁ h₂ h₃ h₄
    rw [hp.tally h₁ h₂ h₃ h₄, hc.tally h₁ h₂ h₃ h₄]
  have hl : w.Like { w with handles } := .of_services rfl rfl rfl rfl
  refine h.exchange hl rfl (hzero (fun _ => rfl) (fun _ => rfl) (fun _ => rfl) fun _ => rfl) ?_ ?_
    (fun _ => hzero (fun _ => rfl) (fun _ => rfl) (fun _ => rfl) fun _ => rfl)
    (fun _ => hzero (fun _ => rfl) (fun _ => rfl) (fun _ => rfl) fun _ => rfl) ?_ ?_
    ⟨fun i => ?_, fun i => ?_⟩
  · intro phase hmem
    rcases hp _ hmem with ⟨i, he | he | he⟩ | ⟨cb, he⟩ <;> cases he
  · intro x hx i hk
    rcases hp x hx with ⟨i, rfl | rfl | rfl⟩ | ⟨cb, rfl⟩ <;> cases hk
  · intro i a ha
    rcases hp _ ha with ⟨i, he | he | he⟩ | ⟨cb, he⟩ <;> cases he
  · refine h.leased.like hl rfl rfl rfl
      (hzero (fun _ => rfl) (fun _ => rfl) (fun _ => rfl) fun _ => rfl) ?_
    intro x hx i hb
    rcases hp x hx with ⟨i, rfl | rfl | rfl⟩ | ⟨cb, rfl⟩ <;> cases hb
  · have hold := h.enrolled.entry i
    have hi := hentry i
    rw [tally_add] at hold ⊢
    change min (handles.strong i) 1 + _ = w.aliveOf i
    omega
  · have hold := h.enrolled.clones i
    have hi := hclones i
    rw [tally_add] at hold ⊢
    change handles.strong i = handles.owned i + _ + w.stock _
    omega

theorem Inv.adopt (h : Inv w ({.fresh id} + R)) :
    Inv { w with handles := w.handles.adopt id } (0 + R) := by
  have hone := h.aliveOf_le_one id
  have hentry := h.enrolled.entry id
  simp only [tally_add, tally_singleton, Token.entries, if_true] at hentry
  have hdead : w.handles.strong id = 0 := by omega
  refine h.handles (by simp [Personal]) (by simp [Personal]) (fun i => ?_) fun i => ?_
  · by_cases hi : i = id
    · subst hi
      simp [Handles.adopt, hdead, Token.entries]
    · simp [Handles.adopt, hi, Token.entries, Ne.symm hi]
  · by_cases hi : i = id
    · subst hi
      simp [Handles.adopt, hdead, Token.clones]
      omega
    · simp [Handles.adopt, hi, Token.clones]

theorem Inv.dropClone (h : Inv w ({.clone id} + R)) (hs : 1 < w.handles.strong id) :
    Inv { w with handles := w.handles.release id } (0 + R) := by
  refine h.handles (by simp [Personal]) (by simp [Personal]) (fun i => ?_) fun i => ?_
  · by_cases hi : i = id
    · subst hi
      simp [Handles.release, Token.entries]
      omega
    · simp [Handles.release, hi, Token.entries]
  · by_cases hi : i = id
    · subst hi
      simp [Handles.release, Token.clones]
      omega
    · simp [Handles.release, hi, Token.clones, Ne.symm hi]

theorem Inv.dropLast (h : Inv w ({.clone id} + R)) (hs : w.handles.strong id = 1) :
    Inv { w with handles := w.handles.release id } ({.last none id} + R) := by
  refine h.handles (by simp [Personal]) (by simp [Personal]) (fun i => ?_) fun i => ?_
  · by_cases hi : i = id
    · subst hi
      simp [Handles.release, hs, Token.entries]
    · simp [Handles.release, hi, Token.entries, Ne.symm hi]
  · by_cases hi : i = id
    · subst hi
      simp [Handles.release, hs, Token.clones]
      omega
    · simp [Handles.release, hi, Token.clones, Ne.symm hi]

theorem Inv.calls {captures : List Nat} {i : Intent} {handles : Handles} (h : Inv w (0 + R))
    (hcaptures : ∀ i, captures.count i ≤ w.stock fun _ callback => callback.captures.count i)
    (hc : Handles.Calls captures w.handles i handles) :
    Inv { w with handles } (i.tokens + R) := by
  have hempty : Personal 0 := by simp [Personal]
  have hreach : ∀ i, w.handles.Reaches captures i → 0 < w.handles.strong i := by
    intro i hr
    have hclones := h.enrolled.clones i
    rcases hr with hpos | hmem
    · omega
    · have hle := hcaptures i
      have hpos := List.count_pos_iff.mpr hmem
      omega
  have hcapture : ∀ moved : List Nat, (∀ id, moved.count id ≤ w.handles.owned id) →
      Inv { w with handles := w.handles.capture moved } ({.closure ⟨moved⟩} + R) := by
    intro moved hm
    refine h.handles hempty (by simp [Personal]) (fun i => ?_) fun i => ?_
    · simp [Handles.capture, Token.entries]
    · have hle := hm i
      simp [Handles.capture, Token.clones]
      omega
  cases hc with
  | newRefused hm => exact hcapture _ hm
  | new hm _ => exact hcapture _ hm
  | start | stop | reset | changePeriod | changePeriodZero => exact h
  | @clone i hr =>
    have hpos := hreach i hr
    refine h.handles hempty hempty (fun j => ?_) fun j => ?_
    · by_cases hj : j = i
      · subst hj
        simp [Handles.clone, Intent.tokens]
        omega
      · simp [Handles.clone, hj, Intent.tokens]
    · by_cases hj : j = i
      · subst hj
        simp [Handles.clone, Intent.tokens]
        omega
      · simp [Handles.clone, hj, Intent.tokens]
  | @drop i hpos =>
    refine h.handles hempty (by simp [Personal, Intent.tokens]) (fun j => ?_) fun j => ?_
    · simp [Handles.give, Intent.tokens, Token.entries]
    · by_cases hj : j = i
      · subst hj
        simp [Handles.give, Intent.tokens, Token.clones]
        omega
      · simp [Handles.give, hj, Intent.tokens, Token.clones, Ne.symm hj]

end Personal

/-! ## Transitions -/

section Transitions

variable {w : World} {c p R : Multiset Token} {g : Nat}

/-- At most the guard of a transition. -/
private def Official (M : Multiset Token) : Prop := ∀ x ∈ M, ∃ phase, x = .transition phase

private theorem Official.tally {M : Multiset Token} (h : Official M) {f : Token → Nat}
    (hf : ∀ phase, f (.transition phase) = 0) : tally f M = 0 := by
  refine tally_eq_zero fun x hx => ?_
  obtain ⟨phase, rfl⟩ := h x hx
  exact hf phase

private theorem Official.guards {M : Multiset Token} (h : Official M) :
    Timer.tally Token.guards M = Multiset.card M := by
  induction M using Multiset.induction_on with
  | empty => rfl
  | cons x M ih =>
    obtain ⟨phase, rfl⟩ := h x (Multiset.mem_cons_self _ _)
    rw [tally_cons, Multiset.card_cons, ih fun y hy => h y (Multiset.mem_cons_of_mem hy)]
    simp [Token.guards, Nat.add_comm]

private theorem Inv.shift {state : RuntimeState} (h : Inv w (c + R)) (hc : Official c)
    (hp : Official p) (hnone : ∀ q, .transition q ∉ R)
    (hcard : Multiset.card p = if state = .initializing ∨ state = .shuttingDown then 1 else 0)
    (hfits : ∀ phase, .transition phase ∈ p → phase.Fits { w with state })
    (hknown : ∀ phase, .transition phase ∈ p → ∀ g, ¬ (Token.transition phase).Knows g)
    (hrunning : state = .running → w.Serving)
    (hstopped : state = .uninitialized → w.slot = .stopped)
    (hleases : 0 < w.leases → state = .running) : Inv { w with state } (p + R) := by
  have hzero : ∀ {f : Token → Nat}, (∀ phase, f (.transition phase) = 0) →
      tally f p = tally f c := by
    intro f hf
    rw [hp.tally hf, hc.tally hf]
  have hR : tally Token.guards R = 0 := by
    refine tally_eq_zero fun x hx => ?_
    cases x with
    | transition phase => exact absurd hx (hnone phase)
    | _ => rfl
  refine ⟨⟨?_, ?_, hrunning, hstopped, ?_, h.staged.current, h.staged.fresh, h.staged.manned,
    h.staged.halted, h.staged.ended⟩, fun i => ?_, fun i a ha => ?_, ⟨?_, hleases, ?_⟩, ?_⟩
  · rw [tally_add, hp.guards, hR, hcard]
    rfl
  · intro phase hmem
    rcases Multiset.mem_add.mp hmem with hmem | hmem
    · exact hfits phase hmem
    · exact absurd hmem (hnone phase)
  · intro x hx i hk
    rcases Multiset.mem_add.mp hx with hx | hx
    · obtain ⟨phase, rfl⟩ := hp x hx
      exact absurd hk (hknown phase hx i)
    · exact h.staged.known x (Multiset.mem_add.mpr (.inr hx)) i hk
  · have hsound := h.sound i
    rw [tally_add, tally_add] at hsound ⊢
    rw [hzero fun _ => rfl, hzero fun _ => rfl]
    exact hsound
  · rcases Multiset.mem_add.mp ha with ha | ha
    · obtain ⟨phase, he⟩ := hp _ ha
      cases he
    · exact h.activity i a (Multiset.mem_add.mpr (.inr ha))
  · have hcount := h.leased.count
    rw [tally_add] at hcount ⊢
    rw [hzero fun _ => rfl]
    exact hcount
  · intro x hx i hb
    rcases Multiset.mem_add.mp hx with hx | hx
    · obtain ⟨phase, rfl⟩ := hp x hx
      cases hb
    · exact h.leased.bound x (Multiset.mem_add.mpr (.inr hx)) i hb
  · refine h.enrolled.like rfl (fun _ => rfl) (fun _ => hzero fun _ => rfl) fun i => ?_
    rw [hzero fun _ => rfl]
    rfl

private theorem official_zero : Official 0 := by simp [Official]

private theorem official_singleton (phase : Phase) : Official {.transition phase} := by
  simp [Official]

theorem Inv.beginInitialize (h : Inv w (0 + R)) (hs : w.state = .uninitialized) :
    Inv { w with state := .initializing } ({.transition .create} + R) := by
  have hnone := h.staged.untouched (by simp [hs]) (by simp [hs])
  refine h.shift official_zero (official_singleton _) ?_ rfl ?_ ?_ (by simp) (by simp) ?_
  · simpa using hnone
  · intro phase hmem
    obtain rfl : phase = .create := by simpa using hmem
    exact ⟨rfl, h.staged.uninitialized hs⟩
  · intro phase hmem i hk
    obtain rfl : phase = .create := by simpa using hmem
    cases hk
  · intro hpos
    rw [h.leased.running hpos] at hs
    cases hs

theorem Inv.commitInitialize (h : Inv w ({.transition .ready} + R)) :
    Inv { w with state := .running } (0 + R) :=
  h.shift (official_singleton _) official_zero h.staged.alone rfl (by simp) (by simp)
    (fun _ => h.fits.2) (by simp) fun _ => rfl

theorem Inv.rollbackInitialize (h : Inv w ({.transition .create} + R)) :
    Inv { w with state := .uninitialized } (0 + R) := by
  refine h.shift (official_singleton _) official_zero h.staged.alone rfl (by simp) (by simp)
    (by simp) (fun _ => h.fits.2) fun hpos => ?_
  have hst := h.fits.1
  rw [h.leased.running hpos] at hst
  cases hst

theorem Inv.beginShutdown (h : Inv w (0 + R)) (hs : w.state = .running) (hzero : w.leases = 0) :
    Inv { w with state := .shuttingDown } ({.transition .stop} + R) := by
  have hnone := h.staged.untouched (by simp [hs]) (by simp [hs])
  refine h.shift official_zero (official_singleton _) ?_ rfl ?_ ?_ (by simp) (by simp) ?_
  · simpa using hnone
  · intro phase hmem
    obtain rfl : phase = .stop := by simpa using hmem
    exact ⟨rfl, h.staged.running hs⟩
  · intro phase hmem i hk
    obtain rfl : phase = .stop := by simpa using hmem
    cases hk
  · intro hpos
    omega

theorem Inv.rollbackShutdown (h : Inv w ({.transition .stop} + R)) :
    Inv { w with state := .running } (0 + R) :=
  h.shift (official_singleton _) official_zero h.staged.alone rfl (by simp) (by simp)
    (fun _ => h.fits.2) (by simp) fun _ => rfl

theorem Inv.commitShutdown (h : Inv w ({.transition .closed} + R)) :
    Inv { w with state := .uninitialized } (0 + R) := by
  refine h.shift (official_singleton _) official_zero h.staged.alone rfl (by simp) (by simp)
    (by simp) (fun _ => h.fits.2) fun hpos => ?_
  have hst := h.fits.1
  rw [h.leased.running hpos] at hst
  cases hst

/-- A call that owns a transition guard excludes leases, and with them live timers. -/
theorem Inv.no_leases {M : Multiset Token} (h : Inv w M)
    (hst : w.state ≠ .running) : w.leases = 0 := by
  by_contra hne
  exact hst (h.leased.running (Nat.pos_of_ne_zero hne))

theorem Inv.not_bound {M : Multiset Token} (h : Inv w M) (hst : w.state ≠ .running) {x : Token}
    (hx : x ∈ M) : ¬ x.Bound g := by
  intro hb
  have hzero := h.no_leases hst
  cases x with
  | lease b =>
    have hpos := h.leases_pos hx (Nat.one_pos : 0 < (Token.lease b).leases)
    omega
  | last b id =>
    have hle : Token.entries id (.last b id) ≤ tally (Token.entries id) M := le_tally hx
    have hentry := h.enrolled.entry id
    simp only [Token.entries, if_true] at hle
    have halive : 0 < w.aliveOf id := by omega
    have hpos := h.leases_of_aliveOf halive
    omega
  | _ => cases hb

private theorem phases_like {phase phase' : Phase} (h : Inv w ({.transition phase} + R))
    (x : Token) (hx : x ∈ ({.transition phase'} : Multiset Token) + R) :
    x = .transition phase' ∨ (x ∈ R ∧ ∀ q, x ≠ .transition q) := by
  rcases Multiset.mem_add.mp hx with hx | hx
  · exact .inl (Multiset.mem_singleton.mp hx)
  · refine .inr ⟨hx, fun q he => ?_⟩
    subst he
    exact h.staged.alone q hx

theorem Inv.create (h : Inv w ({.transition .create} + R)) (hslot : w.slot = .stopped) :
    Inv { w.adjust w.created fun s => { s with refs := 1 } with
        slot := .running w.created false, created := w.created + 1 }
      ({.transition .started} + R) := by
  have hst := h.fits.1
  have hnew := h.staged.fresh w.created (Nat.le_refl _)
  have hold := h.sound w.created
  simp only [hnew, tally_add, tally_singleton, Token.refs, Token.loops, Nat.zero_add] at hold
  have hcounted := hold.counted
  simp only [Service.new, Bool.toNat_false] at hcounted
  have hR : tally (Token.refs w.created) R = 0 ∧ tally (Token.loops w.created) R = 0 := by omega
  generalize hw' : { w.adjust w.created fun s => { s with refs := 1 } with
        slot := .running w.created false, created := w.created + 1 } = w'
  have hservices : w'.services = Function.update w.services w.created { Service.new with refs := 1 } := by
    rw [← hw', ← hnew]
    rfl
  obtain ⟨hslot', hcreated, hstate, hleases, hobjects, hhandles⟩ :
      w'.slot = .running w.created false ∧ w'.created = w.created + 1 ∧ w'.state = w.state ∧
        w'.leases = w.leases ∧ w'.objects = w.objects ∧ w'.handles = w.handles := by
    rw [← hw']
    exact ⟨rfl, rfl, rfl, rfl, rfl, rfl⟩
  have hself : w'.services w.created = { Service.new with refs := 1 } := by
    rw [hservices, Function.update_self]
  have hother : ∀ i, i ≠ w.created → w'.services i = w.services i := by
    intro i hi
    rw [hservices, Function.update_of_ne hi]
  have halive : w'.alive = w.alive ∧ (∀ id, w'.aliveOf id = w.aliveOf id) ∧
      ∀ φ, w'.stock φ = w.stock φ := by
    simp only [World.alive, World.aliveOf, World.stock, hslot, hslot', hself, Slot.service]
    exact ⟨rfl, fun _ => rfl, fun _ => rfl⟩
  refine ⟨⟨?_, ?_, ?_, ?_, ?_, ?_, ?_, ?_, ?_, ?_⟩, fun i => ?_, fun i a ha => ?_, ⟨?_, ?_, ?_⟩, ?_⟩
  · have hguard := h.staged.guard
    rw [hstate]
    simpa [Token.guards] using hguard
  · intro phase hmem
    rcases phases_like h _ hmem with he | ⟨-, hne⟩
    · cases he
      exact ⟨hstate.trans hst, w.created, false, hslot', by rw [hself]; rfl⟩
    · exact absurd rfl (hne phase)
  · intro hrun
    rw [hstate, hst] at hrun
    cases hrun
  · intro hun
    rw [hstate, hst] at hun
    cases hun
  · intro x hx i hk
    rw [hcreated]
    rcases phases_like h x hx with rfl | ⟨hx, -⟩
    · cases hk
    · exact Nat.lt_succ_of_lt (h.staged.known x (Multiset.mem_add.mpr (.inr hx)) i hk)
  · intro i hi
    rw [hslot'] at hi
    obtain rfl : w.created = i := by simpa [Slot.service] using hi
    rw [hcreated]
    exact Nat.lt_succ_self _
  · intro i hi
    rw [hcreated] at hi
    rw [hother i (by omega)]
    exact h.staged.fresh i (by omega)
  · intro i worker hi
    rw [hslot'] at hi
    cases hi
    rw [hself]
    rfl
  · intro i hi hs
    rw [hcreated] at hi
    have hne : i ≠ w.created := by
      rintro rfl
      exact hs false hslot'
    rw [hother i hne]
    refine h.staged.halted i (by omega) fun worker hrun => ?_
    rw [hslot] at hrun
    cases hrun
  · intro i hi hsp
    have hne : i ≠ w.created := by
      rintro rfl
      exact hi (by rw [hslot']; rfl)
    rw [hother i hne] at hsp ⊢
    exact h.staged.ended i (by simp [hslot, Slot.service]) hsp
  · by_cases hi : i = w.created
    · subst hi
      simp only [hself, hslot', tally_add, tally_singleton, Token.refs, Token.loops, hR.1, hR.2]
      refine ⟨Registry.wf_new, rfl, fun _ => rfl, by simp [Slot.holds, Service.new], ?_⟩
      intro hs
      cases hs
    · have hsound := h.sound i
      simp only [tally_add, tally_singleton, Token.refs, Token.loops, Nat.zero_add] at hsound ⊢
      rw [hother i hi]
      have hheld : w'.slot.holds i = w.slot.holds i := by
        simp [Slot.holds, hslot, hslot', Ne.symm hi]
      rwa [hheld]
  · have ha' : .loop i a ∈ R := by simpa using ha
    have hne : i ≠ w.created := by
      rintro rfl
      have hle : Token.loops w.created (.loop w.created a) ≤ tally (Token.loops w.created) R :=
        le_tally ha'
      simp only [Token.loops, if_true] at hle
      omega
    rw [hother i hne]
    exact h.activity i a (Multiset.mem_add.mpr (.inr ha'))
  · have hcount := h.leased.count
    rw [hleases, hobjects, halive.1]
    simpa [Token.leases] using hcount
  · intro hpos
    rw [hstate]
    exact h.leased.running (hleases ▸ hpos)
  · intro x hx i hb
    rcases phases_like h x hx with rfl | ⟨hx, -⟩
    · cases hb
    · exact absurd hb (h.not_bound (by simp [hst]) (Multiset.mem_add.mpr (.inr hx)))
  · refine h.enrolled.like hhandles halive.2.1 ?_ fun i => ?_
    · simp [Token.entries]
    · rw [halive.2.2]
      simp [Token.clones]

theorem Inv.halt (h : Inv w ({.transition (.cleared g)} + R)) :
    Inv (w.adjust g fun s => { s with registry := { s.registry with stopRequested := true } })
      ({.transition (.halted g)} + R) := by
  obtain ⟨hst, hnil, worker, hslot, hstop⟩ := h.fits
  have hg := h.known_of_slot hslot
  have hsound := h.sound g
  generalize hw' : w.adjust g (fun s => { s with registry := { s.registry with stopRequested := true } })
    = w'
  have hservices : w'.services = Function.update w.services g
      { w.services g with registry := { (w.services g).registry with stopRequested := true } } := by
    rw [← hw']
    rfl
  obtain ⟨hslot', hcreated, hstate, hleases, hobjects, hhandles⟩ :
      w'.slot = w.slot ∧ w'.created = w.created ∧ w'.state = w.state ∧
        w'.leases = w.leases ∧ w'.objects = w.objects ∧ w'.handles = w.handles := by
    rw [← hw']
    exact ⟨rfl, rfl, rfl, rfl, rfl, rfl⟩
  have hself : w'.services g =
      { w.services g with registry := { (w.services g).registry with stopRequested := true } } := by
    rw [hservices, Function.update_self]
  have hother : ∀ i, i ≠ g → w'.services i = w.services i := by
    intro i hi
    rw [hservices, Function.update_of_ne hi]
  have hspawned : ∀ i, (w'.services i).spawned = (w.services i).spawned ∧
      (w'.services i).finished = (w.services i).finished := by
    intro i
    by_cases hi : i = g
    · subst hi
      rw [hself]
      exact ⟨rfl, rfl⟩
    · rw [hother i hi]
      exact ⟨rfl, rfl⟩
  obtain ⟨halive, haliveOf⟩ := World.counts_of_update hslot' hservices rfl fun _ => rfl
  have hstock : ∀ φ, w'.stock φ = w.stock φ := by
    intro φ
    have hsum := World.stock_of_update (φ := φ) hslot' hservices
    change _ + _ = w.stock φ + (if w.slot.service = some g then (w.services g).stock φ else 0) at hsum
    omega
  refine ⟨⟨?_, ?_, ?_, ?_, ?_, ?_, ?_, ?_, ?_, ?_⟩, fun i => ?_, fun i a ha => ?_, ⟨?_, ?_, ?_⟩, ?_⟩
  · have hguard := h.staged.guard
    rw [hstate]
    simpa [Token.guards] using hguard
  · intro phase hmem
    rcases phases_like h _ hmem with he | ⟨-, hne⟩
    · cases he
      exact ⟨hstate.trans hst, worker, hslot'.trans hslot, by rw [hself]⟩
    · exact absurd rfl (hne phase)
  · intro hrun
    rw [hstate, hst] at hrun
    cases hrun
  · intro hun
    rw [hstate, hst] at hun
    cases hun
  · intro x hx i hk
    rw [hcreated]
    rcases phases_like h x hx with rfl | ⟨hx, -⟩
    · exact hk ▸ hg
    · exact h.staged.known x (Multiset.mem_add.mpr (.inr hx)) i hk
  · intro i hi
    rw [hslot'] at hi
    rw [hcreated]
    exact h.staged.current i hi
  · intro i hi
    rw [hcreated] at hi
    rw [hother i (by omega)]
    exact h.staged.fresh i hi
  · intro i worker' hi
    rw [hslot'] at hi
    rw [(hspawned i).1]
    exact h.staged.manned i worker' hi
  · intro i hi hs
    have hne : i ≠ g := by
      rintro rfl
      exact hs worker (hslot'.trans hslot)
    rw [hother i hne]
    exact h.staged.halted i (hcreated ▸ hi) fun worker' hrun => hs worker' (hslot'.trans hrun)
  · intro i hi hsp
    rw [(hspawned i).1] at hsp
    rw [(hspawned i).2]
    exact h.staged.ended i (hslot' ▸ hi) hsp
  · by_cases hi : i = g
    · subst hi
      simp only [hself, hslot', tally_add, tally_singleton, Token.refs, Token.loops, Nat.zero_add]
        at hsound ⊢
      exact ⟨hsound.wf.halt, hsound.life, hsound.resting, hsound.counted, fun _ => hnil⟩
    · have hi' := h.sound i
      simp only [tally_add, tally_singleton, Token.refs, Token.loops, Nat.zero_add] at hi' ⊢
      rwa [hother i hi, hslot']
  · have ha' : .loop i a ∈ R := by simpa using ha
    have hfits := h.activity i a (Multiset.mem_add.mpr (.inr ha'))
    by_cases hi : i = g
    · subst hi
      rw [hself]
      exact hfits.mono rfl fun _ => rfl
    · rwa [hother i hi]
  · have hcount := h.leased.count
    rw [hleases, hobjects, halive]
    simpa [Token.leases] using hcount
  · intro hpos
    rw [hstate]
    exact h.leased.running (hleases ▸ hpos)
  · intro x hx i hb
    rcases phases_like h x hx with rfl | ⟨hx, -⟩
    · cases hb
    · rw [hslot']
      exact h.leased.bound x (Multiset.mem_add.mpr (.inr hx)) i hb
  · refine h.enrolled.like hhandles haliveOf ?_ fun i => ?_
    · simp [Token.entries]
    · rw [hstock]
      simp [Token.clones]

private theorem Inv.reslot {slot : Slot} {phase phase' : Phase} {Y : Multiset Token}
    (h : Inv w ({.transition phase} + R)) (hst : w.state = .shuttingDown)
    (hY : ∀ y ∈ Y, y = .ref g) (hg : g < w.created)
    (hfits : phase'.Fits { w with slot }) (hknown : ∀ i, (Token.transition phase').Knows i → i = g)
    (hservice : ∀ i, slot.service = some i → i = g) (hslot : ∀ i worker, slot ≠ .running i worker)
    (hhalted : ∀ i, i < w.created → (w.services i).registry.stopRequested = true)
    (hended : ∀ i, slot.service ≠ some i → (w.services i).spawned = true →
      (w.services i).finished = true)
    (hheld : ∀ i, slot.holds i + tally (Token.refs i) Y = w.slot.holds i)
    (hstock : ∀ φ, World.stock φ { w with slot } = w.stock φ) :
    Inv { w with slot } ({.transition phase'} + Y + R) := by
  have htally : ∀ {f : Token → Nat}, (∀ q, f (.transition q) = 0) → f (.ref g) = 0 →
      tally f ({.transition phase'} + Y) = tally f {.transition phase} := by
    intro f h₁ h₂
    rw [tally_add, tally_singleton, tally_singleton, h₁, h₁,
      tally_eq_zero (M := Y) fun y hy => by rw [hY y hy, h₂]]
  have hmem : ∀ x, x ∈ ({.transition phase'} : Multiset Token) + Y + R →
      x = .transition phase' ∨ x = .ref g ∨ x ∈ R := by
    intro x hx
    rcases Multiset.mem_add.mp hx with hx | hx
    · rcases Multiset.mem_add.mp hx with hx | hx
      · exact .inl (Multiset.mem_singleton.mp hx)
      · exact .inr (.inl (hY x hx))
    · exact .inr (.inr hx)
  have hnil : ∀ i, (w.services i).registry.timers = [] := by
    intro i
    by_cases hi : i < w.created
    · exact (h.sound i).emptied (hhalted i hi)
    · rw [h.staged.fresh i (Nat.le_of_not_lt hi)]
      rfl
  have hcounts := fun i => Registry.counts_nil (φ := fun _ _ => 0) (hnil i)
  have halive : w.alive = 0 ∧ ∀ id, w.aliveOf id = 0 := by
    simp only [World.alive, World.aliveOf]
    refine ⟨?_, fun id => ?_⟩
    · split
      · exact (hcounts _).1
      · rfl
    · split
      · exact (hcounts _).2.1 id
      · rfl
  have halive' : World.alive { w with slot } = 0 ∧ ∀ id, World.aliveOf { w with slot } id = 0 := by
    cases slot with
    | running i worker => exact absurd rfl (hslot i worker)
    | stopped | stopping => exact ⟨rfl, fun _ => rfl⟩
  refine ⟨⟨?_, ?_, ?_, ?_, ?_, ?_, h.staged.fresh, ?_, ?_, hended⟩, fun i => ?_, fun i a ha => ?_,
    ⟨?_, h.leased.running, ?_⟩, ?_⟩
  · have hguard := h.staged.guard
    have hrest : tally Token.guards Y = 0 := tally_eq_zero fun y hy => by rw [hY y hy]; rfl
    simp only [tally_add, tally_singleton, Token.guards, hrest] at hguard ⊢
    exact hguard
  · intro q hq
    rcases hmem _ hq with he | he | hq
    · cases he
      exact hfits
    · cases he
    · exact absurd hq (h.staged.alone q)
  · intro hrun
    change w.state = .running at hrun
    rw [hst] at hrun
    cases hrun
  · intro hun
    change w.state = .uninitialized at hun
    rw [hst] at hun
    cases hun
  · intro x hx i hk
    rcases hmem x hx with rfl | rfl | hx
    · rw [hknown i hk]
      exact hg
    · rw [← show g = i from hk]
      exact hg
    · exact h.staged.known x (Multiset.mem_add.mpr (.inr hx)) i hk
  · intro i hi
    rw [hservice i hi]
    exact hg
  · intro i worker hi
    exact absurd hi (hslot i worker)
  · intro i hi _
    exact hhalted i hi
  · have hsound := h.sound i
    have hheld := hheld i
    have hloops : tally (Token.loops i) Y = 0 := tally_eq_zero fun y hy => by rw [hY y hy]; rfl
    simp only [tally_add, tally_singleton, Token.refs, Token.loops, Nat.zero_add, hloops] at hsound ⊢
    refine ⟨hsound.wf, hsound.life, hsound.resting, ?_, hsound.emptied⟩
    have hcounted := hsound.counted
    change (w.services i).refs = slot.holds i + _ + _ + _
    omega
  · rcases hmem _ ha with he | he | ha
    · cases he
    · cases he
    · exact h.activity i a (Multiset.mem_add.mpr (.inr ha))
  · have hcount := h.leased.count
    rw [tally_add] at hcount ⊢
    rw [htally (fun _ => rfl) rfl, halive'.1]
    rw [halive.1] at hcount
    exact hcount
  · intro x hx i hb
    rcases hmem x hx with rfl | rfl | hx
    · cases hb
    · cases hb
    · exact absurd hb (h.not_bound (by simp [hst]) (Multiset.mem_add.mpr (.inr hx)))
  · refine h.enrolled.like rfl (fun id => ?_) (fun id => htally (fun _ => rfl) rfl) fun id => ?_
    · rw [halive'.2, halive.2]
    · rw [htally (fun _ => rfl) rfl, hstock]

theorem Inv.stopping {worker kept : Bool} (h : Inv w ({.transition (.halted g)} + R))
    (hslot : w.slot = .running g worker) :
    Inv { w with slot := .stopping g kept }
      ({.transition (.draining g worker)} + (if kept = true then 0 else {.ref g}) + R) := by
  obtain ⟨hst, worker', hslot', hstop⟩ := h.fits
  have hmanned := h.staged.manned g worker hslot
  refine h.reslot hst ?_ (h.known_of_slot hslot) ⟨hst, ⟨kept, rfl⟩, hmanned⟩ (fun i hk => hk.symm)
    (fun i hi => (Option.some.inj hi).symm) (by simp) ?_ ?_ ?_ ?_
  · cases kept <;> simp
  · intro i hi
    by_cases hig : i = g
    · rw [hig, hstop]
    · refine h.staged.halted i hi fun worker'' hrun => ?_
      rw [hslot] at hrun
      cases hrun
      exact hig rfl
  · intro i hi hsp
    refine h.staged.ended i ?_ hsp
    rw [hslot]
    exact hi
  · intro i
    cases kept <;> simp [Slot.holds, hslot, Token.refs]
  · intro φ
    simp [World.stock, Slot.service, hslot]

theorem Inv.cleanUp {i : Nat} {kept : Bool} (h : Inv w ({.transition (.drained g)} + R))
    (hslot : w.slot = .stopping i kept) :
    Inv { w with slot := .stopped }
      ({.transition .stopped} + (if kept = true then {.ref i} else 0) + R) := by
  obtain ⟨hst, ⟨kept', hslot'⟩, hfin⟩ := h.fits
  obtain rfl : g = i := by
    rw [hslot] at hslot'
    cases hslot'
    rfl
  have hg : g < w.created := h.staged.current g (by rw [hslot]; rfl)
  have hnr : ∀ i worker, w.slot ≠ .running i worker := by
    intro i worker
    rw [hslot]
    exact fun he => by cases he
  have hidle : (w.services g).hand = .idle := by
    have hsound := h.sound g
    have hlife := hsound.life
    have hspawned := Bool.toNat_le (w.services g).spawned
    refine hsound.resting ?_
    cases hs : (w.services g).spawned with
    | false =>
      rw [hs, Bool.toNat_false] at hlife
      omega
    | true =>
      rw [hs, hfin hs, Bool.toNat_true] at hlife
      omega
  refine h.reslot hst ?_ hg ⟨hst, rfl⟩ (fun i hk => by cases hk) (fun i hi => by cases hi)
    (by simp) ?_ ?_ ?_ ?_
  · cases kept <;> simp
  · intro i hi
    exact h.staged.halted i hi (hnr i)
  · intro i _ hsp
    by_cases hig : i = g
    · subst hig
      exact hfin hsp
    · refine h.staged.ended i ?_ hsp
      rw [hslot]
      exact fun hi => hig (Option.some.inj hi).symm
  · intro j
    cases kept <;> simp [Slot.holds, hslot, Token.refs]
  · intro φ
    have hnil := h.timers_nil (hnr g)
    simp [World.stock, Slot.service, hslot, Service.stock, hidle, Hand.weight,
      (Registry.counts_nil (φ := φ) hnil).2.2]

theorem Inv.spawn (h : Inv w R) (hslot : w.slot = .running g false) :
    Inv { w.adjust g fun s => { s with refs := s.refs + 1, spawned := true, ready := true } with
        slot := .running g true } R := by
  have hg := h.known_of_slot hslot
  have hsound := h.sound g
  have hmanned := h.staged.manned g false hslot
  have hlife := hsound.life
  rw [← hmanned, Bool.toNat_false] at hlife
  have hfin : (w.services g).finished = false := by
    cases hf : (w.services g).finished with
    | false => rfl
    | true =>
      rw [hf, Bool.toNat_true] at hlife
      omega
  have hready : (w.services g).ready.toNat = 0 := by omega
  have hloops : tally (Token.loops g) R = 0 := by omega
  generalize hw' : { w.adjust g fun s =>
      { s with refs := s.refs + 1, spawned := true, ready := true } with
        slot := .running g true } = w'
  have hservices : w'.services = Function.update w.services g
      { w.services g with refs := (w.services g).refs + 1, spawned := true, ready := true } := by
    rw [← hw']
    rfl
  obtain ⟨hslot', hcreated, hstate, hleases, hobjects, hhandles⟩ :
      w'.slot = .running g true ∧ w'.created = w.created ∧ w'.state = w.state ∧
        w'.leases = w.leases ∧ w'.objects = w.objects ∧ w'.handles = w.handles := by
    rw [← hw']
    exact ⟨rfl, rfl, rfl, rfl, rfl, rfl⟩
  have hother : ∀ i, i ≠ g → w'.services i = w.services i := by
    intro i hi
    rw [hservices, Function.update_of_ne hi]
  have hself : w'.services g =
      { w.services g with refs := (w.services g).refs + 1, spawned := true, ready := true } := by
    rw [hservices, Function.update_self]
  have hregistry : ∀ i, (w'.services i).registry = (w.services i).registry ∧
      (w'.services i).hand = (w.services i).hand := by
    intro i
    by_cases hi : i = g
    · subst hi
      rw [hself]
      exact ⟨rfl, rfl⟩
    · rw [hother i hi]
      exact ⟨rfl, rfl⟩
  have hservice : w'.slot.service = w.slot.service := by rw [hslot, hslot']; rfl
  have hserving : w.Serving → w'.Serving := by
    rintro ⟨i, worker, hi, hstop⟩
    rw [hslot] at hi
    cases hi
    exact ⟨g, true, hslot', by rwa [(hregistry g).1]⟩
  refine ⟨⟨?_, ?_, ?_, ?_, ?_, ?_, ?_, ?_, ?_, ?_⟩, fun i => ?_, fun i a ha => ?_, ⟨?_, ?_, ?_⟩,
    ⟨fun id => ?_, fun id => ?_⟩⟩
  · rw [hstate]
    exact h.staged.guard
  · intro phase hmem
    have hfits := h.staged.fits phase hmem
    cases phase with
    | create | stopped | closed => exact absurd (hslot.symm.trans hfits.2) (by simp)
    | draining | drained =>
      obtain ⟨kept, hstopping⟩ := hfits.2.1
      exact absurd (hslot.symm.trans hstopping) (by simp)
    | started | ready | stop => exact ⟨hstate.trans hfits.1, hserving hfits.2⟩
    | checking i | halted i =>
      obtain ⟨hst, worker, hi, hstop⟩ := hfits
      rw [hslot] at hi
      cases hi
      exact ⟨hstate.trans hst, true, hslot', by rwa [(hregistry _).1]⟩
    | cleared i =>
      obtain ⟨hst, hnil, worker, hi, hstop⟩ := hfits
      rw [hslot] at hi
      cases hi
      exact ⟨hstate.trans hst, by rwa [(hregistry _).1], true, hslot', by rwa [(hregistry _).1]⟩
  · intro hrun
    exact hserving (h.staged.running (hstate ▸ hrun))
  · intro hun
    have hstopped := h.staged.uninitialized (hstate ▸ hun)
    rw [hslot] at hstopped
    cases hstopped
  · intro x hx i hk
    rw [hcreated]
    exact h.staged.known x hx i hk
  · intro i hi
    rw [hcreated]
    exact h.staged.current i (hservice ▸ hi)
  · intro i hi
    rw [hcreated] at hi
    rw [hother i (by omega)]
    exact h.staged.fresh i hi
  · intro i worker hi
    rw [hslot'] at hi
    cases hi
    rw [hself]
  · intro i hi hs
    rw [(hregistry i).1]
    refine h.staged.halted i (hcreated ▸ hi) fun worker hrun => ?_
    rw [hslot] at hrun
    cases hrun
    exact hs true hslot'
  · intro i hi hsp
    have hne : i ≠ g := by
      rintro rfl
      exact hi (by rw [hslot']; rfl)
    rw [hother i hne] at hsp ⊢
    exact h.staged.ended i (hservice ▸ hi) hsp
  · have hheld : w'.slot.holds i = w.slot.holds i := by rw [hslot, hslot']; rfl
    rw [hheld]
    by_cases hi : i = g
    · subst hi
      rw [hself]
      have hcounted := hsound.counted
      refine ⟨hsound.wf, ?_, hsound.resting, ?_, hsound.emptied⟩
      · simp [hloops, hfin]
      · simp only [Bool.toNat_true]
        omega
    · rw [hother i hi]
      exact h.sound i
  · refine (h.activity i a ha).mono (hregistry i).2 fun hs => ?_
    rwa [(hregistry i).1]
  · have hcount := h.leased.count
    rw [hleases, hobjects]
    simpa [World.alive, hslot, hslot', (hregistry g).1] using hcount
  · intro hpos
    rw [hstate]
    exact h.leased.running (hleases ▸ hpos)
  · intro x hx i hb
    obtain ⟨worker, hi⟩ := h.leased.bound x hx i hb
    rw [hslot] at hi
    cases hi
    exact ⟨true, hslot'⟩
  · have hentry := h.enrolled.entry id
    rw [hhandles]
    simpa [World.aliveOf, hslot, hslot', (hregistry g).1] using hentry
  · have hclones := h.enrolled.clones id
    rw [hhandles]
    simpa [World.stock, hslot, hslot', Slot.service, Service.stock, (hregistry g).1, (hregistry g).2]
      using hclones

end Transitions

/-! ## Every exchange -/

private theorem Handles.gain_erase {h : Handles} {captured : Nat} {captures : List Nat}
    (hmem : captured ∈ captures) (id : Nat) :
    (h.gain captured).owned id + (captures.erase captured).count id =
      h.owned id + captures.count id := by
  by_cases hid : id = captured
  · subst hid
    have hpos : 0 < captures.count id := List.count_pos_iff.mpr hmem
    simp only [Handles.gain, Function.update_self, List.count_erase_self]
    omega
  · simp only [Handles.gain, Function.update_of_ne hid, List.count_erase_of_ne hid]

private theorem Handles.give_cons {h : Handles} {captured : Nat} {captures : List Nat}
    (hown : 0 < h.owned captured) (id : Nat) :
    (h.give captured).owned id + (captured :: captures).count id =
      h.owned id + captures.count id := by
  by_cases hid : id = captured
  · subst hid
    simp only [Handles.give, Function.update_self, List.count_cons_self]
    omega
  · simp only [Handles.give, Function.update_of_ne hid, List.count_cons_of_ne (Ne.symm hid)]

/-- Every exchange keeps the invariant, whatever else the threads own. -/
theorem Exchange.inv {w w' : World} {c p : Multiset Token} {l : Label} (hx : Exchange w c l w' p) :
    ∀ R, Inv w (c + R) → Inv w' (p + R) := by
  induction hx with
  | idle => exact fun R h => h
  | frame R' _ ih =>
    intro R h
    rw [add_assoc] at h ⊢
    exact ih (R' + R) h
  | before _ _ _ ih₁ ih₂ => exact fun R h => ih₂ R (ih₁ R h)
  | after _ _ _ ih₁ ih₂ => exact fun R h => ih₂ R (ih₁ R h)
  | beginInitialize hst => exact fun R h => h.beginInitialize hst
  | create hslot => exact fun R h => h.create hslot
  | configure =>
    intro R h
    have hready : Inv _ ({.transition .ready} + R) := h.transition h.fits fun g hk => by cases hk
    exact hready.aside true _
  | commitInitialize => exact fun R h => h.commitInitialize
  | rollbackInitialize => exact fun R h => h.rollbackInitialize
  | beginShutdown hst hzero => exact fun R h => h.beginShutdown hst hzero
  | check hslot =>
    intro R h
    obtain ⟨hst, g, worker, hslot', hstop⟩ := h.fits
    rw [hslot] at hslot'
    cases hslot'
    refine h.transition ⟨hst, _, hslot, hstop⟩ fun g hk => ?_
    obtain rfl := hk
    exact h.known_of_slot hslot
  | refuse =>
    intro R h
    obtain ⟨hst, worker, hslot, hstop⟩ := h.fits
    exact h.transition ⟨hst, _, worker, hslot, hstop⟩ fun g hk => by cases hk
  | clear hnil =>
    intro R h
    obtain ⟨hst, worker, hslot, hstop⟩ := h.fits
    exact h.transition ⟨hst, hnil, worker, hslot, hstop⟩ fun g hk => h.knows hk
  | halt => exact fun R h => h.halt
  | stopping hslot => exact fun R h => h.stopping hslot
  | drained hfin =>
    intro R h
    obtain ⟨hst, hslot, rfl⟩ := h.fits
    exact h.transition ⟨hst, hslot, hfin⟩ fun g hk => h.knows hk
  | cleanUp hslot => exact fun R h => h.cleanUp hslot
  | deconfigure =>
    intro R h
    have hclosed : Inv _ ({.transition .closed} + R) :=
      h.transition h.fits fun g hk => by cases hk
    exact hclosed.aside false _
  | commitShutdown => exact fun R h => h.commitShutdown
  | rollbackShutdown => exact fun R h => h.rollbackShutdown
  | acquire hrun => exact fun R h => h.acquire hrun
  | dropLease => exact fun R h => h.dropLease
  | acquireObject hrun =>
    intro R h
    rw [zero_add] at h ⊢
    exact h.objects hrun (by omega)
  | dropObject hrun hpos =>
    intro R h
    rw [zero_add] at h ⊢
    have hcount := h.leased.count
    exact h.objects hrun (by omega)
  | bindLease hslot =>
    intro R h
    exact h.rebind (.inl ⟨⟨_, rfl⟩, _, rfl⟩) fun g hb => hb ▸ ⟨_, hslot⟩
  | unbindLease =>
    intro R h
    exact h.rebind (.inl ⟨⟨_, rfl⟩, _, rfl⟩) fun g hb => by cases hb
  | bindLast hslot =>
    intro R h
    exact h.rebind (.inr ⟨_, ⟨_, rfl⟩, _, rfl⟩) fun g hb => hb ▸ ⟨_, hslot⟩
  | share hslot => exact fun R h => h.share hslot
  | use hslot =>
    intro R h
    have hg := h.known_of_slot hslot
    refine h.swap ?_ ?_ ?_ ?_ ?_ ?_ ?_ ?_ ?_ ?_ <;>
      simp [Token.guards, Token.refs, Token.loops, Token.leases, Token.entries, Token.clones,
        Token.Bound, Token.Knows]
    exact hg
  | unuse =>
    intro R h
    refine h.swap ?_ ?_ ?_ ?_ ?_ ?_ ?_ ?_ ?_ ?_ <;>
      simp [Token.guards, Token.refs, Token.loops, Token.leases, Token.entries, Token.clones]
  | release => exact fun R h => h.release
  | destroy hrefs =>
    intro R h
    obtain ⟨hnil, hinv⟩ := h.destroy hrefs
    rw [hnil]
    exact hinv
  | serve hk _ hq hnew => exact fun R h => h.serve hk hq hnew
  | enroll _ hnew => exact fun R h => h.enroll hnew
  | remove => exact fun R h => h.remove
  | turnDown hslot =>
    intro R h
    obtain ⟨g, worker, hrun, -⟩ := World.running_of_aliveOf h.aliveOf_of_last
    exact absurd hrun (hslot g worker)
  | call hc => exact fun R h => h.calls (fun i => by simp) hc
  | adopt => exact fun R h => h.adopt
  | dropClone hs => exact fun R h => h.dropClone hs
  | dropLast hs => exact fun R h => h.dropLast hs
  | @dropClosure w callback =>
    intro R h
    have hopen : Inv w (clones callback + 0 + R) := h.open ?_ ?_ ?_ ?_ ?_ ?_ ?_
    · simpa using hopen
    all_goals simp [Token.guards, Token.refs, Token.loops, Token.leases, Token.entries,
      Token.clones]
  | dropRemoved =>
    intro R h
    refine h.open ?_ ?_ ?_ ?_ ?_ ?_ ?_ <;>
      simp [Token.guards, Token.refs, Token.loops, Token.leases, Token.entries, Token.clones,
        Token.Bound, Token.Knows]
  | dropRetired =>
    intro R h
    refine h.open ?_ ?_ ?_ ?_ ?_ ?_ ?_
    · simp [Token.clones]
    · simp [Token.guards]
    · simp [Token.leases]
    · simp [Token.refs]
    · simp [Token.loops]
    · simp [Token.entries]
    · intro y hy
      obtain rfl := Multiset.mem_singleton.mp hy
      refine ⟨by simp, fun g hk => hk, fun g hb => hb.elim, fun g a ha => ?_⟩
      cases ha
      have hidle := h.activity _ _ (Multiset.mem_add.mpr (.inl (Multiset.mem_singleton_self _)))
      exact hidle
  | spawn hslot =>
    intro R h
    rw [zero_add] at h ⊢
    exact h.spawn hslot
  | startWorker hready => exact fun R h => h.startWorker hready
  | purge hk =>
    intro R h
    obtain ⟨hnil, hinv⟩ := h.purge hk
    rw [hnil]
    exact hinv
  | select _ hsel => exact fun R h => h.select hsel
  | selectNone _ hsel hnone => exact fun R h => h.selectNone hsel hnone
  | begin hhand => exact fun R h => h.begin hhand
  | tick => exact fun R h => h.aside _ _
  | callbackIdle => exact fun R h => h
  | @callbackCall w g id callback i handles hhand hc =>
    intro R h
    have hcur := h.current_of_loop (Multiset.mem_add.mpr (.inl (Multiset.mem_singleton_self _)))
    rw [← zero_add (_ + R)] at h
    have hcalls := h.calls (fun j => ?_) hc
    · rwa [add_comm _ i.tokens, add_assoc]
    · simp [World.stock, hcur, Service.stock, hhand, Hand.weight]
  | callbackYields hhand hmem =>
    intro R h
    exact h.adapt hhand rfl (Handles.gain_erase hmem)
  | callbackCaptures hhand hown =>
    intro R h
    exact h.adapt hhand rfl (Handles.give_cons hown)
  | restore hhand => exact fun R h => h.restore hhand
  | observeStop hstop =>
    intro R h
    have hidle := h.activity _ _ (Multiset.mem_add.mpr (.inl (Multiset.mem_singleton_self _)))
    refine h.swap ?_ ?_ ?_ ?_ ?_ ?_ ?_ ?_ ?_ ?_
    · simp [Token.guards]
    · simp
    · intro x hx g hk
      obtain rfl := Multiset.mem_singleton.mp hx
      exact h.knows hk
    · simp [Token.refs]
    · simp [Token.loops]
    · intro g a ha
      cases Multiset.mem_singleton.mp ha
      exact ⟨hidle, hstop⟩
    · simp [Token.leases]
    · simp [Token.Bound]
    · simp [Token.entries]
    · simp [Token.clones]
  | finish => exact fun R h => h.finish

theorem machine_inv {tr : List Label} {s : World × Multiset Token} (hr : machine.Run tr s) :
    Inv s.1 s.2 := by
  obtain ⟨s₀, ⟨now, rfl⟩, hs⟩ := hr
  induction hs with
  | refl => exact inv_init now
  | snoc _ hstep ih =>
    have hinv := hstep.inv 0
    simp only [add_zero] at hinv
    exact hinv ih

end OsalRust.Timer
