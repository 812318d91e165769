import OsalRust.Shared.RuntimeInvariant

/-!
# Laws of the runtime lifecycle

The invariant in the words of the lifecycle, the impossibility of its panics, and its
linearizability: every call is one entry of the transition table at one point between its
invocation and its return.
-/

namespace OsalRust.Runtime

open Framework

variable {ι : Type} [DecidableEq ι] [Fintype ι] {w : UsizeWidth} {s s' : Lifecycle ι}
  {l : CallEvent ι LifecycleOp (Result Unit)} {tr : List (CallEvent ι LifecycleOp (Result Unit))}

omit [DecidableEq ι] in
private theorem alive_pos {k : Token} {t : ι} (h : (s.threads t).holds k = true) :
    0 < alive k s :=
  Nat.lt_of_lt_of_le (tally_pos h) (Nat.le_add_left _ _)

omit [DecidableEq ι] in
private theorem word_expected (h : Agrees w s) {t : ι} {op : SwapOp} (ht : s.threads t = .cas op)
    (hop : op ≠ .beginInitialize) : s.word = op.expected w := by
  have hword (state : RuntimeState) (hst : decodeState s.word = state) (hne : state ≠ .running) :
      s.word = encode w state 0 := by
    have hzero : decodeCount s.word = 0 := by
      by_contra hn
      exact hne (hst.symm.trans (h.counts.running (Nat.pos_of_ne_zero hn)))
    rw [h.canonical.encoded, hst, hzero]
  have hinit (hc : (LifecycleOp.swap op).consumes = some .initializeTransition) :
      decodeState s.word = .initializing := by
    have hpos : 0 < alive .initializeTransition s := alive_pos (t := t) (by simp [ht, Phase.holds, hc])
    by_contra hne
    simp [h.counts.initializing, decode, hne] at hpos
  have hshut (hc : (LifecycleOp.swap op).consumes = some .shutdownTransition) :
      decodeState s.word = .shuttingDown := by
    have hpos : 0 < alive .shutdownTransition s := alive_pos (t := t) (by simp [ht, Phase.holds, hc])
    by_contra hne
    simp [h.counts.shuttingDown, decode, hne] at hpos
  cases op with
  | beginInitialize => contradiction
  | initializeCommit | initializeDrop => exact hword _ (hinit rfl) (by decide)
  | shutdownCommit | shutdownDrop => exact hword _ (hshut rfl) (by decide)

omit [DecidableEq ι] in
private theorem not_panics (h : Agrees w s) (t : ι) (p : Panic) : ¬ Panics w s t p := by
  intro hp
  cases hp with
  | load op _ ht ha =>
    obtain ⟨rfl, hzero⟩ := attempt_panic h.canonical.count_le ha
    have hpos : 0 < alive .runtimeLease s := alive_pos (t := t) (by simp [ht, Phase.holds,
      LifecycleOp.consumes])
    have hcount : alive .runtimeLease s = decodeCount s.word := h.counts.lease
    have hn := hzero (h.counts.running (by rw [decode]; omega))
    omega
  | cas op _ ht hw hf =>
    by_cases hop : op = .beginInitialize
    · subst hop
      simp only [SwapOp.onFailure] at hf
      split at hf <;> contradiction
    · exact hw (word_expected h ht hop)

private theorem word_step (h : Agrees w s) (hs : LifecycleStep w s l s') :
    s'.word = s.word ∨ ∃ t op, l = .lin t op (.ok ()) ∧
      (lifecycleTable (maxCount w)).apply op (decode s.word) = some (.ok (), decode s'.word) := by
  by_cases hl : ∃ t op r, l = .lin t op r
  · obtain ⟨t, op, r, rfl⟩ := hl
    obtain ⟨htable, hc⟩ := lin_table h.canonical h.counts.running h.computed hs
    rcases table_cases htable with ⟨rfl, -⟩ | ⟨-, hdecode⟩
    · exact .inr ⟨t, op, rfl, htable⟩
    · left
      have hst : decodeState s'.word = decodeState s.word := congrArg Prod.fst hdecode
      have hn : decodeCount s'.word = decodeCount s.word := congrArg Prod.snd hdecode
      rw [hc.encoded, h.canonical.encoded, hst, hn]
  · left
    apply word_eq_of_step hs
    intro t op r he
    exact hl ⟨t, op, r, he⟩

private theorem decode_step (h : Agrees w s) (hs : LifecycleStep w s l s') :
    decode s'.word = decode s.word ∨ ∃ t op, l = .lin t op (.ok ()) ∧
      Transition (maxCount w) op (decode s.word) (decode s'.word) := by
  rcases word_step h hs with hword | ⟨t, op, hl, htable⟩
  · exact .inl (by rw [hword])
  · rcases table_cases htable with ⟨-, htr⟩ | ⟨⟨e, he⟩, -⟩
    · exact .inr ⟨t, op, hl, htr⟩
    · contradiction

/-- The invariant of the lifecycle. In every reachable state the word decodes to a state and a
count within the packing, the count is the number of live leases and positive only in
`Running`, at most one transition guard is alive and it is the one of the state; every step
changes state and count as the table says and no other way, so at the maximal count `acquire`
returns `Overflow` and leaves the word; and no assertion of the code can fail. -/
theorem lifecycle_invariant (h : (lifecycleLts ι w).Reachable s) :
    (s.word = encode w (decodeState s.word) (decodeCount s.word) ∧ s.word < 2 ^ w.bits ∧
      decodeCount s.word ≤ maxCount w) ∧
    decodeCount s.word = alive .runtimeLease s ∧
    (0 < decodeCount s.word → decodeState s.word = .running) ∧
    alive .initializeTransition s + alive .shutdownTransition s ≤ 1 ∧
    (alive .initializeTransition s = 1 ↔ decodeState s.word = .initializing) ∧
    (alive .shutdownTransition s = 1 ↔ decodeState s.word = .shuttingDown) ∧
    (∀ l s', LifecycleStep w s l s' → s'.word = s.word ∨
      ∃ t op, l = .lin t op (.ok ()) ∧ (lifecycleTable (maxCount w)).apply op
        (decodeState s.word, decodeCount s.word) =
          some (.ok (), decodeState s'.word, decodeCount s'.word)) ∧
    (decodeState s.word = .running → decodeCount s.word = maxCount w →
      acquire w s.word = .ok (.error .overflow)) ∧
    ∀ t p, ¬ Panics w s t p := by
  have ha := agrees_of_reachable h
  have hinit : alive .initializeTransition s =
      (decide (decodeState s.word = .initializing)).toNat := ha.counts.initializing
  have hshut : alive .shutdownTransition s =
      (decide (decodeState s.word = .shuttingDown)).toNat := ha.counts.shuttingDown
  refine ⟨⟨ha.canonical.encoded, ?_, ha.canonical.count_le⟩, ha.counts.lease.symm,
    ha.counts.running, ?_, ?_, ?_, ?_, ?_, not_panics ha⟩
  · rw [ha.canonical.encoded]
    exact encode_lt ha.canonical.count_le
  · rw [hinit, hshut]
    cases decodeState s.word <;> decide
  · rw [hinit]
    cases decodeState s.word <;> decide
  · rw [hshut]
    cases decodeState s.word <;> decide
  · intro l s' hs
    exact word_step ha hs
  · intro hst hmax
    simp only [acquire, hst, hmax, ne_eq, not_true_eq_false, if_false, Nat.le_refl, if_true]
    rfl

def initialized : Lifecycle Bool := ⟨encode width64 .running 0, fun _ => 0, fun _ => .idle⟩

private theorem initialized_run : (lifecycleLts Bool width64).Run
    [.invoke true (.swap .beginInitialize), .lin true (.swap .beginInitialize) (.ok ()),
      .ret true (.swap .beginInitialize) (.ok ()), .invoke true (.swap .initializeCommit),
      .lin true (.swap .initializeCommit) (.ok ()), .ret true (.swap .initializeCommit) (.ok ())]
    initialized := by
  have h₀ : (lifecycleLts Bool width64).Run [] ⟨0, fun _ => 0, fun _ => .idle⟩ := .start rfl
  have h₁ := h₀.snoc (.invoke _ true (.swap .beginInitialize) _ rfl rfl)
  have h₂ := h₁.snoc (.cas _ true .beginInitialize rfl rfl)
  have h₃ := h₂.snoc (.ret _ true (.swap .beginInitialize) (.ok ()) rfl)
  have h₄ := h₃.snoc (.invoke _ true (.swap .initializeCommit) _ rfl rfl)
  have h₅ := h₄.snoc (.cas _ true .initializeCommit rfl rfl)
  have h₆ := h₅.snoc (.ret _ true (.swap .initializeCommit) (.ok ()) rfl)
  convert h₆ using 1
  · rfl
  · apply Lifecycle.ext
    · rfl
    · funext k
      cases k <;> rfl
    · funext t
      cases t <;> rfl

/-- The runtime is initialized, and thread `true` holds a lease. -/
theorem lifecycle_invariant_leased :
    ∃ s, (lifecycleLts Bool width64).Reachable s ∧ alive .runtimeLease s = 1 ∧
      decodeCount s.word = alive .runtimeLease s ∧ ∀ t p, ¬ Panics width64 s t p := by
  have h₁ := initialized_run.reachable.snoc (.invoke _ true (.retry .acquire) _ rfl rfl)
  have h₂ := h₁.snoc (.load _ true .acquire (encode width64 .running 1) rfl rfl)
  have h₃ := h₂.snoc (.weakCas _ true .acquire _ _ rfl rfl)
  have hinv := lifecycle_invariant h₃
  exact ⟨_, h₃, by decide, hinv.2.1, hinv.2.2.2.2.2.2.2.2⟩

def Phase.status : Phase → SeqObject.Status LifecycleOp (Result Unit)
  | .idle => .idle
  | .load op | .weakCas op _ _ => .pending (.retry op)
  | .cas op => .pending (.swap op)
  | .returned op r => .decided op r

def observed (s : Lifecycle ι) : SeqObject.State (RuntimeState × Nat) LifecycleOp (Result Unit) ι :=
  ⟨decode s.word, fun t => (s.threads t).status⟩

omit [Fintype ι] in
private theorem observed_update (word : Nat) (owned : Token → Nat) (threads : ι → Phase) (t : ι)
    (p : Phase) : observed ⟨word, owned, Function.update threads t p⟩ =
      ⟨decode word, Function.update (fun u => (threads u).status) t p.status⟩ :=
  congrArg (SeqObject.State.mk _) (Function.comp_update Phase.status threads t p)

omit [Fintype ι] in
private theorem observed_internal {t : ι} {p : Phase} (hp : p.status = (s.threads t).status) :
    observed { s with threads := Function.update s.threads t p } = observed s := by
  rw [observed_update, hp]
  exact congrArg (SeqObject.State.mk _) (Function.update_eq_self t _)

private theorem observed_step (h : Agrees w s) (hs : LifecycleStep w s l s') :
    SeqObject.Step (lifecycleTable (maxCount w)) (observed s) l (observed s') := by
  have hlin {t : ι} {op : LifecycleOp} {r : Result Unit}
      (hs : LifecycleStep w s (.lin t op r) s') :=
    (lin_table h.canonical h.counts.running h.computed hs).1
  cases hs with
  | invoke t op owned ht ho =>
    have hentry : op.entry.status = .pending op := by cases op <;> rfl
    rw [observed_update, hentry]
    exact .invoke (observed s) t op (by simp only [observed, ht, Phase.status])
  | load t op next ht ha =>
    rw [observed_internal (by rw [ht]; rfl)]
    exact .internal _
  | loadFails t op e ht ha =>
    rw [observed_update]
    exact .lin (observed s) t (.retry op) (.error e) _ (by simp only [observed, ht, Phase.status])
      (hlin (.loadFails s t op e ht ha))
  | weakCas t op current next ht hw =>
    rw [observed_update]
    exact .lin (observed s) t (.retry op) (.ok ()) _ (by simp only [observed, ht, Phase.status])
      (hlin (.weakCas s t op current next ht hw))
  | weakCasFails t op current next ht =>
    rw [observed_internal (by rw [ht]; rfl)]
    exact .internal _
  | cas t op ht hw =>
    rw [observed_update]
    exact .lin (observed s) t (.swap op) (.ok ()) _ (by simp only [observed, ht, Phase.status])
      (hlin (.cas s t op ht hw))
  | casFails t op e ht hw hf =>
    rw [observed_update]
    exact .lin (observed s) t (.swap op) (.error e) _ (by simp only [observed, ht, Phase.status])
      (hlin (.casFails s t op e ht hw hf))
  | ret t op r ht =>
    rw [observed_update]
    exact .ret (observed s) t op r (by simp only [observed, ht, Phase.status])

/-- The lifecycle refines the atomic object of its transition table. -/
theorem run_observed (h : (lifecycleLts ι w).Run tr s) :
    ((lifecycleTable (maxCount w)).atomic ι).Run tr (observed s) := by
  apply h.map observed
  · rintro s rfl
    change observed _ = _
    rw [observed, decode_zero]
    rfl
  · intro s l s' hr hs
    exact observed_step (agrees_of_reachable hr) hs

private theorem lease_until_drop (hr : (lifecycleLts ι w).Reachable s)
    (hs : (lifecycleLts ι w).Steps s tr s') (hpos : 0 < (decode s.word).2) :
    (∃ v, .lin v (.retry .leaseDrop) (.ok ()) ∈ tr) ∨ 0 < (decode s'.word).2 := by
  refine hs.invariant (I := fun tr s' => (∃ v, .lin v (.retry .leaseDrop) (.ok ()) ∈ tr) ∨
    0 < (decode s'.word).2) hr (.inr hpos) ?_
  intro tr s₁ l s₂ hr₁ hi hl
  rcases hi with ⟨v, hv⟩ | hn
  · exact .inl ⟨v, List.mem_append_left _ hv⟩
  · rcases decode_step (agrees_of_reachable hr₁) hl with hsame | ⟨t, op, rfl, htr⟩
    · exact .inr (by rwa [hsame])
    · generalize decode s₁.word = a at htr hn
      generalize decode s₂.word = b at htr ⊢
      cases htr with
      | leaseDrop n => exact .inl ⟨t, by simp⟩
      | acquire n hlt => exact .inr (Nat.succ_pos n)
      | beginShutdown => contradiction
      | _ => exact .inr hn

private theorem not_running_until (hr : (lifecycleLts ι w).Reachable s)
    (hs : (lifecycleLts ι w).Steps s tr s') (hne : (decode s.word).1 ≠ .running) :
    (∃ v, .lin v (.swap .shutdownDrop) (.ok ()) ∈ tr ∨
      .lin v (.swap .initializeCommit) (.ok ()) ∈ tr) ∨ (decode s'.word).1 ≠ .running := by
  refine hs.invariant (I := fun tr s' => (∃ v, .lin v (.swap .shutdownDrop) (.ok ()) ∈ tr ∨
    .lin v (.swap .initializeCommit) (.ok ()) ∈ tr) ∨ (decode s'.word).1 ≠ .running) hr
    (.inr hne) ?_
  intro tr s₁ l s₂ hr₁ hi hl
  rcases hi with ⟨v, hv⟩ | hn
  · exact .inl ⟨v, hv.imp (List.mem_append_left _) (List.mem_append_left _)⟩
  · rcases decode_step (agrees_of_reachable hr₁) hl with hsame | ⟨t, op, rfl, htr⟩
    · exact .inr (by rwa [hsame])
    · generalize decode s₁.word = a at htr hn
      generalize decode s₂.word = b at htr ⊢
      cases htr with
      | shutdownDrop n => exact .inl ⟨t, .inl (by simp)⟩
      | initializeCommit n => exact .inl ⟨t, .inr (by simp)⟩
      | acquire n hlt => contradiction
      | leaseDrop n => contradiction
      | beginShutdown => contradiction
      | beginInitialize n | initializeDrop n | shutdownCommit n => exact .inr (by simp)

private theorem lin_transition {t : ι} {op : LifecycleOp} (hr : (lifecycleLts ι w).Reachable s)
    (hs : (lifecycleLts ι w).step s (.lin t op (.ok ())) s') :
    Transition (maxCount w) op (decode s.word) (decode s'.word) := by
  have h := agrees_of_reachable hr
  rcases table_cases (lin_table h.canonical h.counts.running h.computed hs).1 with ⟨-, htr⟩ | ⟨⟨e, he⟩, -⟩
  · exact htr
  · contradiction

/-- The lifecycle is linearizable against its table. A lease and a shutdown guard are never
alive together, and of an `acquire` and a `begin_shutdown` that both succeed the second one
finds the effect of the first undone: a lease was dropped in between, or the shutdown was
rolled back or the runtime initialized again. -/
theorem lifecycle_linearizable (h : (lifecycleLts ι w).Run tr s) :
    (lifecycleTable (maxCount w)).Linearizable tr (decode s.word) ∧
    (alive .runtimeLease s = 0 ∨ alive .shutdownTransition s = 0) ∧
    (∀ pre mid post t u, tr = pre ++ .lin t (.retry .acquire) (.ok ()) ::
        (mid ++ .lin u (.retry .beginShutdown) (.ok ()) :: post) →
      ∃ v, .lin v (.retry .leaseDrop) (.ok ()) ∈ mid) ∧
    (∀ pre mid post t u, tr = pre ++ .lin u (.retry .beginShutdown) (.ok ()) ::
        (mid ++ .lin t (.retry .acquire) (.ok ()) :: post) →
      ∃ v, .lin v (.swap .shutdownDrop) (.ok ()) ∈ mid ∨
        .lin v (.swap .initializeCommit) (.ok ()) ∈ mid) := by
  refine ⟨SeqObject.run_linearizable (run_observed h), ?_, ?_, ?_⟩
  · have ha := agrees_of_reachable h.reachable
    by_cases hzero : decodeCount s.word = 0
    · exact .inl (ha.counts.lease.trans hzero)
    · right
      have hst : decodeState s.word = .running := ha.counts.running (Nat.pos_of_ne_zero hzero)
      have hshut := ha.counts.shuttingDown
      rw [show (decode s.word).1 = .running from hst] at hshut
      exact hshut
  · rintro pre mid post t u rfl
    obtain ⟨s₁, s₂, h₁, hacquire, hrest⟩ := h.split
    obtain ⟨s₃, s₄, hmid, hshutdown, -⟩ := hrest.split
    have hr₂ := h₁.reachable.snoc hacquire
    have hpos : 0 < (decode s₂.word).2 := by
      have htr := lin_transition h₁.reachable hacquire
      generalize decode s₁.word = a at htr
      generalize decode s₂.word = b at htr ⊢
      cases htr with
      | acquire n hlt => exact Nat.succ_pos n
    rcases lease_until_drop hr₂ hmid hpos with hdrop | hpos'
    · exact hdrop
    · have htr := lin_transition (hr₂.steps hmid) hshutdown
      generalize decode s₃.word = a at htr hpos'
      generalize decode s₄.word = b at htr
      cases htr with
      | beginShutdown => contradiction
  · rintro pre mid post t u rfl
    obtain ⟨s₁, s₂, h₁, hshutdown, hrest⟩ := h.split
    obtain ⟨s₃, s₄, hmid, hacquire, -⟩ := hrest.split
    have hr₂ := h₁.reachable.snoc hshutdown
    have hne : (decode s₂.word).1 ≠ .running := by
      have htr := lin_transition h₁.reachable hshutdown
      generalize decode s₁.word = a at htr
      generalize decode s₂.word = b at htr ⊢
      cases htr with
      | beginShutdown => decide
    rcases not_running_until hr₂ hmid hne with hundo | hne'
    · exact hundo
    · have htr := lin_transition (hr₂.steps hmid) hacquire
      generalize decode s₃.word = a at htr hne'
      generalize decode s₄.word = b at htr
      cases htr with
      | acquire n hlt => contradiction

/-- The shutdown loads an idle running word, a lease is acquired and dropped, and the
compare-exchange of the shutdown finds the word it loaded. -/
private theorem overlap_run :
    ∃ pre mid post tr s, tr = pre ++ .lin true (.retry .acquire) (.ok ()) ::
        (mid ++ .lin false (.retry .beginShutdown) (.ok ()) :: post) ∧
      (lifecycleLts Bool width64).Run tr s ∧
      SeqObject.CallAt tr true (.retry .acquire) (.ok ()) 8 11 ∧
      SeqObject.CallAt tr false (.retry .beginShutdown) (.ok ()) 6 16 ∧
      decode s.word = (.shuttingDown, 0) := by
  have h₁ := initialized_run.snoc (.invoke _ false (.retry .beginShutdown) _ rfl rfl)
  have h₂ := h₁.snoc (.load _ false .beginShutdown (encode width64 .shuttingDown 0) rfl rfl)
  have h₃ := h₂.snoc (.invoke _ true (.retry .acquire) _ rfl rfl)
  have h₄ := h₃.snoc (.load _ true .acquire (encode width64 .running 1) rfl rfl)
  have h₅ := h₄.snoc (.weakCas _ true .acquire _ _ rfl rfl)
  have h₆ := h₅.snoc (.ret _ true (.retry .acquire) (.ok ()) rfl)
  have h₇ := h₆.snoc (.invoke _ true (.retry .leaseDrop) _ rfl rfl)
  have h₈ := h₇.snoc (.load _ true .leaseDrop (encode width64 .running 0) rfl rfl)
  have h₉ := h₈.snoc (.weakCas _ true .leaseDrop _ _ rfl rfl)
  have h₁₀ := h₉.snoc (.weakCas _ false .beginShutdown _ _ rfl rfl)
  have h₁₁ := h₁₀.snoc (.ret _ false (.retry .beginShutdown) (.ok ()) rfl)
  exact ⟨[.invoke true (.swap .beginInitialize), .lin true (.swap .beginInitialize) (.ok ()),
      .ret true (.swap .beginInitialize) (.ok ()), .invoke true (.swap .initializeCommit),
      .lin true (.swap .initializeCommit) (.ok ()), .ret true (.swap .initializeCommit) (.ok ()),
      .invoke false (.retry .beginShutdown), .internal, .invoke true (.retry .acquire), .internal],
    [.ret true (.retry .acquire) (.ok ()), .invoke true (.retry .leaseDrop), .internal,
      .lin true (.retry .leaseDrop) (.ok ())],
    [.ret false (.retry .beginShutdown) (.ok ())], _, _, rfl, h₁₁, ⟨rfl, rfl, rfl⟩, ⟨rfl, rfl, rfl⟩,
    by decide⟩

/-- An `acquire` and a `begin_shutdown` that overlap can both succeed. -/
theorem lifecycle_overlap_both_succeed :
    ¬ ∀ tr s, (lifecycleLts Bool width64).Run tr s → ∀ t u i j i' j',
      SeqObject.CallAt tr t (.retry .acquire) (.ok ()) i j →
      SeqObject.CallAt tr u (.retry .beginShutdown) (.ok ()) i' j' → ¬ (i < j' ∧ i' < j) := by
  intro h
  obtain ⟨-, -, -, tr, s, -, hr, hacquire, hshutdown, -⟩ := overlap_run
  exact h tr s hr true false 8 11 6 16 hacquire hshutdown (by decide)

/-- Of the calls that overlap and both succeed the shutdown comes second, after the lease has
been dropped. -/
theorem lifecycle_linearizable_overlap :
    ∃ pre mid post tr s, tr = pre ++ .lin true (.retry .acquire) (.ok ()) ::
        (mid ++ .lin false (.retry .beginShutdown) (.ok ()) :: post) ∧
      (lifecycleLts Bool width64).Run tr s ∧
      (lifecycleTable (maxCount width64)).Legal (.uninitialized, 0) (SeqObject.history tr)
        (.shuttingDown, 0) ∧
      ∃ v, .lin v (.retry .leaseDrop) (.ok ()) ∈ mid := by
  obtain ⟨pre, mid, post, tr, s, htr, hr, -, -, hword⟩ := overlap_run
  obtain ⟨hlin, -, hdropped, -⟩ := lifecycle_linearizable hr
  exact ⟨pre, mid, post, tr, s, htr, hr, hword ▸ hlin.legal, hdropped pre mid post true false htr⟩

end OsalRust.Runtime
