import OsalRust.Shared.Runtime

/-!
# The invariant of the runtime lifecycle

The word always decodes to a state and a count that agree with the guards and leases that are
alive, counting those inside a call. A compare-exchange that succeeds finds the word it was
computed from, so it acts as if its load and its store were one step, even if the word changed
in between and came back.
-/

namespace OsalRust.Runtime

open Framework

section Word

variable {w : UsizeWidth} {state : RuntimeState} {count : Nat}

private theorem code_lt (state : RuntimeState) : state.code < 4 := by
  cases state <;> decide

private theorem pow_split (w : UsizeWidth) : 2 ^ w.bits = 4 * 2 ^ (w.bits - 2) := by
  have hge := w.ge
  rw [show (4 : Nat) = 2 ^ 2 from rfl, ← Nat.pow_add]
  congr 1
  omega

theorem maxCount_eq (w : UsizeWidth) : maxCount w = 2 ^ (w.bits - 2) - 1 := by
  unfold maxCount stateBits
  rw [Nat.shiftRight_eq_div_pow, pow_split w]
  have hpos : 0 < 2 ^ (w.bits - 2) := Nat.two_pow_pos _
  omega

theorem encode_eq (h : count ≤ maxCount w) : encode w state count = state.code + 4 * count := by
  have hmax := maxCount_eq w
  have hpow := pow_split w
  have hpos : 0 < 2 ^ (w.bits - 2) := Nat.two_pow_pos _
  have hfit : count <<< 2 < 2 ^ w.bits := by
    rw [Nat.shiftLeft_eq]
    omega
  unfold encode stateBits
  rw [Nat.mod_eq_of_lt hfit, Nat.or_comm, ← Nat.shiftLeft_add_eq_or_of_lt (code_lt state),
    Nat.shiftLeft_eq]
  omega

theorem encode_lt (h : count ≤ maxCount w) : encode w state count < 2 ^ w.bits := by
  have hmax := maxCount_eq w
  have hpow := pow_split w
  have hpos : 0 < 2 ^ (w.bits - 2) := Nat.two_pow_pos _
  have hcode := code_lt state
  rw [encode_eq h]
  omega

theorem decodeState_encode (h : count ≤ maxCount w) : decodeState (encode w state count) = state := by
  have hmask : encode w state count &&& stateMask = state.code := by
    rw [encode_eq h, show stateMask = 2 ^ 2 - 1 from rfl, Nat.and_two_pow_sub_one_eq_mod]
    have hcode := code_lt state
    omega
  rw [decodeState]
  rw [hmask]
  cases state <;> rfl

theorem decodeCount_encode (h : count ≤ maxCount w) : decodeCount (encode w state count) = count := by
  unfold decodeCount stateBits
  rw [encode_eq h, Nat.shiftRight_eq_div_pow]
  have hcode := code_lt state
  omega

end Word

def decode (word : Nat) : RuntimeState × Nat := (decodeState word, decodeCount word)

theorem decode_encode {w : UsizeWidth} {state : RuntimeState} {count : Nat}
    (h : count ≤ maxCount w) : decode (encode w state count) = (state, count) := by
  rw [decode, decodeState_encode h, decodeCount_encode h]

theorem decode_zero : decode 0 = (.uninitialized, 0) := rfl

/-- A phase keeps a value alive: a call that consumes it has not taken effect, or a call that
took effect has not yet returned it. -/
def Phase.holds (k : Token) : Phase → Bool
  | .idle => false
  | .load op | .weakCas op _ _ => decide ((LifecycleOp.retry op).consumes = some k)
  | .cas op => decide ((LifecycleOp.swap op).consumes = some k)
  | .returned op (.ok ()) => decide (op.produces = some k)
  | .returned _ (.error _) => false

variable {ι : Type} [DecidableEq ι] {w : UsizeWidth} {s s' : Lifecycle ι}
  {l : CallEvent ι LifecycleOp (Result Unit)}

def alive [Fintype ι] (k : Token) (s : Lifecycle ι) : Nat :=
  s.owned k + tally (Phase.holds k) s.threads

structure Canonical (w : UsizeWidth) (word : Nat) : Prop where
  encoded : word = encode w (decodeState word) (decodeCount word)
  count_le : decodeCount word ≤ maxCount w

structure Counts (live : Token → Nat) (a : RuntimeState × Nat) : Prop where
  lease : live .runtimeLease = a.2
  running : 0 < a.2 → a.1 = .running
  initializing : live .initializeTransition = (decide (a.1 = .initializing)).toNat
  shuttingDown : live .shutdownTransition = (decide (a.1 = .shuttingDown)).toNat

def Computed (w : UsizeWidth) (s : Lifecycle ι) : Prop :=
  ∀ t op current next, s.threads t = .weakCas op current next →
    RetryOp.attempt w current op = .ok (.ok next)

/-- The call of the event consumes, or produces, a value of kind `k` at this point. -/
def eventMoves (f : LifecycleOp → Option Token) (k : Token) :
    CallEvent ι LifecycleOp (Result Unit) → Bool
  | .lin _ op (.ok ()) => decide (f op = some k)
  | _ => false

section Rounds

variable {current next : Nat} {op : RetryOp}

private theorem attempt_error {e : Error} (h : op.attempt w current = .ok (.error e)) :
    (lifecycleTable (maxCount w)).apply (.retry op) (decode current) =
      some (.error e, decode current) := by
  rw [decode]
  cases op with
  | beginShutdown =>
    simp only [RetryOp.attempt, beginShutdown] at h
    cases hst : decodeState current with
    | uninitialized | initializing | shuttingDown =>
      rw [hst] at h
      cases h
      rfl
    | running =>
      cases hn : decodeCount current with
      | zero => simp [hst, hn] at h
      | succ n =>
        rw [hst, hn] at h
        cases h
        rfl
  | acquire =>
    simp only [RetryOp.attempt, acquire] at h
    cases hst : decodeState current with
    | uninitialized | initializing | shuttingDown =>
      rw [hst] at h
      cases h
      rfl
    | running =>
      by_cases hmax : maxCount w ≤ decodeCount current
      · simp only [hst, hmax, ne_eq, not_true_eq_false, if_false, if_true, pure, Except.pure] at h
        cases h
        simp [lifecycleTable, Nat.not_lt.mpr hmax]
      · simp [hst, hmax, encodeChecked, show decodeCount current + 1 ≤ maxCount w by omega, bind,
          Except.bind, pure, Except.pure] at h
  | leaseDrop =>
    simp only [RetryOp.attempt, leaseDrop] at h
    by_cases hst : decodeState current = .running
    · cases hn : decodeCount current with
      | zero => simp [hst, hn] at h
      | succ n =>
        by_cases hle : n ≤ maxCount w
        · simp [hst, hn, encodeChecked, hle, bind, Except.bind, pure, Except.pure] at h
        · simp [hst, hn, encodeChecked, hle, bind, Except.bind] at h
    · simp [hst, bind, Except.bind] at h

private theorem attempt_ok (hle : decodeCount current ≤ maxCount w)
    (h : op.attempt w current = .ok (.ok next)) :
    ∃ state count, count ≤ maxCount w ∧ next = encode w state count ∧
      (lifecycleTable (maxCount w)).apply (.retry op) (decode current) =
        some (.ok (), state, count) := by
  rw [decode]
  cases op with
  | beginShutdown =>
    simp only [RetryOp.attempt, beginShutdown] at h
    cases hst : decodeState current with
    | uninitialized | initializing | shuttingDown => simp [hst] at h
    | running =>
      cases hn : decodeCount current with
      | zero =>
        simp only [hst, hn, ne_eq, not_true_eq_false, if_false] at h
        cases h
        exact ⟨.shuttingDown, 0, Nat.zero_le _, rfl, rfl⟩
      | succ n => simp [hst, hn] at h
  | acquire =>
    simp only [RetryOp.attempt, acquire] at h
    by_cases hst : decodeState current = .running
    · by_cases hmax : maxCount w ≤ decodeCount current
      · simp [hst, hmax, pure, Except.pure] at h
      · have hroom : decodeCount current + 1 ≤ maxCount w := by omega
        simp only [hst, hmax, ne_eq, not_true_eq_false, if_false, encodeChecked, if_pos hroom,
          bind, Except.bind, pure, Except.pure] at h
        cases h
        refine ⟨.running, decodeCount current + 1, hroom, rfl, ?_⟩
        simp [lifecycleTable, hst, Nat.not_le.mp hmax]
    · simp [hst, pure, Except.pure] at h
  | leaseDrop =>
    simp only [RetryOp.attempt, leaseDrop] at h
    by_cases hst : decodeState current = .running
    · cases hn : decodeCount current with
      | zero => simp [hst, hn] at h
      | succ n =>
        have hroom : n ≤ maxCount w := by omega
        simp only [hst, hn, ne_eq, not_true_eq_false, if_false, encodeChecked, if_pos hroom, bind,
          Except.bind, pure, Except.pure] at h
        cases h
        exact ⟨.running, n, hroom, rfl, by rw [hst]; rfl⟩
    · simp [hst, bind, Except.bind] at h

/-- A round panics only when a lease is dropped that the word does not count. -/
theorem attempt_panic {p : Panic} (hle : decodeCount current ≤ maxCount w)
    (h : op.attempt w current = .error p) :
    op = .leaseDrop ∧ (decodeState current = .running → decodeCount current = 0) := by
  cases op with
  | beginShutdown =>
    simp only [RetryOp.attempt, beginShutdown] at h
    split at h <;> try contradiction
    split_ifs at h
  | acquire =>
    simp only [RetryOp.attempt, acquire] at h
    by_cases hst : decodeState current = .running
    · by_cases hmax : maxCount w ≤ decodeCount current
      · simp [hst, hmax, pure, Except.pure] at h
      · simp [hst, hmax, encodeChecked, show decodeCount current + 1 ≤ maxCount w by omega, bind,
          Except.bind, pure, Except.pure] at h
    · simp [hst, pure, Except.pure] at h
  | leaseDrop =>
    refine ⟨rfl, ?_⟩
    intro hst
    simp only [RetryOp.attempt, leaseDrop] at h
    cases hn : decodeCount current with
    | zero => rfl
    | succ n =>
      simp [hst, hn, encodeChecked, show n ≤ maxCount w by omega, bind, Except.bind, pure,
        Except.pure] at h

end Rounds

inductive Transition (maxCount : Nat) : LifecycleOp → RuntimeState × Nat → RuntimeState × Nat → Prop
  | beginInitialize (n : Nat) :
      Transition maxCount (.swap .beginInitialize) (.uninitialized, n) (.initializing, n)
  | initializeCommit (n : Nat) :
      Transition maxCount (.swap .initializeCommit) (.initializing, n) (.running, n)
  | initializeDrop (n : Nat) :
      Transition maxCount (.swap .initializeDrop) (.initializing, n) (.uninitialized, n)
  | shutdownCommit (n : Nat) :
      Transition maxCount (.swap .shutdownCommit) (.shuttingDown, n) (.uninitialized, n)
  | shutdownDrop (n : Nat) :
      Transition maxCount (.swap .shutdownDrop) (.shuttingDown, n) (.running, n)
  | beginShutdown : Transition maxCount (.retry .beginShutdown) (.running, 0) (.shuttingDown, 0)
  | acquire (n : Nat) (h : n < maxCount) :
      Transition maxCount (.retry .acquire) (.running, n) (.running, n + 1)
  | leaseDrop (n : Nat) :
      Transition maxCount (.retry .leaseDrop) (.running, n + 1) (.running, n)

theorem table_cases {maxCount : Nat} {op : LifecycleOp} {a b : RuntimeState × Nat}
    {r : Result Unit} (h : (lifecycleTable maxCount).apply op a = some (r, b)) :
    (r = .ok () ∧ Transition maxCount op a b) ∨ ((∃ e, r = .error e) ∧ b = a) := by
  obtain ⟨state, n⟩ := a
  cases op with
  | swap op =>
    cases op with
    | beginInitialize =>
      cases state with
      | uninitialized => cases h; exact .inl ⟨rfl, .beginInitialize n⟩
      | running => cases h; exact .inr ⟨⟨_, rfl⟩, rfl⟩
      | initializing | shuttingDown => cases h; exact .inr ⟨⟨_, rfl⟩, rfl⟩
    | initializeCommit =>
      cases state with
      | initializing => cases h; exact .inl ⟨rfl, .initializeCommit n⟩
      | _ => contradiction
    | initializeDrop =>
      cases state with
      | initializing => cases h; exact .inl ⟨rfl, .initializeDrop n⟩
      | _ => contradiction
    | shutdownCommit =>
      cases state with
      | shuttingDown => cases h; exact .inl ⟨rfl, .shutdownCommit n⟩
      | _ => contradiction
    | shutdownDrop =>
      cases state with
      | shuttingDown => cases h; exact .inl ⟨rfl, .shutdownDrop n⟩
      | _ => contradiction
  | retry op =>
    cases op with
    | beginShutdown =>
      cases state with
      | running =>
        cases n with
        | zero => cases h; exact .inl ⟨rfl, .beginShutdown⟩
        | succ n => cases h; exact .inr ⟨⟨_, rfl⟩, rfl⟩
      | uninitialized | initializing | shuttingDown => cases h; exact .inr ⟨⟨_, rfl⟩, rfl⟩
    | acquire =>
      cases state with
      | running =>
        by_cases hlt : n < maxCount
        · simp only [lifecycleTable, if_pos hlt] at h
          cases h
          exact .inl ⟨rfl, .acquire n hlt⟩
        · simp only [lifecycleTable, if_neg hlt] at h
          cases h
          exact .inr ⟨⟨_, rfl⟩, rfl⟩
      | uninitialized | initializing | shuttingDown => cases h; exact .inr ⟨⟨_, rfl⟩, rfl⟩
    | leaseDrop =>
      cases state with
      | running =>
        cases n with
        | zero => contradiction
        | succ n => cases h; exact .inl ⟨rfl, .leaseDrop n⟩
      | uninitialized | initializing | shuttingDown => contradiction

theorem canonical_encode {state : RuntimeState} {count : Nat} (h : count ≤ maxCount w) :
    Canonical w (encode w state count) := by
  constructor
  · rw [decodeState_encode h, decodeCount_encode h]
  · rw [decodeCount_encode h]
    exact h

private theorem swap_table (op : SwapOp) :
    ∃ state state', op.expected w = encode w state 0 ∧ op.desired w = encode w state' 0 ∧
      (lifecycleTable (maxCount w)).apply (.swap op) (state, 0) = some (.ok (), state', 0) := by
  cases op with
  | beginInitialize => exact ⟨.uninitialized, .initializing, rfl, rfl, rfl⟩
  | initializeCommit => exact ⟨.initializing, .running, rfl, rfl, rfl⟩
  | initializeDrop => exact ⟨.initializing, .uninitialized, rfl, rfl, rfl⟩
  | shutdownCommit => exact ⟨.shuttingDown, .uninitialized, rfl, rfl, rfl⟩
  | shutdownDrop => exact ⟨.shuttingDown, .running, rfl, rfl, rfl⟩

private theorem onFailure_table {op : SwapOp} {current : Nat} {e : Error}
    (hc : Canonical w current) (hrun : 0 < decodeCount current → decodeState current = .running)
    (hw : current ≠ op.expected w) (hf : op.onFailure current = .ok e) :
    (lifecycleTable (maxCount w)).apply (.swap op) (decode current) =
      some (.error e, decode current) := by
  cases op with
  | beginInitialize =>
    rw [decode]
    simp only [SwapOp.onFailure] at hf
    cases hst : decodeState current with
    | uninitialized =>
      -- with no lease outside `Running`, an uninitialized word is the expected one
      have hzero : decodeCount current = 0 := by
        by_contra hne
        rw [hrun (Nat.pos_of_ne_zero hne)] at hst
        contradiction
      exact absurd (by rw [hc.encoded, hst, hzero]; rfl) hw
    | running | initializing | shuttingDown =>
      rw [hst] at hf
      cases hf
      rfl
  | initializeCommit | initializeDrop | shutdownCommit | shutdownDrop => contradiction

/-- A linearization point is one entry of the table, at the state of the word before it and
after it. -/
theorem lin_table {t : ι} {op : LifecycleOp} {r : Result Unit} (hc : Canonical w s.word)
    (hrun : 0 < decodeCount s.word → decodeState s.word = .running) (hcomputed : Computed w s)
    (hs : LifecycleStep w s (.lin t op r) s') :
    (lifecycleTable (maxCount w)).apply op (decode s.word) = some (r, decode s'.word) ∧
      Canonical w s'.word := by
  cases hs with
  | loadFails _ op e ht ha => exact ⟨attempt_error ha, hc⟩
  | weakCas _ op current next ht hw =>
    subst hw
    obtain ⟨state, count, hle, rfl, htable⟩ :=
      attempt_ok hc.count_le (hcomputed t op _ next ht)
    refine ⟨?_, canonical_encode hle⟩
    rw [htable, decode_encode hle]
  | cas _ op ht hw =>
    obtain ⟨state, state', he, hd, htable⟩ := swap_table (w := w) op
    rw [hw, he, hd, decode_encode (Nat.zero_le _), decode_encode (Nat.zero_le _)]
    exact ⟨htable, canonical_encode (Nat.zero_le _)⟩
  | casFails _ op e ht hw hf => exact ⟨onFailure_table hc hrun hw hf, hc⟩

theorem word_eq_of_step (hs : LifecycleStep w s l s') (hl : ∀ t op r, l ≠ .lin t op r) :
    s'.word = s.word := by
  cases hs with
  | weakCas t op current next ht hw => exact absurd rfl (hl _ _ _)
  | cas t op ht hw => exact absurd rfl (hl _ _ _)
  | _ => rfl

private theorem Computed.step (h : Computed w s) (hs : LifecycleStep w s l s') : Computed w s' := by
  have hother {t : ι} {p : Phase}
      (hp : ∀ op current next, p = .weakCas op current next →
        RetryOp.attempt w current op = .ok (.ok next)) :
      ∀ u op current next, Function.update s.threads t p u = .weakCas op current next →
        RetryOp.attempt w current op = .ok (.ok next) := by
    intro u op current next hu
    by_cases hut : u = t
    · subst u
      rw [Function.update_self] at hu
      exact hp op current next hu
    · rw [Function.update_of_ne hut] at hu
      exact h u op current next hu
  cases hs with
  | load t op next ht ha =>
    apply hother
    intro op' current' next' he
    cases he
    exact ha
  | invoke t op owned ht ho =>
    apply hother
    intro _ _ _ he
    cases op <;> contradiction
  | _ => exact hother (by intro _ _ _ he; contradiction)

section Alive

variable [Fintype ι]

private theorem takeToken_cases {op : LifecycleOp} {owned owned' : Token → Nat}
    (h : takeToken op owned = some owned') (k : Token) :
    owned' k + (decide (op.consumes = some k)).toNat = owned k := by
  rw [takeToken] at h
  cases hc : op.consumes with
  | none =>
    rw [hc] at h
    cases h
    simp
  | some k' =>
    simp only [hc] at h
    split_ifs at h with hpos
    cases h
    by_cases hk : k = k'
    · subst k'
      simp
      omega
    · simp [Function.update_of_ne hk, Ne.symm hk]

private theorem giveToken_eq (op : LifecycleOp) (r : Result Unit) (owned : Token → Nat)
    (k : Token) :
    giveToken op r owned k = owned k + ((Phase.returned op r).holds k).toNat := by
  unfold giveToken
  cases r with
  | error e => cases op.produces <;> simp [Phase.holds]
  | ok u =>
    cases hp : op.produces with
    | none => simp [Phase.holds, hp]
    | some k' =>
      by_cases hk : k = k'
      · subst k'
        simp [Phase.holds, hp]
      · simp [Phase.holds, hp, Function.update_of_ne hk, Ne.symm hk]

private theorem consumes_of_error {op : RetryOp} {current : Nat} {e : Error}
    (h : op.attempt w current = .ok (.error e)) : (LifecycleOp.retry op).consumes = none := by
  cases op with
  | beginShutdown | acquire => rfl
  | leaseDrop =>
    have htable := attempt_error h
    rcases table_cases htable with ⟨he, -⟩ | ⟨-, -⟩
    · contradiction
    · generalize decode current = a at htable
      obtain ⟨state, n⟩ := a
      cases state <;> cases n <;> simp [lifecycleTable] at htable

/-- Values come alive and die at linearization points only, as the operation says. -/
theorem alive_step (hs : LifecycleStep w s l s') (k : Token) :
    alive k s' + (eventMoves LifecycleOp.consumes k l).toNat =
      alive k s + (eventMoves LifecycleOp.produces k l).toNat := by
  have hmove (t : ι) (p : Phase) := tally_update (Phase.holds k) s.threads t p
  unfold alive
  cases hs with
  | invoke t op owned ht ho =>
    have hm := hmove t op.entry
    have htake := takeToken_cases ho k
    have hentry : op.entry.holds k = decide (op.consumes = some k) := by cases op <;> rfl
    have hidle : (Phase.idle.holds k).toNat = 0 := rfl
    rw [ht, hentry] at hm
    simp only [eventMoves, Bool.toNat_false]
    omega
  | load t op next ht ha =>
    have hm := hmove t (.weakCas op s.word next)
    simp only [ht, Phase.holds, eventMoves, Bool.toNat_false] at hm ⊢
    omega
  | loadFails t op e ht ha =>
    have hm := hmove t (.returned (.retry op) (.error e))
    simp only [ht, Phase.holds, consumes_of_error ha, reduceCtorEq, decide_false, eventMoves,
      Bool.toNat_false] at hm ⊢
    omega
  | weakCas t op current next ht hw =>
    have hm := hmove t (.returned (.retry op) (.ok ()))
    simp only [ht, Phase.holds, eventMoves] at hm ⊢
    omega
  | weakCasFails t op current next ht =>
    have hm := hmove t (.load op)
    simp only [ht, Phase.holds, eventMoves, Bool.toNat_false] at hm ⊢
    omega
  | cas t op ht hw =>
    have hm := hmove t (.returned (.swap op) (.ok ()))
    simp only [ht, Phase.holds, eventMoves] at hm ⊢
    omega
  | casFails t op e ht hw hf =>
    have hm := hmove t (.returned (.swap op) (.error e))
    have hnone : (LifecycleOp.swap op).consumes = none := by
      cases op with
      | beginInitialize => rfl
      | _ => contradiction
    simp only [ht, Phase.holds, hnone, reduceCtorEq, decide_false, eventMoves,
      Bool.toNat_false] at hm ⊢
    omega
  | ret t op r ht =>
    have hm := hmove t .idle
    have hgive := giveToken_eq op r s.owned k
    rw [ht] at hm
    have hidle : (Phase.idle.holds k).toNat = 0 := rfl
    simp only [eventMoves, Bool.toNat_false]
    omega

private theorem Counts.transition {m : Nat} {op : LifecycleOp} {a b : RuntimeState × Nat}
    {live live' : Token → Nat} (h : Counts live a) (htr : Transition m op a b)
    (hmove : ∀ k, live' k + (decide (op.consumes = some k)).toNat =
      live k + (decide (op.produces = some k)).toNat) : Counts live' b := by
  have hlease := hmove .runtimeLease
  have hinit := hmove .initializeTransition
  have hshut := hmove .shutdownTransition
  obtain ⟨h₁, h₂, h₃, h₄⟩ := h
  rw [h₁] at hlease
  rw [h₃] at hinit
  rw [h₄] at hshut
  cases htr <;>
    simp [LifecycleOp.consumes, LifecycleOp.produces] at hlease hinit hshut h₂ <;>
    exact ⟨by simp; omega, by simp <;> omega, by simp; omega, by simp; omega⟩

/-- The whole invariant: the word is canonical, it agrees with the values alive, and pending
compare-exchanges are up to date with the word they expect. -/
structure Agrees (w : UsizeWidth) (s : Lifecycle ι) : Prop where
  canonical : Canonical w s.word
  counts : Counts (fun k => alive k s) (decode s.word)
  computed : Computed w s

theorem Agrees.step (h : Agrees w s) (hs : LifecycleStep w s l s') : Agrees w s' := by
  have hmove := fun k => alive_step hs k
  have hcomputed := h.computed.step hs
  have hsame (hl : ∀ t op, l ≠ .lin t op (.ok ())) (hword : s'.word = s.word) : Agrees w s' := by
    have halive (k : Token) : alive k s' = alive k s := by
      have hnone (f : LifecycleOp → Option Token) : eventMoves f k l = false := by
        cases l with
        | lin t op r =>
          cases r with
          | ok u => exact absurd rfl (hl t op)
          | error e => rfl
        | _ => rfl
      simpa only [hnone, Bool.toNat_false, Nat.add_zero] using hmove k
    refine ⟨by rw [hword]; exact h.canonical, ?_, hcomputed⟩
    rw [hword]
    exact ⟨(halive _).trans h.counts.lease, h.counts.running,
      (halive _).trans h.counts.initializing, (halive _).trans h.counts.shuttingDown⟩
  cases l with
  | invoke t op => exact hsame (by simp) (word_eq_of_step hs (by simp))
  | ret t op r => exact hsame (by simp) (word_eq_of_step hs (by simp))
  | internal => exact hsame (by simp) (word_eq_of_step hs (by simp))
  | lin t op r =>
    obtain ⟨htable, hc⟩ := lin_table h.canonical h.counts.running h.computed hs
    rcases table_cases htable with ⟨rfl, htr⟩ | ⟨⟨e, rfl⟩, hdecode⟩
    · exact ⟨hc, h.counts.transition htr hmove, hcomputed⟩
    · apply hsame (by simp)
      have hst : decodeState s'.word = decodeState s.word := congrArg Prod.fst hdecode
      have hn : decodeCount s'.word = decodeCount s.word := congrArg Prod.snd hdecode
      rw [hc.encoded, h.canonical.encoded, hst, hn]

theorem agrees_of_reachable (h : (lifecycleLts ι w).Reachable s) : Agrees w s := by
  refine h.invariant ?_ (fun _ _ _ => Agrees.step)
  rintro s rfl
  have hstate : decodeState 0 = .uninitialized := rfl
  have hcount : decodeCount 0 = 0 := rfl
  have hcanonical : Canonical w 0 := by
    refine ⟨?_, by simp only [hcount, Nat.zero_le]⟩
    rw [hstate, hcount]
    simp [encode, RuntimeState.code]
  have halive (k : Token) : alive k (⟨0, fun _ => 0, fun _ => .idle⟩ : Lifecycle ι) = 0 := by
    simp only [alive, Nat.zero_add]
    exact tally_eq_zero fun _ => rfl
  refine ⟨hcanonical, ⟨?_, ?_, ?_, ?_⟩, ?_⟩
  · simp only [halive, decode_zero]
  · simp only [decode_zero, Nat.lt_irrefl, false_implies]
  · simp only [halive, decode_zero, reduceCtorEq, decide_false, Bool.toNat_false]
  · simp only [halive, decode_zero, reduceCtorEq, decide_false, Bool.toNat_false]
  · intro t op current next ht
    contradiction

end Alive

end OsalRust.Runtime
