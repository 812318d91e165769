import OsalRust.Framework.WakeCredit
import OsalRust.FreeRtos.QueueSections

/-!
# The waiter-credit invariant of the FreeRTOS queue

Each direction of the queue is an instance of the waiter-credit protocol: every step of the
queue is one move of the senders' counters and one of the receivers', so the invariant of the
protocol holds of both directions in every reachable state.
-/

namespace OsalRust.FreeRtos

open Framework Framework.WakeCredit

namespace Phase

/-- The call of a task that passed its argument check and has not decided. -/
def call : Phase → Option Call
  | .check c _ | .waiting c | .woken c | .expired c => some c
  | _ => none

def stage (d : Direction) : Phase → Stage
  | .check c again => if again = true ∧ direction c.op = some d then .rechecking else .outside
  | .waiting c => if direction c.op = some d then .waiting else .outside
  | .woken c => if direction c.op = some d then .woken else .outside
  | .expired c => if direction c.op = some d then .expired else .outside
  | _ => .outside

/-- Between registration and unregistration in direction `d`. -/
def registered (d : Direction) (p : Phase) : Bool :=
  p.stage d == .waiting || p.stage d == .woken || p.stage d == .expired

def inCall : Phase → Bool
  | .idle => false
  | _ => true

end Phase

variable {ι : Type} [DecidableEq ι] {cfg : QueueConfig} {s s' : QueueSystem ι} {l : QueueEvent ι}

/-- The buffer is well formed, and every call in its loop passed its argument check. -/
structure Ready (cfg : QueueConfig) (s : QueueSystem ι) : Prop where
  wf : s.state.buffer.Wf cfg.width
  valid : ∀ t c, (s.tasks t).call = some c →
    validate s.state.buffer.messageSize c.op = .ok ()

private theorem Ready.move (h : Ready cfg s) {t : ι} {st : QueueState} {p : Phase}
    (hwf : st.buffer.Wf cfg.width) (hsize : st.buffer.messageSize = s.state.buffer.messageSize)
    (hp : ∀ c, p.call = some c → validate s.state.buffer.messageSize c.op = .ok ()) :
    Ready cfg (s.move t st p) := by
  refine ⟨hwf, ?_⟩
  intro u c hc
  change validate st.buffer.messageSize c.op = .ok ()
  rw [hsize]
  by_cases hu : u = t
  · subst u
    simp only [QueueSystem.move, Function.update_self] at hc
    exact hp c hc
  · simp only [QueueSystem.move, Function.update_of_ne hu] at hc
    exact h.valid u c hc

private theorem Decision.ready {c : Call} {st st' : QueueState} {next : Next}
    (hd : Decision cfg c st st' next) (hwf : st.buffer.Wf cfg.width)
    (hv : validate st.buffer.messageSize c.op = .ok ()) :
    st'.buffer.Wf cfg.width ∧ st'.buffer.messageSize = st.buffer.messageSize ∧
      ∀ c', next.phase.call = some c' → validate st.buffer.messageSize c'.op = .ok () := by
  cases hd with
  | sendClosed | recvClosed | refused | closeAgain =>
    exact ⟨hwf, rfl, fun _ hc => by simp [Next.phase, Phase.call] at hc⟩
  | sendOk data receiver hop hopen hsize hroom hsignal =>
    exact ⟨hwf.pushed hsize hroom, rfl, fun _ hc => by simp [Next.phase, Phase.call] at hc⟩
  | recvOk out sender hop hlen hsignal =>
    exact ⟨hwf.popped hlen, rfl, fun _ hc => by simp [Next.phase, Phase.call] at hc⟩
  | registered d budget channel hdir hopen hitems hreg =>
    refine ⟨by simpa using hwf, by simp, ?_⟩
    intro c' hc
    simp only [Next.phase, Phase.call, Option.some.injEq] at hc
    subst c'
    exact hv
  | closeFirst sender receiver hop hopen hs hr =>
    exact ⟨hwf.close, rfl, fun _ hc => by simp [Next.phase, Phase.call] at hc⟩

theorem Ready.step (h : Ready cfg s) (hs : QueueStep cfg s l s') : Ready cfg s' := by
  cases hs with
  | invoke t op timeout scheduler ht => exact h.move h.wf rfl (by simp [Phase.call])
  | reject t c e ht hv => exact h.move h.wf rfl (by simp [Phase.call])
  | enter t c ht hv =>
    apply h.move h.wf rfl
    intro c' hc
    simp only [Phase.call, Option.some.injEq] at hc
    subst c'
    exact hv
  | lockFailed t c e ht hl => exact h.move h.wf rfl (by simp [Phase.call])
  | check t c again st next ht hsec =>
    have hv := h.valid t c (by simp [ht, Phase.call])
    obtain ⟨hwf, hsize, hnext⟩ := (checkSection_decision h.wf hv hsec).ready h.wf hv
    exact h.move hwf hsize hnext
  | take t c d ht hd hw =>
    apply h.move (by simpa using h.wf) (by simp)
    intro c' hc
    exact h.valid t c' (by simpa [ht, Phase.call] using hc)
  | expire t c ht he =>
    apply h.move h.wf rfl
    intro c' hc
    exact h.valid t c' (by simpa [ht, Phase.call] using hc)
  | confirm t c d st ht hd hsec =>
    have hst := confirmSection_cases hsec
    apply h.move (by simpa [hst] using h.wf) (by simp [hst])
    intro c' hc
    exact h.valid t c' (by simpa [ht, Phase.call] using hc)
  | retry t c d st ht hd hsec =>
    rcases reconcileSection_cases hsec with ⟨-, -, hst⟩ | ⟨hr, -, -⟩
    · apply h.move (by simpa [hst] using h.wf) (by simp [hst])
      intro c' hc
      exact h.valid t c' (by simpa [ht, Phase.call] using hc)
    · contradiction
  | timeout t c d st e ht hd hsec =>
    rcases reconcileSection_cases hsec with ⟨hr, -, -⟩ | ⟨-, -, hst⟩
    · contradiction
    · exact h.move (by simpa [hst] using h.wf) (by simp [hst]) (by simp [Phase.call])
  | ret t op r ht => exact h.move h.wf rfl (by simp [Phase.call])
  | tick now hn => exact ⟨h.wf, h.valid⟩

omit [DecidableEq ι] in
theorem ready_of_init (h : QueueInit cfg s) : Ready cfg s := by
  obtain ⟨reserve, capacity, messageSize, buffer, hnew, hst, htasks⟩ := h
  refine ⟨by simpa [hst] using ByteQueue.new_wf hnew, ?_⟩
  intro t c hc
  simp [htasks, Phase.call] at hc

theorem ready_of_reachable (h : (queueLts ι cfg).Reachable s) : Ready cfg s :=
  h.invariant (fun _ => ready_of_init) (fun _ _ _ => Ready.step)

section Counters

variable [Fintype ι]

def view (d : Direction) (s : QueueSystem ι) : Counters :=
  .ofPool (Phase.stage d) s.tasks (s.state.channel d).waiters (s.state.channel d).wakeCredits
    (s.state.channel d).wake (itemsFor s.state.buffer d) s.state.buffer.closed

private theorem view_move (d : Direction) (s : QueueSystem ι) (t : ι) (st : QueueState)
    (p : Phase) :
    view d (s.move t st p) =
      ((Counters.ofPool (Phase.stage d) s.tasks (st.channel d).waiters (st.channel d).wakeCredits
        (st.channel d).wake (itemsFor st.buffer d) st.buffer.closed).leave
          ((s.tasks t).stage d)).enter (p.stage d) :=
  ofPool_update (Phase.stage d) s.tasks t p _ _ _ _ _

private theorem view_outside {d : Direction} {t : ι} {p : Phase}
    (h : (s.tasks t).stage d = .outside) (hp : p.stage d = .outside) :
    view d (s.move t s.state p) = view d s := by
  rw [view_move, h, hp]
  rfl

private theorem stage_other {p : Phase} {c : Call} {d : Direction} (hp : p.call = some c)
    (hd : direction c.op ≠ some d) : p.stage d = .outside := by
  cases p <;> simp_all [Phase.call, Phase.stage]

private theorem view_other {d d' : Direction} {t : ι} {c : Call} {p : Phase} (ch : WakeChannel)
    (hne : d ≠ d') (hdir : direction c.op = some d') (ht : (s.tasks t).call = some c)
    (hp : p.call = some c ∨ p.stage d = .outside) :
    view d (s.move t (s.state.setChannel ch d') p) = view d s := by
  have hd : direction c.op ≠ some d := by
    rw [hdir]
    intro he
    exact hne (Option.some.inj he).symm
  have hout : p.stage d = .outside := hp.elim (fun h => stage_other h hd) id
  rw [view_move, stage_other ht hd, hout, QueueState.channel_setChannel_of_ne _ _ hne,
    QueueState.buffer_setChannel]
  rfl

omit [DecidableEq ι] in
private theorem recheck_le {c : Call} {d : Direction} {t : ι} {again : Bool}
    (ht : s.tasks t = .check c again) (hd : direction c.op = some d) :
    again.toNat ≤ (view d s).rechecking := by
  cases again with
  | false => exact Nat.zero_le _
  | true => exact inStage_pos (t := t) (by simp [ht, Phase.stage, hd])

private theorem leave_check {c : Call} {d : Direction} (again : Bool)
    (hd : direction c.op = some d) (k : Counters) :
    k.leave ((Phase.check c again).stage d) = { k with rechecking := k.rechecking - again.toNat } := by
  cases again <;> simp [Phase.stage, hd, Counters.leave]

private theorem check_move {c : Call} {t : ι} {again : Bool} {st : QueueState} {next : Next}
    (h : Ready cfg s) (ht : s.tasks t = .check c again) (hdec : Decision cfg c s.state st next)
    (d : Direction) : Move (view d s) (view d (s.move t st next.phase)) := by
  have hlen := h.wf.len_le
  by_cases hd : direction c.op = some d
  · rw [view_move, ht]
    have hre := recheck_le ht hd
    rw [leave_check again hd]
    cases hdec with
    | sendClosed data hop hclosed => exact .giveUpEmpty _ again (.inr hclosed) hre
    | recvClosed out hop hlen hclosed => exact .giveUpEmpty _ again (.inr hclosed) hre
    | refused d' e hdir hopen hitems =>
      obtain rfl : d' = d := Option.some.inj (hdir.symm.trans hd)
      exact .giveUpEmpty _ again (.inl hitems) hre
    | registered d' budget channel hdir hopen hitems hreg =>
      obtain rfl : d' = d := Option.some.inj (hdir.symm.trans hd)
      have hch := WakeChannel.register_cases hreg
      simp only [QueueState.channel_setChannel, QueueState.buffer_setChannel, Next.phase,
        Phase.stage, hdir, if_true, hch]
      exact .register _ again hitems hopen hre
    | sendOk data receiver hop hopen hsize hroom hsignal =>
      obtain rfl : d = .sender := by simpa [hop, direction] using hd.symm
      have hpos : 0 < (view .sender s).items := Nat.sub_pos_of_lt hroom
      exact .consume _ again hpos hre
    | recvOk out sender hop hlen hsignal =>
      obtain rfl : d = .receiver := by simpa [hop, direction] using hd.symm
      exact .consume _ again hlen hre
    | closeAgain hop hclosed => simp [hop, direction] at hd
    | closeFirst sender receiver hop hopen hs hr => simp [hop, direction] at hd
  · have hout : (s.tasks t).stage d = .outside := by
      rw [ht]
      exact stage_other rfl hd
    rw [view_move, hout]
    cases hdec with
    | sendClosed | recvClosed | refused | closeAgain => exact .idle _
    | registered d' budget channel hdir hopen hitems hreg =>
      have hne : d ≠ d' := by
        rintro rfl
        exact hd hdir
      have hwait : (Next.wait { c with budget }).phase.stage d = .outside := if_neg hd
      rw [QueueState.channel_setChannel_of_ne _ _ hne, QueueState.buffer_setChannel, hwait]
      exact .idle _
    | sendOk data receiver hop hopen hsize hroom hsignal =>
      obtain rfl : d = .receiver := by
        cases d with
        | sender => simp [hop, direction] at hd
        | receiver => rfl
      rcases WakeChannel.signalOne_cases hsignal with ⟨hlt, rfl⟩ | ⟨hle, rfl⟩
      · exact .produceSignal (view .receiver s) hlt
      · exact .produceSilent (view .receiver s) hle
    | recvOk out sender hop hpos hsignal =>
      obtain rfl : d = .sender := by
        cases d with
        | sender => rfl
        | receiver => simp [hop, direction] at hd
      have hslots : s.state.buffer.capacity - (s.state.buffer.len - 1) =
          s.state.buffer.capacity - s.state.buffer.len + 1 := by omega
      have hitems : itemsFor s.state.buffer.popped .sender = itemsFor s.state.buffer .sender + 1 :=
        hslots
      simp only [hitems]
      rcases WakeChannel.signalOne_cases hsignal with ⟨hlt, rfl⟩ | ⟨hle, rfl⟩
      · exact .produceSignal (view .sender s) hlt
      · exact .produceSilent (view .sender s) hle
    | closeFirst sender receiver hop hopen hs hr =>
      obtain ⟨-, rfl⟩ := WakeChannel.broadcastWake_cases hs
      obtain ⟨-, rfl⟩ := WakeChannel.broadcastWake_cases hr
      cases d <;> exact .close (view _ s)

/-- Every step of the queue is one move of each direction's counters. -/
theorem step_move (h : Ready cfg s) (hs : QueueStep cfg s l s') (d : Direction) :
    Move (view d s) (view d s') := by
  cases hs with
  | invoke t op timeout scheduler ht =>
    rw [view_outside (by simp [ht, Phase.stage]) rfl]
    exact .idle _
  | reject t c e ht hv =>
    rw [view_outside (by simp [ht, Phase.stage]) rfl]
    exact .idle _
  | enter t c ht hv =>
    rw [view_outside (by simp [ht, Phase.stage]) (by simp [Phase.stage])]
    exact .idle _
  | lockFailed t c e ht hl =>
    rw [view_outside (by simp [ht, Phase.stage]) rfl]
    exact .idle _
  | check t c again st next ht hsec =>
    have hv := h.valid t c (by simp [ht, Phase.call])
    exact check_move h ht (checkSection_decision h.wf hv hsec) d
  | take t c d' ht hd hw =>
    by_cases hdd : d = d'
    · subst d'
      have hpos : 0 < (view d s).waiting := inStage_pos (t := t) (by simp [ht, Phase.stage, hd])
      rw [view_move, ht, QueueState.buffer_setChannel, QueueState.channel_setChannel]
      simp only [Phase.stage, hd, if_true]
      exact .take _ hw hpos
    · rw [view_other _ hdd hd (by rw [ht]; rfl) (.inl rfl)]
      exact .idle _
  | expire t c ht he =>
    rw [view_move, ht]
    by_cases hd : direction c.op = some d
    · have hpos : 0 < (view d s).waiting := inStage_pos (t := t) (by simp [ht, Phase.stage, hd])
      simp only [Phase.stage, hd, if_true]
      exact .expire _ hpos
    · simp only [Phase.stage, if_neg hd]
      exact .idle _
  | confirm t c d' st ht hd hsec =>
    rw [confirmSection_cases hsec]
    by_cases hdd : d = d'
    · subst d'
      have hpos : 0 < (view d s).woken := inStage_pos (t := t) (by simp [ht, Phase.stage, hd])
      rw [view_move, ht, QueueState.buffer_setChannel, QueueState.channel_setChannel]
      simp only [Phase.stage, hd, if_true, and_self]
      exact .confirm _ hpos
    · rw [view_other _ hdd hd (by rw [ht]; rfl) (.inl rfl)]
      exact .idle _
  | retry t c d' st ht hd hsec =>
    rcases reconcileSection_cases hsec with ⟨-, hw, rfl⟩ | ⟨hr, -, -⟩
    · by_cases hdd : d = d'
      · subst d'
        have hpos : 0 < (view d s).expired := inStage_pos (t := t) (by simp [ht, Phase.stage, hd])
        rw [view_move, ht, QueueState.buffer_setChannel, QueueState.channel_setChannel]
        simp only [Phase.stage, hd, if_true, and_self]
        exact .raceToken _ hw hpos
      · rw [view_other _ hdd hd (by rw [ht]; rfl) (.inl rfl)]
        exact .idle _
    · contradiction
  | timeout t c d' st e ht hd hsec =>
    rcases reconcileSection_cases hsec with ⟨hr, -, -⟩ | ⟨-, hw, rfl⟩
    · contradiction
    · by_cases hdd : d = d'
      · subst d'
        have hpos : 0 < (view d s).expired := inStage_pos (t := t) (by simp [ht, Phase.stage, hd])
        rw [view_move, ht, QueueState.buffer_setChannel, QueueState.channel_setChannel]
        simp only [Phase.stage, hd, if_true]
        exact .timeout _ hw hpos
      · rw [view_other _ hdd hd (by rw [ht]; rfl) (.inr rfl)]
        exact .idle _
  | ret t op r ht =>
    rw [view_outside (by simp [ht, Phase.stage]) rfl]
    exact .idle _
  | tick now hn => exact .idle _

theorem inv_of_reachable (h : (queueLts ι cfg).Reachable s) (d : Direction) : Inv (view d s) := by
  have hboth : Ready cfg s ∧ Inv (view d s) := by
    apply h.invariant (I := fun s => Ready cfg s ∧ Inv (view d s))
    · intro s hi
      refine ⟨ready_of_init hi, ?_⟩
      obtain ⟨reserve, capacity, messageSize, buffer, hnew, hst, htasks⟩ := hi
      have hnone (g : Stage) (hg : g ≠ .outside) : inStage (Phase.stage d) g s.tasks = 0 :=
        tally_eq_zero fun t => by simp [htasks, Phase.stage, Ne.symm hg]
      have hch : s.state.channel d = ⟨0, 0, 0⟩ := by
        rw [hst]
        cases d <;> rfl
      constructor <;> simp [view, Counters.ofPool, hch, hnone]
    · intro s l s' hi hs
      exact ⟨hi.1.step hs, hi.2.move (step_move hi.1 hs d)⟩
  exact hboth.2

end Counters

end OsalRust.FreeRtos
