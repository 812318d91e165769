import Mathlib.Tactic
import OsalRust.Framework.Lts

/-!
# Linearizability

A sequential object is a partial table of operations. Threads call it concurrently: a call is
invoked, takes effect at one point, and returns. The atomic system below is the specification
of a linearizable object; an implementation is linearizable if its runs are runs of it.
-/

namespace OsalRust.Framework

/-- A sequential object. An entry that is `none` is an operation its callers must not make. -/
structure SeqObject (σ Op Res : Type*) where
  init : σ
  apply : Op → σ → Option (Res × σ)

/-- What one step of a concurrent object shows. `lin` is the point at which a call takes
effect. -/
inductive CallEvent (ι Op Res : Type*) where
  | invoke (t : ι) (op : Op)
  | lin (t : ι) (op : Op) (r : Res)
  | ret (t : ι) (op : Op) (r : Res)
  | internal

namespace SeqObject

variable {σ Op Res ι : Type*}

inductive Legal (O : SeqObject σ Op Res) (s : σ) : List (Op × Res) → σ → Prop
  | nil : Legal O s [] s
  | snoc {history : List (Op × Res)} {s' s'' : σ} {op : Op} {r : Res} :
      Legal O s history s' → O.apply op s' = some (r, s'') → Legal O s (history ++ [(op, r)]) s''

def history (tr : List (CallEvent ι Op Res)) : List (Op × Res) :=
  tr.filterMap fun
    | .lin _ op r => some (op, r)
    | _ => none

def eventsOf [DecidableEq ι] (t : ι) (tr : List (CallEvent ι Op Res)) :
    List (CallEvent ι Op Res) :=
  tr.filter fun
    | .invoke u _ | .lin u _ _ | .ret u _ _ => decide (u = t)
    | .internal => false

/-- A trace is linearizable: its points form a sequential execution that ends in `s`, and every
call that returned has one point between its invocation and its return, with the result it
returned. -/
structure Linearizable [DecidableEq ι] (O : SeqObject σ Op Res) (tr : List (CallEvent ι Op Res))
    (s : σ) : Prop where
  legal : O.Legal O.init (history tr) s
  point : ∀ pre post t op r, tr = pre ++ .ret t op r :: post →
    ∃ before call, pre = before ++ .invoke t op :: call ∧ eventsOf t call = [.lin t op r]

/-- A call of thread `t` that is invoked at position `i` of the trace and returns at `j`. -/
structure CallAt [DecidableEq ι] (tr : List (CallEvent ι Op Res)) (t : ι) (op : Op) (r : Res)
    (i j : Nat) : Prop where
  invoked : tr[i]? = some (.invoke t op)
  returned : tr[j]? = some (.ret t op r)
  between : eventsOf t ((tr.take j).drop (i + 1)) = [.lin t op r]

inductive Status (Op Res : Type*) where
  | idle
  | pending (op : Op)
  | decided (op : Op) (r : Res)

structure State (σ Op Res ι : Type*) where
  object : σ
  status : ι → Status Op Res

variable [DecidableEq ι]

inductive Step (O : SeqObject σ Op Res) :
    State σ Op Res ι → CallEvent ι Op Res → State σ Op Res ι → Prop
  | invoke (s : State σ Op Res ι) (t : ι) (op : Op) (h : s.status t = .idle) :
      Step O s (.invoke t op) { s with status := Function.update s.status t (.pending op) }
  | lin (s : State σ Op Res ι) (t : ι) (op : Op) (r : Res) (object : σ)
      (h : s.status t = .pending op) (ha : O.apply op s.object = some (r, object)) :
      Step O s (.lin t op r) ⟨object, Function.update s.status t (.decided op r)⟩
  | ret (s : State σ Op Res ι) (t : ι) (op : Op) (r : Res) (h : s.status t = .decided op r) :
      Step O s (.ret t op r) { s with status := Function.update s.status t .idle }
  | internal (s : State σ Op Res ι) : Step O s .internal s

def atomic (O : SeqObject σ Op Res) (ι : Type*) [DecidableEq ι] :
    Lts (State σ Op Res ι) (CallEvent ι Op Res) where
  init s := s = ⟨O.init, fun _ => .idle⟩
  step := Step O

omit [DecidableEq ι] in
private theorem history_snoc (tr : List (CallEvent ι Op Res)) (e : CallEvent ι Op Res) :
    history (tr ++ [e]) = history tr ++ history [e] :=
  List.filterMap_append

private theorem eventsOf_snoc (t : ι) (tr : List (CallEvent ι Op Res)) (e : CallEvent ι Op Res) :
    eventsOf t (tr ++ [e]) = eventsOf t tr ++ eventsOf t [e] :=
  List.filter_append tr [e]

/-- The last call of a thread, as its status tells it. -/
private def Tracked (tr : List (CallEvent ι Op Res)) (t : ι) : Status Op Res → Prop
  | .idle => True
  | .pending op => ∃ before call, tr = before ++ .invoke t op :: call ∧ eventsOf t call = []
  | .decided op r =>
    ∃ before call, tr = before ++ .invoke t op :: call ∧ eventsOf t call = [.lin t op r]

private theorem Tracked.other {tr : List (CallEvent ι Op Res)} {t : ι} {st : Status Op Res}
    {e : CallEvent ι Op Res} (h : Tracked tr t st) (he : eventsOf t [e] = []) :
    Tracked (tr ++ [e]) t st := by
  cases st with
  | idle => trivial
  | pending op =>
    obtain ⟨before, call, rfl, hc⟩ := h
    exact ⟨before, call ++ [e], by simp, by rw [eventsOf_snoc, hc, he, List.append_nil]⟩
  | decided op r =>
    obtain ⟨before, call, rfl, hc⟩ := h
    exact ⟨before, call ++ [e], by simp, by rw [eventsOf_snoc, hc, he, List.append_nil]⟩

private theorem tracked_update {tr : List (CallEvent ι Op Res)} {status : ι → Status Op Res}
    {u : ι} {st : Status Op Res} {e : CallEvent ι Op Res} (h : ∀ t, Tracked tr t (status t))
    (hother : ∀ t, t ≠ u → eventsOf t [e] = []) (hown : Tracked (tr ++ [e]) u st) (t : ι) :
    Tracked (tr ++ [e]) t (Function.update status u st t) := by
  by_cases ht : t = u
  · subst t
    rw [Function.update_self]
    exact hown
  · rw [Function.update_of_ne ht]
    exact (h t).other (hother t ht)

private theorem run_tracked {O : SeqObject σ Op Res} {tr : List (CallEvent ι Op Res)}
    {s : State σ Op Res ι} (h : (O.atomic ι).Run tr s) :
    O.Legal O.init (history tr) s.object ∧ ∀ t, Tracked tr t (s.status t) := by
  refine h.induct (I := fun tr s => O.Legal O.init (history tr) s.object ∧
    ∀ t, Tracked tr t (s.status t)) ?_ ?_
  · rintro s rfl
    exact ⟨.nil, fun _ => trivial⟩
  · intro tr s e s' _ hi hs
    obtain ⟨hlegal, htracked⟩ := hi
    rw [history_snoc]
    cases hs with
    | invoke t op ht =>
      refine ⟨by simpa [history] using hlegal, ?_⟩
      apply tracked_update htracked
      · intro u hu
        simp [eventsOf, Ne.symm hu]
      · exact ⟨tr, [], rfl, rfl⟩
    | lin t op r object ht ha =>
      have hown : Tracked tr t (.pending op) := ht ▸ htracked t
      refine ⟨hlegal.snoc ha, ?_⟩
      apply tracked_update htracked
      · intro u hu
        simp [eventsOf, Ne.symm hu]
      · obtain ⟨before, call, rfl, hc⟩ := hown
        refine ⟨before, call ++ [.lin t op r], by simp, ?_⟩
        rw [eventsOf_snoc, hc]
        simp [eventsOf]
    | ret t op r ht =>
      refine ⟨by simpa [history] using hlegal, ?_⟩
      apply tracked_update htracked
      · intro u hu
        simp [eventsOf, Ne.symm hu]
      · trivial
    | internal =>
      refine ⟨by simpa [history] using hlegal, ?_⟩
      intro t
      exact (htracked t).other rfl

/-- Every run of the atomic system is linearizable. -/
theorem run_linearizable {O : SeqObject σ Op Res} {tr : List (CallEvent ι Op Res)}
    {s : State σ Op Res ι} (h : (O.atomic ι).Run tr s) : O.Linearizable tr s.object := by
  refine ⟨(run_tracked h).1, ?_⟩
  rintro pre post t op r rfl
  obtain ⟨s₁, s₂, h₁, hs, -⟩ := h.split
  cases hs with
  | ret _ _ _ ht =>
    have htracked := (run_tracked h₁).2 t
    rw [ht] at htracked
    exact htracked

end SeqObject

end OsalRust.Framework
