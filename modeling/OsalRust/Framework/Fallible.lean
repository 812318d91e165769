import Mathlib.Logic.Basic

/-!
# Fallible computations with clean-up

A computation over a world returns a value or an error and leaves a new world; a panic gives
neither. A value that a function owns is dropped when the function returns early, which is the
clean-up attached to the rest of the function. The rules of pre- and postconditions have one
postcondition for the value and one for the error.
-/

namespace OsalRust.Framework

def Fallible (ε W α : Type) : Type := W → Option (Except ε α × W)

namespace Fallible

variable {ε W α β : Type}

def pure (a : α) : Fallible ε W α := fun w => some (.ok a, w)

def panic : Fallible ε W α := fun _ => none

def lift (r : Except ε α) : Fallible ε W α := fun w => some (r, w)

def bind (x : Fallible ε W α) (k : α → Fallible ε W β) : Fallible ε W β := fun w =>
  match x w with
  | none => none
  | some (.error e, w) => some (.error e, w)
  | some (.ok a, w) => k a w

def onError (x : Fallible ε W α) (cleanUp : W → Option W) : Fallible ε W α := fun w =>
  match x w with
  | none => none
  | some (.ok a, w) => some (.ok a, w)
  | some (.error e, w) => (cleanUp w).map fun w => (.error e, w)

def owning (x : Fallible ε W α) (drop : α → W → Option W) (k : α → Fallible ε W β) :
    Fallible ε W β :=
  x.bind fun a => (k a).onError (drop a)

def Meets (P : W → Prop) (x : Fallible ε W α) (Q : α → W → Prop) (E : W → Prop) : Prop :=
  ∀ w, P w → ∀ r w', x w = some (r, w') →
    match r with
    | .ok a => Q a w'
    | .error _ => E w'

def Leads (P : W → Prop) (cleanUp : W → Option W) (Q : W → Prop) : Prop :=
  ∀ w, P w → ∀ w', cleanUp w = some w' → Q w'

variable {P E E' : W → Prop} {Q : α → W → Prop} {R : β → W → Prop} {x : Fallible ε W α}
  {k : α → Fallible ε W β}

theorem meets_pure {a : α} (h : ∀ w, P w → Q a w) : Meets P (pure a : Fallible ε W α) Q E := by
  intro w hw r w' hx
  obtain ⟨rfl, rfl⟩ := Prod.mk.inj (Option.some.inj hx)
  exact h w hw

theorem meets_panic : Meets P (panic : Fallible ε W α) Q E := by
  intro w _ r w' hx
  cases hx

theorem meets_lift {r : Except ε α} :
    Meets P (lift r : Fallible ε W α) (fun a w => r = .ok a ∧ P w) P := by
  intro w hw r' w' hx
  obtain ⟨rfl, rfl⟩ := Prod.mk.inj (Option.some.inj hx)
  cases r with
  | ok a => exact ⟨rfl, hw⟩
  | error e => exact hw

theorem Meets.bind (hx : Meets P x Q E) (hk : ∀ a, Meets (Q a) (k a) R E) :
    Meets P (x.bind k) R E := by
  intro w hw r w' h
  unfold Fallible.bind at h
  split at h
  · cases h
  · next e w₁ hxw =>
    obtain ⟨rfl, rfl⟩ := Prod.mk.inj (Option.some.inj h)
    exact hx w hw _ _ hxw
  · next a w₁ hxw => exact hk a w₁ (hx w hw _ _ hxw) r w' h

theorem Meets.onError {cleanUp : W → Option W} (hx : Meets P x Q E)
    (hclean : Leads E cleanUp E') : Meets P (x.onError cleanUp) Q E' := by
  intro w hw r w' h
  unfold Fallible.onError at h
  split at h
  · cases h
  · next a w₁ hxw =>
    obtain ⟨rfl, rfl⟩ := Prod.mk.inj (Option.some.inj h)
    exact hx w hw _ _ hxw
  · next e w₁ hxw =>
    obtain ⟨w₂, hw₂, he⟩ := Option.map_eq_some_iff.mp h
    obtain ⟨rfl, rfl⟩ := Prod.mk.inj he
    exact hclean w₁ (hx w hw _ _ hxw) _ hw₂

/-- The rule of an owned value: its drop leads from the error case of the rest back to the
error case of the whole. -/
theorem Meets.owning {drop : α → W → Option W} {F : α → W → Prop} (hx : Meets P x Q E)
    (hk : ∀ a, Meets (Q a) (k a) R (F a)) (hdrop : ∀ a, Leads (F a) (drop a) E) :
    Meets P (x.owning drop k) R E :=
  hx.bind fun a => (hk a).onError (hdrop a)

theorem Meets.conseq {P' : W → Prop} {Q' : α → W → Prop} (h : Meets P x Q E)
    (hP : ∀ w, P' w → P w) (hQ : ∀ a w, Q a w → Q' a w) (hE : ∀ w, E w → E' w) :
    Meets P' x Q' E' := by
  intro w hw r w' hx
  have := h w (hP w hw) r w' hx
  cases r with
  | ok a => exact hQ a w' this
  | error e => exact hE w' this

theorem Meets.of_fact {φ : Prop} (h : φ → Meets P x Q E) : Meets (fun w => φ ∧ P w) x Q E :=
  fun w hw => h hw.1 w hw.2

theorem Leads.comp {P Q R : W → Prop} {f g : W → Option W} (hf : Leads P f Q)
    (hg : Leads Q g R) : Leads P (fun w => (f w).bind g) R := by
  intro w hw w' h
  obtain ⟨w₁, hw₁, hw'⟩ := Option.bind_eq_some_iff.mp h
  exact hg w₁ (hf w hw w₁ hw₁) w' hw'

end Fallible

end OsalRust.Framework
