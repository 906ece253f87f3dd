import Mathlib.Data.List.Basic

namespace TwoRuns

variable {σ ε α β γ δ : Type}

/-- A computation that reads and writes a state and may throw. -/
abbrev Comp (σ ε α : Type) := ExceptT ε (StateM σ) α

namespace Comp

def reads (f : σ → α) : Comp σ ε α := fun s => (.ok (f s), s)

def writes (g : σ → σ) : Comp σ ε Unit := fun s => (.ok (), g s)

def swaps (f : σ → α × σ) : Comp σ ε α := fun s => (.ok (f s).1, (f s).2)

/-- Throw unless the condition holds. -/
def ensure (c : Bool) (e : ε) : Comp σ ε Unit := if c then pure () else throw e

theorem bind_apply (x : Comp σ ε α) (f : α → Comp σ ε γ) (s : σ) :
    (x >>= f) s = match (x s).1 with
      | .ok a => f a (x s).2
      | .error e => (.error e, (x s).2) := by
  show (ExceptT.bindCont f (x s).1) (x s).2 = _
  cases (x s).1 with
  | ok a => rfl
  | error e => rfl

end Comp

/-- Two options that look alike are both empty, or their values look alike. -/
theorem map_cases {f : α → β} {x y : Option α} (h : x.map f = y.map f) :
    x = none ∧ y = none ∨ ∃ a b, x = some a ∧ y = some b ∧ f a = f b := by
  cases x with
  | none => cases y with
    | none => exact .inl ⟨rfl, rfl⟩
    | some b => cases h
  | some a => cases y with
    | none => cases h
    | some b => exact .inr ⟨a, b, rfl, rfl, Option.some.inj h⟩

/-- Both have thrown, or both have returned and the values are related. -/
def Ends (Q : α → β → Prop) : Except ε α → Except ε β → Prop
  | .ok a, .ok b => Q a b
  | .error _, .error _ => True
  | _, _ => False

/-- From related states two computations end alike, and in related states again. -/
def Twin (R : σ → σ → Prop) (Q : α → β → Prop) (x : Comp σ ε α) (y : Comp σ ε β) : Prop :=
  ∀ s t, R s t → Ends Q (x s).1 (y t).1 ∧ R (x s).2 (y t).2

/-- What a computation returns and whether it throws depends only on what related states share. -/
abbrev Respects (R : σ → σ → Prop) (x : Comp σ ε α) : Prop := Twin R Eq x x

namespace Twin

variable {R : σ → σ → Prop} {P : α → β → Prop} {Q : γ → δ → Prop}

theorem pure {a : α} {b : β} (h : P a b) : Twin R P (pure a : Comp σ ε α) (pure b) :=
  fun _ _ hst => ⟨h, hst⟩

theorem throw (e e' : ε) : Twin R P (throw e : Comp σ ε α) (throw e' : Comp σ ε β) :=
  fun _ _ hst => ⟨trivial, hst⟩

theorem bind {x : Comp σ ε α} {y : Comp σ ε β} {f : α → Comp σ ε γ} {g : β → Comp σ ε δ}
    (hx : Twin R P x y) (hf : ∀ a b, P a b → Twin R Q (f a) (g b)) :
    Twin R Q (x >>= f) (y >>= g) := by
  intro s t hst
  obtain ⟨hends, hstates⟩ := hx s t hst
  rw [Comp.bind_apply, Comp.bind_apply]
  cases hxs : (x s).1 with
  | error e => cases hyt : (y t).1 with
    | error e' => exact ⟨trivial, hstates⟩
    | ok b => rw [hxs, hyt] at hends; exact hends.elim
  | ok a => cases hyt : (y t).1 with
    | error e' => rw [hxs, hyt] at hends; exact hends.elim
    | ok b =>
      rw [hxs, hyt] at hends
      exact hf a b hends _ _ hstates

/-- Go on with the same value in both runs. -/
theorem andThen {x y : Comp σ ε α} {f : α → Comp σ ε γ} {g : α → Comp σ ε δ}
    (hx : Twin R Eq x y) (hf : ∀ a, Twin R Q (f a) (g a)) : Twin R Q (x >>= f) (y >>= g) := by
  apply hx.bind
  rintro a _ rfl
  exact hf a

/-- Go on after an outcome that both runs hold as a value. -/
theorem outcome {x : Comp σ ε (Except δ α)} {y : Comp σ ε (Except δ β)} {ω : Type}
    {f : Except δ α → Comp σ ε γ} {g : Except δ β → Comp σ ε ω} {Q : γ → ω → Prop}
    (hx : Twin R (Ends P) x y) (herror : ∀ e e', Twin R Q (f (.error e)) (g (.error e')))
    (hok : ∀ a b, P a b → Twin R Q (f (.ok a)) (g (.ok b))) :
    Twin R Q (x >>= f) (y >>= g) := by
  apply hx.bind
  intro r q hends
  cases r with
  | error e => cases q with
    | error e' => exact herror e e'
    | ok b => exact hends.elim
  | ok a => cases q with
    | error e' => exact hends.elim
    | ok b => exact hok a b hends

theorem reads {f : σ → α} {g : σ → β} (h : ∀ s t, R s t → P (f s) (g t)) :
    Twin R P (Comp.reads f : Comp σ ε α) (Comp.reads g : Comp σ ε β) :=
  fun s t hst => ⟨h s t hst, hst⟩

theorem writes {P : Unit → Unit → Prop} {f g : σ → σ} (hP : P () ())
    (h : ∀ s t, R s t → R (f s) (g t)) :
    Twin R P (Comp.writes f : Comp σ ε Unit) (Comp.writes g : Comp σ ε Unit) :=
  fun s t hst => ⟨hP, h s t hst⟩

theorem swaps {f : σ → α × σ} {g : σ → β × σ}
    (h : ∀ s t, R s t → P (f s).1 (g t).1 ∧ R (f s).2 (g t).2) :
    Twin R P (Comp.swaps f : Comp σ ε α) (Comp.swaps g : Comp σ ε β) :=
  fun s t hst => h s t hst

theorem ensure {c d : Bool} (h : c = d) (e e' : ε) :
    Twin R Eq (Comp.ensure c e : Comp σ ε Unit) (Comp.ensure d e') := by
  subst h
  cases c with
  | true => exact Twin.pure rfl
  | false => exact Twin.throw e e'

end Twin

end TwoRuns
