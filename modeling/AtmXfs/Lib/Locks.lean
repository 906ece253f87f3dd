import Mathlib.Logic.Function.Basic
import Mathlib.Data.List.Basic

namespace Locks

variable {Agent Mutex : Type} [DecidableEq Mutex]

/-- Take a mutex; `none` while somebody has it. -/
def lock (owner : Mutex → Option Agent) (a : Agent) (m : Mutex) : Option (Mutex → Option Agent) :=
  if (owner m).isNone then some (Function.update owner m (some a)) else none

def unlock (owner : Mutex → Option Agent) (m : Mutex) : Mutex → Option Agent :=
  Function.update owner m none

/-- The owners of the mutexes are the agents that say they hold them. -/
def Held (owner : Mutex → Option Agent) (holds : Agent → List Mutex) : Prop :=
  ∀ m a, owner m = some a ↔ m ∈ holds a

/-- An agent holds a mutex and waits for one whose holder waits for the first. -/
def Deadlocked (owner : Mutex → Option Agent) (wants : Agent → Option Mutex) : Prop :=
  ∃ a b m m', owner m = some a ∧ wants a = some m' ∧ owner m' = some b ∧ wants b = some m

variable {owner owner' : Mutex → Option Agent} {holds holds' : Agent → List Mutex}

theorem lock_eq_some {a : Agent} {m : Mutex} (h : lock owner a m = some owner') :
    owner m = none ∧ owner' = Function.update owner m (some a) := by
  unfold lock at h
  split_ifs at h with hfree
  exact ⟨Option.isNone_iff_eq_none.mp hfree, (Option.some.inj h).symm⟩

theorem Held.lock {a : Agent} {m : Mutex} (h : Held owner holds)
    (hlock : Locks.lock owner a m = some owner')
    (hother : ∀ b, b ≠ a → holds' b = holds b)
    (hself : ∀ m', m' ∈ holds' a ↔ m' = m ∨ m' ∈ holds a) : Held owner' holds' := by
  obtain ⟨hfree, rfl⟩ := lock_eq_some hlock
  intro m' b
  by_cases hm : m' = m
  · rw [hm, Function.update_self]
    by_cases hb : b = a
    · rw [hb, hself]
      simp
    · have hnot : m ∉ holds b := fun hmem => by
        have howner := (h m b).mpr hmem
        rw [hfree] at howner
        cases howner
      rw [hother b hb]
      exact iff_of_false (fun heq => hb (Option.some.inj heq).symm) hnot
  · rw [Function.update_of_ne hm, h m' b]
    by_cases hb : b = a
    · rw [hb, hself, or_iff_right hm]
    · rw [hother b hb]

theorem Held.unlock {a : Agent} {m : Mutex} (h : Held owner holds) (hm : m ∈ holds a)
    (hother : ∀ b, b ≠ a → holds' b = holds b)
    (hself : ∀ m', m' ∈ holds' a ↔ m' ≠ m ∧ m' ∈ holds a) :
    Held (Locks.unlock owner m) holds' := by
  have howner := (h m a).mpr hm
  intro m' b
  by_cases hm' : m' = m
  · rw [hm', Locks.unlock, Function.update_self]
    refine iff_of_false (fun heq => by cases heq) fun hmem => ?_
    by_cases hb : b = a
    · rw [hb] at hmem
      exact ((hself m).mp hmem).1 rfl
    · rw [hother b hb, ← h m b, howner] at hmem
      exact hb (Option.some.inj hmem).symm
  · rw [Locks.unlock, Function.update_of_ne hm', h m' b]
    by_cases hb : b = a
    · rw [hb, hself, and_iff_right hm']
    · rw [hother b hb]

omit [DecidableEq Mutex] in
/-- Where every agent waits only for mutexes above those it holds, there is no deadlock. -/
theorem Held.not_deadlocked {wants : Agent → Option Mutex} (h : Held owner holds)
    (rank : Mutex → Nat)
    (hrank : ∀ a m m', m ∈ holds a → wants a = some m' → rank m < rank m') :
    ¬Deadlocked owner wants := by
  rintro ⟨a, b, m, m', hm, hwants, hm', hwants'⟩
  have hup := hrank a m m' ((h m a).mp hm) hwants
  have hdown := hrank b m' m ((h m' b).mp hm') hwants'
  omega

end Locks
