import AtmXfs.Bridge.Client

namespace AtmXfs.Bridge

open Runs Locks

/-- A mutex is owned by the thread that is at a place where it holds it. -/
def Client.Owned (s : Client) : Prop := Held s.owner s.holds

/-- No wait times out while the reader wakes the slots left, and the reader does not begin with
that while a call whose wait timed out is before `pending_mtx`. -/
def Separate (s : Client) : Action → Prop
  | .caller k _ => s.caller k = .checking true → s.done k = false → s.reader.failsAll = false
  | .reader => s.reader = .toClose → ∀ k < s.nextId, s.caller k ≠ .gaveUp
  | _ => True

instance (s : Client) (a : Action) : Decidable (Separate s a) :=
  match a with
  | .call => inferInstanceAs (Decidable True)
  | .caller _ _ => inferInstanceAs (Decidable (_ → _ → _))
  | .connect => inferInstanceAs (Decidable True)
  | .receive _ => inferInstanceAs (Decidable True)
  | .disconnect => inferInstanceAs (Decidable True)
  | .reader => inferInstanceAs (Decidable (_ → ∀ k < s.nextId, _))
  | .turnTo _ => inferInstanceAs (Decidable True)

section Caller

variable {s s' : Client} {k : Nat} {pc : CallerPc}

theorem holds_moveTo_other (s : Client) (pc : CallerPc) {a : Agent} (h : a ≠ .caller k) :
    (s.moveTo k pc).holds a = s.holds a := by
  cases a with
  | caller j =>
    have hj : j ≠ k := fun heq => h (by rw [heq])
    simp [Client.holds, Client.moveTo, Function.update_of_ne hj]
  | reader => rfl

theorem holds_moveTo_self (s : Client) (k : Nat) (pc : CallerPc) :
    (s.moveTo k pc).holds (.caller k) = pc.holds k := by
  simp [Client.holds, Client.moveTo]

theorem owned_moveTo (h : s.Owned) (hsame : pc.holds k = (s.caller k).holds k) :
    (s.moveTo k pc).Owned := by
  intro m a
  have howner := h m a
  by_cases ha : a = .caller k
  · rw [ha, holds_moveTo_self, hsame]
    rw [ha] at howner
    exact howner
  · rw [holds_moveTo_other s pc ha]
    exact howner

theorem owned_lock_moveTo {m : Mutex} (h : s.Owned) (hlock : s.lock (.caller k) m = some s')
    (hpc : ∀ m', m' ∈ pc.holds k ↔ m' = m ∨ m' ∈ (s.caller k).holds k) :
    (s'.moveTo k pc).Owned := by
  obtain ⟨owner, howner, rfl⟩ := Option.map_eq_some_iff.mp hlock
  refine Held.lock h howner (fun a ha => holds_moveTo_other _ pc ha) fun m' => ?_
  rw [holds_moveTo_self]
  exact hpc m'

theorem owned_unlock_moveTo {m : Mutex} (h : s.Owned) (hm : m ∈ (s.caller k).holds k)
    (hpc : ∀ m', m' ∈ pc.holds k ↔ m' ≠ m ∧ m' ∈ (s.caller k).holds k) :
    ((s.unlock m).moveTo k pc).Owned := by
  have hheld : m ∈ s.holds (.caller k) := hm
  refine Held.unlock h hheld (fun a ha => holds_moveTo_other _ pc ha) fun m' => ?_
  rw [holds_moveTo_self]
  exact hpc m'

/-- What one step of a call can do: take a mutex, give one back, or neither. A call gives up only
after a wait that timed out. -/
inductive CallerMove (s : Client) (k : Nat) : Client → Prop where
  | lock {m : Mutex} {pc : CallerPc} {t : Client} (hlock : s.lock (.caller k) m = some t)
      (hpc : ∀ m', m' ∈ pc.holds k ↔ m' = m ∨ m' ∈ (s.caller k).holds k) (hstays : pc ≠ .gaveUp) :
      CallerMove s k (t.moveTo k pc)
  | unlock {m : Mutex} {pc : CallerPc} (pending : List Nat) (hm : m ∈ (s.caller k).holds k)
      (hpc : ∀ m', m' ∈ pc.holds k ↔ m' ≠ m ∧ m' ∈ (s.caller k).holds k) (hstays : pc ≠ .gaveUp) :
      CallerMove s k (({ s with pending := pending }.unlock m).moveTo k pc)
  | move {pc : CallerPc} (hsame : pc.holds k = (s.caller k).holds k)
      (hgave : pc = .gaveUp → s.caller k = .checking true ∧ s.done k = false) :
      CallerMove s k (s.moveTo k pc)

theorem callerMove_lock {m : Mutex}
    (hstep : (s.lock (.caller k) m).map (fun t => t.moveTo k pc) = some s')
    (hpc : ∀ m', m' ∈ pc.holds k ↔ m' = m ∨ m' ∈ (s.caller k).holds k)
    (hstays : pc ≠ .gaveUp) : CallerMove s k s' := by
  obtain ⟨t, ht, rfl⟩ := Option.map_eq_some_iff.mp hstep
  exact .lock ht hpc hstays

theorem callerMove_unlock {m : Mutex} {pending : List Nat}
    (hstep : some (({ s with pending := pending }.unlock m).moveTo k pc) = some s')
    (hm : m ∈ (s.caller k).holds k)
    (hpc : ∀ m', m' ∈ pc.holds k ↔ m' ≠ m ∧ m' ∈ (s.caller k).holds k)
    (hstays : pc ≠ .gaveUp) : CallerMove s k s' := by
  obtain rfl := Option.some.inj hstep
  exact .unlock pending hm hpc hstays

theorem callerMove_of_step {flag : Bool} (hstep : s.callerStep k flag = some s') :
    CallerMove s k s' := by
  unfold Client.callerStep at hstep
  cases hplace : s.caller k with
  | unborn => simp [hplace] at hstep
  | returned => simp [hplace] at hstep
  | toRegister =>
    simp only [hplace] at hstep
    exact callerMove_lock hstep (by simp [hplace, CallerPc.holds]) (by simp)
  | toSend =>
    simp only [hplace] at hstep
    exact callerMove_lock hstep (by simp [hplace, CallerPc.holds]) (by simp)
  | toWithdraw =>
    simp only [hplace] at hstep
    exact callerMove_lock hstep (by simp [hplace, CallerPc.holds]) (by simp)
  | toWait =>
    simp only [hplace] at hstep
    exact callerMove_lock hstep (by simp [hplace, CallerPc.holds]) (by simp)
  | awake timedOut =>
    simp only [hplace] at hstep
    exact callerMove_lock hstep (by simp [hplace, CallerPc.holds]) (by simp)
  | gaveUp =>
    simp only [hplace] at hstep
    exact callerMove_lock hstep (by simp [hplace, CallerPc.holds]) (by simp)
  | registering =>
    simp only [hplace] at hstep
    exact callerMove_unlock hstep (by simp [hplace, CallerPc.holds])
      (by simp [hplace, CallerPc.holds]) (by simp)
  | withdrawing =>
    simp only [hplace] at hstep
    exact callerMove_unlock hstep (by simp [hplace, CallerPc.holds])
      (by simp [hplace, CallerPc.holds]) (by simp)
  | erasing =>
    simp only [hplace] at hstep
    refine callerMove_unlock hstep (by simp [hplace, CallerPc.holds]) (fun m' => ?_) (by simp)
    cases m' <;> simp [hplace, CallerPc.holds]
  | sending =>
    simp only [hplace] at hstep
    cases flag <;> exact callerMove_unlock hstep (by simp [hplace, CallerPc.holds])
      (by simp [hplace, CallerPc.holds]) (by simp)
  | leaving =>
    simp only [hplace] at hstep
    exact callerMove_unlock hstep (by simp [hplace, CallerPc.holds])
      (by simp [hplace, CallerPc.holds]) (by simp)
  | asleep =>
    simp only [hplace] at hstep
    obtain rfl := Option.some.inj hstep
    exact .move (by simp [hplace, CallerPc.holds]) fun heq => by cases heq
  | checking timedOut =>
    simp only [hplace] at hstep
    split_ifs at hstep with hdone htimeout
    · exact callerMove_unlock hstep (by simp [hplace, CallerPc.holds])
        (by simp [hplace, CallerPc.holds]) (by simp)
    · obtain rfl := Option.some.inj hstep
      exact .move (by simp [hplace, CallerPc.holds])
        fun _ => ⟨by rw [hplace, htimeout], by simpa using hdone⟩
    · exact callerMove_unlock hstep (by simp [hplace, CallerPc.holds])
        (by simp [hplace, CallerPc.holds]) (by simp)

theorem CallerMove.owned (h : s.Owned) (hmove : CallerMove s k s') : s'.Owned := by
  cases hmove with
  | lock hlock hpc _ => exact owned_lock_moveTo h hlock hpc
  | unlock pending hm hpc _ => exact owned_unlock_moveTo h hm hpc
  | move hsame _ => exact owned_moveTo h hsame

theorem CallerMove.frame (hmove : CallerMove s k s') :
    s'.reader = s.reader ∧ s'.nextId = s.nextId ∧ (∀ j, j ≠ k → s'.caller j = s.caller j) ∧
      (s'.caller k = .gaveUp → s.caller k = .checking true ∧ s.done k = false) := by
  cases hmove with
  | lock hlock hpc hstays =>
    obtain ⟨owner, -, rfl⟩ := Option.map_eq_some_iff.mp hlock
    exact ⟨rfl, rfl, fun j hj => Function.update_of_ne hj _ _,
      fun hgave => absurd ((Function.update_self _ _ _).symm.trans hgave) hstays⟩
  | unlock pending hm hpc hstays =>
    exact ⟨rfl, rfl, fun j hj => Function.update_of_ne hj _ _,
      fun hgave => absurd ((Function.update_self _ _ _).symm.trans hgave) hstays⟩
  | move hsame hgave =>
    exact ⟨rfl, rfl, fun j hj => Function.update_of_ne hj _ _,
      fun hhere => hgave ((Function.update_self _ _ _).symm.trans hhere)⟩

end Caller

section Reader

variable {s s' : Client} {pc : ReaderPc}

theorem holds_readerTo_other (s : Client) (pc : ReaderPc) {a : Agent} (h : a ≠ .reader) :
    (s.readerTo pc).holds a = s.holds a := by
  cases a with
  | caller j => rfl
  | reader => exact absurd rfl h

theorem owned_readerTo (h : s.Owned) (hsame : pc.holds = s.reader.holds) :
    (s.readerTo pc).Owned := by
  intro m a
  have howner := h m a
  cases a with
  | caller j => exact howner
  | reader =>
    show s.owner m = some .reader ↔ m ∈ pc.holds
    rw [hsame]
    exact howner

theorem owned_lock_readerTo {m : Mutex} (h : s.Owned) (hlock : s.lock .reader m = some s')
    (hpc : ∀ m', m' ∈ pc.holds ↔ m' = m ∨ m' ∈ s.reader.holds) : (s'.readerTo pc).Owned := by
  obtain ⟨owner, howner, rfl⟩ := Option.map_eq_some_iff.mp hlock
  exact Held.lock h howner (fun a ha => holds_readerTo_other _ pc ha) hpc

theorem owned_unlock_readerTo {m : Mutex} (h : s.Owned) (hm : m ∈ s.reader.holds)
    (hpc : ∀ m', m' ∈ pc.holds ↔ m' ≠ m ∧ m' ∈ s.reader.holds) :
    ((s.unlock m).readerTo pc).Owned := by
  have hheld : m ∈ s.holds .reader := hm
  exact Held.unlock h hheld (fun a ha => holds_readerTo_other _ pc ha) hpc

/-- What one step of the reader can do. It comes to wake the slots left by taking `pending_mtx`
for that. -/
inductive ReaderMove (s : Client) : Client → Prop where
  | lock {m : Mutex} {pc : ReaderPc} {t : Client} (hlock : s.lock .reader m = some t)
      (hpc : ∀ m', m' ∈ pc.holds ↔ m' = m ∨ m' ∈ s.reader.holds)
      (hfails : pc.failsAll = true → s.reader.failsAll = true ∨ s.reader = .toClose) :
      ReaderMove s (t.readerTo pc)
  | unlock {m : Mutex} {pc : ReaderPc} (pending : List Nat) (done : Nat → Bool)
      (hm : m ∈ s.reader.holds) (hpc : ∀ m', m' ∈ pc.holds ↔ m' ≠ m ∧ m' ∈ s.reader.holds)
      (hfails : pc.failsAll = true → s.reader.failsAll = true) :
      ReaderMove s (({ s with pending := pending, done := done }.unlock m).readerTo pc)

theorem readerMove_lock {m : Mutex}
    (hstep : (s.lock .reader m).map (fun t => t.readerTo pc) = some s')
    (hpc : ∀ m', m' ∈ pc.holds ↔ m' = m ∨ m' ∈ s.reader.holds)
    (hfails : pc.failsAll = true → s.reader.failsAll = true ∨ s.reader = .toClose) :
    ReaderMove s s' := by
  obtain ⟨t, ht, rfl⟩ := Option.map_eq_some_iff.mp hstep
  exact .lock ht hpc hfails

theorem readerMove_unlock {m : Mutex} {pending : List Nat} {done : Nat → Bool}
    (hstep : some (({ s with pending := pending, done := done }.unlock m).readerTo pc) = some s')
    (hm : m ∈ s.reader.holds) (hpc : ∀ m', m' ∈ pc.holds ↔ m' ≠ m ∧ m' ∈ s.reader.holds)
    (hfails : pc.failsAll = true → s.reader.failsAll = true) : ReaderMove s s' := by
  obtain rfl := Option.some.inj hstep
  exact .unlock pending done hm hpc hfails

theorem readerMove_of_step (hstep : s.readerStep = some s') : ReaderMove s s' := by
  unfold Client.readerStep at hstep
  cases hplace : s.reader with
  | stopped => simp [hplace] at hstep
  | reading => simp [hplace] at hstep
  | toMatch k =>
    simp only [hplace] at hstep
    exact readerMove_lock hstep (by simp [hplace, ReaderPc.holds]) (by simp [ReaderPc.failsAll])
  | matching k =>
    simp only [hplace] at hstep
    split_ifs at hstep
    · exact readerMove_unlock hstep (by simp [hplace, ReaderPc.holds])
        (by simp [hplace, ReaderPc.holds]) (by simp [ReaderPc.failsAll])
    · exact readerMove_unlock hstep (by simp [hplace, ReaderPc.holds])
        (by simp [hplace, ReaderPc.holds]) (by simp [ReaderPc.failsAll])
  | toFill k =>
    simp only [hplace] at hstep
    exact readerMove_lock hstep (by simp [hplace, ReaderPc.holds]) (by simp [ReaderPc.failsAll])
  | filling k =>
    simp only [hplace] at hstep
    exact readerMove_unlock hstep (by simp [hplace, ReaderPc.holds])
      (by simp [hplace, ReaderPc.holds]) (by simp [ReaderPc.failsAll])
  | toClose =>
    simp only [hplace] at hstep
    obtain ⟨t, ht, rfl⟩ := Option.map_eq_some_iff.mp hstep
    exact .lock ht (by simp [hplace, ReaderPc.holds]) fun _ => .inr hplace
  | closing rest =>
    cases rest with
    | nil =>
      simp only [hplace] at hstep
      exact readerMove_unlock hstep (by simp [hplace, ReaderPc.holds])
        (by simp [hplace, ReaderPc.holds]) (by simp [ReaderPc.failsAll])
    | cons k rest => simp [hplace] at hstep
  | toFail k rest =>
    simp only [hplace] at hstep
    exact readerMove_lock hstep (by simp [hplace, ReaderPc.holds])
      (by simp [hplace, ReaderPc.failsAll])
  | failing k rest =>
    simp only [hplace] at hstep
    refine readerMove_unlock hstep (by simp [hplace, ReaderPc.holds]) (fun m' => ?_)
      (by simp [hplace, ReaderPc.failsAll])
    cases m' <;> simp [hplace, ReaderPc.holds]

theorem ReaderMove.owned (h : s.Owned) (hmove : ReaderMove s s') : s'.Owned := by
  cases hmove with
  | lock hlock hpc _ => exact owned_lock_readerTo h hlock hpc
  | unlock pending done hm hpc _ => exact owned_unlock_readerTo h hm hpc

theorem ReaderMove.frame (hmove : ReaderMove s s') :
    s'.caller = s.caller ∧ s'.nextId = s.nextId ∧
      (s'.reader.failsAll = true → s.reader.failsAll = true ∨ s.reader = .toClose) := by
  cases hmove with
  | lock hlock hpc hfails =>
    obtain ⟨owner, -, rfl⟩ := Option.map_eq_some_iff.mp hlock
    exact ⟨rfl, rfl, hfails⟩
  | unlock pending done hm hpc hfails => exact ⟨rfl, rfl, fun hnext => .inl (hfails hnext)⟩

end Reader

theorem callerStep_unborn {s : Client} {k : Nat} (h : s.caller k = .unborn) (flag : Bool) :
    s.callerStep k flag = none := by
  simp [Client.callerStep, h]

/-- What one step of the client can do: begin a call, go on with one or with the reader, or send
the reader to another place with the mutexes it has. -/
inductive ClientMove (s : Client) : Action → Client → Prop where
  | call : ClientMove s .call { s.moveTo s.nextId .toRegister with nextId := s.nextId + 1 }
  | caller {k : Nat} {flag : Bool} {s' : Client} (hborn : s.caller k ≠ .unborn)
      (hmove : CallerMove s k s') : ClientMove s (.caller k flag) s'
  | reader {s' : Client} (hmove : ReaderMove s s') : ClientMove s .reader s'
  | turn {a : Action} {pc : ReaderPc} (hsame : pc.holds = s.reader.holds)
      (hfails : pc.failsAll = true → s.reader.failsAll = true) : ClientMove s a (s.readerTo pc)

theorem clientMove_of_step {s s' : Client} {a : Action} (hstep : clientStep s a = some s') :
    ClientMove s a s' := by
  cases a with
  | call =>
    obtain rfl := Option.some.inj hstep
    exact .call
  | caller k flag =>
    have hborn : s.caller k ≠ .unborn := by
      intro hunborn
      rw [clientStep, callerStep_unborn hunborn] at hstep
      cases hstep
    exact .caller hborn (callerMove_of_step hstep)
  | reader => exact .reader (readerMove_of_step hstep)
  | connect =>
    simp only [clientStep] at hstep
    split_ifs at hstep with hreader
    obtain rfl := Option.some.inj hstep
    exact .turn (by rw [hreader]; rfl) nofun
  | receive k =>
    simp only [clientStep] at hstep
    split_ifs at hstep with hreader
    obtain rfl := Option.some.inj hstep
    exact .turn (by rw [hreader]; rfl) nofun
  | disconnect =>
    simp only [clientStep] at hstep
    split_ifs at hstep with hreader
    obtain rfl := Option.some.inj hstep
    exact .turn (by rw [hreader]; rfl) nofun
  | turnTo k =>
    simp only [clientStep] at hstep
    cases hreader : s.reader with
    | closing rest =>
      simp only [hreader] at hstep
      split_ifs at hstep
      obtain rfl := Option.some.inj hstep
      exact .turn (by rw [hreader]; rfl) fun _ => by rw [hreader]; rfl
    | _ => simp [hreader] at hstep

/-- The invariant: owners are where they hold, a call to come has no place yet, and no call has
given up while the reader wakes the slots left. -/
structure Guarded (s : Client) : Prop where
  owned : s.Owned
  unborn : ∀ k, s.nextId ≤ k → s.caller k = .unborn
  apart : s.reader.failsAll = true → ∀ k, s.caller k ≠ .gaveUp

theorem Guarded.born {s : Client} (h : Guarded s) {k : Nat} (hk : s.caller k ≠ .unborn) :
    k < s.nextId := by
  by_contra hle
  exact hk (h.unborn k (by omega))

theorem Guarded.call {s : Client} (h : Guarded s) :
    Guarded { s.moveTo s.nextId .toRegister with nextId := s.nextId + 1 } := by
  have hmoved : (s.moveTo s.nextId .toRegister).Owned :=
    owned_moveTo h.owned (by rw [h.unborn s.nextId (Nat.le_refl _)]; rfl)
  refine ⟨hmoved, fun k hk => ?_, fun hfails k => ?_⟩
  · have hnext : s.nextId + 1 ≤ k := hk
    have hother : k ≠ s.nextId := by omega
    exact (Function.update_of_ne hother _ _).trans (h.unborn k (by omega))
  · by_cases hk : k = s.nextId
    · rw [hk]
      exact fun hgave => by cases (Function.update_self _ _ _).symm.trans hgave
    · have hsame := Function.update_of_ne hk CallerPc.toRegister s.caller
      exact fun hgave => h.apart hfails k (hsame.symm.trans hgave)

theorem Guarded.caller {s s' : Client} {k : Nat} {flag : Bool} (h : Guarded s)
    (hok : Separate s (.caller k flag)) (hborn : s.caller k ≠ .unborn)
    (hmove : CallerMove s k s') : Guarded s' := by
  obtain ⟨hreader, hnext, hother, hgave⟩ := hmove.frame
  have hlt := h.born hborn
  refine ⟨hmove.owned h.owned, fun j hj => ?_, fun hfails j hj => ?_⟩
  · rw [hnext] at hj
    rw [hother j (by omega)]
    exact h.unborn j hj
  · rw [hreader] at hfails
    by_cases hjk : j = k
    · rw [hjk] at hj
      obtain ⟨hchecking, hdone⟩ := hgave hj
      exact Bool.false_ne_true ((hok hchecking hdone).symm.trans hfails)
    · exact h.apart hfails j ((hother j hjk).symm.trans hj)

theorem Guarded.reader {s s' : Client} (h : Guarded s) (hok : Separate s .reader)
    (hmove : ReaderMove s s') : Guarded s' := by
  obtain ⟨hcaller, hnext, hfrom⟩ := hmove.frame
  refine ⟨hmove.owned h.owned, fun j hj => ?_, fun hfails j hj => ?_⟩
  · rw [hcaller]
    exact h.unborn j (by omega)
  · rw [hcaller] at hj
    rcases hfrom hfails with hfails | hclose
    · exact h.apart hfails j hj
    · have hlt := h.born (k := j) (by rw [hj]; nofun)
      exact hok hclose j hlt hj

theorem guarded_step {s s' : Client} {a : Action} (h : Guarded s) (hok : Separate s a)
    (hstep : clientStep s a = some s') : Guarded s' := by
  cases clientMove_of_step hstep with
  | call => exact h.call
  | caller hborn hmove => exact h.caller hok hborn hmove
  | reader hmove => exact h.reader hok hmove
  | turn hsame hfails =>
    exact ⟨owned_readerTo h.owned hsame, h.unborn, fun hfailing => h.apart (hfails hfailing)⟩

/-- While the reader wakes the slots left, `pending_mtx` is below the slots, else above them. -/
def rank (s : Client) : Mutex → Nat
  | .write => 0
  | .pending => 2
  | .slot _ => if s.reader.failsAll then 3 else 1

theorem guarded_not_deadlocked {s : Client} (h : Guarded s) : ¬s.Deadlocked := by
  refine h.owned.not_deadlocked (rank s) fun a m m' hholds hwants => ?_
  cases a with
  | caller k =>
    cases hplace : s.caller k with
    | gaveUp =>
      have hapart : s.reader.failsAll = false :=
        Bool.eq_false_iff.mpr fun hfails => h.apart hfails k hplace
      simp only [Client.holds, Client.wants, hplace, CallerPc.holds, CallerPc.wants,
        List.mem_singleton, Option.some.injEq] at hholds hwants
      rw [hholds, ← hwants]
      simp [rank, hapart]
    | _ =>
      simp [Client.holds, Client.wants, hplace, CallerPc.holds, CallerPc.wants] at hholds hwants
  | reader =>
    cases hplace : s.reader with
    | toFail k rest =>
      simp only [Client.holds, Client.wants, hplace, ReaderPc.holds, ReaderPc.wants,
        List.mem_singleton, Option.some.injEq] at hholds hwants
      rw [hholds, ← hwants]
      simp [rank, hplace, ReaderPc.failsAll]
    | _ =>
      simp [Client.holds, Client.wants, hplace, ReaderPc.holds, ReaderPc.wants] at hholds hwants

theorem guarded_start : Guarded Client.start :=
  ⟨fun m a => by cases a <;> simp [Client.start, Client.holds, CallerPc.holds, ReaderPc.holds],
    fun _ _ => rfl, fun hfails => by cases hfails⟩

/-- No two threads of a client block each other in a run in which time-outs and the end of the
connection stay apart. -/
theorem client_not_deadlocked {actions : List Action}
    (h : Along clientStep Separate Client.start actions) :
    Always clientStep (fun s => ¬s.Deadlocked) Client.start actions :=
  (always_of_along (fun _ _ _ hs hok hstep => guarded_step hs hok hstep) guarded_start h).mono
    fun _ hs => guarded_not_deadlocked hs

/-- A call that is answered, one that times out, and then the end of the connection. -/
theorem client_not_deadlocked_calls :
    Always clientStep (fun s => ¬s.Deadlocked) Client.start
      [.connect, .call, .caller 0 true, .caller 0 true, .caller 0 true, .caller 0 true,
        .receive 0, .reader, .reader, .reader, .reader, .caller 0 true, .caller 0 true,
        .call, .caller 1 true, .caller 1 true, .caller 1 true, .caller 1 true, .caller 1 true,
        .caller 1 true, .caller 1 true, .caller 1 true, .caller 1 true, .caller 1 true,
        .caller 1 true, .caller 1 true, .disconnect, .reader, .reader] :=
  client_not_deadlocked (by decide)

/-- A call that gives up while the reader wakes the slots left deadlocks the client as soon as the
reader comes to its slot. -/
theorem overlap_deadlocks {s : Client} (h : s.Owned) {k : Nat} {rest : List Nat}
    (hreader : s.reader = .closing rest) (hk : k ∈ rest) (hgave : s.caller k = .gaveUp) :
    ∃ t, clientStep s (.turnTo k) = some t ∧ t.Deadlocked := by
  have hslot : s.owner (.slot k) = some (.caller k) :=
    (h (.slot k) (.caller k)).mpr (by simp [Client.holds, hgave, CallerPc.holds])
  have hpending : s.owner .pending = some .reader :=
    (h .pending .reader).mpr (by simp [Client.holds, hreader, ReaderPc.holds])
  refine ⟨s.readerTo (.toFail k (rest.erase k)), by simp [clientStep, hreader, hk], ?_⟩
  refine ⟨.caller k, .reader, .slot k, .pending, hslot, ?_, hpending, rfl⟩
  show (s.caller k).wants k = some .pending
  rw [hgave]
  rfl

/-- A call times out and keeps its slot's mutex; the connection ends before it has `pending_mtx`. -/
theorem timeout_disconnect_deadlocks :
    ¬∀ actions, Always clientStep (fun s => ¬s.Deadlocked) Client.start actions := by
  intro h
  have hlast := (h [.connect, .call, .caller 0 true, .caller 0 true, .caller 0 true,
    .caller 0 true, .caller 0 true, .caller 0 true, .caller 0 true, .caller 0 true, .caller 0 true,
    .disconnect, .reader, .turnTo 0]).last rfl
  exact hlast ⟨.caller 0, .reader, .slot 0, .pending, rfl, rfl, rfl, rfl⟩

end AtmXfs.Bridge
