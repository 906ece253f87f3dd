import AtmXfs.Atm.Free
import AtmXfs.Lib.Runs

namespace AtmXfs

open Js Host Pin

/-- An armed idle timer belongs to the current session, which waits for input. -/
def Armed (s : Atm) : Prop :=
  ∀ sid, s.idleTimer = some sid →
    s.session = some sid ∧ (s.sessions sid).state.idleTimeout = true

/-- The timer acts on no session but the one that it was armed for, and only while that one waits
for input. -/
structure Watched (accountOf : String → String) (s : Atm) : Prop where
  armed : Armed s
  fires : ∀ t, atmStep accountOf s .idleTimeout = some t → ∃ sid, s.idleTimer = some sid ∧
    s.session = some sid ∧ (s.sessions sid).state.idleTimeout = true ∧
      t = s.clearIdleTimer.handleIdleTimeout ∧ ∀ n, n ≠ sid → t.sessions n = s.sessions n

theorem armed_of_none {s : Atm} (h : s.idleTimer = none) : Armed s := by
  intro sid hsid
  rw [h] at hsid
  cases hsid

theorem idleTimer_of_armed {s : Atm} (h : Armed s) (hsession : s.session = none) :
    s.idleTimer = none := by
  cases htimer : s.idleTimer with
  | none => rfl
  | some sid =>
    have hcurrent := (h sid htimer).1
    rw [hsession] at hcurrent
    cases hcurrent

theorem armed_armIdleTimer {s : Atm} {state : AtmState}
    (hstate : ∀ sid, s.session = some sid → (s.sessions sid).state = state) :
    Armed (s.armIdleTimer state) := by
  intro sid hsid
  simp only [Atm.armIdleTimer] at hsid ⊢
  split at hsid
  · next hwaits => exact ⟨hsid, by rw [hstate sid hsid, hwaits]⟩
  · cases hsid

theorem armed_update {s : Atm} (h : Armed s) {sid : Nat} {session : AtmSession}
    (hstate : session.state = (s.sessions sid).state) :
    Armed { s with sessions := Function.update s.sessions sid session } := by
  intro n hn
  obtain ⟨hcurrent, hwaits⟩ := h n hn
  refine ⟨hcurrent, ?_⟩
  by_cases heq : n = sid
  · subst heq
    simpa [hstate] using hwaits
  · simpa [Function.update_of_ne heq] using hwaits

theorem armed_transitionTo {s : Atm} (next : AtmState) (h : Armed s) :
    Armed (s.transitionTo next) := by
  unfold Atm.transitionTo
  split
  · exact h
  · next sid hsid =>
    apply armed_armIdleTimer
    intro n hn
    simp only [Atm.record, Atm.modify, hsid, Option.some.injEq] at hn ⊢
    subst hn
    simp

theorem armed_onCardInserted {s : Atm} (pan : String) (h : Armed s) :
    Armed (s.onCardInserted pan) := by
  unfold Atm.onCardInserted
  split
  · exact h
  · next hsession =>
    have htimer := idleTimer_of_armed h hsession
    exact armed_of_none htimer

theorem armed_afterEnded {s : Atm} (sid : Nat) (reason : EndReason) (h : Armed s) :
    Armed (s.afterEnded sid reason) := by
  apply armed_of_none
  cases hsession : s.session with
  | none =>
    have htimer := idleTimer_of_armed h hsession
    simpa [Atm.afterEnded, Atm.record, Atm.transitionTo, hsession] using htimer
  | some n =>
    simp [Atm.afterEnded, Atm.record, Atm.transitionTo, Atm.armIdleTimer, AtmState.idleTimeout,
      hsession]

/-- Every move of every handler, a stale one included, keeps the timer with the current session. -/
theorem loose_armed : Atm.Loose true true Armed where
  onCardInserted _ pan _ h := armed_onCardInserted pan h
  modify s f hf h := by
    unfold Atm.modify
    split
    · exact h
    · exact armed_update h (hf _).1
  setAccount s sid _ h := armed_update h rfl
  transitionTo _ next h := armed_transitionTo next h
  notifyState s h := by
    unfold Atm.notifyState
    split
    · exact h
    · next session hsession =>
      apply armed_armIdleTimer
      intro sid hsid
      simp only [Atm.current, hsid, Option.map_some, Option.some.injEq] at hsession
      rw [hsession]
  clearIdleTimer _ _ := armed_of_none rfl
  suspend _ _ _ h := h
  setTask _ _ _ h := h
  record _ _ h := h
  count _ _ h := h
  afterEnded _ sid reason h := armed_afterEnded sid reason h
  reader _ _ _ h := h
  pad _ _ h := h

theorem failSession_sessions {s : Atm} (msg : String) (reason : EndReason) {n : Nat}
    (hn : s.session ≠ some n) : (s.failSession msg reason).sessions n = s.sessions n := by
  cases hsession : s.session with
  | none => simp [Atm.failSession, hsession]
  | some sid =>
    have hne : n ≠ sid := fun heq => hn (heq ▸ hsession)
    simp [Atm.failSession, Atm.safeEject, Atm.suspend, Atm.transitionTo, Atm.modify, Atm.record,
      Atm.armIdleTimer, hsession, Function.update_of_ne hne]

theorem watched_of_armed {s : Atm} (accountOf : String → String) (h : Armed s) :
    Watched accountOf s where
  armed := h
  fires t ht := by
    obtain ⟨sid, htimer, ⟨hsession, rfl⟩ | ⟨hother, -⟩⟩ := idleTimeout_cases ht
    · refine ⟨sid, htimer, hsession, (h sid htimer).2, rfl, ?_⟩
      intro n hn
      apply failSession_sessions
      intro heq
      exact hn (Option.some.inj (heq.symm.trans hsession))
    · exact absurd (h sid htimer).1 hother

/-- In every run the timer is armed for the current session only, and only while that one waits for
input. -/
theorem watched_of_reaches {accountOf : String → String} {s : Atm}
    (h : Runs.Reaches (atmStep accountOf) Runs.free Atm.init s) : Watched accountOf s := by
  have hstep : ∀ s a t, Armed s → Runs.free s a → atmStep accountOf s a = some t → Armed t :=
    fun s a _ hs _ ht => loose_armed.free.step (a.free_full s) hs ht
  exact watched_of_armed accountOf (h.invariant hstep (armed_of_none rfl))

/-- A card is inserted and the session waits for its PIN. -/
theorem watched_of_pinEntry :
    ∃ s, Runs.exec (atmStep fun _ => "ACC") Atm.init
      [.onCardInserted "4580", .resume 0 .done, .executeCommand 1 none, .resume 1 .done,
       .resume 2 (.auth ⟨true, some "ACC", "00", none⟩)] = some s ∧
      s.idleTimer = some 0 ∧ Watched (fun _ => "ACC") s := by
  refine ⟨_, rfl, rfl, watched_of_reaches ?_⟩
  exact .of_exec [.onCardInserted "4580", .resume 0 .done, .executeCommand 1 none,
    .resume 1 .done, .resume 2 (.auth ⟨true, some "ACC", "00", none⟩)] rfl

end AtmXfs
