import AtmXfs.Atm.Free
import AtmXfs.Lib.Runs

namespace AtmXfs

open Js Host Pin

/-- The service with the session that each suspended handler was begun for. -/
structure Owned where
  atm : Atm
  owner : Nat → Option Nat

def Owned.init : Owned := ⟨.init, fun _ => none⟩

/-- The session that acts in a step: the one that a suspended handler was begun for, the one that an
insertion begins, or the current one. -/
def actor (s : Owned) : AtmStep → Option Nat
  | .executeCommand i _ => s.owner i
  | .writeRow i => s.owner i
  | .resume i _ => s.owner i
  | .onCardInserted _ => some (s.atm.session.getD s.atm.nextSession)
  | _ => s.atm.session

/-- The handlers that a step suspends belong to the session that acts in it. -/
def ownedStep (accountOf : String → String) (s : Owned) (a : AtmStep) : Option Owned :=
  (atmStep accountOf s.atm a).map fun t =>
    ⟨t, fun i => if s.atm.nextTask ≤ i then actor s a else s.owner i⟩

/-- What a session shows of a handler. -/
def AtmSession.facts (x : AtmSession) :
    AtmState × Option Int × Option String × Nat × Option EndReason :=
  (x.state, x.amount, x.stanNo, x.failedPinAttempts, x.endReason)

/-- The session `own` leaves the other sessions, their card and their being current alone. -/
structure Framed (s : Atm) (own : Option Nat) (t : Atm) : Prop where
  sessions : ∀ sid, some sid ≠ own → (t.sessions sid).facts = (s.sessions sid).facts
  card : ∀ sid, s.card = some sid → some sid ≠ own → t.card = some sid
  current : ∀ sid, s.session = some sid → some sid ≠ own → t.session = some sid

def FramedStep (accountOf : String → String) (s : Owned) (a : AtmStep) : Prop :=
  ∀ t, ownedStep accountOf s a = some t → Framed s.atm (actor s a) t.atm

theorem Framed.of_same {s t : Atm} {own : Option Nat} (hsessions : t.sessions = s.sessions)
    (hsession : t.session = s.session) (hcard : t.card = s.card) : Framed s own t where
  sessions sid _ := by rw [hsessions]
  card sid hsid _ := hcard.trans hsid
  current sid hsid _ := hsession.trans hsid

/-- Where the session `own` is the current one, or none is, the moves of the handlers reach no other
session. -/
structure Within (s : Atm) (own : Option Nat) (t : Atm) : Prop where
  sessions : ∀ sid, some sid ≠ own → (t.sessions sid).facts = (s.sessions sid).facts
  card : ∀ sid, s.card = some sid → some sid ≠ own → t.card = some sid
  current : ∀ sid, t.session = some sid → some sid = own

theorem Within.start {s : Atm} {own : Option Nat}
    (h : ∀ sid, s.session = some sid → some sid = own) : Within s own s :=
  ⟨fun _ _ => rfl, fun _ hcard _ => hcard, h⟩

theorem Within.framed {s t : Atm} {own : Option Nat}
    (hstart : ∀ sid, s.session = some sid → some sid = own) (h : Within s own t) :
    Framed s own t where
  sessions := h.sessions
  card := h.card
  current sid hsid hne := absurd (hstart sid hsid) hne

theorem Within.of_eq {s t u : Atm} {own : Option Nat} (h : Within s own t)
    (hsessions : u.sessions = t.sessions) (hsession : u.session = t.session)
    (hcard : u.card = t.card) : Within s own u where
  sessions sid hne := by
    rw [hsessions]
    exact h.sessions sid hne
  card sid hsid hne := hcard.trans (h.card sid hsid hne)
  current sid hsid := h.current sid (hsession ▸ hsid)

theorem Within.modify {s t : Atm} {own : Option Nat} (h : Within s own t)
    (f : AtmSession → AtmSession) : Within s own (t.modify f) where
  sessions sid hne := by
    unfold Atm.modify
    split
    · exact h.sessions sid hne
    · next n hn =>
      have hother : sid ≠ n := by
        rintro rfl
        exact hne (h.current sid hn)
      simpa [Function.update_of_ne hother] using h.sessions sid hne
  card sid hsid hne := by
    rw [Atm.modify_card]
    exact h.card sid hsid hne
  current sid hsid := h.current sid (by simpa using hsid)

theorem Within.transitionTo {s t : Atm} {own : Option Nat} (h : Within s own t)
    (next : AtmState) : Within s own (t.transitionTo next) := by
  unfold Atm.transitionTo
  split
  · exact h
  · exact (h.modify fun session => { session with state := next }).of_eq rfl rfl rfl

theorem loose_within (s : Atm) (own : Option Nat) : Atm.Loose false false (Within s own) where
  onCardInserted _ _ hinserts _ := nomatch hinserts
  modify _ f _ h := h.modify f
  setAccount t n accountId h := by
    refine ⟨?_, h.card, h.current⟩
    intro sid hne
    by_cases hsid : sid = n
    · subst hsid
      simpa [Atm.setAccount, AtmSession.facts] using h.sessions sid hne
    · simpa [Atm.setAccount, Function.update_of_ne hsid] using h.sessions sid hne
  transitionTo _ next h := h.transitionTo next
  notifyState t h := by
    unfold Atm.notifyState
    split
    · exact h
    · exact h.of_eq rfl rfl rfl
  clearIdleTimer _ h := h.of_eq rfl rfl rfl
  suspend _ _ _ h := h.of_eq rfl rfl rfl
  setTask _ _ _ h := h.of_eq rfl rfl rfl
  record _ _ h := h.of_eq rfl rfl rfl
  count _ _ h := h.of_eq rfl rfl rfl
  afterEnded t sid reason h := by
    have hended := h.transitionTo .ended
    exact ⟨hended.sessions, hended.card, nofun⟩
  reader _ _ hcards _ := nomatch hcards
  pad _ _ h := h.of_eq rfl rfl rfl

/-- The handler goes on with the current session, whichever it is; with a card in the reader an
insertion does so too. -/
def Cont.touches (card : Option Nat) : Cont → Phase → Reply → Bool
  | .inserted _ _, _, .done => card.isSome
  | .trackRead _ _, .replied error, .done => error.isSome
  | .pinEntered, _, _ => false
  | .dispensed _ _, .replied (some _), _ => false
  | .cardRetained _, _, _ => false
  | _, _, .throws => false
  | _, _, _ => true

/-- A handler that goes on with the current session is one of that session, and the reader ejects
and retains a card for its own session only. -/
def ownTurn (s : Owned) : AtmStep → Bool
  | .resume i reply => (s.atm.tasks i).all fun task =>
    !task.cont.touches s.atm.card task.phase reply ||
      s.atm.session.all fun sid => some sid = s.owner i
  | .executeCommand i _ => (s.atm.tasks i).all fun task =>
    !task.cont.takesCard || s.atm.card.all fun sid => some sid = s.owner i
  | _ => true

theorem Framed.usePad {s t : Atm} {own : Option Nat} (h : Framed s own t)
    (after : Pad (Option Nat) × Pin.Settled (Option Nat)) : Framed s own (t.usePad after) :=
  Atm.usePad_keeps (fun _ _ hu => ⟨hu.sessions, hu.card, hu.current⟩)
    (fun _ _ _ _ hu => ⟨hu.sessions, hu.card, hu.current⟩) after h

theorem framed_executeCommand {s t : Atm} {own : Option Nat} {i : Nat} {injected : Option String}
    (hcard : ∀ task, s.tasks i = some task → task.cont.takesCard = true →
      ∀ sid, s.card = some sid → some sid = own)
    (ht : s.executeCommand i injected = some t) : Framed s own t := by
  obtain ⟨cont, htask, ⟨rfl, rfl⟩ | ⟨-, v, error, rfl, hv⟩⟩ := Atm.executeCommand_cases ht
  · have hentered : Framed s own (s.setTask i (some ⟨.pinEntered, .entered⟩)) :=
      Framed.of_same rfl rfl rfl
    exact hentered.usePad _
  · rcases hv with ⟨rfl, -⟩ | ⟨a, amount, -, rfl⟩ | ⟨htakes, rfl⟩
    · exact Framed.of_same rfl rfl rfl
    · exact Framed.of_same rfl rfl rfl
    · refine ⟨fun _ _ => rfl, ?_, fun _ hsid _ => hsid⟩
      intro sid hsid hne
      exact absurd (hcard _ htask htakes sid hsid) hne

/-- A handler that does not go on with the current session leaves all of them alone. -/
theorem framed_untouched {s t : Atm} {own : Option Nat} {cont : Cont} {phase : Phase}
    {reply : Reply} (htouches : cont.touches s.card phase reply = false)
    (ht : s.continueWith cont phase reply = some t) : Framed s own t := by
  have hsame : Framed s own s := Framed.of_same rfl rfl rfl
  have hcard : s.card = none → ∀ sid pan, Framed s own (s.afterInserted sid pan) := by
    intro hnone sid pan
    have hnotified : s.notifyState.sessions = s.sessions ∧ s.notifyState.session = s.session := by
      unfold Atm.notifyState
      split
      · exact ⟨rfl, rfl⟩
      · exact ⟨rfl, rfl⟩
    simp only [Atm.afterInserted, hnone]
    refine ⟨?_, ?_, ?_⟩
    · intro n _
      simp [hnotified.1]
    · intro n hn
      cases hnone.symm.trans hn
    · intro n hn _
      simpa [hnotified.2] using hn
  unfold Atm.continueWith at ht
  split at ht <;> cases ht <;> try cases htouches
  · refine hcard ?_ _ _
    simpa [Cont.touches] using htouches
  · next error =>
    cases error with
    | none => exact Framed.of_same rfl rfl rfl
    | some detail => cases htouches
  · unfold Atm.verifyPinBuffer
    split
    · exact hsame
    · split
      · exact Framed.of_same rfl rfl rfl
      · exact Framed.of_same rfl rfl rfl
  · unfold Atm.afterDispenseError
    split
    · exact hsame
    · exact Framed.of_same rfl rfl rfl
  · unfold Atm.afterRetain
    split
    · exact hsame
    · exact Framed.of_same rfl rfl rfl
  · exact hsame
  · exact hsame

/-- A handler that goes on with its own session, or with none, leaves the others alone. -/
theorem framed_touched {s t : Atm} {own : Option Nat} {cont : Cont} {phase : Phase}
    {reply : Reply} (hown : ∀ sid, s.session = some sid → some sid = own)
    (htouches : cont.touches s.card phase reply = true)
    (ht : s.continueWith cont phase reply = some t) : Framed s own t := by
  have hloose := loose_within s own
  have hstart : Within s own s := .start hown
  apply Within.framed hown
  cases hfree : cont.serves || cont.plain ⟨false, true, true, false⟩ with
  | true => exact hloose.free.continueWith hfree hstart ht
  | false =>
    cases cont with
    | inserted sid pan =>
      cases phase <;> cases reply <;> cases ht
      · have hcard : s.card.isSome = true := htouches
        simp only [Atm.afterInserted, hcard, if_true]
        exact hloose.free.toSteady.markError _ (hloose.notifyState s hstart)
      · exact hstart
    | _ => cases hfree

theorem framed_onCardInserted (s : Atm) (pan : String) :
    Framed s (some (s.session.getD s.nextSession)) (s.onCardInserted pan) := by
  unfold Atm.onCardInserted
  split
  · exact Framed.of_same rfl rfl rfl
  · next hsession =>
    rw [hsession]
    refine ⟨?_, fun _ hsid _ => hsid, ?_⟩
    · intro sid hne
      have hother : sid ≠ s.nextSession := fun heq => hne (congrArg some heq)
      simp [Function.update_of_ne hother]
    · intro sid hsid
      cases hsession.symm.trans hsid

theorem framed_step (accountOf : String → String) {s : Owned} {a : AtmStep}
    (hturn : ownTurn s a = true) : FramedStep accountOf s a := by
  intro t ht
  obtain ⟨u, hu, rfl⟩ := Option.map_eq_some_iff.mp ht
  have hmine : ∀ b : AtmStep, actor s b = s.atm.session →
      b.free ⟨false, true, true, false⟩ s.atm = true → atmStep accountOf s.atm b = some u →
      Framed s.atm (actor s b) u := by
    intro b hactor hfree hb
    have hown : ∀ sid, s.atm.session = some sid → some sid = actor s b := by
      intro sid hsid
      rw [hactor, hsid]
    apply Within.framed hown
    exact (loose_within s.atm _).free.step hfree (.start hown) hb
  cases a with
  | onCardInserted pan =>
    cases hu
    exact framed_onCardInserted s.atm pan
  | executeCommand i injected =>
    apply framed_executeCommand _ hu
    intro task htask htakes sid hsid
    simpa [ownTurn, actor, htask, htakes, hsid] using hturn
  | writeRow i =>
    obtain ⟨sid, reason, -, rfl⟩ := Atm.writeRow_ended hu
    exact Framed.of_same rfl rfl rfl
  | resume i reply =>
    obtain ⟨cont, phase, htask, -, hcont⟩ := resume_cases hu
    have hgone : Framed (s.atm.setTask i none) (s.owner i) u := by
      cases htouches : cont.touches s.atm.card phase reply with
      | false => exact framed_untouched htouches hcont
      | true =>
        have hown : ∀ sid, s.atm.session = some sid → some sid = s.owner i := by
          intro sid hsid
          simpa [ownTurn, htask, htouches, hsid] using hturn
        exact framed_touched (s := s.atm.setTask i none) hown htouches hcont
    exact ⟨hgone.sessions, hgone.card, hgone.current⟩
  | _ => exact hmine _ rfl rfl hu

/-- The session that a handler was begun for is the only one that it changes, where no handler goes
on with another one. -/
theorem framed_of_ownTurn (accountOf : String → String) (as : List AtmStep)
    (hturns : Runs.Along (ownedStep accountOf) (fun s a => ownTurn s a = true) Owned.init as) :
    Runs.Along (ownedStep accountOf) (FramedStep accountOf) Owned.init as :=
  hturns.mono _ fun _ _ => framed_step accountOf

/-- A card is inserted, its PIN entered and verified, and the customer cancels. -/
def verifiedThenCancelled : List AtmStep :=
  toVerification "4580" 0 ++ [.resume 4 (.auth ⟨true, none, "00", none⟩), .cancelTransaction,
    .executeCommand 5 none, .resume 5 .done, .writeRow 6, .resume 6 .done]

theorem framed_verifiedThenCancelled :
    (Runs.exec (ownedStep fun _ => "ACC") Owned.init verifiedThenCancelled).isSome = true ∧
      Runs.Along (ownedStep fun _ => "ACC") (FramedStep fun _ => "ACC") Owned.init
        verifiedThenCancelled := by
  have hrun : (Runs.exec (ownedStep fun _ => "ACC") Owned.init verifiedThenCancelled).isSome =
      true := by decide +kernel
  have hturns : Runs.Along (ownedStep fun _ => "ACC") (fun s a => ownTurn s a = true) Owned.init
      verifiedThenCancelled := by decide +kernel
  exact ⟨hrun, framed_of_ownTurn _ verifiedThenCancelled hturns⟩

/-- The PIN of the first card is still being verified when its session is cancelled and another card
is inserted. -/
def nextCustomer : List AtmStep :=
  toVerification "4580" 0 ++ [.cancelTransaction, .executeCommand 5 none, .resume 5 .done,
    .writeRow 6, .resume 6 .done, .onCardInserted "4581"]

/-- The wrong PIN of the first card counts against the second session. -/
theorem failed_attempt_elsewhere :
    ¬ ∀ as, Runs.Along (ownedStep fun _ => "ACC") (FramedStep fun _ => "ACC") Owned.init as := by
  have hrun : (Runs.exec (ownedStep fun _ => "ACC") Owned.init nextCustomer).any (fun s =>
      (ownedStep (fun _ => "ACC") s (.resume 4 (.auth ⟨false, none, "55", none⟩))).any (fun t =>
        s.owner 4 = some 0 ∧ (s.atm.sessions 1).failedPinAttempts = 0 ∧
          (t.atm.sessions 1).failedPinAttempts = 1)) = true := by decide +kernel
  obtain ⟨s, hs, hnext⟩ := (Option.any_eq_true ..).mp hrun
  obtain ⟨t, ht, hfacts⟩ := (Option.any_eq_true ..).mp hnext
  obtain ⟨howner, hzero, hone⟩ := of_decide_eq_true hfacts
  intro hframed
  have halong := hframed (nextCustomer ++ [.resume 4 (.auth ⟨false, none, "55", none⟩)])
  have hlast := ((Runs.along_append _ hs).mp halong).2 t ht
  have hsame := (hlast.1 t ht).sessions 1 (by simp [actor, howner])
  have hattempts : (t.atm.sessions 1).failedPinAttempts = (s.atm.sessions 1).failedPinAttempts :=
    congrArg (fun facts => facts.2.2.2.1) hsame
  omega

end AtmXfs
