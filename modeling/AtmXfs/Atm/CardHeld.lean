import AtmXfs.Atm.Free
import AtmXfs.Lib.Runs

namespace AtmXfs

open Js Host Pin

/-- With nothing under way the reader holds a card if and only if a session is active. -/
def CardMatches (s : Atm) : Prop := s.quiet = true → s.card.isSome = s.session.isSome

/-- The handler brings the card of its session into the reader, or it ends the session. -/
def Suspension.settles (task : Suspension) : Bool :=
  match task.cont with
  | .inserted _ _ => true
  | .cardRetained _ => true
  | .retainMarked _ => true
  | .ejected _ => true
  | .ended _ _ => true
  | _ => false

/-- The reader has the command to eject or retain, and has not carried it out. -/
def Suspension.takes (task : Suspension) : Bool := task.cont.takesCard && task.phase = .issued

/-- A session without a card has a handler that settles it, a card without a session a command that
takes it out. -/
structure Held (s : Atm) : Prop where
  fresh : s.Fresh
  seated : s.session.isSome = true → s.card = none → s.Suspended Suspension.settles
  taken : s.session = none → s.card.isSome = true → s.Suspended Suspension.takes

theorem CardMatches.of_held {s : Atm} (h : Held s) : CardMatches s := by
  intro hquiet
  have hnone := h.fresh.not_suspended hquiet
  cases hsession : s.session with
  | none =>
    cases hcard : s.card with
    | none => rfl
    | some sid => exact (hnone _ (h.taken hsession (by rw [hcard]; rfl))).elim
  | some sid =>
    cases hcard : s.card with
    | none => exact (hnone _ (h.seated (by rw [hsession]; rfl) hcard)).elim
    | some n => rfl

theorem Held.of_eq {s t : Atm} (h : Held s) (hsession : t.session = s.session)
    (hcard : t.card = s.card) (htasks : t.tasks = s.tasks) (hnext : t.nextTask = s.nextTask) :
    Held t where
  fresh i hi := htasks ▸ h.fresh i (hnext ▸ hi)
  seated hsome hnone := by
    have hsettles := h.seated (hsession ▸ hsome) (hcard ▸ hnone)
    simpa [Atm.Suspended, htasks] using hsettles
  taken hnone hsome := by
    have htakes := h.taken (hsession ▸ hnone) (hcard ▸ hsome)
    simpa [Atm.Suspended, htasks] using htakes

theorem Held.suspend {s : Atm} (h : Held s) (cont : Cont) (phase : Phase) :
    Held (s.suspend cont phase) where
  fresh := h.fresh.suspend cont phase
  seated hsession hcard := (h.seated hsession hcard).suspend h.fresh cont phase
  taken hsession hcard := (h.taken hsession hcard).suspend h.fresh cont phase

/-- A handler that settles the session is suspended, and the session is there. -/
theorem Held.settling {s : Atm} (hfresh : s.Fresh) (hsession : s.session.isSome = true)
    {cont : Cont} {phase : Phase} (hsettles : Suspension.settles ⟨cont, phase⟩ = true) :
    Held (s.suspend cont phase) where
  fresh := hfresh.suspend cont phase
  seated _ _ := s.suspended_suspend hsettles
  taken hnone _ := by
    rw [Atm.suspend_session] at hnone
    rw [hnone] at hsession
    cases hsession

theorem Held.setTask {s : Atm} (h : Held s) {i : Nat} {old : Suspension}
    {new : Option Suspension} (hold : s.tasks i = some old)
    (hsettles : old.settles = true → new.any Suspension.settles = true)
    (htakes : old.takes = true → new.any Suspension.takes = true) : Held (s.setTask i new) where
  fresh := h.fresh.setTask hold new
  seated hsession hcard := (h.seated hsession hcard).setTask hold hsettles
  taken hsession hcard := (h.taken hsession hcard).setTask hold htakes

/-- A task that neither settles the session nor takes the card makes no difference. -/
theorem Held.bystander {s : Atm} (h : Held s) {i : Nat} {old : Suspension}
    (hold : s.tasks i = some old) (hidle : old.settles = false ∧ old.takes = false)
    (new : Option Suspension) : Held (s.setTask i new) where
  fresh := h.fresh.setTask hold new
  seated hsession hcard := (h.seated hsession hcard).besides hold hidle.1 new
  taken hsession hcard := (h.taken hsession hcard).besides hold hidle.2 new

/-- Where a handler that settled the session is done, the session is settled or another handler
settles it. -/
theorem Held.drop {s : Atm} (h : Held s) {i : Nat} {old : Suspension} (hold : s.tasks i = some old)
    (htakes : old.takes = false)
    (hrest : s.session.isSome = true → s.card = none →
      (s.setTask i none).Suspended Suspension.settles) : Held (s.setTask i none) where
  fresh := h.fresh.setTask hold none
  seated := hrest
  taken hsession hcard := (h.taken hsession hcard).besides hold htakes none

theorem held_transitionTo {s : Atm} (next : AtmState) (h : Held s) : Held (s.transitionTo next) :=
  h.of_eq (by simp) (by simp) (by simp) (by simp)

theorem held_modify {s : Atm} (f : AtmSession → AtmSession) (h : Held s) : Held (s.modify f) :=
  h.of_eq (by simp) (by simp) (by simp) (by simp)

theorem held_notifyState {s : Atm} (h : Held s) : Held s.notifyState := by
  unfold Atm.notifyState
  split
  · exact h
  · exact h.of_eq rfl rfl rfl rfl

/-- What neither takes a card nor settles a session. -/
theorem settles_of_plain {cont : Cont} (phase : Phase)
    (hcont : (cont.serves || cont.plain ⟨true, true, false, false⟩) = true) :
    Suspension.settles ⟨cont, phase⟩ = false ∧ Suspension.takes ⟨cont, phase⟩ = false := by
  cases cont <;> first | exact ⟨rfl, rfl⟩ | cases hcont

theorem takes_of_runs {cont : Cont} (phase : Phase)
    (hcont : (cont.serves || cont.runs ⟨true, true, false, false⟩) = true) :
    Suspension.takes ⟨cont, phase⟩ = false := by
  cases cont <;> first | rfl | cases hcont

theorem free_held : Atm.Free ⟨true, true, false, false⟩ Held where
  onCardInserted s pan _ h := by
    unfold Atm.onCardInserted
    split
    · exact h
    · exact Held.settling (s := { s with
        sessions := Function.update s.sessions s.nextSession (.fresh pan)
        nextSession := s.nextSession + 1
        session := some s.nextSession }) h.fresh rfl rfl
  modify _ f _ h := held_modify f h
  setAccount _ _ _ h := h.of_eq rfl rfl rfl rfl
  toError _ h := held_transitionTo .error h
  transitionTo _ next _ _ h := held_transitionTo next h
  notifyState _ h := held_notifyState h
  suspend _ cont phase _ h := h.suspend cont phase
  askPin _ _ _ _ h := h.suspend _ _
  drop s i cont phase htask hplain h := by
    have hcont : (cont.serves || cont.plain ⟨true, true, false, false⟩) = true := by
      rw [hplain, Bool.or_true]
    exact h.bystander htask (settles_of_plain phase hcont) none
  advance s i cont phase phase' htask hruns h := by
    apply h.setTask htask
    · exact fun hsettles => hsettles
    · intro hp
      rw [takes_of_runs phase (by rw [hruns, Bool.or_true])] at hp
      cases hp
  clearIdleTimer _ h := h.of_eq rfl rfl rfl rfl
  endSession _ _ hends _ := nomatch hends
  rowEnded _ _ _ hends _ := nomatch hends
  afterEnded _ _ _ hends _ := nomatch hends
  reader _ _ hcards _ := nomatch hcards
  pad _ _ h := h.of_eq rfl rfl rfl rfl
  anyMoves := rfl
  anyState _ next h := held_transitionTo next h
  serve _ cont phase _ h := h.suspend cont phase
  served s i cont phase new htask hserves _ h := by
    have hcont : (cont.serves || cont.plain ⟨true, true, false, false⟩) = true := by
      rw [hserves, Bool.true_or]
    exact h.bystander htask (settles_of_plain phase hcont) new
  record _ _ _ h := h.of_eq rfl rfl rfl rfl
  count _ _ h := h.of_eq rfl rfl rfl rfl

/-- No error is injected into a command that takes the card out. -/
def uninjected (s : Atm) : AtmStep → Bool
  | .executeCommand i injected =>
    injected.isNone || (s.tasks i).all fun task => !task.cont.takesCard
  | _ => true

/-- A card is brought in for a session that is still there, a session ends when the card is out, and
what settles a session without a card does not throw; or else another handler makes up for it. -/
def inHand (s : Atm) : AtmStep → Bool
  | .resume i reply => (s.tasks i).all fun task =>
    match task.cont, reply with
    | .inserted _ _, .done =>
      s.session.isSome || s.card.isSome || s.anySuspended Suspension.takes
    | .ended _ _, .done => s.card.isNone || s.anySuspended Suspension.takes
    | _, .throws =>
      !task.settles || s.session.isNone || s.card.isSome ||
        (s.setTask i none).anySuspended Suspension.settles
    | _, _ => true
  | _ => true

theorem held_writeRow {s t : Atm} {i : Nat} (h : Held s) (ht : s.writeRow i = some t) :
    Held t := by
  obtain ⟨sid, reason, htask, rfl⟩ := Atm.writeRow_ended ht
  have hwritten : Held (s.record (.rowEnded sid reason)) := h.of_eq rfl rfl rfl rfl
  exact hwritten.setTask htask (fun _ => rfl) nofun

/-- The reader is empty and the handler that took the card out goes on to end the session. -/
theorem Held.emptied {s : Atm} (h : Held s) {i : Nat} {cont : Cont} {phase : Phase}
    (hold : s.tasks i = some ⟨cont, phase⟩) (htakes : cont.takesCard = true)
    (error : Option String) :
    Held ({ s with card := none }.setTask i (some ⟨cont, .replied error⟩)) where
  fresh := h.fresh.setTask hold _
  seated _ _ := by
    refine ⟨i, ⟨cont, .replied error⟩, by simp [Atm.setTask], ?_⟩
    cases cont <;> first | rfl | cases htakes
  taken _ hcard := nomatch hcard

/-- A command that leaves the card in the reader. -/
theorem Held.advance {s : Atm} (h : Held s) {i : Nat} {cont : Cont} {phase : Phase}
    (hold : s.tasks i = some ⟨cont, phase⟩) (htakes : cont.takesCard = false) (phase' : Phase) :
    Held (s.setTask i (some ⟨cont, phase'⟩)) := by
  apply h.setTask hold
  · exact fun hsettles => hsettles
  · intro hp
    simp [Suspension.takes, htakes] at hp

theorem held_executeCommand {s t : Atm} {i : Nat} {injected : Option String} (h : Held s)
    (hok : uninjected s (.executeCommand i injected) = true)
    (ht : s.executeCommand i injected = some t) : Held t := by
  obtain ⟨cont, htask, hdone⟩ := Atm.executeCommand_cases ht
  cases hfree : (cont.serves || cont.runs ⟨true, true, false, false⟩) with
  | true => exact free_held.executeCommand htask hfree h ht
  | false =>
    obtain ⟨rfl, -⟩ | ⟨-, v, error, rfl, hv⟩ := hdone
    · cases hfree
    · rcases hv with ⟨rfl, hinjected⟩ | ⟨a, amount, rfl, -⟩ | ⟨htakes, rfl⟩
      · have htakes : cont.takesCard = false := by
          by_contra htakes
          rw [Bool.not_eq_false] at htakes
          have hnone : injected = none := by simpa [uninjected, htask, htakes] using hok
          have hsome := hinjected htakes
          rw [hnone] at hsome
          cases hsome
        exact h.advance htask htakes _
      · cases hfree
      · exact h.emptied htask htakes _

theorem held_endSession {s : Atm} (hfresh : s.Fresh) (hnone : s.session = none → Held s)
    (reason : EndReason) : Held (s.endSession reason) := by
  unfold Atm.endSession
  split
  · next hsession => exact hnone hsession
  · next sid hsession =>
    apply Held.settling
    · intro i hi
      rw [Atm.modify_tasks]
      exact hfresh i (by rwa [Atm.modify_nextTask] at hi)
    · rw [Atm.modify_session]
      simp [Atm.clearIdleTimer, hsession]
    · rfl

/-- The card comes into an empty reader; with none current a command takes it out again. -/
theorem held_afterInserted {s : Atm} (sid : Nat) (pan : String) (hfresh : s.Fresh)
    (hcard : s.card.isSome = true → Held s)
    (htakes : s.card = none → s.session = none → s.Suspended Suspension.takes) :
    Held (s.afterInserted sid pan) := by
  unfold Atm.afterInserted
  split
  · next hsome => exact free_held.toSteady.markError _ (held_notifyState (hcard hsome))
  · next hsome =>
    have hempty : s.card = none := by simpa using hsome
    have hnotified : s.notifyState.session = s.session ∧ s.notifyState.tasks = s.tasks ∧
        s.notifyState.nextTask = s.nextTask := by
      unfold Atm.notifyState
      split
      · exact ⟨rfl, rfl, rfl⟩
      · exact ⟨rfl, rfl, rfl⟩
    obtain ⟨hsession, htasks, hnext⟩ := hnotified
    apply Held.suspend
    refine ⟨?_, nofun, ?_⟩
    · intro i hi
      exact htasks ▸ hfresh i (hnext ▸ hi)
    · intro hnone _
      have htaken := htakes hempty (hsession ▸ hnone)
      simpa [Atm.Suspended, htasks] using htaken

theorem held_afterRetainMarked {s : Atm} (reason : String) (hfresh : s.Fresh)
    (hnone : s.session = none → Held s) : Held (s.afterRetainMarked reason) := by
  unfold Atm.afterRetainMarked
  split
  · next hsession => exact hnone hsession
  · apply held_endSession
    · intro i hi
      rw [Atm.transitionTo_tasks, Atm.modify_tasks]
      exact hfresh i (by rwa [Atm.transitionTo_nextTask, Atm.modify_nextTask] at hi)
    · intro hnone'
      apply held_transitionTo
      apply held_modify
      exact hnone (by rwa [Atm.transitionTo_session, Atm.modify_session] at hnone')

theorem held_afterRetain {s : Atm} (reason : String) (hfresh : s.Fresh)
    (hnone : s.session = none → Held s) : Held (s.afterRetain reason) := by
  unfold Atm.afterRetain
  split
  · next hsession => exact hnone hsession
  · next sid hsession =>
    have hsome : s.session.isSome = true := by rw [hsession]; rfl
    exact Held.settling hfresh hsome rfl

theorem held_afterEnded {s : Atm} (sid : Nat) (reason : EndReason) (hfresh : s.Fresh)
    (htakes : s.card.isSome = true → s.Suspended Suspension.takes) :
    Held (s.afterEnded sid reason) where
  fresh i hi := by
    have hge : s.nextTask ≤ i := by simpa [Atm.afterEnded] using hi
    simpa [Atm.afterEnded] using hfresh i hge
  seated := nofun
  taken _ hcard := by
    have htaken := htakes (by simpa [Atm.afterEnded] using hcard)
    simpa [Atm.Suspended, Atm.afterEnded] using htaken

/-- A call that throws leaves the session to its card or to another handler. -/
theorem settled_of_throws {s : Atm} {i : Nat} {cont : Cont} {phase : Phase}
    (htask : s.tasks i = some ⟨cont, phase⟩) (hsettles : Suspension.settles ⟨cont, phase⟩ = true)
    (hok : inHand s (.resume i .throws) = true) (hsession : s.session.isSome = true)
    (hcard : s.card = none) : (s.setTask i none).Suspended Suspension.settles := by
  have hsome : s.session.isNone = false := by simpa using hsession
  apply Atm.suspended_of_any
  cases cont <;> simpa [inHand, htask, hsettles, hsome, hcard] using hok

theorem held_resume {s t : Atm} {i : Nat} {cont : Cont} {phase : Phase} {reply : Reply}
    (h : Held s) (htask : s.tasks i = some ⟨cont, phase⟩)
    (hok : inHand s (.resume i reply) = true)
    (ht : (s.setTask i none).continueWith cont phase reply = some t) : Held t := by
  have hfresh : (s.setTask i none).Fresh := h.fresh.setTask htask none
  have hnone : Suspension.takes ⟨cont, phase⟩ = false → s.session = none →
      Held (s.setTask i none) := by
    intro htakes hsession
    apply h.drop htask htakes
    intro hsome
    rw [hsession] at hsome
    cases hsome
  cases hfree : (cont.serves || cont.plain ⟨true, true, false, false⟩) with
  | true =>
    have hgone : Held (s.setTask i none) := h.bystander htask (settles_of_plain phase hfree) none
    exact free_held.continueWith hfree hgone ht
  | false =>
    have hcont : Suspension.settles ⟨cont, phase⟩ = true := by
      cases cont <;> first | rfl | cases hfree
    unfold Atm.continueWith at ht
    split at ht <;> cases ht <;> try cases hfree
    · apply held_afterInserted _ _ hfresh
      · intro hsome
        apply h.drop htask rfl
        intro _ hempty
        have hheld : s.card.isSome = true := hsome
        rw [hempty] at hheld
        cases hheld
      · intro hempty hsession
        have htaken : s.Suspended Suspension.takes := by
          apply Atm.suspended_of_any
          simpa [inHand, htask, show s.card = none from hempty,
            show s.session = none from hsession] using hok
        exact htaken.besides htask rfl none
    · exact held_afterRetain _ hfresh (hnone rfl)
    · exact held_afterRetainMarked _ hfresh (hnone rfl)
    · exact held_endSession hfresh (hnone rfl) _
    · exact held_endSession hfresh (hnone rfl) _
    · apply held_afterEnded _ _ hfresh
      intro hcard
      have hsome : s.card.isNone = false := by simpa using hcard
      have htaken : s.Suspended Suspension.takes := by
        apply Atm.suspended_of_any
        simpa [inHand, htask, hsome] using hok
      exact htaken.besides htask rfl none
    · exact h.drop htask rfl (settled_of_throws htask hcont hok)
    · have htakes : Suspension.takes ⟨cont, .pending⟩ = false := by simp [Suspension.takes]
      exact h.drop htask htakes (settled_of_throws htask hcont hok)

theorem held_step {accountOf : String → String} (s : Atm) (a : AtmStep) (t : Atm) (h : Held s)
    (hok : uninjected s a = true ∧ inHand s a = true) (ht : atmStep accountOf s a = some t) :
    Held t := by
  by_cases hfree : a.free ⟨true, true, false, false⟩ s = true
  · exact free_held.step hfree h ht
  cases a with
  | executeCommand i injected => exact held_executeCommand h hok.1 ht
  | writeRow i => exact held_writeRow h ht
  | resume i reply =>
    obtain ⟨cont, phase, htask, -, hcont⟩ := resume_cases ht
    exact held_resume h htask hok.2 hcont
  | _ => exact absurd rfl hfree

/-- With no error injected, in every run whose handlers have the session in hand the card is in the
reader if and only if a session is active, whenever nothing is under way. -/
theorem cardMatches_of_reaches {accountOf : String → String} {s : Atm}
    (h : Runs.Reaches (atmStep accountOf) (fun s a => uninjected s a ∧ inHand s a) Atm.init s) :
    CardMatches s := by
  have hinit : Held Atm.init := ⟨fun _ _ => rfl, nofun, nofun⟩
  exact .of_held (Runs.Reaches.invariant (P := Held) held_step hinit h)

/-- A card is inserted, the customer cancels and takes it back. -/
def takenBack : List AtmStep :=
  [.onCardInserted "4580", .resume 0 .done, .executeCommand 1 none, .resume 1 .done,
   .resume 2 (.auth ⟨true, some "ACC", "00", none⟩), .cancelTransaction, .executeCommand 3 none,
   .resume 3 .done, .writeRow 4, .resume 4 .done]

theorem cardMatches_of_takenBack :
    ∃ s, Runs.exec (atmStep fun _ => "ACC") Atm.init takenBack = some s ∧ s.quiet = true ∧
      CardMatches s := by
  have hrun : (Runs.exec (atmStep fun _ => "ACC") Atm.init takenBack).any Atm.quiet = true := by
    decide +kernel
  obtain ⟨s, hs, hquiet⟩ := (Option.any_eq_true ..).mp hrun
  have halong : Runs.Along (atmStep fun _ => "ACC") (fun s a => uninjected s a ∧ inHand s a)
      Atm.init takenBack := by decide +kernel
  exact ⟨s, hs, hquiet, cardMatches_of_reaches ⟨takenBack, halong, hs⟩⟩

/-- The customer cancels while the session is still being stored. -/
def cancelledEarly : List AtmStep :=
  [.onCardInserted "4580", .cancelTransaction, .resume 1 .done, .writeRow 2, .resume 2 .done,
   .resume 0 .done, .executeCommand 3 none, .resume 3 .done,
   .resume 4 (.auth ⟨true, some "ACC", "00", none⟩)]

/-- The card stays in the reader although its session is over. -/
theorem card_left :
    ∃ s, Runs.Reaches (atmStep fun _ => "ACC") (fun s a => uninjected s a) Atm.init s ∧
      s.quiet = true ∧ s.card = some 0 ∧ s.session = none ∧ ¬ CardMatches s := by
  have hrun : (Runs.exec (atmStep fun _ => "ACC") Atm.init cancelledEarly).any (fun s =>
      s.quiet = true ∧ s.card = some 0 ∧ s.session = none) = true := by decide +kernel
  obtain ⟨s, hs, hend⟩ := (Option.any_eq_true ..).mp hrun
  obtain ⟨hquiet, hcard, hsession⟩ := of_decide_eq_true hend
  have halong : Runs.Along (atmStep fun _ => "ACC") (fun s a => uninjected s a = true) Atm.init
      cancelledEarly := by decide +kernel
  refine ⟨s, ⟨cancelledEarly, halong, hs⟩, hquiet, hcard, hsession, ?_⟩
  intro hmatches
  have hequal := hmatches hquiet
  rw [hcard, hsession] at hequal
  cases hequal

end AtmXfs
