import AtmXfs.Atm.Steady
import AtmXfs.Lib.Runs

namespace AtmXfs

open Js Host Pin

/-- With nothing under way, a session waits for input and the watchdog is armed for it. -/
def NotStuck (s : Atm) : Prop := s.quiet = true → ∀ sid, s.session = some sid →
  (s.sessions sid).state.idleTimeout = true ∧ s.idleTimer = some sid

/-- The handler goes on to arm the watchdog of a session that waits for input. -/
def Suspension.notifies (task : Suspension) : Bool :=
  match task.cont with
  | .inserted _ _ => true
  | _ => false

/-- The handler goes on to end the current session, or awaits another call that leads there. -/
def Suspension.concludes (task : Suspension) : Bool :=
  match task.cont with
  | .authorized _ => true
  | .dispensed _ _ => true
  | .reversed _ => true
  | .receiptPrinted => true
  | .balanceRead => true
  | .ejected _ => true
  | .ended _ _ => true
  | _ => false

/-- The watchdog or a suspended handler looks after the current session. -/
structure Attended (s : Atm) : Prop where
  fresh : s.Fresh
  attended : ∀ sid, s.session = some sid →
    (s.sessions sid).state.idleTimeout = true ∧
      (s.idleTimer = some sid ∨ s.Suspended Suspension.notifies) ∨
    s.Suspended Suspension.concludes

/-- A session that is to be confirmed has an amount. -/
def Priced (s : Atm) : Prop :=
  ∀ sid, (s.sessions sid).state = .confirm → (s.sessions sid).amount.isSome = true

theorem NotStuck.of_attended {s : Atm} (h : Attended s) : NotStuck s := by
  intro hquiet sid hsid
  have hnone := h.fresh.not_suspended hquiet
  rcases h.attended sid hsid with ⟨hwaits, hwatch⟩ | hconcludes
  · rcases hwatch with htimer | hnotifies
    · exact ⟨hwaits, htimer⟩
    · exact (hnone _ hnotifies).elim
  · exact (hnone _ hconcludes).elim

theorem Priced.update {s : Atm} (h : Priced s) {sid : Nat} {session : AtmSession}
    (hpriced : session.state = .confirm → session.amount.isSome = true) :
    Priced { s with sessions := Function.update s.sessions sid session } := by
  intro n hn
  by_cases heq : n = sid
  · subst heq
    simp only [Function.update_self] at hn ⊢
    exact hpriced hn
  · simp only [Function.update_of_ne heq] at hn ⊢
    exact h n hn

theorem Priced.modify {s : Atm} (h : Priced s) {f : AtmSession → AtmSession} (hf : Mild f) :
    Priced (s.modify f) := by
  unfold Atm.modify
  split
  · exact h
  · next sid hsid =>
    apply h.update
    rw [(hf _).1]
    exact fun hstate => (hf _).2.2 (h sid hstate)

theorem Priced.transitionTo {s : Atm} (h : Priced s) {next : AtmState} (hnext : next ≠ .confirm) :
    Priced (s.transitionTo next) := by
  unfold Atm.transitionTo
  split
  · exact h
  · simp only [Atm.modify]
    split
    · exact h
    · exact h.update fun hstate => absurd hstate hnext

theorem steady_priced : Atm.Steady ⟨true, true, true, true⟩ Priced where
  onCardInserted s pan _ h := by
    unfold Atm.onCardInserted
    split
    · exact h
    · exact h.update nofun
  modify _ _ hf h := h.modify hf
  setAccount _ sid _ h := h.update (h sid)
  toError _ h := h.transitionTo nofun
  transitionTo _ next _ hlocked h := by
    apply h.transitionTo
    rintro rfl
    cases hlocked
  notifyState s h := by
    unfold Atm.notifyState
    split
    · exact h
    · exact h
  suspend _ _ _ _ h := h
  askPin _ _ _ _ h := h
  drop _ _ _ _ _ _ h := h
  advance _ _ _ _ _ _ _ h := h
  clearIdleTimer _ h := h
  endSession s reason _ h := by
    unfold Atm.endSession
    split
    · exact h
    · exact Priced.modify (s := s.clearIdleTimer) h fun _ => ⟨rfl, rfl, id⟩
  rowEnded _ _ _ _ h := h
  afterEnded s _ _ _ h := by
    have hended : Priced (s.transitionTo .ended) := h.transitionTo nofun
    exact hended
  reader _ _ _ h := h
  pad _ _ h := h

theorem priced_processBalance {s : Atm} (h : Priced s) : Priced s.processBalance := by
  have hprocessing : Priced (s.transitionTo .processing) := h.transitionTo nofun
  unfold Atm.processBalance
  split
  · exact h
  · exact hprocessing

theorem priced_processWithdrawal {s : Atm} (h : Priced s) : Priced s.processWithdrawal := by
  unfold Atm.processWithdrawal
  split
  · exact h
  · split
    · exact h
    · exact h

theorem priced_selectTransaction {s : Atm} (txn : TxnType) (h : Priced s) :
    Priced (s.selectTransaction txn) := by
  have hselected : ∀ txn, Priced (s.modify fun x => { x with selectedTxn := some txn }) :=
    fun _ => h.modify fun _ => ⟨rfl, rfl, id⟩
  unfold Atm.selectTransaction
  split
  · cases txn with
    | withdrawal => exact (hselected .withdrawal).transitionTo nofun
    | balance => exact priced_processBalance (hselected .balance)
    | transfer => exact steady_priced.markError _ (hselected .transfer)
    | deposit => exact steady_priced.markError _ (hselected .deposit)
  · exact h

/-- The amount is noted before the session moves on to its confirmation. -/
theorem priced_submitAmount {s : Atm} (amount : Number) (h : Priced s) :
    Priced (s.submitAmount amount) := by
  unfold Atm.submitAmount
  split
  · split
    · exact h
    · next n hn =>
      split
      · cases hsession : s.session with
        | none => simpa [Atm.transitionTo, Atm.modify, hsession] using h
        | some sid =>
          intro m hm
          by_cases heq : m = sid
          · subst heq
            simp [Atm.transitionTo, Atm.modify, Atm.record, Atm.armIdleTimer, hsession]
          · simp only [Atm.transitionTo, Atm.modify, Atm.record, Atm.armIdleTimer, hsession,
              Function.update_of_ne heq] at hm ⊢
            exact h m hm
      · exact h
  · exact h

theorem priced_confirmTransaction {s : Atm} (h : Priced s) : Priced s.confirmTransaction := by
  have hprocessing : Priced (s.transitionTo .processing) := h.transitionTo nofun
  unfold Atm.confirmTransaction
  split
  · exact h
  · split
    · exact h
    · split
      · exact priced_processWithdrawal hprocessing
      · exact steady_priced.markError _ hprocessing

theorem priced_afterVerifyPin {s : Atm} (sid : Nat) (pan : String) (r : AuthResult)
    (h : Priced s) : Priced (s.afterVerifyPin sid pan r) := by
  have hverified : Priced (s.record (.verified sid pan)) := h
  have hpin : Priced ((s.record (.verified sid pan)).transitionTo .pinVerified) :=
    hverified.transitionTo nofun
  have hfailed :
      Priced (s.modify fun x => { x with failedPinAttempts := x.failedPinAttempts + 1 }) :=
    h.modify fun _ => ⟨rfl, rfl, id⟩
  unfold Atm.afterVerifyPin
  split
  · exact hpin.transitionTo nofun
  · split
    · exact h
    · split
      · exact steady_priced.retainCard _ hfailed
      · exact hfailed

theorem priced_afterAuthorize {s : Atm} (w : Withdrawal) (r : AuthorizationResult)
    (h : Priced s) : Priced (s.afterAuthorize w r) := by
  have happroved : Priced (s.record (.approved ⟨w, r.stanNo⟩)) := h
  unfold Atm.afterAuthorize
  split
  · split
    · exact happroved
    · have hnoted := happroved.modify (f := fun x => { x with stanNo := some r.stanNo })
        fun _ => ⟨rfl, rfl, id⟩
      exact hnoted.transitionTo nofun
  · exact steady_priced.markError _ h

theorem priced_continueWith {s t : Atm} {cont : Cont} {phase : Phase} {reply : Reply}
    (hserves : cont.plain ⟨true, true, true, true⟩ = false) (h : Priced s)
    (ht : s.continueWith cont phase reply = some t) : Priced t := by
  unfold Atm.continueWith at ht
  split at ht <;> cases ht <;> try cases hserves
  · exact priced_afterVerifyPin _ _ _ h
  · exact priced_afterAuthorize _ _ h
  · unfold Atm.afterDispenseError
    split
    · exact h
    · exact h
  · have hprinting : Priced (s.transitionTo .printing) := h.transitionTo nofun
    unfold Atm.afterDispense
    split
    · exact hprinting
    · exact hprinting
  · exact h

theorem priced_step {accountOf : String → String} {s : Atm} {a : AtmStep} {t : Atm}
    (h : Priced s) (ht : atmStep accountOf s a = some t) : Priced t := by
  by_cases hplain : a.plain ⟨true, true, true, true⟩ s = true
  · exact steady_priced.step hplain h ht
  cases a with
  | selectTransaction txn => cases ht; exact priced_selectTransaction txn h
  | submitAmount amount => cases ht; exact priced_submitAmount amount h
  | confirmTransaction => cases ht; exact priced_confirmTransaction h
  | executeCommand i injected =>
    obtain ⟨cont, htask⟩ := Atm.executeCommand_issued ht
    have hruns : cont.runs ⟨true, true, true, true⟩ = false := by
      simpa [AtmStep.plain, htask] using hplain
    obtain ⟨phase, rfl | ⟨wid, amount, rfl⟩⟩ := Atm.executeCommand_withdrawal htask hruns ht
    · exact h
    · exact h
  | resume i reply =>
    obtain ⟨cont, phase, htask, -, hcont⟩ := resume_cases ht
    have hserves : cont.plain ⟨true, true, true, true⟩ = false := by
      simpa [AtmStep.plain, htask] using hplain
    exact priced_continueWith (s := s.setTask i none) hserves h hcont
  | _ => exact absurd rfl hplain

theorem Attended.of_none {s : Atm} (hfresh : s.Fresh) (hsession : s.session = none) :
    Attended s where
  fresh := hfresh
  attended sid hsid := by
    rw [hsession] at hsid
    cases hsid

theorem Attended.of_eq {s t : Atm} (h : Attended s) (hsessions : t.sessions = s.sessions)
    (hsession : t.session = s.session) (htimer : t.idleTimer = s.idleTimer)
    (htasks : t.tasks = s.tasks) (hnext : t.nextTask = s.nextTask) : Attended t where
  fresh := h.fresh.of_eq htasks hnext
  attended sid hsid := by
    have hattended := h.attended sid (hsession ▸ hsid)
    simpa [Atm.Suspended, hsessions, htimer, htasks] using hattended

theorem Attended.suspend {s : Atm} (h : Attended s) (cont : Cont) (phase : Phase) :
    Attended (s.suspend cont phase) where
  fresh := h.fresh.suspend cont phase
  attended sid hsid := by
    rcases h.attended sid hsid with ⟨hwaits, htimer | hnotifies⟩ | hconcludes
    · exact .inl ⟨hwaits, .inl htimer⟩
    · exact .inl ⟨hwaits, .inr (hnotifies.suspend h.fresh cont phase)⟩
    · exact .inr (hconcludes.suspend h.fresh cont phase)

/-- Whatever the session is in, the handler suspended here concludes it. -/
theorem Attended.concluding {s : Atm} (hfresh : s.Fresh) {cont : Cont} {phase : Phase}
    (hconcludes : Suspension.concludes ⟨cont, phase⟩ = true) :
    Attended (s.suspend cont phase) where
  fresh := hfresh.suspend cont phase
  attended _ _ := .inr (s.suspended_suspend hconcludes)

theorem Attended.setTask {s : Atm} (h : Attended s) {i : Nat} {old : Suspension}
    {new : Option Suspension} (hold : s.tasks i = some old)
    (hnotifies : old.notifies = true → new.any Suspension.notifies = true)
    (hconcludes : old.concludes = true → new.any Suspension.concludes = true) :
    Attended (s.setTask i new) where
  fresh := h.fresh.setTask hold new
  attended sid hsid := by
    rcases h.attended sid hsid with ⟨hwaits, htimer | hsuspended⟩ | hsuspended
    · exact .inl ⟨hwaits, .inl htimer⟩
    · exact .inl ⟨hwaits, .inr (hsuspended.setTask hold hnotifies)⟩
    · exact .inr (hsuspended.setTask hold hconcludes)

/-- A task that neither arms the watchdog nor concludes the session makes no difference. -/
theorem Attended.bystander {s : Atm} (h : Attended s) {i : Nat} {old : Suspension}
    (hold : s.tasks i = some old) (hnotifies : old.notifies = false)
    (hconcludes : old.concludes = false) : Attended (s.setTask i none) where
  fresh := h.fresh.setTask hold none
  attended sid hsid := by
    rcases h.attended sid hsid with ⟨hwaits, htimer | hsuspended⟩ | hsuspended
    · exact .inl ⟨hwaits, .inl htimer⟩
    · exact .inl ⟨hwaits, .inr (hsuspended.besides hold hnotifies none)⟩
    · exact .inr (hsuspended.besides hold hconcludes none)

theorem Attended.advance {s : Atm} (h : Attended s) {i : Nat} {cont : Cont} {phase : Phase}
    (hold : s.tasks i = some ⟨cont, phase⟩) (phase' : Phase) :
    Attended (s.setTask i (some ⟨cont, phase'⟩)) :=
  h.setTask hold (fun hnotifies => hnotifies) fun hconcludes => hconcludes

theorem Attended.modify {s : Atm} (h : Attended s) {f : AtmSession → AtmSession} (hf : Mild f) :
    Attended (s.modify f) := by
  unfold Atm.modify
  split
  · exact h
  · next n hn =>
    refine ⟨h.fresh, ?_⟩
    intro sid hsid
    cases hn.symm.trans hsid
    simpa [Atm.Suspended, (hf _).1] using h.attended n hn

/-- The watchdog is armed anew, whatever was under way. -/
theorem attended_transitionTo {s : Atm} (hfresh : s.Fresh) {next : AtmState}
    (hnext : next.idleTimeout = true) : Attended (s.transitionTo next) := by
  cases hsession : s.session with
  | none => exact .of_none (hfresh.of_eq (by simp) (by simp)) (by simpa using hsession)
  | some sid =>
    refine ⟨hfresh.of_eq (by simp) (by simp), ?_⟩
    intro n hn
    have heq : n = sid := by simpa [hsession] using hn.symm
    subst heq
    refine .inl ⟨?_, .inl ?_⟩
    · simpa [Atm.transitionTo, Atm.modify, Atm.record, Atm.armIdleTimer, hsession] using hnext
    · simp [Atm.transitionTo, Atm.armIdleTimer, hnext, hsession]

section Concluding

variable {s : Atm} (hfresh : s.Fresh)

include hfresh

theorem fresh_transitionTo (next : AtmState) : (s.transitionTo next).Fresh :=
  hfresh.of_eq (by simp) (by simp)

theorem fresh_modify (f : AtmSession → AtmSession) : (s.modify f).Fresh :=
  hfresh.of_eq (by simp) (by simp)

theorem attended_safeEject (reason : EndReason) : Attended (s.safeEject reason) :=
  .concluding hfresh rfl

theorem attended_failSession (msg : String) (reason : EndReason) :
    Attended (s.failSession msg reason) := by
  unfold Atm.failSession
  split
  · next hsession => exact .of_none hfresh hsession
  · exact attended_safeEject (fresh_transitionTo (fresh_modify hfresh _) _) _

theorem attended_endSession (reason : EndReason) : Attended (s.endSession reason) := by
  unfold Atm.endSession
  split
  · next hsession => exact .of_none hfresh hsession
  · have hcleared : s.clearIdleTimer.Fresh := hfresh
    exact .concluding (fresh_modify hcleared _) rfl

theorem attended_processBalance : Attended s.processBalance := by
  unfold Atm.processBalance
  split
  · next hsession => exact .of_none hfresh hsession
  · have hprocessing := fresh_transitionTo hfresh .processing
    apply Attended.concluding
    · exact hprocessing.of_eq rfl rfl
    · rfl

theorem attended_processWithdrawal
    (hpriced : s.current.all (fun session => session.amount.isSome) = true) :
    Attended s.processWithdrawal := by
  unfold Atm.processWithdrawal
  split
  · next hsession => exact .of_none hfresh hsession
  · next sid hsession =>
    split
    · next hnone => simp [Atm.current, hsession, hnone] at hpriced
    · apply Attended.concluding
      · exact hfresh.of_eq rfl rfl
      · rfl

theorem attended_afterAuthenticate (sid : Nat) (r : AuthResult) :
    Attended (s.afterAuthenticate sid r) := by
  unfold Atm.afterAuthenticate
  split
  · apply attended_transitionTo
    · exact hfresh.of_eq rfl rfl
    · rfl
  · exact attended_failSession hfresh _ _

theorem attended_afterAuthorize (w : Withdrawal) (r : AuthorizationResult) :
    Attended (s.afterAuthorize w r) := by
  have hrecorded : (s.record (.approved ⟨w, r.stanNo⟩)).Fresh := hfresh
  unfold Atm.afterAuthorize
  split
  · split
    · next hcurrent =>
      have hsession : s.session = none := by simpa [Atm.current] using hcurrent
      exact .of_none hrecorded hsession
    · exact .concluding (fresh_transitionTo (fresh_modify hrecorded _) _) rfl
  · exact attended_failSession hfresh _ _

theorem attended_afterDispenseError (a : Authorisation) (detail : String) :
    Attended (s.afterDispenseError a detail) := by
  unfold Atm.afterDispenseError
  split
  · next hsession => exact .of_none hfresh hsession
  · apply Attended.concluding
    · exact hfresh.of_eq rfl rfl
    · rfl

theorem attended_afterBalance (responseCode : String) :
    Attended (s.afterBalance responseCode) := by
  unfold Atm.afterBalance
  split
  · split
    · next hsession => exact .of_none hfresh hsession
    · exact .concluding (fresh_transitionTo hfresh _) rfl
  · exact attended_failSession hfresh _ _

theorem attended_afterRetainMarked (reason : String) :
    Attended (s.afterRetainMarked reason) := by
  unfold Atm.afterRetainMarked
  split
  · next hsession => exact .of_none hfresh hsession
  · exact attended_endSession (fresh_transitionTo (fresh_modify hfresh _) _) _

theorem attended_afterEnded (sid : Nat) (reason : EndReason) :
    Attended (s.afterEnded sid reason) := by
  have hended := fresh_transitionTo hfresh .ended
  exact .of_none (hended.of_eq rfl rfl) rfl

end Concluding

/-- The watchdog is armed for a session that waits for input. -/
theorem attended_notifyState {s : Atm} (hfresh : s.Fresh)
    (h : ∀ sid, s.session = some sid → (s.sessions sid).state.idleTimeout = true ∨
      s.Suspended Suspension.concludes) : Attended s.notifyState := by
  cases hsession : s.session with
  | none =>
    have hsame : s.notifyState = s := by simp [Atm.notifyState, Atm.current, hsession]
    rw [hsame]
    exact .of_none hfresh hsession
  | some sid =>
    have harmed : s.notifyState = s.armIdleTimer (s.sessions sid).state := by
      simp [Atm.notifyState, Atm.current, hsession]
    rw [harmed]
    refine ⟨hfresh, ?_⟩
    intro n hn
    cases hsession.symm.trans hn
    rcases h sid hsession with hwaits | hconcludes
    · exact .inl ⟨hwaits, .inl (by simp [Atm.armIdleTimer, hwaits, hsession])⟩
    · exact .inr hconcludes

theorem attended_afterInserted {s : Atm} (sid : Nat) (pan : String)
    (hnotified : Attended s.notifyState) : Attended (s.afterInserted sid pan) := by
  unfold Atm.afterInserted
  split
  · exact attended_failSession hnotified.fresh _ _
  · apply Attended.suspend
    exact hnotified.of_eq rfl rfl rfl rfl rfl

theorem attended_usePad {s : Atm} (after : Pad (Option Nat) × Pin.Settled (Option Nat))
    (h : Attended s) : Attended (s.usePad after) :=
  Atm.usePad_keeps (fun _ _ hu => hu.of_eq rfl rfl rfl rfl rfl)
    (fun _ _ phase htask hu => hu.advance htask phase) after h

theorem attended_verifyPinBuffer {s : Atm} (h : Attended s) : Attended s.verifyPinBuffer := by
  have hextracted : Attended s.extractEnteredPin := h.of_eq rfl rfl rfl rfl rfl
  unfold Atm.verifyPinBuffer
  split
  · exact h
  · split
    · exact hextracted
    · exact hextracted.suspend _ _

theorem attended_selectTransaction {s : Atm} (txn : TxnType) (h : Attended s) :
    Attended (s.selectTransaction txn) := by
  have hfresh : ∀ txn, (s.modify fun x => { x with selectedTxn := some txn }).Fresh :=
    fun _ => fresh_modify h.fresh _
  unfold Atm.selectTransaction
  split
  · cases txn with
    | withdrawal => exact attended_transitionTo (hfresh .withdrawal) rfl
    | balance => exact attended_processBalance (hfresh .balance)
    | transfer => exact attended_failSession (hfresh .transfer) _ _
    | deposit => exact attended_failSession (hfresh .deposit) _ _
  · exact h

theorem attended_submitAmount {s : Atm} (amount : Number) (h : Attended s) :
    Attended (s.submitAmount amount) := by
  unfold Atm.submitAmount
  split
  · split
    · exact h
    · split
      · exact attended_transitionTo (fresh_modify h.fresh _) rfl
      · exact h
  · exact h

/-- The session to be confirmed has an amount, so that the host is asked for the withdrawal. -/
theorem attended_confirmTransaction {s : Atm} (hpriced : Priced s) (h : Attended s) :
    Attended s.confirmTransaction := by
  have hfresh := fresh_transitionTo h.fresh .processing
  unfold Atm.confirmTransaction
  split
  · exact h
  · next session hcurrent =>
    split
    · exact h
    · next hstate =>
      split
      · apply attended_processWithdrawal hfresh
        cases hsession : s.session with
        | none => simp [Atm.current, hsession]
        | some sid =>
          simp only [Atm.current, hsession, Option.map_some, Option.some.injEq] at hcurrent
          subst hcurrent
          have hamount := hpriced sid (not_not.mp hstate)
          simpa [Atm.current, Atm.transitionTo, Atm.modify, Atm.record, Atm.armIdleTimer, hsession]
            using hamount
      · exact attended_failSession hfresh _ _

theorem attended_afterVerifyPin {s : Atm} (sid : Nat) (pan : String) (r : AuthResult)
    (h : Attended s) : Attended (s.afterVerifyPin sid pan r) := by
  have hfailed : Attended
      (s.modify fun x => { x with failedPinAttempts := x.failedPinAttempts + 1 }) :=
    h.modify fun _ => ⟨rfl, rfl, id⟩
  unfold Atm.afterVerifyPin
  split
  · apply attended_transitionTo _ rfl
    apply fresh_transitionTo
    exact h.fresh.of_eq rfl rfl
  · split
    · exact h
    · split
      · unfold Atm.retainCard
        split
        · exact hfailed
        · exact hfailed.suspend _ _
      · exact hfailed

/-- The watchdog or a suspended handler visibly looks after the current session. -/
def Atm.lookedAfter (s : Atm) : Bool :=
  s.session.all fun sid =>
    (s.sessions sid).state.idleTimeout &&
        (s.idleTimer = some sid || s.anySuspended Suspension.notifies) ||
      s.anySuspended Suspension.concludes

/-- A call throws only where its session is looked after without it, and a receipt is printed for a
session that has an amount. -/
def onward (s : Atm) : AtmStep → Bool
  | .resume i .throws => (s.tasks i).all fun task =>
    !(task.notifies || task.concludes) || (s.setTask i none).lookedAfter
  | .resume i .done => (s.tasks i).all fun task =>
    match task with
    | ⟨.dispensed _ _, .replied none⟩ =>
      s.current.all (fun session => session.amount.isSome) ||
        (s.setTask i none).anySuspended Suspension.concludes
    | _ => true
  | _ => true

theorem Attended.of_lookedAfter {s : Atm} (hfresh : s.Fresh) (h : s.lookedAfter = true) :
    Attended s where
  fresh := hfresh
  attended sid hsid := by
    simp only [Atm.lookedAfter, hsid, Option.all_some, Bool.or_eq_true, Bool.and_eq_true,
      decide_eq_true_eq] at h
    rcases h with ⟨hwaits, htimer | hnotifies⟩ | hconcludes
    · exact .inl ⟨hwaits, .inl htimer⟩
    · exact .inl ⟨hwaits, .inr (Atm.suspended_of_any hnotifies)⟩
    · exact .inr (Atm.suspended_of_any hconcludes)

theorem attended_onCardInserted {s : Atm} (pan : String) (h : Attended s) :
    Attended (s.onCardInserted pan) := by
  unfold Atm.onCardInserted
  split
  · exact h
  · refine ⟨Atm.Fresh.suspend (s := { s with
      sessions := Function.update s.sessions s.nextSession (.fresh pan)
      nextSession := s.nextSession + 1
      session := some s.nextSession }) h.fresh _ _, ?_⟩
    intro sid hsid
    cases hsid
    refine .inl ⟨by simp [AtmSession.fresh, AtmState.idleTimeout], .inr ?_⟩
    exact Atm.suspended_suspend _ rfl

theorem attended_idleTimeout {accountOf : String → String} {s t : Atm} (h : Attended s)
    (ht : atmStep accountOf s .idleTimeout = some t) : Attended t := by
  obtain ⟨n, hn, ⟨-, rfl⟩ | ⟨hother, rfl⟩⟩ := idleTimeout_cases ht
  · have hcleared : s.clearIdleTimer.Fresh := h.fresh
    exact attended_failSession hcleared _ _
  · refine ⟨h.fresh, ?_⟩
    intro sid hsid
    rcases h.attended sid hsid with ⟨hwaits, htimer | hnotifies⟩ | hconcludes
    · cases hn.symm.trans htimer
      exact absurd hsid hother
    · exact .inl ⟨hwaits, .inr hnotifies⟩
    · exact .inr hconcludes

theorem attended_executeCommand {s t : Atm} {i : Nat} {injected : Option String} (h : Attended s)
    (ht : s.executeCommand i injected = some t) : Attended t := by
  obtain ⟨cont, htask, ⟨rfl, rfl⟩ | ⟨-, v, error, rfl, hv⟩⟩ := Atm.executeCommand_cases ht
  · exact attended_usePad _ (h.advance htask _)
  · rcases hv with ⟨rfl, -⟩ | ⟨a, amount, -, rfl⟩ | ⟨-, rfl⟩
    · exact h.advance htask _
    · have hseen : Attended (s.record (.dispensed a.w.wid amount)) := h.of_eq rfl rfl rfl rfl rfl
      exact hseen.advance htask _
    · have hempty : Attended { s with card := none } := h.of_eq rfl rfl rfl rfl rfl
      exact hempty.advance htask _

theorem attended_writeRow {s t : Atm} {i : Nat} (h : Attended s) (ht : s.writeRow i = some t) :
    Attended t := by
  obtain ⟨sid, reason, htask, rfl⟩ := Atm.writeRow_ended ht
  have hwritten : Attended (s.record (.rowEnded sid reason)) := h.of_eq rfl rfl rfl rfl rfl
  exact hwritten.advance htask _

theorem attended_afterDispense {s : Atm} (hfresh : s.Fresh)
    (h : s.current.all (fun session => session.amount.isSome) = true ∨
      s.Suspended Suspension.concludes) : Attended s.afterDispense := by
  have hprinting := fresh_transitionTo hfresh .printing
  unfold Atm.afterDispense
  split
  · exact .concluding hprinting rfl
  · next hamount =>
    refine ⟨hprinting, ?_⟩
    intro sid hsid
    rw [Atm.transitionTo_session] at hsid
    rcases h with hpriced | hconcludes
    · simp only [Atm.current, hsid, Option.map_some, Option.all_some] at hpriced
      simp [Atm.current, hsid, hpriced] at hamount
    · refine .inr ?_
      simpa [Atm.Suspended] using hconcludes

theorem attended_resume {s t : Atm} {i : Nat} {cont : Cont} {phase : Phase} {reply : Reply}
    (h : Attended s) (htask : s.tasks i = some ⟨cont, phase⟩)
    (hok : onward s (.resume i reply) = true)
    (ht : (s.setTask i none).continueWith cont phase reply = some t) : Attended t := by
  have hfresh : (s.setTask i none).Fresh := h.fresh.setTask htask none
  have hidle : Suspension.notifies ⟨cont, phase⟩ = false →
      Suspension.concludes ⟨cont, phase⟩ = false → Attended (s.setTask i none) :=
    h.bystander htask
  have hthrown : reply = .throws → Attended (s.setTask i none) := by
    rintro rfl
    simp only [onward, htask, Option.all_some, Bool.or_eq_true, Bool.not_eq_true',
      Bool.or_eq_false_iff] at hok
    rcases hok with ⟨hnotifies, hconcludes⟩ | hlooked
    · exact hidle hnotifies hconcludes
    · exact .of_lookedAfter hfresh hlooked
  unfold Atm.continueWith at ht
  split at ht <;> cases ht
  · apply attended_afterInserted
    apply attended_notifyState hfresh
    intro sid hsid
    rcases h.attended sid hsid with ⟨hwaits, -⟩ | hconcludes
    · exact .inl hwaits
    · exact .inr (hconcludes.besides htask rfl none)
  · next error =>
    cases error with
    | none => exact (hidle rfl rfl).suspend _ _
    | some detail => exact attended_failSession hfresh _ _
  · exact attended_afterAuthenticate hfresh _ _
  · exact attended_verifyPinBuffer (hidle rfl rfl)
  · exact attended_afterVerifyPin _ _ _ (hidle rfl rfl)
  · exact attended_afterAuthorize hfresh _ _
  · exact attended_afterDispenseError hfresh _ _
  · apply attended_afterDispense hfresh
    simp only [onward, htask, Option.all_some, Bool.or_eq_true] at hok
    exact hok.imp id Atm.suspended_of_any
  · exact attended_failSession hfresh _ _
  · exact attended_safeEject (fresh_transitionTo hfresh .ejecting) _
  · exact attended_afterBalance hfresh _
  · have hgone := hidle rfl rfl
    unfold Atm.afterRetain
    split
    · exact hgone
    · exact hgone.suspend _ _
  · exact attended_afterRetainMarked hfresh _
  · exact attended_endSession hfresh _
  · exact attended_endSession hfresh _
  · exact attended_afterEnded hfresh _ _
  · exact hthrown rfl
  · exact hthrown rfl

theorem attended_step {accountOf : String → String} {s : Atm} {a : AtmStep} {t : Atm}
    (hpriced : Priced s) (h : Attended s) (hok : onward s a = true)
    (ht : atmStep accountOf s a = some t) : Attended t := by
  cases a with
  | onCardInserted pan => cases ht; exact attended_onCardInserted pan h
  | beginPinEntry =>
    cases ht
    unfold Atm.beginPinEntry
    split
    · exact h.suspend _ _
    · exact h
  | verifyPinBuffer => cases ht; exact attended_verifyPinBuffer h
  | selectTransaction txn => cases ht; exact attended_selectTransaction txn h
  | submitAmount amount => cases ht; exact attended_submitAmount amount h
  | confirmTransaction => cases ht; exact attended_confirmTransaction hpriced h
  | cancelTransaction =>
    cases ht
    unfold Atm.cancelTransaction
    split
    · exact h
    · exact attended_safeEject h.fresh _
  | pressKey key => cases ht; exact attended_usePad _ h
  | entryTimeout handle =>
    obtain ⟨after, -, rfl⟩ := Option.map_eq_some_iff.mp ht
    exact attended_usePad after h
  | pinCommand command injected => cases ht; exact attended_usePad _ h
  | idleTimeout => exact attended_idleTimeout h ht
  | executeCommand i injected => exact attended_executeCommand h ht
  | writeRow i => exact attended_writeRow h ht
  | resume i reply =>
    obtain ⟨cont, phase, htask, -, hcont⟩ := resume_cases ht
    exact attended_resume h htask hok hcont

/-- In every run whose calls throw only where the session is looked after without them, no session
is left alone. -/
theorem notStuck_of_reaches {accountOf : String → String} {s : Atm}
    (h : Runs.Reaches (atmStep accountOf) (fun s a => onward s a) Atm.init s) : NotStuck s := by
  have hstep : ∀ s a t, Priced s ∧ Attended s → onward s a = true →
      atmStep accountOf s a = some t → Priced t ∧ Attended t :=
    fun s a t hs hok ht => ⟨priced_step hs.1 ht, attended_step hs.1 hs.2 hok ht⟩
  have hpriced : Priced Atm.init := fun _ hstate => by cases hstate
  have hattended : Attended Atm.init := .of_none (fun _ _ => rfl) rfl
  exact .of_attended (h.invariant hstep ⟨hpriced, hattended⟩).2

/-- The host does not answer the authentication of the card. -/
def unanswered : List AtmStep :=
  [.onCardInserted "4580", .resume 0 .done, .executeCommand 1 none, .resume 1 .done,
   .resume 2 .throws]

theorem notStuck_of_unanswered :
    ∃ s, Runs.exec (atmStep fun _ => "ACC") Atm.init unanswered = some s ∧ s.quiet = true ∧
      s.session = some 0 ∧ NotStuck s := by
  have hrun : (Runs.exec (atmStep fun _ => "ACC") Atm.init unanswered).any (fun s =>
      s.quiet = true ∧ s.session = some 0) = true := by decide +kernel
  obtain ⟨s, hs, hend⟩ := (Option.any_eq_true ..).mp hrun
  obtain ⟨hquiet, hsession⟩ := of_decide_eq_true hend
  have halong : Runs.Along (atmStep fun _ => "ACC") (fun s a => onward s a) Atm.init
      unanswered := by decide +kernel
  exact ⟨s, hs, hquiet, hsession, notStuck_of_reaches ⟨unanswered, halong, hs⟩⟩

/-- The session cannot be stored: it stays current, and nothing will end it. -/
theorem stuck_unstored :
    ∃ s, Runs.Reaches (atmStep fun _ => "ACC") Runs.free Atm.init s ∧ s.quiet = true ∧
      s.session = some 0 ∧ s.idleTimer = none ∧ ¬ NotStuck s := by
  have hrun : (Runs.exec (atmStep fun _ => "ACC") Atm.init
      [.onCardInserted "4580", .resume 0 .throws]).any (fun s =>
        s.quiet = true ∧ s.session = some 0 ∧ s.idleTimer = none) = true := by decide +kernel
  obtain ⟨s, hs, hend⟩ := (Option.any_eq_true ..).mp hrun
  obtain ⟨hquiet, hsession, htimer⟩ := of_decide_eq_true hend
  refine ⟨s, .of_exec _ hs, hquiet, hsession, htimer, ?_⟩
  intro hnotStuck
  have harmed := (hnotStuck hquiet 0 hsession).2
  rw [htimer] at harmed
  cases harmed

end AtmXfs
