import AtmXfs.Atm.Steady

namespace AtmXfs

open Js Host Pin

/-- The await checks a PIN or serves a withdrawal. -/
def Cont.serves : Cont → Bool
  | .pinVerified _ _ _ => true
  | .authorized _ => true
  | .dispensed _ _ => true
  | _ => false

/-- What the service does for a customer, as against the begin and the end of sessions. -/
def Act.serves : Act → Bool
  | .stateChanged _ _ => false
  | .rowEnded _ _ => false
  | .sessionEnded _ _ => false
  | _ => true

/-- The step stays within the scope, PIN checks and withdrawals allowed. -/
def AtmStep.free (scope : Scope) (s : Atm) : AtmStep → Bool
  | .onCardInserted _ => scope.inserts
  | .writeRow _ => scope.ends
  | .executeCommand i _ => (s.tasks i).all fun task => task.cont.serves || task.cont.runs scope
  | .resume i _ => (s.tasks i).all fun task => task.cont.serves || task.cont.plain scope
  | _ => true

/-- Nothing is outside of the full scope. -/
theorem AtmStep.free_full (s : Atm) (a : AtmStep) : a.free ⟨true, true, true, true⟩ s = true := by
  have hcont : ∀ cont : Cont, (cont.serves || cont.plain ⟨true, true, true, true⟩) = true ∧
      (cont.serves || cont.runs ⟨true, true, true, true⟩) = true := by
    intro cont
    cases cont <;> exact ⟨rfl, rfl⟩
  cases a with
  | executeCommand i injected =>
    cases htask : s.tasks i with
    | none => simp [free, htask]
    | some task => simpa [free, htask] using (hcont task.cont).2
  | resume i reply =>
    cases htask : s.tasks i with
    | none => simp [free, htask]
    | some task => simpa [free, htask] using (hcont task.cont).1
  | _ => rfl

namespace Atm

/-- PIN checks and withdrawals keep `P` too. -/
structure Free (scope : Scope) (P : Atm → Prop) : Prop extends Steady scope P where
  anyMoves : scope.moves = true
  anyState : ∀ s next, P s → P (s.transitionTo next)
  serve : ∀ s cont phase, cont.serves = true → P s → P (s.suspend cont phase)
  served : ∀ s i cont phase new, s.tasks i = some ⟨cont, phase⟩ → cont.serves = true →
    (∀ task ∈ new, task.cont = cont) → P s → P (s.setTask i new)
  record : ∀ s act, act.serves = true → P s → P (s.record act)
  count : ∀ s calls, P s → P { s with calls }

/-- Every single move keeps `P`. -/
structure Loose (inserts cards : Bool) (P : Atm → Prop) : Prop where
  onCardInserted : ∀ s pan, inserts = true → P s → P (s.onCardInserted pan)
  modify : ∀ s f, Mild f → P s → P (s.modify f)
  setAccount : ∀ s sid accountId, P s → P (s.setAccount sid accountId)
  transitionTo : ∀ s next, P s → P (s.transitionTo next)
  notifyState : ∀ s, P s → P s.notifyState
  clearIdleTimer : ∀ s, P s → P s.clearIdleTimer
  suspend : ∀ s cont phase, P s → P (s.suspend cont phase)
  setTask : ∀ s i new, P s → P (s.setTask i new)
  record : ∀ s act, P s → P (s.record act)
  count : ∀ s calls, P s → P { s with calls }
  afterEnded : ∀ s sid reason, P s → P (s.afterEnded sid reason)
  reader : ∀ s card, cards = true → P s → P { s with card }
  pad : ∀ s pin, P s → P { s with pin }

theorem Loose.endSession {inserts cards : Bool} {P : Atm → Prop} (hP : Loose inserts cards P)
    {s : Atm} (reason : EndReason) (h : P s) : P (s.endSession reason) := by
  unfold Atm.endSession
  split
  · exact h
  · apply hP.suspend
    apply hP.modify _ _ _ (hP.clearIdleTimer s h)
    exact fun _ => ⟨rfl, rfl, id⟩

theorem Loose.free {inserts cards : Bool} {P : Atm → Prop} (hP : Loose inserts cards P) :
    Free ⟨inserts, true, true, cards⟩ P where
  onCardInserted := hP.onCardInserted
  modify := hP.modify
  setAccount := hP.setAccount
  toError s := hP.transitionTo s .error
  transitionTo s next _ _ := hP.transitionTo s next
  notifyState := hP.notifyState
  suspend s cont phase _ := hP.suspend s cont phase
  askPin s _ _ _ := hP.suspend s _ _
  drop s i _ _ _ _ := hP.setTask s i none
  advance s i _ _ _ _ _ := hP.setTask s i _
  clearIdleTimer := hP.clearIdleTimer
  endSession _ reason _ h := hP.endSession reason h
  rowEnded s _ _ _ := hP.record s _
  afterEnded s sid reason _ := hP.afterEnded s sid reason
  reader := hP.reader
  pad := hP.pad
  anyMoves := rfl
  anyState := hP.transitionTo
  serve s cont phase _ := hP.suspend s cont phase
  served s i _ _ new _ _ _ := hP.setTask s i new
  record s act _ := hP.record s act
  count := hP.count

namespace Free

variable {scope : Scope} {P : Atm → Prop} {s t : Atm}

theorem processBalance (hP : Free scope P) (h : P s) : P s.processBalance := by
  unfold Atm.processBalance
  split
  · exact h
  · apply hP.suspend _ _ _ rfl
    apply hP.record _ _ rfl
    exact hP.anyState s _ h

theorem processWithdrawal (hP : Free scope P) (h : P s) : P s.processWithdrawal := by
  unfold Atm.processWithdrawal
  split
  · exact h
  · split
    · exact h
    · apply hP.serve _ _ _ rfl
      apply hP.record _ _ rfl
      exact hP.count s _ h

theorem selectTransaction (hP : Free scope P) (txn : TxnType) (h : P s) :
    P (s.selectTransaction txn) := by
  have hselected : ∀ txn, P (s.modify fun session => { session with selectedTxn := some txn }) :=
    fun _ => hP.modify s _ (fun _ => ⟨rfl, rfl, id⟩) h
  unfold Atm.selectTransaction
  split
  · cases txn with
    | withdrawal => exact hP.anyState _ _ (hselected .withdrawal)
    | balance => exact hP.processBalance (hselected .balance)
    | transfer => exact hP.toSteady.markError _ (hselected .transfer)
    | deposit => exact hP.toSteady.markError _ (hselected .deposit)
  · exact h

theorem submitAmount (hP : Free scope P) (amount : Number) (h : P s) :
    P (s.submitAmount amount) := by
  unfold Atm.submitAmount
  split
  · split
    · exact h
    · split
      · apply hP.anyState
        exact hP.modify s _ (fun _ => ⟨rfl, rfl, fun _ => rfl⟩) h
      · exact h
  · exact h

theorem confirmTransaction (hP : Free scope P) (h : P s) : P s.confirmTransaction := by
  have hprocessing := hP.anyState s .processing h
  unfold Atm.confirmTransaction
  split
  · exact h
  · split
    · exact h
    · split
      · exact hP.processWithdrawal hprocessing
      · exact hP.toSteady.markError _ hprocessing

theorem afterVerifyPin (hP : Free scope P) (sid : Nat) (pan : String) (r : AuthResult) (h : P s) :
    P (s.afterVerifyPin sid pan r) := by
  have hfailed : P (s.modify fun session =>
      { session with failedPinAttempts := session.failedPinAttempts + 1 }) :=
    hP.modify s _ (fun _ => ⟨rfl, rfl, id⟩) h
  unfold Atm.afterVerifyPin
  split
  · apply hP.anyState
    apply hP.anyState
    exact hP.record s _ rfl h
  · split
    · exact h
    · split
      · exact hP.toSteady.retainCard _ hfailed
      · exact hfailed

theorem afterAuthorize (hP : Free scope P) (w : Withdrawal) (r : AuthorizationResult) (h : P s) :
    P (s.afterAuthorize w r) := by
  have hrecorded := hP.record s (.approved ⟨w, r.stanNo⟩) rfl h
  unfold Atm.afterAuthorize
  split
  · split
    · exact hrecorded
    · apply hP.serve _ _ _ rfl
      apply hP.anyState
      exact hP.modify _ _ (fun _ => ⟨rfl, rfl, id⟩) hrecorded
  · exact hP.toSteady.markError _ h

theorem afterDispenseError (hP : Free scope P) (a : Authorisation) (detail : String) (h : P s) :
    P (s.afterDispenseError a detail) := by
  unfold Atm.afterDispenseError
  split
  · exact h
  · apply hP.suspend _ _ _ rfl
    exact hP.record s _ rfl h

theorem continueWith (hP : Free scope P) {cont : Cont} {phase : Phase} {reply : Reply}
    (hfree : (cont.serves || cont.plain scope) = true) (h : P s)
    (ht : s.continueWith cont phase reply = some t) : P t := by
  cases hplain : cont.plain scope with
  | true => exact hP.toSteady.continueWith hplain h ht
  | false =>
    have hserves : cont.serves = true := by simpa [hplain] using hfree
    unfold Atm.continueWith at ht
    split at ht <;> cases ht <;> try cases hserves
    · exact hP.afterVerifyPin _ _ _ h
    · exact hP.afterAuthorize _ _ h
    · exact hP.afterDispenseError _ _ h
    · exact hP.toSteady.afterDispense hP.anyMoves h
    · exact h

theorem executeCommand (hP : Free scope P) {i : Nat} {injected : Option String}
    {task : Suspension} (htask : s.tasks i = some task)
    (hfree : (task.cont.serves || task.cont.runs scope) = true) (h : P s)
    (ht : s.executeCommand i injected = some t) : P t := by
  cases hruns : task.cont.runs scope with
  | true => exact hP.toSteady.executeCommand htask hruns h ht
  | false =>
    have hserves : task.cont.serves = true := by simpa [hruns] using hfree
    have hmove : ∀ (u : Atm) (phase : Phase), u.tasks i = some task → P u →
        P (u.setTask i (some ⟨task.cont, phase⟩)) := fun u phase hu hPu =>
      hP.served u i task.cont task.phase _ hu hserves (by simp) hPu
    obtain ⟨cont, hi, ⟨rfl, -⟩ | ⟨-, v, error, rfl, hv⟩⟩ := Atm.executeCommand_cases ht
    · cases hi.symm.trans htask
      cases hserves
    · cases hi.symm.trans htask
      rcases hv with ⟨rfl, -⟩ | ⟨a, amount, -, rfl⟩ | ⟨htakes, -⟩
      · exact hmove _ _ htask h
      · exact hmove _ _ htask (hP.record s (.dispensed a.w.wid amount) rfl h)
      · cases cont with
        | cardRetained reason => cases hserves
        | ejected reason => cases hserves
        | _ => cases htakes

/-- What the moves keep, a step within the scope keeps. -/
theorem step (hP : Free scope P) {accountOf : String → String} {a : AtmStep}
    (hfree : a.free scope s = true) (h : P s) (ht : atmStep accountOf s a = some t) : P t := by
  by_cases hplain : a.plain scope s = true
  · exact hP.toSteady.step hplain h ht
  cases a with
  | onCardInserted pan => exact absurd hfree hplain
  | writeRow i => exact absurd hfree hplain
  | selectTransaction txn => cases ht; exact hP.selectTransaction txn h
  | submitAmount amount => cases ht; exact hP.submitAmount amount h
  | confirmTransaction => cases ht; exact hP.confirmTransaction h
  | executeCommand i injected =>
    obtain ⟨cont, htask⟩ := Atm.executeCommand_issued ht
    simp only [AtmStep.free, htask, Option.all_some] at hfree
    exact hP.executeCommand htask hfree h ht
  | resume i reply =>
    obtain ⟨cont, phase, htask, -, hcont⟩ := resume_cases ht
    simp only [AtmStep.free, htask, Option.all_some] at hfree
    have hgone : P (s.setTask i none) := by
      cases hplain : cont.plain scope with
      | true => exact hP.drop s i cont phase htask hplain h
      | false =>
        have hserves : cont.serves = true := by simpa [hplain] using hfree
        exact hP.served s i cont phase none htask hserves (by simp) h
    exact hP.continueWith hfree hgone hcont
  | _ => exact absurd rfl hplain

end Free

end Atm

end AtmXfs
