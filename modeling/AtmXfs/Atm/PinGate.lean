import AtmXfs.Atm.Steady
import AtmXfs.Lib.Runs

namespace AtmXfs

open Js Host Pin

/-- A host call for a session has the PIN of its own card verified for it before. -/
def pinChecked (act : Act) (older : List Act) : Prop :=
  match act with
  | .authorizeCall w => .verified w.sid w.pan ∈ older
  | .balanceCall sid pan => .verified sid pan ∈ older
  | _ => True

structure PinGated (s : Atm) : Prop where
  calls : Runs.Each pinChecked s.log
  menu : ∀ sid, (s.sessions sid).state = .mainMenu → .verified sid (s.sessions sid).cardPan ∈ s.log

/-- The PIN of the current session's card was verified for that session. -/
def Atm.Verified (s : Atm) : Prop :=
  ∀ sid, s.session = some sid → .verified sid (s.sessions sid).cardPan ∈ s.log

/-- A handler that awaits a PIN verification holds the PAN of the session it was begun for, and only
sessions with a verified PIN are unlocked. -/
structure Guarded (s : Atm) : Prop where
  known : ∀ sid, s.session = some sid → sid < s.nextSession
  asked : ∀ i sid pan entered phase, s.tasks i = some ⟨.pinVerified sid pan entered, phase⟩ →
    sid < s.nextSession ∧ (s.sessions sid).cardPan = pan
  unlocked : ∀ sid, (s.sessions sid).state.unlocked = true →
    .verified sid (s.sessions sid).cardPan ∈ s.log
  checked : Runs.Each pinChecked s.log

theorem PinGated.of_guarded {s : Atm} (h : Guarded s) : PinGated s where
  calls := h.checked
  menu sid hstate := h.unlocked sid (by rw [hstate]; rfl)

theorem Guarded.congr {s t : Atm} (h : Guarded s) (hsessions : t.sessions = s.sessions)
    (hnext : t.nextSession = s.nextSession)
    (hsession : ∀ sid, t.session = some sid → s.session = some sid)
    (htasks : ∀ i task, t.tasks i = some task →
      ∃ j old, s.tasks j = some old ∧ old.cont = task.cont)
    (hlog : t.log = s.log) : Guarded t where
  known sid hsid := hnext ▸ h.known sid (hsession sid hsid)
  asked i sid pan entered phase htask := by
    obtain ⟨j, ⟨cont, old⟩, hj, hcont⟩ := htasks i _ htask
    cases hcont
    rw [hnext, hsessions]
    exact h.asked j sid pan entered old hj
  unlocked sid hstate := by
    rw [hsessions] at hstate ⊢
    rw [hlog]
    exact h.unlocked sid hstate
  checked := hlog ▸ h.checked

theorem Guarded.of_eq {s t : Atm} (h : Guarded s) (hsessions : t.sessions = s.sessions)
    (hnext : t.nextSession = s.nextSession) (hsession : t.session = s.session)
    (htasks : t.tasks = s.tasks) (hlog : t.log = s.log) : Guarded t :=
  h.congr hsessions hnext (fun _ hsid => hsession ▸ hsid)
    (fun i task htask => ⟨i, task, htasks ▸ htask, rfl⟩) hlog

theorem Guarded.setTask {s : Atm} (h : Guarded s) {i : Nat} {new : Option Suspension}
    (hnew : ∀ task ∈ new, ∃ j old, s.tasks j = some old ∧ old.cont = task.cont) :
    Guarded (s.setTask i new) := by
  refine h.congr rfl rfl (fun _ hsid => hsid) ?_ rfl
  intro j task htask
  rcases Atm.tasks_setTask htask with ⟨-, hsome⟩ | ⟨-, hold⟩
  · exact hnew task hsome
  · exact ⟨j, task, hold, rfl⟩

theorem Guarded.update {s : Atm} (h : Guarded s) {sid : Nat} {session : AtmSession}
    (hpan : session.cardPan = (s.sessions sid).cardPan)
    (hstate : session.state.unlocked = true → .verified sid (s.sessions sid).cardPan ∈ s.log) :
    Guarded { s with sessions := Function.update s.sessions sid session } where
  known := h.known
  asked i n pan entered phase htask := by
    obtain ⟨hlt, hcard⟩ := h.asked i n pan entered phase htask
    refine ⟨hlt, ?_⟩
    by_cases hn : n = sid
    · subst hn
      simpa using hpan.trans hcard
    · simpa [Function.update_of_ne hn] using hcard
  unlocked n hunlocked := by
    by_cases hn : n = sid
    · subst hn
      simp only [Function.update_self] at hunlocked ⊢
      exact hpan ▸ hstate hunlocked
    · simp only [Function.update_of_ne hn] at hunlocked ⊢
      exact h.unlocked n hunlocked
  checked := h.checked

theorem Guarded.modify {s : Atm} (h : Guarded s) {f : AtmSession → AtmSession}
    (hf : Mild f) : Guarded (s.modify f) := by
  unfold Atm.modify
  split
  · exact h
  · next sid hsid =>
    apply h.update (hf _).2.1
    rw [(hf _).1]
    exact h.unlocked sid

theorem Guarded.record {s : Atm} (h : Guarded s) {act : Act} (hact : pinChecked act s.log) :
    Guarded (s.record act) where
  known := h.known
  asked := h.asked
  unlocked sid hstate := List.mem_cons_of_mem _ (h.unlocked sid hstate)
  checked := ⟨hact, h.checked⟩

theorem Guarded.suspend {s : Atm} (h : Guarded s) {cont : Cont} (phase : Phase)
    (hcont : ∀ sid pan entered, cont = .pinVerified sid pan entered →
      sid < s.nextSession ∧ (s.sessions sid).cardPan = pan) : Guarded (s.suspend cont phase) where
  known := h.known
  asked i sid pan entered other htask := by
    rcases Atm.tasks_suspend htask with ⟨-, hnew⟩ | ⟨-, hold⟩
    · exact hcont sid pan entered (congrArg Suspension.cont hnew).symm
    · exact h.asked i sid pan entered other hold
  unlocked := h.unlocked
  checked := h.checked

theorem Atm.Verified.modify {s : Atm} (h : s.Verified) {f : AtmSession → AtmSession}
    (hf : ∀ x : AtmSession, (f x).cardPan = x.cardPan) : (s.modify f).Verified := by
  unfold Atm.modify
  split
  · exact h
  · next n hn =>
    intro sid hsid
    cases hn.symm.trans hsid
    simp only [Function.update_self, hf]
    exact h n hn

theorem Atm.Verified.transitionTo {s : Atm} (h : s.Verified) (next : AtmState) :
    (s.transitionTo next).Verified := by
  cases hsession : s.session with
  | none => simpa [Atm.transitionTo, hsession] using h
  | some sid =>
    have hmodified := h.modify (f := fun x => { x with state := next }) fun _ => rfl
    intro n hn
    simp only [Atm.transitionTo, hsession] at hn ⊢
    exact List.mem_cons_of_mem _ (hmodified n hn)

/-- A session moves to an unlocked state only with a verified PIN. -/
theorem Guarded.transitionTo {s : Atm} (h : Guarded s) {next : AtmState}
    (hnext : next.unlocked = true → s.Verified) : Guarded (s.transitionTo next) := by
  cases hsession : s.session with
  | none => simpa [Atm.transitionTo, hsession] using h
  | some sid =>
    have hmoved : Guarded (s.modify fun session => { session with state := next }) := by
      simp only [Atm.modify, hsession]
      rw [← hsession]
      apply h.update
      · rfl
      · exact fun hunlocked => hnext hunlocked sid hsession
    have hrecorded : Guarded ((s.modify fun session => { session with state := next }).record
        (.stateChanged sid next)) := hmoved.record trivial
    simp only [Atm.transitionTo, hsession]
    exact hrecorded.of_eq rfl rfl rfl rfl rfl

theorem Guarded.verified {s : Atm} (h : Guarded s) {state : AtmState}
    (hcurrent : (s.current.any fun session => session.state = state) = true)
    (hstate : state.unlocked = true) : s.Verified := by
  intro sid hsid
  have hat : (s.sessions sid).state = state := by
    simpa [Atm.current, hsid] using hcurrent
  exact h.unlocked sid (hat ▸ hstate)

theorem guarded_onCardInserted {s : Atm} (pan : String) (h : Guarded s) :
    Guarded (s.onCardInserted pan) := by
  unfold Atm.onCardInserted
  split
  · exact h
  · apply Guarded.suspend _ _ (by simp)
    refine ⟨?_, ?_, ?_, h.checked⟩
    · intro sid hsid
      cases hsid
      exact Nat.lt_succ_self _
    · intro i sid other entered phase htask
      obtain ⟨hlt, hcard⟩ := h.asked i sid other entered phase htask
      have hne : sid ≠ s.nextSession := by omega
      refine ⟨Nat.lt_succ_of_lt hlt, ?_⟩
      simp only [Function.update_of_ne hne]
      exact hcard
    · intro sid hstate
      by_cases hsid : sid = s.nextSession
      · subst hsid
        simp [AtmSession.fresh, AtmState.unlocked] at hstate
      · simp only [Function.update_of_ne hsid] at hstate ⊢
        exact h.unlocked sid hstate

theorem guarded_endSession {s : Atm} (reason : EndReason) (h : Guarded s) :
    Guarded (s.endSession reason) := by
  unfold Atm.endSession
  split
  · exact h
  · have hclear : Guarded s.clearIdleTimer := h.of_eq rfl rfl rfl rfl rfl
    apply Guarded.suspend _ _ (by simp)
    exact hclear.modify fun _ => ⟨rfl, rfl, id⟩

theorem guarded_afterEnded {s : Atm} (sid : Nat) (reason : EndReason) (h : Guarded s) :
    Guarded (s.afterEnded sid reason) := by
  have hended : Guarded (s.transitionTo .ended) := h.transitionTo (by simp [AtmState.unlocked])
  have hnone : Guarded { s.transitionTo .ended with session := none } :=
    hended.congr rfl rfl (fun _ hsid => nomatch hsid) (fun i task htask => ⟨i, task, htask, rfl⟩)
      rfl
  exact hnone.record trivial

theorem steady_guarded : Atm.Steady ⟨true, true, true, true⟩ Guarded where
  onCardInserted s pan _ h := guarded_onCardInserted pan h
  modify s f hf h := h.modify hf
  setAccount s sid _ h := h.update rfl (h.unlocked sid)
  toError s h := h.transitionTo (by simp [AtmState.unlocked])
  transitionTo s next _ hlocked h := h.transitionTo (by simp [hlocked])
  notifyState s h := by
    unfold Atm.notifyState
    split
    · exact h
    · exact h.of_eq rfl rfl rfl rfl rfl
  suspend s cont phase hquiet h := by
    apply h.suspend phase
    rintro sid pan entered rfl
    cases hquiet
  askPin s sid entered hsid h := by
    apply h.suspend
    rintro n pan digits heq
    cases heq
    exact ⟨h.known sid hsid, rfl⟩
  drop s i cont phase _ _ h := h.setTask (by simp)
  advance s i cont phase phase' htask _ h := by
    apply h.setTask
    intro task hnew
    cases Option.mem_some_iff.mp hnew
    exact ⟨i, _, htask, rfl⟩
  clearIdleTimer s h := h.of_eq rfl rfl rfl rfl rfl
  endSession s reason _ h := guarded_endSession reason h
  rowEnded s sid reason _ h := h.record trivial
  afterEnded s sid reason _ h := guarded_afterEnded sid reason h
  reader s card _ h := h.of_eq rfl rfl rfl rfl rfl
  pad s pin h := h.of_eq rfl rfl rfl rfl rfl

theorem guarded_processBalance {s : Atm} (h : Guarded s) (hverified : s.Verified) :
    Guarded s.processBalance := by
  unfold Atm.processBalance
  split
  · exact h
  · next sid hsid =>
    have hprocessing : Guarded (s.transitionTo .processing) :=
      h.transitionTo (by simp [AtmState.unlocked])
    have hcalled : Guarded ((s.transitionTo .processing).record
        (.balanceCall sid (s.sessions sid).cardPan)) := by
      apply hprocessing.record
      simpa [Atm.transitionTo, Atm.record, Atm.modify, Atm.armIdleTimer, pinChecked, hsid]
        using hverified sid hsid
    exact hcalled.suspend _ (by simp)

theorem guarded_processWithdrawal {s : Atm} (h : Guarded s) (hverified : s.Verified) :
    Guarded s.processWithdrawal := by
  unfold Atm.processWithdrawal
  split
  · exact h
  · next sid hsid =>
    split
    · exact h
    · have hcounted : Guarded { s with calls := s.calls + 1 } := h.of_eq rfl rfl rfl rfl rfl
      apply Guarded.suspend _ _ (by simp)
      exact hcounted.record (hverified sid hsid)

theorem guarded_selectTransaction {s : Atm} (txn : TxnType) (h : Guarded s) :
    Guarded (s.selectTransaction txn) := by
  unfold Atm.selectTransaction
  split
  · next hcurrent =>
    have hverified : s.Verified := h.verified hcurrent rfl
    cases txn with
    | withdrawal =>
      apply Guarded.transitionTo
      · exact h.modify fun _ => ⟨rfl, rfl, id⟩
      · exact fun _ => hverified.modify fun _ => rfl
    | balance =>
      exact guarded_processBalance (h.modify fun _ => ⟨rfl, rfl, id⟩)
        (hverified.modify fun _ => rfl)
    | transfer => exact steady_guarded.markError _ (h.modify fun _ => ⟨rfl, rfl, id⟩)
    | deposit => exact steady_guarded.markError _ (h.modify fun _ => ⟨rfl, rfl, id⟩)
  · exact h

theorem guarded_submitAmount {s : Atm} (amount : Number) (h : Guarded s) :
    Guarded (s.submitAmount amount) := by
  unfold Atm.submitAmount
  split
  · next hcurrent =>
    have hverified : s.Verified := h.verified hcurrent rfl
    split
    · exact h
    · split
      · apply Guarded.transitionTo
        · exact h.modify fun _ => ⟨rfl, rfl, fun _ => rfl⟩
        · exact fun _ => hverified.modify fun _ => rfl
      · exact h
  · exact h

theorem guarded_confirmTransaction {s : Atm} (h : Guarded s) : Guarded s.confirmTransaction := by
  unfold Atm.confirmTransaction
  split
  · exact h
  · next session hsession =>
    have hprocessing : Guarded (s.transitionTo .processing) :=
      h.transitionTo (by simp [AtmState.unlocked])
    split
    · exact h
    · next hconfirm =>
      have hverified : s.Verified := by
        have hcurrent : (s.current.any fun session => session.state = .confirm) = true := by
          simpa [hsession] using hconfirm
        exact h.verified hcurrent rfl
      split
      · exact guarded_processWithdrawal hprocessing (hverified.transitionTo _)
      · exact steady_guarded.markError _ hprocessing

/-- The PIN that was verified opens the session it was asked for. -/
theorem guarded_afterVerifyPin {s : Atm} {sid : Nat} {pan : String} {r : AuthResult}
    (h : Guarded s) (hpan : (s.sessions sid).cardPan = pan)
    (hown : r.success = true → ∀ n, s.session = some n → n = sid) :
    Guarded (s.afterVerifyPin sid pan r) := by
  unfold Atm.afterVerifyPin
  split
  · next hsuccess =>
    have hrecorded : Guarded (s.record (.verified sid pan)) := h.record trivial
    have hverified : (s.record (.verified sid pan)).Verified := by
      intro n hn
      cases hown hsuccess n hn
      rw [← hpan]
      exact List.mem_cons_self
    have hfirst : Guarded ((s.record (.verified sid pan)).transitionTo .pinVerified) :=
      hrecorded.transitionTo fun _ => hverified
    exact hfirst.transitionTo fun _ => hverified.transitionTo _
  · split
    · exact h
    · split
      · exact steady_guarded.retainCard _ (h.modify fun _ => ⟨rfl, rfl, id⟩)
      · exact h.modify fun _ => ⟨rfl, rfl, id⟩

theorem guarded_afterAuthorize {s : Atm} (w : Withdrawal) (r : AuthorizationResult)
    (h : Guarded s) : Guarded (s.afterAuthorize w r) := by
  unfold Atm.afterAuthorize
  split
  · have hrecorded : Guarded (s.record (.approved ⟨w, r.stanNo⟩)) := h.record trivial
    split
    · exact hrecorded
    · apply Guarded.suspend _ _ (by simp)
      apply Guarded.transitionTo _ (by simp [AtmState.unlocked])
      exact hrecorded.modify fun _ => ⟨rfl, rfl, id⟩
  · exact steady_guarded.markError _ h

theorem guarded_afterDispenseError {s : Atm} (a : Authorisation) (detail : String)
    (h : Guarded s) : Guarded (s.afterDispenseError a detail) := by
  unfold Atm.afterDispenseError
  split
  · exact h
  · apply Guarded.suspend _ _ (by simp)
    exact h.record trivial

/-- A successful PIN verification comes back while its own session is current, or none. -/
def ownPin (s : Atm) : AtmStep → Bool
  | .resume i (.auth r) =>
    match s.tasks i with
    | some ⟨.pinVerified sid _ _, _⟩ => !r.success || s.session.all (· = sid)
    | _ => true
  | _ => true

theorem guarded_resume {s t : Atm} {i : Nat} {cont : Cont} {phase : Phase} {reply : Reply}
    (h : Guarded s) (htask : s.tasks i = some ⟨cont, phase⟩)
    (hok : ownPin s (.resume i reply) = true)
    (ht : (s.setTask i none).continueWith cont phase reply = some t) : Guarded t := by
  have hgone : Guarded (s.setTask i none) := h.setTask (by simp)
  cases hplain : cont.plain ⟨true, true, true, true⟩ with
  | true => exact steady_guarded.continueWith hplain hgone ht
  | false =>
    unfold Atm.continueWith at ht
    split at ht <;> cases ht
    all_goals first | (cases hplain; done) | skip
    · next sid pan entered r =>
      apply guarded_afterVerifyPin hgone (h.asked i sid pan entered _ htask).2
      intro hsuccess n hn
      simp only [ownPin, htask, hsuccess, Bool.not_true, Bool.false_or] at hok
      have hn' : s.session = some n := hn
      simpa [hn'] using hok
    · exact guarded_afterAuthorize _ _ hgone
    · exact guarded_afterDispenseError _ _ hgone
    · exact steady_guarded.afterDispense rfl hgone
    · exact hgone

theorem guarded_executeCommand {s t : Atm} {i : Nat} {injected : Option String}
    {task : Suspension} (h : Guarded s) (htask : s.tasks i = some task)
    (ht : s.executeCommand i injected = some t) : Guarded t := by
  cases hruns : task.cont.runs ⟨true, true, true, true⟩ with
  | true => exact steady_guarded.executeCommand htask hruns h ht
  | false =>
    have hmove : ∀ (u : Atm) (phase : Phase), u.tasks i = some task → Guarded u →
        Guarded (u.setTask i (some ⟨task.cont, phase⟩)) := by
      intro u phase hu hguarded
      apply hguarded.setTask
      intro new hnew
      cases Option.mem_some_iff.mp hnew
      exact ⟨i, task, hu, rfl⟩
    obtain ⟨phase, rfl | ⟨wid, amount, rfl⟩⟩ := Atm.executeCommand_withdrawal htask hruns ht
    · exact hmove s phase htask h
    · have hrecorded : Guarded (s.record (.dispensed wid amount)) := h.record trivial
      exact hmove _ phase htask hrecorded

theorem guarded_step {accountOf : String → String} (s : Atm) (a : AtmStep) (t : Atm)
    (h : Guarded s) (hok : ownPin s a = true) (ht : atmStep accountOf s a = some t) :
    Guarded t := by
  by_cases hplain : a.plain ⟨true, true, true, true⟩ s = true
  · exact steady_guarded.step hplain h ht
  cases a with
  | selectTransaction txn => cases ht; exact guarded_selectTransaction txn h
  | submitAmount amount => cases ht; exact guarded_submitAmount amount h
  | confirmTransaction => cases ht; exact guarded_confirmTransaction h
  | executeCommand i injected =>
    obtain ⟨cont, htask⟩ := Atm.executeCommand_issued ht
    exact guarded_executeCommand h htask ht
  | resume i reply =>
    obtain ⟨cont, phase, htask, -, hcont⟩ := resume_cases ht
    exact guarded_resume h htask hok hcont
  | _ => exact absurd rfl hplain

theorem guarded_init : Guarded Atm.init := by
  refine ⟨?_, ?_, ?_, trivial⟩
  · intro sid h
    cases h
  · intro i sid pan entered phase h
    cases h
  · intro sid h
    cases h

/-- In every run whose PIN verifications come back to their own session, no session is served
without a verified PIN of its card. -/
theorem pinGated_of_reaches {accountOf : String → String} {s : Atm}
    (h : Runs.Reaches (atmStep accountOf) (fun s a => ownPin s a) Atm.init s) : PinGated s :=
  .of_guarded (Runs.Reaches.invariant (P := Guarded) guarded_step guarded_init h)

/-- A balance inquiry with a verified PIN. -/
def balanceInquiry : List AtmStep :=
  toVerification "4580" 0 ++
    [.resume 4 (.auth ⟨true, none, "00", none⟩), .selectTransaction .balance]

theorem pinGated_of_balanceInquiry :
    ∃ s, Runs.exec (atmStep fun _ => "ACC") Atm.init balanceInquiry = some s ∧
      .balanceCall 0 "4580" ∈ s.log ∧ PinGated s := by
  have hrun : (Runs.exec (atmStep fun _ => "ACC") Atm.init balanceInquiry).any (fun s =>
      .balanceCall 0 "4580" ∈ s.log) = true := by decide +kernel
  obtain ⟨s, hs, hcall⟩ := (Option.any_eq_true ..).mp hrun
  have halong : Runs.Along (atmStep fun _ => "ACC") (fun s a => ownPin s a) Atm.init
      balanceInquiry := by decide +kernel
  exact ⟨s, hs, of_decide_eq_true hcall, pinGated_of_reaches ⟨balanceInquiry, halong, hs⟩⟩

/-- The session is cancelled while its PIN is verified; the next card is inserted before the host
answers, and its session asks for the balance. -/
def lateVerification : List AtmStep :=
  toVerification "4580" 0 ++ [.cancelTransaction, .executeCommand 5 none, .resume 5 .done,
    .writeRow 6, .resume 6 .done, .onCardInserted "4581", .resume 7 .done, .executeCommand 8 none,
    .resume 8 .done, .resume 9 (.auth ⟨true, some "ACC", "00", none⟩),
    .resume 4 (.auth ⟨true, none, "00", none⟩), .selectTransaction .balance]

theorem pinGate_bypassed :
    ∃ s, Runs.Reaches (atmStep fun _ => "ACC") Runs.free Atm.init s ∧
      .balanceCall 1 "4581" ∈ s.log ∧ .verified 1 "4581" ∉ s.log ∧ ¬ PinGated s := by
  have hrun : (Runs.exec (atmStep fun _ => "ACC") Atm.init lateVerification).any (fun s =>
      .balanceCall 1 "4581" ∈ s.log ∧ .verified 1 "4581" ∉ s.log) = true := by decide +kernel
  obtain ⟨s, hs, hend⟩ := (Option.any_eq_true ..).mp hrun
  obtain ⟨hcall, hnot⟩ := of_decide_eq_true hend
  refine ⟨s, .of_exec lateVerification hs, hcall, hnot, ?_⟩
  intro hgated
  obtain ⟨newer, older, hlog⟩ := List.append_of_mem hcall
  have hchecked : .verified 1 "4581" ∈ older := Runs.each_iff.mp hgated.calls newer _ older hlog
  apply hnot
  rw [hlog]
  exact List.mem_append_right _ (List.mem_cons_of_mem _ hchecked)

end AtmXfs
