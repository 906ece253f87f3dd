import AtmXfs.Atm.Steady
import AtmXfs.Lib.Runs

namespace AtmXfs

open Js Host Pin

/-- The place of a state in the declared order. -/
def AtmState.rank : AtmState → Nat
  | idle => 0
  | cardInserted => 1
  | pinEntry => 2
  | pinVerified => 3
  | mainMenu => 4
  | amountEntry => 5
  | confirm => 6
  | processing => 7
  | dispensing => 8
  | printing => 9
  | ejecting => 10
  | error => 11
  | ended => 12

/-- The states a session was moved to, the last one first. -/
def changes (log : List Act) (sid : Nat) : List AtmState :=
  log.filterMap fun
    | .stateChanged n next => if n = sid then some next else none
    | _ => none

/-- The states a session passed through, the last one first. -/
def passed (log : List Act) (sid : Nat) : List AtmState := changes log sid ++ [.cardInserted]

/-- The calls of `host.authorizeWithdrawal` for a session. -/
def withdrawalCalls (log : List Act) (sid : Nat) : List Withdrawal :=
  log.filterMap fun
    | .authorizeCall w => if w.sid = sid then some w else none
    | _ => none

/-- No session goes back in the declared order, and the host is asked for at most one withdrawal of
each. -/
def Linear (log : List Act) : Prop :=
  ∀ sid, (passed log sid).Pairwise (fun later earlier => earlier.rank ≤ later.rank) ∧
    (withdrawalCalls log sid).length ≤ 1

/-- The log shows the states of the sessions in order, and a withdrawal call only for sessions that
are beyond the menus. -/
structure Ordered (s : Atm) : Prop where
  known : ∀ sid, s.session = some sid → sid < s.nextSession
  unborn : ∀ sid, s.nextSession ≤ sid → changes s.log sid = [] ∧ withdrawalCalls s.log sid = []
  last : ∀ sid, sid < s.nextSession → (passed s.log sid).head? = some (s.sessions sid).state
  sorted : ∀ sid, (passed s.log sid).Pairwise fun later earlier => earlier.rank ≤ later.rank
  calls : ∀ sid, withdrawalCalls s.log sid = [] ∨ (withdrawalCalls s.log sid).length = 1 ∧
    AtmState.processing.rank ≤ (s.sessions sid).state.rank

/-- The current session has not ended. -/
def Atm.Opened (s : Atm) : Prop :=
  ∀ sid, s.session = some sid → (s.sessions sid).state ≠ .ended

theorem Ordered.congr {s t : Atm} (h : Ordered s)
    (hstate : ∀ sid, (t.sessions sid).state = (s.sessions sid).state)
    (hnext : t.nextSession = s.nextSession)
    (hsession : ∀ sid, t.session = some sid → s.session = some sid)
    (hchanges : changes t.log = changes s.log)
    (hcalls : withdrawalCalls t.log = withdrawalCalls s.log) : Ordered t where
  known sid hsid := hnext ▸ h.known sid (hsession sid hsid)
  unborn sid hsid := by
    rw [hchanges, hcalls]
    exact h.unborn sid (hnext ▸ hsid)
  last sid hsid := by
    rw [passed, hchanges, hstate]
    exact h.last sid (hnext ▸ hsid)
  sorted sid := by
    rw [passed, hchanges]
    exact h.sorted sid
  calls sid := by
    rw [hcalls, hstate]
    exact h.calls sid

theorem opened_congr {s t : Atm} (h : s.Opened)
    (hstate : ∀ sid, (t.sessions sid).state = (s.sessions sid).state)
    (hsession : ∀ sid, t.session = some sid → s.session = some sid) : t.Opened := by
  intro sid hsid
  rw [hstate]
  exact h sid (hsession sid hsid)

theorem rank_le_of_passed {s : Atm} (h : Ordered s) {sid : Nat} (hsid : sid < s.nextSession)
    {earlier : AtmState} (hmem : earlier ∈ passed s.log sid) :
    earlier.rank ≤ (s.sessions sid).state.rank := by
  have hlast := h.last sid hsid
  have hsorted := h.sorted sid
  cases hpassed : passed s.log sid with
  | nil => rw [hpassed] at hmem; cases hmem
  | cons latest older =>
    rw [hpassed] at hlast hsorted hmem
    rw [← Option.some.inj hlast]
    rcases List.mem_cons.mp hmem with rfl | hold
    · exact le_rfl
    · exact List.rel_of_pairwise_cons hsorted hold

theorem rank_lt_ended {state : AtmState} (h : state ≠ .ended) :
    state.rank ≤ AtmState.error.rank := by
  cases state <;> first | decide | exact absurd rfl h

/-- Moving the current session forward keeps the order. -/
theorem Ordered.transitionTo {s : Atm} (h : Ordered s) {next : AtmState}
    (hle : ∀ sid, s.session = some sid → (s.sessions sid).state.rank ≤ next.rank) :
    Ordered (s.transitionTo next) := by
  cases hsession : s.session with
  | none => simpa [Atm.transitionTo, hsession] using h
  | some sid =>
    have hlt := h.known sid hsession
    have hgrow := hle sid hsession
    have hat : (s.transitionTo next).sessions =
        Function.update s.sessions sid { s.sessions sid with state := next } := by
      simp [Atm.transitionTo, Atm.modify, Atm.record, Atm.armIdleTimer, hsession]
    have hlog : (s.transitionTo next).log = .stateChanged sid next :: s.log := by
      simp [Atm.transitionTo, Atm.armIdleTimer, hsession]
    have hself : passed (s.transitionTo next).log sid = next :: passed s.log sid := by
      rw [hlog]
      simp [passed, changes]
    have hchanges : ∀ n, n ≠ sid → changes (s.transitionTo next).log n = changes s.log n := by
      intro n hn
      rw [hlog]
      simp [changes, hn.symm]
    have hcalls : withdrawalCalls (s.transitionTo next).log = withdrawalCalls s.log := by
      rw [hlog]
      rfl
    refine ⟨?_, ?_, ?_, ?_, ?_⟩
    · intro n hn
      rw [Atm.transitionTo_nextSession]
      exact h.known n (by simpa using hn)
    · intro n hn
      rw [Atm.transitionTo_nextSession] at hn
      have hne : n ≠ sid := by omega
      rw [hchanges n hne, hcalls]
      exact h.unborn n hn
    · intro n hn
      rw [Atm.transitionTo_nextSession] at hn
      by_cases hne : n = sid
      · subst hne
        rw [hself, hat, Function.update_self]
        rfl
      · rw [passed, hchanges n hne, hat, Function.update_of_ne hne]
        exact h.last n hn
    · intro n
      by_cases hne : n = sid
      · subst hne
        rw [hself, List.pairwise_cons]
        refine ⟨?_, h.sorted n⟩
        intro earlier hmem
        exact (rank_le_of_passed h hlt hmem).trans hgrow
      · rw [passed, hchanges n hne]
        exact h.sorted n
    · intro n
      rw [hcalls, hat]
      by_cases hne : n = sid
      · subst hne
        rw [Function.update_self]
        rcases h.calls n with hnone | ⟨hone, hbeyond⟩
        · exact .inl hnone
        · exact .inr ⟨hone, hbeyond.trans hgrow⟩
      · rw [Function.update_of_ne hne]
        exact h.calls n

theorem opened_transitionTo {s : Atm} {next : AtmState} (h : s.Opened) (hnext : next ≠ .ended) :
    (s.transitionTo next).Opened := by
  cases hsession : s.session with
  | none =>
    have hsame : s.transitionTo next = s := by simp [Atm.transitionTo, hsession]
    rwa [hsame]
  | some sid =>
    intro n hn
    rw [Atm.transitionTo_session, hsession] at hn
    cases hn
    simpa [Atm.transitionTo, Atm.modify, Atm.record, Atm.armIdleTimer, hsession] using hnext

/-- What holds of the order in every state: the states so far, and the current session is open. -/
def InOrder (s : Atm) : Prop := Ordered s ∧ s.Opened

theorem InOrder.congr {s t : Atm} (h : InOrder s)
    (hstate : ∀ sid, (t.sessions sid).state = (s.sessions sid).state)
    (hnext : t.nextSession = s.nextSession)
    (hsession : ∀ sid, t.session = some sid → s.session = some sid)
    (hchanges : changes t.log = changes s.log)
    (hcalls : withdrawalCalls t.log = withdrawalCalls s.log) : InOrder t :=
  ⟨h.1.congr hstate hnext hsession hchanges hcalls, opened_congr h.2 hstate hsession⟩

theorem InOrder.of_eq {s t : Atm} (h : InOrder s) (hsessions : t.sessions = s.sessions)
    (hnext : t.nextSession = s.nextSession) (hsession : t.session = s.session)
    (hlog : t.log = s.log) : InOrder t :=
  h.congr (fun _ => by rw [hsessions]) hnext (fun _ hsid => hsession ▸ hsid) (by rw [hlog])
    (by rw [hlog])

theorem InOrder.transitionTo {s : Atm} (h : InOrder s) {next : AtmState} (hnext : next ≠ .ended)
    (hle : ∀ sid, s.session = some sid → (s.sessions sid).state.rank ≤ next.rank) :
    InOrder (s.transitionTo next) :=
  ⟨h.1.transitionTo hle, opened_transitionTo h.2 hnext⟩

theorem InOrder.toError {s : Atm} (h : InOrder s) : InOrder (s.transitionTo .error) :=
  h.transitionTo (by decide) fun sid hsid => rank_lt_ended (h.2 sid hsid)

theorem InOrder.modify {s : Atm} (h : InOrder s) {f : AtmSession → AtmSession}
    (hf : ∀ x : AtmSession, (f x).state = x.state) : InOrder (s.modify f) := by
  refine h.congr ?_ (by simp) (by simp) (by simp) (by simp)
  intro n
  unfold Atm.modify
  split
  · rfl
  · next sid hsid =>
    by_cases hn : n = sid
    · subst hn
      simp [hf]
    · simp [Function.update_of_ne hn]

theorem InOrder.record {s : Atm} (h : InOrder s) {act : Act}
    (hstate : ∀ sid next, act ≠ .stateChanged sid next) (hcall : ∀ w, act ≠ .authorizeCall w) :
    InOrder (s.record act) := by
  refine h.congr (fun _ => rfl) rfl (fun _ hsid => hsid) ?_ ?_
  · funext sid
    cases act with
    | stateChanged n next => exact absurd rfl (hstate n next)
    | _ => rfl
  · funext sid
    cases act with
    | authorizeCall w => exact absurd rfl (hcall w)
    | _ => rfl

theorem inOrder_onCardInserted {s : Atm} (pan : String) (h : InOrder s) :
    InOrder (s.onCardInserted pan) := by
  unfold Atm.onCardInserted
  split
  · exact h
  · obtain ⟨hchanges, hcalls⟩ := h.1.unborn s.nextSession le_rfl
    refine ⟨⟨?_, ?_, ?_, h.1.sorted, ?_⟩, ?_⟩
    · intro sid hsid
      cases hsid
      exact Nat.lt_succ_self _
    · intro sid hsid
      exact h.1.unborn sid (Nat.le_of_succ_le hsid)
    · intro sid hsid
      by_cases hnew : sid = s.nextSession
      · subst hnew
        simp [passed, hchanges, AtmSession.fresh]
      · have hlt : sid < s.nextSession := by
          have hle : sid < s.nextSession + 1 := hsid
          omega
        simpa [Function.update_of_ne hnew] using h.1.last sid hlt
    · intro sid
      by_cases hnew : sid = s.nextSession
      · subst hnew
        exact .inl hcalls
      · simpa [Function.update_of_ne hnew] using h.1.calls sid
    · intro sid hsid
      cases hsid
      simp [AtmSession.fresh]

theorem inOrder_endSession {s : Atm} (reason : EndReason) (h : InOrder s) :
    InOrder (s.endSession reason) := by
  unfold Atm.endSession
  split
  · exact h
  · have hcleared : InOrder s.clearIdleTimer := h.of_eq rfl rfl rfl rfl
    have hnoted : InOrder (s.clearIdleTimer.modify fun x => { x with endReason := some reason }) :=
      hcleared.modify fun _ => rfl
    exact hnoted.of_eq rfl rfl rfl rfl

theorem inOrder_afterEnded {s : Atm} (sid : Nat) (reason : EndReason) (h : InOrder s) :
    InOrder (s.afterEnded sid reason) := by
  have hended : Ordered (s.transitionTo .ended) := by
    apply h.1.transitionTo
    intro n _
    cases (s.sessions n).state <;> decide
  refine ⟨?_, nofun⟩
  exact hended.congr (fun _ => rfl) rfl nofun rfl rfl

theorem steady_inOrder : Atm.Steady ⟨true, false, true, true⟩ InOrder where
  onCardInserted _ pan _ h := inOrder_onCardInserted pan h
  modify _ _ hf h := h.modify fun x => (hf x).1
  setAccount s sid accountId h := by
    refine h.congr ?_ rfl (fun _ hsid => hsid) rfl rfl
    intro n
    by_cases hn : n = sid
    · subst hn
      simp [Atm.setAccount]
    · simp [Atm.setAccount, Function.update_of_ne hn]
  toError _ h := h.toError
  transitionTo _ _ hmoves _ _ := nomatch hmoves
  notifyState s h := by
    unfold Atm.notifyState
    split
    · exact h
    · exact h.of_eq rfl rfl rfl rfl
  suspend _ _ _ _ h := h.of_eq rfl rfl rfl rfl
  askPin _ _ _ _ h := h.of_eq rfl rfl rfl rfl
  drop _ _ _ _ _ _ h := h.of_eq rfl rfl rfl rfl
  advance _ _ _ _ _ _ _ h := h.of_eq rfl rfl rfl rfl
  clearIdleTimer _ h := h.of_eq rfl rfl rfl rfl
  endSession _ reason _ h := inOrder_endSession reason h
  rowEnded _ _ _ _ h := h.record nofun nofun
  afterEnded _ sid reason _ h := inOrder_afterEnded sid reason h
  reader _ _ _ h := h.of_eq rfl rfl rfl rfl
  pad _ _ h := h.of_eq rfl rfl rfl rfl

/-- From a state that was just checked the session may move to a later one. -/
theorem rank_of_current {s : Atm} {state : AtmState}
    (hcurrent : (s.current.any fun session => session.state = state) = true) {sid : Nat}
    (hsid : s.session = some sid) : (s.sessions sid).state.rank = state.rank := by
  have hat : (s.sessions sid).state = state := by simpa [Atm.current, hsid] using hcurrent
  rw [hat]

theorem modify_state {s : Atm} {f : AtmSession → AtmSession}
    (hf : ∀ x : AtmSession, (f x).state = x.state) (sid : Nat) :
    ((s.modify f).sessions sid).state = (s.sessions sid).state := by
  unfold Atm.modify
  split
  · rfl
  · next n hn =>
    by_cases hsid : sid = n
    · subst hsid
      simp [hf]
    · simp [Function.update_of_ne hsid]

theorem inOrder_processBalance {s : Atm} (h : InOrder s)
    (hle : ∀ sid, s.session = some sid →
      (s.sessions sid).state.rank ≤ AtmState.processing.rank) : InOrder s.processBalance := by
  unfold Atm.processBalance
  split
  · exact h
  · next sid _ =>
    have hprocessing : InOrder (s.transitionTo .processing) := h.transitionTo (by decide) hle
    have hcalled : InOrder ((s.transitionTo .processing).record
        (.balanceCall sid (s.sessions sid).cardPan)) := hprocessing.record nofun nofun
    exact hcalled.of_eq rfl rfl rfl rfl

theorem inOrder_selectTransaction {s : Atm} (txn : TxnType) (h : InOrder s) :
    InOrder (s.selectTransaction txn) := by
  unfold Atm.selectTransaction
  split
  · next hcurrent =>
    have hselected : InOrder (s.modify fun session => { session with selectedTxn := some txn }) :=
      h.modify fun _ => rfl
    have hmenu : ∀ next : AtmState, AtmState.mainMenu.rank ≤ next.rank → ∀ sid,
        (s.modify fun session => { session with selectedTxn := some txn }).session = some sid →
          ((s.modify fun session =>
            { session with selectedTxn := some txn }).sessions sid).state.rank ≤ next.rank := by
      intro next hnext sid hsid
      rw [Atm.modify_session] at hsid
      rw [modify_state (f := fun session => { session with selectedTxn := some txn }) fun _ => rfl,
        rank_of_current hcurrent hsid]
      exact hnext
    cases txn with
    | withdrawal => exact hselected.transitionTo (by decide) (hmenu .amountEntry (by decide))
    | balance => exact inOrder_processBalance hselected (hmenu .processing (by decide))
    | transfer => exact steady_inOrder.markError _ hselected
    | deposit => exact steady_inOrder.markError _ hselected
  · exact h

theorem inOrder_submitAmount {s : Atm} (amount : Number) (h : InOrder s) :
    InOrder (s.submitAmount amount) := by
  unfold Atm.submitAmount
  split
  · next hcurrent =>
    split
    · exact h
    · split
      · next n _ _ =>
        have hnoted : InOrder (s.modify fun session => { session with amount := some n }) :=
          h.modify fun _ => rfl
        refine hnoted.transitionTo (by decide) ?_
        intro sid hsid
        rw [Atm.modify_session] at hsid
        rw [modify_state (f := fun session => { session with amount := some n }) fun _ => rfl,
          rank_of_current hcurrent hsid]
        decide
      · exact h
  · exact h

/-- The call is the first one of its session, since no earlier state allows one. -/
theorem inOrder_confirmTransaction {s : Atm} (h : InOrder s) : InOrder s.confirmTransaction := by
  unfold Atm.confirmTransaction
  split
  · exact h
  · next session hsession =>
    split
    · exact h
    · next hconfirm =>
      obtain ⟨sid, hsid, rfl⟩ := Option.map_eq_some_iff.mp hsession
      have hstate : (s.sessions sid).state = .confirm := not_not.mp hconfirm
      have hprocessing : InOrder (s.transitionTo .processing) := by
        refine h.transitionTo (by decide) ?_
        intro n hn
        cases hsid.symm.trans hn
        rw [hstate]
        decide
      split
      · have hnone : withdrawalCalls s.log sid = [] := by
          rcases h.1.calls sid with hnone | ⟨-, hbeyond⟩
          · exact hnone
          · rw [hstate] at hbeyond
            exact absurd hbeyond (by decide)
        have hlog : withdrawalCalls (s.transitionTo .processing).log = withdrawalCalls s.log := by
          simp only [Atm.transitionTo, hsid, Atm.armIdleTimer, Atm.record_log, Atm.modify_log]
          rfl
        have hat : ((s.transitionTo .processing).sessions sid).state = .processing := by
          simp [Atm.transitionTo, Atm.modify, Atm.record, Atm.armIdleTimer, hsid]
        have hcurrent : (s.transitionTo .processing).session = some sid :=
          (Atm.transitionTo_session ..).trans hsid
        generalize s.transitionTo .processing = u at *
        unfold Atm.processWithdrawal
        split
        · exact hprocessing
        · next sid' hsid' =>
          cases hcurrent.symm.trans hsid'
          split
          · exact hprocessing
          have hother : ∀ n, n ≠ sid → ∀ w : Withdrawal, w.sid = sid →
              withdrawalCalls (.authorizeCall w :: u.log) n = withdrawalCalls u.log n := by
            rintro n hn w rfl
            simp [withdrawalCalls, hn.symm]
          refine ⟨⟨hprocessing.1.known, ?_, hprocessing.1.last, hprocessing.1.sorted, ?_⟩,
            hprocessing.2⟩
          · intro n hn
            have hlt := hprocessing.1.known sid hcurrent
            have hge : u.nextSession ≤ n := hn
            obtain ⟨hchanges, hcalls⟩ := hprocessing.1.unborn n hge
            exact ⟨hchanges, (hother n (by omega) _ rfl).trans hcalls⟩
          · intro n
            by_cases hn : n = sid
            · subst hn
              right
              refine ⟨?_, hat ▸ le_rfl⟩
              have hfirst : withdrawalCalls u.log n = [] := hlog ▸ hnone
              simp only [Atm.suspend_log, Atm.record_log]
              simpa [withdrawalCalls] using hfirst
            · rcases hprocessing.1.calls n with hfree | ⟨hone, hbeyond⟩
              · exact .inl ((hother n hn _ rfl).trans hfree)
              · exact .inr ⟨(congrArg List.length (hother n hn _ rfl)).trans hone, hbeyond⟩
      · exact steady_inOrder.markError _ hprocessing

/-- The state that a handler moves the current session to when it goes on, other than ERROR. -/
def Cont.target : Cont → Phase → Reply → Option AtmState
  | .authenticated _ _, _, .auth r => if r.success then some .pinEntry else none
  | .pinVerified _ _ _, _, .auth r => if r.success then some .pinVerified else none
  | .authorized _, _, .authorization r => if r.approved then some .dispensing else none
  | .dispensed _ _, .replied none, .done => some .printing
  | .balanceRead, _, .balance responseCode => if responseCode = "00" then some .printing else none
  | .receiptPrinted, _, .done => some .ejecting
  | _, _, _ => none

/-- A handler that moves the current session on does not find it beyond the state it moves to. -/
def inTurn (s : Atm) : AtmStep → Bool
  | .resume i reply =>
    (s.tasks i).all fun task => (task.cont.target task.phase reply).all fun next =>
      s.current.all fun session => session.state.rank ≤ next.rank
  | _ => true

theorem rank_le_of_inTurn {s : Atm} {i : Nat} {cont : Cont} {phase : Phase} {reply : Reply}
    {next : AtmState} (htask : s.tasks i = some ⟨cont, phase⟩)
    (hok : inTurn s (.resume i reply) = true) (hnext : cont.target phase reply = some next)
    {sid : Nat} (hsid : s.session = some sid) : (s.sessions sid).state.rank ≤ next.rank := by
  simpa [inTurn, htask, hnext, Atm.current, hsid] using hok

theorem inOrder_afterAuthenticate {s : Atm} {sid : Nat} {r : AuthResult} (h : InOrder s)
    (hle : r.success = true → ∀ n, s.session = some n →
      (s.sessions n).state.rank ≤ AtmState.pinEntry.rank) :
    InOrder (s.afterAuthenticate sid r) := by
  unfold Atm.afterAuthenticate
  split
  · next hsuccess =>
    have haccount : InOrder (s.setAccount sid r.accountId) := steady_inOrder.setAccount s sid _ h
    refine haccount.transitionTo (by decide) ?_
    intro n hn
    have hstate : ((s.setAccount sid r.accountId).sessions n).state = (s.sessions n).state := by
      by_cases hne : n = sid
      · subst hne
        simp [Atm.setAccount]
      · simp [Atm.setAccount, Function.update_of_ne hne]
    rw [hstate]
    exact hle hsuccess n hn
  · exact steady_inOrder.markError _ h

theorem inOrder_afterVerifyPin {s : Atm} {sid : Nat} {pan : String} {r : AuthResult}
    (h : InOrder s) (hle : r.success = true → ∀ n, s.session = some n →
      (s.sessions n).state.rank ≤ AtmState.pinVerified.rank) :
    InOrder (s.afterVerifyPin sid pan r) := by
  unfold Atm.afterVerifyPin
  split
  · next hsuccess =>
    have hrecorded : InOrder (s.record (.verified sid pan)) := h.record nofun nofun
    have hverified : InOrder ((s.record (.verified sid pan)).transitionTo .pinVerified) :=
      hrecorded.transitionTo (by decide) fun n hn => hle hsuccess n hn
    refine hverified.transitionTo (by decide) ?_
    intro n hn
    rw [Atm.transitionTo_session, Atm.record_session] at hn
    simp [Atm.transitionTo, Atm.modify, Atm.armIdleTimer, AtmState.rank, hn]
  · split
    · exact h
    · split
      · apply steady_inOrder.retainCard
        exact h.modify fun _ => rfl
      · exact h.modify fun _ => rfl

theorem inOrder_afterAuthorize {s : Atm} {w : Withdrawal} {r : AuthorizationResult}
    (h : InOrder s) (hle : r.approved = true → ∀ n, s.session = some n →
      (s.sessions n).state.rank ≤ AtmState.dispensing.rank) : InOrder (s.afterAuthorize w r) := by
  unfold Atm.afterAuthorize
  split
  · next happroved =>
    have hrecorded : InOrder (s.record (.approved ⟨w, r.stanNo⟩)) := h.record nofun nofun
    split
    · exact hrecorded
    · have hnoted : InOrder ((s.record (.approved ⟨w, r.stanNo⟩)).modify fun session =>
          { session with stanNo := some r.stanNo }) := hrecorded.modify fun _ => rfl
      have hdispensing : InOrder (((s.record (.approved ⟨w, r.stanNo⟩)).modify fun session =>
          { session with stanNo := some r.stanNo }).transitionTo .dispensing) := by
        refine hnoted.transitionTo (by decide) ?_
        intro n hn
        rw [Atm.modify_session] at hn
        rw [modify_state (f := fun session => { session with stanNo := some r.stanNo })
          fun _ => rfl]
        exact hle happroved n hn
      exact hdispensing.of_eq rfl rfl rfl rfl
  · exact steady_inOrder.markError _ h

/-- A handler that goes on to print or to eject. -/
theorem inOrder_move_suspend {s : Atm} {next : AtmState} (cont : Cont) (phase : Phase)
    (h : InOrder s) (hnext : next ≠ .ended)
    (hle : ∀ n, s.session = some n → (s.sessions n).state.rank ≤ next.rank) :
    InOrder ((s.transitionTo next).suspend cont phase) :=
  (h.transitionTo hnext hle).of_eq rfl rfl rfl rfl

theorem inOrder_resume {s t : Atm} {i : Nat} {cont : Cont} {phase : Phase} {reply : Reply}
    (h : InOrder s) (htask : s.tasks i = some ⟨cont, phase⟩)
    (hok : inTurn s (.resume i reply) = true)
    (ht : (s.setTask i none).continueWith cont phase reply = some t) : InOrder t := by
  have hgone : InOrder (s.setTask i none) := h.of_eq rfl rfl rfl rfl
  have hle : ∀ next, cont.target phase reply = some next → ∀ n,
      (s.setTask i none).session = some n →
        ((s.setTask i none).sessions n).state.rank ≤ next.rank :=
    fun next hnext n hn => rank_le_of_inTurn htask hok hnext hn
  cases hplain : cont.plain ⟨true, false, true, true⟩ with
  | true => exact steady_inOrder.continueWith hplain hgone ht
  | false =>
    unfold Atm.continueWith at ht
    split at ht <;> cases ht <;> try cases hplain
    · next sid pan r =>
      apply inOrder_afterAuthenticate hgone
      intro hsuccess
      exact hle .pinEntry (by simp [Cont.target, hsuccess])
    · next sid pan entered r =>
      apply inOrder_afterVerifyPin hgone
      intro hsuccess
      exact hle .pinVerified (by simp [Cont.target, hsuccess])
    · next w r =>
      apply inOrder_afterAuthorize hgone
      intro happroved
      exact hle .dispensing (by simp [Cont.target, happroved])
    · next a amount detail =>
      unfold Atm.afterDispenseError
      split
      · exact hgone
      · next n _ =>
        have hrecorded : InOrder ((s.setTask i none).record (.reversed a.w.wid
            ⟨a.stanNo, n, ((s.setTask i none).sessions n).cardPan,
              ((s.setTask i none).sessions n).accountId, ((s.setTask i none).sessions n).amount,
              detail⟩)) := hgone.record nofun nofun
        exact hrecorded.of_eq rfl rfl rfl rfl
    · have hprinting := hle .printing rfl
      unfold Atm.afterDispense
      split
      · exact inOrder_move_suspend _ _ hgone (by decide) hprinting
      · exact hgone.transitionTo (by decide) hprinting
    · exact inOrder_move_suspend _ _ hgone (by decide) (hle .ejecting rfl)
    · next responseCode =>
      unfold Atm.afterBalance
      split
      · next hcode =>
        split
        · exact hgone
        · apply inOrder_move_suspend _ _ hgone (by decide)
          exact hle .printing (by simp [Cont.target, hcode])
      · exact steady_inOrder.markError _ hgone
    · exact hgone

theorem inOrder_step {accountOf : String → String} (s : Atm) (a : AtmStep) (t : Atm)
    (h : InOrder s) (hok : inTurn s a = true) (ht : atmStep accountOf s a = some t) :
    InOrder t := by
  by_cases hplain : a.plain ⟨true, false, true, true⟩ s = true
  · exact steady_inOrder.step hplain h ht
  cases a with
  | selectTransaction txn => cases ht; exact inOrder_selectTransaction txn h
  | submitAmount amount => cases ht; exact inOrder_submitAmount amount h
  | confirmTransaction => cases ht; exact inOrder_confirmTransaction h
  | executeCommand i injected =>
    obtain ⟨cont, htask⟩ := Atm.executeCommand_issued ht
    have hruns : cont.runs ⟨true, true, true, true⟩ = false := by
      simpa [AtmStep.plain, htask, Cont.runs] using hplain
    obtain ⟨phase, rfl | ⟨wid, amount, rfl⟩⟩ := Atm.executeCommand_withdrawal htask hruns ht
    · exact h.of_eq rfl rfl rfl rfl
    · have hrecorded : InOrder (s.record (.dispensed wid amount)) := by
        apply h.record
        · intro sid state heq
          cases heq
        · intro w heq
          cases heq
      exact hrecorded.of_eq rfl rfl rfl rfl
  | resume i reply =>
    obtain ⟨cont, phase, htask, -, hcont⟩ := resume_cases ht
    exact inOrder_resume h htask hok hcont
  | _ => exact absurd rfl hplain

theorem inOrder_init : InOrder Atm.init := by
  refine ⟨⟨nofun, fun _ _ => ⟨rfl, rfl⟩, ?_, ?_, fun _ => .inl rfl⟩, nofun⟩
  · intro sid hsid
    cases hsid
  · intro sid
    exact List.pairwise_singleton _ _

/-- In every run whose handlers move sessions on in turn, no session goes back in the declared order
and the host is asked for at most one withdrawal of each. -/
theorem linear_of_reaches {accountOf : String → String} {s : Atm}
    (h : Runs.Reaches (atmStep accountOf) (fun s a => inTurn s a) Atm.init s) : Linear s.log := by
  have horder : InOrder s := Runs.Reaches.invariant (P := InOrder) inOrder_step inOrder_init h
  intro sid
  refine ⟨horder.1.sorted sid, ?_⟩
  rcases horder.1.calls sid with hnone | ⟨hone, -⟩
  · rw [hnone]
    exact Nat.zero_le 1
  · exact hone.le

/-- A withdrawal is asked for. -/
def oneWithdrawal : List AtmStep :=
  toVerification "4580" 0 ++ [.resume 4 (.auth ⟨true, none, "00", none⟩),
    .selectTransaction .withdrawal, .submitAmount (.ofInt 100000), .confirmTransaction]

theorem linear_of_oneWithdrawal :
    ∃ s, Runs.exec (atmStep fun _ => "ACC") Atm.init oneWithdrawal = some s ∧
      (withdrawalCalls s.log 0).length = 1 ∧ Linear s.log := by
  have hrun : (Runs.exec (atmStep fun _ => "ACC") Atm.init oneWithdrawal).any (fun s =>
      (withdrawalCalls s.log 0).length = 1) = true := by decide +kernel
  obtain ⟨s, hs, hcall⟩ := (Option.any_eq_true ..).mp hrun
  have halong : Runs.Along (atmStep fun _ => "ACC") (fun s a => inTurn s a) Atm.init
      oneWithdrawal := by decide +kernel
  exact ⟨s, hs, of_decide_eq_true hcall, linear_of_reaches ⟨oneWithdrawal, halong, hs⟩⟩

/-- The PIN is entered twice; the second verification comes back after a withdrawal was confirmed,
and the customer chooses again. -/
def enteredTwice : List AtmStep :=
  toVerification "4580" 0 ++ [.beginPinEntry, .executeCommand 5 none,
    .pressKey "1", .pressKey "2", .pressKey "3", .pressKey "4", .pressKey "ENTER",
    .resume 5 .done, .resume 4 (.auth ⟨true, none, "00", none⟩),
    .selectTransaction .withdrawal, .submitAmount (.ofInt 100000), .confirmTransaction,
    .resume 6 (.auth ⟨true, none, "00", none⟩),
    .selectTransaction .withdrawal, .submitAmount (.ofInt 100000), .confirmTransaction]

theorem went_back :
    ∃ s, Runs.Reaches (atmStep fun _ => "ACC") Runs.free Atm.init s ∧
      passed s.log 0 = [.processing, .confirm, .amountEntry, .mainMenu, .pinVerified, .processing,
        .confirm, .amountEntry, .mainMenu, .pinVerified, .pinEntry, .cardInserted] ∧
      (withdrawalCalls s.log 0).length = 2 ∧ ¬ Linear s.log := by
  have hrun : (Runs.exec (atmStep fun _ => "ACC") Atm.init enteredTwice).any (fun s =>
      passed s.log 0 = [.processing, .confirm, .amountEntry, .mainMenu, .pinVerified, .processing,
        .confirm, .amountEntry, .mainMenu, .pinVerified, .pinEntry, .cardInserted] ∧
      (withdrawalCalls s.log 0).length = 2) = true := by decide +kernel
  obtain ⟨s, hs, hend⟩ := (Option.any_eq_true ..).mp hrun
  obtain ⟨hpassed, htwo⟩ := of_decide_eq_true hend
  refine ⟨s, .of_exec enteredTwice hs, hpassed, htwo, ?_⟩
  intro hlinear
  have hone := (hlinear 0).2
  omega

end AtmXfs
