import AtmXfs.Atm.Free
import AtmXfs.Lib.Runs

namespace AtmXfs

open Js Host Pin

/-- The reasons with which `atm.sessionEnded` was emitted for a session. -/
def endings (log : List Act) (sid : Nat) : List EndReason :=
  log.filterMap fun
    | .sessionEnded n reason => if n = sid then some reason else none
    | _ => none

/-- The reasons that were written to the row of a session, the last one first. -/
def rowReasons (log : List Act) (sid : Nat) : List EndReason :=
  log.filterMap fun
    | .rowEnded n reason => if n = sid then some reason else none
    | _ => none

/-- The end of each session is announced at most once, with the reason in its row. -/
def EndedOnce (log : List Act) : Prop :=
  ∀ sid, endings log sid = [] ∨
    ∃ reason, endings log sid = [reason] ∧ (rowReasons log sid).head? = some reason

/-- At most one handler ends a session, and none once its end was announced. -/
structure EndTracked (s : Atm) : Prop where
  fresh : s.Fresh
  known : ∀ sid, s.session = some sid → sid < s.nextSession
  tasked : ∀ i sid reason phase, s.tasks i = some ⟨.ended sid reason, phase⟩ → sid < s.nextSession
  logged : ∀ sid, s.nextSession ≤ sid → endings s.log sid = []
  single : ∀ i j sid reason reason' phase phase', s.tasks i = some ⟨.ended sid reason, phase⟩ →
    s.tasks j = some ⟨.ended sid reason', phase'⟩ → i = j
  wrote : ∀ i sid reason phase, s.tasks i = some ⟨.ended sid reason, phase⟩ →
    phase = .pending ∨ phase = .replied none ∧ (rowReasons s.log sid).head? = some reason
  current : ∀ sid, s.session = some sid → endings s.log sid = []
  ending : ∀ i sid reason phase, s.tasks i = some ⟨.ended sid reason, phase⟩ →
    endings s.log sid = []
  once : EndedOnce s.log

/-- What neither ends a session nor begins one. -/
theorem EndTracked.congr {s t : Atm} (h : EndTracked s) (hfresh : t.Fresh)
    (hsession : t.session = s.session) (hnext : t.nextSession = s.nextSession)
    (htasks : ∀ i sid reason phase, t.tasks i = some ⟨.ended sid reason, phase⟩ →
      s.tasks i = some ⟨.ended sid reason, phase⟩)
    (hendings : endings t.log = endings s.log) (hrows : rowReasons t.log = rowReasons s.log) :
    EndTracked t where
  fresh := hfresh
  known sid hsid := by
    rw [hnext]
    exact h.known sid (hsession ▸ hsid)
  tasked i sid reason phase htask := by
    rw [hnext]
    exact h.tasked i sid reason phase (htasks i sid reason phase htask)
  logged sid hsid := by
    rw [hendings]
    exact h.logged sid (hnext ▸ hsid)
  single i j sid reason reason' phase phase' hi hj :=
    h.single i j sid reason reason' phase phase' (htasks i sid reason phase hi)
      (htasks j sid reason' phase' hj)
  wrote i sid reason phase htask := by
    rw [hrows]
    exact h.wrote i sid reason phase (htasks i sid reason phase htask)
  current sid hsid := by
    rw [hendings]
    exact h.current sid (hsession ▸ hsid)
  ending i sid reason phase htask := by
    rw [hendings]
    exact h.ending i sid reason phase (htasks i sid reason phase htask)
  once sid := by
    rw [hendings, hrows]
    exact h.once sid

theorem EndTracked.of_eq {s t : Atm} (h : EndTracked s) (hsession : t.session = s.session)
    (hnext : t.nextSession = s.nextSession) (htasks : t.tasks = s.tasks)
    (hnextTask : t.nextTask = s.nextTask) (hlog : t.log = s.log) : EndTracked t := by
  refine h.congr ?_ hsession hnext ?_ (by rw [hlog]) (by rw [hlog])
  · intro i hi
    rw [htasks]
    exact h.fresh i (hnextTask ▸ hi)
  · intro i sid reason phase htask
    rw [← htasks]
    exact htask

theorem EndTracked.suspend {s : Atm} (h : EndTracked s) {cont : Cont} (phase : Phase)
    (hcont : ∀ sid reason, cont ≠ .ended sid reason) : EndTracked (s.suspend cont phase) := by
  refine h.congr (h.fresh.suspend cont phase) rfl rfl ?_ rfl rfl
  intro i sid reason other htask
  rcases Atm.tasks_suspend htask with ⟨-, hnew⟩ | ⟨-, hold⟩
  · exact absurd (congrArg Suspension.cont hnew).symm (hcont sid reason)
  · exact hold

theorem EndTracked.setTask {s : Atm} (h : EndTracked s) {i : Nat} {old : Suspension}
    {new : Option Suspension} (hold : s.tasks i = some old)
    (hnew : ∀ sid reason phase, new = some ⟨.ended sid reason, phase⟩ → False) :
    EndTracked (s.setTask i new) := by
  refine h.congr (h.fresh.setTask hold new) rfl rfl ?_ rfl rfl
  intro j sid reason phase htask
  rcases Atm.tasks_setTask htask with ⟨-, hsome⟩ | ⟨-, hkept⟩
  · exact (hnew sid reason phase hsome).elim
  · exact hkept

/-- Acts that say nothing about the end of a session. -/
theorem EndTracked.record {s : Atm} (h : EndTracked s) {act : Act}
    (hended : ∀ sid reason, act ≠ .sessionEnded sid reason)
    (hrow : ∀ sid reason, act ≠ .rowEnded sid reason) : EndTracked (s.record act) := by
  refine h.congr h.fresh rfl rfl (fun _ _ _ _ htask => htask) ?_ ?_
  · funext sid
    cases act with
    | sessionEnded n reason => exact absurd rfl (hended n reason)
    | _ => rfl
  · funext sid
    cases act with
    | rowEnded n reason => exact absurd rfl (hrow n reason)
    | _ => rfl

theorem endTracked_modify {s : Atm} (f : AtmSession → AtmSession) (h : EndTracked s) :
    EndTracked (s.modify f) := by
  unfold Atm.modify
  split
  · exact h
  · exact h.of_eq rfl rfl rfl rfl rfl

theorem endTracked_transitionTo {s : Atm} (next : AtmState) (h : EndTracked s) :
    EndTracked (s.transitionTo next) := by
  unfold Atm.transitionTo
  split
  · exact h
  · next sid _ =>
    have hrecorded : EndTracked ((s.modify fun session => { session with state := next }).record
        (.stateChanged sid next)) := (endTracked_modify _ h).record nofun nofun
    exact hrecorded.of_eq rfl rfl rfl rfl rfl

theorem endTracked_onCardInserted {s : Atm} (pan : String) (h : EndTracked s) :
    EndTracked (s.onCardInserted pan) := by
  unfold Atm.onCardInserted
  split
  · exact h
  · refine EndTracked.suspend ?_ _ nofun
    refine ⟨h.fresh, ?_, ?_, ?_, h.single, h.wrote, ?_, h.ending, h.once⟩
    · intro sid hsid
      cases hsid
      exact Nat.lt_succ_self _
    · intro i sid reason phase htask
      exact Nat.lt_succ_of_lt (h.tasked i sid reason phase htask)
    · intro sid hsid
      exact h.logged sid (Nat.le_of_succ_le hsid)
    · intro sid hsid
      cases hsid
      exact h.logged _ le_rfl

theorem free_endTracked : Atm.Free ⟨true, true, false, true⟩ EndTracked where
  onCardInserted _ pan _ h := endTracked_onCardInserted pan h
  modify _ f _ h := endTracked_modify f h
  setAccount _ _ _ h := h.of_eq rfl rfl rfl rfl rfl
  toError _ h := endTracked_transitionTo .error h
  transitionTo _ next _ _ h := endTracked_transitionTo next h
  notifyState s h := by
    unfold Atm.notifyState
    split
    · exact h
    · exact h.of_eq rfl rfl rfl rfl rfl
  suspend s cont phase hquiet h := by
    apply h.suspend phase
    rintro sid reason rfl
    cases hquiet
  askPin _ _ _ _ h := h.suspend _ nofun
  drop _ _ _ _ htask _ h := h.setTask htask nofun
  advance s i cont phase phase' htask hruns h := by
    apply h.setTask htask
    rintro sid reason other heq
    cases heq
    cases hruns
  clearIdleTimer _ h := h.of_eq rfl rfl rfl rfl rfl
  endSession _ _ hends _ := nomatch hends
  rowEnded _ _ _ hends _ := nomatch hends
  afterEnded _ _ _ hends _ := nomatch hends
  reader _ _ _ h := h.of_eq rfl rfl rfl rfl rfl
  pad _ _ h := h.of_eq rfl rfl rfl rfl rfl
  anyMoves := rfl
  anyState _ next h := endTracked_transitionTo next h
  serve s cont phase hserves h := by
    apply h.suspend phase
    rintro sid reason rfl
    cases hserves
  served s i cont phase new htask hserves hnew h := by
    apply h.setTask htask
    rintro sid reason other rfl
    have hcont : Cont.ended sid reason = cont := hnew _ rfl
    rw [← hcont] at hserves
    cases hserves
  record s act hserves h := by
    apply h.record
    · rintro sid reason rfl
      cases hserves
    · rintro sid reason rfl
      cases hserves
  count _ _ h := h.of_eq rfl rfl rfl rfl rfl

/-- No handler is about to end the current session. -/
def Atm.unended (s : Atm) : Bool :=
  s.session.all fun sid => (List.range s.nextTask).all fun j =>
    (s.tasks j).all fun task =>
      match task.cont with
      | .ended n _ => n ≠ sid
      | _ => true

/-- A handler begins to end a session only when no other handler is about to end it. -/
def endsAlone (s : Atm) : AtmStep → Bool
  | .resume i .done =>
    match s.tasks i with
    | some ⟨.ejected _, _⟩ => s.unended
    | some ⟨.retainMarked _, _⟩ => s.unended
    | _ => true
  | _ => true

theorem ne_ended_of_unended {s : Atm} (hfresh : s.Fresh) (h : s.unended = true) {sid : Nat}
    (hsid : s.session = some sid) {i : Nat} {reason : EndReason} {phase : Phase} :
    s.tasks i ≠ some ⟨.ended sid reason, phase⟩ := by
  intro htask
  simp only [Atm.unended, hsid, Option.all_some, List.all_eq_true, List.mem_range] at h
  have hi := h i (hfresh.lt htask)
  simp [htask] at hi

theorem endTracked_endSession {s : Atm} (reason : EndReason) (h : EndTracked s)
    (halone : ∀ sid, s.session = some sid → ∀ i other phase,
      s.tasks i ≠ some ⟨.ended sid other, phase⟩) : EndTracked (s.endSession reason) := by
  unfold Atm.endSession
  split
  · exact h
  · next sid hsid =>
    have hcleared : EndTracked s.clearIdleTimer := h.of_eq rfl rfl rfl rfl rfl
    have hnoted := endTracked_modify (fun x => { x with endReason := some reason }) hcleared
    have hcurrent : (s.clearIdleTimer.modify fun x => { x with endReason := some reason }).session =
        some sid := (Atm.modify_session ..).trans hsid
    have htasks : (s.clearIdleTimer.modify fun x => { x with endReason := some reason }).tasks =
        s.tasks := Atm.modify_tasks ..
    generalize (s.clearIdleTimer.modify fun x => { x with endReason := some reason }) = u at *
    have hat : ∀ j n other phase, (u.suspend (.ended sid reason) .pending).tasks j =
        some ⟨.ended n other, phase⟩ → (j = u.nextTask ∧ n = sid ∧ other = reason ∧
          phase = .pending) ∨ (j ≠ u.nextTask ∧ u.tasks j = some ⟨.ended n other, phase⟩) := by
      intro j n other phase hj
      rcases Atm.tasks_suspend hj with ⟨hlast, hnew⟩ | hold
      · cases hnew
        exact .inl ⟨hlast, rfl, rfl, rfl⟩
      · exact .inr hold
    have hfree : ∀ j other phase, u.tasks j ≠ some ⟨.ended sid other, phase⟩ := by
      intro j other phase
      rw [htasks]
      exact halone sid hsid j other phase
    refine ⟨hnoted.fresh.suspend _ _, hnoted.known, ?_, hnoted.logged, ?_, ?_, hnoted.current, ?_,
      hnoted.once⟩
    · intro j n other phase hj
      rcases hat j n other phase hj with ⟨-, rfl, -, -⟩ | ⟨-, hold⟩
      · exact hnoted.known n hcurrent
      · exact hnoted.tasked j n other phase hold
    · intro j k n other other' phase phase' hj hk
      rcases hat j n other phase hj with ⟨rfl, rfl, -, -⟩ | ⟨-, hold⟩
      · rcases hat k n other' phase' hk with ⟨rfl, -, -, -⟩ | ⟨-, hold'⟩
        · rfl
        · exact absurd hold' (hfree k other' phase')
      · rcases hat k n other' phase' hk with ⟨-, rfl, -, -⟩ | ⟨-, hold'⟩
        · exact absurd hold (hfree j other phase)
        · exact hnoted.single j k n other other' phase phase' hold hold'
    · intro j n other phase hj
      rcases hat j n other phase hj with ⟨-, -, -, rfl⟩ | ⟨-, hold⟩
      · exact .inl rfl
      · exact hnoted.wrote j n other phase hold
    · intro j n other phase hj
      rcases hat j n other phase hj with ⟨-, rfl, -, -⟩ | ⟨-, hold⟩
      · exact hnoted.current n hcurrent
      · exact hnoted.ending j n other phase hold

/-- The database writes the reason with which a session ends. -/
theorem endTracked_writeRow {s t : Atm} {i : Nat} (h : EndTracked s)
    (ht : s.writeRow i = some t) : EndTracked t := by
  obtain ⟨sid, reason, htask, rfl⟩ := Atm.writeRow_ended ht
  have hopen : endings s.log sid = [] := h.ending i sid reason _ htask
  have hrows : ∀ n, n ≠ sid →
      rowReasons (.rowEnded sid reason :: s.log) n = rowReasons s.log n := by
    intro n hn
    simp [rowReasons, hn.symm]
  have hat : ∀ j n other phase, ((s.record (.rowEnded sid reason)).setTask i
      (some ⟨.ended sid reason, .replied none⟩)).tasks j = some ⟨.ended n other, phase⟩ →
      (j = i ∧ n = sid ∧ other = reason ∧ phase = .replied none) ∨
        (n ≠ sid ∧ s.tasks j = some ⟨.ended n other, phase⟩) := by
    intro j n other phase hj
    rcases Atm.tasks_setTask hj with ⟨hhere, hnew⟩ | ⟨hother, hold⟩
    · cases hnew
      exact .inl ⟨hhere, rfl, rfl, rfl⟩
    · refine .inr ⟨fun hn => ?_, hold⟩
      subst hn
      exact hother (h.single j i n other reason phase _ hold htask)
  have hkept : ∀ j n other phase, ((s.record (.rowEnded sid reason)).setTask i
      (some ⟨.ended sid reason, .replied none⟩)).tasks j = some ⟨.ended n other, phase⟩ →
      ∃ k old, s.tasks k = some ⟨.ended n other, old⟩ ∧ j = k := by
    intro j n other phase hj
    rcases hat j n other phase hj with ⟨rfl, rfl, rfl, -⟩ | ⟨-, hold⟩
    · exact ⟨j, _, htask, rfl⟩
    · exact ⟨j, phase, hold, rfl⟩
  refine ⟨Atm.Fresh.setTask h.fresh htask _, h.known, ?_, h.logged, ?_, ?_, h.current, ?_, ?_⟩
  · intro j n other phase hj
    obtain ⟨k, old, hk, -⟩ := hkept j n other phase hj
    exact h.tasked k n other old hk
  · intro j k n other other' phase phase' hj hk
    obtain ⟨j', old, hold, rfl⟩ := hkept j n other phase hj
    obtain ⟨k', old', hold', rfl⟩ := hkept k n other' phase' hk
    exact h.single _ _ n other other' old old' hold hold'
  · intro j n other phase hj
    rcases hat j n other phase hj with ⟨-, rfl, rfl, rfl⟩ | ⟨hn, hold⟩
    · exact .inr ⟨rfl, by simp [Atm.setTask, Atm.record, rowReasons]⟩
    · rcases h.wrote j n other phase hold with hpending | ⟨hreplied, hrow⟩
      · exact .inl hpending
      · exact .inr ⟨hreplied, (congrArg List.head? (hrows n hn)).trans hrow⟩
  · intro j n other phase hj
    obtain ⟨k, old, hk, -⟩ := hkept j n other phase hj
    exact h.ending k n other old hk
  · intro n
    by_cases hn : n = sid
    · exact .inl (hn ▸ hopen)
    · rcases h.once n with hnone | ⟨r, hr, hrow⟩
      · exact .inl hnone
      · exact .inr ⟨r, hr, (congrArg List.head? (hrows n hn)).trans hrow⟩

/-- The end of a session is announced with the reason that was written. -/
theorem endTracked_afterEnded {s : Atm} {i sid : Nat} {reason : EndReason} {phase : Phase}
    (h : EndTracked s) (htask : s.tasks i = some ⟨.ended sid reason, phase⟩)
    (hrow : (rowReasons s.log sid).head? = some reason) :
    EndTracked ((s.setTask i none).afterEnded sid reason) := by
  have hopen : endings s.log sid = [] := h.ending i sid reason phase htask
  have hgone : EndTracked (s.setTask i none) := h.setTask htask nofun
  have hfree : ∀ j other old, (s.setTask i none).tasks j ≠ some ⟨.ended sid other, old⟩ := by
    intro j other old hj
    rcases Atm.tasks_setTask hj with ⟨-, hnone⟩ | ⟨hother, hold⟩
    · cases hnone
    · exact hother (h.single j i sid other reason old phase hold htask)
  have hended := endTracked_transitionTo .ended hgone
  have hlog : endings ((s.setTask i none).transitionTo .ended).log = endings s.log ∧
      rowReasons ((s.setTask i none).transitionTo .ended).log = rowReasons s.log := by
    unfold Atm.transitionTo
    split
    · exact ⟨rfl, rfl⟩
    · simp only [Atm.armIdleTimer, Atm.record_log, Atm.modify_log, Atm.setTask_log]
      exact ⟨rfl, rfl⟩
  obtain ⟨hendings, hrows⟩ := hlog
  have htasks := (s.setTask i none).transitionTo_tasks .ended
  have hnext := (s.setTask i none).transitionTo_nextSession .ended
  rw [Atm.setTask_nextSession] at hnext
  have hlt : sid < s.nextSession := h.tasked i sid reason phase htask
  unfold Atm.afterEnded
  generalize (s.setTask i none).transitionTo .ended = u at *
  have hnew : endings (.sessionEnded sid reason :: u.log) sid = [reason] := by
    rw [← hopen, ← hendings]
    simp [endings]
  have hother : ∀ n, n ≠ sid → endings (.sessionEnded sid reason :: u.log) n = endings u.log n := by
    intro n hn
    simp [endings, hn.symm]
  have hne : ∀ j n other old, u.tasks j = some ⟨.ended n other, old⟩ → n ≠ sid := by
    rintro j n other old hj rfl
    exact hfree j other old (htasks ▸ hj)
  refine ⟨hended.fresh, ?_, hended.tasked, ?_, hended.single, hended.wrote, ?_, ?_, ?_⟩
  · intro n hn
    cases hn
  · intro n hn
    have hle : u.nextSession ≤ n := hn
    exact (hother n (by omega)).trans (hended.logged n hle)
  · intro n hn
    cases hn
  · intro j n other old hj
    exact (hother n (hne j n other old hj)).trans (hended.ending j n other old hj)
  · intro n
    by_cases hn : n = sid
    · subst hn
      exact .inr ⟨reason, hnew, (congrArg List.head? (congrFun hrows n)).trans hrow⟩
    · rcases hended.once n with hnone | ⟨r, hr, hlast⟩
      · exact .inl ((hother n hn).trans hnone)
      · exact .inr ⟨r, (hother n hn).trans hr, hlast⟩

theorem endTracked_resume {s t : Atm} {i : Nat} {cont : Cont} {phase : Phase} {reply : Reply}
    (h : EndTracked s) (htask : s.tasks i = some ⟨cont, phase⟩)
    (hok : endsAlone s (.resume i reply) = true)
    (ht : (s.setTask i none).continueWith cont phase reply = some t) : EndTracked t := by
  have hgone : EndTracked (s.setTask i none) := h.setTask htask nofun
  have halone : s.unended = true → ∀ sid, s.session = some sid → ∀ j other old,
      (s.setTask i none).tasks j ≠ some ⟨.ended sid other, old⟩ := by
    intro hunended sid hsid j other old hj
    rcases Atm.tasks_setTask hj with ⟨-, hnone⟩ | ⟨-, hold⟩
    · cases hnone
    · exact ne_ended_of_unended h.fresh hunended hsid hold
  cases hfree : (cont.serves || cont.plain ⟨true, true, false, true⟩) with
  | true => exact free_endTracked.continueWith hfree hgone ht
  | false =>
    unfold Atm.continueWith at ht
    split at ht <;> cases ht <;> try cases hfree
    · exact free_endTracked.toSteady.afterRetain _ hgone
    · next reason =>
      have hunended : s.unended = true := by simpa [endsAlone, htask] using hok
      unfold Atm.afterRetainMarked
      split
      · exact hgone
      · have hnoted := endTracked_modify (fun x => { x with errorMessage := some reason }) hgone
        apply endTracked_endSession _ (endTracked_transitionTo .error hnoted)
        intro sid hsid j other old
        rw [Atm.transitionTo_session, Atm.modify_session] at hsid
        rw [Atm.transitionTo_tasks, Atm.modify_tasks]
        exact halone hunended sid hsid j other old
    · have hunended : s.unended = true := by simpa [endsAlone, htask] using hok
      exact endTracked_endSession _ hgone (halone hunended)
    · have hunended : s.unended = true := by simpa [endsAlone, htask] using hok
      exact endTracked_endSession _ hgone (halone hunended)
    · next sid reason error =>
      rcases h.wrote i sid reason _ htask with hpending | ⟨-, hrow⟩
      · cases hpending
      · exact endTracked_afterEnded h htask hrow
    · exact hgone
    · exact hgone

theorem endTracked_step {accountOf : String → String} (s : Atm) (a : AtmStep) (t : Atm)
    (h : EndTracked s) (hok : endsAlone s a = true) (ht : atmStep accountOf s a = some t) :
    EndTracked t := by
  by_cases hfree : a.free ⟨true, true, false, true⟩ s = true
  · exact free_endTracked.step hfree h ht
  cases a with
  | writeRow i => exact endTracked_writeRow h ht
  | executeCommand i injected =>
    obtain ⟨cont, htask⟩ := Atm.executeCommand_issued ht
    cases cont with
    | ended sid reason =>
      -- the row is not written by a device
      rcases h.wrote i sid reason .issued htask with hphase | ⟨hphase, -⟩
      · cases hphase
      · cases hphase
    | _ => exact absurd (by simp [AtmStep.free, htask, Cont.serves, Cont.runs]) hfree
  | resume i reply =>
    obtain ⟨cont, phase, htask, -, hcont⟩ := resume_cases ht
    exact endTracked_resume h htask hok hcont
  | _ => exact absurd rfl hfree

theorem endTracked_init : EndTracked Atm.init where
  fresh _ _ := rfl
  known _ h := nomatch h
  tasked _ _ _ _ h := nomatch h
  logged _ _ := rfl
  single _ _ _ _ _ _ _ h := nomatch h
  wrote _ _ _ _ h := nomatch h
  current _ h := nomatch h
  ending _ _ _ _ h := nomatch h
  once _ := .inl rfl

/-- In every run in which no end of a session begins while another end of it is under way, the end
of each session is announced at most once, with the reason last written to its row. -/
theorem endedOnce_of_reaches {accountOf : String → String} {s : Atm}
    (h : Runs.Reaches (atmStep accountOf) (fun s a => endsAlone s a) Atm.init s) :
    EndedOnce s.log := by
  have htracked : EndTracked s :=
    Runs.Reaches.invariant (P := EndTracked) endTracked_step endTracked_init h
  exact htracked.once

/-- A card is inserted and the customer cancels. -/
def cancelledSession : List AtmStep :=
  [.onCardInserted "4580", .resume 0 .done, .executeCommand 1 none, .resume 1 .done,
   .resume 2 (.auth ⟨true, some "ACC", "00", none⟩), .cancelTransaction, .executeCommand 3 none,
   .resume 3 .done, .writeRow 4, .resume 4 .done]

theorem endedOnce_of_cancelledSession :
    ∃ s, Runs.exec (atmStep fun _ => "ACC") Atm.init cancelledSession = some s ∧
      endings s.log 0 = [.cancelled] ∧ EndedOnce s.log := by
  have hrun : (Runs.exec (atmStep fun _ => "ACC") Atm.init cancelledSession).any (fun s =>
      endings s.log 0 = [.cancelled]) = true := by decide +kernel
  obtain ⟨s, hs, hend⟩ := (Option.any_eq_true ..).mp hrun
  have halong : Runs.Along (atmStep fun _ => "ACC") (fun s a => endsAlone s a) Atm.init
      cancelledSession := by decide +kernel
  exact ⟨s, hs, of_decide_eq_true hend, endedOnce_of_reaches ⟨cancelledSession, halong, hs⟩⟩

/-- The customer cancels, and the idle timer fires while the card is ejected. -/
def cancelledTwice : List AtmStep :=
  [.onCardInserted "4580", .resume 0 .done, .executeCommand 1 none, .resume 1 .done,
   .resume 2 (.auth ⟨true, some "ACC", "00", none⟩), .cancelTransaction, .idleTimeout,
   .executeCommand 3 none, .executeCommand 4 none, .resume 3 .done, .resume 4 .done, .writeRow 5,
   .writeRow 6, .resume 5 .done, .resume 6 .done]

theorem ended_twice :
    ∃ s, Runs.Reaches (atmStep fun _ => "ACC") Runs.free Atm.init s ∧
      endings s.log 0 = [.timeout, .cancelled] ∧ ¬ EndedOnce s.log := by
  have hrun : (Runs.exec (atmStep fun _ => "ACC") Atm.init cancelledTwice).any (fun s =>
      endings s.log 0 = [.timeout, .cancelled]) = true := by decide +kernel
  obtain ⟨s, hs, hend⟩ := (Option.any_eq_true ..).mp hrun
  have htwice : endings s.log 0 = [.timeout, .cancelled] := of_decide_eq_true hend
  refine ⟨s, .of_exec cancelledTwice hs, htwice, ?_⟩
  intro honce
  rcases honce 0 with hnone | ⟨reason, hone, -⟩
  · rw [htwice] at hnone
    cases hnone
  · rw [htwice] at hone
    cases hone

end AtmXfs
