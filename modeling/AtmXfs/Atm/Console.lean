import AtmXfs.Atm.Free
import AtmXfs.Lib.Runs

namespace AtmXfs

open Js Host Pin

/-- What a page shows of the session: its number and its state. -/
abbrev Shown := Option (Nat × AtmState)

/-- A frame that the gateway passes on, with what the page takes from it. -/
inductive AtmFrame where
  | stateChanged (sid : Nat) (state : AtmState)
  | sessionEnded

/-- The handlers of `useAtmSocket` for the session. -/
def useAtmSocket (_ : Shown) : AtmFrame → Shown
  | .stateChanged sid state => some (sid, state)
  | .sessionEnded => none

def Act.frame? : Act → Option AtmFrame
  | .stateChanged sid next => some (.stateChanged sid next)
  | .sessionEnded _ _ => some .sessionEnded
  | _ => none

namespace Atm

def view (s : Atm) : Shown := s.session.map fun sid => (sid, (s.sessions sid).state)

/-- The frame of `notifyState`, with which `onCardInserted` goes on; the log leaves it out. -/
def notice (s : Atm) : AtmStep → List AtmFrame
  | .resume i .done =>
    match s.tasks i with
    | some ⟨.inserted _ _, .pending⟩ => (s.view.map fun v => .stateChanged v.1 v.2).toList
    | _ => []
  | _ => []

/-- What a step emits: the notice, and what it adds to the log. -/
def frames (s : Atm) (a : AtmStep) (t : Atm) : List AtmFrame :=
  s.notice a ++ (t.log.take (t.log.length - s.log.length)).reverse.filterMap Act.frame?

/-- A new session is being stored. -/
def Storing (s : Atm) : Prop :=
  ∃ i sid pan phase, s.session = some sid ∧ s.tasks i = some ⟨.inserted sid pan, phase⟩

end Atm

/-- The service and a page that is connected to it. -/
def watch (accountOf : String → String) (s : Atm × Shown) (a : AtmStep) : Option (Atm × Shown) :=
  (atmStep accountOf s.1 a).map fun t => (t, (s.1.frames a t).foldl useAtmSocket s.2)

/-- The step does not fail to store a session. -/
def stored (s : Atm × Shown) : AtmStep → Bool
  | .resume i .throws =>
    (s.1.tasks i).all fun task =>
      match task.cont with
      | .inserted _ _ => false
      | _ => true
  | _ => true

/-- What may keep a page from showing the session that there is. -/
structure Excuse (E : Atm → Prop) : Prop where
  keeps : ∀ s t : Atm, t.session = s.session →
    (∀ i sid pan phase, s.tasks i = some ⟨.inserted sid pan, phase⟩ →
      ∃ phase', t.tasks i = some ⟨.inserted sid pan, phase'⟩) → E s → E t
  begins : ∀ (s : Atm) pan, s.session = none → E (s.onCardInserted pan)

theorem excuse_always : Excuse fun _ => True := ⟨fun _ _ _ _ _ => trivial, fun _ _ _ => trivial⟩

theorem excuse_storing : Excuse Atm.Storing where
  keeps := by
    rintro s t hsession htasks ⟨i, sid, pan, phase, hsid, htask⟩
    obtain ⟨phase', hkept⟩ := htasks i sid pan phase htask
    exact ⟨i, sid, pan, phase', hsession.trans hsid, hkept⟩
  begins s pan hnone := by
    refine ⟨s.nextTask, s.nextSession, pan, .pending, ?_, ?_⟩
    · simp [Atm.onCardInserted, hnone]
    · simp [Atm.onCardInserted, hnone, Atm.suspend]

/-- What a page shows that showed `v` before the entries of the log, newest first. -/
def heard (v : Shown) (acts : List Act) : Shown :=
  (acts.reverse.filterMap Act.frame?).foldl useAtmSocket v

theorem heard_cons (v : Shown) (act : Act) (acts : List Act) :
    heard v (act :: acts) =
      match act.frame? with
      | none => heard v acts
      | some frame => useAtmSocket (heard v acts) frame := by
  rw [heard, List.reverse_cons, List.filterMap_append, List.foldl_append]
  cases hframe : act.frame? <;> simp [hframe, heard]

/-- Since the log was `base` and the page showed `v` it has heard of everything, or it shows
nothing and has an excuse. -/
def Told (E : Atm → Prop) (base : List Act) (v : Shown) (s : Atm) : Prop :=
  s.Fresh ∧ ∃ acts, s.log = acts ++ base ∧
    (heard v acts = s.view ∨ heard v acts = none ∧ E s)

variable {E : Atm → Prop} {base : List Act} {v : Shown} {s t : Atm}

/-- Nothing happens that a page shows. -/
theorem Told.keeps (hE : Excuse E) (h : Told E base v s) (hfresh : t.Fresh)
    (hlog : t.log = s.log ∨ ∃ act : Act, act.frame? = none ∧ t.log = act :: s.log)
    (hview : t.view = s.view) (hsession : t.session = s.session)
    (htasks : ∀ i sid pan phase, s.tasks i = some ⟨.inserted sid pan, phase⟩ →
      ∃ phase', t.tasks i = some ⟨.inserted sid pan, phase'⟩) : Told E base v t := by
  obtain ⟨-, acts, hacts, hheard⟩ := h
  have hexcuse := hE.keeps s t hsession htasks
  refine ⟨hfresh, ?_⟩
  rcases hlog with hlog | ⟨act, hframe, hlog⟩
  · refine ⟨acts, hlog.trans hacts, ?_⟩
    rw [hview]
    exact hheard.imp_right fun h => ⟨h.1, hexcuse h.2⟩
  · refine ⟨act :: acts, by rw [hlog, hacts, List.cons_append], ?_⟩
    rw [hview, heard_cons, hframe]
    exact hheard.imp_right fun h => ⟨h.1, hexcuse h.2⟩

theorem Told.of_eq (hE : Excuse E) (h : Told E base v s) (hlog : t.log = s.log)
    (hsessions : t.sessions = s.sessions) (hsession : t.session = s.session)
    (htasks : t.tasks = s.tasks) (hnext : t.nextTask = s.nextTask) : Told E base v t := by
  refine h.keeps hE (h.1.of_eq htasks hnext) (.inl hlog) ?_ hsession ?_
  · rw [Atm.view, hsessions, hsession, Atm.view]
  · intro i sid pan phase htask
    exact ⟨phase, htasks ▸ htask⟩

theorem Told.modify (hE : Excuse E) (h : Told E base v s) {f : AtmSession → AtmSession}
    (hf : ∀ x : AtmSession, (f x).state = x.state) : Told E base v (s.modify f) := by
  refine h.keeps hE (h.1.of_eq (by simp) (by simp)) (.inl (by simp)) ?_ (by simp) ?_
  · rw [Atm.view, Atm.modify_session, Atm.view]
    cases hsid : s.session with
    | none => rfl
    | some sid => simp [Atm.modify, hsid, hf]
  · intro i sid pan phase htask
    exact ⟨phase, by rw [Atm.modify_tasks]; exact htask⟩

theorem Told.suspend (hE : Excuse E) (h : Told E base v s) (cont : Cont) (phase : Phase) :
    Told E base v (s.suspend cont phase) := by
  refine h.keeps hE (h.1.suspend cont phase) (.inl rfl) rfl rfl ?_
  intro i sid pan old htask
  have hne : i ≠ s.nextTask := by
    rintro rfl
    exact absurd (h.1.lt htask) (Nat.lt_irrefl _)
  exact ⟨old, (Function.update_of_ne hne ..).trans htask⟩

theorem Told.setTask (hE : Excuse E) (h : Told E base v s) {i : Nat} {old : Suspension}
    (hold : s.tasks i = some old) {new : Option Suspension}
    (hnew : ∀ sid pan, old.cont = .inserted sid pan →
      ∃ phase, new = some ⟨.inserted sid pan, phase⟩) : Told E base v (s.setTask i new) := by
  refine h.keeps hE (h.1.setTask hold new) (.inl rfl) rfl rfl ?_
  intro j sid pan phase htask
  by_cases hj : j = i
  · subst hj
    cases hold.symm.trans htask
    obtain ⟨phase', rfl⟩ := hnew sid pan rfl
    exact ⟨phase', Function.update_self ..⟩
  · exact ⟨phase, (Function.update_of_ne hj ..).trans htask⟩

theorem Told.record (hE : Excuse E) (h : Told E base v s) {act : Act} (hact : act.frame? = none) :
    Told E base v (s.record act) :=
  h.keeps hE h.1 (.inr ⟨act, hact, rfl⟩) rfl rfl fun _ _ _ phase htask => ⟨phase, htask⟩

/-- A state that the session moves on to is shown. -/
theorem Told.transitionTo (h : Told E base v s) (next : AtmState) :
    Told E base v (s.transitionTo next) := by
  cases hsid : s.session with
  | none =>
    have hsame : s.transitionTo next = s := by simp [Atm.transitionTo, hsid]
    rwa [hsame]
  | some sid =>
    obtain ⟨hfresh, acts, hacts, -⟩ := h
    have hlog : (s.transitionTo next).log = .stateChanged sid next :: s.log := by
      simp [Atm.transitionTo, hsid, Atm.armIdleTimer]
    have hview : (s.transitionTo next).view = some (sid, next) := by
      simp [Atm.view, Atm.transitionTo, hsid, Atm.armIdleTimer, Atm.modify, Atm.record]
    refine ⟨hfresh.of_eq (by simp) (by simp), .stateChanged sid next :: acts, ?_, .inl ?_⟩
    · rw [hlog, hacts, List.cons_append]
    · rw [hview, heard_cons]
      rfl

theorem Told.afterEnded (h : Told E base v s) (sid : Nat) (reason : EndReason) :
    Told E base v (s.afterEnded sid reason) := by
  obtain ⟨hfresh, acts, hacts, -⟩ := h.transitionTo .ended
  refine ⟨hfresh, .sessionEnded sid reason :: acts, ?_, .inl ?_⟩
  · rw [Atm.afterEnded, Atm.record_log, List.cons_append, ← hacts]
  · rw [heard_cons]
    rfl

theorem Told.endSession (hE : Excuse E) (h : Told E base v s) (reason : EndReason) :
    Told E base v (s.endSession reason) := by
  unfold Atm.endSession
  split
  · exact h
  · have hcleared : Told E base v s.clearIdleTimer := h.of_eq hE rfl rfl rfl rfl rfl
    have hnoted : Told E base v (s.clearIdleTimer.modify fun session =>
        { session with endReason := some reason }) := hcleared.modify hE fun _ => rfl
    exact hnoted.suspend hE _ _

theorem Told.onCardInserted (hE : Excuse E) (h : Told E base v s) (pan : String) :
    Told E base v (s.onCardInserted pan) := by
  cases hsid : s.session with
  | some sid =>
    have hsame : s.onCardInserted pan = s := by simp [Atm.onCardInserted, hsid]
    rwa [hsame]
  | none =>
    have hexcuse := hE.begins s pan hsid
    obtain ⟨hfresh, acts, hacts, hheard⟩ := h
    have hnone : heard v acts = none := by
      rcases hheard with hview | ⟨hnone, -⟩
      · rw [hview, Atm.view, hsid, Option.map_none]
      · exact hnone
    refine ⟨?_, acts, ?_, .inr ⟨hnone, hexcuse⟩⟩
    · simp only [Atm.onCardInserted, hsid]
      exact Atm.Fresh.suspend (s := { s with
        sessions := Function.update s.sessions s.nextSession (.fresh pan)
        nextSession := s.nextSession + 1
        session := some s.nextSession }) hfresh _ _
    · rw [← hacts]
      simp [Atm.onCardInserted, hsid]

theorem free_told (hE : Excuse E) : Atm.Free ⟨true, true, true, false⟩ (Told E base v) where
  onCardInserted _ pan _ h := h.onCardInserted hE pan
  modify _ _ hf h := h.modify hE fun x => (hf x).1
  setAccount s sid accountId h := by
    refine h.keeps hE h.1 (.inl rfl) ?_ rfl fun _ _ _ phase htask => ⟨phase, htask⟩
    rw [Atm.view, Atm.view]
    cases hcurrent : s.session with
    | none => simp [Atm.setAccount, hcurrent]
    | some n =>
      by_cases hn : n = sid
      · simp [Atm.setAccount, hcurrent, hn]
      · simp [Atm.setAccount, hcurrent, Function.update_of_ne hn]
  toError _ h := h.transitionTo .error
  transitionTo _ next _ _ h := h.transitionTo next
  notifyState s h := by
    unfold Atm.notifyState
    split
    · exact h
    · exact h.of_eq hE rfl rfl rfl rfl rfl
  suspend _ cont phase _ h := h.suspend hE cont phase
  askPin _ _ _ _ h := h.suspend hE _ _
  drop s i cont phase htask hplain h := by
    apply h.setTask hE htask
    rintro sid pan rfl
    cases hplain
  advance s i cont phase phase' htask _ h := by
    apply h.setTask hE htask
    rintro sid pan rfl
    exact ⟨phase', rfl⟩
  clearIdleTimer _ h := h.of_eq hE rfl rfl rfl rfl rfl
  endSession _ reason _ h := h.endSession hE reason
  rowEnded _ _ _ _ h := h.record hE rfl
  afterEnded _ sid reason _ h := h.afterEnded sid reason
  reader _ _ hcards _ := nomatch hcards
  pad _ _ h := h.of_eq hE rfl rfl rfl rfl rfl
  anyMoves := rfl
  anyState _ next h := h.transitionTo next
  serve _ cont phase _ h := h.suspend hE cont phase
  served s i cont phase new htask hserves hnew h := by
    apply h.setTask hE htask
    rintro sid pan rfl
    cases hserves
  record s act hserves h := by
    apply h.record hE
    cases act with
    | stateChanged sid next => cases hserves
    | sessionEnded sid reason => cases hserves
    | _ => rfl
  count _ _ h := h.of_eq hE rfl rfl rfl rfl rfl

theorem told_of_shown (hfresh : s.Fresh) (hv : v = s.view ∨ v = none ∧ E s) :
    Told E s.log v s :=
  ⟨hfresh, [], rfl, hv⟩

/-- The page hears what was added to the log. -/
theorem shown_of_told (h : Told E base v t) :
    t.Fresh ∧ ((t.log.take (t.log.length - base.length)).reverse.filterMap Act.frame?).foldl
      useAtmSocket v = t.view ∨
    t.Fresh ∧ ((t.log.take (t.log.length - base.length)).reverse.filterMap Act.frame?).foldl
      useAtmSocket v = none ∧ E t := by
  obtain ⟨hfresh, acts, hacts, hheard⟩ := h
  have hnew : t.log.take (t.log.length - base.length) = acts := by
    rw [hacts, List.length_append, Nat.add_sub_cancel, List.take_left]
  rw [hnew]
  rcases hheard with hview | hexcuse
  · exact .inl ⟨hfresh, hview⟩
  · exact .inr ⟨hfresh, hexcuse⟩

/-- A device that takes the card shows the page nothing. -/
theorem told_executeCommand (hE : Excuse E) {i : Nat} {injected : Option String}
    (h : Told E base v s) (ht : s.executeCommand i injected = some t) : Told E base v t := by
  obtain ⟨cont, hi, ⟨rfl, rfl⟩ | ⟨-, u, error, rfl, hu⟩⟩ := Atm.executeCommand_cases ht
  · apply (free_told hE).toSteady.usePad
    exact h.setTask hE hi nofun
  · have hmove : ∀ u : Atm, Told E base v u → u.tasks i = some ⟨cont, .issued⟩ →
        Told E base v (u.setTask i (some ⟨cont, .replied error⟩)) := by
      intro u hu htask
      apply hu.setTask hE htask
      rintro sid pan rfl
      exact ⟨_, rfl⟩
    rcases hu with ⟨rfl, -⟩ | ⟨a, amount, -, rfl⟩ | ⟨-, rfl⟩
    · exact hmove _ h hi
    · exact hmove _ (h.record hE rfl) hi
    · exact hmove _ (h.of_eq hE rfl rfl rfl rfl rfl) hi

/-- After the notice the page shows the session, and from then on it is told. -/
theorem told_afterInserted (hE : Excuse E) {i sid n : Nat} {pan : String}
    (hfresh : s.Fresh) (htask : s.tasks i = some ⟨.inserted sid pan, .pending⟩)
    (hv : v = s.view) : Told E s.log v ((s.setTask i none).afterInserted n pan) := by
  have hgone : Told E s.log v (s.setTask i none) :=
    ⟨hfresh.setTask htask none, [], rfl, .inl hv⟩
  have hnotified := (free_told hE).notifyState _ hgone
  unfold Atm.afterInserted
  split
  · exact (free_told hE).toSteady.markError _ hnotified
  · have hread : Told E s.log v { (s.setTask i none).notifyState with card := some n } :=
      hnotified.of_eq hE rfl rfl rfl rfl rfl
    exact hread.suspend hE _ _

/-- The page shows the session that there is, or nothing, with an excuse. -/
def Current (E : Atm → Prop) (p : Atm × Shown) : Prop :=
  p.1.Fresh ∧ (p.2 = p.1.view ∨ p.2 = none ∧ E p.1)

theorem current_of_told {p : Atm × Shown} {a : AtmStep}
    (h : Told E p.1.log ((p.1.notice a).foldl useAtmSocket p.2) t) :
    Current E (t, (p.1.frames a t).foldl useAtmSocket p.2) := by
  have hframes : (p.1.frames a t).foldl useAtmSocket p.2 =
      ((t.log.take (t.log.length - p.1.log.length)).reverse.filterMap Act.frame?).foldl
        useAtmSocket ((p.1.notice a).foldl useAtmSocket p.2) := List.foldl_append
  rw [hframes]
  rcases shown_of_told h with ⟨hfresh, hview⟩ | ⟨hfresh, hnone, hexcuse⟩
  · exact ⟨hfresh, .inl hview⟩
  · exact ⟨hfresh, .inr ⟨hnone, hexcuse⟩⟩

theorem current_step {accountOf : String → String} (hE : Excuse E) {p q : Atm × Shown} {a : AtmStep}
    (h : Current E p) (hfails : stored p a = true ∨ ∀ s, E s)
    (hq : watch accountOf p a = some q) : Current E q := by
  obtain ⟨t, ht, rfl⟩ := Option.map_eq_some_iff.mp hq
  obtain ⟨s, v⟩ := p
  have htold : Told E s.log v s := told_of_shown h.1 h.2
  apply current_of_told
  by_cases hfree : a.free ⟨true, true, true, false⟩ s = true
  · have hnotice : s.notice a = [] := by
      cases a with
      | resume i reply =>
        cases reply with
        | done =>
          cases htask : s.tasks i with
          | none => simp [Atm.notice, htask]
          | some task =>
            obtain ⟨cont, phase⟩ := task
            cases cont with
            | inserted sid pan => simp [AtmStep.free, htask, Cont.serves, Cont.plain] at hfree
            | _ => simp [Atm.notice, htask]
        | _ => rfl
      | _ => rfl
    rw [hnotice]
    exact (free_told hE).step hfree htold ht
  · cases a with
    | executeCommand i injected => exact told_executeCommand hE htold ht
    | resume i reply =>
      obtain ⟨cont, phase, htask, -, hcont⟩ := resume_cases ht
      change s.tasks i = some ⟨cont, phase⟩ at htask
      cases cont with
      | inserted sid pan =>
        cases phase with
        | pending =>
          cases reply with
          | done =>
            cases hcont
            have hshown : ((s.notice (.resume i .done)).foldl useAtmSocket v) = s.view := by
              cases hview : s.view with
              | some w => simp [Atm.notice, htask, hview, useAtmSocket]
              | none =>
                rcases h.2 with hv | ⟨hv, -⟩
                · simpa [Atm.notice, htask, hview] using hv.trans hview
                · simpa [Atm.notice, htask, hview] using hv
            exact told_afterInserted hE h.1 htask hshown
          | throws =>
            cases hcont
            have hexcuse : E (s.setTask i none) := by
              rcases hfails with hstored | hany
              · simp [stored, htask] at hstored
              · exact hany _
            refine ⟨h.1.setTask htask none, [], rfl, ?_⟩
            exact h.2.imp_right fun hv => ⟨hv.1, hexcuse⟩
          | _ => cases hcont
        | _ => cases reply <;> cases hcont
      | _ => exact absurd (by simp [AtmStep.free, htask, Cont.serves, Cont.plain]) hfree
    | _ => exact absurd rfl hfree

/-- Numbers of tasks stay fresh in every run. -/
theorem fresh_of_reaches {accountOf : String → String}
    (hs : Runs.Reaches (atmStep accountOf) Runs.free Atm.init s) : s.Fresh := by
  refine Runs.Reaches.invariant (P := Atm.Fresh) ?_ (fun _ _ => rfl) hs
  intro u a t hu _ ht
  have hq : watch accountOf (u, none) a = some (t, (u.frames a t).foldl useAtmSocket none) := by
    rw [watch, ht]
    rfl
  have hcurrent : Current (fun _ => True) (u, none) := ⟨hu, .inr ⟨rfl, trivial⟩⟩
  exact (current_step excuse_always hcurrent (.inr fun _ => trivial) hq).1

/-- A card is inserted, the customer cancels, and the session ends. -/
def insertedAndCancelled : List AtmStep :=
  [.onCardInserted "4580", .resume 0 .done, .executeCommand 1 none, .resume 1 .done,
   .resume 2 (.auth ⟨true, some "ACC", "00", none⟩), .cancelTransaction]

end AtmXfs
