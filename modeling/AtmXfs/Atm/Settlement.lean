import AtmXfs.Atm.Calm
import AtmXfs.Lib.Runs

namespace AtmXfs

open Js Host

/-- The act pays out the withdrawal or takes it back. -/
def Act.settles (wid : Nat) : Act → Bool
  | .dispensed n _ => n = wid
  | .reversed n _ => n = wid
  | _ => false

def settlements (log : List Act) (wid : Nat) : List Act := log.filter (Act.settles wid)

/-- Settled exactly once: the approved amount was dispensed, or the authorisation was reversed with
its own STAN, PAN, account and amount. -/
def Settled (accountOf : String → String) (log : List Act) (a : Authorisation) : Prop :=
  settlements log a.w.wid = [.dispensed a.w.wid (some a.w.amount)] ∨
    ∃ sid reason, settlements log a.w.wid = [.reversed a.w.wid
      ⟨a.stanNo, sid, a.w.pan, some (accountOf a.w.pan), some a.w.amount, reason⟩]

/-- Where a withdrawal stands while a handler awaits a call for it. -/
def Stage (log : List Act) : Suspension → Prop
  | ⟨.authorized w, phase⟩ => phase = .pending ∧ settlements log w.wid = []
  | ⟨.dispensed a amount, .issued⟩ => amount = some a.w.amount ∧ settlements log a.w.wid = []
  | ⟨.dispensed a _, .replied (some _)⟩ => settlements log a.w.wid = []
  | ⟨.dispensed a _, .replied none⟩ =>
    settlements log a.w.wid = [.dispensed a.w.wid (some a.w.amount)]
  | ⟨.dispensed _ _, _⟩ => False
  | _ => True

/-- Every approved withdrawal is settled, or a handler is about to settle it. -/
structure Accounted (accountOf : String → String) (s : Atm) : Prop where
  fresh : s.Fresh
  numbered : ∀ i task wid, s.tasks i = some task → task.cont.wid? = some wid → wid < s.calls
  logged : ∀ act ∈ s.log, ∀ wid, act.wid? = some wid → wid < s.calls
  unique : ∀ i j task task' wid, s.tasks i = some task → s.tasks j = some task' →
    task.cont.wid? = some wid → task'.cont.wid? = some wid → i = j
  stage : ∀ i task, s.tasks i = some task → Stage s.log task
  settled : ∀ a, .approved a ∈ s.log → Settled accountOf s.log a ∨
    ∃ i amount phase, s.tasks i = some ⟨.dispensed a amount, phase⟩

theorem settlements_cons {act : Act} {wid : Nat} (log : List Act) (h : act.settles wid = false) :
    settlements (act :: log) wid = settlements log wid := by
  simp [settlements, h]

/-- An act counts for its own withdrawal only. -/
theorem settlements_other {act : Act} {n wid : Nat} (log : List Act) (hact : act.wid? = some n)
    (hne : n ≠ wid) : settlements (act :: log) wid = settlements log wid := by
  apply settlements_cons
  cases act <;> simp_all [Act.settles, Act.wid?]

theorem Settled.settlements_ne_nil {accountOf : String → String} {log : List Act}
    {a : Authorisation} (h : Settled accountOf log a) : settlements log a.w.wid ≠ [] := by
  rcases h with hpaid | ⟨sid, reason, hback⟩
  · rw [hpaid]
    nofun
  · rw [hback]
    nofun

theorem paying_of_settles {act : Act} {wid : Nat} (h : act.settles wid = true) :
    act.paying = true := by
  cases act <;> first | rfl | cases h

theorem paying_of_wid {act : Act} {wid : Nat} (h : act.wid? = some wid) : act.paying = true := by
  cases act <;> first | rfl | cases h

theorem settlements_of_filter {log log' : List Act}
    (h : log'.filter Act.paying = log.filter Act.paying) (wid : Nat) :
    settlements log' wid = settlements log wid := by
  have hsub : ∀ l : List Act,
      settlements l wid = (l.filter Act.paying).filter (Act.settles wid) := by
    intro l
    rw [List.filter_filter, settlements]
    apply List.filter_congr
    intro act _
    cases hact : act.settles wid with
    | false => rfl
    | true => simp [paying_of_settles hact]
  rw [hsub log', hsub log, h]

theorem mem_of_filter {log log' : List Act} (h : log'.filter Act.paying = log.filter Act.paying)
    {act : Act} (hact : act.paying = true) : act ∈ log' ↔ act ∈ log := by
  have hmem : ∀ l : List Act, act ∈ l ↔ act ∈ l.filter Act.paying := by simp [hact]
  rw [hmem log', hmem log, h]

/-- A number that was not given out settles nothing. -/
theorem settlements_of_unused {accountOf : String → String} {s : Atm} (h : Accounted accountOf s)
    {wid : Nat} (hwid : s.calls ≤ wid) : settlements s.log wid = [] := by
  rw [settlements, List.filter_eq_nil_iff]
  intro act hact hsettles
  have hlt : ∀ n, act.wid? = some n → n < s.calls := h.logged act hact
  cases act <;> simp_all [Act.settles, Act.wid?]
  · omega
  · omega

theorem stage_of_none {log : List Act} {task : Suspension} (h : task.cont.wid? = none) :
    Stage log task := by
  obtain ⟨cont, phase⟩ := task
  cases cont with
  | authorized w => cases h
  | dispensed a amount => cases h
  | _ => trivial

theorem stage_congr {log log' : List Act} {task : Suspension}
    (h : ∀ wid, task.cont.wid? = some wid → settlements log' wid = settlements log wid)
    (hs : Stage log task) : Stage log' task := by
  obtain ⟨cont, phase⟩ := task
  cases cont with
  | authorized w => exact ⟨hs.1, by rw [h w.wid rfl]; exact hs.2⟩
  | dispensed a amount =>
    cases phase with
    | issued => exact ⟨hs.1, by rw [h a.w.wid rfl]; exact hs.2⟩
    | replied error =>
      cases error with
      | none => exact (h a.w.wid rfl).trans hs
      | some detail => exact (h a.w.wid rfl).trans hs
    | pending => exact hs
    | entered => exact hs
  | _ => trivial

theorem settled_congr {accountOf : String → String} {log log' : List Act} {a : Authorisation}
    (h : settlements log' a.w.wid = settlements log a.w.wid) (hs : Settled accountOf log a) :
    Settled accountOf log' a := by
  rw [Settled, h]
  exact hs

/-- A step outside of the withdrawals keeps them accounted for. -/
theorem accounted_calm {accountOf : String → String} {s t : Atm} (hc : s.Calm t)
    (h : Accounted accountOf s) : Accounted accountOf t := by
  have htasks := hc.tasks h.fresh
  refine ⟨hc.fresh h.fresh, ?_, ?_, ?_, ?_, ?_⟩
  · intro i task wid htask hwid
    rw [hc.calls]
    exact h.numbered i task wid ((htasks i task wid hwid).mp htask) hwid
  · intro act hact wid hwid
    rw [hc.calls]
    exact h.logged act ((mem_of_filter hc.log (paying_of_wid hwid)).mp hact) wid hwid
  · intro i j task task' wid htask htask' hwid hwid'
    exact h.unique i j task task' wid ((htasks i task wid hwid).mp htask)
      ((htasks j task' wid hwid').mp htask') hwid hwid'
  · intro i task htask
    cases hwid : task.cont.wid? with
    | none => exact stage_of_none hwid
    | some wid =>
      exact stage_congr (fun n _ => settlements_of_filter hc.log n)
        (h.stage i task ((htasks i task wid hwid).mp htask))
  · intro a ha
    rcases h.settled a ((mem_of_filter hc.log rfl).mp ha) with hdone | ⟨i, amount, phase, htask⟩
    · exact .inl (settled_congr (settlements_of_filter hc.log _) hdone)
    · exact .inr ⟨i, amount, phase, (htasks i _ a.w.wid rfl).mpr htask⟩

/-- A task of a withdrawal goes on to another phase or is over, and may write one act of its own
withdrawal into the log. -/
theorem accounted_update {accountOf : String → String} {s : Atm} (h : Accounted accountOf s)
    {i : Nat} {cont : Cont} {phase : Phase} (htask : s.tasks i = some ⟨cont, phase⟩)
    (extra : Option Act) (new : Option Phase)
    (hextra : ∀ act ∈ extra, ∃ wid, cont.wid? = some wid ∧ act.wid? = some wid ∧
      settlements s.log wid = [] ∧ ∀ a, act ≠ .approved a)
    (hstage : ∀ p ∈ new, Stage (extra.toList ++ s.log) ⟨cont, p⟩)
    (hdone : new = none → ∀ a amount, cont = .dispensed a amount →
      Settled accountOf (extra.toList ++ s.log) a) :
    Accounted accountOf
      ({ s with log := extra.toList ++ s.log }.setTask i (new.map fun p => ⟨cont, p⟩)) := by
  have hat : ∀ j task, (s.setTask i (new.map fun p => ⟨cont, p⟩)).tasks j = some task →
      (j = i ∧ ∃ p ∈ new, task = ⟨cont, p⟩) ∨ (j ≠ i ∧ s.tasks j = some task) := by
    intro j task hj
    rcases Atm.tasks_setTask hj with ⟨hhere, hnew⟩ | hold
    · obtain ⟨p, hp, heq⟩ := Option.map_eq_some_iff.mp hnew
      exact .inl ⟨hhere, p, hp, heq.symm⟩
    · exact .inr hold
  have howner : ∀ j task wid, (s.setTask i (new.map fun p => ⟨cont, p⟩)).tasks j = some task →
      task.cont.wid? = some wid → ∃ old, s.tasks j = some old ∧ old.cont.wid? = some wid := by
    intro j task wid hj hwid
    rcases hat j task hj with ⟨rfl, p, -, rfl⟩ | ⟨-, hold⟩
    · exact ⟨⟨cont, phase⟩, htask, hwid⟩
    · exact ⟨task, hold, hwid⟩
  have hsame : ∀ wid, cont.wid? ≠ some wid →
      settlements (extra.toList ++ s.log) wid = settlements s.log wid := by
    intro wid hwid
    cases extra with
    | none => rfl
    | some act =>
      obtain ⟨n, hn, hact, -, -⟩ := hextra act rfl
      exact settlements_other s.log hact fun heq => hwid (heq ▸ hn)
  refine ⟨?_, ?_, ?_, ?_, ?_, ?_⟩
  · exact Atm.Fresh.setTask h.fresh htask _
  · intro j task wid hj hwid
    obtain ⟨old, hold, howid⟩ := howner j task wid hj hwid
    exact h.numbered j old wid hold howid
  · intro act hact wid hwid
    rcases List.mem_append.mp hact with hnew | hold
    · obtain ⟨n, hn, hact', -, -⟩ := hextra act (Option.mem_toList.mp hnew)
      rw [hact', ← hn] at hwid
      exact h.numbered i ⟨cont, phase⟩ wid htask hwid
    · exact h.logged act hold wid hwid
  · intro j k task task' wid hj hk hwid hwid'
    obtain ⟨old, hold, howid⟩ := howner j task wid hj hwid
    obtain ⟨old', hold', howid'⟩ := howner k task' wid hk hwid'
    exact h.unique j k old old' wid hold hold' howid howid'
  · intro j task hj
    rcases hat j task hj with ⟨rfl, p, hp, rfl⟩ | ⟨hji, hold⟩
    · exact hstage p hp
    · apply stage_congr _ (h.stage j task hold)
      intro wid hwid
      apply hsame
      intro hcont
      exact hji (h.unique j i task ⟨cont, phase⟩ wid hold htask hwid hcont)
  · intro a ha
    have hold : .approved a ∈ s.log := by
      rcases List.mem_append.mp ha with hnew | hold
      · obtain ⟨-, -, -, -, hnot⟩ := hextra _ (Option.mem_toList.mp hnew)
        exact absurd rfl (hnot a)
      · exact hold
    rcases h.settled a hold with hsettled | ⟨j, amount, phase', hj⟩
    · left
      apply settled_congr _ hsettled
      cases extra with
      | none => rfl
      | some act =>
        apply hsame
        intro hcont
        obtain ⟨n, hn, -, hfree, -⟩ := hextra act rfl
        cases hn.symm.trans hcont
        exact hsettled.settlements_ne_nil hfree
    · by_cases hji : j = i
      · subst hji
        cases htask.symm.trans hj
        cases new with
        | none => exact .inl (hdone rfl a amount rfl)
        | some p => exact .inr ⟨j, amount, p, by simp [Atm.setTask]⟩
      · exact .inr ⟨j, amount, phase', by simpa [Atm.setTask, Function.update_of_ne hji] using hj⟩

/-- A handler begins to await a call for a withdrawal that no other handler works on. -/
theorem accounted_add {accountOf : String → String} {s : Atm} (h : Accounted accountOf s)
    {cont : Cont} {phase : Phase} {act : Act} {calls wid : Nat} (hcalls : s.calls ≤ calls)
    (hwid : cont.wid? = some wid) (hlt : wid < calls)
    (hunused : ∀ j task, s.tasks j = some task → task.cont.wid? ≠ some wid)
    (hact : ∀ n, act.wid? = some n → n = wid) (hsettles : ∀ n, act.settles n = false)
    (hstage : Stage (act :: s.log) ⟨cont, phase⟩)
    (happroved : ∀ a, act = .approved a → ∃ amount, cont = .dispensed a amount) :
    Accounted accountOf (({ s with calls }.record act).suspend cont phase) := by
  have hat : ∀ j task, (s.suspend cont phase).tasks j = some task →
      (j = s.nextTask ∧ task = ⟨cont, phase⟩) ∨ (j ≠ s.nextTask ∧ s.tasks j = some task) :=
    fun _ _ => Atm.tasks_suspend
  have hkeep : ∀ n, settlements (act :: s.log) n = settlements s.log n :=
    fun n => settlements_cons s.log (hsettles n)
  refine ⟨?_, ?_, ?_, ?_, ?_, ?_⟩
  · exact Atm.Fresh.suspend h.fresh cont phase
  · intro j task n hj hn
    rcases hat j task hj with ⟨-, rfl⟩ | ⟨-, hold⟩
    · rw [hwid] at hn
      cases hn
      exact hlt
    · exact lt_of_lt_of_le (h.numbered j task n hold hn) hcalls
  · intro b hb n hn
    rcases List.mem_cons.mp hb with rfl | hold
    · rw [hact n hn]
      exact hlt
    · exact lt_of_lt_of_le (h.logged b hold n hn) hcalls
  · intro j k task task' n hj hk hn hn'
    rcases hat j task hj with ⟨rfl, rfl⟩ | ⟨-, hold⟩
    · rcases hat k task' hk with ⟨rfl, -⟩ | ⟨-, hold'⟩
      · rfl
      · rw [hwid] at hn
        cases hn
        exact absurd hn' (hunused k task' hold')
    · rcases hat k task' hk with ⟨rfl, rfl⟩ | ⟨-, hold'⟩
      · rw [hwid] at hn'
        cases hn'
        exact absurd hn (hunused j task hold)
      · exact h.unique j k task task' n hold hold' hn hn'
  · intro j task hj
    rcases hat j task hj with ⟨-, rfl⟩ | ⟨-, hold⟩
    · exact hstage
    · exact stage_congr (fun n _ => hkeep n) (h.stage j task hold)
  · intro a ha
    rcases List.mem_cons.mp ha with heq | hold
    · obtain ⟨amount, rfl⟩ := happroved a heq.symm
      exact .inr ⟨s.nextTask, amount, phase, Function.update_self ..⟩
    · rcases h.settled a hold with hdone | ⟨j, amount, phase', hj⟩
      · exact .inl (settled_congr (hkeep a.w.wid) hdone)
      · have hne : j ≠ s.nextTask := by
          intro heq
          have hnone := h.fresh j (by omega)
          rw [hj] at hnone
          cases hnone
        exact .inr ⟨j, amount, phase', (Function.update_of_ne hne ..).trans hj⟩

theorem accounted_processWithdrawal {accountOf : String → String} {s : Atm}
    (h : Accounted accountOf s) : Accounted accountOf s.processWithdrawal := by
  unfold Atm.processWithdrawal
  split
  · exact h
  · split
    · exact h
    · have hnew : ∀ j task, s.tasks j = some task → task.cont.wid? ≠ some s.calls := by
        intro j task hj hwid
        exact absurd (h.numbered j task s.calls hj hwid) (lt_irrefl _)
      apply accounted_add h (Nat.le_succ s.calls) rfl (Nat.lt_succ_self s.calls) hnew
      · intro n hn
        cases hn
      · intro n
        rfl
      · exact ⟨rfl, (settlements_cons s.log rfl).trans (settlements_of_unused h le_rfl)⟩
      · intro a ha
        cases ha

/-- A withdrawal that the host has declined is over. -/
theorem accounted_declined {accountOf : String → String} {s : Atm} (h : Accounted accountOf s)
    {i : Nat} {w : Withdrawal} {phase : Phase} (htask : s.tasks i = some ⟨.authorized w, phase⟩) :
    Accounted accountOf (s.setTask i none) := by
  have hgone := accounted_update h htask none none (by simp) (by simp) (by simp)
  exact hgone

/-- The host has approved: from here on a DISPENSE of the amount is on its way. -/
theorem accounted_approved {accountOf : String → String} {s : Atm} (h : Accounted accountOf s)
    {i : Nat} {w : Withdrawal} {phase : Phase} (stanNo : String)
    (htask : s.tasks i = some ⟨.authorized w, phase⟩) :
    Accounted accountOf (((s.setTask i none).record (.approved ⟨w, stanNo⟩)).suspend
      (.dispensed ⟨w, stanNo⟩ (some w.amount)) .issued) := by
  have hgone := accounted_declined h htask
  obtain ⟨-, hfree⟩ := h.stage i _ htask
  have hnew : ∀ j task, (s.setTask i none).tasks j = some task →
      task.cont.wid? ≠ some w.wid := by
    intro j task hj hwid
    rcases Atm.tasks_setTask hj with ⟨-, hnone⟩ | ⟨hother, hold⟩
    · cases hnone
    · exact hother (h.unique j i task _ w.wid hold htask hwid rfl)
  apply accounted_add hgone le_rfl rfl (h.numbered i _ w.wid htask rfl) hnew
  · intro n hn
    cases hn
    rfl
  · intro n
    rfl
  · exact ⟨rfl, (settlements_cons s.log rfl).trans hfree⟩
  · intro a ha
    cases ha
    exact ⟨_, rfl⟩

/-- The CDM answers a DISPENSE. -/
theorem accounted_executeCommand {accountOf : String → String} {s t : Atm}
    (h : Accounted accountOf s) {i : Nat} {injected : Option String}
    (ht : s.executeCommand i injected = some t) : Accounted accountOf t := by
  obtain ⟨cont, htask⟩ := Atm.executeCommand_issued ht
  by_cases hruns : cont.runs ⟨true, true, true, true⟩ = true
  · have hcalm : s.Calm t := (Atm.steady_calm s).executeCommand htask hruns (.refl s) ht
    exact accounted_calm hcalm h
  · have hstage := h.stage i _ htask
    cases cont with
    | authorized w =>
      obtain ⟨hphase, -⟩ := hstage
      cases hphase
    | dispensed a amount =>
      obtain ⟨rfl, hfree⟩ := hstage
      have hpaid : settlements (.dispensed a.w.wid (some a.w.amount) :: s.log) a.w.wid =
          [.dispensed a.w.wid (some a.w.amount)] := by
        rw [settlements, List.filter_cons, if_pos (by simp [Act.settles])]
        exact congrArg _ hfree
      cases injected with
      | some detail =>
        simp only [Atm.executeCommand, htask, Option.some.injEq] at ht
        subst ht
        exact accounted_update h htask none (some (.replied (some detail))) (by simp)
          (by simpa [Stage] using hfree) (by simp)
      | none =>
        simp only [Atm.executeCommand, htask, Option.some.injEq] at ht
        subst ht
        exact accounted_update h htask (some (.dispensed a.w.wid (some a.w.amount)))
          (some (.replied none)) (by simp [Cont.wid?, Act.wid?, hfree])
          (by simpa [Stage] using hpaid) (by simp)
    | _ => exact absurd rfl hruns

/-- A handler that goes on after an approval finds a session with the approved amount; one that
goes on after a failed DISPENSE finds the PAN, the account and the amount of its withdrawal. -/
def orderly (accountOf : String → String) (s : Atm) : AtmStep → Bool
  | .resume i reply =>
    match s.tasks i, reply with
    | some ⟨.authorized w, _⟩, .authorization r =>
      !r.approved || s.current.any fun session => session.amount = some w.amount
    | some ⟨.dispensed a _, .replied (some _)⟩, .done =>
      s.current.any fun session => session.cardPan = a.w.pan ∧
        session.accountId = some (accountOf a.w.pan) ∧ session.amount = some a.w.amount
    | _, _ => true
  | _ => true

theorem modify_suspend (s : Atm) (f : AtmSession → AtmSession) (cont : Cont) (phase : Phase) :
    (s.modify f).suspend cont phase = (s.suspend cont phase).modify f := by
  cases hsession : s.session with
  | none => simp [Atm.modify, Atm.suspend, hsession]
  | some sid => simp [Atm.modify, Atm.suspend, hsession]

theorem transitionTo_suspend (s : Atm) (next : AtmState) (cont : Cont) (phase : Phase) :
    (s.transitionTo next).suspend cont phase = (s.suspend cont phase).transitionTo next := by
  cases hsession : s.session with
  | none => simp [Atm.transitionTo, Atm.suspend, hsession]
  | some sid =>
    simp [Atm.transitionTo, Atm.modify, Atm.record, Atm.armIdleTimer, Atm.suspend, hsession]

theorem accounted_afterAuthorize {accountOf : String → String} {s : Atm}
    (h : Accounted accountOf s) {i : Nat} {w : Withdrawal} {phase : Phase}
    (htask : s.tasks i = some ⟨.authorized w, phase⟩) (r : AuthorizationResult)
    (hok : orderly accountOf s (.resume i (.authorization r)) = true) :
    Accounted accountOf ((s.setTask i none).afterAuthorize w r) := by
  unfold Atm.afterAuthorize
  split
  · next happroved =>
    have hany : s.current.any (fun session => session.amount = some w.amount) = true := by
      simpa [orderly, htask, happroved] using hok
    obtain ⟨session, hsession, hequal⟩ := (Option.any_eq_true ..).mp hany
    have hamount : session.amount = some w.amount := of_decide_eq_true hequal
    have hcurrent : (s.setTask i none).current = some session := hsession
    rw [hcurrent]
    simp only
    rw [hamount, transitionTo_suspend, modify_suspend]
    apply accounted_calm _ (accounted_approved h r.stanNo htask)
    exact (Atm.calm_modify _ _).trans (Atm.calm_transitionTo _ _)
  · exact accounted_calm (Atm.calm_markError _ _) (accounted_declined h htask)

/-- A failed DISPENSE whose session is still there is reversed with the approved data. -/
theorem accounted_afterDispenseError {accountOf : String → String} {s : Atm}
    (h : Accounted accountOf s) {i : Nat} {a : Authorisation} {amount : Option Int}
    {detail : String} (htask : s.tasks i = some ⟨.dispensed a amount, .replied (some detail)⟩)
    (hok : orderly accountOf s (.resume i .done) = true) :
    Accounted accountOf ((s.setTask i none).afterDispenseError a detail) := by
  have hany : s.current.any (fun session => session.cardPan = a.w.pan ∧
      session.accountId = some (accountOf a.w.pan) ∧ session.amount = some a.w.amount) = true := by
    simpa only [orderly, htask] using hok
  obtain ⟨session, hsession, hequal⟩ := (Option.any_eq_true ..).mp hany
  obtain ⟨hpan, haccount, hamount⟩ := of_decide_eq_true hequal
  obtain ⟨sid, hsid, rfl⟩ := Option.map_eq_some_iff.mp hsession
  have hfree : settlements s.log a.w.wid = [] := h.stage i _ htask
  have hcall : (s.setTask i none).afterDispenseError a detail =
      ((s.setTask i none).record (.reversed a.w.wid ⟨a.stanNo, sid, a.w.pan,
        some (accountOf a.w.pan), some a.w.amount, detail⟩)).suspend (.reversed detail)
          .pending := by
    have hsession' : (s.setTask i none).session = some sid := hsid
    have hsessions : (s.setTask i none).sessions = s.sessions := rfl
    unfold Atm.afterDispenseError
    rw [hsession']
    simp only [hsessions, hpan, haccount, hamount]
  have hback : settlements (.reversed a.w.wid ⟨a.stanNo, sid, a.w.pan,
      some (accountOf a.w.pan), some a.w.amount, detail⟩ :: s.log) a.w.wid =
        [.reversed a.w.wid ⟨a.stanNo, sid, a.w.pan, some (accountOf a.w.pan), some a.w.amount,
          detail⟩] := by
    rw [settlements, List.filter_cons, if_pos (by simp [Act.settles])]
    exact congrArg _ hfree
  rw [hcall]
  apply accounted_calm (Atm.calm_suspend _ _ rfl)
  apply accounted_update h htask (some _) none
  · intro act hact
    cases Option.mem_some_iff.mp hact
    exact ⟨a.w.wid, rfl, rfl, hfree, fun b hb => by cases hb⟩
  · simp
  · intro _ b n hb
    cases hb
    exact .inr ⟨sid, detail, hback⟩

theorem accounted_resume {accountOf : String → String} {s t : Atm} (h : Accounted accountOf s)
    {i : Nat} {reply : Reply} {cont : Cont} {phase : Phase} (htask : s.tasks i = some ⟨cont, phase⟩)
    {wid : Nat} (hwid : cont.wid? = some wid)
    (hok : orderly accountOf s (.resume i reply) = true)
    (ht : (s.setTask i none).continueWith cont phase reply = some t) : Accounted accountOf t := by
  have hstage := h.stage i _ htask
  cases cont with
  | authorized w =>
    obtain ⟨rfl, -⟩ := hstage
    cases reply with
    | authorization r =>
      cases ht
      exact accounted_afterAuthorize h htask r hok
    | _ => cases ht
  | dispensed a amount =>
    cases phase with
    | replied error =>
      cases reply with
      | done =>
        cases error with
        | none =>
          cases ht
          have hpaid : Settled accountOf s.log a := .inl hstage
          have hgone := accounted_update h htask none none (by simp) (by simp)
            (fun _ b n hb => by cases hb; exact hpaid)
          exact accounted_calm ((Atm.steady_calm _).afterDispense rfl (.refl _)) hgone
        | some detail =>
          cases ht
          exact accounted_afterDispenseError h htask hok
      | _ => cases error <;> cases ht
    | issued => cases reply <;> cases ht
    | pending => exact hstage.elim
    | entered => exact hstage.elim
  | _ => cases hwid

/-- The host answers a PIN verification, whoever it was asked for. -/
theorem calm_resume_pinVerified {s t : Atm} {i sid : Nat} {pan : String} {entered : List Char}
    {phase : Phase} {reply : Reply} (htask : s.tasks i = some ⟨.pinVerified sid pan entered, phase⟩)
    (ht : (s.setTask i none).continueWith (.pinVerified sid pan entered) phase reply = some t) :
    s.Calm t := by
  have hgone : s.Calm (s.setTask i none) := Atm.calm_setTask s htask rfl (by simp)
  cases phase with
  | pending =>
    cases reply with
    | auth r =>
      cases ht
      exact hgone.trans (Atm.calm_afterVerifyPin _ sid pan r)
    | throws =>
      cases ht
      exact hgone
    | _ => cases ht
  | _ => cases reply <;> cases ht

theorem accounted_step {accountOf : String → String} (s : Atm) (a : AtmStep) (t : Atm)
    (h : Accounted accountOf s) (hok : orderly accountOf s a = true)
    (ht : atmStep accountOf s a = some t) : Accounted accountOf t := by
  by_cases hplain : a.plain ⟨true, true, true, true⟩ s = true
  · exact accounted_calm ((Atm.steady_calm s).step hplain (.refl s) ht) h
  cases a with
  | selectTransaction txn => cases ht; exact accounted_calm (s.calm_selectTransaction txn) h
  | submitAmount amount => cases ht; exact accounted_calm (s.calm_submitAmount amount) h
  | confirmTransaction =>
    cases ht
    unfold Atm.confirmTransaction
    split
    · exact h
    · split
      · exact h
      · split
        · exact accounted_processWithdrawal (accounted_calm (s.calm_transitionTo _) h)
        · exact accounted_calm ((s.calm_transitionTo _).trans (Atm.calm_markError _ _)) h
  | executeCommand i injected => exact accounted_executeCommand h ht
  | resume i reply =>
    obtain ⟨cont, phase, htask, -, hcont⟩ := resume_cases ht
    cases cont with
    | pinVerified sid pan entered => exact accounted_calm (calm_resume_pinVerified htask hcont) h
    | authorized w => exact accounted_resume h htask rfl hok hcont
    | dispensed b amount => exact accounted_resume h htask rfl hok hcont
    | _ => exact absurd (by simp [AtmStep.plain, htask, Cont.plain]) hplain
  | _ => exact absurd rfl hplain

theorem accounted_init (accountOf : String → String) : Accounted accountOf Atm.init := by
  refine ⟨fun _ _ => rfl, ?_, ?_, ?_, ?_, ?_⟩
  · intro i task wid h
    cases h
  · intro act h
    cases h
  · intro i j task task' wid h
    cases h
  · intro i task h
    cases h
  · intro a h
    cases h

/-- In every orderly run, when no handler is suspended every approved withdrawal is settled exactly
once. -/
theorem settled_of_reaches {accountOf : String → String} {s : Atm}
    (h : Runs.Reaches (atmStep accountOf) (fun s a => orderly accountOf s a) Atm.init s)
    (hquiet : s.quiet = true) {a : Authorisation} (ha : .approved a ∈ s.log) :
    Settled accountOf s.log a := by
  have hacc : Accounted accountOf s :=
    Runs.Reaches.invariant (P := Accounted accountOf) accounted_step (accounted_init accountOf) h
  rcases hacc.settled a ha with hdone | ⟨i, amount, phase, hi⟩
  · exact hdone
  · have hnone := hacc.fresh.none_of_quiet hquiet i
    rw [hi] at hnone
    cases hnone

/-- A card is inserted, its PIN verified and a withdrawal of 100000 confirmed. -/
def toConfirmed : List AtmStep :=
  toVerification "4580" 0 ++ [.resume 4 (.auth ⟨true, none, "00", none⟩),
    .selectTransaction .withdrawal, .submitAmount (.ofInt 100000), .confirmTransaction]

def approval : AuthorizationResult :=
  ⟨true, "00", some "123456", "000001", some (.ofInt 0), none, .jalin, "Jalin"⟩

/-- The withdrawal is approved, but its DISPENSE fails and is reversed. -/
def failedDispense : List AtmStep :=
  toConfirmed ++ [.resume 5 (.authorization approval), .executeCommand 6 (some "jam"),
    .resume 6 .done, .resume 7 .done, .executeCommand 8 none, .resume 8 .done, .writeRow 9,
    .resume 9 .done]

theorem settled_of_failedDispense :
    ∃ s, Runs.exec (atmStep fun _ => "ACC") Atm.init failedDispense = some s ∧
      Settled (fun _ => "ACC") s.log ⟨⟨0, 0, "4580", 100000⟩, "000001"⟩ := by
  have hrun : (Runs.exec (atmStep fun _ => "ACC") Atm.init failedDispense).any (fun s =>
      s.quiet = true ∧ .approved ⟨⟨0, 0, "4580", 100000⟩, "000001"⟩ ∈ s.log) = true := by
    decide +kernel
  obtain ⟨s, hs, hend⟩ := (Option.any_eq_true ..).mp hrun
  obtain ⟨hquiet, happroved⟩ := of_decide_eq_true hend
  have halong : Runs.Along (atmStep fun _ => "ACC") (fun s a => orderly (fun _ => "ACC") s a)
      Atm.init failedDispense := by decide +kernel
  exact ⟨s, hs, settled_of_reaches ⟨failedDispense, halong, hs⟩ hquiet happroved⟩

/-- The customer cancels while the host works on the withdrawal. -/
def cancelledAwait : List AtmStep :=
  toConfirmed ++ [.cancelTransaction, .executeCommand 6 none, .resume 6 .done, .writeRow 7,
    .resume 7 .done, .resume 5 (.authorization approval)]

theorem approved_not_settled :
    ∃ s, Runs.Reaches (atmStep fun _ => "ACC") Runs.free Atm.init s ∧ s.quiet = true ∧
      ∃ a, .approved a ∈ s.log ∧ ¬ Settled (fun _ => "ACC") s.log a := by
  have hrun : (Runs.exec (atmStep fun _ => "ACC") Atm.init cancelledAwait).any (fun s =>
      s.quiet = true ∧ .approved ⟨⟨0, 0, "4580", 100000⟩, "000001"⟩ ∈ s.log ∧
        settlements s.log 0 = []) = true := by decide +kernel
  obtain ⟨s, hs, hend⟩ := (Option.any_eq_true ..).mp hrun
  obtain ⟨hquiet, happroved, hfree⟩ := of_decide_eq_true hend
  refine ⟨s, .of_exec cancelledAwait hs, hquiet, _, happroved, ?_⟩
  rintro (hpaid | ⟨sid, reason, hback⟩)
  · rw [hfree] at hpaid
    cases hpaid
  · rw [hfree] at hback
    cases hback

end AtmXfs
