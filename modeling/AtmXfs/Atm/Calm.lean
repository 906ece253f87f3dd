import AtmXfs.Atm.Steady

namespace AtmXfs

open Js Host

/-- What only withdrawals write into the log. -/
def Act.paying : Act → Bool
  | .approved _ => true
  | .dispensed _ _ => true
  | .reversed _ _ => true
  | _ => false

def Act.wid? : Act → Option Nat
  | .approved a => some a.w.wid
  | .dispensed wid _ => some wid
  | .reversed wid _ => some wid
  | _ => none

namespace Atm

/-- The step leaves the withdrawals alone: their awaits, their acts and their numbers. -/
structure Calm (s t : Atm) : Prop where
  fresh : s.Fresh → t.Fresh
  tasks : s.Fresh → ∀ i task wid, task.cont.wid? = some wid →
    (t.tasks i = some task ↔ s.tasks i = some task)
  log : t.log.filter Act.paying = s.log.filter Act.paying
  calls : t.calls = s.calls

theorem Calm.refl (s : Atm) : Calm s s := ⟨id, fun _ _ _ _ _ => Iff.rfl, rfl, rfl⟩

theorem Calm.trans {s t u : Atm} (h : Calm s t) (h' : Calm t u) : Calm s u where
  fresh hs := h'.fresh (h.fresh hs)
  tasks hs i task wid hwid :=
    (h'.tasks (h.fresh hs) i task wid hwid).trans (h.tasks hs i task wid hwid)
  log := h'.log.trans h.log
  calls := h'.calls.trans h.calls

theorem calm_of_eq {s t : Atm} (htasks : t.tasks = s.tasks) (hnext : t.nextTask = s.nextTask)
    (hlog : t.log = s.log) (hcalls : t.calls = s.calls) : Calm s t where
  fresh hs i hi := by rw [htasks]; exact hs i (hnext ▸ hi)
  tasks _ i task wid _ := by rw [htasks]
  log := by rw [hlog]
  calls := hcalls

theorem calm_modify (s : Atm) (f : AtmSession → AtmSession) : Calm s (s.modify f) := by
  unfold modify
  split
  · exact .refl s
  · exact calm_of_eq rfl rfl rfl rfl

theorem calm_armIdleTimer (s : Atm) (state : AtmState) : Calm s (s.armIdleTimer state) :=
  calm_of_eq rfl rfl rfl rfl

theorem calm_record (s : Atm) {act : Act} (h : act.paying = false) : Calm s (s.record act) where
  fresh hs := hs
  tasks _ _ _ _ _ := Iff.rfl
  log := by simp [record, h]
  calls := rfl

theorem calm_transitionTo (s : Atm) (next : AtmState) : Calm s (s.transitionTo next) := by
  unfold transitionTo
  split
  · exact .refl s
  · exact ((calm_modify s _).trans (calm_record _ rfl)).trans (calm_armIdleTimer _ next)

theorem calm_notifyState (s : Atm) : Calm s s.notifyState := by
  unfold notifyState
  split
  · exact .refl s
  · exact calm_armIdleTimer s _

theorem calm_suspend (s : Atm) {cont : Cont} (phase : Phase) (h : cont.wid? = none) :
    Calm s (s.suspend cont phase) where
  fresh hs := hs.suspend cont phase
  tasks hs i task wid hwid := by
    by_cases hi : i = s.nextTask
    · subst hi
      simp only [suspend, Function.update_self, hs s.nextTask le_rfl, Option.some.injEq,
        reduceCtorEq, iff_false]
      intro heq
      rw [← heq, h] at hwid
      cases hwid
    · simp only [suspend, Function.update_of_ne hi]
  log := rfl
  calls := rfl

/-- A task of no withdrawal goes on to another phase or is over. -/
theorem calm_setTask (s : Atm) {i : Nat} {old : Suspension} {new : Option Suspension}
    (hold : s.tasks i = some old) (hwid : old.cont.wid? = none)
    (hnew : ∀ task ∈ new, task.cont.wid? = none) : Calm s (s.setTask i new) where
  fresh hs := hs.setTask hold new
  tasks _ j task wid htask := by
    by_cases hj : j = i
    · subst hj
      simp only [setTask, Function.update_self, hold, Option.some.injEq]
      constructor
      · intro heq
        have hnone := hnew task heq
        rw [hnone] at htask
        cases htask
      · intro heq
        rw [← heq, hwid] at htask
        cases htask
    · simp only [setTask, Function.update_of_ne hj]
  log := rfl
  calls := rfl

theorem calm_endSession (s : Atm) (reason : EndReason) : Calm s (s.endSession reason) := by
  unfold endSession
  split
  · exact .refl s
  · have hclear : Calm s s.clearIdleTimer := calm_of_eq rfl rfl rfl rfl
    exact (hclear.trans (calm_modify _ _)).trans (calm_suspend _ _ rfl)

theorem calm_onCardInserted (s : Atm) (pan : String) : Calm s (s.onCardInserted pan) := by
  unfold onCardInserted
  split
  · exact .refl s
  · apply Calm.trans _ (calm_suspend _ _ rfl)
    exact calm_of_eq rfl rfl rfl rfl

theorem calm_afterEnded (s : Atm) (sid : Nat) (reason : EndReason) :
    Calm s (s.afterEnded sid reason) := by
  apply Calm.trans _ (calm_record _ rfl)
  exact (calm_transitionTo s _).trans (calm_of_eq rfl rfl rfl rfl)

theorem wid?_of_quiet {cont : Cont} (h : cont.quiet = true) : cont.wid? = none := by
  cases cont <;> first | rfl | cases h

theorem wid?_of_plain {scope : Scope} {cont : Cont} (h : cont.plain scope = true) :
    cont.wid? = none := by
  cases cont <;> first | rfl | cases h

theorem wid?_of_runs {scope : Scope} {cont : Cont} (h : cont.runs scope = true) :
    cont.wid? = none := by
  cases cont <;> first | rfl | cases h

/-- Everything outside of the withdrawals is calm. -/
theorem steady_calm (s : Atm) : Steady ⟨true, true, true, true⟩ (Calm s) where
  onCardInserted t pan _ h := h.trans (calm_onCardInserted t pan)
  modify t f _ h := h.trans (calm_modify t f)
  setAccount t _ _ h := h.trans (calm_of_eq rfl rfl rfl rfl)
  toError t h := h.trans (calm_transitionTo t _)
  transitionTo t next _ _ h := h.trans (calm_transitionTo t next)
  notifyState t h := h.trans (calm_notifyState t)
  suspend t _ phase hquiet h := h.trans (calm_suspend t phase (wid?_of_quiet hquiet))
  askPin t _ _ _ h := h.trans (calm_suspend t _ rfl)
  drop t _ _ _ htask hplain h := h.trans (calm_setTask t htask (wid?_of_plain hplain) (by simp))
  advance t _ _ _ _ htask hruns h :=
    h.trans (calm_setTask t htask (wid?_of_runs hruns) (by simpa using wid?_of_runs hruns))
  clearIdleTimer t h := h.trans (calm_of_eq rfl rfl rfl rfl)
  endSession t reason _ h := h.trans (calm_endSession t reason)
  rowEnded t _ _ _ h := h.trans (calm_record t rfl)
  afterEnded t sid reason _ h := h.trans (calm_afterEnded t sid reason)
  reader t _ _ h := h.trans (calm_of_eq rfl rfl rfl rfl)
  pad t _ h := h.trans (calm_of_eq rfl rfl rfl rfl)

theorem calm_markError (s : Atm) (msg : String) : Calm s (s.markError msg) :=
  (steady_calm s).markError msg (.refl s)

theorem calm_processBalance (s : Atm) : Calm s s.processBalance := by
  unfold processBalance
  split
  · exact .refl s
  · exact ((calm_transitionTo s _).trans (calm_record _ rfl)).trans (calm_suspend _ _ rfl)

theorem calm_selectTransaction (s : Atm) (txn : TxnType) : Calm s (s.selectTransaction txn) := by
  unfold selectTransaction
  split
  · cases txn with
    | withdrawal => exact (calm_modify s _).trans (calm_transitionTo _ _)
    | balance => exact (calm_modify s _).trans (calm_processBalance _)
    | transfer => exact (calm_modify s _).trans (calm_markError _ _)
    | deposit => exact (calm_modify s _).trans (calm_markError _ _)
  · exact .refl s

theorem calm_submitAmount (s : Atm) (amount : Number) : Calm s (s.submitAmount amount) := by
  unfold submitAmount
  split
  · split
    · exact .refl s
    · split
      · exact (calm_modify s _).trans (calm_transitionTo _ _)
      · exact .refl s
  · exact .refl s

theorem calm_afterVerifyPin (s : Atm) (sid : Nat) (pan : String) (r : AuthResult) :
    Calm s (s.afterVerifyPin sid pan r) := by
  unfold afterVerifyPin
  split
  · exact ((calm_record s rfl).trans (calm_transitionTo _ _)).trans (calm_transitionTo _ _)
  · split
    · exact .refl s
    · split
      · exact (calm_modify s _).trans ((steady_calm _).retainCard _ (.refl _))
      · exact calm_modify s _

end Atm

end AtmXfs
