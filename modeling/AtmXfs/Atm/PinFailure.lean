import AtmXfs.Atm.Steady
import AtmXfs.Lib.Runs

namespace AtmXfs

open Js Host Pin

/-- What the promise of `beginPinEntry` resolves with. -/
structure PinVerification where
  verified : Bool
  reason : Option String
  deriving DecidableEq

/-- Keys, timers and commands at the devices. -/
def AtmStep.atDevice : AtmStep → Bool
  | .pressKey _ | .entryTimeout _ | .pinCommand _ _ | .executeCommand _ _ => true
  | _ => false

/-- The devices, the database and the suspended handlers go on; nothing new is asked of the
session. -/
def AtmStep.alone : AtmStep → Bool
  | .pressKey _ | .entryTimeout _ | .pinCommand _ _ | .executeCommand _ _ | .writeRow _
  | .resume _ _ => true
  | _ => false

/-- What is left to await when a card is retained. -/
def Cont.retains : Cont → Bool
  | .cardRetained _ | .retainMarked _ | .ended _ _ => true
  | _ => false

namespace Atm

/-- What `verifyPinBuffer` returns without asking the host. -/
def verifyPinBufferReturns (s : Atm) : Option PinVerification :=
  match s.session with
  | none => some ⟨false, some "no session"⟩
  | some _ => if s.pin.pinBuffer = [] then some ⟨false, some "no pin entered"⟩ else none

/-- What it returns after the host has answered, at the latest once the card is retained; without
a session it throws. -/
def afterVerifyPinReturns (s : Atm) (r : AuthResult) : Option PinVerification :=
  if r.success then some ⟨true, none⟩
  else
    match s.current with
    | none => none
    | some session =>
      if 3 ≤ session.failedPinAttempts + 1 ∨ r.responseCode = "38" then
        some ⟨false, some "card retained"⟩
      else some ⟨false, r.reason⟩

/-- What a handler of `beginPinEntry` that is resumed returns. -/
def returns (s : Atm) : AtmStep → Option PinVerification
  | .resume i reply =>
    match s.tasks i, reply with
    | some ⟨.pinEntered, .replied _⟩, .done => s.verifyPinBufferReturns
    | some ⟨.pinVerified _ _ _, .pending⟩, .auth r => s.afterVerifyPinReturns r
    | _, _ => none
  | _ => none

/-- The state together with what `beginPinEntry` has returned. -/
def callStep (accountOf : String → String) (c : Atm × Option PinVerification) (a : AtmStep) :
    Option (Atm × Option PinVerification) :=
  (atmStep accountOf c.1 a).map fun t => (t, (c.1.returns a).or c.2)

/-- The session ended with an error, the reader gave the card up, the caller was told, and no
session waits for a PIN that nobody can enter. -/
structure FailedSafely (sid : Nat) (c : Atm × Option PinVerification) : Prop where
  ended : c.1.session ≠ some sid ∧ .sessionEnded sid .error ∈ c.1.log
  ejected : c.1.card = none
  told : c.2 = some ⟨false, some "pin entry failed or cancelled"⟩
  attended : ¬ ((c.1.current.any fun session => session.state = .pinEntry) = true ∧
    c.1.pin.active = none)

/-- The entry's own handler is the only one that is suspended, and the session is as it was. -/
structure Awaiting (s t : Atm) : Prop where
  session : t.session = s.session
  sessions : t.sessions = s.sessions
  card : t.card = s.card
  others : ∀ j, j ≠ s.nextTask → t.tasks j = none
  own : ∀ task, t.tasks s.nextTask = some task → task.cont = .pinEntered

/-- Where the call is once GET_PIN has failed: finished, while the session goes on; at the host with
the digits that were left; or on its way to retain the card. -/
inductive Outcome (sid : Nat) : Atm × Option PinVerification → Prop
  | finished {t result} (hsession : t.session = some sid) (htasks : ∀ j, t.tasks j = none) :
    Outcome sid (t, result)
  | verifying {t result} (i : Nat) (hsession : t.session = some sid)
    (htask : ∃ pan entered, t.tasks i = some ⟨.pinVerified sid pan entered, .pending⟩)
    (hothers : ∀ j, j ≠ i → t.tasks j = none) : Outcome sid (t, result)
  | retaining {t result} (htold : result = some ⟨false, some "card retained"⟩)
    (htasks : ∀ j task, t.tasks j = some task → task.cont.retains = true) :
    Outcome sid (t, result)

variable {accountOf : String → String} {s t u : Atm} {sid : Nat}

theorem awaiting_beginPinEntry (hidle : ∀ j, s.tasks j = none) : Awaiting s s.beginPinEntry := by
  have hpair : s.beginPinEntry = s ∨ s.beginPinEntry = s.suspend .pinEntered .issued := by
    unfold beginPinEntry
    split
    · exact Or.inr rfl
    · exact Or.inl rfl
  rcases hpair with hsame | hawait
  · rw [hsame]
    refine ⟨rfl, rfl, rfl, fun j _ => hidle j, ?_⟩
    intro task htask
    rw [hidle] at htask
    cases htask
  · rw [hawait]
    refine ⟨rfl, rfl, rfl, ?_, ?_⟩
    · intro j hj
      simp [suspend, Function.update_of_ne hj, hidle]
    · intro task htask
      simp only [suspend, Function.update_self] at htask
      cases htask
      rfl

theorem Awaiting.setTask (h : Awaiting s t) {i : Nat} {phase old : Phase}
    (htask : t.tasks i = some ⟨.pinEntered, old⟩) :
    Awaiting s (t.setTask i (some ⟨.pinEntered, phase⟩)) := by
  have hi : i = s.nextTask := by
    by_contra hne
    rw [h.others i hne] at htask
    cases htask
  refine ⟨h.session, h.sessions, h.card, ?_, ?_⟩
  · intro j hj
    have hji : j ≠ i := fun heq => hj (heq.trans hi)
    simp [Atm.setTask, Function.update_of_ne hji, h.others j hj]
  · intro task hnew
    rw [← hi] at hnew
    simp only [Atm.setTask, Function.update_self] at hnew
    cases hnew
    rfl

theorem Awaiting.usePad (h : Awaiting s t) (after : Pad (Option Nat) × Pin.Settled (Option Nat)) :
    Awaiting s (t.usePad after) := by
  apply usePad_keeps (P := Awaiting s)
  · intro v pin hv
    exact ⟨hv.session, hv.sessions, hv.card, hv.others, hv.own⟩
  · intro v i phase htask hv
    exact hv.setTask htask
  · exact h

/-- Until GET_PIN is answered, the devices do nothing to the session. -/
theorem Awaiting.step {a : AtmStep} (h : Awaiting s t) (ha : a.atDevice = true)
    (ht : atmStep accountOf t a = some u) : Awaiting s u := by
  cases a with
  | pressKey key =>
    cases ht
    exact h.usePad _
  | entryTimeout handle =>
    obtain ⟨after, -, hu⟩ := Option.map_eq_some_iff.mp ht
    rw [← hu]
    exact h.usePad _
  | pinCommand command injected =>
    cases ht
    exact h.usePad _
  | executeCommand i injected =>
    obtain ⟨cont, htask, hdone⟩ := executeCommand_cases ht
    have hi : i = s.nextTask := by
      by_contra hne
      rw [h.others i hne] at htask
      cases htask
    have hcont : cont = .pinEntered := h.own _ (hi ▸ htask)
    rcases hdone with ⟨rfl, rfl⟩ | ⟨hne, -⟩
    · exact (h.setTask htask).usePad _
    · exact absurd hcont hne
  | _ => cases ha

/-- GET_PIN has failed, and the handler goes on as if it had not: with the digits that are left. -/
theorem outcome_failed {detail : String} {c : Atm × Option PinVerification}
    (h : Awaiting s u) (hsession : s.session = some sid)
    (hfailed : u.tasks s.nextTask = some ⟨.pinEntered, .replied (some detail)⟩)
    (hresume : callStep accountOf (u, none) (.resume s.nextTask .done) = some c) :
    Outcome sid c := by
  obtain ⟨t, ht, rfl⟩ := Option.map_eq_some_iff.mp hresume
  obtain ⟨cont, phase, htask, -, hcontinue⟩ := resume_cases ht
  cases hfailed.symm.trans htask
  cases hcontinue
  have htasks : ∀ j, (u.setTask s.nextTask none).tasks j = none := by
    intro j
    by_cases hj : j = s.nextTask
    · rw [hj]
      simp [setTask]
    · simp [setTask, Function.update_of_ne hj, h.others j hj]
  have hcurrent : (u.setTask s.nextTask none).session = some sid := h.session.trans hsession
  generalize u.setTask s.nextTask none = v at htasks hcurrent
  unfold verifyPinBuffer
  rw [hcurrent]
  by_cases hdigits : v.pin.pinBuffer = []
  · simp only [hdigits, if_true]
    exact .finished hcurrent htasks
  · simp only [hdigits, if_false]
    refine .verifying v.nextTask hcurrent ⟨(v.sessions sid).cardPan, v.pin.pinBuffer, ?_⟩ ?_
    · simp [suspend, extractEnteredPin]
    · intro j hj
      simp only [suspend, extractEnteredPin]
      rw [Function.update_of_ne hj]
      exact htasks j

/-- A key, a timer or a command at the PIN pad changes no session and no handler other than one
that awaits the pad. -/
theorem usePad_tasks {P : Nat → Option Suspension → Prop}
    (hpad : ∀ i, ¬ P i (some ⟨.pinEntered, .entered⟩)) (htasks : ∀ i, P i (t.tasks i))
    (after : Pad (Option Nat) × Pin.Settled (Option Nat)) :
    (t.usePad after).session = t.session ∧ ∀ i, P i ((t.usePad after).tasks i) := by
  apply usePad_keeps (P := fun v => v.session = t.session ∧ ∀ i, P i (v.tasks i))
  · intro v pin hv
    exact hv
  · intro v i phase htask hv
    have hentered := hv.2 i
    rw [htask] at hentered
    exact absurd hentered (hpad i)
  · exact ⟨rfl, htasks⟩

/-- What a step that is nothing to the session does: the pad goes on, or a handler that was
suspended does. -/
theorem alone_cases {a : AtmStep} (ha : a.alone = true) (ht : atmStep accountOf t a = some u) :
    (∃ after, u = t.usePad after ∧ t.returns a = none) ∨
      (∃ i injected, a = .executeCommand i injected ∧ t.executeCommand i injected = some u) ∨
      (∃ i, a = .writeRow i ∧ t.writeRow i = some u) ∨
      ∃ i reply, a = .resume i reply := by
  cases a with
  | pressKey key =>
    cases ht
    exact Or.inl ⟨_, rfl, rfl⟩
  | entryTimeout handle =>
    obtain ⟨after, -, hu⟩ := Option.map_eq_some_iff.mp ht
    exact Or.inl ⟨after, hu.symm, rfl⟩
  | pinCommand command injected =>
    cases ht
    exact Or.inl ⟨_, rfl, rfl⟩
  | executeCommand i injected => exact Or.inr (Or.inl ⟨i, injected, rfl, ht⟩)
  | writeRow i => exact Or.inr (Or.inr (Or.inl ⟨i, rfl, ht⟩))
  | resume i reply => exact Or.inr (Or.inr (Or.inr ⟨i, reply, rfl⟩))
  | _ => cases ha

/-- With no handler left, the session goes on. -/
theorem Outcome.step_finished {a : AtmStep} {result : Option PinVerification}
    (hsession : t.session = some sid) (htasks : ∀ j, t.tasks j = none) (ha : a.alone = true)
    (ht : atmStep accountOf t a = some u) : Outcome sid (u, (t.returns a).or result) := by
  rcases alone_cases ha ht with ⟨after, rfl, -⟩ | ⟨i, injected, -, hi⟩ | ⟨i, -, hi⟩ | ⟨i, reply, rfl⟩
  · obtain ⟨hkept, hnone⟩ := usePad_tasks (P := fun _ task => task = none)
      (by simp) htasks after
    exact .finished (hkept.trans hsession) hnone
  · obtain ⟨cont, htask⟩ := executeCommand_issued hi
    rw [htasks] at htask
    cases htask
  · obtain ⟨sid', reason, htask, -⟩ := writeRow_ended hi
    rw [htasks] at htask
    cases htask
  · obtain ⟨cont, phase, htask, -⟩ := resume_cases ht
    rw [htasks] at htask
    cases htask

/-- The host's answer leaves the session where it can be seen, or the card is retained. -/
theorem outcome_afterVerifyPin {pan : String} {r : AuthResult} {result : Option PinVerification}
    (hsession : t.session = some sid) (htasks : ∀ j, t.tasks j = none) :
    Outcome sid (t.afterVerifyPin sid pan r, (t.afterVerifyPinReturns r).or result) := by
  unfold afterVerifyPin afterVerifyPinReturns
  by_cases hsuccess : r.success
  · simp only [hsuccess, if_true]
    apply Outcome.finished
    · simpa using hsession
    · simpa using htasks
  · have hcurrent : t.current = some (t.sessions sid) := by
      simp [current, hsession]
    simp only [hsuccess, Bool.false_eq_true, if_false, hcurrent]
    split
    · apply Outcome.retaining
      · rfl
      · intro j task htask
        have hmodified : ∀ f, (t.modify f).session = some sid := fun f =>
          (modify_session t f).trans hsession
        simp only [retainCard, hmodified] at htask
        rcases tasks_suspend htask with ⟨-, hnew⟩ | ⟨-, hold⟩
        · rw [hnew]
          rfl
        · rw [modify_tasks, htasks] at hold
          cases hold
    · apply Outcome.finished
      · simpa using hsession
      · simpa using htasks

theorem Outcome.step_verifying {a : AtmStep} {i : Nat} {result : Option PinVerification}
    (hsession : t.session = some sid)
    (hpin : ∃ pan entered, t.tasks i = some ⟨.pinVerified sid pan entered, .pending⟩)
    (hothers : ∀ j, j ≠ i → t.tasks j = none) (ha : a.alone = true)
    (ht : atmStep accountOf t a = some u) : Outcome sid (u, (t.returns a).or result) := by
  obtain ⟨pan, entered, hpin⟩ := hpin
  have honly : ∀ {j : Nat} {task : Suspension}, t.tasks j = some task →
      j = i ∧ task = ⟨.pinVerified sid pan entered, .pending⟩ := by
    intro j task htask
    have hj : j = i := by
      by_contra hne
      rw [hothers j hne] at htask
      cases htask
    rw [hj, hpin] at htask
    exact ⟨hj, (Option.some.inj htask).symm⟩
  rcases alone_cases ha ht with ⟨after, rfl, -⟩ | ⟨j, injected, -, hj⟩ | ⟨j, -, hj⟩ | ⟨j, reply, rfl⟩
  · obtain ⟨hkept, htasks⟩ := usePad_tasks
      (P := fun j task => if j = i then task = some ⟨.pinVerified sid pan entered, .pending⟩
        else task = none) (by intro j; split <;> simp)
      (by intro j; split
          · next hji => rw [hji]; exact hpin
          · next hji => exact hothers j hji) after
    refine .verifying i (hkept.trans hsession) ⟨pan, entered, ?_⟩ ?_
    · simpa using htasks i
    · intro j hji
      simpa [hji] using htasks j
  · obtain ⟨cont, htask⟩ := executeCommand_issued hj
    cases (honly htask).2
  · obtain ⟨sid', reason, htask, -⟩ := writeRow_ended hj
    cases (honly htask).2
  · obtain ⟨cont, phase, htask, -, hcontinue⟩ := resume_cases ht
    obtain ⟨rfl, htaskeq⟩ := honly htask
    cases htaskeq
    have hnone : ∀ k, (t.setTask j none).tasks k = none := by
      intro k
      by_cases hk : k = j
      · rw [hk]
        simp [setTask]
      · simp [setTask, Function.update_of_ne hk, hothers k hk]
    cases reply with
    | auth r =>
      have hreturns : t.returns (.resume j (.auth r)) =
          (t.setTask j none).afterVerifyPinReturns r := by
        simp only [returns, htask]
        rfl
      cases hcontinue
      rw [hreturns]
      exact outcome_afterVerifyPin hsession hnone
    | throws =>
      cases hcontinue
      exact .finished hsession hnone
    | done => cases hcontinue
    | authorization r => cases hcontinue
    | balance responseCode => cases hcontinue

theorem executeCommand_retains {i : Nat} {injected : Option String} {cont : Cont}
    (htask : t.tasks i = some ⟨cont, .issued⟩) (hretains : cont.retains = true)
    (ht : t.executeCommand i injected = some u) :
    ∃ card phase, u = { t with card }.setTask i (some ⟨cont, phase⟩) := by
  obtain ⟨cont', hissued, hdone⟩ := executeCommand_cases ht
  cases htask.symm.trans hissued
  obtain ⟨rfl, -⟩ | ⟨-, v, error, rfl, hv⟩ := hdone
  · cases hretains
  · rcases hv with ⟨rfl, -⟩ | ⟨a, amount, rfl, -⟩ | ⟨-, rfl⟩
    · exact ⟨v.card, _, rfl⟩
    · cases hretains
    · exact ⟨none, _, rfl⟩

theorem retains_suspend {cont : Cont} {phase : Phase} (hretains : cont.retains = true)
    (htasks : ∀ j task, t.tasks j = some task → task.cont.retains = true) :
    ∀ j task, (t.suspend cont phase).tasks j = some task → task.cont.retains = true := by
  intro j task htask
  rcases tasks_suspend htask with ⟨-, hnew⟩ | ⟨-, hold⟩
  · rw [hnew]
    exact hretains
  · exact htasks j task hold

theorem continueWith_retains {cont : Cont} {phase : Phase} {reply : Reply}
    (hretains : cont.retains = true)
    (htasks : ∀ j task, t.tasks j = some task → task.cont.retains = true)
    (ht : t.continueWith cont phase reply = some u) :
    ∀ j task, u.tasks j = some task → task.cont.retains = true := by
  have hretained : ∀ reason j task, (t.afterRetain reason).tasks j = some task →
      task.cont.retains = true := by
    intro reason
    unfold afterRetain
    split
    · exact htasks
    · exact retains_suspend rfl htasks
  have hmarked : ∀ reason j task, (t.afterRetainMarked reason).tasks j = some task →
      task.cont.retains = true := by
    intro reason
    unfold afterRetainMarked
    split
    · exact htasks
    · unfold endSession
      split
      · simpa using htasks
      · apply retains_suspend rfl
        simpa [clearIdleTimer] using htasks
  have hended : ∀ sid' reason j task, (t.afterEnded sid' reason).tasks j = some task →
      task.cont.retains = true := by
    intro sid' reason
    simpa [afterEnded] using htasks
  cases cont with
  | cardRetained reason =>
    cases phase <;> cases reply <;> cases ht <;> first | exact hretained reason | exact htasks
  | retainMarked reason =>
    cases phase <;> cases reply <;> cases ht <;> first | exact hmarked reason | exact htasks
  | ended sid' reason =>
    cases phase <;> cases reply <;> cases ht <;> first | exact hended sid' reason | exact htasks
  | _ => cases hretains

/-- The remaining awaits of a retained card end the session; they return nothing else. -/
theorem Outcome.step_retaining {a : AtmStep} {result : Option PinVerification}
    (htold : result = some ⟨false, some "card retained"⟩)
    (htasks : ∀ j task, t.tasks j = some task → task.cont.retains = true) (ha : a.alone = true)
    (ht : atmStep accountOf t a = some u) : Outcome sid (u, (t.returns a).or result) := by
  have hset : ∀ (v : Atm) (j : Nat) (new : Option Suspension),
      (∀ k task, v.tasks k = some task → task.cont.retains = true) →
      (∀ task, new = some task → task.cont.retains = true) →
      ∀ k task, (v.setTask j new).tasks k = some task → task.cont.retains = true := by
    intro v j new hv hnew k task htask
    rcases tasks_setTask htask with ⟨-, heq⟩ | ⟨-, hold⟩
    · exact hnew task heq
    · exact hv k task hold
  rcases alone_cases ha ht with ⟨after, rfl, hreturns⟩ | ⟨j, injected, rfl, hj⟩ | ⟨j, rfl, hj⟩ |
    ⟨j, reply, rfl⟩
  · rw [hreturns]
    refine .retaining htold ?_
    have hpad := usePad_tasks (P := fun _ task => ∀ x, task = some x → x.cont.retains = true)
      (fun j h => absurd (h _ rfl) (by decide)) htasks after
    exact hpad.2
  · obtain ⟨cont, htask⟩ := executeCommand_issued hj
    have hretains := htasks j _ htask
    refine .retaining htold ?_
    obtain ⟨card, phase, rfl⟩ := executeCommand_retains htask hretains hj
    exact hset { t with card } j _ htasks (fun task h => by cases h; exact hretains)
  · obtain ⟨sid', reason, htask, rfl⟩ := writeRow_ended hj
    exact .retaining htold (hset _ j _ htasks (fun task h => by cases h; rfl))
  · obtain ⟨cont, phase, htask, -, hcontinue⟩ := resume_cases ht
    have hretains := htasks j _ htask
    have hrest : ∀ k task, (t.setTask j none).tasks k = some task → task.cont.retains = true :=
      hset t j none htasks (fun task h => by cases h)
    have hreturns : t.returns (.resume j reply) = none := by
      simp only [returns, htask]
      cases cont with
      | cardRetained reason => rfl
      | retainMarked reason => rfl
      | ended sid' reason => rfl
      | _ => cases hretains
    rw [hreturns]
    exact .retaining htold (continueWith_retains hretains hrest hcontinue)

theorem Outcome.step {c c' : Atm × Option PinVerification} {a : AtmStep} (h : Outcome sid c)
    (ha : a.alone = true) (hc : callStep accountOf c a = some c') : Outcome sid c' := by
  obtain ⟨u, hu, rfl⟩ := Option.map_eq_some_iff.mp hc
  cases h with
  | finished hsession htasks => exact step_finished hsession htasks ha hu
  | verifying i hsession htask hothers => exact step_verifying hsession htask hothers ha hu
  | retaining htold htasks => exact step_retaining htold htasks ha hu

/-- Either the session has not ended, or the caller was told something else. -/
theorem Outcome.not_failedSafely {c : Atm × Option PinVerification} (h : Outcome sid c) :
    ¬ FailedSafely sid c := by
  intro hsafe
  cases h with
  | finished hsession htasks => exact hsafe.ended.1 hsession
  | verifying i hsession htask hothers => exact hsafe.ended.1 hsession
  | retaining htold htasks => exact absurd (hsafe.told.symm.trans htold) (by decide)

/-- However the GET_PIN of `beginPinEntry` ends without a PIN, and whatever the devices and the
host do then, the call never ends the session with an error and reports the failure. -/
theorem beginPinEntry_never_failsSafely (accountOf : String → String) {s u : Atm} {sid : Nat}
    (hidle : ∀ j, s.tasks j = none) (hsession : s.session = some sid) {entry : List AtmStep}
    (hentry : ∀ a ∈ entry, a.atDevice = true)
    (hrun : Runs.exec (atmStep accountOf) s.beginPinEntry entry = some u) {detail : String}
    (hfailed : u.tasks s.nextTask = some ⟨.pinEntered, .replied (some detail)⟩)
    {rest : List AtmStep} (hrest : ∀ a ∈ rest, a.alone = true)
    {c : Atm × Option PinVerification}
    (hcall : Runs.exec (callStep accountOf) (u, none) (.resume s.nextTask .done :: rest) = some c) :
    ¬ FailedSafely sid c := by
  have hentered : Runs.Reaches (atmStep accountOf) (fun _ a => a.atDevice = true)
      s.beginPinEntry u := ⟨entry, Runs.along_of_forall _ _ hentry, hrun⟩
  have hawaiting : Awaiting s u := Runs.Reaches.invariant (fun v a w hv ha hw => hv.step ha hw)
    (awaiting_beginPinEntry hidle) hentered
  obtain ⟨c₀, hc₀, htail⟩ := Option.bind_eq_some_iff.mp hcall
  have hgone : Runs.Reaches (callStep accountOf) (fun _ a => a.alone = true) c₀ c :=
    ⟨rest, Runs.along_of_forall _ _ hrest, htail⟩
  have houtcome : Outcome sid c := Runs.Reaches.invariant (fun d a e hd ha he => hd.step ha he)
    (outcome_failed hawaiting hsession hfailed hc₀) hgone
  exact houtcome.not_failedSafely

/-- A customer is asked for the PIN, and nothing else goes on. -/
def waitingForPin : Atm :=
  { Atm.init with
    sessions := fun _ => { AtmSession.fresh "4580" with state := .pinEntry }
    nextSession := 1
    session := some 0
    idleTimer := some 0
    card := some 0 }

/-- The customer presses CANCEL. -/
theorem cancelled_never_failsSafely :
    ∃ u c, Runs.exec (atmStep fun _ => "ACC") waitingForPin.beginPinEntry
        [.executeCommand 0 none, .pressKey "1", .pressKey "CANCEL"] = some u ∧
      Runs.exec (callStep fun _ => "ACC") (u, none) [.resume 0 .done] = some c ∧
      ¬ FailedSafely 0 c := by
  have hrun : (Runs.exec (atmStep fun _ => "ACC") waitingForPin.beginPinEntry
      [.executeCommand 0 none, .pressKey "1", .pressKey "CANCEL"]).any (fun u =>
        u.tasks 0 = some ⟨.pinEntered, .replied (some "user cancelled")⟩ ∧
          (Runs.exec (callStep fun _ => "ACC") (u, none) [.resume 0 .done]).isSome) = true := by
    decide +kernel
  obtain ⟨u, hu, hend⟩ := (Option.any_eq_true ..).mp hrun
  obtain ⟨hfailed, hresumes⟩ := of_decide_eq_true hend
  obtain ⟨c, hc⟩ := Option.isSome_iff_exists.mp hresumes
  refine ⟨u, c, hu, hc, ?_⟩
  exact beginPinEntry_never_failsSafely _ (s := waitingForPin) (fun _ => rfl) rfl (by decide) hu
    hfailed (fun _ h => absurd h List.not_mem_nil) hc

end Atm

/-- A card is inserted and authenticated; the customer types two digits and presses CANCEL. -/
def cancelledEntry : List AtmStep :=
  [.onCardInserted "4580", .resume 0 .done, .executeCommand 1 none, .resume 1 .done,
   .resume 2 (.auth ⟨true, some "ACC", "00", none⟩), .beginPinEntry, .executeCommand 3 none,
   .pressKey "1", .pressKey "2", .pressKey "CANCEL", .resume 3 .done]

theorem cancelledEntry_stuck :
    ∃ c, Runs.exec (Atm.callStep fun _ => "ACC") (Atm.init, none) cancelledEntry = some c ∧
      c.2 = some ⟨false, some "no pin entered"⟩ ∧ c.1.session = some 0 ∧
      (c.1.sessions 0).state = .pinEntry ∧ c.1.pin.active = none ∧ c.1.card = some 0 ∧
      ¬ Atm.FailedSafely 0 c := by
  have hrun : (Runs.exec (Atm.callStep fun _ => "ACC") (Atm.init, none) cancelledEntry).any
      (fun c => c.2 = some ⟨false, some "no pin entered"⟩ ∧ c.1.session = some 0 ∧
        (c.1.sessions 0).state = .pinEntry ∧ c.1.pin.active = none ∧ c.1.card = some 0) = true := by
    decide +kernel
  obtain ⟨c, hc, hend⟩ := (Option.any_eq_true ..).mp hrun
  obtain ⟨htold, hsession, hstate, hactive, hcard⟩ := of_decide_eq_true hend
  refine ⟨c, hc, htold, hsession, hstate, hactive, hcard, ?_⟩
  intro hsafe
  exact hsafe.ended.1 hsession

end AtmXfs
