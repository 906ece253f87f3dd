import AtmXfs.Macro.Live

namespace AtmXfs.Macro

open Js Host Pin TwoRuns TwoRuns.Comp

/-- How many steps a call of `beginPinEntry` takes at most until its promise is settled. -/
def PinPhase.left : PinPhase → Nat
  | .arming => 8
  | .entering => 7
  | .logging => 6
  | .verifying .. => 5
  | .binning _ => 4
  | .binLogging _ => 3
  | .retaining .. => 2
  | .ending => 1
  | .returned _ => 0
  | .thrown _ => 0

theorem left_wake (phase : PinPhase) : phase.wake.left ≤ phase.left := by
  cases phase with
  | entering => exact Nat.le_succ 6
  | _ => exact le_rfl

theorem left_le (phase : PinPhase) : phase.left ≤ 8 := by
  cases phase <;> simp [PinPhase.left]

theorem left_verifyPinBuffer (s : AtmStack) : s.verifyPinBuffer.1.left ≤ 5 := by
  unfold AtmStack.verifyPinBuffer
  split
  · simp [PinPhase.left]
  · dsimp only
    split_ifs <;> simp [PinPhase.left]

theorem left_pinAnswered (result : AuthResult) (s : AtmStack) :
    (s.pinAnswered result).1.left ≤ 4 := by
  unfold AtmStack.pinAnswered
  split_ifs
  · simp [PinPhase.left]
  · split
    · simp [PinPhase.left]
    · dsimp only
      split_ifs <;> simp [PinPhase.left]

/-- Each step of a call brings its promise nearer. -/
theorem left_advance (P : Platform) (s : AtmStack) (phase : PinPhase) :
    (s.advance P phase).1.left ≤ phase.left - 1 := by
  cases phase with
  | arming =>
    unfold AtmStack.advance
    dsimp only
    split <;> simp [PinPhase.left]
  | logging => exact left_verifyPinBuffer s
  | verifying pan entered =>
    unfold AtmStack.advance
    dsimp only
    split
    · exact left_pinAnswered ..
    · simp [PinPhase.left]
  | binLogging reason =>
    unfold AtmStack.advance
    dsimp only
    split <;> simp [PinPhase.left]
  | retaining reason pan =>
    unfold AtmStack.advance
    dsimp only
    split
    · simp [PinPhase.left]
    · split_ifs <;> simp [PinPhase.left]
  | _ => simp [AtmStack.advance, PinPhase.left]

theorem entryCall_verifyPinBuffer (s : AtmStack) :
    s.verifyPinBuffer.2.entryCall = s.entryCall := by
  unfold AtmStack.verifyPinBuffer
  split <;> rfl

theorem entryCall_verifyPin (P : Platform) (pan : String) (entered : List Char) (s : AtmStack) :
    (AtmStack.verifyPin P pan entered s).2.entryCall = s.entryCall := by
  unfold AtmStack.verifyPin
  split
  · rfl
  · split <;> rfl

theorem entryCall_pinAnswered (result : AuthResult) (s : AtmStack) :
    (s.pinAnswered result).2.entryCall = s.entryCall := by
  unfold AtmStack.pinAnswered
  split_ifs
  · rfl
  · split <;> rfl

theorem entryCall_retainCard (pan : String) (s : AtmStack) :
    (AtmStack.retainCard pan s).2.entryCall = s.entryCall := by
  unfold AtmStack.retainCard
  split <;> rfl

/-- The call of the current step is where it was, or nearer to its end. -/
def Nearer (s t : AtmStack) : Prop :=
  ∀ phase, s.entryCall = some phase → ∃ next, t.entryCall = some next ∧ next.left ≤ phase.left

namespace Nearer

variable {s t u : AtmStack}

theorem of_eq (h : t.entryCall = s.entryCall) : Nearer s t :=
  fun phase hphase => ⟨phase, h.trans hphase, le_rfl⟩

theorem trans (h : Nearer s t) (h' : Nearer t u) : Nearer s u := by
  intro phase hphase
  obtain ⟨next, hnext, hle⟩ := h phase hphase
  obtain ⟨last, hlast, hle'⟩ := h' next hnext
  exact ⟨last, hlast, hle'.trans hle⟩

theorem withPad (s : AtmStack) (r : Pad Unit × Pin.Settled Unit) : Nearer s (s.withPad r) := by
  unfold AtmStack.withPad
  split_ifs
  · exact of_eq rfl
  · intro phase hphase
    exact ⟨phase.wake, congrArg (Option.map PinPhase.wake) hphase, left_wake phase⟩

theorem executeCommand {α : Type} (P : Platform) (device : XfsDevice)
    {command : AtmStack → Except String α × AtmStack} (h : Nearer s (command s).2) :
    Nearer s (AtmStack.executeCommand P device command s).2 := by
  unfold AtmStack.executeCommand Xfs.checkInjectedError
  split
  · exact of_eq rfl
  · exact h

theorem releaseCard (message : String) : Nearer s (AtmStack.releaseCard message s).2 := by
  unfold AtmStack.releaseCard
  split_ifs <;> exact of_eq rfl

theorem arm (P : Platform) (s : AtmStack) :
    Nearer s (AtmStack.executeCommand P .pin AtmStack.arm s).2 :=
  executeCommand P .pin (withPad s _)

/-- Whatever a call does, it ends at most the entry of another one. -/
theorem advance (P : Platform) (s : AtmStack) (phase : PinPhase) :
    Nearer s (s.advance P phase).2 := by
  cases phase with
  | arming =>
    have harm := arm P s
    unfold AtmStack.advance
    dsimp only
    split
    · next hrun => rwa [hrun] at harm
    · next hrun => rwa [hrun] at harm
  | entering => exact withPad s _
  | logging => exact of_eq (entryCall_verifyPinBuffer s)
  | verifying pan entered =>
    have hverified := entryCall_verifyPin P pan entered s
    refine of_eq ?_
    unfold AtmStack.advance
    dsimp only
    split
    · next hrun =>
      rw [hrun] at hverified
      exact (entryCall_pinAnswered ..).trans hverified
    · next hrun => rwa [hrun] at hverified
  | binning reason => exact executeCommand P .idc (releaseCard _)
  | binLogging reason =>
    refine of_eq ?_
    unfold AtmStack.advance
    dsimp only
    split <;> rfl
  | retaining reason pan =>
    have hretained := entryCall_retainCard pan s
    refine of_eq ?_
    unfold AtmStack.advance
    dsimp only
    split
    · next hrun => rwa [hrun] at hretained
    · next hrun =>
      rw [hrun] at hretained
      split_ifs <;> exact hretained
  | ending => exact of_eq rfl
  | returned verdict => exact of_eq rfl
  | thrown message => exact of_eq rfl

theorem putPinCall (s : AtmStack) (i : Nat) (phase : PinPhase) :
    Nearer s (s.putPinCall i phase) := by
  refine of_eq ?_
  cases phase <;> rfl

/-- A step of the call itself brings it strictly nearer. -/
theorem proceedEntry (P : Platform) {phase : PinPhase} (h : s.entryCall = some phase) :
    ∃ next, (s.proceedEntry P).entryCall = some next ∧ next.left ≤ phase.left - 1 := by
  unfold AtmStack.proceedEntry
  rw [h]
  exact ⟨(s.advance P phase).1, rfl, left_advance P s phase⟩

theorem happen (P : Platform) (s : AtmStack) (e : Happening) : Nearer s (s.happen P e) := by
  cases e with
  | idleTimeout =>
    refine of_eq ?_
    unfold AtmStack.happen
    dsimp only
    split_ifs <;> rfl
  | proceed i =>
    unfold AtmStack.happen
    dsimp only
    split
    · exact (executeCommand P .idc (releaseCard _)).trans (of_eq rfl)
    · split_ifs <;> exact of_eq rfl
    · exact of_eq rfl
    · exact of_eq rfl
  | pinCall i =>
    unfold AtmStack.happen
    dsimp only
    split
    · next phase _ =>
      have hput := putPinCall (s.advance P phase).2 i (s.advance P phase).1
      exact (advance P s phase).trans hput
    · exact of_eq rfl
  | entryCall =>
    intro phase hphase
    obtain ⟨next, hnext, hle⟩ := proceedEntry P hphase
    exact ⟨next, hnext, hle.trans (Nat.sub_le ..)⟩
  | takeTimer => exact of_eq rfl

theorem happenings (P : Platform) (events : List Happening) (s : AtmStack) :
    Nearer s (events.foldl (AtmStack.happen P) s) := by
  induction events generalizing s with
  | nil => exact of_eq rfl
  | cons e events ih => exact (happen P s e).trans (ih _)

end Nearer

/-- One turn of a step that awaits its call. -/
theorem awaitEntry_turn (P : Platform) (moments : Nat → Moment) (n : Nat) {s : AtmStack}
    {phase : PinPhase} (hphase : s.entryCall = some phase) (hleft : 0 < phase.left) :
    awaitEntry P moments (n + 1) s =
      awaitEntry P moments n ((await P moments s).2.proceedEntry P) := by
  have hread : awaitEntry P moments (n + 1) s = (do
      let _ ← await P moments
      writes (·.proceedEntry P)
      awaitEntry P moments n : Run PinVerdict) s := by
    rw [awaitEntry, bind_apply]
    simp only [reads, hphase]
    cases phase with
    | returned verdict => exact absurd hleft (Nat.lt_irrefl 0)
    | thrown message => exact absurd hleft (Nat.lt_irrefl 0)
    | _ => rfl
  rw [hread, bind_apply]
  rfl

/-- A step that awaits its call gets the answer: once there are more turns than the call has steps
left, another turn makes no difference. -/
theorem awaitEntry_succ (P : Platform) (moments : Nat → Moment) {n : Nat} {s : AtmStack}
    {phase : PinPhase} (hphase : s.entryCall = some phase) (hn : phase.left < n) :
    awaitEntry P moments (n + 1) s = awaitEntry P moments n s := by
  induction n generalizing s phase with
  | zero => exact absurd hn (Nat.not_lt_zero _)
  | succ n ih =>
    rcases Nat.eq_zero_or_pos phase.left with hsettled | hleft
    · rw [awaitEntry, awaitEntry, bind_apply, bind_apply]
      simp only [reads, hphase]
      cases phase with
      | returned verdict => rfl
      | thrown message => rfl
      | _ => exact absurd hsettled (Nat.succ_ne_zero _)
    · have hbefore : AtmStack.entryCall { s with clock := s.clock + 1 } = some phase := hphase
      obtain ⟨next, hnext, hnear⟩ := Nearer.happenings P (moments s.clock).happenings
        { s with clock := s.clock + 1 } phase hbefore
      have hawaited : (await P moments s).2.entryCall = some next := hnext
      obtain ⟨last, hlast, hle⟩ := Nearer.proceedEntry P hawaited
      rw [awaitEntry_turn P moments (n + 1) hphase hleft, awaitEntry_turn P moments n hphase hleft]
      exact ih hlast (by omega)

/-- Nine turns are enough for every call. -/
theorem awaitEntry_enough (P : Platform) (moments : Nat → Moment) {s : AtmStack}
    {phase : PinPhase} (hphase : s.entryCall = some phase) (k : Nat) :
    awaitEntry P moments (9 + k) s = awaitEntry P moments 9 s := by
  induction k with
  | zero => rfl
  | succ k ih =>
    have hleft := left_le phase
    have hmore : phase.left < 9 + k := by omega
    rw [← ih]
    exact awaitEntry_succ P moments hphase hmore

end AtmXfs.Macro
