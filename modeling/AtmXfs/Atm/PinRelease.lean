import AtmXfs.Atm.Steady
import AtmXfs.Pin.Release

namespace AtmXfs

open Js Host Pin

/-- What a step makes the PIN pad do. -/
def padOp (s : Atm) : AtmStep → Option (PadOp (Option Nat))
  | .verifyPinBuffer => s.session.map fun _ => .extract
  | .pressKey key => some (.pressKey key)
  | .entryTimeout handle => some (.timeout handle)
  | .pinCommand command injected => some (.executeCommand command none injected)
  | .executeCommand i injected =>
    match s.tasks i with
    | some ⟨.pinEntered, .issued⟩ =>
      some (.executeCommand (.getPin Atm.pinEntrySpec) (some i) injected)
    | _ => none
  | .resume i .done =>
    match s.tasks i with
    | some ⟨.pinEntered, .replied _⟩ => s.session.map fun _ => .extract
    | _ => none
  | _ => none

namespace Atm

variable (s : Atm)

@[simp] theorem modify_pin (f : AtmSession → AtmSession) : (s.modify f).pin = s.pin := by
  unfold modify
  split <;> rfl

@[simp] theorem transitionTo_pin (next : AtmState) : (s.transitionTo next).pin = s.pin := by
  unfold transitionTo
  split
  · rfl
  · exact s.modify_pin _

@[simp] theorem suspend_pin (cont : Cont) (phase : Phase) : (s.suspend cont phase).pin = s.pin :=
  rfl

@[simp] theorem setTask_pin (i : Nat) (task : Option Suspension) :
    (s.setTask i task).pin = s.pin := rfl

@[simp] theorem record_pin (act : Act) : (s.record act).pin = s.pin := rfl

@[simp] theorem notifyState_pin : s.notifyState.pin = s.pin := by
  unfold notifyState
  split <;> rfl

@[simp] theorem safeEject_pin (reason : EndReason) : (s.safeEject reason).pin = s.pin := rfl

@[simp] theorem failSession_pin (msg : String) (reason : EndReason) :
    (s.failSession msg reason).pin = s.pin := by
  unfold failSession
  split
  · rfl
  · simp

@[simp] theorem endSession_pin (reason : EndReason) : (s.endSession reason).pin = s.pin := by
  unfold endSession
  split
  · rfl
  · simp [clearIdleTimer]

@[simp] theorem processBalance_pin : s.processBalance.pin = s.pin := by
  unfold processBalance
  split
  · rfl
  · simp

@[simp] theorem processWithdrawal_pin : s.processWithdrawal.pin = s.pin := by
  unfold processWithdrawal
  split
  · rfl
  · split <;> rfl

theorem selectTransaction_pin (txn : TxnType) : (s.selectTransaction txn).pin = s.pin := by
  unfold selectTransaction
  split
  · cases txn <;> simp [markError]
  · rfl

theorem submitAmount_pin (amount : Number) : (s.submitAmount amount).pin = s.pin := by
  unfold submitAmount
  split
  · split
    · rfl
    · split
      · simp
      · rfl
  · rfl

theorem confirmTransaction_pin : s.confirmTransaction.pin = s.pin := by
  unfold confirmTransaction
  split
  · rfl
  · split
    · rfl
    · split
      · simp
      · simp [markError]

/-- No handler but the one that awaits the PIN touches the pad. -/
theorem continueWith_pin {s t : Atm} {cont : Cont} {phase : Phase} {reply : Reply}
    (hcont : cont ≠ .pinEntered) (ht : s.continueWith cont phase reply = some t) :
    t.pin = s.pin := by
  unfold Atm.continueWith at ht
  split at ht <;> cases ht
  · unfold afterInserted
    split
    · simp [markError]
    · simp
  · unfold afterTrackRead
    split
    · simp [markError]
    · simp
  · unfold afterAuthenticate
    split
    · simp [setAccount]
    · simp [markError]
  · exact absurd rfl hcont
  · unfold afterVerifyPin retainCard
    split
    · simp
    · split
      · rfl
      · split
        · split
          · simp
          · simp
        · simp
  · unfold afterAuthorize
    split
    · split
      · rfl
      · simp
    · simp [markError]
  · unfold afterDispenseError
    split <;> rfl
  · unfold afterDispense
    split
    · simp
    · simp
  · simp [markError]
  · simp [afterReceipt]
  · unfold afterBalance
    split
    · split
      · rfl
      · simp
    · simp [markError]
  · unfold afterRetain
    split <;> rfl
  · unfold afterRetainMarked
    split
    · rfl
    · simp
  · simp
  · simp
  · simp [afterEnded]
  · rfl
  · rfl

theorem answer_pin (settled : Option Nat × Except String Pin.Answer) :
    (s.answer settled).pin = s.pin := by
  unfold answer
  split
  · rfl
  · split
    · split <;> rfl
    · rfl

@[simp] theorem usePad_pin (after : Pad (Option Nat) × Pin.Settled (Option Nat)) :
    (s.usePad after).pin = after.1 := by
  have hanswers : ∀ (settled : Pin.Settled (Option Nat)) (u : Atm),
      (settled.foldl answer u).pin = u.pin := by
    intro settled
    induction settled with
    | nil => exact fun u => rfl
    | cons first rest ih => exact fun u => (ih _).trans (u.answer_pin first)
  exact hanswers after.2 _

theorem verifyPinBuffer_pin :
    s.verifyPinBuffer.pin = (s.session.map fun _ => PadOp.extract).elim s.pin s.pin.after := by
  unfold verifyPinBuffer
  split
  · next hsession => simp [hsession]
  · next sid hsession =>
    simp only [hsession, Option.map_some, Option.elim_some]
    split
    · rfl
    · rfl

end Atm

/-- A step makes the pad do what `padOp` says, and nothing else. -/
theorem pin_step {accountOf : String → String} {s t : Atm} {a : AtmStep}
    (ht : atmStep accountOf s a = some t) : t.pin = (padOp s a).elim s.pin s.pin.after := by
  cases a with
  | onCardInserted pan =>
    cases ht
    simp only [padOp, Option.elim_none, Atm.onCardInserted]
    split <;> rfl
  | beginPinEntry =>
    cases ht
    simp only [padOp, Option.elim_none, Atm.beginPinEntry]
    split <;> rfl
  | verifyPinBuffer => cases ht; exact s.verifyPinBuffer_pin
  | selectTransaction txn => cases ht; exact s.selectTransaction_pin txn
  | submitAmount amount => cases ht; exact s.submitAmount_pin amount
  | confirmTransaction => cases ht; exact s.confirmTransaction_pin
  | cancelTransaction =>
    cases ht
    simp only [padOp, Option.elim_none, Atm.cancelTransaction]
    split <;> rfl
  | pressKey key => cases ht; exact s.usePad_pin _
  | entryTimeout handle =>
    obtain ⟨after, hafter, rfl⟩ := Option.map_eq_some_iff.mp ht
    simp [padOp, Pad.after, hafter]
  | pinCommand command injected => cases ht; exact s.usePad_pin _
  | idleTimeout =>
    obtain ⟨sid, -, ⟨-, rfl⟩ | ⟨-, rfl⟩⟩ := idleTimeout_cases ht
    · exact Atm.failSession_pin _ _ _
    · rfl
  | executeCommand i injected =>
    obtain ⟨cont, htask, ⟨rfl, rfl⟩ | ⟨hcont, v, error, rfl, hv⟩⟩ := Atm.executeCommand_cases ht
    · simp [padOp, htask, Pad.after]
    · have hnone : padOp s (.executeCommand i injected) = none := by
        simp only [padOp, htask]
        split
        · next hentered =>
          cases hentered
          exact absurd rfl hcont
        · rfl
      rw [hnone]
      rcases hv with ⟨rfl, -⟩ | ⟨a, amount, -, rfl⟩ | ⟨-, rfl⟩
      · rfl
      · rfl
      · rfl
  | writeRow i =>
    obtain ⟨sid, reason, -, rfl⟩ := Atm.writeRow_ended ht
    rfl
  | resume i reply =>
    obtain ⟨cont, phase, htask, -, hgoes⟩ := resume_cases ht
    by_cases hcont : cont = .pinEntered
    · subst hcont
      cases phase <;> cases reply <;> cases hgoes
      · simp [padOp]
      · simpa [padOp, htask] using (s.setTask i none).verifyPinBuffer_pin
    · have hnone : padOp s (.resume i reply) = none := by
        cases reply <;> simp only [padOp, htask]
        split
        · next hentered =>
          cases hentered
          exact absurd rfl hcont
        · rfl
      rw [hnone]
      exact Atm.continueWith_pin (s := s.setTask i none) hcont hgoes

/-- Digits are extracted or encrypted only where none are being typed, and entries have sound
bounds. -/
def discreet (s : Atm) (a : AtmStep) : Bool := (padOp s a).all s.pin.discreet

theorem sealed_step {accountOf : String → String} (s : Atm) (a : AtmStep) (t : Atm)
    (h : Sealed s.pin) (hok : discreet s a = true) (ht : atmStep accountOf s a = some t) :
    Sealed t.pin := by
  rw [pin_step ht]
  cases hop : padOp s a with
  | none => exact h
  | some op =>
    rw [discreet, hop] at hok
    exact sealed_after h hok

/-- In every run that asks the PIN pad for digits only while none are being typed, all digits that
leave it are those of an entry of a PIN that has just terminated, and lie between its bounds. -/
theorem releasedWhole_of_reaches {accountOf : String → String} {s : Atm}
    (h : Runs.Reaches (atmStep accountOf) (fun s a => discreet s a) Atm.init s) :
    Runs.Each releasedWhole s.pin.log := by
  have hsealed : Sealed s.pin :=
    Runs.Reaches.invariant (P := fun s => Sealed s.pin) sealed_step sealed_init h
  exact hsealed.released

theorem releasedWhole_of_toVerification :
    ∃ s, Runs.exec (atmStep fun _ => "ACC") Atm.init (toVerification "4580" 0) = some s ∧
      s.pin.log.head? = some (.extracted ['1', '2', '3', '4']) ∧
      Runs.Each releasedWhole s.pin.log := by
  have hrun : (Runs.exec (atmStep fun _ => "ACC") Atm.init (toVerification "4580" 0)).any (fun s =>
      s.pin.log.head? = some (.extracted ['1', '2', '3', '4'])) = true := by decide +kernel
  obtain ⟨s, hs, hend⟩ := (Option.any_eq_true ..).mp hrun
  have halong : Runs.Along (atmStep fun _ => "ACC") (fun s a => discreet s a) Atm.init
      (toVerification "4580" 0) := by decide +kernel
  exact ⟨s, hs, of_decide_eq_true hend, releasedWhole_of_reaches ⟨_, halong, hs⟩⟩

/-- A second entry supersedes the first, whose handler goes on while a digit has been typed. -/
def superseded : List AtmStep :=
  [.onCardInserted "4580", .resume 0 .done, .executeCommand 1 none, .resume 1 .done,
   .resume 2 (.auth ⟨true, some "ACC", "00", none⟩), .beginPinEntry, .beginPinEntry,
   .executeCommand 3 none, .executeCommand 4 none, .pressKey "1", .resume 3 .done]

/-- The host is asked to verify the one digit of the entry that is still active. -/
theorem released_while_typing :
    ∃ s, Runs.Reaches (atmStep fun _ => "ACC") Runs.free Atm.init s ∧
      s.pin.log = [.extracted ['1'], .began Atm.pinEntrySpec .pin, .cancelled "superseded",
        .began Atm.pinEntrySpec .pin] ∧
      s.tasks 5 = some ⟨.pinVerified 0 "4580" ['1'], .pending⟩ ∧
      ¬ Runs.Each releasedWhole s.pin.log := by
  have hrun : (Runs.exec (atmStep fun _ => "ACC") Atm.init superseded).any (fun s =>
      s.pin.log = [.extracted ['1'], .began Atm.pinEntrySpec .pin, .cancelled "superseded",
        .began Atm.pinEntrySpec .pin] ∧
      s.tasks 5 = some ⟨.pinVerified 0 "4580" ['1'], .pending⟩) = true := by decide +kernel
  obtain ⟨s, hs, hend⟩ := (Option.any_eq_true ..).mp hrun
  obtain ⟨hlog, htask⟩ := of_decide_eq_true hend
  refine ⟨s, .of_exec superseded hs, hlog, htask, ?_⟩
  intro hreleased
  rw [hlog] at hreleased
  obtain ⟨spec, rest, heq, -⟩ := hreleased.1 (by decide)
  cases heq

end AtmXfs
