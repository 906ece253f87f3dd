import AtmXfs.Macro.Leftovers

namespace AtmXfs.Macro

open Js Host Pin TwoRuns TwoRuns.Comp

section
variable {α β : Type} {P : Platform} {moments : Nat → Moment}

theorem twin_session? {f : LiveSession → α} (hf : ∀ a, f a.plain = f a) :
    Respects Alike (session? f) := Twin.reads fun _ _ h => h.map_session hf

theorem twin_session! {f : LiveSession → α} (hf : ∀ a, f a.plain = f a) :
    Respects Alike (session! f) := by
  apply (twin_session? hf).andThen
  intro a
  cases a with
  | none => exact .throw _ _
  | some a => exact .pure rfl

theorem twin_requireState (state : AtmState) (doing : String) :
    Respects Alike (requireState state doing) := by
  apply (twin_session? fun _ => rfl).andThen
  intro current
  exact .ensure rfl _ _

theorem twin_modify {f : LiveSession → LiveSession} (hf : ∀ a, (f a).plain = (f a.plain).plain) :
    Respects Alike (writes (·.modify f) : Run Unit) := .writes rfl fun _ _ h => h.update hf

theorem twin_transitionTo (next : AtmState) :
    Respects Alike (writes (·.transitionTo next) : Run Unit) :=
  .writes rfl fun _ _ h => h.transitionTo next

/-- What goes on beside the runner goes on in both runs. -/
theorem twin_await : Respects Alike (await P moments) := by
  apply Twin.swaps
  intro s t h
  have hclock : Alike { s with clock := s.clock + 1 } { t with clock := t.clock + 1 } :=
    { h with clock := congrArg (· + 1) h.clock }
  have hevents : ∀ (events : List Happening) (s t : AtmStack), Alike s t →
      Alike (events.foldl (AtmStack.happen P) s) (events.foldl (AtmStack.happen P) t) := by
    intro events
    induction events with
    | nil => exact fun _ _ h => h
    | cons e events ih => exact fun s t h => ih _ _ (h.happen P e)
  refine ⟨congrArg moments h.clock, ?_⟩
  rw [h.clock]
  exact hevents _ _ _ (h.clock ▸ hclock)

theorem twin_execute {Q : α → β → Prop} {device : XfsDevice} (hdevice : device ≠ .ptr)
    {c : Moment → AtmStack → Except String α × AtmStack}
    {d : Moment → AtmStack → Except String β × AtmStack}
    (hc : ∀ m s t, Alike s t → Ends Q (c m s).1 (d m t).1 ∧ Alike (c m s).2 (d m t).2) :
    Twin Alike (Ends Q) (execute P moments device c) (execute P moments device d) := by
  apply twin_await.andThen
  intro m
  have hcommand : Twin Alike (Ends Q)
      (swaps (AtmStack.executeCommand P device (c m)) : Run (Except String α))
      (swaps (AtmStack.executeCommand P device (d m))) :=
    .swaps fun s t h => h.executeCommand P hdevice (hc m s t h)
  apply hcommand.bind
  intro r q hends
  exact twin_await.andThen fun _ => .pure hends

theorem twin_print (payload : Ptr.PtrPrintFormPayload) :
    Twin Alike (fun _ _ => True)
      (execute P moments .ptr fun m => AtmStack.printForm m.stamp payload)
      (execute P moments .ptr fun m => AtmStack.printForm m.stamp payload) := by
  apply twin_await.andThen
  intro m
  have hcommand : Twin Alike (fun _ _ => True)
      (swaps (AtmStack.executeCommand P .ptr (AtmStack.printForm m.stamp payload)) :
        Run (Except String Unit))
      (swaps (AtmStack.executeCommand P .ptr (AtmStack.printForm m.stamp payload))) :=
    .swaps fun s t h => ⟨trivial, h.printForm P m.stamp payload⟩
  apply hcommand.bind
  intro _ _ _
  exact twin_await.andThen fun _ => .pure trivial

theorem twin_isSome_session : Respects Alike (reads (·.session.isSome) : Run Bool) :=
  .reads fun _ _ h => h.isSome_session

theorem twin_safeEject : Respects Alike (safeEject P moments) := by
  have hcard : Respects Alike (reads (·.card.isSome) : Run Bool) := .reads fun _ _ h => h.card
  apply hcard.andThen
  intro held
  cases held with
  | true =>
    have heject : Twin Alike (Ends Eq) (execute P moments .idc fun _ => AtmStack.ejectCard)
        (execute P moments .idc fun _ => AtmStack.ejectCard) :=
      twin_execute (by decide) fun _ _ _ h => h.releaseCard "No card to eject"
    apply heject.bind
    intro _ _ _
    exact .pure rfl
  | false => exact .pure rfl

theorem twin_endSession (reason : EndReason) : Respects Alike (endSession P moments reason) := by
  apply twin_isSome_session.andThen
  intro active
  cases active with
  | true =>
    have hbegin : Respects Alike (writes (·.beginEnd reason) : Run Unit) :=
      .writes rfl fun _ _ h => h.beginEnd reason
    apply hbegin.andThen
    intro _
    apply twin_await.andThen
    intro _
    exact .writes rfl fun _ _ h => h.finishEnd
  | false => exact .pure rfl

theorem twin_fail (msg msg' : String) :
    Twin Alike Eq (writes (·.fail msg) : Run Unit) (writes (·.fail msg')) :=
  .writes rfl fun _ _ h => h.fail msg msg'

theorem twin_markError (msg msg' : String) :
    Twin Alike Eq (markError P moments msg) (markError P moments msg') := by
  apply twin_isSome_session.andThen
  intro active
  cases active with
  | true =>
    apply (twin_fail msg msg').andThen
    intro _
    exact twin_safeEject.andThen fun _ => twin_endSession .error
  | false => exact .pure rfl

theorem twin_onCardInserted (pan : String) : Respects Alike (onCardInserted P moments pan) := by
  have hfree : Respects Alike (reads (·.session.isNone) : Run Bool) :=
    .reads fun s t h => by rw [← Option.not_isSome, ← Option.not_isSome, h.isSome_session]
  apply hfree.andThen
  intro free
  apply (Twin.ensure rfl _ _).andThen
  intro _
  apply (Twin.writes rfl fun s t h => { h with session := by rw [h.clock] }).andThen
  intro _
  apply twin_await.andThen
  intro _
  apply (Twin.writes rfl fun _ _ h => h.notifyState).andThen
  intro _
  apply (Twin.swaps fun _ _ h => h.insertCard pan).andThen
  intro inserted
  cases inserted with
  | true =>
    apply (twin_execute (by decide) fun _ _ _ h => h.readTrack).outcome
    · exact fun _ _ => twin_markError _ _
    · intro _ _ _
      apply twin_await.andThen
      intro m
      apply (Twin.reads fun _ _ h => h.authenticate m.now pan).andThen
      intro auth
      split_ifs
      · apply (twin_modify fun _ => rfl).andThen
        exact fun _ => twin_transitionTo .pinEntry
      · exact twin_markError _ _
  | false => exact twin_markError _ _

theorem twin_beginPinEntry : Respects Alike beginPinEntry := by
  apply (twin_session? fun _ => rfl).andThen
  intro current
  exact .writes rfl fun _ _ h => { h with entryCall := rfl }

theorem twin_abandonEntry : Respects Alike (writes (·.abandonEntry) : Run Unit) :=
  .writes rfl fun _ _ h => h.abandonEntry

theorem twin_awaitEntry (n : Nat) : Respects Alike (awaitEntry P moments n) := by
  induction n with
  | zero => exact .throw _ _
  | succ n ih =>
    have hcall : Respects Alike (reads (·.entryCall) : Run (Option PinPhase)) :=
      .reads fun _ _ h => h.entryCall
    have hproceed : Respects Alike (do
        let _ ← await P moments
        writes (·.proceedEntry P)
        awaitEntry P moments n) := by
      apply twin_await.andThen
      intro _
      apply (Twin.writes rfl fun _ _ h => h.proceedEntry P).andThen
      exact fun _ => ih
    apply hcall.andThen
    intro call
    split
    · exact twin_abandonEntry.andThen fun _ => .pure rfl
    · exact twin_abandonEntry.andThen fun _ => .throw _ _
    · exact hproceed

theorem twin_printAndEnd (fields : List (String × Text)) :
    Respects Alike (printAndEnd P moments fields) := by
  apply (twin_print (receiptFields fields)).bind
  intro _ _ _
  apply (twin_transitionTo .ejecting).andThen
  intro _
  exact twin_safeEject.andThen fun _ => twin_endSession .completed

theorem twin_processBalance : Respects Alike (processBalance P moments) := by
  apply (twin_transitionTo .processing).andThen
  intro _
  apply (twin_session! fun _ => rfl).andThen
  intro pan
  apply twin_await.andThen
  intro _
  apply (Twin.reads fun _ _ h => h.getBalance pan).andThen
  intro balance
  split_ifs
  · apply (twin_transitionTo .printing).andThen
    intro _
    apply (twin_session! fun _ => rfl).andThen
    exact fun _ => twin_printAndEnd _
  · exact twin_markError _ _

theorem twin_afterDispenseError (stanNo detail detail' : String) :
    Twin Alike Eq (afterDispenseError P moments stanNo detail)
      (afterDispenseError P moments stanNo detail') := by
  apply (twin_session! fun _ => rfl).andThen
  intro session
  apply twin_await.andThen
  intro m
  split
  · next accountId amount _ _ =>
    apply (Twin.swaps fun _ _ h => h.reverseTransaction m.now
      ⟨stanNo, session.1, session.2.1, accountId, .ofInt amount, detail⟩ detail').andThen
    intro committed
    apply (Twin.ensure rfl _ _).andThen
    exact fun _ => twin_markError _ _
  · exact .throw _ _

theorem twin_processWithdrawal : Respects Alike (processWithdrawal P moments) := by
  apply (twin_session? fun _ => rfl).andThen
  intro current
  split
  · next id pan amount =>
    apply twin_await.andThen
    intro m
    apply (Twin.swaps fun _ _ h => h.authorizeWithdrawal m.now m.token
      ⟨pan, .ofInt amount, id, none⟩).andThen
    intro auth
    split_ifs
    · apply (twin_session! fun _ => rfl).andThen
      intro held
      apply (twin_modify fun _ => rfl).andThen
      intro _
      apply (twin_transitionTo .dispensing).andThen
      intro _
      apply (twin_execute (by decide) fun _ _ _ h => h.dispense P held).outcome
      · exact fun detail detail' => twin_afterDispenseError auth.stanNo detail detail'
      · intro _ _ _
        apply (twin_transitionTo .printing).andThen
        intro _
        apply (twin_session! fun _ => rfl).andThen
        intro session
        split
        · exact .throw _ _
        · exact twin_printAndEnd _
    · exact twin_markError _ _
  · exact .pure rfl

theorem twin_selectTransaction (txn : Text) :
    Respects Alike (selectTransaction P moments txn) := by
  apply (twin_requireState _ _).andThen
  intro _
  apply (twin_modify fun _ => rfl).andThen
  intro _
  split_ifs
  · exact twin_processBalance
  · exact twin_transitionTo .amountEntry
  · exact twin_markError _ _

theorem twin_submitAmount (amount : Number) : Respects Alike (submitAmount amount) := by
  apply (twin_requireState _ _).andThen
  intro _
  split
  · apply (Twin.ensure rfl _ _).andThen
    intro _
    exact (twin_modify fun _ => rfl).andThen fun _ => twin_transitionTo .confirm
  · exact .throw _ _

theorem twin_confirmTransaction : Respects Alike (confirmTransaction P moments) := by
  apply (twin_requireState _ _).andThen
  intro _
  apply (twin_transitionTo .processing).andThen
  intro _
  apply (twin_session? fun _ => rfl).andThen
  intro selected
  split_ifs
  · exact twin_processWithdrawal
  · exact twin_markError _ _

theorem twin_cancelTransaction : Respects Alike (cancelTransaction P moments) := by
  apply twin_isSome_session.andThen
  intro active
  cases active with
  | true => exact twin_safeEject.andThen fun _ => twin_endSession .cancelled
  | false => exact .pure rfl

end

end AtmXfs.Macro
