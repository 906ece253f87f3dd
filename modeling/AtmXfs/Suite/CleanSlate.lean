import AtmXfs.Macro.TwoStacks

namespace AtmXfs.Suite

open Js Macro TwoRuns

/-- A macro of a suite, with what goes on during the reset before it and during its run. -/
structure Turn where
  reset : Nat → Moment
  saved : SavedMacro
  moments : Nat → Moment

section
variable (P : Platform)

/-- `safeCancel`: what `cancelTransaction` does, or what it has done until it throws. -/
def safeCancel (moments : Nat → Moment) (s : AtmStack) : AtmStack :=
  if s.session.isSome then (cancelTransaction P moments { s with clock := 0 }).2 else s

/-- One turn of the loop of `run`, unless the process has ended. -/
def turn (s : AtmStack) (t : Turn) : AtmStack :=
  if s.down then s else (runMacro P t.moments t.saved (safeCancel P t.reset s)).1

/-- The state in which a macro starts after the macros before it. -/
def startAfter (before : List Turn) (reset : Nat → Moment) (s : AtmStack) : AtmStack :=
  safeCancel P reset (before.foldl (turn P) s)

end

/-- The same database, the same STAN counter and the same cassettes. -/
structure SameStock (s t : AtmStack) : Prop where
  bank : s.bank = t.bank
  stan : s.stanCounter = t.stanCounter
  cassettes : s.cdm.cashUnits = t.cdm.cashUnits

/-- What the reset leaves of earlier macros is the same, as far as a macro can read it. -/
structure SameLeftovers (s t : AtmStack) : Prop where
  /-- Both macros start: the process has not ended. -/
  up : s.down = false ∧ t.down = false
  card : s.card.isSome = t.card.isSome
  errors : ∀ device, device ≠ .ptr →
    (s.injectedError device).isSome = (t.injectedError device).isSome
  printer : s.printer = t.printer
  /-- The digits in the PIN pad, and the entry that is active in it. -/
  entry : entryOf s.pin = entryOf t.pin
  /-- The PIN entries that a step has given up. -/
  pinCalls : s.pinCalls = t.pinCalls
  handlers : s.handlers = t.handlers

theorem endSession_session (P : Platform) (moments : Nat → Moment) (reason : EndReason)
    (s : AtmStack) : (endSession P moments reason s).2.session = none := by
  unfold endSession
  rw [Comp.bind_apply]
  show ((if s.session.isSome then _ else _ : Run Unit) s).2.session = none
  cases hs : s.session.isSome with
  | true => rfl
  | false =>
    have hnone : ¬ s.session.isSome = true := by simp [hs]
    exact Option.not_isSome_iff_eq_none.mp hnone

/-- The ejection of a card fails without throwing. -/
theorem safeEject_ok (P : Platform) (moments : Nat → Moment) (s : AtmStack) :
    (safeEject P moments s).1 = .ok () := by
  unfold safeEject
  rw [Comp.bind_apply]
  show ((if s.card.isSome then _ else _ : Run Unit) s).1 = .ok ()
  cases s.card.isSome with
  | true => rfl
  | false => rfl

/-- The reset ends the session. -/
theorem safeCancel_session (P : Platform) (moments : Nat → Moment) (s : AtmStack) :
    (safeCancel P moments s).session = none := by
  unfold safeCancel
  split_ifs with hs
  · unfold cancelTransaction
    rw [Comp.bind_apply]
    show ((if s.session.isSome then _ else _ : Run Unit) { s with clock := 0 }).2.session = none
    rw [if_pos hs, Comp.bind_apply, safeEject_ok]
    exact endSession_session P moments .cancelled _
  · exact Option.not_isSome_iff_eq_none.mp hs

/-- States with the same stock and leftovers in which no session is active are told apart by no
macro: what it cares about besides, it sets itself. -/
theorem start_alike_of_same {s t : AtmStack} (hstock : SameStock s t) (hleft : SameLeftovers s t)
    (hs : s.session = none) (ht : t.session = none) (saved : SavedMacro) :
    Alike (s.start saved) (t.start saved) where
  cards := congrArg Bank.cards hstock.bank
  names := congrArg Bank.cardholderName hstock.bank
  accounts := congrArg Bank.accounts hstock.bank
  transactions := congrArg (fun bank => bank.transactions.map plainRow) hstock.bank
  stan := hstock.stan
  session := by
    show s.session.map LiveSession.plain = t.session.map LiveSession.plain
    rw [hs, ht]
  handlers := hleft.handlers
  card := hleft.card
  entry := hleft.entry
  pinCalls := hleft.pinCalls
  entryCall := rfl
  cassettes := hstock.cassettes
  printer := hleft.printer
  errors := hleft.errors
  ctx := rfl
  clock := rfl
  down := hleft.up.1.trans hleft.up.2.symm

/-- The built-in functions on the texts and numbers of the examples below. -/
def samplePlatform : Platform where
  sha256 _ _ := []
  toUpperCase t := t.map fun u => if 97 ≤ u ∧ u ≤ 122 then u - 32 else u
  toText n := ((n.toInt?).map toString).getD "NaN"
  toLocaleString n := utf16 (((n.toInt?).map toString).getD "NaN")
  bankName := utf16 "Bank Zegen"
  atmId := utf16 "ZGN-001"

/-- The service after its start, with an empty database. -/
def sampleStack : AtmStack where
  bank := ⟨fun _ => none, fun _ => "", fun _ => none, []⟩
  stanCounter := 1
  session := none
  handlers := []
  card := none
  pin := .init
  pinCalls := []
  entryCall := none
  cdm := .new Cdm.initializeCassettes
  ptr := ⟨1000, [], none, [], []⟩
  injectedError _ := none
  ctx := ⟨none, fun _ => none⟩
  clock := 0
  down := false

/-- Nothing happens beside the runner. -/
def quiet (_ : Nat) : Moment := ⟨0, ⟨[], [], []⟩, "", []⟩

/-- An error is injected into the dispenser. -/
def injects (code : Int) : SavedMacro where
  steps := [⟨utf16 "inject", .ofInt 1, utf16 "ACTION", utf16 "System", utf16 "InjectError",
    [⟨utf16 "device", .string, .text (utf16 "CDM"), none⟩,
      ⟨utf16 "errorCode", .number, .number (.ofInt code), none⟩], true⟩]
  vars _ := none

def checksNotes : SavedMacro where
  steps := [⟨utf16 "check", .ofInt 1, utf16 "CHECKPOINT", utf16 "Cash",
    utf16 "Checkpoint(NotesPresented)", [], true⟩]
  vars _ := none

theorem storedOrder_singleton {step : StoredStep} (h : step.enabled = true) :
    storedOrder [step] = [step] := by
  simp [storedOrder, h]

/-- The injection changes nothing in the database. -/
theorem bank_injects (code : Int) :
    (startAfter samplePlatform [⟨quiet, injects code, quiet⟩] quiet sampleStack).bank =
      sampleStack.bank := by
  have horder : storedOrder (injects code).steps = (injects code).steps :=
    storedOrder_singleton rfl
  have hrun : (runMacro samplePlatform quiet (injects code) sampleStack).1 =
      (resultsOf (handle samplePlatform quiet) (injects code).steps
        (sampleStack.start (injects code))).1 := by
    rw [runMacro, horder]
  show (safeCancel samplePlatform quiet
    (runMacro samplePlatform quiet (injects code) sampleStack).1).bank = _
  rw [hrun]
  rfl

end AtmXfs.Suite
