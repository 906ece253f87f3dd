import AtmXfs.Atm.Session
import AtmXfs.Cdm.Device
import AtmXfs.Host.Cards
import AtmXfs.Lib.TwoRuns
import AtmXfs.Macro.Replay
import AtmXfs.Macro.Report
import AtmXfs.Ptr.Device

namespace AtmXfs.Macro

open Js Host Pin TwoRuns TwoRuns.Comp

inductive XfsDevice where
  | idc | pin | cdm | ptr
  deriving DecidableEq

/-- The session with its idle timer, which does nothing once another session is active. -/
structure LiveSession extends AtmSession where
  id : String
  idleTimer : Bool
  deriving DecidableEq

/-- Where a call of `handleIdleTimeout` is: the reader is to eject the card, the command is being
logged, or the row of the session is being written. -/
inductive TimeoutPhase where
  | ejecting | logging | ending
  deriving DecidableEq

structure PinVerdict where
  verified : Bool
  reason : Option String
  deriving DecidableEq

/-- Where a call of `beginPinEntry` is: the pad delays the command, an entry is active, the command
is being logged, the host verifies the PIN, and then the card may be retained in four steps. At
last the promise is settled. -/
inductive PinPhase where
  | arming | entering | logging
  | verifying (pan : String) (entered : List Char)
  | binning (reason : String)
  | binLogging (reason : String)
  | retaining (reason pan : String)
  | ending
  | returned (verdict : PinVerdict)
  | thrown (message : Text)
  deriving DecidableEq

/-- What goes on beside the runner while it awaits a call. `pinCall` is a call of `beginPinEntry`
whose step has given up, and `entryCall` the one of the step that is executed. -/
inductive Happening where
  | idleTimeout
  | proceed (i : Nat)
  | pinCall (i : Nat)
  | entryCall
  | takeTimer

/-- One await: the time it comes to, what is drawn at random then, and what happened until then. -/
structure Moment where
  now : Int
  stamp : Ptr.Instant
  token : String
  happenings : List Happening

/-- The tables that a run reads. -/
structure Bank where
  cards : String → Option CardRow
  cardholderName : String → String
  accounts : String → Option Account
  transactions : List Transaction

def Bank.db (bank : Bank) : Db :=
  ⟨bank.accounts, fun pan => (bank.cards pan).map CardRow.toVirtualCard, bank.transactions⟩

structure MacroRunContext where
  selectedPan : Option String
  vars : Variables

/-- Everything that a macro runs against. `card` is the card in the reader; an injected error
belongs to the base class of the devices; `pinCalls` are the calls of `beginPinEntry` that no step
awaits any more, and `entryCall` is the one of the current step; `clock` counts the awaits of a
run, and `down` is set once the process has ended. -/
structure AtmStack where
  bank : Bank
  stanCounter : Nat
  session : Option LiveSession
  handlers : List TimeoutPhase
  card : Option String
  pin : Pad Unit
  pinCalls : List PinPhase
  entryCall : Option PinPhase
  cdm : Cdm.CdmDeviceService
  ptr : Ptr.PtrDeviceService
  injectedError : XfsDevice → Option Number
  ctx : MacroRunContext
  clock : Nat
  down : Bool

/-- What the language, a library and the configuration provide. -/
structure Platform where
  sha256 : List Nat → List Char → List Nat
  toUpperCase : Text → Text
  toText : Number → String
  toLocaleString : Number → Text
  bankName : Text
  atmId : Text

/-- The characters of a string; half of a surrogate pair alone is replaced. -/
def characters : Text → List Char
  | [] => []
  | [u] => [lone u]
  | u :: v :: rest =>
    if 0xd800 ≤ u ∧ u < 0xdc00 ∧ 0xdc00 ≤ v ∧ v < 0xe000 then
      Char.ofNat (0x10000 + (u.toNat - 0xd800) * 0x400 + (v.toNat - 0xdc00)) :: characters rest
    else lone u :: characters (v :: rest)
where
  lone (u : UInt16) : Char :=
    if 0xd800 ≤ u ∧ u < 0xe000 then Char.ofNat 0xfffd else Char.ofNat u.toNat

def stringOf (t : Text) : String := String.ofList (characters t)

namespace AtmStack

def modify (s : AtmStack) (f : LiveSession → LiveSession) : AtmStack :=
  { s with session := s.session.map f }

def transitionTo (s : AtmStack) (next : AtmState) : AtmStack :=
  s.modify fun session => { session with state := next, idleTimer := next.idleTimeout }

def notifyState (s : AtmStack) : AtmStack :=
  s.modify fun session => { session with idleTimer := session.state.idleTimeout }

/-- The session fails; its card is still to be ejected. -/
def fail (s : AtmStack) (msg : String) : AtmStack :=
  (s.modify fun session => { session with errorMessage := some msg }).transitionTo .error

/-- `endSession` up to the update of the row, and after it. -/
def beginEnd (s : AtmStack) (reason : EndReason) : AtmStack :=
  s.modify fun session => { session with idleTimer := false, endReason := some reason }

def finishEnd (s : AtmStack) : AtmStack := { s.transitionTo .ended with session := none }

def handleIdleTimeout (s : AtmStack) : AtmStack :=
  { s.fail "session timed out" with
    handlers := s.handlers ++ [if s.card.isSome then .ejecting else .logging] }

def inject (s : AtmStack) (device : XfsDevice) (code : Option Number) : AtmStack :=
  { s with injectedError := Function.update s.injectedError device code }

/-- A device executes a command, unless an error is injected into it. -/
def executeCommand {α : Type} (P : Platform) (device : XfsDevice)
    (command : AtmStack → Except String α × AtmStack) (s : AtmStack) :
    Except String α × AtmStack :=
  Xfs.checkInjectedError (·.injectedError device) (·.inject device none)
    (fun code => .error ("XFS injected error: " ++ P.toText code)) command s

theorem executeCommand_some {α : Type} (P : Platform) {device : XfsDevice} {s : AtmStack}
    {code : Number} (h : s.injectedError device = some code)
    (command : AtmStack → Except String α × AtmStack) :
    executeCommand P device command s =
      (.error ("XFS injected error: " ++ P.toText code), s.inject device none) := by
  rw [executeCommand, Xfs.checkInjectedError, h]

theorem executeCommand_none {α : Type} (P : Platform) {device : XfsDevice} {s : AtmStack}
    (h : s.injectedError device = none) (command : AtmStack → Except String α × AtmStack) :
    executeCommand P device command s = command s := by
  rw [executeCommand, Xfs.checkInjectedError, h]

def insertCard (pan : String) (s : AtmStack) : Bool × AtmStack :=
  if s.card.isSome then (false, s) else (true, { s with card := some pan })

def readTrack (s : AtmStack) : Except String Unit × AtmStack :=
  if s.card.isSome then (.ok (), s) else (.error "No card in reader", s)

/-- The card leaves the reader, to the customer or into the bin. -/
def releaseCard (message : String) (s : AtmStack) : Except String Unit × AtmStack :=
  if s.card.isSome then (.ok (), { s with card := none }) else (.error message, s)

def ejectCard : AtmStack → Except String Unit × AtmStack := releaseCard "No card to eject"

def binCard : AtmStack → Except String Unit × AtmStack := releaseCard "No card to retain"

def isEntryActive (s : AtmStack) : Bool := s.pin.active.isSome

end AtmStack

/-- The command of a call is answered once its entry is over, whatever has ended it. -/
def PinPhase.wake : PinPhase → PinPhase
  | .entering => .logging
  | phase => phase

namespace AtmStack

/-- The pad after an operation, and the call whose entry it has ended. -/
def withPad (s : AtmStack) (r : Pad Unit × Pin.Settled Unit) : AtmStack :=
  if r.2.isEmpty then { s with pin := r.1 }
  else { s with
    pin := r.1
    pinCalls := s.pinCalls.map PinPhase.wake
    entryCall := s.entryCall.map PinPhase.wake }

def pressKey (s : AtmStack) (key : String) : AtmStack := s.withPad (s.pin.pressKey key)

/-- `GET_PIN` arms the pad, and an entry that is active then is superseded. -/
def arm (s : AtmStack) : Except String Unit × AtmStack :=
  (.ok (), s.withPad (s.pin.beginEntry .pin Atm.pinEntrySpec ()))

/-- The timer of the active entry fires. -/
def entryTimeout (s : AtmStack) : AtmStack :=
  s.withPad (s.pin.cancelEntry (Pad.timeoutReason .pin))

/-- `verifyPinBuffer` up to the call of the host. -/
def verifyPinBuffer (s : AtmStack) : PinPhase × AtmStack :=
  match s.session.map (·.cardPan) with
  | none => (.returned ⟨false, some "no session"⟩, s)
  | some pan =>
    (if s.pin.pinBuffer = [] then .returned ⟨false, some "no pin entered"⟩
      else .verifying pan s.pin.pinBuffer,
      { s with pin := s.pin.extractEnteredPin })

/-- `host.verifyPin`; `none` when it throws. -/
def verifyPin (P : Platform) (pan : String) (entered : List Char) (s : AtmStack) :
    Option AuthResult × AtmStack :=
  match s.bank.cards pan with
  | none => (some ⟨false, none, "14", some "card not found"⟩, s)
  | some row =>
    match settlePin row (Host.verifyPin P.sha256 entered row.pin) with
    | none => (none, s)
    | some (row, r) =>
      (some r, { s with
        bank := { s.bank with cards := Function.update s.bank.cards pan (some row) } })

/-- `verifyPinBuffer` from the answer of the host on. -/
def pinAnswered (result : AuthResult) (s : AtmStack) : PinPhase × AtmStack :=
  if result.success then
    (.returned ⟨true, none⟩, (s.transitionTo .pinVerified).transitionTo .mainMenu)
  else
    match s.session.map (·.failedPinAttempts) with
    | none => (.thrown (utf16 "Cannot read properties of null"), s)
    | some attempts =>
      (if 3 ≤ attempts + 1 ∨ result.responseCode = "38" then
          .binning (result.reason.getD "pin tries exceeded")
        else .returned ⟨false, result.reason⟩,
        s.modify fun session => { session with failedPinAttempts := attempts + 1 })

/-- `host.retainCard`, and whether it finds the card. -/
def retainCard (pan : String) (s : AtmStack) : Bool × AtmStack :=
  match s.bank.cards pan with
  | none => (false, s)
  | some row =>
    (true, { s with
      bank := { s.bank with cards := Function.update s.bank.cards pan (some row.retained) } })

/-- The next step of a call of `beginPinEntry`, from one of its awaits to the next. -/
def advance (P : Platform) (s : AtmStack) : PinPhase → PinPhase × AtmStack
  | .arming =>
    match executeCommand P .pin arm s with
    | (.ok _, s) => (.entering, s)
    | (.error _, s) => (.logging, s)
  | .entering => (.logging, s.entryTimeout)
  | .logging => s.verifyPinBuffer
  | .verifying pan entered =>
    match s.verifyPin P pan entered with
    | (some result, s) => s.pinAnswered result
    | (none, s) => (.thrown (utf16 "value out of range for the counter"), s)
  | .binning reason => (.binLogging reason, (executeCommand P .idc binCard s).2)
  | .binLogging reason =>
    match s.session.map (·.cardPan) with
    | none => (.thrown (utf16 "Cannot read properties of null"), s)
    | some pan => (.retaining reason pan, s)
  | .retaining reason pan =>
    match s.retainCard pan with
    | (false, s) => (.thrown (utf16 "record to update not found"), s)
    | (true, s) =>
      if s.session.isSome then (.ending, (s.fail reason).beginEnd .error)
      else (.thrown (utf16 "Cannot set properties of null"), s)
  | .ending => (.returned ⟨false, some "card retained"⟩, s.finishEnd)
  | .returned verdict => (.returned verdict, s)
  | .thrown message => (.thrown message, s)

/-- A call that no step awaits goes on; nobody handles the rejection of its promise. -/
def putPinCall (s : AtmStack) (i : Nat) : PinPhase → AtmStack
  | .returned _ => { s with pinCalls := s.pinCalls.eraseIdx i }
  | .thrown _ => { s with pinCalls := s.pinCalls.eraseIdx i, down := true }
  | phase => { s with pinCalls := s.pinCalls.set i phase }

/-- The call of the current step goes on. -/
def proceedEntry (P : Platform) (s : AtmStack) : AtmStack :=
  match s.entryCall with
  | some phase => { (s.advance P phase).2 with entryCall := some (s.advance P phase).1 }
  | none => s

/-- The step no longer awaits its call. -/
def abandonEntry (s : AtmStack) : AtmStack :=
  match s.entryCall with
  | none | some (.returned _) | some (.thrown _) => { s with entryCall := none }
  | some phase => { s with pinCalls := s.pinCalls ++ [phase], entryCall := none }

/-- What goes on beside the runner, in the order in which it happens. -/
def happen (P : Platform) (s : AtmStack) : Happening → AtmStack
  | .idleTimeout => if s.session.any (·.idleTimer) then s.handleIdleTimeout else s
  | .proceed i =>
    match s.handlers[i]? with
    | some .ejecting =>
      { (executeCommand P .idc ejectCard s).2 with handlers := s.handlers.set i .logging }
    | some .logging =>
      if s.session.isSome then { s.beginEnd .timeout with handlers := s.handlers.set i .ending }
      else { s with handlers := s.handlers.eraseIdx i }
    | some .ending => { s.finishEnd with handlers := s.handlers.eraseIdx i }
    | none => s
  | .pinCall i =>
    match s.pinCalls[i]? with
    | some phase => (s.advance P phase).2.putPinCall i (s.advance P phase).1
    | none => s
  | .entryCall => s.proceedEntry P
  | .takeTimer =>
    { s with cdm := if s.cdm.takeTimer then Cdm.takeTimerExpired s.cdm else s.cdm }

def host (s : AtmStack) : HostEmulatorService := ⟨s.bank.db, s.stanCounter⟩

def withHost (s : AtmStack) (h : HostEmulatorService) : AtmStack :=
  { s with
    bank := { s.bank with accounts := h.db.accounts, transactions := h.db.transactions }
    stanCounter := h.stanCounter }

def authorizeWithdrawal (now : Int) (authCode : String) (p : WithdrawalParams) (s : AtmStack) :
    AuthorizationResult × AtmStack :=
  ((Host.authorizeWithdrawal s.host now authCode p).1,
    s.withHost (Host.authorizeWithdrawal s.host now authCode p).2)

/-- `host.reverseTransaction`, and whether its transaction was committed. -/
def reverseTransaction (now : Int) (p : ReversalParams) (s : AtmStack) : Bool × AtmStack :=
  ((reverseTx s.host.db now p).isSome, s.withHost (Host.reverseTransaction s.host now p))

/-- `host.getBalance`: the amount and the response code. -/
def getBalance (s : AtmStack) (pan : String) : Number × String :=
  match (s.bank.cards pan).bind fun card => s.bank.accounts card.accountId with
  | some account => (.ofBigInt account.balance, "00")
  | none => (.ofInt 0, "14")

def dispense (P : Platform) (amount : Option Int) (s : AtmStack) :
    Except String Unit × AtmStack :=
  let payload := ⟨(amount.map Number.ofInt).getD .nan, .minNotes, none, true⟩
  ((Cdm.dispense s.cdm payload).1.mapError (Cdm.CdmError.message P.toText) |>.map fun _ => (),
    { s with cdm := (Cdm.dispense s.cdm payload).2 })

def printForm (now : Ptr.Instant) (payload : Ptr.PtrPrintFormPayload) (s : AtmStack) :
    Except String Unit × AtmStack :=
  ((Ptr.printForm s.ptr now payload).1.mapError (fun _ => "out of paper") |>.map fun _ => (),
    { s with ptr := (Ptr.printForm s.ptr now payload).2 })

end AtmStack

end AtmXfs.Macro
