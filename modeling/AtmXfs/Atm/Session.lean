import AtmXfs.Host.Emulator
import AtmXfs.Pin.Device

namespace AtmXfs

open Js Host Pin

inductive AtmState where
  | idle | cardInserted | pinEntry | pinVerified | mainMenu | amountEntry | confirm | processing
  | dispensing | printing | ejecting | error | ended
  deriving DecidableEq

/-- The states that wait for the customer. -/
def AtmState.idleTimeout : AtmState → Bool
  | cardInserted | pinEntry | pinVerified | mainMenu | amountEntry | confirm => true
  | _ => false

inductive EndReason where
  | completed | cancelled | timeout | error
  deriving DecidableEq

structure AtmSession where
  state : AtmState
  cardPan : String
  accountId : Option String
  selectedTxn : Option TxnType
  amount : Option Int
  stanNo : Option String
  errorMessage : Option String
  failedPinAttempts : Nat
  endReason : Option EndReason
  deriving DecidableEq

def AtmSession.fresh (pan : String) : AtmSession :=
  ⟨.cardInserted, pan, none, none, none, none, none, 0, none⟩

/-- A call of `host.authorizeWithdrawal`: its number, the session it is made for and its data. -/
structure Withdrawal where
  wid : Nat
  sid : Nat
  pan : String
  amount : Int
  deriving DecidableEq

/-- An approved call with the STAN it was approved under. -/
structure Authorisation where
  w : Withdrawal
  stanNo : String
  deriving DecidableEq

structure ReversalCall where
  stanNo : String
  sid : Nat
  pan : String
  accountId : Option String
  amount : Option Int
  reason : String
  deriving DecidableEq

/-- What a handler does when the call it awaits has returned. -/
inductive Cont where
  | inserted (sid : Nat) (pan : String)
  | trackRead (sid : Nat) (pan : String)
  | authenticated (sid : Nat) (pan : String)
  | pinEntered
  | pinVerified (sid : Nat) (pan : String) (entered : List Char)
  | authorized (w : Withdrawal)
  | dispensed (a : Authorisation) (amount : Option Int)
  | reversed (detail : String)
  | receiptPrinted
  | balanceRead
  | cardRetained (reason : String)
  | retainMarked (reason : String)
  | ejected (reason : EndReason)
  | ended (sid : Nat) (reason : EndReason)
  deriving DecidableEq

/-- Where the awaited call is: on its way, at a device that it has not reached, at the PIN pad while
keys are pressed, or done by the device or the database with no error or with one. -/
inductive Phase where
  | pending
  | issued
  | entered
  | replied (error : Option String)
  deriving DecidableEq

structure Suspension where
  cont : Cont
  phase : Phase
  deriving DecidableEq

/-- What the outside sees of the service, newest first in the log. -/
inductive Act where
  | verified (sid : Nat) (pan : String)
  | authorizeCall (w : Withdrawal)
  | balanceCall (sid : Nat) (pan : String)
  | approved (a : Authorisation)
  | dispensed (wid : Nat) (amount : Option Int)
  | reversed (wid : Nat) (call : ReversalCall)
  | stateChanged (sid : Nat) (next : AtmState)
  | rowEnded (sid : Nat) (reason : EndReason)
  | sessionEnded (sid : Nat) (reason : EndReason)
  deriving DecidableEq

/-- The service with its devices and its suspended handlers. Sessions and tasks are numbered; the
card in the reader and the idle timer are known by the session they belong to, an entry at the PIN
pad by the task that awaits it. -/
structure Atm where
  sessions : Nat → AtmSession
  nextSession : Nat
  session : Option Nat
  idleTimer : Option Nat
  card : Option Nat
  pin : Pad (Option Nat)
  tasks : Nat → Option Suspension
  nextTask : Nat
  calls : Nat
  log : List Act

/-- The result a call returns, or an exception. -/
inductive Reply where
  | done
  | throws
  | auth (r : AuthResult)
  | authorization (r : AuthorizationResult)
  | balance (responseCode : String)

namespace Atm

def init : Atm where
  sessions _ := ⟨.idle, "", none, none, none, none, none, 0, none⟩
  nextSession := 0
  session := none
  idleTimer := none
  card := none
  pin := .init
  tasks _ := none
  nextTask := 0
  calls := 0
  log := []

def current (s : Atm) : Option AtmSession := s.session.map s.sessions

def record (s : Atm) (act : Act) : Atm := { s with log := act :: s.log }

/-- Await a call. -/
def suspend (s : Atm) (cont : Cont) (phase : Phase) : Atm :=
  { s with
    tasks := Function.update s.tasks s.nextTask (some ⟨cont, phase⟩)
    nextTask := s.nextTask + 1 }

/-- The task is over or moves on to another phase. -/
def setTask (s : Atm) (i : Nat) (task : Option Suspension) : Atm :=
  { s with tasks := Function.update s.tasks i task }

/-- Change the session that `this.session` refers to at this moment. -/
def modify (s : Atm) (f : AtmSession → AtmSession) : Atm :=
  match s.session with
  | none => s
  | some sid => { s with sessions := Function.update s.sessions sid (f (s.sessions sid)) }

/-- Note the account in a session that a handler has kept hold of. -/
def setAccount (s : Atm) (sid : Nat) (accountId : Option String) : Atm :=
  { s with sessions := Function.update s.sessions sid { s.sessions sid with accountId } }

def clearIdleTimer (s : Atm) : Atm := { s with idleTimer := none }

def armIdleTimer (s : Atm) (state : AtmState) : Atm :=
  { s with idleTimer := if state.idleTimeout then s.session else none }

def transitionTo (s : Atm) (next : AtmState) : Atm :=
  match s.session with
  | none => s
  | some sid =>
    ((s.modify fun session => { session with state := next }).record
      (.stateChanged sid next)).armIdleTimer next

def notifyState (s : Atm) : Atm :=
  match s.current with
  | none => s
  | some session => s.armIdleTimer session.state

/-- `safeEject`, and then the end of the session that every caller awaits next. -/
def safeEject (s : Atm) (reason : EndReason) : Atm :=
  s.suspend (.ejected reason) (if s.card.isSome then .issued else .pending)

def endSession (s : Atm) (reason : EndReason) : Atm :=
  match s.session with
  | none => s
  | some sid =>
    (s.clearIdleTimer.modify fun session => { session with endReason := some reason }).suspend
      (.ended sid reason) .pending

def failSession (s : Atm) (msg : String) (reason : EndReason) : Atm :=
  match s.session with
  | none => s
  | some _ =>
    ((s.modify fun session => { session with errorMessage := some msg }).transitionTo
      .error).safeEject reason

def markError (s : Atm) (msg : String) : Atm := s.failSession msg .error

def handleIdleTimeout (s : Atm) : Atm := s.failSession "session timed out" .timeout

def retainCard (s : Atm) (reason : String) : Atm :=
  match s.session with
  | none => s
  | some _ => s.suspend (.cardRetained reason) .issued

def onCardInserted (s : Atm) (pan : String) : Atm :=
  match s.session with
  | some _ => s
  | none =>
    { s with
      sessions := Function.update s.sessions s.nextSession (.fresh pan)
      nextSession := s.nextSession + 1
      session := some s.nextSession }.suspend (.inserted s.nextSession pan) .pending

def beginPinEntry (s : Atm) : Atm :=
  if s.current.any fun session => session.state = .pinEntry then s.suspend .pinEntered .issued
  else s

def extractEnteredPin (s : Atm) : Atm := { s with pin := s.pin.extractEnteredPin }

def verifyPinBuffer (s : Atm) : Atm :=
  match s.session with
  | none => s
  | some sid =>
    if s.pin.pinBuffer = [] then s.extractEnteredPin
    else s.extractEnteredPin.suspend
      (.pinVerified sid (s.sessions sid).cardPan s.pin.pinBuffer) .pending

def processWithdrawal (s : Atm) : Atm :=
  match s.session with
  | none => s
  | some sid =>
    match (s.sessions sid).amount with
    | none => s
    | some amount =>
      ({ s with calls := s.calls + 1 }.record
        (.authorizeCall ⟨s.calls, sid, (s.sessions sid).cardPan, amount⟩)).suspend
          (.authorized ⟨s.calls, sid, (s.sessions sid).cardPan, amount⟩) .pending

def processBalance (s : Atm) : Atm :=
  match s.session with
  | none => s
  | some sid =>
    ((s.transitionTo .processing).record
      (.balanceCall sid (s.sessions sid).cardPan)).suspend .balanceRead .pending

def txnName : TxnType → String
  | .withdrawal => "WITHDRAWAL"
  | .balance => "BALANCE"
  | .transfer => "TRANSFER"
  | .deposit => "DEPOSIT"

def selectTransaction (s : Atm) (txn : TxnType) : Atm :=
  if s.current.any fun session => session.state = .mainMenu then
    match txn with
    | .balance =>
      (s.modify fun session => { session with selectedTxn := some .balance }).processBalance
    | .withdrawal =>
      (s.modify fun session => { session with selectedTxn := some .withdrawal }).transitionTo
        .amountEntry
    | txn =>
      (s.modify fun session => { session with selectedTxn := some txn }).markError
        ("transaction type not supported: " ++ txnName txn)
  else s

def submitAmount (s : Atm) (amount : Number) : Atm :=
  if s.current.any fun session => session.state = .amountEntry then
    match amount.toInt? with
    | none => s
    | some n =>
      if 0 < n ∧ n % 20000 = 0 then
        (s.modify fun session => { session with amount := some n }).transitionTo .confirm
      else s
  else s

def confirmTransaction (s : Atm) : Atm :=
  match s.current with
  | none => s
  | some session =>
    if session.state ≠ .confirm then s
    else if session.selectedTxn = some .withdrawal then
      (s.transitionTo .processing).processWithdrawal
    else (s.transitionTo .processing).markError "unsupported transaction"

def cancelTransaction (s : Atm) : Atm :=
  match s.session with
  | none => s
  | some _ => s.safeEject .cancelled

/-- The task that awaits the PIN pad has its answer. -/
def answer (s : Atm) (settled : Option Nat × Except String Pin.Answer) : Atm :=
  match settled with
  | (none, _) => s
  | (some i, result) =>
    if s.tasks i = some ⟨.pinEntered, .entered⟩ then
      match result with
      | .ok _ => s.setTask i (some ⟨.pinEntered, .replied none⟩)
      | .error detail => s.setTask i (some ⟨.pinEntered, .replied (some detail)⟩)
    else s

/-- The PIN pad goes on and answers who awaits it. -/
def usePad (s : Atm) (after : Pad (Option Nat) × Pin.Settled (Option Nat)) : Atm :=
  after.2.foldl answer { s with pin := after.1 }

def pressKey (s : Atm) (key : String) : Atm := s.usePad (s.pin.pressKey key)

/-- The entry that `beginPinEntry` asks for. -/
def pinEntrySpec : PinGetPinPayload where
  minLen := .ofInt 4
  maxLen := .ofInt 6
  autoEnd := false
  activeKeys :=
    ["0", "1", "2", "3", "4", "5", "6", "7", "8", "9", "ENTER", "CANCEL", "CLEAR"]
  terminateKeys := ["ENTER"]

/-- A device executes the command of a task; `injected` is an error that makes it fail before. -/
def executeCommand (s : Atm) (i : Nat) (injected : Option String) : Option Atm :=
  match s.tasks i with
  | some ⟨cont, .issued⟩ =>
    match injected, cont with
    | injected, .pinEntered =>
      some ((s.setTask i (some ⟨.pinEntered, .entered⟩)).usePad
        (s.pin.executeCommand (.getPin pinEntrySpec) (some i) injected))
    | some detail, cont => some (s.setTask i (some ⟨cont, .replied (some detail)⟩))
    | none, .trackRead sid pan =>
      let error := if s.card.isSome then none else some "No card in reader"
      some (s.setTask i (some ⟨.trackRead sid pan, .replied error⟩))
    | none, .dispensed a amount =>
      some ((s.record (.dispensed a.w.wid amount)).setTask i
        (some ⟨.dispensed a amount, .replied none⟩))
    | none, .cardRetained reason =>
      let error := if s.card.isSome then none else some "No card to retain"
      some ({ s with card := none }.setTask i (some ⟨.cardRetained reason, .replied error⟩))
    | none, .ejected reason =>
      let error := if s.card.isSome then none else some "No card to eject"
      some ({ s with card := none }.setTask i (some ⟨.ejected reason, .replied error⟩))
    | none, cont => some (s.setTask i (some ⟨cont, .replied none⟩))
  | _ => none

/-- The database writes the row of a session that ends. -/
def writeRow (s : Atm) (i : Nat) : Option Atm :=
  match s.tasks i with
  | some ⟨.ended sid reason, .pending⟩ =>
    some ((s.record (.rowEnded sid reason)).setTask i (some ⟨.ended sid reason, .replied none⟩))
  | _ => none

/-- `onCardInserted` after the session was stored. -/
def afterInserted (s : Atm) (sid : Nat) (pan : String) : Atm :=
  if s.card.isSome then s.notifyState.markError "insert rejected: card already in reader"
  else { s.notifyState with card := some sid }.suspend (.trackRead sid pan) .issued

def afterTrackRead (s : Atm) (sid : Nat) (pan : String) (error : Option String) : Atm :=
  match error with
  | some detail => s.markError ("IDC read failed: " ++ detail)
  | none => s.suspend (.authenticated sid pan) .pending

def afterAuthenticate (s : Atm) (sid : Nat) (r : AuthResult) : Atm :=
  if r.success then (s.setAccount sid r.accountId).transitionTo .pinEntry
  else s.markError ("card declined: " ++ r.reason.getD r.responseCode)

/-- `verifyPinBuffer` after the host has answered for the card of session `sid`. -/
def afterVerifyPin (s : Atm) (sid : Nat) (pan : String) (r : AuthResult) : Atm :=
  if r.success then
    ((s.record (.verified sid pan)).transitionTo .pinVerified).transitionTo .mainMenu
  else
    match s.current with
    | none => s
    | some session =>
      if 3 ≤ session.failedPinAttempts + 1 ∨ r.responseCode = "38" then
        (s.modify fun session =>
          { session with failedPinAttempts := session.failedPinAttempts + 1 }).retainCard
            (r.reason.getD "pin tries exceeded")
      else
        s.modify fun session =>
          { session with failedPinAttempts := session.failedPinAttempts + 1 }

/-- `processWithdrawal` after the host has answered. -/
def afterAuthorize (s : Atm) (w : Withdrawal) (r : AuthorizationResult) : Atm :=
  if r.approved then
    match s.current with
    | none => s.record (.approved ⟨w, r.stanNo⟩)
    | some session =>
      (((s.record (.approved ⟨w, r.stanNo⟩)).modify fun session =>
        { session with stanNo := some r.stanNo }).transitionTo .dispensing).suspend
          (.dispensed ⟨w, r.stanNo⟩ session.amount) .issued
  else s.markError (r.reason.getD ("host declined (" ++ r.responseCode ++ ")"))

def afterDispenseError (s : Atm) (a : Authorisation) (detail : String) : Atm :=
  match s.session with
  | none => s
  | some sid =>
    (s.record (.reversed a.w.wid ⟨a.stanNo, sid, (s.sessions sid).cardPan,
      (s.sessions sid).accountId, (s.sessions sid).amount, detail⟩)).suspend (.reversed detail)
        .pending

/-- The receipt shows the amount of the current session, and there has to be one. -/
def afterDispense (s : Atm) : Atm :=
  if s.current.any fun session => session.amount.isSome then
    (s.transitionTo .printing).suspend .receiptPrinted .issued
  else s.transitionTo .printing

def afterBalance (s : Atm) (responseCode : String) : Atm :=
  if responseCode = "00" then
    match s.session with
    | none => s
    | some _ => (s.transitionTo .printing).suspend .receiptPrinted .issued
  else s.markError ("balance inquiry declined (" ++ responseCode ++ ")")

def afterReceipt (s : Atm) : Atm := (s.transitionTo .ejecting).safeEject .completed

def afterRetain (s : Atm) (reason : String) : Atm :=
  match s.session with
  | none => s
  | some _ => s.suspend (.retainMarked reason) .pending

def afterRetainMarked (s : Atm) (reason : String) : Atm :=
  match s.session with
  | none => s
  | some _ =>
    ((s.modify fun session => { session with errorMessage := some reason }).transitionTo
      .error).endSession .error

/-- `endSession` after the row was written. -/
def afterEnded (s : Atm) (sid : Nat) (reason : EndReason) : Atm :=
  { s.transitionTo .ended with session := none }.record (.sessionEnded sid reason)

@[simp] theorem record_sessions (s : Atm) (act : Act) :
    (s.record act).sessions = s.sessions := rfl

@[simp] theorem record_session (s : Atm) (act : Act) :
    (s.record act).session = s.session := rfl

@[simp] theorem record_nextSession (s : Atm) (act : Act) :
    (s.record act).nextSession = s.nextSession := rfl

@[simp] theorem record_card (s : Atm) (act : Act) :
    (s.record act).card = s.card := rfl

@[simp] theorem record_tasks (s : Atm) (act : Act) :
    (s.record act).tasks = s.tasks := rfl

@[simp] theorem record_nextTask (s : Atm) (act : Act) :
    (s.record act).nextTask = s.nextTask := rfl

@[simp] theorem record_idleTimer (s : Atm) (act : Act) :
    (s.record act).idleTimer = s.idleTimer := rfl

@[simp] theorem record_log (s : Atm) (act : Act) : (s.record act).log = act :: s.log := rfl

@[simp] theorem suspend_sessions (s : Atm) (cont : Cont) (phase : Phase) :
    (s.suspend cont phase).sessions = s.sessions := rfl

@[simp] theorem suspend_session (s : Atm) (cont : Cont) (phase : Phase) :
    (s.suspend cont phase).session = s.session := rfl

@[simp] theorem suspend_nextSession (s : Atm) (cont : Cont) (phase : Phase) :
    (s.suspend cont phase).nextSession = s.nextSession := rfl

@[simp] theorem suspend_card (s : Atm) (cont : Cont) (phase : Phase) :
    (s.suspend cont phase).card = s.card := rfl

@[simp] theorem suspend_log (s : Atm) (cont : Cont) (phase : Phase) :
    (s.suspend cont phase).log = s.log := rfl

@[simp] theorem suspend_idleTimer (s : Atm) (cont : Cont) (phase : Phase) :
    (s.suspend cont phase).idleTimer = s.idleTimer := rfl

@[simp] theorem setTask_sessions (s : Atm) (i : Nat) (task : Option Suspension) :
    (s.setTask i task).sessions = s.sessions := rfl

@[simp] theorem setTask_session (s : Atm) (i : Nat) (task : Option Suspension) :
    (s.setTask i task).session = s.session := rfl

@[simp] theorem setTask_nextSession (s : Atm) (i : Nat) (task : Option Suspension) :
    (s.setTask i task).nextSession = s.nextSession := rfl

@[simp] theorem setTask_card (s : Atm) (i : Nat) (task : Option Suspension) :
    (s.setTask i task).card = s.card := rfl

@[simp] theorem setTask_nextTask (s : Atm) (i : Nat) (task : Option Suspension) :
    (s.setTask i task).nextTask = s.nextTask := rfl

@[simp] theorem setTask_log (s : Atm) (i : Nat) (task : Option Suspension) :
    (s.setTask i task).log = s.log := rfl

@[simp] theorem setTask_idleTimer (s : Atm) (i : Nat) (task : Option Suspension) :
    (s.setTask i task).idleTimer = s.idleTimer := rfl

@[simp] theorem modify_session (s : Atm) (f : AtmSession → AtmSession) :
    (s.modify f).session = s.session := by
  unfold modify
  split <;> rfl

@[simp] theorem modify_nextSession (s : Atm) (f : AtmSession → AtmSession) :
    (s.modify f).nextSession = s.nextSession := by
  unfold modify
  split <;> rfl

@[simp] theorem modify_card (s : Atm) (f : AtmSession → AtmSession) :
    (s.modify f).card = s.card := by
  unfold modify
  split <;> rfl

@[simp] theorem modify_tasks (s : Atm) (f : AtmSession → AtmSession) :
    (s.modify f).tasks = s.tasks := by
  unfold modify
  split <;> rfl

@[simp] theorem modify_nextTask (s : Atm) (f : AtmSession → AtmSession) :
    (s.modify f).nextTask = s.nextTask := by
  unfold modify
  split <;> rfl

@[simp] theorem modify_log (s : Atm) (f : AtmSession → AtmSession) :
    (s.modify f).log = s.log := by
  unfold modify
  split <;> rfl

@[simp] theorem modify_idleTimer (s : Atm) (f : AtmSession → AtmSession) :
    (s.modify f).idleTimer = s.idleTimer := by
  unfold modify
  split <;> rfl

@[simp] theorem transitionTo_session (s : Atm) (next : AtmState) :
    (s.transitionTo next).session = s.session := by
  unfold transitionTo
  split
  · rfl
  · simp [armIdleTimer]

@[simp] theorem transitionTo_nextSession (s : Atm) (next : AtmState) :
    (s.transitionTo next).nextSession = s.nextSession := by
  unfold transitionTo
  split
  · rfl
  · simp [armIdleTimer]

@[simp] theorem transitionTo_card (s : Atm) (next : AtmState) :
    (s.transitionTo next).card = s.card := by
  unfold transitionTo
  split
  · rfl
  · simp [armIdleTimer]

@[simp] theorem transitionTo_tasks (s : Atm) (next : AtmState) :
    (s.transitionTo next).tasks = s.tasks := by
  unfold transitionTo
  split
  · rfl
  · simp [armIdleTimer]

@[simp] theorem transitionTo_nextTask (s : Atm) (next : AtmState) :
    (s.transitionTo next).nextTask = s.nextTask := by
  unfold transitionTo
  split
  · rfl
  · simp [armIdleTimer]

/-- What the handler does after the await, up to its next one. -/
def continueWith (s : Atm) : Cont → Phase → Reply → Option Atm
  | .inserted sid pan, .pending, .done => some (s.afterInserted sid pan)
  | .trackRead sid pan, .replied error, .done => some (s.afterTrackRead sid pan error)
  | .authenticated sid _, .pending, .auth r => some (s.afterAuthenticate sid r)
  | .pinEntered, .replied _, .done => some s.verifyPinBuffer
  | .pinVerified sid pan _, .pending, .auth r => some (s.afterVerifyPin sid pan r)
  | .authorized w, .pending, .authorization r => some (s.afterAuthorize w r)
  | .dispensed a _, .replied (some detail), .done => some (s.afterDispenseError a detail)
  | .dispensed _ _, .replied none, .done => some s.afterDispense
  | .reversed detail, .pending, .done => some (s.markError ("dispense failed: " ++ detail))
  | .receiptPrinted, .replied _, .done => some s.afterReceipt
  | .balanceRead, .pending, .balance responseCode => some (s.afterBalance responseCode)
  | .cardRetained reason, .replied _, .done => some (s.afterRetain reason)
  | .retainMarked reason, .pending, .done => some (s.afterRetainMarked reason)
  | .ejected reason, .pending, .done => some (s.endSession reason)
  | .ejected reason, .replied _, .done => some (s.endSession reason)
  | .ended sid reason, .replied _, .done => some (s.afterEnded sid reason)
  -- `authorizeWithdrawal` catches what its body throws, and an empty reader is not a call
  | .authorized _, .pending, .throws => none
  | .ejected _, .pending, .throws => none
  -- the row may be written although the call throws
  | .ended _ _, .replied _, .throws => some s
  | _, .pending, .throws => some s
  | _, _, _ => none

end Atm

/-- What can happen next: a call of the service, a key, a timer, a command for the PIN pad from
elsewhere, a device that executes a command, the database that writes a row or a call that
returns. -/
inductive AtmStep where
  | onCardInserted (pan : String)
  | beginPinEntry
  | verifyPinBuffer
  | selectTransaction (txn : TxnType)
  | submitAmount (amount : Number)
  | confirmTransaction
  | cancelTransaction
  | pressKey (key : String)
  | entryTimeout (handle : Nat)
  | pinCommand (command : PinCommand) (injected : Option String)
  | idleTimeout
  | executeCommand (i : Nat) (injected : Option String)
  | writeRow (i : Nat)
  | resume (i : Nat) (reply : Reply)

/-- The host answers an authentication with the account that it debits for the card. -/
def sameAccount (accountOf : String → String) : Cont → Reply → Bool
  | .authenticated _ pan, .auth r => !r.success || r.accountId = some (accountOf pan)
  | _, _ => true

def atmStep (accountOf : String → String) (s : Atm) : AtmStep → Option Atm
  | .onCardInserted pan => some (s.onCardInserted pan)
  | .beginPinEntry => some s.beginPinEntry
  | .verifyPinBuffer => some s.verifyPinBuffer
  | .selectTransaction txn => some (s.selectTransaction txn)
  | .submitAmount amount => some (s.submitAmount amount)
  | .confirmTransaction => some s.confirmTransaction
  | .cancelTransaction => some s.cancelTransaction
  | .pressKey key => some (s.pressKey key)
  | .entryTimeout handle => (s.pin.fire handle).map s.usePad
  | .pinCommand command injected =>
    some (s.usePad (s.pin.executeCommand command none injected))
  | .idleTimeout =>
    match s.idleTimer with
    | none => none
    | some sid =>
      if s.session = some sid then some s.clearIdleTimer.handleIdleTimeout
      else some s.clearIdleTimer
  | .executeCommand i injected => s.executeCommand i injected
  | .writeRow i => s.writeRow i
  | .resume i reply =>
    match s.tasks i with
    | none => none
    | some task =>
      if sameAccount accountOf task.cont reply then
        (s.setTask i none).continueWith task.cont task.phase reply
      else none

/-- A device carries out the command of a task that has issued one. -/
theorem Atm.executeCommand_issued {s t : Atm} {i : Nat} {injected : Option String}
    (ht : s.executeCommand i injected = some t) : ∃ cont, s.tasks i = some ⟨cont, .issued⟩ := by
  unfold Atm.executeCommand at ht
  split at ht
  · next cont htask => exact ⟨cont, htask⟩
  · cases ht

/-- The database writes the row that the end of a session asks for. -/
theorem Atm.writeRow_ended {s t : Atm} {i : Nat} (ht : s.writeRow i = some t) :
    ∃ sid reason, s.tasks i = some ⟨.ended sid reason, .pending⟩ ∧
      t = (s.record (.rowEnded sid reason)).setTask i
        (some ⟨.ended sid reason, .replied none⟩) := by
  unfold Atm.writeRow at ht
  split at ht
  · next sid reason htask =>
    cases ht
    exact ⟨sid, reason, htask, rfl⟩
  · cases ht

/-- A handler that resumes is no longer suspended and goes on with the reply. -/
theorem resume_cases {accountOf : String → String} {s t : Atm} {i : Nat} {reply : Reply}
    (ht : atmStep accountOf s (.resume i reply) = some t) :
    ∃ cont phase, s.tasks i = some ⟨cont, phase⟩ ∧ sameAccount accountOf cont reply = true ∧
      (s.setTask i none).continueWith cont phase reply = some t := by
  simp only [atmStep] at ht
  split at ht
  · cases ht
  · next task htask =>
    split at ht
    · next hsame => exact ⟨task.cont, task.phase, htask, hsame, ht⟩
    · cases ht

/-- The timer goes off once, and only for the session it was armed for. -/
theorem idleTimeout_cases {accountOf : String → String} {s t : Atm}
    (ht : atmStep accountOf s .idleTimeout = some t) : ∃ sid, s.idleTimer = some sid ∧
      (s.session = some sid ∧ t = s.clearIdleTimer.handleIdleTimeout ∨
        s.session ≠ some sid ∧ t = s.clearIdleTimer) := by
  simp only [atmStep] at ht
  split at ht
  · cases ht
  · next sid htimer =>
    split at ht
    · next hcurrent =>
      cases ht
      exact ⟨sid, htimer, .inl ⟨hcurrent, rfl⟩⟩
    · next hother =>
      cases ht
      exact ⟨sid, htimer, .inr ⟨hother, rfl⟩⟩

/-- Numbers that were not given out are not in use. -/
def Atm.Fresh (s : Atm) : Prop := ∀ i, s.nextTask ≤ i → s.tasks i = none

theorem Atm.Fresh.of_eq {s t : Atm} (h : s.Fresh) (htasks : t.tasks = s.tasks)
    (hnext : t.nextTask = s.nextTask) : t.Fresh :=
  fun i hi => htasks ▸ h i (hnext ▸ hi)

theorem Atm.Fresh.suspend {s : Atm} (h : s.Fresh) (cont : Cont) (phase : Phase) :
    (s.suspend cont phase).Fresh := by
  intro i hi
  have hge : s.nextTask + 1 ≤ i := hi
  have hne : i ≠ s.nextTask := by omega
  simpa [Atm.suspend, Function.update_of_ne hne] using h i (by omega)

theorem Atm.Fresh.setTask {s : Atm} (h : s.Fresh) {i : Nat} {old : Suspension}
    (hold : s.tasks i = some old) (new : Option Suspension) : (s.setTask i new).Fresh := by
  intro j hj
  have hne : j ≠ i := by
    intro heq
    have hnone := h j hj
    rw [heq, hold] at hnone
    cases hnone
  simpa [Atm.setTask, Function.update_of_ne hne] using h j hj

theorem Atm.Fresh.lt {s : Atm} (h : s.Fresh) {i : Nat} {task : Suspension}
    (htask : s.tasks i = some task) : i < s.nextTask := by
  by_contra hge
  have hnone := h i (Nat.le_of_not_lt hge)
  rw [htask] at hnone
  cases hnone

/-- No handler is suspended. -/
def Atm.quiet (s : Atm) : Bool := (List.range s.nextTask).all fun i => (s.tasks i).isNone

theorem Atm.Fresh.none_of_quiet {s : Atm} (h : s.Fresh) (hquiet : s.quiet = true) (i : Nat) :
    s.tasks i = none := by
  rcases lt_or_ge i s.nextTask with hlt | hge
  · have hall := List.all_eq_true.mp hquiet i (List.mem_range.mpr hlt)
    exact Option.isNone_iff_eq_none.mp hall
  · exact h i hge

/-- A task of the table is the new one or was there before. -/
theorem Atm.tasks_setTask {s : Atm} {i j : Nat} {new : Option Suspension} {task : Suspension}
    (h : (s.setTask i new).tasks j = some task) :
    (j = i ∧ new = some task) ∨ (j ≠ i ∧ s.tasks j = some task) := by
  have hupdate : Function.update s.tasks i new j = some task := h
  by_cases hj : j = i
  · rw [hj, Function.update_self] at hupdate
    exact .inl ⟨hj, hupdate⟩
  · rw [Function.update_of_ne hj] at hupdate
    exact .inr ⟨hj, hupdate⟩

theorem Atm.tasks_suspend {s : Atm} {cont : Cont} {phase : Phase} {j : Nat} {task : Suspension}
    (h : (s.suspend cont phase).tasks j = some task) :
    (j = s.nextTask ∧ task = ⟨cont, phase⟩) ∨ (j ≠ s.nextTask ∧ s.tasks j = some task) := by
  have hset : (s.setTask s.nextTask (some ⟨cont, phase⟩)).tasks j = some task := h
  rcases Atm.tasks_setTask hset with ⟨hlast, hnew⟩ | hold
  · exact .inl ⟨hlast, (Option.some.inj hnew).symm⟩
  · exact .inr hold

/-- Some suspended handler meets `p`. -/
def Atm.Suspended (s : Atm) (p : Suspension → Bool) : Prop :=
  ∃ i task, s.tasks i = some task ∧ p task = true

def Atm.anySuspended (s : Atm) (p : Suspension → Bool) : Bool :=
  (List.range s.nextTask).any fun i => (s.tasks i).any p

theorem Atm.suspended_of_any {s : Atm} {p : Suspension → Bool} (h : s.anySuspended p = true) :
    s.Suspended p := by
  obtain ⟨i, -, hany⟩ := List.any_eq_true.mp h
  obtain ⟨task, htask, hp⟩ := (Option.any_eq_true ..).mp hany
  exact ⟨i, task, htask, hp⟩

theorem Atm.suspended_suspend (s : Atm) {cont : Cont} {phase : Phase} {p : Suspension → Bool}
    (hp : p ⟨cont, phase⟩ = true) : (s.suspend cont phase).Suspended p :=
  ⟨s.nextTask, ⟨cont, phase⟩, by simp [Atm.suspend], hp⟩

theorem Atm.Suspended.suspend {s : Atm} {p : Suspension → Bool} (hfresh : s.Fresh)
    (h : s.Suspended p) (cont : Cont) (phase : Phase) : (s.suspend cont phase).Suspended p := by
  obtain ⟨i, task, htask, hp⟩ := h
  have hne : i ≠ s.nextTask := (hfresh.lt htask).ne
  exact ⟨i, task, by simpa [Atm.suspend, Function.update_of_ne hne] using htask, hp⟩

/-- A task that meets `p` is lost only where the new one in its place does not meet it. -/
theorem Atm.Suspended.setTask {s : Atm} {p : Suspension → Bool} (h : s.Suspended p) {i : Nat}
    {old : Suspension} {new : Option Suspension} (hold : s.tasks i = some old)
    (hnew : p old = true → new.any p = true) : (s.setTask i new).Suspended p := by
  obtain ⟨j, task, htask, hp⟩ := h
  by_cases hj : j = i
  · subst hj
    cases htask.symm.trans hold
    obtain ⟨task', rfl, hp'⟩ := (Option.any_eq_true ..).mp (hnew hp)
    exact ⟨j, task', by simp [Atm.setTask], hp'⟩
  · exact ⟨j, task, by simpa [Atm.setTask, Function.update_of_ne hj] using htask, hp⟩

/-- A task that does not meet `p` is not the one that does. -/
theorem Atm.Suspended.besides {s : Atm} {p : Suspension → Bool} (h : s.Suspended p) {i : Nat}
    {old : Suspension} (hold : s.tasks i = some old) (hp : p old = false)
    (new : Option Suspension) : (s.setTask i new).Suspended p := by
  apply h.setTask hold
  intro hmeets
  rw [hp] at hmeets
  cases hmeets

theorem Atm.Fresh.not_suspended {s : Atm} (h : s.Fresh) (hquiet : s.quiet = true)
    (p : Suspension → Bool) : ¬ s.Suspended p := by
  rintro ⟨i, task, htask, -⟩
  cases (h.none_of_quiet hquiet i).symm.trans htask

/-- A card is inserted, authenticated and its PIN entered; the host works on the verification. The
tasks are numbered from `first`. -/
def toVerification (pan : String) (first : Nat) : List AtmStep :=
  [.onCardInserted pan, .resume first .done, .executeCommand (first + 1) none,
   .resume (first + 1) .done, .resume (first + 2) (.auth ⟨true, some "ACC", "00", none⟩),
   .beginPinEntry, .executeCommand (first + 3) none,
   .pressKey "1", .pressKey "2", .pressKey "3", .pressKey "4", .pressKey "ENTER",
   .resume (first + 3) .done]

end AtmXfs
