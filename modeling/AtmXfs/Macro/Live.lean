import AtmXfs.Macro.Stack

namespace AtmXfs.Macro

open Js Host Pin TwoRuns TwoRuns.Comp

/-- A call of the runner or of the service, which may throw an error with a message. -/
abbrev Run (α : Type) := Comp AtmStack Text α

def stateText : AtmState → String
  | .idle => "IDLE"
  | .cardInserted => "CARD_INSERTED"
  | .pinEntry => "PIN_ENTRY"
  | .pinVerified => "PIN_VERIFIED"
  | .mainMenu => "MAIN_MENU"
  | .amountEntry => "AMOUNT_ENTRY"
  | .confirm => "CONFIRM"
  | .processing => "PROCESSING"
  | .dispensing => "DISPENSING"
  | .printing => "PRINTING"
  | .ejecting => "EJECTING"
  | .error => "ERROR"
  | .ended => "ENDED"

def txnStatusText : TxnStatus → String
  | .pending => "PENDING"
  | .completed => "COMPLETED"
  | .failed => "FAILED"
  | .reversed => "REVERSED"

/-- A transaction type by its name; no other text is read again once it is stored. -/
def txnTypeOf (txn : Text) : Option TxnType :=
  if txn = utf16 "WITHDRAWAL" then some .withdrawal
  else if txn = utf16 "BALANCE" then some .balance
  else if txn = utf16 "TRANSFER" then some .transfer
  else if txn = utf16 "DEPOSIT" then some .deposit
  else none

/-- A property of `this.session`, which may be null. -/
def session? {α : Type} (f : LiveSession → α) : Run (Option α) := reads (·.session.map f)

/-- A property of `this.session`, which must not be null. -/
def session! {α : Type} (f : LiveSession → α) : Run α := do
  match ← session? f with
  | some a => return a
  | none => throw (utf16 "Cannot read properties of null")

/-- Why a call is refused in a state of the session. -/
def wrongState (doing : String) (current : Option AtmState) : Text :=
  utf16 (doing ++ " in state=" ++ (current.map stateText).getD "none")

/-- The session is in the state that a call needs. -/
def requireState (state : AtmState) (doing : String) : Run Unit := do
  let current ← session? (·.state)
  ensure (current = some state) (wrongState doing current)

/-- `beginPinEntry` up to its first await; its promise is kept, also when it is rejected. -/
def beginPinEntry : Run Unit := do
  let current ← session? (·.state)
  writes fun s => { s with
    entryCall := some (if current = some .pinEntry then .arming
      else .thrown (wrongState "cannot begin PIN entry" current)) }

section
variable (P : Platform) (moments : Nat → Moment)

def await : Run Moment := swaps fun s =>
  (moments s.clock,
    (moments s.clock).happenings.foldl (AtmStack.happen P) { s with clock := s.clock + 1 })

/-- `xfs.execute`: the delay of the device, its command and the log of it. -/
def execute {α : Type} (device : XfsDevice)
    (command : Moment → AtmStack → Except String α × AtmStack) : Run (Except String α) := do
  let moment ← await P moments
  let result ← swaps (AtmStack.executeCommand P device (command moment))
  let _ ← await P moments
  return result

def safeEject : Run Unit := do
  if ← reads (·.card.isSome) then
    let _ ← execute P moments .idc fun _ => AtmStack.ejectCard
  else return

def endSession (reason : EndReason) : Run Unit := do
  if ← reads (·.session.isSome) then
    writes (·.beginEnd reason)
    let _ ← await P moments
    writes (·.finishEnd)
  else return

def markError (msg : String) : Run Unit := do
  if ← reads (·.session.isSome) then
    writes (·.fail msg)
    safeEject P moments
    endSession P moments .error
  else return

def onCardInserted (pan : String) : Run Unit := do
  ensure (← reads (·.session.isNone)) (utf16 "Session already active")
  writes fun s => { s with
    session := some { AtmSession.fresh pan with id := (moments s.clock).token, idleTimer := false } }
  let _ ← await P moments
  writes (·.notifyState)
  if ← swaps (AtmStack.insertCard pan) then
    match ← execute P moments .idc fun _ => AtmStack.readTrack with
    | .error detail => markError P moments ("IDC read failed: " ++ detail)
    | .ok () =>
      let moment ← await P moments
      let auth ← reads fun s => authenticate s.bank.db moment.now pan
      if auth.success then
        writes fun s => s.modify fun session => { session with accountId := auth.accountId }
        writes (·.transitionTo .pinEntry)
      else markError P moments ("card declined: " ++ auth.reason.getD auth.responseCode)
  else markError P moments "insert rejected: card already in reader"

/-- What a step is answered by its call of `beginPinEntry`, which takes a step of its own after
each await; nine are enough for any call. -/
def awaitEntry : Nat → Run PinVerdict
  | 0 => throw []
  | n + 1 => do
    match ← reads (·.entryCall) with
    | some (.returned verdict) =>
      writes (·.abandonEntry)
      return verdict
    | some (.thrown message) =>
      writes (·.abandonEntry)
      throw message
    | _ =>
      let _ ← await P moments
      writes (·.proceedEntry P)
      awaitEntry n

def receiptFields (fields : List (String × Text)) : Ptr.PtrPrintFormPayload :=
  ⟨utf16 "RECEIPT", fields.map fun field => (utf16 field.1, field.2)⟩

/-- The last four characters. -/
def cardLast4 (pan : String) : Text := (utf16 pan).sliceFrom (some (-4))

/-- The receipt is printed or not, and the session ends as completed. -/
def printAndEnd (fields : List (String × Text)) : Run Unit := do
  let _ ← execute P moments .ptr fun moment =>
    AtmStack.printForm moment.stamp (receiptFields fields)
  writes (·.transitionTo .ejecting)
  safeEject P moments
  endSession P moments .completed

def processBalance : Run Unit := do
  writes (·.transitionTo .processing)
  let pan ← session! (·.cardPan)
  let _ ← await P moments
  let balance ← reads fun s => s.getBalance pan
  if balance.2 = "00" then
    writes (·.transitionTo .printing)
    let pan ← session! (·.cardPan)
    printAndEnd P moments [("bankName", P.bankName), ("atmId", P.atmId),
      ("txnType", utf16 "BALANCE INQUIRY"), ("cardLast4", cardLast4 pan),
      ("balance", P.toLocaleString balance.1)]
  else markError P moments ("balance inquiry declined (" ++ balance.2 ++ ")")

/-- The part of `processWithdrawal` after a dispense that failed. -/
def afterDispenseError (stanNo detail : String) : Run Unit := do
  let session ← session! fun session =>
    (session.id, session.cardPan, session.accountId, session.amount)
  let moment ← await P moments
  match session.2.2.1, session.2.2.2 with
  | some accountId, some amount =>
    ensure (← swaps (AtmStack.reverseTransaction moment.now
        ⟨stanNo, session.1, session.2.1, accountId, .ofInt amount, detail⟩))
      (utf16 "reversal failed")
    markError P moments ("dispense failed: " ++ detail)
  | _, _ => throw (utf16 "invalid argument of the reversal")

def processWithdrawal : Run Unit := do
  match ← session? fun session => (session.id, session.cardPan, session.amount) with
  | some (id, pan, some amount) =>
    let moment ← await P moments
    let auth ← swaps (AtmStack.authorizeWithdrawal moment.now moment.token
      ⟨pan, .ofInt amount, id, none⟩)
    if auth.approved then
      let held ← session! (·.amount)
      writes fun s => s.modify fun session => { session with stanNo := some auth.stanNo }
      writes (·.transitionTo .dispensing)
      match ← execute P moments .cdm fun _ => AtmStack.dispense P held with
      | .error detail => afterDispenseError P moments auth.stanNo detail
      | .ok () =>
        writes (·.transitionTo .printing)
        let session ← session! fun session => (session.cardPan, session.amount)
        match session.2 with
        | none => throw (utf16 "Cannot read properties of undefined")
        | some amount =>
          printAndEnd P moments [("bankName", P.bankName), ("atmId", P.atmId),
            ("traceNo", utf16 auth.stanNo), ("txnType", utf16 "WITHDRAWAL"),
            ("cardLast4", cardLast4 session.1),
            ("amount", P.toLocaleString (.ofInt amount)),
            ("total", P.toLocaleString (.ofInt amount)),
            ("balance", (auth.balanceAfter.map P.toLocaleString).getD (utf16 "***"))]
    else
      markError P moments (auth.reason.getD ("host declined (" ++ auth.responseCode ++ ")"))
  | _ => return

def selectTransaction (txn : Text) : Run Unit := do
  requireState .mainMenu "cannot select transaction"
  writes fun s => s.modify fun session => { session with selectedTxn := txnTypeOf txn }
  if txnTypeOf txn = some .balance then processBalance P moments
  else if txnTypeOf txn = some .withdrawal then writes (·.transitionTo .amountEntry)
  else markError P moments ("transaction type not supported: " ++ stringOf txn)

def submitAmount (amount : Number) : Run Unit := do
  requireState .amountEntry "cannot submit amount"
  match amount.toInt? with
  | some n =>
    ensure (0 < n ∧ n % 20000 = 0) (utf16 "amount must be a positive multiple of 20000 IDR")
    writes fun s => s.modify fun session => { session with amount := some n }
    writes (·.transitionTo .confirm)
  | none => throw (utf16 "amount must be a positive multiple of 20000 IDR")

def confirmTransaction : Run Unit := do
  requireState .confirm "cannot confirm"
  writes (·.transitionTo .processing)
  if (← session? (·.selectedTxn)) = some (some .withdrawal) then processWithdrawal P moments
  else markError P moments "unsupported transaction"

def cancelTransaction : Run Unit := do
  if ← reads (·.session.isSome) then
    safeEject P moments
    endSession P moments .cancelled
  else return

end

end AtmXfs.Macro
