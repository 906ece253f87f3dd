import AtmXfs.Macro.Live

namespace AtmXfs.Macro

open Js Host Pin TwoRuns TwoRuns.Comp

/-- A value of `paramMap`; of two parameters with one name the later counts. -/
def param (step : MacroStep) (name : String) : Option ParameterValue :=
  (step.parameters.reverse.find? fun p => p.name = utf16 name).map (·.value)

/-- `Number(value)`. -/
def valueNumber : ParameterValue → Number
  | .text s => number (stringOf s)
  | .number n => n
  | .boolean b => .ofInt (if b then 1 else 0)

def paramNumber (step : MacroStep) (name : String) (other : Number) : Number :=
  ((param step name).map valueNumber).getD other

/-- The variables that a selected card sets. -/
def MacroRunContext.select (ctx : MacroRunContext) (pan : String) (cardholderName : String) :
    MacroRunContext where
  selectedPan := some pan
  vars := Function.update (Function.update ctx.vars (utf16 "Card.pan") (some (utf16 pan)))
    (utf16 "Card.cardholderName") (some (utf16 cardholderName))

/-- The later of two transactions; of two at one time, the one that was written later. -/
def laterRow (last : Option Transaction) (row : Transaction) : Option Transaction :=
  match last with
  | none => some row
  | some other => if other.createdAt ≤ row.createdAt then some row else some other

/-- `transaction.findFirst` by descending time. -/
def lastTransaction (rows : List Transaction) : Option Transaction := rows.foldl laterRow none

section
variable (P : Platform) (moments : Nat → Moment)

/-- `String(value)`. -/
def valueText : ParameterValue → Text
  | .text s => s
  | .number n => utf16 (P.toText n)
  | .boolean b => utf16 (if b then "true" else "false")

def paramText (step : MacroStep) (name other : String) : Text :=
  ((param step name).map (valueText P)).getD (utf16 other)

def select (step : MacroStep) : Run Text := do
  let pan := (((param step "pan").orElse fun _ => param step "cardId").map (valueText P)).getD []
  ensure (pan ≠ []) (utf16 "Card: Select requires parameter \"pan\"")
  let _ ← await P moments
  match ← reads fun s => (s.bank.cards (stringOf pan)).map fun _ =>
      s.bank.cardholderName (stringOf pan) with
  | none => throw (utf16 "no virtual card with pan " ++ pan)
  | some cardholderName =>
    writes fun s => { s with ctx := s.ctx.select (stringOf pan) cardholderName }
    return utf16 "selected " ++ pan

def insert : Run Text := do
  match ← reads (·.ctx.selectedPan) with
  | none => throw (utf16 "Card: Insert requires prior Card: Select")
  | some pan =>
    let _ ← await P moments
    ensure (← reads fun s => (s.bank.cards pan).isSome) (utf16 "selected card disappeared")
    onCardInserted P moments pan
    return utf16 ("inserted " ++ pan)

/-- The reader holds a card, as the step expects, or holds none. -/
def cardCheck (held : Bool) (error message : String) : Run Text := do
  ensure ((← reads (·.card.isSome)) = held) (utf16 error)
  return utf16 message

/-- `resolveKey`, which throws for a variable that is not set. -/
def resolve (raw : Text) : Run Text := do
  match ← reads fun s => resolveKey s.ctx.vars raw with
  | some resolved => return resolved
  | none => throw (utf16 "variable " ++ raw.tail ++ utf16 " is unset")

def beginPin : Run Text := do
  beginPinEntry
  let _ ← awaitEntry P moments 9
  return utf16 "pin entry started"

def keyPressed (step : MacroStep) : Run Text := do
  let resolved ← resolve (paramText P step "key" "")
  writes fun s => ((presses resolved).map stringOf).foldl AtmStack.pressKey s
  return if isMultiDigit resolved then
      utf16 "pressed " ++ decimal resolved.length ++ utf16 " digits"
    else utf16 "pressed " ++ resolved

/-- Nobody handles the rejection of a promise, and the process ends. -/
def crash {α : Type} (message : Text) : Run α := do
  writes fun s => { s with down := true }
  throw message

/-- Whether the pad arms within two seconds; an entry that is active already counts as well.
While the step waits, nobody handles the rejection of its promise. -/
def waitArmed : Run Bool := do
  if ← reads (·.isEntryActive) then return true
  else
    let _ ← await P moments
    match ← reads (·.entryCall) with
    | some (.thrown message) => crash message
    | _ => reads (·.isEntryActive)

def enterPin (step : MacroStep) : Run Text := do
  let resolved ← resolve (paramText P step "pin" "Card.pin")
  beginPinEntry
  if ← waitArmed P moments then
    -- the keys go to whatever entry is active, of this call or of one left by an earlier step
    writes fun s => ((keysOf resolved).map stringOf ++ ["ENTER"]).foldl AtmStack.pressKey s
    let verdict ← awaitEntry P moments 9
    ensure verdict.verified (utf16 ("pin rejected: " ++ verdict.reason.getD "unknown"))
    return utf16 "pin " ++ decimal resolved.length ++ utf16 "-digit verified"
  else
    writes (·.abandonEntry)
    throw (utf16 "pin device did not arm within 2s")

def notesPresented : Run Text := do
  let _ ← await P moments
  match ← swaps (AtmStack.executeCommand P .cdm fun s => (.ok (Cdm.getCashUnitInfo s.cdm), s)) with
  | .ok _ => return utf16 "notes presented"
  | .error message => throw (utf16 message)

def printed : Run Text := do
  ensure (← reads fun s => !s.ptr.history.isEmpty) (utf16 "no receipts printed")
  reads fun s => decimal s.ptr.history.length ++ utf16 " receipts in history"

/-- The device of a name, or an error. -/
def deviceFor (name : Text) : Run XfsDevice := do
  if name = utf16 "IDC" then return .idc
  else if name = utf16 "PIN" then return .pin
  else if name = utf16 "CDM" then return .cdm
  else if name = utf16 "PTR" then return .ptr
  else throw (utf16 "unknown device for InjectError: " ++ name ++ utf16 " (use IDC|PIN|CDM|PTR)")

def injectXfsError (step : MacroStep) : Run Text := do
  let name := P.toUpperCase (paramText P step "device" "")
  let code := paramNumber step "errorCode" (.ofInt (-3))
  let device ← deviceFor name
  writes (·.inject device (some code))
  return utf16 ("injected " ++ P.toText code ++ " on ") ++ name

def clearXfsError (step : MacroStep) : Run Text := do
  let name := P.toUpperCase (paramText P step "device" "")
  let device ← deviceFor name
  writes (·.inject device none)
  return utf16 "cleared error on " ++ name

def sessionState (step : MacroStep) : Run Text := do
  let expected := P.toUpperCase (paramText P step "expected" "")
  let actual := utf16 (stateText ((← session? (·.state)).getD .ended))
  ensure (actual = expected)
    (utf16 "expected session state=" ++ expected ++ utf16 ", got " ++ actual)
  return utf16 "state=" ++ actual

def checkLastTransaction (step : MacroStep) : Run Text := do
  let expected := P.toUpperCase (paramText P step "status" "")
  let _ ← await P moments
  match ← reads fun s => lastTransaction s.bank.transactions with
  | none => throw (utf16 "no transactions found")
  | some tx =>
    ensure (utf16 (txnStatusText tx.status) = expected)
      (utf16 "expected last txn status=" ++ expected ++ utf16 (", got " ++
        txnStatusText tx.status ++ " (reason: " ++ tx.errorReason.getD "n/a" ++ ")"))
    return utf16 ("last txn=" ++ txnStatusText tx.status ++ " stan=" ++ tx.stanNo.getD "-")

/-- A branch of `executeStep`. -/
def branch (step : MacroStep) : Handler → Run Text
  | .select => select P moments step
  | .insert => insert P moments
  | .inserted => cardCheck true "no card in reader" "card inserted"
  | .readTracks => cardCheck true "no card to read tracks from" "tracks readable"
  | .ejected => cardCheck false "card still in reader" "card ejected"
  | .beginPin => beginPin P moments
  | .keyPressed => keyPressed P step
  | .enterPin => enterPin P moments step
  | .notesPresented => notesPresented P moments
  | .printed => printed
  | .selectTransaction => do
    let txnType := paramText P step "txnType" "WITHDRAWAL"
    selectTransaction P moments txnType
    return utf16 "selected " ++ paramText P step "txnType" "undefined"
  | .submitAmount => do
    submitAmount (paramNumber step "amount" .nan)
    return utf16 ("amount " ++ P.toText (paramNumber step "amount" .nan))
  | .confirm => do
    confirmTransaction P moments
    return utf16 "confirmed"
  | .cancel => do
    cancelTransaction P moments
    return utf16 "cancelled"
  | .wait => do
    let _ ← await P moments
    return utf16 ("waited " ++ P.toText (paramNumber step "ms" (.ofInt 500)) ++ "ms")
  | .injectError => injectXfsError P step
  | .clearError => clearXfsError P step
  | .sessionState => sessionState P step
  | .lastTransaction => checkLastTransaction P moments step

/-- A step with the update of the run's row before it. -/
def handle (handler : Handler) (step : MacroStep) (s : AtmStack) : AtmStack × Except Text Text :=
  let run : Run Text := do
    let _ ← await P moments
    branch P moments step handler
  ((run s).2, (run s).1)

/-- A macro as its row stores it. -/
structure SavedMacro where
  steps : List StoredStep
  vars : Variables

/-- The context of a new run, no step of which has begun a PIN entry. -/
def AtmStack.start (s : AtmStack) (saved : SavedMacro) : AtmStack :=
  { s with ctx := ⟨none, saved.vars⟩, entryCall := none, clock := 0 }

structure MacroRun where
  status : Text
  stepResults : List MacroStepResult

/-- `run` of a macro that is found: the state it leaves, and what it returns unless the process
ends. -/
def runMacro (saved : SavedMacro) (s : AtmStack) : AtmStack × Option MacroRun :=
  let (after, results) := resultsOf (handle P moments) (storedOrder saved.steps) (s.start saved)
  let status := if results.all (·.status = utf16 "PASSED") then utf16 "PASSED" else utf16 "FAILED"
  (after, if after.down then none else some ⟨status, results⟩)

end

end AtmXfs.Macro
