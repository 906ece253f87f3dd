import AtmXfs.Lib.JsNumber

namespace AtmXfs.Pin

open Js

inductive Mode where
  | pin | data
  deriving DecidableEq

structure PinGetPinPayload where
  minLen : Number
  maxLen : Number
  autoEnd : Bool
  activeKeys : List String
  terminateKeys : List String
  deriving DecidableEq

/-- What a command or an entry is answered with; a PIN block stands here with the key that
`encrypt3DES` then applies to it. -/
inductive Answer where
  | done
  | pinLength (n : Nat)
  | data (digits : List Char)
  | pinBlock (clear : String) (key : String)
  | keys (names : List String)
  deriving DecidableEq

/-- An active entry; `waiter` stands for the promise that its end settles. -/
structure EntrySpec (κ : Type) where
  spec : PinGetPinPayload
  mode : Mode
  waiter : κ
  timeoutHandle : Nat
  deriving DecidableEq

/-- What happens to entries and digits, newest first in the log. -/
inductive PadAct where
  | began (spec : PinGetPinPayload) (mode : Mode)
  | terminated (spec : PinGetPinPayload) (mode : Mode) (digits : List Char)
  | cancelled (reason : String)
  | extracted (digits : List Char)
  | encrypted (digits : List Char)
  deriving DecidableEq

structure Pad (κ : Type) where
  pinBuffer : List Char
  active : Option (EntrySpec κ)
  timers : List (Nat × String)
  nextTimer : Nat
  log : List PadAct
  deriving DecidableEq

/-- The promises that an operation settles, in order. -/
abbrev Settled (κ : Type) := List (κ × Except String Answer)

inductive PinCommand where
  | getPin (spec : PinGetPinPayload)
  | getData (spec : PinGetPinPayload)
  | getPinBlock (keyName : String) (pan : String)
  | getKeyDetail
  | reset
  | other (commandCode : String)
  deriving DecidableEq

def keyStore : List (String × String) :=
  [("TPK", "0123456789ABCDEF0123456789ABCDEF"), ("TMK", "FEDCBA9876543210FEDCBA9876543210")]

def hexDigit (n : Nat) : Char := (Nat.digitChar n).toUpper

/-- For fields of one length; it throws for others, but a PIN field and a PAN field both have
sixteen digits. -/
def xorHex (a b : List Char) : List Char :=
  List.zipWith (fun x y => hexDigit ((digitValue x).getD 0 ^^^ (digitValue y).getD 0)) a b

/-- The digits of the PAN before the check digit, at most twelve, filled up with zeros. -/
def panDigits (pan : String) : List Char :=
  let strip := pan.toList.filter (isDigit 10)
  let digits := (strip.drop (strip.length - 13)).dropLast
  List.replicate (12 - digits.length) '0' ++ digits

def buildIso0PinBlock (pin : List Char) (pan : String) : Except String String :=
  if pin.length < 4 ∨ 12 < pin.length then
    .error ("invalid pin length: " ++ toString pin.length)
  else
    let pinField := '0' :: hexDigit pin.length :: pin ++ List.replicate (14 - pin.length) 'F'
    let panField := ['0', '0', '0', '0'] ++ panDigits pan
    .ok (String.ofList (xorHex pinField panField))

namespace Pad

variable {κ : Type}

def init : Pad κ where
  pinBuffer := []
  active := none
  timers := []
  nextTimer := 0
  log := []

def record (pad : Pad κ) (act : PadAct) : Pad κ := { pad with log := act :: pad.log }

def clearTimeout (pad : Pad κ) (handle : Nat) : Pad κ :=
  { pad with timers := pad.timers.filter fun timer => timer.1 ≠ handle }

def cancelEntry (pad : Pad κ) (reason : String) : Pad κ × Settled κ :=
  match pad.active with
  | none => (pad, [])
  | some entry =>
    ({ pad.clearTimeout entry.timeoutHandle with active := none, pinBuffer := [] }.record
      (.cancelled reason), [(entry.waiter, .error reason)])

def terminateEntry (pad : Pad κ) : Pad κ × Settled κ :=
  match pad.active with
  | none => (pad, [])
  | some entry =>
    let ended := { pad.clearTimeout entry.timeoutHandle with active := none }.record
      (.terminated entry.spec entry.mode pad.pinBuffer)
    match entry.mode with
    | .pin => (ended, [(entry.waiter, .ok (.pinLength pad.pinBuffer.length))])
    | .data => ({ ended with pinBuffer := [] }, [(entry.waiter, .ok (.data pad.pinBuffer))])

def pressKey (pad : Pad κ) (key : String) : Pad κ × Settled κ :=
  match pad.active with
  | none => (pad, [])
  | some entry =>
    if key = "CANCEL" then pad.cancelEntry "user cancelled"
    else if key = "CLEAR" then ({ pad with pinBuffer := [] }, [])
    else if key = "ENTER" ∨ key ∈ entry.spec.terminateKeys then
      if (Number.ofInt pad.pinBuffer.length).lt entry.spec.minLen then (pad, [])
      else pad.terminateEntry
    else
      match key.toList with
      | [c] =>
        if isDigit 10 c ∧ (Number.ofInt pad.pinBuffer.length).lt entry.spec.maxLen then
          let typed := { pad with pinBuffer := pad.pinBuffer ++ [c] }
          if entry.spec.autoEnd ∧ Number.ofInt typed.pinBuffer.length = entry.spec.maxLen then
            typed.terminateEntry
          else (typed, [])
        else (pad, [])
      | _ => (pad, [])

/-- The buffer is emptied; what it held is in the log. -/
def extractEnteredPin (pad : Pad κ) : Pad κ :=
  { pad with pinBuffer := [] }.record (.extracted pad.pinBuffer)

def timeoutReason : Mode → String
  | .pin => "pin entry timeout"
  | .data => "data entry timeout"

/-- The new entry with its timer, after the old one was superseded. -/
def arm (pad : Pad κ) (mode : Mode) (spec : PinGetPinPayload) (waiter : κ) : Pad κ :=
  { pad with
    pinBuffer := []
    active := some ⟨spec, mode, waiter, pad.nextTimer⟩
    timers := (pad.nextTimer, timeoutReason mode) :: pad.timers
    nextTimer := pad.nextTimer + 1 }.record (.began spec mode)

/-- `beginPinEntry` and `beginDataEntry`. -/
def beginEntry (pad : Pad κ) (mode : Mode) (spec : PinGetPinPayload) (waiter : κ) :
    Pad κ × Settled κ :=
  ((pad.cancelEntry "superseded").1.arm mode spec waiter, (pad.cancelEntry "superseded").2)

def getPinBlock (pad : Pad κ) (keyName pan : String) : Pad κ × Except String Answer :=
  if pad.pinBuffer = [] then (pad, .error "No PIN buffered")
  else
    match keyStore.lookup keyName with
    | none => (pad, .error ("Key not found: " ++ keyName))
    | some key =>
      match buildIso0PinBlock pad.pinBuffer pan with
      | .error detail => (pad, .error detail)
      | .ok clear =>
        ({ pad with pinBuffer := [] }.record (.encrypted pad.pinBuffer), .ok (.pinBlock clear key))

/-- A command with an error injected into the device or without; an entry is answered later. -/
def executeCommand (pad : Pad κ) (command : PinCommand) (waiter : κ) (injected : Option String) :
    Pad κ × Settled κ :=
  match command, injected with
  | .reset, _ =>
    ({ (pad.cancelEntry "device reset").1 with pinBuffer := [] },
      (pad.cancelEntry "device reset").2 ++ [(waiter, .ok .done)])
  | _, some code => (pad, [(waiter, .error ("XFS injected error: " ++ code))])
  | .getPin spec, none => pad.beginEntry .pin spec waiter
  | .getData spec, none => pad.beginEntry .data spec waiter
  | .getPinBlock keyName pan, none =>
    ((pad.getPinBlock keyName pan).1, [(waiter, (pad.getPinBlock keyName pan).2)])
  | .getKeyDetail, none => (pad, [(waiter, .ok (.keys (keyStore.map Prod.fst)))])
  | .other commandCode, none =>
    (pad, [(waiter, .error ("Unsupported PIN command: " ++ commandCode))])

/-- A pending timer fires and cancels whatever entry is active. -/
def fire (pad : Pad κ) (handle : Nat) : Option (Pad κ × Settled κ) :=
  match pad.timers.find? fun timer => timer.1 = handle with
  | none => none
  | some timer => some ((pad.clearTimeout handle).cancelEntry timer.2)

end Pad

end AtmXfs.Pin
