import AtmXfs.Lib.JsArithmetic
import AtmXfs.Xfs.Base
import Mathlib.Data.List.Sort
import Mathlib.Data.List.Nodup

namespace AtmXfs.Cdm

open Js

inductive CashUnitStatus where
  | ok | low | empty | jammed | inoperative
  deriving DecidableEq

structure CashUnit where
  unitId : String
  denomination : Nat
  status : CashUnitStatus
  count : Int
  initialCount : Int
  maximum : Int
  minimum : Int
  deriving DecidableEq

def setUnit (units : List CashUnit) (u : CashUnit) : List CashUnit :=
  if u.unitId ∈ units.map CashUnit.unitId then
    units.map fun v => if v.unitId = u.unitId then u else v
  else units ++ [u]

theorem map_setUnit (units : List CashUnit) (u : CashUnit)
    (h : u.unitId ∈ units.map CashUnit.unitId) :
    (setUnit units u).map CashUnit.unitId = units.map CashUnit.unitId := by
  rw [setUnit, if_pos h, List.map_map]
  apply List.map_congr_left
  intro v _
  simp only [Function.comp_apply]
  split_ifs with hv
  · exact hv.symm
  · rfl

theorem nodup_setUnit {units : List CashUnit} (h : (units.map CashUnit.unitId).Nodup)
    (u : CashUnit) : ((setUnit units u).map CashUnit.unitId).Nodup := by
  by_cases hu : u.unitId ∈ units.map CashUnit.unitId
  · rw [map_setUnit units u hu]
    exact h
  · rw [setUnit, if_neg hu, List.map_append]
    exact List.nodup_append.mpr ⟨h, List.nodup_singleton _, by
      rintro a ha b hb rfl
      exact hu (List.mem_singleton.mp hb ▸ ha)⟩

/-- The map from unit ids to cassettes, in the order of insertion. -/
structure CashUnits where
  values : List CashUnit
  nodup : (values.map CashUnit.unitId).Nodup
  deriving DecidableEq

namespace CashUnits

def empty : CashUnits := ⟨[], List.nodup_nil⟩

def get (t : CashUnits) (unitId : String) : Option CashUnit :=
  t.values.find? fun u => u.unitId = unitId

def set (t : CashUnits) (u : CashUnit) : CashUnits := ⟨setUnit t.values u, nodup_setUnit t.nodup u⟩

end CashUnits

/-- A property name of a mix: the text of a denomination, or a text out of a request. -/
inductive DenomStr where
  | ofNumber (n : Nat)
  | text (s : String)
  deriving DecidableEq

namespace DenomStr

/-- `Number(denomStr)`; the text of a number reads back as that number. -/
def toNumber : DenomStr → Number
  | ofNumber n => .ofInt n
  | text s => number s

def toText : DenomStr → String
  | ofNumber n => toString n
  | text s => s

def index? : DenomStr → Option Nat
  | ofNumber n => if n < 2 ^ 32 - 1 then some n else none
  | text s => arrayIndex? s

end DenomStr

/-- `Object.entries`: array indices in ascending order, then the other names as they came. -/
def objectEntries {α : Type} (mix : List (DenomStr × α)) : List (DenomStr × α) :=
  ((mix.filter fun e => e.1.index?.isSome).insertionSort
      fun a b => a.1.index?.getD 0 ≤ b.1.index?.getD 0) ++
    mix.filter fun e => !e.1.index?.isSome

abbrev Mix := List (DenomStr × Int)

inductive CdmMixType where
  | minNotes | maxNotes | custom
  deriving DecidableEq

structure CdmDispensePayload where
  amount : Number
  mixType : CdmMixType
  customMix : Option (List (String × Number))
  present : Bool

inductive CdmCommand where
  | dispense (payload : CdmDispensePayload)
  | present
  | retract
  | reject
  | cashUnitInfo
  | count
  | startExchange
  | endExchange
  | reset
  | other (code : String)

inductive CdmError where
  | injected (code : Int)
  | unsupported (code : String)
  | unknownCassette (unitId : String)
  | replenishRange (maximum : Int)
  | invalidAmount (amount : Number)
  | noActiveCassette (denom : Number)
  | insufficientNotes (unitId : String) (need held : Int)
  | noCashToPresent
  | nothingToRetract
  | cannotDispense (remaining : Number)
  | invalidDenom (denomStr : String)
  | invalidCount (denomStr : String)
  | customMixSum (sum : Number) (amount : Int)
  | typeError
  deriving DecidableEq

/-- The text of the thrown error, `print` being the text of a number. -/
def CdmError.message (print : Number → String) : CdmError → String
  | .injected code => "XFS injected error: " ++ toString code
  | .unsupported code => "Unsupported CDM command: " ++ code
  | .unknownCassette unitId => "Unknown cassette: " ++ unitId
  | .replenishRange maximum => "replenish out of range: 0.." ++ toString maximum
  | .invalidAmount amount => "invalid amount: " ++ print amount
  | .noActiveCassette denom => "no active cassette for denomination " ++ print denom
  | .insufficientNotes unitId need held =>
    "insufficient notes in " ++ unitId ++ " (need " ++ toString need ++ ", have " ++
      toString held ++ ")"
  | .noCashToPresent => "no cash to present"
  | .nothingToRetract => "nothing to retract"
  | .cannotDispense remaining =>
    "cannot dispense exact amount; " ++ print remaining ++ " IDR remaining"
  | .invalidDenom denomStr => "invalid denom: " ++ denomStr
  | .invalidCount denomStr => "invalid count for " ++ denomStr
  | .customMixSum sum amount =>
    "custom mix sum " ++ print sum ++ " != requested amount " ++ print (.ofInt amount)
  | .typeError => "Cannot read properties of undefined"

inductive CdmEvent where
  | notesPresented (amount : Int)
  | notesTaken (amount : Int)
  | cashUnitThreshold (unit : CashUnit)
  | jam (unitId : String)
  deriving DecidableEq

structure PresentedCash where
  amount : Int
  notes : Mix
  deriving DecidableEq

/-- The dispenser, with the events it has emitted so far. -/
structure CdmDeviceService where
  cashUnits : CashUnits
  presentedCash : Option PresentedCash
  takeTimer : Bool
  injectedError : Option Int
  events : List CdmEvent
  deriving DecidableEq

structure CdmDispenseResult where
  mix : Mix
  totalDispensed : Int
  deriving DecidableEq

inductive CdmResult where
  | dispensed (r : CdmDispenseResult)
  | presented (amount : Int)
  | unitInfo (units : List CashUnit) (totalDispensed : Int)
  | counted (totalAmount totalNotes : Int)
  | done
  deriving DecidableEq

def initializeCassettes : CashUnits where
  values := [⟨"CASS1", 100000, .ok, 500, 500, 2500, 50⟩,
    ⟨"CASS2", 50000, .ok, 1000, 1000, 2500, 100⟩,
    ⟨"CASS3", 20000, .ok, 500, 500, 2500, 50⟩,
    ⟨"REJECT", 0, .ok, 0, 0, 300, 0⟩]
  nodup := by decide

def loadCassettes (units : List CashUnit) : CashUnits := units.foldl CashUnits.set CashUnits.empty

namespace CdmDeviceService

/-- A freshly constructed device with the given cassettes. -/
def new (cashUnits : CashUnits) : CdmDeviceService := ⟨cashUnits, none, false, none, []⟩

def emit (s : CdmDeviceService) (e : CdmEvent) : CdmDeviceService :=
  { s with events := s.events ++ [e] }

/-- Write back a cassette that is already in the map. -/
def putUnit (s : CdmDeviceService) (u : CashUnit) : CdmDeviceService :=
  { s with cashUnits := s.cashUnits.set u }

end CdmDeviceService

/-- `MIN_NOTES` takes notes from these cassettes. -/
def spendable (u : CashUnit) : Bool :=
  u.unitId ≠ "REJECT" ∧ u.status ≠ .jammed ∧ u.status ≠ .inoperative ∧ 0 < u.count

def spendableUnits (units : CashUnits) : List CashUnit :=
  (units.values.filter spendable).insertionSort fun a b => b.denomination ≤ a.denomination

/-- `mix[denomStr] = count`. -/
def setCount (mix : Mix) (key : DenomStr) (count : Int) : Mix :=
  if key ∈ mix.map Prod.fst then mix.map fun e => if e.1 = key then (key, count) else e
  else mix ++ [(key, count)]

/-- The notes the greedy pass takes from one cassette. -/
def takeNotes (u : CashUnit) (remaining : Number) : Number :=
  (Number.ofInt u.count).min (remaining.div (.ofInt u.denomination)).floor

/-- One turn of the loop. What is taken is a whole number whenever it is positive. -/
def minNotesTurn (u : CashUnit) (mix : Mix) (remaining : Number) : Mix × Number :=
  let take := takeNotes u remaining
  if (Number.ofInt 0).lt take then
    (setCount mix (.ofNumber u.denomination) (take.toInt?.getD 0),
      remaining.sub (take.mul (.ofInt u.denomination)))
  else (mix, remaining)

def minNotesLoop : List CashUnit → Mix → Number → Mix × Number
  | [], mix, remaining => (mix, remaining)
  | u :: us, mix, remaining =>
    let turn := minNotesTurn u mix remaining
    if turn.2 = .ofInt 0 then turn else minNotesLoop us turn.1 turn.2

def calculateMinNotesMix (units : CashUnits) (amount : Int) : Except CdmError Mix :=
  let (mix, remaining) := minNotesLoop (spendableUnits units) [] (.ofInt amount)
  if (Number.ofInt 0).lt remaining then .error (.cannotDispense remaining) else .ok mix

/-- The validation loop: the sum and the counts of the entries, or the first bad entry. -/
def customMixLoop : List (DenomStr × Number) → Number → Mix → Except CdmError (Number × Mix)
  | [], sum, mix => .ok (sum, mix)
  | (key, count) :: es, sum, mix =>
    match key.toNumber.toInt? with
    | none => .error (.invalidDenom key.toText)
    | some denom =>
      if denom ≤ 0 then .error (.invalidDenom key.toText)
      else match count.toInt? with
        | none => .error (.invalidCount key.toText)
        | some n =>
          if n < 0 then .error (.invalidCount key.toText)
          else customMixLoop es (sum.add ((Number.ofInt denom).mul (.ofInt n))) (mix ++ [(key, n)])

def validateCustomMix (amount : Int) (mix : List (String × Number)) : Except CdmError Mix :=
  match customMixLoop (objectEntries (mix.map fun e => (.text e.1, e.2))) (.ofInt 0) [] with
  | .error e => .error e
  | .ok (sum, counts) =>
    if sum ≠ .ofInt amount then .error (.customMixSum sum amount) else .ok counts

def matchesDenom (denom : Number) (u : CashUnit) : Bool :=
  Number.ofInt u.denomination = denom ∧ u.unitId ≠ "REJECT" ∧ u.status ≠ .jammed

def findSpendableUnitByDenom (units : CashUnits) (denom : Number) : Option CashUnit :=
  units.values.find? (matchesDenom denom)

/-- Pre-flight: every entry of the mix has a cassette with enough notes. -/
def preflight (units : CashUnits) : Mix → Except CdmError Unit
  | [] => .ok ()
  | (key, needed) :: es =>
    match findSpendableUnitByDenom units key.toNumber with
    | none => .error (.noActiveCassette key.toNumber)
    | some unit =>
      if unit.count < needed then .error (.insufficientNotes unit.unitId needed unit.count)
      else preflight units es

/-- A cassette after `count` notes have been drawn from it. -/
def drawNotes (u : CashUnit) (count : Int) : CashUnit :=
  { u with
    count := u.count - count
    status := if u.count - count = 0 then .empty
      else if u.count - count ≤ u.minimum then .low else u.status }

/-- One turn of the deduction loop. -/
def deductEntry (s : CdmDeviceService) (u : CashUnit) (count : Int) : CdmDeviceService :=
  let u' := drawNotes u count
  if u'.status ≠ .ok then (s.putUnit u').emit (.cashUnitThreshold u') else s.putUnit u'

def deduct (s : CdmDeviceService) : Mix → Except CdmError Unit × CdmDeviceService
  | [] => (.ok (), s)
  | (key, count) :: es =>
    match findSpendableUnitByDenom s.cashUnits key.toNumber with
    | none => (.error .typeError, s)
    | some unit => deduct (deductEntry s unit count) es

def present (s : CdmDeviceService) : Except CdmError CdmResult × CdmDeviceService :=
  match s.presentedCash with
  | none => (.error .noCashToPresent, s)
  | some cash =>
    (.ok (.presented cash.amount), { s.emit (.notesPresented cash.amount) with takeTimer := true })

/-- The whole positive amount a request asks for. -/
def checkAmount (amount : Number) : Except CdmError Int :=
  match amount.toInt? with
  | none => .error (.invalidAmount amount)
  | some n => if n ≤ 0 then .error (.invalidAmount amount) else .ok n

def chooseMix (s : CdmDeviceService) (payload : CdmDispensePayload) (amount : Int) :
    Except CdmError Mix :=
  match payload.mixType, payload.customMix with
  | .custom, some mix => validateCustomMix amount mix
  | _, _ => calculateMinNotesMix s.cashUnits amount

/-- The mix a request is paid in, once every check before the deduction has passed. -/
def planDispense (s : CdmDeviceService) (payload : CdmDispensePayload) :
    Except CdmError (Int × Mix) :=
  match checkAmount payload.amount with
  | .error e => .error e
  | .ok amount =>
    match chooseMix s payload amount with
    | .error e => .error e
    | .ok mix =>
      match preflight s.cashUnits (objectEntries mix) with
      | .error e => .error e
      | .ok () => .ok (amount, mix)

def dispense (s : CdmDeviceService) (payload : CdmDispensePayload) :
    Except CdmError CdmDispenseResult × CdmDeviceService :=
  match planDispense s payload with
  | .error e => (.error e, s)
  | .ok (amount, mix) =>
    match deduct s (objectEntries mix) with
    | (.error e, s') => (.error e, s')
    | (.ok (), s') =>
      let held := { s' with presentedCash := some ⟨amount, mix⟩ }
      (.ok ⟨mix, amount⟩, if payload.present then (present held).2 else held)

def totalNotes (mix : Mix) : Int := (mix.map Prod.snd).sum

def retract (s : CdmDeviceService) : Except CdmError CdmResult × CdmDeviceService :=
  match s.presentedCash with
  | none => (.error .nothingToRetract, s)
  | some cash =>
    let stopped := { s with takeTimer := false, presentedCash := none }
    match s.cashUnits.get "REJECT" with
    | none => (.ok .done, stopped)
    | some reject =>
      (.ok .done, stopped.putUnit { reject with count := reject.count + totalNotes cash.notes })

def getCashUnitInfo (s : CdmDeviceService) : CdmResult :=
  .unitInfo s.cashUnits.values
    (s.cashUnits.values.map fun u => max 0 (u.initialCount - u.count) * (u.denomination : Int)).sum

def count (s : CdmDeviceService) : CdmResult :=
  let units := s.cashUnits.values.filter fun u => u.unitId ≠ "REJECT"
  .counted (units.map fun u => u.count * (u.denomination : Int)).sum (units.map CashUnit.count).sum

/-- The commands behind the check for an injected error. -/
def perform (s : CdmDeviceService) : CdmCommand → Except CdmError CdmResult × CdmDeviceService
  | .dispense payload =>
    match dispense s payload with
    | (.ok r, s') => (.ok (.dispensed r), s')
    | (.error e, s') => (.error e, s')
  | .present => present s
  | .retract | .reject => retract s
  | .cashUnitInfo => (.ok (getCashUnitInfo s), s)
  | .count => (.ok (count s), s)
  | .startExchange | .endExchange => (.ok .done, s)
  | .reset => (.ok .done, s)
  | .other code => (.error (.unsupported code), s)

def checkInjectedError (command : CdmDeviceService → Except CdmError CdmResult × CdmDeviceService)
    (s : CdmDeviceService) : Except CdmError CdmResult × CdmDeviceService :=
  Xfs.checkInjectedError (·.injectedError) (fun s => { s with injectedError := none })
    (fun code => .error (.injected code)) command s

theorem checkInjectedError_some {s : CdmDeviceService} {code : Int}
    (h : s.injectedError = some code)
    (command : CdmDeviceService → Except CdmError CdmResult × CdmDeviceService) :
    checkInjectedError command s = (.error (.injected code), { s with injectedError := none }) :=
  Xfs.checkInjectedError_some h

theorem checkInjectedError_none {s : CdmDeviceService} (h : s.injectedError = none)
    (command : CdmDeviceService → Except CdmError CdmResult × CdmDeviceService) :
    checkInjectedError command s = command s := Xfs.checkInjectedError_none h

def executeCommand (s : CdmDeviceService) (c : CdmCommand) :
    Except CdmError CdmResult × CdmDeviceService :=
  match c with
  | .reset =>
    (.ok .done, { s with takeTimer := false, presentedCash := none, injectedError := none })
  | c => checkInjectedError (perform · c) s

def takeTimerExpired (s : CdmDeviceService) : CdmDeviceService :=
  match s.presentedCash with
  | some cash =>
    { s.emit (.notesTaken cash.amount) with presentedCash := none, takeTimer := false }
  | none => { s with takeTimer := false }

/-- The status a count stands for. -/
def statusOfCount (count minimum : Int) : CashUnitStatus :=
  if count = 0 then .empty else if count ≤ minimum then .low else .ok

def replenishCassette (s : CdmDeviceService) (unitId : String) (newCount : Int) :
    Except CdmError CashUnit × CdmDeviceService :=
  match s.cashUnits.get unitId with
  | none => (.error (.unknownCassette unitId), s)
  | some unit =>
    if newCount < 0 ∨ unit.maximum < newCount then (.error (.replenishRange unit.maximum), s)
    else
      let unit' := { unit with count := newCount, status := statusOfCount newCount unit.minimum }
      (.ok unit', s.putUnit unit')

def simulateJam (s : CdmDeviceService) (unitId : String) :
    Except CdmError Unit × CdmDeviceService :=
  match s.cashUnits.get unitId with
  | none => (.error (.unknownCassette unitId), s)
  | some unit => (.ok (), (s.putUnit { unit with status := .jammed }).emit (.jam unitId))

def clearJam (s : CdmDeviceService) (unitId : String) :
    Except CdmError Unit × CdmDeviceService :=
  match s.cashUnits.get unitId with
  | none => (.error (.unknownCassette unitId), s)
  | some unit => (.ok (), s.putUnit { unit with status := statusOfCount unit.count unit.minimum })

/-- What can happen to the dispenser. -/
inductive CdmOp where
  | command (c : CdmCommand)
  | takeTimer
  | replenish (unitId : String) (newCount : Int)
  | jam (unitId : String)
  | clearJam (unitId : String)
  | injectError (code : Int)
  | clearError

def step (s : CdmDeviceService) : CdmOp → Option CdmDeviceService
  | .command c => some (executeCommand s c).2
  | .takeTimer => if s.takeTimer then some (takeTimerExpired s) else none
  | .replenish unitId newCount => some (replenishCassette s unitId newCount).2
  | .jam unitId => some (simulateJam s unitId).2
  | .clearJam unitId => some (clearJam s unitId).2
  | .injectError code => some { s with injectedError := some code }
  | .clearError => some { s with injectedError := none }

end AtmXfs.Cdm
