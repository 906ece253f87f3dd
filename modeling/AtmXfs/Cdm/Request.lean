import AtmXfs.Cdm.Cassettes
import AtmXfs.Lib.Json

namespace AtmXfs.Cdm

open Js

/-- A text of characters that are one unit each. -/
def stringOf (t : Text) : String := String.ofList (t.map fun u => Char.ofNat u.toNat)

/-- A value used as a number; the device asks for whole numbers only. -/
def asNumber : Option Json → Number
  | some (.num n) => n
  | _ => .nan

/-- A value used as a condition. -/
def isTruthy : Option Json → Bool
  | none => false
  | some .null => false
  | some (.bool b) => b
  | some (.num n) => n ≠ .nan ∧ n ≠ .fin 0
  | some (.str s) => s ≠ []
  | some (.arr _) => true
  | some (.obj _) => true

/-- `Object.entries` of a value that counts as true, with its values as numbers; a value that is
no number passes no test of the device, and neither does a text of one character. -/
def entriesOf : Json → List (String × Number)
  | .obj members => members.map fun m => (stringOf m.1, asNumber (some m.2))
  | .arr items => items.zipIdx.map fun e => (toString e.2, asNumber (some e.1))
  | .str s => s.zipIdx.map fun e => (toString e.2, .nan)
  | _ => []

/-- The payload of a DISPENSE taken apart; this throws for `null` and `undefined`. -/
def dispensePayload : Option Json → Option CdmDispensePayload
  | none => none
  | some .null => none
  | some payload =>
    let customMix := payload.get (utf16 "customMix")
    some {
      amount := asNumber (payload.get (utf16 "amount"))
      mixType := if Json.isText (payload.get (utf16 "mixType")) (utf16 "CUSTOM") then .custom
        else .minNotes
      customMix := if isTruthy customMix then customMix.map entriesOf else none
      present := isTruthy (payload.get (utf16 "present")) }

/-- The command that a code stands for; `none` is a DISPENSE without an object. -/
def commandOf (commandCode : String) (payload : Option Json) : Option CdmCommand :=
  if commandCode = "WFS_CMD_CDM_RESET" then some .reset
  else if commandCode = "WFS_CMD_CDM_DISPENSE" then (dispensePayload payload).map .dispense
  else if commandCode = "WFS_CMD_CDM_PRESENT" then some .present
  else if commandCode = "WFS_CMD_CDM_RETRACT" then some .retract
  else if commandCode = "WFS_CMD_CDM_REJECT" then some .reject
  else if commandCode = "WFS_CMD_CDM_CASH_UNIT_INFO" then some .cashUnitInfo
  else if commandCode = "WFS_CMD_CDM_COUNT" then some .count
  else if commandCode = "WFS_CMD_CDM_START_EXCHANGE" then some .startExchange
  else if commandCode = "WFS_CMD_CDM_END_EXCHANGE" then some .endExchange
  else some (.other commandCode)

/-- `executeCommand` as it is called, with any code and any payload. -/
def executeRequest (s : CdmDeviceService) (commandCode : String) (payload : Option Json) :
    Except CdmError CdmResult × CdmDeviceService :=
  match commandOf commandCode payload with
  | some c => executeCommand s c
  | none => checkInjectedError (fun s => (.error .typeError, s)) s

/-- Nothing has changed but that an injected error may have been consumed. -/
def Consumed (s s' : CdmDeviceService) : Prop :=
  s' = s ∨ s.injectedError.isSome ∧ s' = { s with injectedError := none }

theorem Consumed.cashUnits {s s' : CdmDeviceService} (h : Consumed s s') :
    s'.cashUnits = s.cashUnits := by
  rcases h with rfl | ⟨-, rfl⟩ <;> rfl

/-- A command that only throws consumes an injected error at most. -/
theorem consumed_of_throw (s : CdmDeviceService) (e : CdmError) :
    Consumed s (checkInjectedError (fun s => (.error e, s)) s).2 := by
  cases hinjected : s.injectedError with
  | some code =>
    rw [checkInjectedError_some hinjected]
    exact .inr ⟨by rw [hinjected]; rfl, rfl⟩
  | none =>
    rw [checkInjectedError_none hinjected]
    exact .inl rfl

/-- Everything a failing DISPENSE has done is its checks. -/
theorem dispense_failed {s s' : CdmDeviceService} {payload : CdmDispensePayload} {e : CdmError}
    (h : dispense s payload = (.error e, s')) : s' = s := by
  rcases dispense_cases h with ⟨_, -, -, hs⟩ | ⟨_, _, _, -, -, hr, -⟩
  · exact hs
  · cases hr

theorem present_failed {s s' : CdmDeviceService} {e : CdmError}
    (h : present s = (.error e, s')) : s' = s := by
  rw [present] at h
  split at h
  · cases h
    rfl
  · cases h

theorem retract_failed {s s' : CdmDeviceService} {e : CdmError}
    (h : retract s = (.error e, s')) : s' = s := by
  rw [retract] at h
  split at h
  · cases h
    rfl
  · simp only at h
    split at h <;> cases h

theorem executeCommand_failed {s s' : CdmDeviceService} {c : CdmCommand} {e : CdmError}
    (h : executeCommand s c = (.error e, s')) : Consumed s s' := by
  cases executeCommand_executed h with
  | injected _ hinjected => exact Or.inr ⟨by rw [hinjected]; rfl, rfl⟩
  | @dispense _ r' _ _ _ hd hr =>
    cases r' with
    | error e' => exact Or.inl (dispense_failed hd)
    | ok d => cases hr
  | present _ hp => exact Or.inl (present_failed hp)
  | retract _ _ hr => exact Or.inl (retract_failed hr)
  | answered _ _ => exact Or.inl rfl

theorem holdBundle_injectedError (s : CdmDeviceService) (payload : CdmDispensePayload)
    (amount : Int) (mix : Mix) :
    (holdBundle s payload amount mix).injectedError = s.injectedError := by
  simp only [holdBundle]
  split <;> rfl

/-- A command injects nothing. -/
theorem executeCommand_injectedError {s : CdmDeviceService} (hs : s.injectedError = none)
    (c : CdmCommand) : (executeCommand s c).2.injectedError = none := by
  rcases hrun : executeCommand s c with ⟨r, s'⟩
  cases executeCommand_executed hrun with
  | reset => rfl
  | injected _ _ => rfl
  | dispense _ hd _ =>
    rcases dispense_cases hd with ⟨_, -, -, heq⟩ | ⟨amount, mix, u, -, hu, -, heq⟩
    · rw [heq, hs]
    · rw [heq, holdBundle_injectedError, (deduct_frame hu).2.2.1, hs]
  | present _ hp =>
    rw [present] at hp
    split at hp
    · cases hp
      exact hs
    · cases hp
      exact hs
  | retract _ _ hr =>
    rw [retract] at hr
    split at hr
    · cases hr
      exact hs
    · simp only at hr
      split at hr
      · cases hr
        exact hs
      · cases hr
        exact hs
  | answered _ _ => exact hs

theorem executeRequest_injectedError {s : CdmDeviceService} (hs : s.injectedError = none)
    (commandCode : String) (payload : Option Json) :
    (executeRequest s commandCode payload).2.injectedError = none := by
  rw [executeRequest]
  split
  · exact executeCommand_injectedError hs _
  · rw [checkInjectedError_none hs]
    exact hs

/-- The codes of the commands that the dispenser has. -/
def commandCodes : List String :=
  ["WFS_CMD_CDM_RESET", "WFS_CMD_CDM_DISPENSE", "WFS_CMD_CDM_PRESENT", "WFS_CMD_CDM_RETRACT",
    "WFS_CMD_CDM_REJECT", "WFS_CMD_CDM_CASH_UNIT_INFO", "WFS_CMD_CDM_COUNT",
    "WFS_CMD_CDM_START_EXCHANGE", "WFS_CMD_CDM_END_EXCHANGE"]

theorem commandOf_other {commandCode : String} (h : commandCode ∉ commandCodes)
    (payload : Option Json) : commandOf commandCode payload = some (.other commandCode) := by
  simp only [commandCodes, List.mem_cons, List.not_mem_nil, not_or] at h
  simp [commandOf, h]

theorem executeRequest_other {s : CdmDeviceService} (hs : s.injectedError = none)
    {commandCode : String} (h : commandCode ∉ commandCodes) (payload : Option Json) :
    executeRequest s commandCode payload = (.error (.unsupported commandCode), s) := by
  rw [executeRequest, commandOf_other h]
  exact checkInjectedError_none hs _

/-- A command that throws leaves the dispenser as it was, whatever its code and payload. -/
theorem executeRequest_failed (s : CdmDeviceService) (commandCode : String)
    (payload : Option Json) :
    match executeRequest s commandCode payload with
    | (.error _, s') => Consumed s s'
    | (.ok _, _) => True := by
  cases hr : executeRequest s commandCode payload with
  | mk r s' =>
    cases r with
    | ok r => trivial
    | error e =>
      rw [executeRequest] at hr
      split at hr
      · exact executeCommand_failed hr
      · have hconsumed := consumed_of_throw s .typeError
        rwa [hr] at hconsumed

end AtmXfs.Cdm
